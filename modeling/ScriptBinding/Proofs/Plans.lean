import ScriptBinding.Session

/-! # Loading one call at a time

A worker does its work one act after the other, and others act in between. A plan says what is done
next and how to go on. The plans of the loader take structures through one call at a time, and the
command of a structure is handed over in one act and taken note of in the next. Carried out without
a pause, a plan comes to what the loader does.
-/

namespace ScriptBinding

/-- Acts on a state, the next one after the other, up to a result. What follows an act may depend on
the state that it found. -/
inductive Plan (σ α : Type) where
  | done (value : α)
  | act (change : σ → σ) (next : σ → Plan σ α)

namespace Plan

variable {σ α β : Type}

/-- Carry a plan out without a pause. -/
def run : Plan σ α → σ → α × σ
  | done value, state => (value, state)
  | act change next, state => (next state).run (change state)

/-- A single act. -/
def once (one : σ → α × σ) : Plan σ α :=
  act (fun state => (one state).2) fun state => done (one state).1

/-- Go on with what a plan has come to. -/
def bind : Plan σ α → (α → Plan σ β) → Plan σ β
  | done value, rest => rest value
  | act change next, rest => act change fun state => (next state).bind rest

/-- Change what a plan comes to. -/
def map (change : α → β) (plan : Plan σ α) : Plan σ β :=
  plan.bind fun value => done (change value)

/-- Take items through a plan one after the other. -/
def each (plan : α → Plan σ β) : List α → Plan σ (List β)
  | [] => done []
  | item :: others =>
    (plan item).bind fun first => (each plan others).map (first :: ·)

/-- Every act of the plan keeps a relation to the state that it finds. -/
def Keeps (Related : σ → σ → Prop) : Plan σ α → Prop
  | done _ => True
  | act change next => ∀ state, Related state (change state) ∧ (next state).Keeps Related

@[simp] theorem run_done (value : α) (state : σ) : (done value).run state = (value, state) := rfl

@[simp] theorem run_once (one : σ → α × σ) (state : σ) : (once one).run state = one state := rfl

@[simp] theorem run_bind (plan : Plan σ α) (rest : α → Plan σ β) (state : σ) :
    (plan.bind rest).run state = (rest (plan.run state).1).run (plan.run state).2 := by
  induction plan generalizing state with
  | done value => rfl
  | act change next ih => exact ih state (change state)

@[simp] theorem run_map (change : α → β) (plan : Plan σ α) (state : σ) :
    (plan.map change).run state = (change (plan.run state).1, (plan.run state).2) := by
  rw [map, run_bind, run_done]

section Keeps

variable {Related : σ → σ → Prop}

theorem keeps_once {one : σ → α × σ} (keeps : ∀ state, Related state (one state).2) :
    (once one).Keeps Related :=
  fun state => ⟨keeps state, trivial⟩

theorem Keeps.bind {plan : Plan σ α} {rest : α → Plan σ β} (first : plan.Keeps Related)
    (later : ∀ value, (rest value).Keeps Related) : (plan.bind rest).Keeps Related := by
  induction plan with
  | done value => exact later value
  | act change next ih => exact fun state => ⟨(first state).1, ih state (first state).2⟩

theorem Keeps.map {plan : Plan σ α} (change : α → β) (keeps : plan.Keeps Related) :
    (plan.map change).Keeps Related :=
  keeps.bind fun _ => trivial

theorem keeps_each {plan : α → Plan σ β} (items : List α)
    (keeps : ∀ item, (plan item).Keeps Related) : (each plan items).Keeps Related := by
  induction items with
  | nil => trivial
  | cons first others ih => exact (keeps first).bind fun _ => ih.map _

theorem Keeps.run {plan : Plan σ α} (refl : ∀ state, Related state state)
    (trans : ∀ {first second third}, Related first second → Related second third →
      Related first third) (keeps : plan.Keeps Related) (state : σ) :
    Related state (plan.run state).2 := by
  induction plan generalizing state with
  | done value => exact refl state
  | act change next ih => exact trans (keeps state).1 (ih state (keeps state).2 (change state))

end Keeps

end Plan

/-- What a plan for each item comes to, when carried out without a pause. -/
theorem Plan.run_each {α β : Type} {plan : α → Plan Workspace β}
    {act : α → Workspace → β × Workspace} (same : ∀ item, (plan item).run = act item)
    (items : List α) (workspace : Workspace) :
    (Plan.each plan items).run workspace = Loading.each act items workspace := by
  induction items generalizing workspace with
  | nil => rfl
  | cons first others ih =>
    rw [Plan.each, Plan.run_bind, Plan.run_map, same, ih]
    rfl

theorem Plan.run_each_once {α β : Type} (act : α → Workspace → β × Workspace) (items : List α)
    (workspace : Workspace) :
    (Plan.each (fun item => .once (act item)) items).run workspace =
      Loading.each act items workspace :=
  Plan.run_each (fun _ => rfl) items workspace

/-! ## Structures -/

namespace CommandStructure

/-- Read the command and hand it to the main thread, unless the script has it already. -/
def handOver (thread : Thread) (body : Section) (command : CommandStructure)
    (workspace : Workspace) : Except Failure Command × Workspace :=
  match workspace.reading bodyEvent (·.readCommand command.header body) with
  | (.error failure, after) => (.error failure, after)
  | (.ok loaded, after) =>
    let declared := after.context.currentCommands
    let after := after.inContext ({ · with commands := some declared })
    if declared.contains loaded.name then
      (.error (.parse body.line s!"The command /{loaded.name} is already defined in this script"),
        after)
    else (.ok loaded, after.submit thread (.register command.ticket loaded))

/-- Take note of what has become of a command that has been handed over. -/
def takeNote (loaded : Command) (ticket : Nat) (workspace : Workspace) :
    Except Failure Unit × Workspace :=
  let (refusal, host) := workspace.host.takeRefusal ticket
  let workspace := { workspace with host }
  match refusal with
  | some text => (.error (.host text), workspace)
  | none =>
    (.ok (), workspace.inContext fun context =>
      (context.declareCommand loaded.name).updateInfo (count loaded.name))

/-- Load the command, the job that registers it being submitted before its refusal is looked for. -/
def loadPlan (thread : Thread) (command : CommandStructure) :
    Plan Workspace (Except Failure CommandStructure) :=
  match command.body with
  | none => .done (.error (.fatal "Command loaded before init"))
  | some body =>
    (Plan.once (handOver thread body command)).bind fun
      | .error failure => .done (.error failure)
      | .ok loaded =>
        (Plan.once (takeNote loaded command.ticket)).map fun result =>
          result.map fun _ => { command with name := some loaded.name }

theorem run_loadPlan (thread : Thread) (command : CommandStructure) :
    (command.loadPlan thread).run = command.load thread := by
  funext workspace
  obtain ⟨ticket, header, body, name⟩ := command
  unfold loadPlan load
  cases body with
  | none => rfl
  | some body =>
    dsimp only
    rw [Plan.run_bind, Plan.run_once]
    unfold handOver loadBody
    cases workspace.reading bodyEvent (·.readCommand header body) with
    | mk result after =>
      cases result with
      | error failure => rfl
      | ok loaded =>
        dsimp only
        by_cases known : after.context.currentCommands.contains loaded.name
        · rw [if_pos known, if_pos known]
          rfl
        · rw [if_neg known, if_neg known]
          rfl

end CommandStructure

namespace Structure

/-- Load a structure. -/
def loadPlan (thread : Thread) : Structure → Plan Workspace (Outcome Unit × Structure)
  | command inner =>
    (inner.loadPlan thread).map fun
      | .ok inner => (.done (), command inner)
      | .error failure => (.failed failure, command inner)
  | other =>
    .once fun workspace =>
      let (outcome, inner, after) := other.load thread workspace
      ((outcome, inner), after)

theorem run_loadPlan (thread : Thread) (inner : Structure) (workspace : Workspace) :
    (inner.loadPlan thread).run workspace =
      let (outcome, inner, after) := inner.load thread workspace
      ((outcome, inner), after) := by
  cases inner with
  | command inner =>
    rw [loadPlan, Plan.run_map, CommandStructure.run_loadPlan]
    dsimp only [load]
    cases inner.load thread workspace with
    | mk result after => cases result <;> rfl
  | _ => rfl

end Structure

/-! ## Scripts -/

namespace Loading

/-- Let a structure take its header, and preload it. -/
def initialisePreloadingPlan (assignment : Assignment) :
    Plan Workspace (Option LoadedStructure) :=
  (Plan.once (initialise assignment)).bind fun
    | none => .done none
    | some loaded => (Plan.once (preload loaded)).map some

theorem run_initialisePreloadingPlan (assignment : Assignment) :
    (initialisePreloadingPlan assignment).run = initialisePreloading assignment := by
  funext workspace
  rw [initialisePreloadingPlan, Plan.run_bind, Plan.run_once, initialisePreloading]
  cases initialise assignment workspace with
  | mk result after => cases result <;> rfl

/-- Load a structure that has been preloaded. -/
def bodyPlan (thread : Thread) (loaded : LoadedStructure) : Plan Workspace LoadedStructure :=
  (loaded.inner.loadPlan thread).bind fun result =>
    .once fun workspace =>
      let (success, loaded, after) := conclude .load loaded (result.1, result.2, workspace)
      ({ loaded with loaded := success }, after)

/-- Load a structure, which is preloaded first unless it has been. -/
def loadOnePlan (thread : Thread) (loaded : LoadedStructure) : Plan Workspace LoadedStructure :=
  if loaded.preloaded then bodyPlan thread loaded
  else (Plan.once (preload loaded)).bind (bodyPlan thread)

theorem run_loadOnePlan (thread : Thread) (loaded : LoadedStructure) :
    (loadOnePlan thread loaded).run = load thread loaded := by
  funext workspace
  have body (loaded : LoadedStructure) (workspace : Workspace) :
      (bodyPlan thread loaded).run workspace =
        let (success, loaded, after) := conclude .load loaded (loaded.inner.load thread workspace)
        ({ loaded with loaded := success }, after) := by
    rw [bodyPlan, Plan.run_bind, Structure.run_loadPlan]
    rfl
  unfold loadOnePlan load
  cases loaded.preloaded with
  | true => exact body loaded workspace
  | false => exact body _ _

/-- Let the sections of a script take their headers. -/
def initialiseAllPlan (registry : Registry) (nodes : List Node) :
    Plan Workspace (List LoadedStructure) :=
  let (assignments, rest) := claimAll registry.preloading (topSections 0 nodes)
  (Plan.once fun workspace => ((), reportPlain nodes workspace)).bind fun _ =>
    (Plan.each initialisePreloadingPlan assignments).bind fun preloading =>
      (Plan.each (fun top => .once (initialiseNormal registry.normal top)) rest).map fun normal =>
        (preloading ++ normal).reduceOption.mergeSort before

theorem run_initialiseAllPlan (registry : Registry) (nodes : List Node) :
    (initialiseAllPlan registry nodes).run = initialiseAll registry nodes := by
  funext workspace
  simp only [initialiseAllPlan, Plan.run_bind, Plan.run_once, Plan.run_map, initialiseAll,
    Plan.run_each run_initialisePreloadingPlan,
    Plan.run_each_once]

/-- Load the script that has just become current. -/
def loadCurrentPlan (registry : Registry) (thread : Thread) (script : Script)
    (nodes : List Node) : Plan Workspace LoadedScript :=
  (Plan.once fun workspace => (workspace.context.diagnostics.length, workspace)).bind
    fun reported => (initialiseAllPlan registry nodes).bind
      fun structures => (Plan.each (loadOnePlan thread) structures).bind
        fun structures => (Plan.each (fun loaded => .once (afterLoad loaded)) structures).bind
          fun structures => .once fun workspace =>
            let workspace := workspace.inContext
              (·.updateInfo fun info => { info with structures := structures.length })
            (⟨script, structures, workspace.context.info,
              workspace.context.diagnostics.length - reported⟩, workspace)

theorem run_loadCurrentPlan (registry : Registry) (thread : Thread) (script : Script)
    (nodes : List Node) :
    (loadCurrentPlan registry thread script nodes).run =
      loadCurrent registry thread script nodes := by
  funext workspace
  simp only [loadCurrentPlan, Plan.run_bind, Plan.run_once, run_initialiseAllPlan,
    Plan.run_each (run_loadOnePlan thread), Plan.run_each_once, loadCurrent]

/-- Move on to a script, or to none. -/
def movePlan (thread : Thread) (script : Option Script) : Plan Workspace Unit :=
  .once fun workspace => ((), workspace.setScript thread script)

/-- Load a script, which becomes current. -/
def loadScriptPlan (registry : Registry) (thread : Thread) (script : Script)
    (source : ScriptSource) : Plan Workspace LoadedScript :=
  (movePlan thread (some script)).bind fun _ =>
    loadCurrentPlan registry thread script source.tree.nodes

theorem run_loadScriptPlan (registry : Registry) (thread : Thread) (script : Script)
    (source : ScriptSource) :
    (loadScriptPlan registry thread script source).run =
      loadScript registry thread script source := by
  funext workspace
  rw [loadScriptPlan, Plan.run_bind, run_loadCurrentPlan]
  rfl

/-- Unload a script, the last structures first. No script is current afterwards. -/
def unloadScriptPlan (thread : Thread) (loaded : LoadedScript) : Plan Workspace LoadedScript :=
  (movePlan thread none).bind fun _ =>
    (movePlan thread (some loaded.script)).bind fun _ =>
      (Plan.each (fun part => .once (unload thread part))
        loaded.structures.reverse).bind fun _ =>
        (movePlan thread none).bind fun _ =>
          .once fun workspace => ({ loaded with structures := [] },
            workspace.inHost fun host =>
              { host with functions := (host.functions.withdrawScript loaded.script).2 })

/-- Settle the structures of a script one after the other. -/
def settleAllPlan (thread : Thread) (script : Script) :
    List LoadedStructure → Settlement → Plan Workspace (List LoadedStructure × Settlement)
  | [], settlement => .done ([], settlement)
  | loaded :: others, settlement =>
    (Plan.once fun workspace =>
      let (first, settlement, after) := settle thread script loaded settlement workspace
      ((first, settlement), after)).bind fun settled =>
        (settleAllPlan thread script others settled.2).map fun rest =>
          (settled.1 :: rest.1, rest.2)

/-- Settle a script, and count the structures that the host has refused. -/
def settleScriptPlan (thread : Thread) (loaded : LoadedScript) :
    Plan Workspace (LoadedScript × Nat) :=
  (settleAllPlan thread loaded.script loaded.structures ⟨loaded.info, 0⟩).map fun settled =>
    ({ loaded with
        structures := settled.1
        info := settled.2.info
        errors := loaded.errors + settled.2.refused }, settled.2.refused)

/-- Settle scripts, and count the structures that the host has refused. No script is current
afterwards. -/
def settleScriptsPlan (thread : Thread) (scripts : List LoadedScript) :
    Plan Workspace (List LoadedScript × Nat) :=
  (Plan.each (settleScriptPlan thread) scripts).bind fun settled =>
    (movePlan thread none).map fun _ =>
      (settled.map Prod.fst, settled.foldl (fun count script => count + script.2) 0)

end Loading

/-! ## Sessions -/

/-- A plan for what a session works on. -/
def Plan.inSession {α : Type} : Plan Workspace α → Plan Session α
  | done value => done value
  | act change next =>
    act (·.inWorkspace change) fun session => (next session.workspace).inSession

@[simp] theorem Plan.run_inSession {α : Type} (plan : Plan Workspace α) (session : Session) :
    plan.inSession.run session =
      ((plan.run session.workspace).1,
        { session with workspace := (plan.run session.workspace).2 }) := by
  induction plan generalizing session with
  | done value => rfl
  | act change next ih => exact ih session.workspace (session.inWorkspace change)

theorem Plan.Keeps.inSession {α : Type} {plan : Plan Workspace α}
    {Related : Workspace → Workspace → Prop} (keeps : plan.Keeps Related) :
    plan.inSession.Keeps fun before after => Related before.workspace after.workspace := by
  induction plan with
  | done value => trivial
  | act change next ih =>
    exact fun session => ⟨(keeps session.workspace).1, ih _ (keeps session.workspace).2⟩

namespace Session

/-- A single act on a session that comes to nothing else. -/
def once (change : Session → Session) : Plan Session Unit :=
  .once fun session => ((), change session)

/-- Load a script, which stays current. -/
def loadPlan (thread : Thread) (source : ScriptSource) : Plan Session LoadedScript :=
  .act (fun session => { session with generations := session.generations.take.2 }) fun session =>
    (Loading.loadScriptPlan session.registry thread
      ⟨source.path, session.generations.take.1⟩ source).inSession

theorem run_loadPlan (thread : Thread) (source : ScriptSource) :
    (loadPlan thread source).run = load thread source := by
  funext session
  rw [loadPlan, Plan.run, Plan.run_inSession, Loading.run_loadScriptPlan]
  rfl

/-- Load scripts on a worker, with a new context that takes the place of the old one. -/
def loadOnWorkerPlan (sources : List ScriptSource) : Plan Session (List LoadedScript) :=
  (once fun session =>
    session.inWorkspace ({ · with context := .withParts session.parts })).bind fun _ =>
      (Plan.each (loadPlan .worker) sources).bind fun scripts =>
        (Loading.movePlan .worker none).inSession.bind fun _ =>
          (once (write (LoadSummary.ofScripts scripts).entries)).map fun _ => scripts

/-- Unload a script and load its source again. -/
def reloadPlan (thread : Thread) (loaded : LoadedScript) (source : ScriptSource) :
    Plan Session LoadedScript :=
  (Loading.unloadScriptPlan thread loaded).inSession.bind fun _ =>
    (loadPlan thread source).bind fun reloaded =>
      (Loading.movePlan thread none).inSession.map fun _ => reloaded

/-- Do the jobs that wait for the main thread, and settle scripts. -/
def runPendingPlan (thread : Thread) (scripts : List LoadedScript) :
    Plan Session (Nat × List LoadedScript) :=
  (Plan.once fun session =>
    let (count, host) := session.workspace.host.runPending thread
    (count, session.inWorkspace ({ · with host }))).bind fun count =>
      (Loading.settleScriptsPlan thread scripts).inSession.bind fun settled =>
        (once (write (if settled.2 = 0 then []
          else [⟨.warn, s!"The host rejected {settled.2} queued registration(s)"⟩]))).map
            fun _ => (count, settled.1)

end Session

end ScriptBinding
