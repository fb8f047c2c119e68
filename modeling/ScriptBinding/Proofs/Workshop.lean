import ScriptBinding.Proofs.Ledger
import ScriptBinding.Proofs.Plans
import ScriptBinding.Proofs.Reports

/-! # Workers and the main thread

Workers load, unload and reload scripts one call at a time, each with a context of its own, while
the main thread takes jobs from the queue whenever it likes. Whatever the order in which they act,
only the main thread changes the subscriptions and the commands, and every job that has been
submitted elsewhere runs there once, in the order of submission.
-/

namespace ScriptBinding

/-! ## What workers are asked to do -/

/-- What the loader is asked to do by a worker. -/
inductive Order where
  /-- Load a script in the context that the worker has. -/
  | load (source : ScriptSource)
  /-- Load scripts in a new context, and finish the last one. -/
  | loadAll (sources : List ScriptSource)
  | unload (loaded : LoadedScript)
  | reload (loaded : LoadedScript) (source : ScriptSource)
  | settle (scripts : List LoadedScript)
  /-- Move on to no script. -/
  | finish
  /-- Ask for the jobs that wait, which only the main thread can do. -/
  | runPending (scripts : List LoadedScript)

namespace Order

/-- What the loader does for an order. -/
def carryOut (session : Session) : Order → Session
  | load source => (session.load .worker source).2
  | loadAll sources => (session.loadOnWorker sources).2
  | unload loaded => (session.unload .worker loaded).2
  | reload loaded source => (session.reload .worker loaded source).2
  | settle scripts => (session.settle .worker scripts).2
  | finish => session.setScript .worker none
  | runPending scripts => (session.runPending .worker scripts).2

/-- The acts by which the loader carries an order out. -/
def plan : Order → Plan Session Unit
  | load source => (Session.loadPlan .worker source).map fun _ => ()
  | loadAll sources => (Session.loadOnWorkerPlan sources).map fun _ => ()
  | unload loaded => (Loading.unloadScriptPlan .worker loaded).inSession.map fun _ => ()
  | reload loaded source => (Session.reloadPlan .worker loaded source).map fun _ => ()
  | settle scripts => (Loading.settleScriptsPlan .worker scripts).inSession.map fun _ => ()
  | finish => (Loading.movePlan .worker none).inSession
  | runPending scripts => (Session.runPendingPlan .worker scripts).map fun _ => ()

end Order

/-! ## The workshop -/

/-- A worker, with what it still has to do. -/
structure Worker where
  context : Context
  plan : Plan Session Unit := .done ()

/-- Workers and the main thread at a host. -/
structure Workshop where
  registry : Registry
  parts : List ContextPart
  generations : GenerationCounter := {}
  host : Host
  workers : Nat → Worker
  /-- The main thread is taking jobs from the queue. -/
  draining : Bool := false
  /-- The task from the queue that the main thread is at. -/
  executing : Option (Work Job) := none
  /-- The tasks that have ever been put in the queue, in the order of submission. -/
  queued : List (Work Job) := []
  /-- The tasks from the queue that have run, in order. -/
  ran : List (Work Job) := []

namespace Workshop

/-- A step of a worker or of the main thread. -/
inductive Step where
  /-- A worker that has nothing else to do is given an order. -/
  | order (worker : Nat) (order : Order)
  /-- A worker does its next act. -/
  | advance (worker : Nat)
  /-- A task is submitted by a thread. The main thread does not submit any while it is at a task,
  except by that. -/
  | submit (thread : Thread) (task : Work Job)
  /-- The main thread begins to drain the queue. -/
  | startDrain
  /-- The main thread takes the next task from the queue, or ends the drain if there is none. -/
  | next
  /-- The main thread does the task that it is at. -/
  | finish

/-- The host before anything has been submitted. -/
def start (registry : Registry) (parts : List ContextPart) (host : Host) : Workshop where
  registry := registry
  parts := parts
  host := { host with
    queue := {}
    bus := { host.bus with offMain := 0 }
    commands := { host.commands with offMain := 0 } }
  workers := fun _ => { context := .withParts parts }

/-- What a worker acts on. -/
def session (worker : Nat) (shop : Workshop) : Session :=
  ⟨shop.registry, shop.parts, shop.generations, ⟨shop.host, (shop.workers worker).context⟩⟩

/-- The workshop with another host, and with what has been put in its queue. -/
def atHost (host : Host) (shop : Workshop) : Workshop :=
  { shop with
    host
    queued := shop.queued ++ host.queue.waiting.drop shop.host.queue.waiting.length }

/-- The workshop once a worker has acted. -/
def resume (worker : Nat) (session : Session) (plan : Plan Session Unit) (shop : Workshop) :
    Workshop :=
  { shop.atHost session.workspace.host with
    registry := session.registry
    parts := session.parts
    generations := session.generations
    workers := Function.update shop.workers worker ⟨session.workspace.context, plan⟩ }

/-- Do the actions of a task on the main thread, and put what it leaves in the queue. -/
def carryOut (task : Work Job) (host : Host) : Host :=
  task.run.1.foldl Host.perform { host with queue := host.queue.enqueue task.run.2 }

def step (shop : Workshop) : Step → Workshop
  | .order worker order =>
    match (shop.workers worker).plan with
    | .done () =>
      { shop with
        workers := Function.update shop.workers worker
          { shop.workers worker with plan := order.plan } }
    | .act _ _ => shop
  | .advance worker =>
    match (shop.workers worker).plan with
    | .done () => shop
    | .act change next =>
      let found := shop.session worker
      shop.resume worker (change found) (next found)
  | .submit .worker task =>
    shop.atHost ({ shop.host with queue := shop.host.queue.enqueue [task] })
  | .submit .main task =>
    match shop.executing with
    | some _ => shop
    | none => shop.atHost (carryOut task shop.host)
  | .startDrain => { shop with draining := true }
  | .next =>
    if shop.draining && shop.executing.isNone then
      match shop.host.queue.waiting with
      | [] => { shop with draining := false }
      | task :: others =>
        { shop with
          host := { shop.host with queue := { shop.host.queue with waiting := others } }
          executing := some task }
    else shop
  | .finish =>
    match shop.executing with
    | none => shop
    | some task =>
      { shop.atHost (carryOut task shop.host) with
        executing := none
        ran := shop.ran ++ [task] }

def run (steps : List Step) (shop : Workshop) : Workshop :=
  steps.foldl step shop

end Workshop

/-! ## What workers leave alone -/

/-- Jobs have been left for the main thread, and its tables have been left alone. -/
structure Host.Entrusts (before after : Host) : Prop where
  bus : after.bus = before.bus
  commands : after.commands = before.commands
  queue : ∃ jobs : List Job, after.queue = before.queue.enqueue (jobs.map Work.single)

namespace Host.Entrusts

theorem of_same {before after : Host} (bus : after.bus = before.bus)
    (commands : after.commands = before.commands) (queue : after.queue = before.queue) :
    Entrusts before after := by
  refine ⟨bus, commands, [], ?_⟩
  rw [queue]
  simp [JobQueue.enqueue]

theorem refl (host : Host) : Entrusts host host :=
  of_same rfl rfl rfl

theorem trans {first second third : Host} (before : Entrusts first second)
    (after : Entrusts second third) : Entrusts first third := by
  obtain ⟨jobs, queued⟩ := before.queue
  obtain ⟨others, later⟩ := after.queue
  refine ⟨after.bus.trans before.bus, after.commands.trans before.commands, jobs ++ others, ?_⟩
  rw [later, queued]
  simp [JobQueue.enqueue, Nat.add_assoc]

theorem submit (job : Job) (host : Host) : Entrusts host (host.submit .worker job) :=
  ⟨rfl, rfl, [job], rfl⟩

end Host.Entrusts

/-- A worker has changed the host of a workspace only by leaving jobs. -/
def Workspace.Entrusts (before after : Workspace) : Prop :=
  before.host.Entrusts after.host

namespace Workspace.Entrusts

theorem refl (workspace : Workspace) : Entrusts workspace workspace :=
  Host.Entrusts.refl _

theorem trans {first second third : Workspace} (before : Entrusts first second)
    (after : Entrusts second third) : Entrusts first third :=
  Host.Entrusts.trans before after

theorem of_untouched {before after : Workspace} (untouched : before.Untouched after) :
    Entrusts before after :=
  .of_same untouched.bus untouched.commands untouched.queue

theorem of_still {before after : Workspace} (still : before.Still after) : Entrusts before after :=
  of_untouched still.untouched

theorem inContext (change : Context → Context) (workspace : Workspace) :
    Entrusts workspace (workspace.inContext change) :=
  Host.Entrusts.refl _

theorem setScript (script : Option Script) (workspace : Workspace) :
    Entrusts workspace (workspace.setScript .worker script) := by
  have flushed : Entrusts workspace (workspace.flush .worker) := by
    unfold flush
    dsimp only
    split
    · exact Host.Entrusts.refl _
    · split
      · exact Host.Entrusts.submit _ _
      · exact Host.Entrusts.of_same rfl rfl rfl
  unfold Workspace.setScript
  split
  · exact Host.Entrusts.refl _
  · exact flushed

end Workspace.Entrusts

open Workspace (Entrusts)

namespace CommandStructure

theorem handOver_entrusts (body : Section) (command : CommandStructure) (workspace : Workspace) :
    Entrusts workspace (handOver .worker body command workspace).2 := by
  unfold handOver
  rw [Workspace.reading_readCommand]
  have left (traces : Traces) : Entrusts workspace (workspace.leave traces) :=
    .of_still (.leave traces workspace)
  cases (workspace.commandFor bodyEvent command.header body).1 with
  | error failure => exact left _
  | ok loaded =>
    dsimp only
    split
    · exact left _
    · exact (left _).trans (Host.Entrusts.submit _ _)

theorem takeNote_entrusts (loaded : Command) (ticket : Nat) (workspace : Workspace) :
    Entrusts workspace (takeNote loaded ticket workspace).2 := by
  unfold takeNote
  dsimp only
  split <;> exact Host.Entrusts.of_same rfl rfl rfl

theorem loadPlan_entrusts (command : CommandStructure) :
    (command.loadPlan .worker).Keeps Entrusts := by
  unfold loadPlan
  split
  · trivial
  · next body _ =>
    refine (Plan.keeps_once (handOver_entrusts body command)).bind fun result => ?_
    cases result with
    | error failure => trivial
    | ok loaded => exact (Plan.keeps_once (takeNote_entrusts loaded command.ticket)).map _

end CommandStructure

namespace Structure

theorem loadPlan_entrusts (inner : Structure) : (inner.loadPlan .worker).Keeps Entrusts := by
  cases inner with
  | command inner => exact inner.loadPlan_entrusts.map _
  | options inner => exact Plan.keeps_once fun workspace => .of_still (inner.apply_still workspace)
  | function inner =>
    exact Plan.keeps_once fun workspace => .of_untouched (inner.load_untouched workspace).1
  | custom inner =>
    exact Plan.keeps_once fun workspace => .of_still (inner.respond_still .load workspace)
  | aliases => exact Plan.keeps_once fun workspace => .of_still (.refl workspace)
  | defaults inner => exact Plan.keeps_once fun workspace => .of_still (.refl workspace)
  | event inner => exact Plan.keeps_once fun workspace => .of_still (.refl workspace)

theorem load_entrusts (inner : Structure) (workspace : Workspace) :
    Entrusts workspace (inner.load .worker workspace).2.2 := by
  have kept := inner.loadPlan_entrusts.run Workspace.Entrusts.refl Workspace.Entrusts.trans workspace
  rw [run_loadPlan] at kept
  exact kept

theorem unload_entrusts (inner : Structure) (workspace : Workspace) :
    Entrusts workspace (inner.unload .worker workspace).2.2 := by
  cases inner with
  | function inner => exact .of_untouched (inner.unload_untouched workspace).1
  | command inner => exact Host.Entrusts.submit _ _
  | event inner => exact Host.Entrusts.submit _ _
  | custom inner => exact .of_still (inner.respond_still .unload workspace)
  | _ => exact Host.Entrusts.refl _

theorem settle_entrusts (info : ScriptInfo) (inner : Structure) (workspace : Workspace) :
    Entrusts workspace (inner.settle info workspace).2.2 := by
  cases inner with
  | command inner =>
    dsimp only [settle, CommandStructure.settle]
    cases taken : (workspace.host.takeRefusal inner.ticket) with
    | mk refusal host =>
      have same : Entrusts workspace { workspace with host } := by
        cases taken
        exact Host.Entrusts.of_same rfl rfl rfl
      cases refusal <;> exact same
  | custom inner => exact .of_still (inner.respond_still .settle workspace)
  | _ => exact Host.Entrusts.refl _

end Structure

namespace Loading

theorem record_entrusts (failure : Failure) (line : Option Nat) (workspace : Workspace) :
    Entrusts workspace (workspace.record failure line) :=
  Host.Entrusts.of_same rfl rfl rfl

/-- Everything that a load on a worker consists of leaves the tables alone. -/
theorem entrusts_carried : Carried Entrusts .worker where
  refl := fun _ => Host.Entrusts.refl _
  trans := .trans
  takeTicket := fun _ => Host.Entrusts.of_same rfl rfl rfl
  takeInHand := fun _ _ => .inContext _
  noteCall := fun _ => .inContext _
  updateInfo := fun _ => .inContext _
  record := record_entrusts
  init := fun inner header body workspace =>
    .of_untouched (inner.init_untouched header body workspace)
  preload := fun inner workspace => .of_untouched (inner.preload_untouched workspace).1
  load := Structure.load_entrusts
  afterLoad := fun inner workspace => .of_still (inner.afterLoad_still workspace)

theorem unload_entrusts (loaded : LoadedStructure) (workspace : Workspace) :
    Entrusts workspace (unload .worker loaded workspace).2 := by
  unfold unload
  split
  · exact (loaded.inner.unload_entrusts workspace).trans (entrusts_carried.conclude .unload loaded _)
  · exact Host.Entrusts.refl _

theorem settle_entrusts (script : Script) (loaded : LoadedStructure) (settlement : Settlement)
    (workspace : Workspace) :
    Entrusts workspace (settle .worker script loaded settlement workspace).2.2 := by
  unfold settle
  split
  · have settled := loaded.inner.settle_entrusts settlement.info workspace
    generalize loaded.inner.settle settlement.info workspace = result at *
    obtain ⟨outcome, info, after⟩ := result
    dsimp only
    split
    · exact settled.trans (.inContext _ after)
    · exact (settled.trans (.inContext _ after)).trans
        ((Workspace.Entrusts.setScript _ _).trans (record_entrusts _ _ _))
  · exact Host.Entrusts.refl _

/-! ### Plans -/

theorem initialisePreloadingPlan_entrusts (assignment : Assignment) :
    (initialisePreloadingPlan assignment).Keeps Entrusts := by
  refine (Plan.keeps_once (entrusts_carried.initialise assignment)).bind fun result => ?_
  cases result with
  | none => trivial
  | some loaded => exact (Plan.keeps_once (entrusts_carried.preloadOne loaded)).map _

theorem loadOnePlan_entrusts (loaded : LoadedStructure) :
    (loadOnePlan .worker loaded).Keeps Entrusts := by
  have body (loaded : LoadedStructure) : (bodyPlan .worker loaded).Keeps Entrusts :=
    loaded.inner.loadPlan_entrusts.bind fun result =>
      Plan.keeps_once fun workspace =>
        entrusts_carried.conclude .load loaded (result.1, result.2, workspace)
  unfold loadOnePlan
  split
  · exact body loaded
  · exact (Plan.keeps_once (entrusts_carried.preloadOne loaded)).bind body

theorem movePlan_entrusts (script : Option Script) : (movePlan .worker script).Keeps Entrusts :=
  Plan.keeps_once (.setScript script)

theorem loadScriptPlan_entrusts (registry : Registry) (script : Script) (source : ScriptSource) :
    (loadScriptPlan registry .worker script source).Keeps Entrusts := by
  have headers : (initialiseAllPlan registry source.tree.nodes).Keeps Entrusts :=
    (Plan.keeps_once (entrusts_carried.reportPlain _)).bind fun _ =>
      (Plan.keeps_each _ initialisePreloadingPlan_entrusts).bind fun _ =>
        (Plan.keeps_each _ fun top =>
          Plan.keeps_once (entrusts_carried.initialiseNormal registry.normal top)).map _
  have counted : (Plan.once fun workspace : Workspace =>
      (workspace.context.diagnostics.length, workspace)).Keeps Entrusts :=
    Plan.keeps_once fun _ => Host.Entrusts.refl _
  refine (movePlan_entrusts _).bind fun _ => counted.bind fun _ => ?_
  refine headers.bind fun structures => ?_
  refine (Plan.keeps_each _ loadOnePlan_entrusts).bind fun structures => ?_
  refine (Plan.keeps_each _ fun loaded =>
    Plan.keeps_once (entrusts_carried.afterLoadOne loaded)).bind fun structures => ?_
  exact Plan.keeps_once fun workspace => .inContext _ workspace

theorem unloadScriptPlan_entrusts (loaded : LoadedScript) :
    (unloadScriptPlan .worker loaded).Keeps Entrusts := by
  refine (movePlan_entrusts none).bind fun _ => (movePlan_entrusts _).bind fun _ => ?_
  refine (Plan.keeps_each _ fun part => Plan.keeps_once (unload_entrusts part)).bind fun _ => ?_
  refine (movePlan_entrusts none).bind fun _ => ?_
  exact Plan.keeps_once fun _ => Host.Entrusts.of_same rfl rfl rfl

theorem settleAllPlan_entrusts (script : Script) (structures : List LoadedStructure)
    (settlement : Settlement) :
    (settleAllPlan .worker script structures settlement).Keeps Entrusts := by
  induction structures generalizing settlement with
  | nil => trivial
  | cons loaded others ih =>
    refine (Plan.keeps_once fun workspace => ?_).bind fun settled => (ih settled.2).map _
    exact settle_entrusts script loaded settlement workspace

theorem settleScriptsPlan_entrusts (scripts : List LoadedScript) :
    (settleScriptsPlan .worker scripts).Keeps Entrusts := by
  have one (loaded : LoadedScript) : (settleScriptPlan .worker loaded).Keeps Entrusts :=
    (settleAllPlan_entrusts loaded.script _ _).map _
  exact (Plan.keeps_each scripts one).bind fun _ => (movePlan_entrusts none).map _

end Loading

/-- A worker has changed the host of a session only by leaving jobs. -/
def Session.Entrusts (before after : Session) : Prop :=
  before.workspace.Entrusts after.workspace

namespace Session

theorem loadPlan_entrusts (source : ScriptSource) : (loadPlan .worker source).Keeps Session.Entrusts :=
  fun _ => ⟨Host.Entrusts.refl _, (Loading.loadScriptPlan_entrusts _ _ source).inSession⟩

theorem once_entrusts {change : Session → Session}
    (same : ∀ session, Session.Entrusts session (change session)) :
    (once change).Keeps Session.Entrusts :=
  Plan.keeps_once same

theorem write_entrusts (entries : List LogEntry) (session : Session) :
    Session.Entrusts session (session.write entries) :=
  Host.Entrusts.of_same rfl rfl rfl

end Session

theorem Order.plan_entrusts (order : Order) : order.plan.Keeps Session.Entrusts := by
  cases order with
  | load source => exact (Session.loadPlan_entrusts source).map _
  | loadAll sources =>
    refine Plan.Keeps.map _ (Plan.Keeps.bind ?_ fun _ => ?_)
    · exact Session.once_entrusts fun _ => Host.Entrusts.refl _
    · refine (Plan.keeps_each _ Session.loadPlan_entrusts).bind fun scripts => ?_
      refine (Loading.movePlan_entrusts none).inSession.bind fun _ => ?_
      exact (Session.once_entrusts (Session.write_entrusts _)).map _
  | unload loaded => exact (Loading.unloadScriptPlan_entrusts loaded).inSession.map _
  | reload loaded source =>
    refine Plan.Keeps.map _ ((Loading.unloadScriptPlan_entrusts loaded).inSession.bind fun _ => ?_)
    refine (Session.loadPlan_entrusts source).bind fun _ => ?_
    exact (Loading.movePlan_entrusts none).inSession.map _
  | settle scripts => exact (Loading.settleScriptsPlan_entrusts scripts).inSession.map _
  | finish => exact (Loading.movePlan_entrusts none).inSession
  | runPending scripts =>
    refine Plan.Keeps.map _ (Plan.Keeps.bind ?_ fun _ => ?_)
    · exact Plan.keeps_once fun _ => Host.Entrusts.of_same rfl rfl rfl
    · refine (Loading.settleScriptsPlan_entrusts scripts).inSession.bind fun _ => ?_
      exact (Session.once_entrusts (Session.write_entrusts _)).map _

/-! ## What jobs leave alone -/

namespace CommandTable

theorem register_offMain {command : Command} {table after : CommandTable}
    (registers : table.register command = .ok after) : after.offMain = table.offMain := by
  unfold register at registers
  split at registers
  · cases registers
  · cases Except.ok.inj registers
    rfl

theorem unregister_offMain (name : String) (table : CommandTable) :
    (table.unregister name).2.offMain = table.offMain := by
  unfold unregister
  split <;> rfl

end CommandTable

namespace Host

/-- Neither the bus nor the command table has counted a modification by a worker. -/
def Unmarred (host : Host) : Prop :=
  host.bus.offMain = 0 ∧ host.commands.offMain = 0

variable {host : Host}

theorem Unmarred.of_same {after : Host} (unmarred : host.Unmarred)
    (bus : after.bus.offMain = host.bus.offMain)
    (commands : after.commands.offMain = host.commands.offMain) : after.Unmarred :=
  ⟨bus.trans unmarred.1, commands.trans unmarred.2⟩

theorem bindDraft_offMain (script : Script) (draft : TriggerDraft) (host : Host) :
    (host.bindDraft script draft).bus.offMain = host.bus.offMain := by
  unfold bindDraft
  dsimp only
  split
  · obtain ⟨_, _, _, _, same⟩ := selfRegister_eq (draft.toTrigger script)
      (host.keepBound draft.ticket (some (draft.toTrigger script)))
    rw [same]
    rfl
  · rfl

theorem unbind_offMain (ticket : Nat) (host : Host) :
    (host.unbind ticket).bus.offMain = host.bus.offMain := by
  unfold unbind
  split
  · rfl
  · next trigger _ =>
    dsimp only
    split
    · obtain ⟨_, _, same⟩ := selfUnregister_eq trigger (host.keepBound ticket none)
      rw [same]
      rfl
    · rfl

/-- Jobs that the main thread does are no modifications by a worker. -/
theorem Unmarred.perform (unmarred : host.Unmarred) (job : Job) : (host.perform job).Unmarred := by
  cases job with
  | bind script drafts =>
    have all (drafts : List TriggerDraft) (host : Host) :
        (host.perform (.bind script drafts)).bus.offMain = host.bus.offMain := by
      induction drafts generalizing host with
      | nil => rfl
      | cons draft others ih =>
        exact (ih (host.bindDraft script draft)).trans (bindDraft_offMain script draft host)
    exact unmarred.of_same (all drafts host)
      (congrArg _ (perform_bind script drafts host).1.commands)
  | unbind ticket =>
    refine unmarred.of_same (unbind_offMain ticket host) ?_
    change (host.unbind ticket).commands.offMain = _
    cases found : host.bound ticket with
    | none => rw [unbind_of_none found]
    | some trigger => rw [(unbind_of_some found).1.commands]
  | register ticket command =>
    obtain ⟨step, cases⟩ := registerUnder_spec ticket command host
    refine unmarred.of_same (congrArg _ step.bus) ?_
    change (host.registerUnder ticket command).commands.offMain = _
    obtain ⟨failure, _, same, _⟩ | ⟨table, registers, same, _⟩ := cases
    · rw [same]
    · rw [same, CommandTable.register_offMain registers]
  | unregister ticket =>
    change (host.unregisterUnder ticket).Unmarred
    cases found : (host.registrations ticket).registered with
    | none => rwa [unregisterUnder_of_none found]
    | some command =>
      obtain ⟨step, same, _⟩ := unregisterUnder_of_some found
      refine unmarred.of_same (congrArg _ step.bus) ?_
      rw [same, CommandTable.unregister_offMain]

theorem Unmarred.performAll (unmarred : host.Unmarred) (jobs : List Job) :
    (jobs.foldl Host.perform host).Unmarred := by
  induction jobs generalizing host with
  | nil => exact unmarred
  | cons job others ih => exact ih (unmarred.perform job)

theorem Entrusts.unmarred {after : Host} (entrusts : host.Entrusts after) (unmarred : host.Unmarred) :
    after.Unmarred :=
  unmarred.of_same (congrArg _ entrusts.bus) (congrArg _ entrusts.commands)

end Host

namespace Host

/-! ### Jobs do not look at the queue -/

/-- The host with another queue. -/
def withQueue (queue : JobQueue Job) (host : Host) : Host :=
  { host with queue }

end Host

/-! ## Runs -/

namespace Workshop

variable {shop : Workshop}

/-- What holds in every state that a workshop reaches. -/
structure Tracked (shop : Workshop) : Prop where
  unmarred : shop.host.Unmarred
  /-- What has been queued has run, is being done, or waits, in this order. -/
  queued : shop.queued = shop.ran ++ shop.executing.toList ++ shop.host.queue.waiting
  submitted : shop.host.queue.submitted = shop.queued.length
  /-- What workers still have to do leaves the tables alone. -/
  plans : ∀ worker, (shop.workers worker).plan.Keeps Session.Entrusts

/-- What tasks behind those that wait do to the workshop. -/
theorem queued_atHost {host : Host} {tasks : List (Work Job)}
    (queue : host.queue = shop.host.queue.enqueue tasks) :
    (shop.atHost host).queued = shop.queued ++ tasks := by
  rw [atHost, queue, JobQueue.enqueue, List.drop_left]

theorem queue_carryOut (task : Work Job) (host : Host) :
    (carryOut task host).queue = host.queue.enqueue task.run.2 :=
  (Host.performAll_step _ _).queue

theorem unmarred_carryOut (task : Work Job) {host : Host} (unmarred : host.Unmarred) :
    (carryOut task host).Unmarred := by
  have queued : (host.withQueue (host.queue.enqueue task.run.2)).Unmarred := unmarred
  exact queued.performAll task.run.1

theorem Tracked.atHost (tracked : shop.Tracked) {host : Host} {tasks : List (Work Job)}
    (unmarred : host.Unmarred) (queue : host.queue = shop.host.queue.enqueue tasks) :
    (shop.atHost host).Tracked where
  unmarred := unmarred
  queued := by
    rw [queued_atHost queue, tracked.queued, List.append_assoc]
    exact congrArg _ (congrArg JobQueue.waiting queue).symm
  submitted := by
    rw [queued_atHost queue, List.length_append, ← tracked.submitted]
    exact congrArg JobQueue.submitted queue
  plans := tracked.plans

theorem Tracked.order (tracked : shop.Tracked) (worker : Nat) (order : Order) :
    (shop.step (.order worker order)).Tracked := by
  unfold step
  dsimp only
  split
  · refine ⟨tracked.unmarred, tracked.queued, tracked.submitted, fun other => ?_⟩
    by_cases same : other = worker
    · subst same
      simpa using order.plan_entrusts
    · simpa [Function.update_of_ne same] using tracked.plans other
  · exact tracked

/-- What a worker does next leaves the tables alone, and so does what it will do later. -/
theorem Tracked.act (tracked : shop.Tracked) {worker : Nat} {change : Session → Session}
    {next : Session → Plan Session Unit} (plan : (shop.workers worker).plan = .act change next)
    (session : Session) :
    Session.Entrusts session (change session) ∧ (next session).Keeps Session.Entrusts := by
  have keeps := tracked.plans worker
  rw [plan] at keeps
  exact keeps session

theorem Tracked.advance (tracked : shop.Tracked) (worker : Nat) :
    (shop.step (.advance worker)).Tracked := by
  unfold step
  dsimp only
  split
  · exact tracked
  · next change next plan =>
    obtain ⟨entrusts, later⟩ := tracked.act plan (shop.session worker)
    obtain ⟨jobs, queue⟩ := entrusts.queue
    have acted := tracked.atHost (entrusts.unmarred tracked.unmarred) queue
    refine ⟨acted.unmarred, acted.queued, acted.submitted, fun other => ?_⟩
    by_cases same : other = worker
    · subst same
      simpa [resume] using later
    · simpa [resume, Function.update_of_ne same] using tracked.plans other

theorem Tracked.step (tracked : shop.Tracked) (step : Step) : (shop.step step).Tracked := by
  cases step with
  | order worker order => exact tracked.order worker order
  | advance worker => exact tracked.advance worker
  | submit thread task =>
    cases thread with
    | worker => exact tracked.atHost tracked.unmarred rfl
    | main =>
      unfold Workshop.step
      dsimp only
      split
      · exact tracked
      · exact tracked.atHost (unmarred_carryOut task tracked.unmarred) (queue_carryOut task _)
  | startDrain => exact ⟨tracked.unmarred, tracked.queued, tracked.submitted, tracked.plans⟩
  | next =>
    unfold Workshop.step
    dsimp only
    split
    · next ready =>
      have idle : shop.executing = none :=
        Option.isNone_iff_eq_none.mp (Bool.and_eq_true_iff.mp ready).2
      have queued := tracked.queued
      split
      · exact ⟨tracked.unmarred, queued, tracked.submitted, tracked.plans⟩
      · next task others waiting =>
        refine ⟨tracked.unmarred, ?_, tracked.submitted, tracked.plans⟩
        rw [queued, idle, waiting]
        simp
    · exact tracked
  | finish =>
    unfold Workshop.step
    dsimp only
    split
    · exact tracked
    · next task executing =>
      have done := tracked.atHost (unmarred_carryOut task tracked.unmarred) (queue_carryOut task _)
      refine ⟨done.unmarred, ?_, done.submitted, done.plans⟩
      have queued := done.queued
      rw [show (shop.atHost (carryOut task shop.host)).executing = some task from executing]
        at queued
      rw [queued]
      simp [Workshop.atHost]

theorem Tracked.run (tracked : shop.Tracked) (steps : List Step) : (shop.run steps).Tracked := by
  unfold Workshop.run
  induction steps generalizing shop with
  | nil => exact tracked
  | cons step others ih => exact ih (tracked.step step)

/-! ### What is kept from step to step -/

theorem queued_grows (shop : Workshop) (step : Step) :
    shop.queued <+: (shop.step step).queued := by
  have appended (host : Host) : shop.queued <+: (shop.atHost host).queued := List.prefix_append _ _
  unfold Workshop.step
  split
  · split <;> exact List.prefix_rfl
  · split
    · exact List.prefix_rfl
    · exact appended _
  · exact appended _
  · split
    · exact List.prefix_rfl
    · exact appended _
  · exact List.prefix_rfl
  · split
    · split <;> exact List.prefix_rfl
    · exact List.prefix_rfl
  · split
    · exact List.prefix_rfl
    · exact appended _

theorem ran_grows (shop : Workshop) (step : Step) : shop.ran <+: (shop.step step).ran := by
  unfold Workshop.step
  split
  · split <;> exact List.prefix_rfl
  · split <;> exact List.prefix_rfl
  · exact List.prefix_rfl
  · split <;> exact List.prefix_rfl
  · exact List.prefix_rfl
  · split
    · split <;> exact List.prefix_rfl
    · exact List.prefix_rfl
  · split
    · exact List.prefix_rfl
    · exact List.prefix_append _ _

/-- Tasks have been queued, and the main thread is draining the queue or has run them. -/
def Completes (tasks : List (Work Job)) (shop : Workshop) : Prop :=
  shop.draining = true ∧ tasks <+: shop.queued ∨ tasks <+: shop.ran

/-- A drain ends only when no task is being done and none waits. -/
theorem drain_ends {step : Step} (draining : shop.draining = true)
    (ends : (shop.step step).draining = false) :
    shop.executing = none ∧ shop.host.queue.waiting = [] ∧
      shop.step step = { shop with draining := false } := by
  have goesOn {after : Workshop} (same : after.draining = shop.draining)
      (ended : after.draining = false) : False := by
    rw [same, draining] at ended
    cases ended
  unfold Workshop.step at ends ⊢
  split at ends
  · split at ends <;> exact (goesOn rfl ends).elim
  · split at ends <;> exact (goesOn rfl ends).elim
  · exact (goesOn rfl ends).elim
  · split at ends <;> exact (goesOn rfl ends).elim
  · cases ends
  · dsimp only
    split at ends
    · next ready =>
      rw [if_pos ready]
      have idle := Option.isNone_iff_eq_none.mp (Bool.and_eq_true_iff.mp ready).2
      split at ends
      · next none => exact ⟨idle, none, rfl⟩
      · exact (goesOn rfl ends).elim
    · exact (goesOn rfl ends).elim
  · split at ends <;> exact (goesOn rfl ends).elim

/-- Everything that has been queued when a drain ends has run. -/
theorem Completes.step {tasks : List (Work Job)} (completes : shop.Completes tasks)
    (tracked : shop.Tracked) (step : Step) : (shop.step step).Completes tasks := by
  rcases completes with ⟨draining, queued⟩ | ran
  · by_cases goesOn : (shop.step step).draining = true
    · exact Or.inl ⟨goesOn, queued.trans (queued_grows shop step)⟩
    · obtain ⟨idle, empty, same⟩ := drain_ends draining (Bool.not_eq_true _ ▸ goesOn)
      refine Or.inr ?_
      rw [same]
      rw [tracked.queued, idle, empty] at queued
      simpa using queued
  · exact Or.inr (ran.trans (ran_grows shop step))

theorem Completes.run {tasks : List (Work Job)} (completes : shop.Completes tasks)
    (tracked : shop.Tracked) (steps : List Step) : (shop.run steps).Completes tasks := by
  unfold Workshop.run
  induction steps generalizing shop with
  | nil => exact completes
  | cons step others ih => exact ih (completes.step tracked step) (tracked.step step)

theorem Tracked.pending (tracked : shop.Tracked) (idle : shop.executing = none) :
    shop.host.queue.pending + shop.ran.length = shop.host.queue.submitted := by
  have queued := tracked.queued
  rw [idle] at queued
  rw [tracked.submitted, queued, JobQueue.pending]
  simp [Nat.add_comm]

end Workshop

end ScriptBinding
