import ScriptBinding.Proofs.BodyCalls
import ScriptBinding.Proofs.Ledger
import ScriptBinding.Proofs.Reports

/-! # The bodies of a host

A host holds bodies in its subscriptions, commands and functions, and in the jobs that wait; a
context holds those of the triggers that wait. Jobs only move bodies around. A load adds bodies that
it has read, which call only functions that are declared by then.
-/

namespace ScriptBinding

/-! ## The bodies of a host -/

/-- The bodies that a job is about. -/
def Job.bodies : Job → List (List Item)
  | .bind _ drafts => drafts.map TriggerDraft.items
  | .register _ command => [command.items]
  | .unbind _ | .unregister _ => []

namespace Work

variable {α : Type}

/-- What a task does itself, and what is done by the tasks it submits. -/
def actions : Work α → List α
  | .mk action submissions => action :: actionsAll submissions
where
  /-- What submitted tasks do. -/
  actionsAll : List (Thread × Work α) → List α
    | [] => []
    | (_, task) :: others => task.actions ++ actionsAll others

mutual

theorem mem_run {action : α} (task : Work α)
    (member : action ∈ task.run.1 ∨ ∃ later ∈ task.run.2, action ∈ later.actions) :
    action ∈ task.actions := by
  match task with
  | .mk own submissions =>
    rcases member with here | later
    · rcases List.mem_cons.mp here with rfl | there
      · exact List.mem_cons_self
      · exact List.mem_cons_of_mem _ (mem_runAll submissions (Or.inl there))
    · exact List.mem_cons_of_mem _ (mem_runAll submissions (Or.inr later))

theorem mem_runAll {action : α} (submissions : List (Thread × Work α))
    (member : action ∈ (run.runAll submissions).1 ∨
      ∃ later ∈ (run.runAll submissions).2, action ∈ later.actions) :
    action ∈ actions.actionsAll submissions := by
  match submissions with
  | [] =>
    rcases member with here | ⟨_, there, _⟩
    · exact absurd here List.not_mem_nil
    · exact absurd there List.not_mem_nil
  | (.main, task) :: others =>
    refine List.mem_append.mpr ?_
    rcases member with here | ⟨later, there, does⟩
    · exact (List.mem_append.mp here).imp (fun own => mem_run task (Or.inl own))
        fun rest => mem_runAll others (Or.inl rest)
    · exact (List.mem_append.mp there).imp (fun own => mem_run task (Or.inr ⟨later, own, does⟩))
        fun rest => mem_runAll others (Or.inr ⟨later, rest, does⟩)
  | (.worker, task) :: others =>
    refine List.mem_append.mpr ?_
    rcases member with here | ⟨later, there, does⟩
    · exact Or.inr (mem_runAll others (Or.inl here))
    · rcases List.mem_cons.mp there with rfl | rest
      · exact Or.inl does
      · exact Or.inr (mem_runAll others (Or.inr ⟨later, rest, does⟩))

end

end Work

/-- What is done while tasks are drained is done by one of them. -/
theorem JobQueue.mem_drainAll {α : Type} {action : α} {tasks : List (Work α)}
    (done : action ∈ (drainAll tasks).done) : ∃ task ∈ tasks, action ∈ task.actions := by
  fun_induction drainAll tasks with
  | case1 => exact absurd done List.not_mem_nil
  | case2 task others rest ih =>
    rcases List.mem_append.mp done with here | later
    · exact ⟨task, List.mem_cons_self, task.mem_run (Or.inl here)⟩
    · obtain ⟨next, member, does⟩ := ih later
      rcases List.mem_append.mp member with waited | submitted
      · exact ⟨next, List.mem_cons_of_mem _ waited, does⟩
      · exact ⟨task, List.mem_cons_self, task.mem_run (Or.inr ⟨next, submitted, does⟩)⟩

namespace Host

/-- The bodies that a host can run, now or when a job that waits has been done. -/
inductive MayRun (host : Host) : List Item → Prop
  | subscribed (subscription : Subscription) (member : subscription ∈ host.bus.subscriptions) :
      MayRun host subscription.trigger.items
  | selfRegistered (trigger : Trigger) (member : trigger ∈ host.bus.selfRegistered) :
      MayRun host trigger.items
  | listening (trigger : Trigger) (member : trigger ∈ host.bus.loadListeners) :
      MayRun host trigger.items
  | command (name : String) (command : Command)
      (found : host.commands.commands.get? name = some command) : MayRun host command.items
  | function (name : String) (function : Function)
      (found : host.functions.bodies.get? name = some function) : MayRun host function.items
  | waiting (task : Work Job) (job : Job) (items : List Item) (member : task ∈ host.queue.waiting)
      (does : job ∈ task.actions) (body : items ∈ job.bodies) : MayRun host items

variable {host after : Host} {items : List Item}

theorem MayRun.of_same (bus : after.bus = host.bus) (commands : after.commands = host.commands)
    (functions : after.functions = host.functions) (queue : after.queue = host.queue)
    (runs : after.MayRun items) : host.MayRun items := by
  cases runs with
  | subscribed subscription member => exact .subscribed subscription (bus ▸ member)
  | selfRegistered trigger member => exact .selfRegistered trigger (bus ▸ member)
  | listening trigger member => exact .listening trigger (bus ▸ member)
  | command name command found => exact .command name command (commands ▸ found)
  | function name function found => exact .function name function (functions ▸ found)
  | waiting task job items member does body =>
    exact .waiting task job items (queue ▸ member) does body

/-- A new host has no bodies. -/
theorem not_mayRun_new : ¬ ({} : Host).MayRun items := by
  intro runs
  cases runs with
  | subscribed subscription member => exact absurd member List.not_mem_nil
  | selfRegistered trigger member => exact absurd member List.not_mem_nil
  | listening trigger member => exact absurd member List.not_mem_nil
  | command name command found => cases found
  | function name function found => cases found
  | waiting task job items member does body => exact absurd member List.not_mem_nil

/-- A modification of the bus shows the bodies that were there, and those of new triggers. -/
theorem MayRun.of_bus (new : List Trigger) (step : host.BusStep after)
    (subscriptions : ∀ subscription ∈ after.bus.subscriptions,
      subscription ∈ host.bus.subscriptions ∨ subscription.trigger ∈ new)
    (selfRegistered : ∀ trigger ∈ after.bus.selfRegistered,
      trigger ∈ host.bus.selfRegistered ∨ trigger ∈ new)
    (loadListeners : ∀ trigger ∈ after.bus.loadListeners,
      trigger ∈ host.bus.loadListeners ∨ trigger ∈ new)
    (runs : after.MayRun items) : host.MayRun items ∨ ∃ trigger ∈ new, trigger.items = items := by
  cases runs with
  | subscribed subscription member =>
    exact (subscriptions subscription member).imp (.subscribed subscription) fun new =>
      ⟨_, new, rfl⟩
  | selfRegistered trigger member =>
    exact (selfRegistered trigger member).imp (.selfRegistered trigger) fun new => ⟨_, new, rfl⟩
  | listening trigger member =>
    exact (loadListeners trigger member).imp (.listening trigger) fun new => ⟨_, new, rfl⟩
  | command name command found => exact Or.inl (.command name command (step.commands ▸ found))
  | function name function found =>
    exact Or.inl (.function name function (step.functions ▸ found))
  | waiting task job items member does body =>
    exact Or.inl (.waiting task job items (step.queue ▸ member) does body)

theorem selfRegister_listeners (trigger : Trigger) (host : Host) :
    ∀ other ∈ (host.selfRegister trigger).bus.loadListeners,
      other ∈ host.bus.loadListeners ∨ other ∈ [trigger] := by
  intro other member
  unfold selfRegister at member
  dsimp only at member
  split at member
  · rw [runLoadTrigger_bus] at member
    exact List.mem_append.mp member
  · exact Or.inl member

theorem selfUnregister_listeners (trigger : Trigger) (host : Host) :
    ∀ other ∈ (host.selfUnregister trigger).bus.loadListeners,
      other ∈ host.bus.loadListeners := by
  intro other member
  unfold selfUnregister at member
  dsimp only at member
  split at member
  · exact (List.mem_filter.mp member).1
  · exact member

/-- A draft that is bound adds its own body. -/
theorem bindDraft_mayRun {script : Script} {draft : TriggerDraft}
    (runs : (host.bindDraft script draft).MayRun items) :
    host.MayRun items ∨ items = draft.items := by
  obtain ⟨step, _, subscriptions, selfRegistered⟩ := bindDraft_spec script draft host
  have old := MayRun.of_bus [draft.toTrigger script] step ?_ ?_ ?_ runs
  · refine old.imp_right ?_
    rintro ⟨trigger, member, rfl⟩
    rw [List.mem_singleton.mp member]
    rfl
  · intro subscription member
    rw [subscriptions] at member
    exact (List.mem_append.mp member).imp_right fun own =>
      List.mem_singleton.mpr (TriggerDraft.trigger_of_mem_subscriptions own)
  · intro trigger member
    rw [selfRegistered] at member
    exact (List.mem_append.mp member).imp_right fun own =>
      List.mem_singleton.mpr (TriggerDraft.trigger_of_mem_selfRegistered own)
  · intro trigger member
    unfold bindDraft at member
    dsimp only at member
    split at member
    · exact selfRegister_listeners _ (host.keepBound draft.ticket _) trigger member
    · exact Or.inl member

theorem unbind_mayRun {ticket : Nat} (runs : (host.unbind ticket).MayRun items) :
    host.MayRun items := by
  cases found : host.bound ticket with
  | none => rwa [unbind_of_none found] at runs
  | some trigger =>
    obtain ⟨step, _, subscriptions, selfRegistered⟩ := unbind_of_some found
    have old := MayRun.of_bus [] step ?_ ?_ ?_ runs
    · exact old.resolve_right fun ⟨_, absent, _⟩ => absurd absent List.not_mem_nil
    · intro subscription member
      rw [subscriptions] at member
      exact Or.inl (List.mem_filter.mp member).1
    · intro trigger member
      rw [selfRegistered] at member
      exact Or.inl (List.mem_filter.mp member).1
    · intro other member
      unfold unbind at member
      rw [found] at member
      dsimp only at member
      split at member
      · exact Or.inl (selfUnregister_listeners _ (host.keepBound ticket none) other member)
      · exact Or.inl member

/-- A modification of the command table shows the bodies that were there, and those of new
commands. -/
theorem MayRun.of_commands (new : List Command) (step : host.CommandStep after)
    (commands : ∀ name command, after.commands.commands.get? name = some command →
      host.commands.commands.get? name = some command ∨ command ∈ new)
    (runs : after.MayRun items) : host.MayRun items ∨ ∃ command ∈ new, command.items = items := by
  cases runs with
  | subscribed subscription member =>
    exact Or.inl (.subscribed subscription (step.bus ▸ member))
  | selfRegistered trigger member => exact Or.inl (.selfRegistered trigger (step.bus ▸ member))
  | listening trigger member => exact Or.inl (.listening trigger (step.bus ▸ member))
  | command name command found =>
    exact (commands name command found).imp (.command name command) fun new => ⟨_, new, rfl⟩
  | function name function found =>
    exact Or.inl (.function name function (step.functions ▸ found))
  | waiting task job items member does body =>
    exact Or.inl (.waiting task job items (step.queue ▸ member) does body)

/-- A command that is registered adds its own body. -/
theorem registerUnder_mayRun {ticket : Nat} {command : Command}
    (runs : (host.registerUnder ticket command).MayRun items) :
    host.MayRun items ∨ items = command.items := by
  obtain ⟨step, outcome⟩ := registerUnder_spec ticket command host
  have old := MayRun.of_commands [command] step ?_ runs
  · refine old.imp_right ?_
    rintro ⟨other, member, rfl⟩
    rw [List.mem_singleton.mp member]
  · intro name other found
    rcases outcome with ⟨_, _, commands, _⟩ | ⟨table, taken, commands, _⟩
    · exact Or.inl (commands ▸ found)
    · rw [commands] at found
      unfold CommandTable.register at taken
      split at taken
      · cases taken
      · cases taken
        rw [Table.get?_insert] at found
        split at found
        · cases found
          exact Or.inr List.mem_cons_self
        · exact Or.inl found

theorem unregisterUnder_mayRun {ticket : Nat} (runs : (host.unregisterUnder ticket).MayRun items) :
    host.MayRun items := by
  cases found : (host.registrations ticket).registered with
  | none => rwa [unregisterUnder_of_none found] at runs
  | some command =>
    obtain ⟨step, commands, _⟩ := unregisterUnder_of_some found
    have old := MayRun.of_commands [] step ?_ runs
    · exact old.resolve_right fun ⟨_, absent, _⟩ => absurd absent List.not_mem_nil
    · intro name other there
      refine Or.inl ?_
      rw [commands] at there
      unfold CommandTable.unregister at there
      split at there
      · exact there
      · rw [Table.get?_erase] at there
        split at there
        · cases there
        · exact there

/-- A job adds the bodies that it is about. -/
theorem perform_mayRun {job : Job} (runs : (host.perform job).MayRun items) :
    host.MayRun items ∨ items ∈ job.bodies := by
  cases job with
  | unbind ticket => exact Or.inl (unbind_mayRun runs)
  | unregister ticket => exact Or.inl (unregisterUnder_mayRun runs)
  | register ticket command => exact (registerUnder_mayRun runs).imp_right List.mem_singleton.mpr
  | bind script drafts =>
    unfold perform at runs
    induction drafts generalizing host with
    | nil => exact Or.inl runs
    | cons draft others ih =>
      rw [Job.bodies, List.map_cons, List.mem_cons]
      rcases ih runs with bound | later
      · exact (bindDraft_mayRun bound).imp_right Or.inl
      · exact Or.inr (Or.inr later)

theorem performAll_mayRun {jobs : List Job} (runs : (jobs.foldl perform host).MayRun items) :
    host.MayRun items ∨ ∃ job ∈ jobs, items ∈ job.bodies := by
  induction jobs generalizing host with
  | nil => exact Or.inl runs
  | cons job others ih =>
    rcases ih runs with done | ⟨later, member, body⟩
    · exact (perform_mayRun done).imp_right fun body => ⟨job, List.mem_cons_self, body⟩
    · exact Or.inr ⟨later, List.mem_cons_of_mem _ member, body⟩

/-- A job that is submitted is done or waits, and adds the bodies that it is about. -/
theorem submit_mayRun {thread : Thread} {job : Job} (runs : (host.submit thread job).MayRun items) :
    host.MayRun items ∨ items ∈ job.bodies := by
  cases thread with
  | main =>
    rw [submit_main] at runs
    exact perform_mayRun runs
  | worker =>
    cases runs with
    | subscribed subscription member => exact Or.inl (.subscribed subscription member)
    | selfRegistered trigger member => exact Or.inl (.selfRegistered trigger member)
    | listening trigger member => exact Or.inl (.listening trigger member)
    | command name command found => exact Or.inl (.command name command found)
    | function name function found => exact Or.inl (.function name function found)
    | waiting task other items member does body =>
      rcases List.mem_append.mp member with old | new
      · exact Or.inl (.waiting task other items old does body)
      · rw [List.mem_singleton.mp new] at does
        rw [List.mem_singleton.mp does] at body
        exact Or.inr body

theorem submit_functions (thread : Thread) (job : Job) (host : Host) :
    (host.submit thread job).functions = host.functions := by
  cases thread with
  | main =>
    rw [submit_main]
    exact (perform_step job host).functions
  | worker => rfl

theorem runPending_functions (thread : Thread) (host : Host) :
    (host.runPending thread).2.functions = host.functions :=
  (performAll_step _ _).functions

/-- Draining the queue adds no body. -/
theorem runPending_mayRun {thread : Thread} (runs : (host.runPending thread).2.MayRun items) :
    host.MayRun items := by
  cases thread with
  | worker => refine MayRun.of_same ?_ ?_ ?_ ?_ runs <;> rfl
  | main =>
    have done : ((JobQueue.drainAll host.queue.waiting).done.foldl perform
        { host with queue := host.queue.drain.2 }).MayRun items := by
      refine MayRun.of_same ?_ ?_ ?_ ?_ runs <;> rfl
    rcases performAll_mayRun done with old | ⟨job, member, body⟩
    · cases old with
      | subscribed subscription member => exact .subscribed subscription member
      | selfRegistered trigger member => exact .selfRegistered trigger member
      | listening trigger member => exact .listening trigger member
      | command name command found => exact .command name command found
      | function name function found => exact .function name function found
      | waiting task other items member does body => exact absurd member List.not_mem_nil
    · obtain ⟨task, waits, does⟩ := JobQueue.mem_drainAll member
      exact .waiting task job items waits does body

end Host

/-! ## The bodies of a workspace -/

namespace FunctionTable

/-- A function is declared. -/
def Declares (functions : FunctionTable) (name : String) : Prop :=
  (functions.signature? name).isSome = true

/-- A function has a body. -/
def HasBody (functions : FunctionTable) (name : String) : Prop :=
  (functions.bodies.get? name).isSome = true

theorem declare_bodies {signature : Signature} {functions after : FunctionTable}
    (declared : functions.declare signature = .ok after) : after.bodies = functions.bodies := by
  unfold declare at declared
  split at declared
  · cases declared
  · cases declared
    rfl

theorem attach_eq {function : Function} {functions after : FunctionTable}
    (attached : functions.attach function = .ok after) : after =
      { functions with bodies := functions.bodies.insert function.signature.name function } := by
  unfold attach at attached
  dsimp only at attached
  split at attached
  · cases attached
    rfl
  · cases attached

end FunctionTable

namespace Workspace

/-- The bodies that the host can run, and those that wait for the script to be finished. -/
inductive MayRun (workspace : Workspace) : List Item → Prop
  | host (items : List Item) (runs : workspace.host.MayRun items) : MayRun workspace items
  | draft (draft : TriggerDraft) (member : draft ∈ workspace.context.currentDrafts) :
      MayRun workspace draft.items

/-- Every body calls only declared functions. -/
def Resolved (workspace : Workspace) : Prop :=
  ∀ items, workspace.MayRun items → Item.Resolved workspace.host.functions.signature? items

/-- Declared functions and bodies have only been added, and the new bodies call only declared
functions. -/
structure Extends (before after : Workspace) : Prop where
  declares : ∀ name, before.host.functions.Declares name → after.host.functions.Declares name
  hasBody : ∀ name, before.host.functions.HasBody name → after.host.functions.HasBody name
  bodies : ∀ items, after.MayRun items →
    before.MayRun items ∨ Item.Resolved after.host.functions.signature? items

variable {before after : Workspace}

theorem MayRun.of_same {items : List Item} (bus : after.host.bus = before.host.bus)
    (commands : after.host.commands = before.host.commands)
    (functions : after.host.functions = before.host.functions)
    (queue : after.host.queue = before.host.queue)
    (drafts : after.context.currentDrafts = before.context.currentDrafts)
    (runs : after.MayRun items) : before.MayRun items := by
  cases runs with
  | host items runs => exact .host items (runs.of_same bus commands functions queue)
  | draft draft member => exact .draft draft (drafts ▸ member)

/-- Other functions only show their own bodies. -/
theorem MayRun.of_functions {functions : FunctionTable} {workspace : Workspace} {items : List Item}
    (runs : (workspace.inHost ({ · with functions })).MayRun items) :
    workspace.MayRun items ∨
      ∃ name function, functions.bodies.get? name = some function ∧ function.items = items := by
  cases runs with
  | draft draft member => exact Or.inl (.draft draft member)
  | host items runs =>
    cases runs with
    | subscribed subscription member => exact Or.inl (.host _ (.subscribed subscription member))
    | selfRegistered trigger member => exact Or.inl (.host _ (.selfRegistered trigger member))
    | listening trigger member => exact Or.inl (.host _ (.listening trigger member))
    | command name command found => exact Or.inl (.host _ (.command name command found))
    | function name function found => exact Or.inr ⟨name, function, found, rfl⟩
    | waiting task job items member does body =>
      exact Or.inl (.host _ (.waiting task job items member does body))

/-- The functions are the same, and there are no new bodies. -/
structure Retains (before after : Workspace) : Prop where
  functions : after.host.functions = before.host.functions
  bodies : ∀ items, after.MayRun items → before.MayRun items

namespace Retains

theorem of_same (bus : after.host.bus = before.host.bus)
    (commands : after.host.commands = before.host.commands)
    (functions : after.host.functions = before.host.functions)
    (queue : after.host.queue = before.host.queue)
    (drafts : after.context.currentDrafts = before.context.currentDrafts) :
    Retains before after :=
  ⟨functions, fun _ runs => runs.of_same bus commands functions queue drafts⟩

theorem of_quiet (quiet : before.Quiet after) : Retains before after := by
  refine of_same quiet.steady.bus quiet.commands quiet.functions quiet.queue ?_
  rw [Context.currentDrafts, Context.currentDrafts, quiet.steady.drafts]

theorem of_still (still : before.Still after) : Retains before after :=
  of_quiet (.of_still still)

theorem refl (workspace : Workspace) : Retains workspace workspace :=
  of_quiet (.refl workspace)

theorem trans {first second third : Workspace} (before : Retains first second)
    (after : Retains second third) : Retains first third :=
  ⟨after.functions.trans before.functions, fun items runs =>
    before.bodies items (after.bodies items runs)⟩

/-- The bodies of the triggers that wait are bound. -/
theorem flush (thread : Thread) (workspace : Workspace) :
    Retains workspace (workspace.flush thread) := by
  unfold Workspace.flush
  dsimp only
  split
  · exact refl workspace
  · split
    · next script _ =>
      refine ⟨Host.submit_functions thread _ workspace.host, fun items runs => ?_⟩
      cases runs with
      | draft draft member => exact .draft draft member
      | host items runs =>
        rcases Host.submit_mayRun runs with old | new
        · exact .host items old
        · obtain ⟨draft, waits, rfl⟩ := List.mem_map.mp new
          exact .draft draft waits
    · refine of_same ?_ ?_ ?_ ?_ ?_ <;> rfl

theorem setScript (thread : Thread) (script : Option Script) (workspace : Workspace) :
    Retains workspace (workspace.setScript thread script) := by
  unfold Workspace.setScript
  split
  · exact refl workspace
  · refine (flush thread workspace).trans ⟨rfl, fun items runs => ?_⟩
    cases runs with
    | host items runs => exact .host items runs
    | draft draft member =>
      change draft ∈ ((workspace.flush thread).context.moved script).currentDrafts at member
      rw [moved_drafts] at member
      exact absurd member List.not_mem_nil

/-- Draining the queue binds bodies that waited. -/
theorem runPending (thread : Thread) (workspace : Workspace) :
    Retains workspace (workspace.inHost fun host => (host.runPending thread).2) := by
  refine ⟨Host.runPending_functions thread workspace.host, fun items runs => ?_⟩
  cases runs with
  | draft draft member => exact .draft draft member
  | host items runs => exact .host items (Host.runPending_mayRun runs)

end Retains

namespace Extends

theorem of_retains (retains : Retains before after) : Extends before after :=
  ⟨fun _ => retains.functions ▸ id, fun _ => retains.functions ▸ id,
    fun items runs => Or.inl (retains.bodies items runs)⟩

theorem of_still (still : before.Still after) : Extends before after :=
  of_retains (.of_still still)

theorem of_restored (restored : before.Restored after) : Extends before after :=
  of_retains (.of_same restored.bus restored.commands restored.functions restored.queue
    restored.drafts)

theorem refl (workspace : Workspace) : Extends workspace workspace :=
  of_retains (.refl workspace)

theorem trans {first second third : Workspace} (before : Extends first second)
    (after : Extends second third) : Extends first third where
  declares := fun name declared => after.declares name (before.declares name declared)
  hasBody := fun name has => after.hasBody name (before.hasBody name has)
  bodies := by
    intro items runs
    rcases after.bodies items runs with old | resolved
    · exact (before.bodies items old).imp_right fun resolved => resolved.mono after.declares
    · exact Or.inr resolved

theorem resolved (extends' : Extends before after) (resolved : before.Resolved) :
    after.Resolved := by
  intro items runs
  rcases extends'.bodies items runs with old | new
  · exact (resolved items old).mono extends'.declares
  · exact new

/-- A trigger waits whose body has been read. -/
theorem addDraft {draft : TriggerDraft} {workspace : Workspace}
    (resolved : Item.Resolved workspace.host.functions.signature? draft.items)
    (change : ScriptInfo → ScriptInfo) :
    Extends workspace
      (workspace.inContext fun context => (context.addDraft draft).updateInfo change) := by
  refine ⟨fun _ => id, fun _ => id, fun items runs => ?_⟩
  cases runs with
  | host items runs => exact Or.inl (.host items runs)
  | draft other member =>
    rcases List.mem_append.mp member with old | new
    · exact Or.inl (.draft other old)
    · rw [List.mem_singleton.mp new]
      exact Or.inr resolved

/-- A function has been declared. -/
theorem declare {signature : Signature} {functions : FunctionTable} {workspace : Workspace}
    (declared : workspace.host.functions.declare signature = .ok functions) :
    Extends workspace (workspace.inHost ({ · with functions })) := by
  have grown := FunctionTable.declare_grown rfl declared
  have bodies := FunctionTable.declare_bodies declared
  refine ⟨fun name there => ?_, fun name has => ?_, fun items runs => Or.inl ?_⟩
  · rcases grown.signatures name with same | ⟨free, _⟩
    · exact (congrArg Option.isSome same).trans there
    · rw [FunctionTable.Declares, free] at there
      cases there
  · exact (congrArg (fun bodies => (Table.get? bodies name).isSome) bodies).trans has
  · rcases runs.of_functions with old | ⟨name, function, found, rfl⟩
    · exact old
    · exact .host _ (.function name function (bodies ▸ found))

/-- A declared function has been given a body that has been read. -/
theorem attach {function : Function} {functions : FunctionTable} {workspace : Workspace}
    (resolved : Item.Resolved workspace.host.functions.signature? function.items)
    (attached : workspace.host.functions.attach function = .ok functions) :
    Extends workspace (workspace.inHost ({ · with functions })) := by
  have after := FunctionTable.attach_eq attached
  have get? (name : String) : functions.bodies.get? name =
      if function.signature.name = name then some function
      else workspace.host.functions.bodies.get? name := by
    rw [after, Table.get?_insert]
  have signatures : functions.signature? = workspace.host.functions.signature? := by
    rw [after]
    rfl
  refine ⟨fun name there => ?_, fun name has => ?_, fun items runs => ?_⟩
  · change (functions.signature? name).isSome = true
    rw [signatures]
    exact there
  · change (functions.bodies.get? name).isSome = true
    rw [get?]
    split
    · rfl
    · exact has
  · rcases runs.of_functions with old | ⟨name, other, found, rfl⟩
    · exact Or.inl old
    · rw [get?] at found
      split at found
      · cases found
        exact Or.inr (signatures ▸ resolved)
      · exact Or.inl (.host _ (.function name other found))

/-- A job is submitted whose bodies have been read. -/
theorem submit {thread : Thread} {job : Job} {workspace : Workspace}
    (resolved : ∀ items ∈ job.bodies, Item.Resolved workspace.host.functions.signature? items) :
    Extends workspace (workspace.submit thread job) := by
  have functions := Host.submit_functions thread job workspace.host
  refine ⟨fun _ => functions ▸ id, fun _ => functions ▸ id, fun items runs => ?_⟩
  cases runs with
  | draft draft member => exact Or.inl (.draft draft member)
  | host items runs =>
    rcases Host.submit_mayRun runs with old | new
    · exact Or.inl (.host items old)
    · refine Or.inr ?_
      change Item.Resolved (workspace.host.submit thread job).functions.signature? items
      rw [functions]
      exact resolved items new

end Extends

end Workspace

open Workspace (Extends)

/-! ## Structures -/

/-- A command that is read calls only declared functions. -/
theorem Workspace.commandFor_resolved {event : CurrentEvent} {header : String} {body : Section}
    {workspace : Workspace} {command : Command}
    (read : (workspace.commandFor event header body).1 = .ok command) :
    Item.Resolved workspace.host.functions.signature? command.items := by
  unfold commandFor commandIn at read
  split at read
  · cases read
  · split at read
    · cases read
    · next announced _ =>
      dsimp only at read
      split at read
      · cases read
      · next trigger _ =>
        cases items : (Item.readBody (workspace.scopeFor event) trigger).1 with
        | error failure =>
          simp only [items, Except.map] at read
          cases read
        | ok body =>
          simp only [items, Except.map] at read
          cases read
          exact Item.readBody_resolved items

theorem CommandStructure.submit_extends (thread : Thread) {command : Command} (ticket : Nat)
    {workspace : Workspace}
    (resolved : Item.Resolved workspace.host.functions.signature? command.items) :
    workspace.Extends (submit thread command ticket workspace).2 := by
  have submitted : workspace.Extends (workspace.submit thread (.register ticket command)) := by
    refine .submit fun items member => ?_
    rwa [List.mem_singleton.mp member]
  refine submitted.trans (.of_retains ?_)
  unfold submit
  dsimp only
  split
  all_goals refine .of_same ?_ ?_ ?_ ?_ ?_ <;> rfl

namespace Structure

/-- A trigger that waits has been read. -/
theorem init_extends (inner : Structure) (header : MatchResult) (body : Section)
    (workspace : Workspace) : workspace.Extends (inner.init header body workspace).2.2 := by
  by_cases isEvent : ∃ event, inner = .event event
  · obtain ⟨event, rfl⟩ := isEvent
    have answers := event.init_answers header body workspace
    dsimp only [init]
    generalize event.init header body workspace = result at *
    cases answers with
    | nothing _ _ _ restored => exact .of_restored restored
    | waits _ _ _ items _ _ _ _ _ _ _ _ _ _ read restored =>
      have resolved : Item.Resolved workspace.host.functions.signature? items :=
        Item.readBody_resolved read
      exact (Extends.addDraft resolved _).trans (.of_restored restored)
  · exact .of_still (init_still header body workspace inner
      fun event same => isEvent ⟨event, same⟩)

theorem preload_extends (inner : Structure) (workspace : Workspace) :
    workspace.Extends (inner.preload workspace).2.2 := by
  cases inner with
  | function inner =>
    dsimp only [preload]
    rcases inner.preload_cases workspace with ⟨_, same⟩ | ⟨_, _, declared, same⟩
    · rw [same]
      exact .refl workspace
    · rw [same]
      exact .declare declared
  | options inner => exact .of_still (inner.apply_still workspace)
  | custom inner => exact .of_still (inner.respond_still .preload workspace)
  | aliases => exact .refl workspace
  | defaults inner => exact .refl workspace
  | command inner => exact .refl workspace
  | event inner => exact .refl workspace

theorem load_extends (thread : Thread) (inner : Structure) (workspace : Workspace) :
    workspace.Extends (inner.load thread workspace).2.2 := by
  cases inner with
  | function inner =>
    change workspace.Extends (inner.load workspace).2
    rcases inner.load_cases workspace with ⟨_, traces, same⟩ |
      ⟨_, signature, items, traces, functions, _, _, read, attached, same⟩
    · rw [same]
      exact .of_still (.leave traces workspace)
    · have resolved : Item.Resolved (workspace.leave traces).host.functions.signature?
          (Function.mk signature items).items :=
        Item.readBody_resolved read
      have given : (workspace.leave traces).Extends
          ((workspace.leave traces).inHost ({ · with functions })) :=
        .attach resolved attached
      rw [same]
      refine (Extends.of_still (.leave traces workspace)).trans (given.trans (.of_retains ?_))
      refine .of_same ?_ ?_ ?_ ?_ ?_ <;> rfl
  | command inner =>
    have extended : workspace.Extends (inner.load thread workspace).2 := by
      rcases inner.load_reads thread workspace with ⟨_, after, restored, same⟩ |
        ⟨_, loaded, after, _, read, restored, same⟩
      · rw [same]
        exact .of_restored restored
      · have resolved := Workspace.commandFor_resolved read
        rw [← restored.functions] at resolved
        rw [same]
        exact (Extends.of_restored restored).trans
          (CommandStructure.submit_extends thread inner.ticket resolved)
    dsimp only [load]
    generalize inner.load thread workspace = result at *
    obtain ⟨outcome, after⟩ := result
    cases outcome <;> exact extended
  | options inner => exact .of_still (inner.apply_still workspace)
  | custom inner => exact .of_still (inner.respond_still .load workspace)
  | aliases => exact .refl workspace
  | defaults inner => exact .refl workspace
  | event inner => exact .refl workspace

end Structure

namespace Loading

/-- Every part of a load only adds to the functions and the bodies. -/
theorem extends_carried (thread : Thread) : Carried Workspace.Extends thread where
  refl := .refl
  trans := .trans
  takeTicket := fun workspace => by
    refine .of_retains (.of_same ?_ ?_ ?_ ?_ ?_) <;> rfl
  takeInHand := fun body info workspace => by
    refine .of_retains (.of_same ?_ ?_ ?_ ?_ ?_) <;> rfl
  noteCall := fun call workspace => .of_retains (.of_quiet (.noteCall call workspace))
  updateInfo := fun change workspace => by
    refine .of_retains (.of_same ?_ ?_ ?_ ?_ ?_) <;> rfl
  record := fun failure line workspace => by
    rw [Workspace.record_eq_leave]
    exact .of_still (.leave _ workspace)
  init := Structure.init_extends
  preload := Structure.preload_extends
  load := Structure.load_extends thread
  afterLoad := fun inner workspace => .of_still (inner.afterLoad_still workspace)

end Loading

end ScriptBinding
