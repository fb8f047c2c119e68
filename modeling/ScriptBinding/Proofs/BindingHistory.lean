import ScriptBinding.Proofs.Ledger
import ScriptBinding.Proofs.Reports

/-! # The history of the bus

Triggers are bound and taken back by jobs, and a host shows what the jobs have come to that have been
done, one after the other. Jobs that wait will be done behind those. A history tells which jobs of
these two kinds have been done and which wait; a host that shows a history goes on to show it when
jobs are submitted, and when the queue is drained.
-/

namespace ScriptBinding

/-! ## What is bound -/

/-- The triggers that are bound, and the priority of those without one of their own. -/
structure Bindings where
  usual : EventPriority
  subscriptions : List Subscription
  selfRegistered : List Trigger
  /-- The trigger that is bound under a ticket. -/
  bound : Nat → Option Trigger

namespace Bindings

/-- Bind triggers behind those that are bound, in their order. -/
def bind (script : Script) (drafts : List TriggerDraft) (bindings : Bindings) : Bindings where
  usual := bindings.usual
  subscriptions := bindings.subscriptions ++
    drafts.flatMap (·.subscriptions bindings.usual script)
  selfRegistered := bindings.selfRegistered ++ drafts.flatMap (·.selfRegistered script)
  bound := Host.boundAfter script drafts bindings.bound

/-- Take back the trigger that is bound under a ticket, if there is one. -/
def unbind (ticket : Nat) (bindings : Bindings) : Bindings :=
  match bindings.bound ticket with
  | none => bindings
  | some trigger =>
    { usual := bindings.usual
      subscriptions := bindings.subscriptions.filter (·.trigger.ticket != trigger.ticket)
      selfRegistered := bindings.selfRegistered.filter (·.ticket != trigger.ticket)
      bound := Function.update bindings.bound ticket none }

/-- What a job makes of what is bound. -/
def perform (bindings : Bindings) : Job → Bindings
  | .bind script drafts => bindings.bind script drafts
  | .unbind ticket => bindings.unbind ticket
  | .register _ _ | .unregister _ => bindings

end Bindings

/-- A trigger that waits or is bound, and the script that it is of. -/
structure EventEntry where
  script : Option Script
  draft : TriggerDraft

namespace EventEntry

/-- Those of some triggers that are of a script. -/
def ofScript (script : Option Script) (entries : List EventEntry) : List EventEntry :=
  entries.filter (·.script = script)

theorem ofScript_append (script : Option Script) (first second : List EventEntry) :
    ofScript script (first ++ second) = ofScript script first ++ ofScript script second :=
  List.filter_append ..

/-- Triggers of different scripts can change places. -/
theorem ofScript_comm {first second : List EventEntry} (script : Option Script)
    (apart : ∀ entry ∈ first, ∀ other ∈ second, other.script ≠ entry.script) :
    ofScript script (first ++ second) = ofScript script (second ++ first) := by
  have none {entries : List EventEntry} (absent : ∀ entry ∈ entries, entry.script ≠ script) :
      ofScript script entries = [] := by
    refine List.filter_eq_nil_iff.mpr fun entry member => ?_
    rw [decide_eq_true_eq]
    exact absent entry member
  rw [ofScript_append, ofScript_append]
  by_cases here : ∃ entry ∈ first, entry.script = script
  · obtain ⟨entry, member, rfl⟩ := here
    rw [none fun other there => apart entry member other there, List.append_nil, List.nil_append]
  · have absent : ∀ entry ∈ first, entry.script ≠ script :=
      fun entry member same => here ⟨entry, member, same⟩
    rw [none absent, List.append_nil, List.nil_append]

end EventEntry

namespace Job

/-- The job binds triggers or takes one back. -/
def isBinding : Job → Bool
  | bind _ _ | unbind _ => true
  | register _ _ | unregister _ => false

/-- The triggers that a job binds. -/
def binds : Job → List EventEntry
  | bind script drafts => drafts.map (⟨some script, ·⟩)
  | _ => []

end Job

namespace Host

/-- What is bound on a host. -/
def bindings (host : Host) : Bindings :=
  ⟨host.config.defaultPriority, host.bus.subscriptions, host.bus.selfRegistered, host.bound⟩

theorem bindings_of_same {host after : Host} (config : after.config = host.config)
    (bus : after.bus = host.bus) (bound : after.bound = host.bound) :
    after.bindings = host.bindings := by
  rw [bindings, bindings, config, bus, bound]

theorem bindings_perform (job : Job) (host : Host) :
    (host.perform job).bindings = host.bindings.perform job := by
  cases job with
  | bind script drafts =>
    obtain ⟨step, bound, subscriptions, selfRegistered⟩ := perform_bind script drafts host
    rw [bindings, step.config, bound, subscriptions, selfRegistered]
    rfl
  | unbind ticket =>
    change (host.unbind ticket).bindings = host.bindings.unbind ticket
    cases found : host.bound ticket with
    | none =>
      have free : host.bindings.bound ticket = none := found
      rw [unbind_of_none found, Bindings.unbind, free]
    | some trigger =>
      obtain ⟨step, bound, subscriptions, selfRegistered⟩ := unbind_of_some found
      have taken : host.bindings.bound ticket = some trigger := found
      rw [bindings, step.config, bound, subscriptions, selfRegistered, Bindings.unbind, taken]
      rfl
  | register ticket command =>
    have step := (registerUnder_spec ticket command host).1
    exact bindings_of_same step.config step.bus step.bound
  | unregister ticket =>
    change (host.unregisterUnder ticket).bindings = host.bindings
    cases found : (host.registrations ticket).registered with
    | none => rw [unregisterUnder_of_none found]
    | some command =>
      have step := (unregisterUnder_of_some found).1
      exact bindings_of_same step.config step.bus step.bound

theorem bindings_performAll (jobs : List Job) (host : Host) :
    (jobs.foldl perform host).bindings = jobs.foldl Bindings.perform host.bindings := by
  induction jobs generalizing host with
  | nil => rfl
  | cons job others ih => rw [List.foldl_cons, ih, bindings_perform, List.foldl_cons]

end Host

/-- Only jobs that bind triggers or take them back change what is bound. -/
theorem Bindings.performAll_filter (jobs : List Job) (bindings : Bindings) :
    (jobs.filter Job.isBinding).foldl perform bindings = jobs.foldl perform bindings := by
  induction jobs generalizing bindings with
  | nil => rfl
  | cons job others ih => cases job <;> exact ih _

/-! ## Histories -/

/-- The jobs that have bound triggers and taken them back, and those that will. -/
structure History where
  done : List Job := []
  waiting : List Job := []

namespace History

/-- Submit jobs: the main thread does them at once, and a worker lets them wait. -/
def submit (thread : Thread) (jobs : List Job) (history : History) : History :=
  match thread with
  | .main => { history with done := history.done ++ jobs }
  | .worker => { history with waiting := history.waiting ++ jobs }

/-- Do the jobs that wait. -/
def drain (history : History) : History :=
  ⟨history.done ++ history.waiting, []⟩

/-- The triggers that have ever been bound, in order. -/
def bound (history : History) : List EventEntry :=
  history.done.flatMap Job.binds

/-- The triggers in jobs that wait, in order. -/
def queued (history : History) : List EventEntry :=
  history.waiting.flatMap Job.binds

variable {history : History} {thread : Thread}

theorem submit_nil : history.submit thread [] = history := by
  cases thread <;> simp only [submit, List.append_nil]

theorem submit_append (jobs others : List Job) :
    history.submit thread (jobs ++ others) =
      (history.submit thread jobs).submit thread others := by
  cases thread <;> simp only [submit, List.append_assoc]

/-- Triggers that are handed over are bound at once, or wait in jobs; and draining the queue binds
those that wait there. -/
inductive Turns (moved : List EventEntry) (before after : History) : Prop
  | binds (bound : after.bound = before.bound ++ moved) (queued : after.queued = before.queued)
  | queues (bound : after.bound = before.bound) (queued : after.queued = before.queued ++ moved)
  | drains (none : moved = []) (bound : after.bound = before.bound ++ before.queued)
      (queued : after.queued = [])

/-- Handing triggers over loses none, repeats none, and keeps the order of each script. -/
theorem Turns.order {moved : List EventEntry} {before after : History}
    (turns : Turns moved before after)
    (apart : ∀ entry ∈ moved, ∀ other ∈ before.queued, other.script ≠ entry.script) :
    (after.bound ++ after.queued).Perm (before.bound ++ before.queued ++ moved) ∧
      (∀ script, EventEntry.ofScript script (after.bound ++ after.queued) =
        EventEntry.ofScript script (before.bound ++ before.queued ++ moved)) ∧
      ∀ entry ∈ after.queued, entry ∈ before.queued ∨ entry ∈ moved := by
  cases turns with
  | binds bound queued =>
    rw [bound, queued, List.append_assoc, List.append_assoc]
    refine ⟨List.perm_append_comm.append_left _, fun script => ?_, fun _ => Or.inl⟩
    rw [EventEntry.ofScript_append, EventEntry.ofScript_comm script apart,
      ← EventEntry.ofScript_append]
  | queues bound queued =>
    rw [bound, queued, List.append_assoc]
    exact ⟨.refl _, fun _ => rfl, fun _ => List.mem_append.mp⟩
  | drains none bound queued =>
    rw [bound, queued, none, List.append_nil]
    exact ⟨.refl _, fun _ => rfl, fun _ absent => absurd absent List.not_mem_nil⟩

end History

/-- What is bound on a host is what the jobs of a history have come to, and those that wait are in
the queue. -/
structure Host.Shows (origin : Bindings) (history : History) (host : Host) : Prop where
  bindings : host.bindings = history.done.foldl Bindings.perform origin
  queue : ∃ jobs : List Job, host.queue.waiting = jobs.map Work.single ∧
    jobs.filter Job.isBinding = history.waiting

namespace Host.Shows

variable {origin : Bindings} {history : History} {host after : Host} {job : Job}

theorem of_same (shown : host.Shows origin history) (config : after.config = host.config)
    (bus : after.bus = host.bus) (bound : after.bound = host.bound)
    (queue : after.queue = host.queue) : after.Shows origin history where
  bindings := (bindings_of_same config bus bound).trans shown.bindings
  queue := queue ▸ shown.queue

theorem submit (thread : Thread) (shown : host.Shows origin history) :
    (host.submit thread job).Shows origin
      (history.submit thread ([job].filter Job.isBinding)) := by
  obtain ⟨jobs, waiting, ours⟩ := shown.queue
  cases thread with
  | main =>
    rw [submit_main]
    refine ⟨?_, jobs, ?_, ours⟩
    · change _ = (history.done ++ [job].filter Job.isBinding).foldl _ _
      rw [bindings_perform, shown.bindings, List.foldl_append, Bindings.performAll_filter]
      rfl
    · rw [(perform_step job host).queue]
      exact waiting
  | worker =>
    rw [submit_worker]
    refine ⟨shown.bindings, jobs ++ [job], ?_, ?_⟩
    · change host.queue.waiting ++ [.single job] = _
      rw [waiting, List.map_append]
      rfl
    · rw [List.filter_append, ours]
      rfl

/-- To drain the queue is to do the jobs that wait. -/
theorem drain (shown : host.Shows origin history) :
    (host.runPending .main).2.Shows origin history.drain := by
  obtain ⟨jobs, waiting, ours⟩ := shown.queue
  let emptied : Host := { host with queue := host.queue.drain.2 }
  have whole : (host.runPending .main).2 = (jobs.foldl perform emptied).write [] :=
    runPending_main waiting
  rw [whole]
  refine ⟨?_, [], ?_, rfl⟩
  · change (jobs.foldl perform emptied).bindings = (history.done ++ history.waiting).foldl _ _
    rw [bindings_performAll, List.foldl_append, ← shown.bindings, ← ours,
      Bindings.performAll_filter]
    rfl
  · change (jobs.foldl perform emptied).queue.waiting = []
    rw [(performAll_step jobs emptied).queue]
    rfl

end Host.Shows

/-- One host shows every history of the other, with some more jobs that have been submitted. -/
def Host.Continues (thread : Thread) (jobs : List Job) (before after : Host) : Prop :=
  ∀ origin history, before.Shows origin history → after.Shows origin (history.submit thread jobs)

namespace Host.Continues

variable {thread : Thread} {before after : Host}

theorem of_same (config : after.config = before.config) (bus : after.bus = before.bus)
    (bound : after.bound = before.bound) (queue : after.queue = before.queue) :
    Continues thread [] before after := by
  intro origin history shown
  rw [History.submit_nil]
  exact shown.of_same config bus bound queue

theorem trans {middle : Host} {jobs others : List Job}
    (first : Continues thread jobs before middle) (second : Continues thread others middle after) :
    Continues thread (jobs ++ others) before after := by
  intro origin history shown
  rw [History.submit_append]
  exact second origin _ (first origin history shown)

theorem submit (thread : Thread) (job : Job) (host : Host) :
    Continues thread ([job].filter Job.isBinding) host (host.submit thread job) :=
  fun _ _ shown => shown.submit thread

end Host.Continues

/-! ## Phases -/

namespace Workspace

/-- The current script and what waits for it to be finished are the same, and some jobs have been
submitted. -/
structure Submits (thread : Thread) (jobs : List Job) (before after : Workspace) : Prop where
  script : after.context.script = before.context.script
  drafts : after.context.currentDrafts = before.context.currentDrafts
  continues : before.host.Continues thread jobs after.host

namespace Submits

variable {thread : Thread} {before middle after : Workspace} {jobs others : List Job}

theorem trans (first : Submits thread jobs before middle)
    (second : Submits thread others middle after) :
    Submits thread (jobs ++ others) before after where
  script := second.script.trans first.script
  drafts := second.drafts.trans first.drafts
  continues := first.continues.trans second.continues

/-- A part without jobs behind another part. -/
theorem quiet (first : Submits thread jobs before middle)
    (second : Submits thread [] middle after) : Submits thread jobs before after := by
  have whole := first.trans second
  rwa [List.append_nil] at whole

theorem of_untouched (untouched : before.Untouched after)
    (drafts : after.context.drafts = before.context.drafts) : Submits thread [] before after where
  script := untouched.script
  drafts := by rw [Context.currentDrafts, Context.currentDrafts, drafts]
  continues := .of_same untouched.config untouched.bus untouched.bound untouched.queue

theorem of_still (still : before.Still after) : Submits thread [] before after :=
  of_untouched still.untouched still.drafts

theorem of_restored (restored : before.Restored after) : Submits thread [] before after :=
  ⟨restored.script, restored.drafts,
    .of_same restored.config restored.bus restored.bound restored.queue⟩

theorem refl (workspace : Workspace) : Submits thread [] workspace workspace :=
  of_still (.refl workspace)

theorem record (failure : Failure) (line : Option Nat) (workspace : Workspace) :
    Submits thread [] workspace (workspace.record failure line) := by
  rw [Workspace.record_eq_leave]
  exact of_still (.leave _ workspace)

theorem noteCall (call : PhaseCall) (workspace : Workspace) :
    Submits thread [] workspace (workspace.inContext (·.noteCall call)) :=
  ⟨rfl, rfl, .of_same rfl rfl rfl rfl⟩

theorem submit (thread : Thread) (job : Job) (workspace : Workspace) :
    Submits thread ([job].filter Job.isBinding) workspace (workspace.submit thread job) :=
  ⟨rfl, rfl, .submit thread job workspace.host⟩

end Submits

end Workspace

open Workspace (Submits)

/-- A command is handed over and registered, but no trigger is bound. -/
theorem CommandStructure.submit_submits (thread : Thread) (command : Command) (ticket : Nat)
    (workspace : Workspace) :
    Submits thread [] workspace (submit thread command ticket workspace).2 := by
  have handed := Submits.submit thread (.register ticket command) workspace
  have taken := (Host.takeRefusal_spec ticket
    (workspace.submit thread (.register ticket command)).host).1
  unfold submit
  dsimp only
  split
  all_goals exact handed.quiet ⟨rfl, rfl, .of_same taken.config taken.bus taken.bound taken.queue⟩

namespace Structure

/-- What unloading a structure submits to take triggers back. -/
def takesBack : Structure → List Job
  | event inner => [.unbind inner.ticket]
  | _ => []

theorem load_submits (thread : Thread) (inner : Structure) (workspace : Workspace) :
    Submits thread [] workspace (inner.load thread workspace).2.2 := by
  cases inner with
  | options inner => exact .of_still (inner.apply_still workspace)
  | function inner =>
    obtain ⟨untouched, drafts⟩ := inner.load_untouched workspace
    exact .of_untouched untouched drafts
  | command inner =>
    have submits : Submits thread [] workspace (inner.load thread workspace).2 := by
      rcases inner.load_reads thread workspace with ⟨_, _, restored, same⟩ |
        ⟨_, loaded, after, _, _, restored, same⟩
      · rw [same]
        exact .of_restored restored
      · rw [same]
        exact (Submits.of_restored restored).quiet (CommandStructure.submit_submits ..)
    dsimp only [load]
    generalize inner.load thread workspace = result at *
    obtain ⟨outcome, after⟩ := result
    cases outcome <;> exact submits
  | custom inner => exact .of_still (inner.respond_still .load workspace)
  | aliases => exact .refl workspace
  | defaults inner => exact .refl workspace
  | event inner => exact .refl workspace

theorem unload_submits (thread : Thread) (inner : Structure) (workspace : Workspace) :
    Submits thread inner.takesBack workspace (inner.unload thread workspace).2.2 := by
  cases inner with
  | function inner =>
    obtain ⟨untouched, drafts⟩ := inner.unload_untouched workspace
    exact .of_untouched untouched drafts
  | command inner => exact .submit thread (.unregister inner.ticket) workspace
  | event inner => exact .submit thread (.unbind inner.ticket) workspace
  | custom inner => exact .of_still (inner.respond_still .unload workspace)
  | options inner => exact .refl workspace
  | aliases => exact .refl workspace
  | defaults inner => exact .refl workspace

theorem settle_submits (thread : Thread) (info : ScriptInfo) (inner : Structure)
    (workspace : Workspace) : Submits thread [] workspace (inner.settle info workspace).2.2 := by
  cases inner with
  | command inner =>
    have taken := (Host.takeRefusal_spec inner.ticket workspace.host).1
    dsimp only [settle, CommandStructure.settle]
    split
    all_goals
      next settled =>
      obtain ⟨_, rfl⟩ := Prod.mk.inj settled
      exact ⟨rfl, rfl, .of_same taken.config taken.bus taken.bound taken.queue⟩
  | custom inner => exact .of_still (inner.respond_still .settle workspace)
  | _ => exact .refl workspace

end Structure

namespace Loading

/-- No phase that follows the headers binds a trigger or lets one wait. -/
theorem submits_carried (thread : Thread) : CarriedPhases (Submits thread []) thread where
  refl := .refl
  trans := fun first second => first.quiet second
  noteCall := .noteCall
  updateInfo := fun _ _ => ⟨rfl, rfl, .of_same rfl rfl rfl rfl⟩
  record := .record
  preload := fun inner workspace =>
    .of_untouched (inner.preload_untouched workspace).1 (inner.preload_untouched workspace).2
  load := Structure.load_submits thread
  afterLoad := fun inner workspace => .of_still (inner.afterLoad_still workspace)

/-! ## Unloading -/

/-- What unloading a structure of a script submits to take triggers back. -/
def takesBack (loaded : LoadedStructure) : List Job :=
  if loaded.loaded then loaded.inner.takesBack else []

theorem unload_submits (thread : Thread) (loaded : LoadedStructure) (workspace : Workspace) :
    Submits thread (takesBack loaded) workspace (unload thread loaded workspace).2 := by
  unfold unload takesBack
  split
  · exact (loaded.inner.unload_submits thread workspace).quiet
      ((submits_carried thread).conclude .unload loaded _)
  · exact .refl workspace

theorem each_unload_submits (thread : Thread) (structures : List LoadedStructure)
    (workspace : Workspace) :
    Submits thread (structures.flatMap takesBack) workspace
      (each (unload thread) structures workspace).2 := by
  induction structures generalizing workspace with
  | nil => exact .refl workspace
  | cons first others ih => exact (unload_submits thread first workspace).trans (ih _)

end Loading

end ScriptBinding
