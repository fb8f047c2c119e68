import ScriptBinding.Proofs.EventBinding

/-! # How many triggers are bound

A trigger that waits goes where its script goes: it is bound when the main thread leaves the script,
and it waits in a job until the queue is drained when a worker leaves it. No trigger is lost and
none is bound twice, so once nothing waits any more a script has as many triggers on the bus as have
waited for it.
-/

namespace ScriptBinding

/-- The triggers on the bus: those that are subscribed to a class, and those that have registered
themselves. -/
def Host.triggers (host : Host) : List Trigger :=
  host.bus.subscriptions.map (·.trigger) ++ host.bus.selfRegistered

/-- The triggers on the bus that are of a script. -/
def Host.triggersOf (script : Script) (host : Host) : List Trigger :=
  host.triggers.filter (·.script = script)

/-- A draft that goes on the bus once when it is bound: its event belongs to one class. -/
structure TriggerDraft.Single (draft : TriggerDraft) : Prop where
  filter : draft.filter.IsBuiltIn
  classes : draft.info.classes.length = 1

theorem TriggerDraft.Single.binds {draft : TriggerDraft} (single : draft.Single)
    (usual : EventPriority) (script : Script) :
    (draft.subscriptions usual script).map (·.trigger) ++ draft.selfRegistered script =
      [draft.toTrigger script] := by
  have classes : Host.draftClasses draft = draft.info.classes := by
    rw [Host.draftClasses, single.filter.classes?_eq_none]
    rfl
  obtain ⟨one, only⟩ := List.length_eq_one_iff.mp single.classes
  unfold subscriptions selfRegistered
  rw [classes, only]
  split <;> rfl

/-- The events that every host has belong to one class each. -/
theorem Registry.eventInfo_single {registry : Registry}
    (standard : ∀ descriptor ∈ registry.all, descriptor.Standard) {key : String} {info : EventInfo}
    (found : registry.eventInfo? key = some info) : info.classes.length = 1 := by
  obtain ⟨⟨descriptor, header⟩, matched, isEvent⟩ := Option.bind_eq_some_iff.mp found
  cases standard descriptor (Loading.first?_mem matched) with
  | event own filter builtIn name eventClass named =>
    cases named.symm.trans isEvent
    rfl
  | _ own noEvent => cases noEvent.symm.trans isEvent

/-- Whatever waits for standard structures goes on the bus once. -/
theorem Waits.single {registry : Registry} {structures : List LoadedStructure}
    {drafts : List TriggerDraft} (waits : Waits EventFilter.IsBuiltIn registry structures drafts)
    (standard : ∀ descriptor ∈ registry.all, descriptor.Standard) :
    ∀ draft ∈ drafts, draft.Single := by
  intro draft member
  obtain ⟨loaded, _, event, draftOf⟩ := waits.mem_tickets draft member
  exact ⟨draftOf.possible, Registry.eventInfo_single standard draftOf.info⟩

/-- A job that binds triggers. -/
def Job.IsBind (job : Job) : Prop :=
  ∃ script drafts, job = .bind script drafts

/-- What some triggers show of themselves when they are bound. -/
def EventEntry.shown {α : Type} (shows : Script → TriggerDraft → List α)
    (entries : List EventEntry) : List α :=
  entries.flatMap fun entry => entry.script.toList.flatMap (shows · entry.draft)

theorem EventEntry.shown_append {α : Type} (shows : Script → TriggerDraft → List α)
    (entries others : List EventEntry) :
    shown shows (entries ++ others) = shown shows entries ++ shown shows others :=
  List.flatMap_append

theorem EventEntry.shown_bind {α : Type} (shows : Script → TriggerDraft → List α) (script : Script)
    (drafts : List TriggerDraft) :
    shown shows (Job.bind script drafts).binds = drafts.flatMap (shows script) := by
  rw [shown, Job.binds, List.flatMap_map]
  exact List.flatMap_congr fun draft _ => List.flatMap_singleton ..

/-- The triggers of one script among those that entries become. -/
theorem EventEntry.shown_ofScript (script : Script) (entries : List EventEntry) :
    (shown (fun script draft => [draft.toTrigger script]) entries).filter (·.script = script) =
      (ofScript (some script) entries).map (·.draft.toTrigger script) := by
  induction entries with
  | nil => rfl
  | cons entry others ih =>
    rw [ofScript] at ih ⊢
    rw [shown, List.flatMap_cons, List.filter_append, List.filter_cons]
    refine Eq.trans (congrArg _ ih) ?_
    cases found : entry.script with
    | none => rfl
    | some owner =>
      by_cases same : owner = script
      · subst same
        simp [TriggerDraft.toTrigger]
      · simp [TriggerDraft.toTrigger, same]

/-- Jobs that bind put their triggers behind those that are bound. -/
theorem Bindings.performAll_binds {jobs : List Job} (binds : ∀ job ∈ jobs, job.IsBind)
    (bindings : Bindings) :
    (jobs.foldl perform bindings).subscriptions = bindings.subscriptions ++
        EventEntry.shown (fun script draft => draft.subscriptions bindings.usual script)
          (jobs.flatMap Job.binds) ∧
      (jobs.foldl perform bindings).selfRegistered = bindings.selfRegistered ++
        EventEntry.shown (fun script draft => draft.selfRegistered script)
          (jobs.flatMap Job.binds) := by
  induction jobs generalizing bindings with
  | nil => exact ⟨(List.append_nil _).symm, (List.append_nil _).symm⟩
  | cons job others ih =>
    obtain ⟨script, drafts, rfl⟩ := binds _ List.mem_cons_self
    obtain ⟨subscriptions, selfRegistered⟩ :=
      ih (fun other member => binds other (List.mem_cons_of_mem _ member))
        (bindings.perform (.bind script drafts))
    rw [List.flatMap_cons, EventEntry.shown_append, EventEntry.shown_append,
      EventEntry.shown_bind, EventEntry.shown_bind, ← List.append_assoc, ← List.append_assoc]
    exact ⟨subscriptions, selfRegistered⟩

namespace Workspace

/-- All of these triggers have waited, and no others: some are bound, some are in jobs that wait,
and some wait for their script to be left. -/
def Keeps (entries : List EventEntry) (workspace : Workspace) : Prop :=
  ∃ usual history, workspace.host.Shows ⟨usual, [], [], fun _ => none⟩ history ∧
    (∀ job ∈ history.done ++ history.waiting, job.IsBind) ∧
    (history.bound ++ history.queued ++ workspace.entries).Perm entries

theorem flushed_isBind (workspace : Workspace) : ∀ job ∈ workspace.flushed, job.IsBind := by
  intro job member
  unfold flushed at member
  split at member
  · exact absurd member List.not_mem_nil
  · obtain ⟨script, _, rfl⟩ := Option.map_eq_some_iff.mp (Option.mem_toList.mp member)
    exact ⟨script, _, rfl⟩

namespace Keeps

variable {entries new : List EventEntry} {before after : Workspace} {thread : Thread}
  {jobs : List Job}

/-- Triggers move from those that wait into jobs, and others may begin to wait. -/
theorem continues (keeps : before.Keeps entries)
    (continues : before.host.Continues thread jobs after.host) (binds : ∀ job ∈ jobs, job.IsBind)
    (moved : (jobs.flatMap Job.binds ++ after.entries).Perm (before.entries ++ new)) :
    after.Keeps (entries ++ new) := by
  obtain ⟨usual, history, shows, only, perm⟩ := keeps
  have handed : ((history.submit thread jobs).bound ++ (history.submit thread jobs).queued).Perm
      (history.bound ++ history.queued ++ jobs.flatMap Job.binds) := by
    cases thread with
    | main =>
      change ((history.done ++ jobs).flatMap Job.binds ++ history.queued).Perm _
      rw [List.flatMap_append, List.append_assoc, List.append_assoc]
      exact List.perm_append_comm.append_left _
    | worker =>
      change (history.bound ++ (history.waiting ++ jobs).flatMap Job.binds).Perm _
      rw [List.flatMap_append, ← List.append_assoc]
      exact .refl _
  refine ⟨usual, history.submit thread jobs, continues _ history shows, ?_, ?_⟩
  · intro job member
    have old (there : job ∈ history.done ∨ job ∈ history.waiting) : job.IsBind :=
      only job (List.mem_append.mpr there)
    cases thread with
    | main =>
      rcases List.mem_append.mp member with done | waiting
      · exact (List.mem_append.mp done).elim (fun there => old (Or.inl there)) (binds job)
      · exact old (Or.inr waiting)
    | worker =>
      rcases List.mem_append.mp member with done | waiting
      · exact old (Or.inl done)
      · exact (List.mem_append.mp waiting).elim (fun there => old (Or.inr there)) (binds job)
  · refine (handed.append_right _).trans ?_
    rw [List.append_assoc]
    refine (moved.append_left _).trans ?_
    rw [← List.append_assoc]
    exact perm.append_right _

/-- Nothing is submitted, and nothing begins to wait. -/
theorem quiet (keeps : before.Keeps entries)
    (continues : before.host.Continues thread [] after.host)
    (same : after.entries = before.entries) : after.Keeps entries := by
  have moved : (([] : List Job).flatMap Job.binds ++ after.entries).Perm (before.entries ++ []) := by
    rw [same, List.append_nil]
    exact .refl _
  have kept := keeps.continues continues (fun _ absent => absurd absent List.not_mem_nil) moved
  rwa [List.append_nil] at kept

/-- Moving on to a script, or to none, hands over what waits. -/
theorem setScript (keeps : before.Keeps entries) (orderly : before.Orderly) (thread : Thread)
    (next : Option Script) : (before.setScript thread next).Keeps entries := by
  cases leaves : before.leaves next with
  | false => rwa [setScript_of_stays thread leaves]
  | true =>
    obtain ⟨handed, _, none⟩ := setScript_of_leaves thread leaves
    have moved : (before.flushed.flatMap Job.binds ++ (before.setScript thread next).entries).Perm
        (before.entries ++ []) := by
      rw [binds_flushed orderly, entries_of_none none]
    have kept := keeps.continues handed before.flushed_isBind moved
    rwa [List.append_nil] at kept

/-- A script that is loaded lets its triggers wait, where none has waited before. -/
theorem loadCurrent (keeps : before.Keeps entries) (none : before.entries = []) (thread : Thread)
    (registry : Registry) (script : Script) (nodes : List Node) :
    let after := (Loading.loadCurrent registry thread script nodes before).2
    after.Keeps (entries ++ after.entries) := by
  intro after
  have buffers := Loading.loadCurrent_buffers registry thread script nodes before
  refine keeps.continues buffers.continues (fun _ absent => absurd absent List.not_mem_nil) ?_
  rw [none]
  exact .refl _

/-- Draining the queue binds the triggers in jobs that wait. -/
theorem drain (keeps : before.Keeps entries) :
    (before.inHost fun host => (host.runPending .main).2).Keeps entries := by
  obtain ⟨usual, history, shows, only, perm⟩ := keeps
  refine ⟨usual, history.drain, shows.drain, ?_, ?_⟩
  · intro job member
    exact only job ((List.mem_append.mp member).resolve_right List.not_mem_nil)
  · have bound : history.drain.bound = history.bound ++ history.queued := List.flatMap_append
    rw [bound, show history.drain.queued = [] from rfl, List.append_nil]
    exact perm

/-- Where no job and no trigger waits, all the triggers are on the bus. -/
theorem triggers (keeps : before.Keeps entries) (idle : before.host.queue.waiting = [])
    (none : before.entries = []) (single : ∀ entry ∈ entries, entry.draft.Single) :
    before.host.triggers.Perm (EventEntry.shown (fun script draft => [draft.toTrigger script])
      entries) := by
  obtain ⟨usual, history, shows, only, perm⟩ := keeps
  have noQueue : history.queued = [] := by
    obtain ⟨jobs, waiting, ours⟩ := shows.queue
    have noJobs : jobs = [] := List.map_eq_nil_iff.mp (waiting.symm.trans idle)
    rw [History.queued, ← ours, noJobs]
    rfl
  rw [noQueue, none, List.append_nil, List.append_nil] at perm
  obtain ⟨subscriptions, selfRegistered⟩ := Bindings.performAll_binds
    (fun job member => only job (List.mem_append_left _ member)) ⟨usual, [], [], fun _ => Option.none⟩
  rw [← shows.bindings] at subscriptions selfRegistered
  have shown : before.host.triggers =
      (EventEntry.shown (fun script draft => draft.subscriptions usual script)
          history.bound).map (·.trigger) ++
        EventEntry.shown (fun script draft => draft.selfRegistered script) history.bound :=
    congrArg₂ (fun subscriptions selfRegistered =>
      List.map Subscription.trigger subscriptions ++ selfRegistered) subscriptions selfRegistered
  rw [shown, EventEntry.shown, EventEntry.shown, List.map_flatMap]
  refine (List.flatMap_append_perm _ _ _).trans ?_
  have one : history.bound.flatMap (fun entry =>
      (entry.script.toList.flatMap fun script => entry.draft.subscriptions usual script).map
          (·.trigger) ++
        entry.script.toList.flatMap fun script => entry.draft.selfRegistered script) =
      EventEntry.shown (fun script draft => [draft.toTrigger script]) history.bound := by
    refine List.flatMap_congr fun entry member => ?_
    cases entry.script with
    | none => rfl
    | some script =>
      rw [Option.toList_some, List.flatMap_singleton, List.flatMap_singleton,
        List.flatMap_singleton]
      exact (single entry (perm.mem_iff.mp member)).binds usual script
  rw [one]
  exact perm.flatMap_right _

/-- Where no job and no trigger waits, the triggers of a script are all on the bus, each once. -/
theorem triggersOf (keeps : before.Keeps entries) (idle : before.host.queue.waiting = [])
    (none : before.entries = []) (single : ∀ entry ∈ entries, entry.draft.Single)
    (distinct : (entries.map (·.draft.ticket)).Nodup) (script : Script) :
    (before.host.triggersOf script).length =
        (EventEntry.ofScript (some script) entries).length ∧
      ((before.host.triggersOf script).map Trigger.ticket).Nodup := by
  have all := (keeps.triggers idle none single).filter (·.script = script)
  have own := all.trans (.of_eq (EventEntry.shown_ofScript script entries))
  refine ⟨own.length_eq.trans (List.length_map _), ?_⟩
  refine (own.map Trigger.ticket).nodup_iff.mpr ?_
  rw [List.map_map]
  exact distinct.sublist (List.filter_sublist.map _)

end Keeps

end Workspace

end ScriptBinding
