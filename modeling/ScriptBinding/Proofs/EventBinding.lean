import ScriptBinding.Proofs.BufferedEvents
import ScriptBinding.Session

/-! # Events are bound once

The trigger of an event waits with its script. Leaving the script, for another one or for none, hands
the triggers that wait to the main thread, which binds them at once or, when a worker has left the
script, when it drains its queue. A diary notes what the events of a session have let wait and which
jobs have followed; what the session shows is what the diary says.
-/

namespace ScriptBinding

/-! ## Leaving scripts -/

namespace Workspace

/-- The triggers that wait for the current script to be left. -/
def entries (workspace : Workspace) : List EventEntry :=
  workspace.context.currentDrafts.map (⟨workspace.context.script, ·⟩)

/-- To move on to a script, or to none, is to leave the current one. -/
def leaves (next : Option Script) (workspace : Workspace) : Bool :=
  !Script.sameCurrent workspace.context.script next

/-- What leaving the current script submits. -/
def flushed (workspace : Workspace) : List Job :=
  if workspace.context.currentDrafts.isEmpty then []
  else (workspace.context.script.map (.bind · workspace.context.currentDrafts)).toList

variable {workspace : Workspace} {thread : Thread} {next : Option Script}

theorem flushed_of_none (none : workspace.context.currentDrafts = []) : workspace.flushed = [] := by
  rw [flushed, none]
  rfl

theorem entries_of_none (none : workspace.context.currentDrafts = []) : workspace.entries = [] := by
  rw [entries, none]
  rfl

/-- All the triggers that wait are bound by the job that leaving their script submits. -/
theorem binds_flushed (orderly : workspace.Orderly) :
    workspace.flushed.flatMap Job.binds = workspace.entries := by
  unfold flushed entries
  split
  · next none => rw [List.isEmpty_iff.mp none, List.flatMap_nil, List.map_nil]
  · next waits =>
    cases current : workspace.context.script with
    | none => exact absurd (List.isEmpty_iff.mpr (orderly current)) waits
    | some script =>
      rw [Option.map_some, Option.toList_some, List.flatMap_singleton]
      rfl

theorem flush_continues (thread : Thread) (workspace : Workspace) :
    workspace.host.Continues thread workspace.flushed (workspace.flush thread).host := by
  unfold flush flushed
  dsimp only
  split
  · exact .of_same rfl rfl rfl rfl
  · cases workspace.context.script with
    | none => exact .of_same rfl rfl rfl rfl
    | some script => exact .submit thread (.bind script workspace.context.currentDrafts) _

/-- A script that is left hands over everything that waits. -/
theorem setScript_of_leaves (thread : Thread) (leaves : workspace.leaves next = true) :
    workspace.host.Continues thread workspace.flushed (workspace.setScript thread next).host ∧
      (workspace.setScript thread next).context.script = next ∧
      (workspace.setScript thread next).context.currentDrafts = [] := by
  rw [Workspace.leaves, Bool.not_eq_true'] at leaves
  rw [setScript_of_moves leaves]
  exact ⟨workspace.flush_continues thread, rfl, moved_drafts next _⟩

/-- A script that stays current stays as it is. -/
theorem setScript_of_stays (thread : Thread) (stays : workspace.leaves next = false) :
    workspace.setScript thread next = workspace := by
  rw [leaves, Bool.not_eq_false'] at stays
  rw [setScript, if_pos stays]

/-- Without a script nothing waits that would have to be handed over. -/
theorem finish_continues (thread : Thread) (orderly : workspace.Orderly) :
    workspace.host.Continues thread workspace.flushed (workspace.setScript thread none).host ∧
      (workspace.setScript thread none).context.script = none ∧
      (workspace.setScript thread none).context.currentDrafts = [] := by
  by_cases leaves : workspace.leaves none = true
  · exact setScript_of_leaves thread leaves
  · have noScript : workspace.context.script = none := by
      cases current : workspace.context.script with
      | none => rfl
      | some script =>
        refine absurd ?_ leaves
        rw [Workspace.leaves, current]
        rfl
    rw [finish_of_none noScript, flushed_of_none (orderly noScript)]
    exact ⟨.of_same rfl rfl rfl rfl, noScript, orderly noScript⟩

/-- Nothing is submitted but what the current script hands over when it is left. -/
def MayLeave (thread : Thread) (before after : Workspace) : Prop :=
  before.Submits thread [] after ∨
    before.host.Continues thread before.flushed after.host ∧ after.context.currentDrafts = []

namespace MayLeave

variable {before middle after : Workspace}

theorem trans (first : MayLeave thread before middle) (second : MayLeave thread middle after) :
    MayLeave thread before after := by
  rcases first with stays | ⟨continues, none⟩
  · have same : middle.flushed = before.flushed := by
      rw [flushed, flushed, stays.script, stays.drafts]
    rcases second with alsoStays | ⟨continues, none⟩
    · exact Or.inl (stays.quiet alsoStays)
    · rw [same] at continues
      exact Or.inr ⟨stays.continues.trans continues, none⟩
  · have whole (jobs : List Job) (isNone : jobs = [])
        (later : middle.host.Continues thread jobs after.host) :
        before.host.Continues thread before.flushed after.host := by
      have whole := continues.trans later
      rwa [isNone, List.append_nil] at whole
    rcases second with stays | ⟨later, stillNone⟩
    · exact Or.inr ⟨whole _ rfl stays.continues, stays.drafts.trans none⟩
    · exact Or.inr ⟨whole _ (flushed_of_none none) later, stillNone⟩

theorem setScript (thread : Thread) (next : Option Script) (workspace : Workspace) :
    MayLeave thread workspace (workspace.setScript thread next) := by
  cases leaves : workspace.leaves next with
  | true =>
    obtain ⟨continues, _, none⟩ := setScript_of_leaves thread leaves
    exact Or.inr ⟨continues, none⟩
  | false =>
    rw [setScript_of_stays thread leaves]
    exact Or.inl (.refl workspace)

/-- Once no script is current, the script that was current has been left. -/
theorem finish (mayLeave : MayLeave thread before after) (orderly : before.Orderly) :
    before.host.Continues thread before.flushed (after.setScript thread none).host ∧
      (after.setScript thread none).context.script = none ∧
      (after.setScript thread none).context.currentDrafts = [] := by
  have later : after.Orderly := by
    intro noScript
    rcases mayLeave with stays | ⟨_, none⟩
    · exact stays.drafts.trans (orderly (stays.script ▸ noScript))
    · exact none
  obtain ⟨continues, noScript, none⟩ := finish_continues thread later
  refine ⟨?_, noScript, none⟩
  rcases mayLeave.trans (Or.inr ⟨continues, none⟩) with stays | ⟨whole, _⟩
  · have nothing : before.flushed = [] := flushed_of_none (stays.drafts ▸ none)
    rw [nothing]
    exact stays.continues
  · exact whole

end MayLeave

end Workspace

open Workspace (MayLeave)

namespace Loading

variable {workspace : Workspace}

/-- Unloading leaves the current script, and takes back what the structures have bound. -/
theorem unloadScript_continues (thread : Thread) (loaded : LoadedScript)
    (orderly : workspace.Orderly) :
    workspace.host.Continues thread
        (workspace.flushed ++ loaded.structures.reverse.flatMap takesBack)
        (unloadScript thread loaded workspace).2.host ∧
      (unloadScript thread loaded workspace).2.context.script = none ∧
      (unloadScript thread loaded workspace).2.context.currentDrafts = [] := by
  obtain ⟨first, noScript, noDrafts⟩ := workspace.finish_continues thread orderly
  let finished := workspace.setScript thread none
  let current := finished.setScript thread (some loaded.script)
  have leaves : finished.leaves (some loaded.script) = true := by
    rw [Workspace.leaves, noScript]
    rfl
  obtain ⟨second, script, none⟩ := Workspace.setScript_of_leaves thread leaves
  rw [Workspace.flushed_of_none noDrafts] at second
  have taken := each_unload_submits thread loaded.structures.reverse current
  have left : (each (unload thread) loaded.structures.reverse current).2.leaves Option.none =
      true := by
    rw [Workspace.leaves, taken.script, script]
    rfl
  obtain ⟨last, ended, stillNone⟩ := Workspace.setScript_of_leaves thread left
  rw [Workspace.flushed_of_none (taken.drafts.trans none)] at last
  have withdrawn : Host.Continues thread []
      ((each (unload thread) loaded.structures.reverse current).2.setScript thread Option.none).host
      (unloadScript thread loaded workspace).2.host := .of_same rfl rfl rfl rfl
  have whole := (first.trans second).trans ((taken.continues.trans last).trans withdrawn)
  rw [List.append_nil, List.append_nil, List.append_nil] at whole
  exact ⟨whole, ended, stillNone⟩

theorem settle_mayLeave (thread : Thread) (script : Script) (loaded : LoadedStructure)
    (settlement : Settlement) (workspace : Workspace) :
    MayLeave thread workspace (settle thread script loaded settlement workspace).2.2 := by
  have carried := submits_carried thread
  have noted (call : PhaseCall) :=
    (loaded.inner.settle_submits thread settlement.info workspace).quiet (carried.noteCall call _)
  unfold settle
  dsimp only
  split
  · split
    · exact Or.inl (noted _)
    · exact ((MayLeave.trans (Or.inl (noted _)) (.setScript thread _ _)).trans
        (Or.inl (carried.record _ _ _)))
  · exact Or.inl (.refl workspace)

theorem settleAll_mayLeave (thread : Thread) (script : Script) (structures : List LoadedStructure)
    (settlement : Settlement) (workspace : Workspace) :
    MayLeave thread workspace (settleAll thread script structures settlement workspace).2.2 := by
  induction structures generalizing settlement workspace with
  | nil => exact Or.inl (.refl workspace)
  | cons first others ih =>
    exact (settle_mayLeave thread script first settlement workspace).trans (ih _ _)

theorem each_settle_mayLeave (thread : Thread) (scripts : List LoadedScript)
    (workspace : Workspace) :
    MayLeave thread workspace (each (settleScript thread) scripts workspace).2 := by
  induction scripts generalizing workspace with
  | nil => exact Or.inl (.refl workspace)
  | cons first others ih =>
    exact (settleAll_mayLeave thread first.script first.structures _ workspace).trans (ih _)

theorem settleScripts_continues (thread : Thread) (scripts : List LoadedScript)
    (orderly : workspace.Orderly) :
    workspace.host.Continues thread workspace.flushed
        (settleScripts thread scripts workspace).2.host ∧
      (settleScripts thread scripts workspace).2.context.script = none ∧
      (settleScripts thread scripts workspace).2.context.currentDrafts = [] :=
  (each_settle_mayLeave thread scripts workspace).finish orderly

end Loading

/-! ## Diaries -/

/-- A session with the scripts that it has loaded, and what has happened to its events. -/
structure Diary where
  session : Session
  scripts : List LoadedScript := []
  /-- The events that have let their triggers wait, in order. -/
  buffered : List Loading.BufferedEvent := []
  /-- The jobs that have bound triggers and taken them back, and those that will. -/
  history : History := {}

namespace Diary

/-- What can be done with the scripts of a session. -/
inductive Step where
  | load (thread : Thread) (source : ScriptSource)
  /-- Move on to a script, or to none. -/
  | setScript (thread : Thread) (script : Option Script)
  /-- Do the jobs that wait, on the main thread. -/
  | drain
  | settle (thread : Thread)
  /-- Unload one of the scripts that have been loaded. -/
  | unload (thread : Thread) (place : Nat)

/-- A diary without entries. -/
def start (registry : Registry) (parts : List ContextPart) (host : Host) : Diary where
  session := .start registry parts host

def workspace (diary : Diary) : Workspace :=
  diary.session.workspace

/-- The load that comes next. -/
def nextScript (source : ScriptSource) (diary : Diary) : Script :=
  ⟨source.path, diary.session.generations.next⟩

/-- The current script is left for another one, or for none. -/
def leaves (diary : Diary) : Step → Bool
  | .load _ source => diary.workspace.leaves (some (diary.nextScript source))
  | .setScript _ script => diary.workspace.leaves script
  | .drain => false
  | .settle _ => diary.workspace.leaves none
  | .unload _ place => diary.scripts[place]?.isSome && diary.workspace.leaves none

/-- The events that let their triggers wait. -/
def newEvents (diary : Diary) : Step → List Loading.BufferedEvent
  | .load thread source =>
    Loading.bufferedEvents diary.session.registry source.tree.nodes
      (diary.workspace.setScript thread (some (diary.nextScript source)))
  | _ => []

/-- The jobs that take triggers back. -/
def takesBack (diary : Diary) : Step → List Job
  | .unload _ place =>
    diary.scripts[place]?.toList.flatMap (·.structures.reverse.flatMap Loading.takesBack)
  | _ => []

/-- What becomes of the session and its scripts. -/
def perform (diary : Diary) : Step → Session × List LoadedScript
  | .load thread source =>
    let (loaded, session) := diary.session.load thread source
    (session, diary.scripts ++ [loaded])
  | .setScript thread script => (diary.session.setScript thread script, diary.scripts)
  | .drain =>
    (diary.session.inWorkspace (·.inHost fun host => (host.runPending .main).2), diary.scripts)
  | .settle thread =>
    let ((settled, _), session) := diary.session.settle thread diary.scripts
    (session, settled)
  | .unload thread place =>
    match diary.scripts[place]? with
    | none => (diary.session, diary.scripts)
    | some loaded =>
      let (unloaded, session) := diary.session.unload thread loaded
      (session, diary.scripts.set place unloaded)

/-- The jobs that bind what has waited for a script that is left, and those that take triggers
back. -/
def submissions (diary : Diary) (step : Step) : List Job :=
  (if diary.leaves step then diary.workspace.flushed else []) ++ diary.takesBack step

/-- What is noted about jobs. -/
def note (diary : Diary) (step : Step) : History :=
  match step with
  | .drain => diary.history.drain
  | .load thread _ | .setScript thread _ | .settle thread | .unload thread _ =>
    diary.history.submit thread (diary.submissions step)

/-- Do something, and note what happens to events. -/
def step (diary : Diary) (step : Step) : Diary where
  session := (diary.perform step).1
  scripts := (diary.perform step).2
  buffered := diary.buffered ++ diary.newEvents step
  history := diary.note step

def run (steps : List Step) (diary : Diary) : Diary :=
  steps.foldl step diary

variable {diary : Diary}

/-! ## Steps -/

/-- What a step does to the triggers that wait and to the host. -/
structure Advances (diary : Diary) (step : Step) : Prop where
  orderly : (diary.step step).workspace.Orderly
  entries : (diary.step step).workspace.entries =
    (if diary.leaves step then [] else diary.workspace.entries) ++
      (diary.newEvents step).map Loading.BufferedEvent.entry
  shows : ∀ origin, diary.workspace.host.Shows origin diary.history →
    (diary.step step).workspace.host.Shows origin (diary.step step).history

/-- A step after which nothing waits. -/
theorem Advances.of_none {step : Step}
    (noDrafts : (diary.step step).workspace.context.currentDrafts = [])
    (nothing : diary.newEvents step = [])
    (left : diary.leaves step = true ∨ diary.workspace.entries = [])
    (shows : ∀ origin, diary.workspace.host.Shows origin diary.history →
      (diary.step step).workspace.host.Shows origin (diary.step step).history) :
    diary.Advances step where
  orderly := fun _ => noDrafts
  entries := by
    rw [Workspace.entries_of_none noDrafts, nothing, List.map_nil, List.append_nil]
    rcases left with leaves | none
    · rw [if_pos leaves]
    · rw [none, ite_self]
  shows := shows

/-- A step that changes nothing. -/
theorem Advances.of_same {step : Step} (orderly : diary.workspace.Orderly)
    (same : (diary.step step).workspace = diary.workspace) (stays : diary.leaves step = false)
    (nothing : diary.newEvents step = []) (noted : diary.note step = diary.history) :
    diary.Advances step where
  orderly := same ▸ orderly
  entries := by
    rw [same, stays, nothing]
    exact (List.append_nil _).symm
  shows := by
    intro origin shown
    change Host.Shows origin (diary.note step) _
    rw [same, noted]
    exact shown

/-- Where no script is current, leaving it submits nothing and loses nothing. -/
theorem leaves_none {workspace : Workspace} (orderly : workspace.Orderly) :
    (if workspace.leaves none then workspace.flushed else []) = workspace.flushed ∧
      (workspace.leaves none = true ∨ workspace.entries = []) := by
  cases current : workspace.context.script with
  | some script =>
    have leaves : workspace.leaves none = true := by
      rw [Workspace.leaves, current]
      rfl
    exact ⟨if_pos leaves, Or.inl leaves⟩
  | none =>
    rw [Workspace.flushed_of_none (orderly current), ite_self]
    exact ⟨rfl, Or.inr (Workspace.entries_of_none (orderly current))⟩

theorem load_advances (thread : Thread) (source : ScriptSource) (diary : Diary) :
    diary.Advances (.load thread source) := by
  let script := diary.nextScript source
  let started := diary.workspace.setScript thread (some script)
  have buffers := Loading.loadCurrent_buffers diary.session.registry thread script
    source.tree.nodes started
  have moves : diary.workspace.host.Continues thread
      (if diary.workspace.leaves (some script) then diary.workspace.flushed else []) started.host ∧
      started.context.script ≠ none ∧
      started.entries = if diary.workspace.leaves (some script) then [] else
        diary.workspace.entries := by
    cases leaves : diary.workspace.leaves (some script) with
    | true =>
      obtain ⟨continues, current, none⟩ := Workspace.setScript_of_leaves thread leaves
      refine ⟨continues, ?_, Workspace.entries_of_none none⟩
      rw [current]
      exact Option.some_ne_none script
    | false =>
      have same : started = diary.workspace := Workspace.setScript_of_stays thread leaves
      rw [same]
      refine ⟨.of_same rfl rfl rfl rfl, fun noScript => ?_, rfl⟩
      rw [Workspace.leaves, noScript] at leaves
      cases leaves
  obtain ⟨continues, current, entries⟩ := moves
  refine ⟨fun noScript => absurd (buffers.script.symm.trans noScript) current, ?_, ?_⟩
  · change (Loading.loadCurrent diary.session.registry thread script source.tree.nodes
      started).2.entries = _
    rw [Workspace.entries, buffers.drafts, buffers.script, List.map_append, List.map_map]
    refine congrArg₂ _ entries ?_
    exact Loading.entries_bufferedEvents.symm
  · intro origin shown
    have whole := continues.trans buffers.continues
    exact whole origin _ shown

theorem advances (orderly : diary.workspace.Orderly) (step : Step) : diary.Advances step := by
  obtain ⟨flushed, left⟩ := leaves_none orderly
  cases step with
  | load thread source => exact load_advances thread source diary
  | setScript thread script =>
    cases leaves : diary.workspace.leaves script with
    | true =>
      obtain ⟨continues, _, none⟩ := Workspace.setScript_of_leaves thread leaves
      have jobs : diary.submissions (.setScript thread script) = diary.workspace.flushed :=
        (List.append_nil _).trans (if_pos leaves)
      refine .of_none none rfl (Or.inl leaves) fun origin shown => ?_
      change Host.Shows origin (diary.history.submit thread _) _
      rw [jobs]
      exact continues origin _ shown
    | false =>
      have jobs : diary.submissions (.setScript thread script) = [] :=
        (List.append_nil _).trans (if_neg (by rw [Diary.leaves, leaves]; exact Bool.false_ne_true))
      refine .of_same orderly (Workspace.setScript_of_stays thread leaves) leaves rfl ?_
      rw [note, jobs, History.submit_nil]
  | drain =>
    refine ⟨orderly, ?_, fun origin shown => shown.drain⟩
    exact (List.append_nil _).symm
  | settle thread =>
    obtain ⟨continues, _, none⟩ :=
      Loading.settleScripts_continues thread diary.scripts orderly
    have jobs : diary.submissions (.settle thread) = diary.workspace.flushed :=
      (List.append_nil _).trans flushed
    refine .of_none none rfl left fun origin shown => ?_
    change Host.Shows origin (diary.history.submit thread _) _
    rw [jobs]
    exact continues origin _ shown
  | unload thread place =>
    cases found : diary.scripts[place]? with
    | none =>
      have same : diary.perform (.unload thread place) = (diary.session, diary.scripts) := by
        rw [perform, found]
      have stays : diary.leaves (.unload thread place) = false := by
        rw [Diary.leaves, found]
        rfl
      have jobs : diary.submissions (.unload thread place) = [] := by
        rw [submissions, stays, takesBack, found]
        rfl
      refine .of_same orderly (congrArg (·.1.workspace) same) stays rfl ?_
      rw [note, jobs, History.submit_nil]
    | some loaded =>
      obtain ⟨continues, _, none⟩ :=
        Loading.unloadScript_continues thread loaded orderly
      have same : (diary.perform (.unload thread place)).1 =
          (diary.session.unload thread loaded).2 := by
        rw [perform, found]
      have whole : (diary.step (.unload thread place)).workspace =
          (Loading.unloadScript thread loaded diary.workspace).2 :=
        congrArg Session.workspace same
      have leaves : diary.leaves (.unload thread place) = diary.workspace.leaves Option.none := by
        rw [Diary.leaves, found]
        rfl
      have jobs : diary.submissions (.unload thread place) = diary.workspace.flushed ++
          loaded.structures.reverse.flatMap Loading.takesBack := by
        rw [submissions, leaves, flushed, takesBack, found, Option.toList_some,
          List.flatMap_singleton]
      refine .of_none (whole ▸ none) rfl (leaves ▸ left) fun origin shown => ?_
      change Host.Shows origin (diary.history.submit thread _) _
      rw [whole, jobs]
      exact continues origin _ shown

/-! ## Where triggers go -/

/-- Jobs that take triggers back bind none. -/
theorem binds_takesBack (diary : Diary) (step : Step) :
    (diary.takesBack step).flatMap Job.binds = [] := by
  have one (loaded : LoadedStructure) : ∀ job ∈ Loading.takesBack loaded, job.binds = [] := by
    intro job member
    unfold Loading.takesBack Structure.takesBack at member
    split at member
    · split at member
      · rw [List.mem_singleton.mp member]
        rfl
      · exact absurd member List.not_mem_nil
    · exact absurd member List.not_mem_nil
  refine List.flatMap_eq_nil_iff.mpr fun job member => ?_
  cases step with
  | unload thread place =>
    obtain ⟨script, _, own⟩ := List.mem_flatMap.mp member
    obtain ⟨loaded, _, takes⟩ := List.mem_flatMap.mp own
    exact one loaded job takes
  | _ => exact absurd member List.not_mem_nil

/-- The triggers that a step hands over, which have waited for their script to be left. -/
def handsOver (diary : Diary) (step : Step) : List EventEntry :=
  if diary.leaves step then diary.workspace.entries else []

theorem binds_submissions (orderly : diary.workspace.Orderly) (step : Step) :
    (diary.submissions step).flatMap Job.binds = diary.handsOver step := by
  rw [submissions, List.flatMap_append, binds_takesBack, List.append_nil, handsOver]
  split
  · exact Workspace.binds_flushed orderly
  · rfl

theorem note_turns (orderly : diary.workspace.Orderly) (step : Step) :
    History.Turns (diary.handsOver step) diary.history (diary.note step) := by
  have binds := binds_submissions orderly step
  have submits (thread : Thread) : History.Turns (diary.handsOver step) diary.history
      (diary.history.submit thread (diary.submissions step)) := by
    cases thread with
    | main => exact .binds (by rw [← binds]; exact List.flatMap_append) rfl
    | worker => exact .queues rfl (by rw [← binds]; exact List.flatMap_append)
  cases step with
  | drain => exact .drains rfl List.flatMap_append rfl
  | load thread source => exact submits thread
  | setScript thread script => exact submits thread
  | settle thread => exact submits thread
  | unload thread place => exact submits thread

/-! ## Runs -/

/-- The triggers that have ever been bound, those in jobs that wait, and those that wait for their
script to be left. -/
def entries (diary : Diary) : List EventEntry :=
  diary.history.bound ++ diary.history.queued ++ diary.workspace.entries

/-- What a diary keeps, whatever is done. -/
structure Kept (registry : Registry) (origin : Bindings) (diary : Diary) : Prop where
  registers : diary.session.registry = registry
  orderly : diary.workspace.Orderly
  shows : diary.workspace.host.Shows origin diary.history
  read : ∀ buffered ∈ diary.buffered, buffered.IsRead registry
  all : diary.entries.Perm (diary.buffered.map Loading.BufferedEvent.entry)
  order : ∀ script, EventEntry.ofScript script diary.entries =
    EventEntry.ofScript script (diary.buffered.map Loading.BufferedEvent.entry)
  past : ∀ entry ∈ diary.entries, ∃ script, entry.script = some script ∧
    script.generation < diary.session.generations.next
  /-- The triggers in jobs are of other scripts than those that wait for their script. -/
  apart : ∀ entry ∈ diary.workspace.entries, ∀ other ∈ diary.history.queued,
    other.script ≠ entry.script

/-- Where triggers are after a step. -/
theorem step_entries {registry : Registry} {origin : Bindings} (kept : diary.Kept registry origin)
    (step : Step) :
    let events := (diary.newEvents step).map Loading.BufferedEvent.entry
    (diary.step step).entries.Perm (diary.entries ++ events) ∧
      (∀ script, EventEntry.ofScript script (diary.step step).entries =
        EventEntry.ofScript script (diary.entries ++ events)) ∧
      ∀ entry ∈ (diary.step step).history.queued, entry ∈ diary.entries := by
  intro events
  let stays := if diary.leaves step then [] else diary.workspace.entries
  have whole : diary.handsOver step ++ stays = diary.workspace.entries := by
    unfold handsOver stays
    split
    · exact List.append_nil _
    · rfl
  have apart : ∀ entry ∈ diary.handsOver step, ∀ other ∈ diary.history.queued,
      other.script ≠ entry.script :=
    fun entry member => kept.apart entry (whole ▸ List.mem_append_left _ member)
  obtain ⟨perm, order, queued⟩ := (note_turns kept.orderly step).order apart
  have split : (diary.step step).entries =
      (diary.note step).bound ++ (diary.note step).queued ++ (stays ++ events) :=
    congrArg _ (advances kept.orderly step).entries
  have joined : diary.entries ++ events =
      diary.history.bound ++ diary.history.queued ++ diary.handsOver step ++ (stays ++ events) := by
    rw [entries, ← whole]
    simp only [List.append_assoc]
  rw [split, joined]
  refine ⟨perm.append_right _, fun script => ?_, fun entry member => ?_⟩
  · rw [EventEntry.ofScript_append, order, ← EventEntry.ofScript_append]
  · rcases queued entry member with old | new
    · exact List.mem_append_left _ (List.mem_append_right _ old)
    · exact List.mem_append_right _ (whole ▸ List.mem_append_left _ new)

theorem perform_session (diary : Diary) (step : Step) :
    (diary.perform step).1.registry = diary.session.registry ∧
      diary.session.generations.next ≤ (diary.perform step).1.generations.next := by
  cases step with
  | load thread source => exact ⟨rfl, Nat.le_succ _⟩
  | setScript thread script => exact ⟨rfl, Nat.le_refl _⟩
  | drain => exact ⟨rfl, Nat.le_refl _⟩
  | settle thread => exact ⟨rfl, Nat.le_refl _⟩
  | unload thread place =>
    unfold perform
    dsimp only
    cases diary.scripts[place]? with
    | none => exact ⟨rfl, Nat.le_refl _⟩
    | some loaded => exact ⟨rfl, Nat.le_refl _⟩

/-- Once a script is loaded, only triggers of this load wait for their script to be left. -/
theorem load_generation (thread : Thread) (source : ScriptSource) (diary : Diary) :
    ∀ entry ∈ (diary.step (.load thread source)).workspace.entries, ∃ script,
      entry.script = some script ∧ script.generation = diary.session.generations.next := by
  let next := diary.nextScript source
  let started := diary.workspace.setScript thread (some next)
  have current : ∃ script, started.context.script = some script ∧
      script.generation = next.generation := by
    cases leaves : diary.workspace.leaves (some next) with
    | true => exact ⟨next, (Workspace.setScript_of_leaves thread leaves).2.1, rfl⟩
    | false =>
      have same : started = diary.workspace := Workspace.setScript_of_stays thread leaves
      rw [same]
      rw [Workspace.leaves, Bool.not_eq_false'] at leaves
      cases found : diary.workspace.context.script with
      | none =>
        rw [found] at leaves
        cases leaves
      | some script =>
        rw [found] at leaves
        exact ⟨script, rfl, Script.generation_eq_of_same leaves⟩
  have buffers := Loading.loadCurrent_buffers diary.session.registry thread next
    source.tree.nodes started
  obtain ⟨script, found, generation⟩ := current
  intro entry member
  obtain ⟨_, _, rfl⟩ := List.mem_map.mp member
  exact ⟨script, buffers.script.trans found, generation⟩

namespace Kept

variable {registry : Registry} {origin : Bindings}

theorem step (makes : registry.MakesNewEvents) (kept : diary.Kept registry origin) (step : Step) :
    (diary.step step).Kept registry origin := by
  obtain ⟨perm, order, queued⟩ := step_entries kept step
  obtain ⟨sameRegistry, later⟩ := diary.perform_session step
  have advances := advances kept.orderly step
  have old : ∀ entry ∈ diary.entries, ∃ script, entry.script = some script ∧
      script.generation < (diary.step step).session.generations.next := by
    intro entry member
    obtain ⟨script, found, less⟩ := kept.past entry member
    exact ⟨script, found, less.trans_le later⟩
  have events : (diary.step step).buffered.map Loading.BufferedEvent.entry =
      diary.buffered.map Loading.BufferedEvent.entry ++
        (diary.newEvents step).map Loading.BufferedEvent.entry :=
    List.map_append
  refine ⟨sameRegistry.trans kept.registers, advances.orderly, advances.shows origin kept.shows,
    ?_, ?_, ?_, ?_, ?_⟩
  · refine List.forall_mem_append.mpr ⟨kept.read, fun buffered member => ?_⟩
    cases step with
    | load thread source =>
      change buffered ∈ Loading.bufferedEvents diary.session.registry _ _ at member
      rw [kept.registers] at member
      exact Loading.isRead_of_mem makes member
    | _ => exact absurd member List.not_mem_nil
  · rw [events]
    exact perm.trans (kept.all.append_right _)
  · intro script
    rw [events, order, EventEntry.ofScript_append, EventEntry.ofScript_append, kept.order]
  · intro entry member
    rcases List.mem_append.mp (perm.mem_iff.mp member) with before | new
    · exact old entry before
    · have waits : entry ∈ (diary.step step).workspace.entries := by
        rw [advances.entries]
        exact List.mem_append_right _ new
      cases step with
      | load thread source =>
        obtain ⟨script, found, same⟩ := diary.load_generation thread source entry waits
        exact ⟨script, found, same.trans_lt (Nat.lt_succ_self _)⟩
      | _ => exact absurd new List.not_mem_nil
  · intro entry member other there same
    have stays (nothing : diary.newEvents step = []) : False := by
      rw [advances.entries, nothing, List.map_nil, List.append_nil] at member
      split at member
      · exact absurd member List.not_mem_nil
      · next leaves =>
        have none : diary.handsOver step = [] := if_neg leaves
        obtain ⟨_, _, comes⟩ := (note_turns kept.orderly step).order fun entry handed =>
          absurd (none ▸ handed) List.not_mem_nil
        rcases comes other there with before | absent
        · exact kept.apart entry member other before same
        · rw [none] at absent
          exact absurd absent List.not_mem_nil
    cases step with
    | load thread source =>
      obtain ⟨script, found, generation⟩ := diary.load_generation thread source entry member
      obtain ⟨earlier, isEarlier, less⟩ := kept.past other (queued other there)
      obtain rfl : earlier = script := Option.some.inj (isEarlier.symm.trans (same.trans found))
      exact Nat.ne_of_lt less generation
    | _ => exact stays rfl

theorem run (makes : registry.MakesNewEvents) (kept : diary.Kept registry origin)
    (steps : List Step) : (diary.run steps).Kept registry origin := by
  induction steps generalizing diary with
  | nil => exact kept
  | cons first others ih => exact ih (kept.step makes first)

/-- A diary without entries on a host whose queue is empty. -/
theorem start (registry : Registry) (parts : List ContextPart) {host : Host}
    (idle : host.queue.waiting = []) : (start registry parts host).Kept registry host.bindings := by
  obtain ⟨noScript, noDrafts⟩ := Context.withParts_idle parts
  have none : (Diary.start registry parts host).workspace.entries = [] :=
    Workspace.entries_of_none noDrafts
  have empty : (Diary.start registry parts host).entries = [] := none
  refine ⟨rfl, fun _ => noDrafts, ⟨rfl, [], idle, rfl⟩, fun _ absent => absurd absent
    List.not_mem_nil, ?_, fun _ => ?_, ?_, ?_⟩
  · rw [empty]
    exact .nil
  · rw [empty]
    rfl
  · rw [empty]
    exact fun _ absent => absurd absent List.not_mem_nil
  · rw [none]
    exact fun _ absent => absurd absent List.not_mem_nil

end Kept

/-- **Events are bound once.** On a host whose queue is empty, scripts are loaded, left, settled and
unloaded on any threads, and the queue is drained between. At any point the host shows what the jobs
of the diary have come to, and every event that has let its trigger wait has been read as its section
gives it, for the script that was current. Of every script, the triggers that have ever been bound,
those in jobs that wait, and those that wait for their script to be left are the triggers of its
events, each once and in their order; together they are as many as the events. The triggers that wait
are handed over by leaving their script, all of them at once, and by nothing else. -/
theorem run_binds_once (registry : Registry) (makes : registry.MakesNewEvents)
    (parts : List ContextPart) (host : Host) (idle : host.queue.waiting = []) (steps : List Step) :
    let diary := (start registry parts host).run steps
    diary.workspace.host.Shows host.bindings diary.history ∧
      (∀ buffered ∈ diary.buffered, buffered.IsRead registry) ∧
      (∀ script, EventEntry.ofScript script diary.entries =
        EventEntry.ofScript script (diary.buffered.map Loading.BufferedEvent.entry)) ∧
      diary.history.bound.length + diary.history.queued.length +
        diary.workspace.context.currentDrafts.length = diary.buffered.length ∧
      ∀ step,
        History.Turns (if diary.leaves step then diary.workspace.entries else []) diary.history
          (diary.step step).history ∧
        (diary.step step).workspace.entries =
          (if diary.leaves step then [] else diary.workspace.entries) ++
            (diary.newEvents step).map Loading.BufferedEvent.entry := by
  intro diary
  have kept : diary.Kept registry host.bindings := (Kept.start registry parts idle).run makes steps
  refine ⟨kept.shows, kept.read, kept.order, ?_, fun step => ?_⟩
  · have length := kept.all.length_eq
    rwa [entries, List.length_append, List.length_append, Workspace.entries, List.length_map,
      List.length_map] at length
  · exact ⟨note_turns kept.orderly step, (advances kept.orderly step).entries⟩

/-- A registry of one event. -/
def chatRegistry : Registry :=
  (Registry.registerEvent "chat" ["chat"] (.simple "chat") ["chat"] {}).toOption.getD {}

theorem chatRegistry_makesNewEvents : chatRegistry.MakesNewEvents := by
  rintro ⟨info, create⟩ member ticket event made
  unfold chatRegistry at member
  generalize registers : Registry.registerEvent "chat" ["chat"] (.simple "chat") ["chat"] {} =
    result at member
  cases result with
  | error failure => exact absurd member List.not_mem_nil
  | ok registry =>
    rcases Registry.mem_registerEvent registers member with ⟨rfl, _⟩ | absent
    · obtain rfl := Structure.event.inj made
      exact ⟨rfl, rfl⟩
    · exact absurd absent List.not_mem_nil

/-- A script with one event. -/
def chatSource : ScriptSource :=
  ⟨⟨"chat.sk"⟩, ⟨"", 0, [.nested "on chat" 1 [.simple "send \"hi\"" 2]]⟩⟩

theorem chat_binds_once :
    let diary := (start chatRegistry [] {}).run [.load .worker chatSource]
    diary.buffered.length = 1 ∧ diary.history.bound.length + diary.history.queued.length +
      diary.workspace.context.currentDrafts.length = 1 := by
  intro diary
  have one : diary.buffered.length = 1 := by decide +kernel
  have whole := (run_binds_once chatRegistry chatRegistry_makesNewEvents [] {} rfl
    [.load .worker chatSource]).2.2.2.1
  exact ⟨one, whole.trans one⟩

end Diary

end ScriptBinding
