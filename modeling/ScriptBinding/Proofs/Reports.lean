import ScriptBinding.Proofs.FailedCalls
import ScriptBinding.Proofs.FinishedScripts

/-! # What reports leave

A load is made of calls of structures, and of what the loader notes between them. What each of these
keeps, the load keeps. Diagnostics are never withdrawn, so that a script without errors is one of
which no call has failed.
-/

namespace ScriptBinding

namespace Loading

/-- A relation between workspaces that every phase keeps that follows the headers, on a thread. -/
structure CarriedPhases (Related : Workspace → Workspace → Prop) (thread : Thread) : Prop where
  refl : ∀ workspace, Related workspace workspace
  trans : ∀ {first second third}, Related first second → Related second third →
    Related first third
  noteCall : ∀ call workspace, Related workspace (workspace.inContext (·.noteCall call))
  updateInfo : ∀ change workspace, Related workspace (workspace.inContext (·.updateInfo change))
  record : ∀ failure line workspace, Related workspace (workspace.record failure line)
  preload : ∀ (inner : Structure) workspace, Related workspace (inner.preload workspace).2.2
  load : ∀ (inner : Structure) workspace, Related workspace (inner.load thread workspace).2.2
  afterLoad : ∀ (inner : Structure) workspace, Related workspace (inner.afterLoad workspace).2.2

/-- A relation between workspaces that everything keeps that a load on the thread consists of. -/
structure Carried (Related : Workspace → Workspace → Prop) (thread : Thread) : Prop extends
    CarriedPhases Related thread where
  takeTicket : ∀ workspace, Related workspace { workspace with host := workspace.host.takeTicket.2 }
  takeInHand : ∀ body info workspace,
    Related workspace (workspace.inContext (·.takeInHand body info))
  init : ∀ (inner : Structure) header body workspace,
    Related workspace (inner.init header body workspace).2.2

namespace CarriedPhases

variable {Related : Workspace → Workspace → Prop} {thread : Thread}

theorem each {α β : Type} (carried : CarriedPhases Related thread)
    {act : α → Workspace → β × Workspace} {items : List α}
    (one : ∀ item ∈ items, ∀ before, Related before (act item before).2)
    (workspace : Workspace) : Related workspace (each act items workspace).2 := by
  induction items generalizing workspace with
  | nil => exact carried.refl workspace
  | cons first others ih =>
    exact carried.trans (one first List.mem_cons_self workspace)
      (ih (fun item member => one item (List.mem_cons_of_mem _ member)) _)

theorem reportPlain (carried : CarriedPhases Related thread) (nodes : List Node)
    (workspace : Workspace) : Related workspace (reportPlain nodes workspace) := by
  unfold Loading.reportPlain
  induction nodes generalizing workspace with
  | nil => exact carried.refl workspace
  | cons node others ih =>
    rw [List.foldl_cons]
    refine carried.trans ?_ (ih _)
    split
    · exact carried.refl workspace
    · exact carried.record _ _ workspace

theorem conclude (carried : CarriedPhases Related thread) (phase : Phase)
    (loaded : LoadedStructure) (result : Outcome Unit × Structure × Workspace) :
    Related result.2.2 (conclude phase loaded result).2.2 := by
  obtain ⟨outcome, inner, after⟩ := result
  unfold Loading.conclude
  dsimp only
  split
  · exact carried.noteCall _ after
  · exact carried.trans (carried.noteCall _ after) (carried.record _ _ _)

theorem preloadOne (carried : CarriedPhases Related thread) (loaded : LoadedStructure)
    (workspace : Workspace) : Related workspace (Loading.preload loaded workspace).2 :=
  carried.trans (carried.preload loaded.inner workspace) (carried.conclude .preload loaded _)

theorem loadOne (carried : CarriedPhases Related thread) (loaded : LoadedStructure)
    (workspace : Workspace) : Related workspace (Loading.load thread loaded workspace).2 := by
  have bodies (loaded : LoadedStructure) (workspace : Workspace) :=
    carried.trans (carried.load loaded.inner workspace) (carried.conclude .load loaded _)
  unfold Loading.load
  cases loaded.preloaded with
  | true => exact bodies loaded workspace
  | false => exact carried.trans (carried.preloadOne loaded workspace) (bodies _ _)

theorem afterLoadOne (carried : CarriedPhases Related thread) (loaded : LoadedStructure)
    (workspace : Workspace) : Related workspace (Loading.afterLoad loaded workspace).2 := by
  unfold Loading.afterLoad
  split
  · exact carried.trans (carried.afterLoad loaded.inner workspace)
      (carried.conclude .afterLoad loaded _)
  · exact carried.refl workspace

theorem bodies (carried : CarriedPhases Related thread) (structures : List LoadedStructure)
    (workspace : Workspace) :
    Related workspace (Loading.each (Loading.load thread) structures workspace).2 :=
  carried.each (fun loaded _ => carried.loadOne loaded) workspace

theorem mending (carried : CarriedPhases Related thread) (structures : List LoadedStructure)
    (workspace : Workspace) :
    Related workspace (Loading.each Loading.afterLoad structures workspace).2 :=
  carried.each (fun loaded _ => carried.afterLoadOne loaded) workspace

/-- What every phase keeps, everything does that follows the headers of a script. -/
theorem afterHeaders (carried : CarriedPhases Related thread) (registry : Registry)
    (script : Script) (nodes : List Node) (workspace : Workspace) :
    Related (initialiseAll registry nodes workspace).2
      (loadCurrent registry thread script nodes workspace).2 :=
  carried.trans (carried.bodies _ _)
    (carried.trans (carried.mending _ _) (carried.updateInfo _ _))

end CarriedPhases

namespace Carried

variable {Related : Workspace → Workspace → Prop} {thread : Thread}

theorem initialise (carried : Carried Related thread) (assignment : Assignment)
    (workspace : Workspace) : Related workspace (initialise assignment workspace).2 := by
  have taken : Related workspace (takeHeader assignment workspace).2.2 := by
    let body := assignment.top.body
    let ready : Workspace := { workspace with host := workspace.host.takeTicket.2 }
    have inHand := carried.takeInHand body assignment.descriptor.toStructureInfo ready
    refine carried.trans (carried.trans (carried.takeTicket workspace) inHand) ?_
    exact carried.trans (carried.init _ assignment.header body _) (carried.takeInHand none none _)
  unfold Loading.initialise
  dsimp only
  split
  · exact carried.trans taken (carried.noteCall _ _)
  · exact carried.trans taken (carried.trans (carried.noteCall _ _) (carried.record _ _ _))
  · exact carried.trans taken (carried.trans (carried.noteCall _ _) (carried.record _ _ _))

theorem initialisePreloading (carried : Carried Related thread) (assignment : Assignment)
    (workspace : Workspace) : Related workspace (initialisePreloading assignment workspace).2 := by
  have initialised := carried.initialise assignment workspace
  unfold Loading.initialisePreloading
  generalize Loading.initialise assignment workspace = result at *
  obtain ⟨_ | loaded, after⟩ := result
  · exact initialised
  · exact carried.trans initialised (carried.preloadOne loaded after)

theorem initialiseNormal (carried : Carried Related thread) (descriptors : List Descriptor)
    (top : TopSection) (workspace : Workspace) :
    Related workspace (initialiseNormal descriptors top workspace).2 := by
  unfold Loading.initialiseNormal
  split
  · exact carried.initialise _ workspace
  · exact carried.record _ _ workspace

theorem initialiseAll (carried : Carried Related thread) (registry : Registry) (nodes : List Node)
    (workspace : Workspace) : Related workspace (initialiseAll registry nodes workspace).2 := by
  refine carried.trans (carried.reportPlain nodes workspace) ?_
  have preloading (assignments : List Assignment) :=
    carried.each fun assignment (_ : assignment ∈ assignments) =>
      carried.initialisePreloading assignment
  have normal (sections : List TopSection) :=
    carried.each fun top (_ : top ∈ sections) => carried.initialiseNormal registry.normal top
  exact carried.trans (preloading _ _) (normal _ _)

/-- What every step keeps, the load of a script keeps. -/
theorem loadCurrent (carried : Carried Related thread) (registry : Registry) (script : Script)
    (nodes : List Node) (workspace : Workspace) :
    Related workspace (loadCurrent registry thread script nodes workspace).2 :=
  carried.trans (carried.initialiseAll registry nodes workspace)
    (carried.afterHeaders registry script nodes workspace)

end Carried

end Loading

/-! ## Diagnostics -/

/-- No diagnostic has been withdrawn. -/
def Workspace.Remembers (before after : Workspace) : Prop :=
  before.context.diagnostics <+: after.context.diagnostics

namespace Workspace.Remembers

theorem of_same {before after : Workspace}
    (same : after.context.diagnostics = before.context.diagnostics) : before.Remembers after := by
  unfold Remembers
  exact same ▸ List.prefix_rfl

theorem refl (workspace : Workspace) : Remembers workspace workspace :=
  of_same rfl

theorem trans {first second third : Workspace} (before : Remembers first second)
    (after : Remembers second third) : Remembers first third :=
  List.IsPrefix.trans before after

theorem leave (traces : Traces) (workspace : Workspace) :
    Remembers workspace (workspace.leave traces) :=
  List.prefix_append _ _

theorem reportAll (failures : List Failure) (workspace : Workspace) :
    Remembers workspace (workspace.reportAll failures) := by
  rw [reportAll_eq_leave]
  exact leave _ workspace

theorem record (failure : Failure) (line : Option Nat) (workspace : Workspace) :
    Remembers workspace (workspace.record failure line) :=
  List.prefix_append _ _

end Workspace.Remembers

open Workspace (Remembers)

theorem VariablesStructure.init_remembers (body : Section) (defaults : VariablesStructure)
    (workspace : Workspace) : Remembers workspace (defaults.init body workspace).2 := by
  unfold init
  generalize (body.convertToEntries 0 "=").nodes = nodes
  induction nodes generalizing defaults workspace with
  | nil => exact .refl workspace
  | cons node others ih =>
    rw [List.foldl_cons]
    have first : Remembers workspace (initNode (defaults, workspace) node).2 := by
      unfold initNode
      dsimp only
      split
      · exact .record _ _ workspace
      · exact .refl workspace
    exact first.trans (ih _ _)

namespace EventStructure

theorem buffer_remembers (info : EventInfo) (filter : EventFilter) (body : Section)
    (event : EventStructure) (workspace : Workspace) :
    Remembers workspace (buffer info filter body event workspace).2 := by
  unfold buffer
  rw [Workspace.reading_readBody]
  cases (Item.readBody (workspace.scopeFor (bodyEvent info)) body).1 with
  | error failure => exact .leave _ workspace
  | ok items =>
    dsimp only
    split <;> exact .leave _ workspace

theorem init_remembers (header : MatchResult) (body : Section) (event : EventStructure)
    (workspace : Workspace) : Remembers workspace (event.init header body workspace).2.2 := by
  have started (info : EventInfo) (filter : EventFilter) (header : MatchResult)
      (event : EventStructure) (workspace : Workspace) :
      Remembers workspace (start info filter header body event workspace).2.2 := by
    unfold start
    generalize filter.start header = taken
    obtain ⟨taken, filter, notes⟩ := taken
    dsimp only
    split
    · split
      · exact buffer_remembers info filter body _ (workspace.inHost (·.note notes))
      · exact .refl workspace
    · exact .refl workspace
  unfold init
  dsimp only
  split
  · exact .refl workspace
  · split
    · exact .refl workspace
    · unfold initWith
      split
      · exact .refl workspace
      · dsimp only
        split
        · exact .refl workspace
        · refine Remembers.trans ?_ (started _ _ _ _ _)
          exact .refl workspace

end EventStructure

theorem FunctionStructure.load_remembers (function : FunctionStructure) (workspace : Workspace) :
    Remembers workspace (function.load workspace).2 := by
  unfold load
  split
  · exact .refl workspace
  · split
    · exact .refl workspace
    · unfold loadBody
      rw [Workspace.reading_readBody]
      split
      · next same =>
        obtain ⟨_, rfl⟩ := Prod.mk.inj same
        exact .leave _ workspace
      · next same =>
        obtain ⟨_, rfl⟩ := Prod.mk.inj same
        split <;> exact .leave _ workspace

theorem CommandStructure.load_remembers (thread : Thread) (command : CommandStructure)
    (workspace : Workspace) : Remembers workspace (command.load thread workspace).2 := by
  have submitted (loaded : Command) (workspace : Workspace) :
      Remembers workspace (submit thread loaded command.ticket workspace).2 := by
    unfold submit
    dsimp only
    split <;> exact .refl workspace
  unfold load
  split
  · exact .refl workspace
  · next body _ =>
    unfold loadBody
    rw [Workspace.reading_readCommand]
    cases (workspace.commandFor bodyEvent command.header body).1 with
    | error failure => exact .leave _ workspace
    | ok loaded =>
      dsimp only
      split
      · exact .leave _ workspace
      · refine Remembers.trans ?_ (submitted loaded _)
        exact .leave _ workspace

theorem CustomStructure.respond_remembers (phase : Phase) (custom : CustomStructure)
    (workspace : Workspace) : Remembers workspace (custom.respond phase workspace).2 :=
  Remembers.reportAll _ (workspace.inHost _)

namespace Structure

theorem init_remembers (inner : Structure) (header : MatchResult) (body : Section)
    (workspace : Workspace) : Remembers workspace (inner.init header body workspace).2.2 := by
  cases inner with
  | options inner => exact .reportAll _ workspace
  | function inner =>
    dsimp only [init]
    split <;> exact .refl workspace
  | aliases =>
    refine Remembers.trans ?_ (.reportAll _ _)
    exact .refl workspace
  | defaults inner => exact inner.init_remembers body workspace
  | command inner =>
    dsimp only [init]
    split <;> exact .refl workspace
  | event inner => exact inner.init_remembers header body workspace
  | custom inner => exact CustomStructure.respond_remembers .init _ workspace

theorem preload_remembers (inner : Structure) (workspace : Workspace) :
    Remembers workspace (inner.preload workspace).2.2 := by
  cases inner with
  | function inner =>
    dsimp only [preload]
    rcases inner.preload_cases workspace with ⟨_, same⟩ | ⟨_, _, _, same⟩
    all_goals
      rw [same]
      exact .refl workspace
  | custom inner => exact inner.respond_remembers .preload workspace
  | _ => exact .refl workspace

theorem load_remembers (thread : Thread) (inner : Structure) (workspace : Workspace) :
    Remembers workspace (inner.load thread workspace).2.2 := by
  cases inner with
  | function inner => exact inner.load_remembers workspace
  | command inner =>
    have remembers := inner.load_remembers thread workspace
    dsimp only [load]
    generalize inner.load thread workspace = result at *
    obtain ⟨outcome, after⟩ := result
    cases outcome <;> exact remembers
  | custom inner => exact inner.respond_remembers .load workspace
  | _ => exact .refl workspace

theorem afterLoad_remembers (inner : Structure) (workspace : Workspace) :
    Remembers workspace (inner.afterLoad workspace).2.2 := by
  cases inner with
  | custom inner => exact inner.respond_remembers .afterLoad workspace
  | _ => exact .refl workspace

end Structure

namespace Loading

/-- No part of a load withdraws a diagnostic. -/
theorem remembers_carried (thread : Thread) : Carried Remembers thread where
  refl := .refl
  trans := .trans
  takeTicket := .refl
  takeInHand := fun _ _ => .refl
  noteCall := fun _ => .refl
  updateInfo := fun _ => .refl
  record := .record
  init := Structure.init_remembers
  preload := Structure.preload_remembers
  load := Structure.load_remembers thread
  afterLoad := Structure.afterLoad_remembers

/-- A phase that does not succeed leaves a diagnostic. -/
theorem conclude_reports (phase : Phase) (loaded : LoadedStructure)
    (result : Outcome Unit × Structure × Workspace) (failed : result.1 ≠ .done ()) :
    result.2.2.context.diagnostics.length <
      (conclude phase loaded result).2.2.context.diagnostics.length := by
  obtain ⟨outcome, inner, after⟩ := result
  unfold conclude
  dsimp only
  split
  · next guarded =>
    cases outcome with
    | done value => exact absurd rfl failed
    | failed failure => cases guarded
    | crashed message => cases guarded
  · unfold Workspace.reportAt Workspace.record
    dsimp only [Context.record]
    rw [List.length_append]
    exact Nat.lt_succ_self _

end Loading

end ScriptBinding
