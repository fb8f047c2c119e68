import ScriptBinding.Proofs.Traces

/-! # What a phase cannot touch

Subscriptions, commands and what is kept under tickets change only through jobs, and which script is
current and which calls have been made is the business of the loader. A phase that submits no job
leaves all of that as it is, whatever the structure does and however the phase goes.
-/

namespace ScriptBinding

/-- What belongs to the main thread or to the loader is the same. -/
structure Workspace.Untouched (before after : Workspace) : Prop where
  config : after.host.config = before.host.config
  classes : after.host.classes = before.host.classes
  bus : after.host.bus = before.host.bus
  commands : after.host.commands = before.host.commands
  queue : after.host.queue = before.host.queue
  bound : after.host.bound = before.host.bound
  registrations : after.host.registrations = before.host.registrations
  nextTicket : after.host.nextTicket = before.host.nextTicket
  script : after.context.script = before.context.script
  calls : after.context.calls = before.context.calls

namespace Workspace.Untouched

theorem refl (workspace : Workspace) : Untouched workspace workspace := by
  constructor <;> rfl

theorem trans {first second third : Workspace} (before : Untouched first second)
    (after : Untouched second third) : Untouched first third where
  config := after.config.trans before.config
  classes := after.classes.trans before.classes
  bus := after.bus.trans before.bus
  commands := after.commands.trans before.commands
  queue := after.queue.trans before.queue
  bound := after.bound.trans before.bound
  registrations := after.registrations.trans before.registrations
  nextTicket := after.nextTicket.trans before.nextTicket
  script := after.script.trans before.script
  calls := after.calls.trans before.calls

end Workspace.Untouched

/-- What belongs to the main thread or to the loader is the same, and so are the declared functions
and the triggers that wait. -/
structure Workspace.Still (before after : Workspace) : Prop where
  untouched : before.Untouched after
  functions : after.host.functions = before.host.functions
  drafts : after.context.drafts = before.context.drafts

namespace Workspace.Still

theorem refl (workspace : Workspace) : Still workspace workspace :=
  ⟨.refl workspace, rfl, rfl⟩

theorem trans {first second third : Workspace} (before : Still first second)
    (after : Still second third) : Still first third :=
  ⟨before.untouched.trans after.untouched, after.functions.trans before.functions,
    after.drafts.trans before.drafts⟩

theorem leave (traces : Traces) (workspace : Workspace) :
    Still workspace (workspace.leave traces) := by
  refine ⟨?_, rfl, rfl⟩
  constructor <;> rfl

theorem reportAll (failures : List Failure) (workspace : Workspace) :
    Still workspace (workspace.reportAll failures) := by
  rw [reportAll_eq_leave]
  exact leave _ workspace

theorem report (failure : Failure) (workspace : Workspace) :
    Still workspace (workspace.report failure) := by
  rw [report_eq_leave]
  exact leave _ workspace

theorem reportAt (line : Nat) (failure : Failure) (workspace : Workspace) :
    Still workspace (workspace.reportAt line failure) := by
  unfold Workspace.reportAt
  rw [record_eq_leave]
  exact leave _ workspace

theorem note (texts : List String) (workspace : Workspace) :
    Still workspace (workspace.inHost (·.note texts)) := by
  refine ⟨?_, rfl, rfl⟩
  constructor <;> rfl

end Workspace.Still

open Workspace (Untouched Still)

/-- Letting a trigger wait touches nothing else. -/
theorem Workspace.Untouched.addDraft (draft : TriggerDraft) (workspace : Workspace) :
    Untouched workspace (workspace.inContext (·.addDraft draft)) := by
  constructor <;> rfl

/-! ## Structures that are built in -/

theorem AliasesStructure.init_still (body : Section) (workspace : Workspace) :
    Still workspace (AliasesStructure.init body workspace) := by
  unfold AliasesStructure.init
  dsimp only
  have loaded : Still workspace { workspace with
      context := (workspace.context.loadAliases (body.convertToEntries 0 "=").nodes).1 } := by
    refine ⟨?_, rfl, rfl⟩
    constructor <;> rfl
  exact loaded.trans (.reportAll _ _)

theorem OptionsStructure.apply_still (options : OptionsStructure) (workspace : Workspace) :
    Still workspace (options.apply workspace) := by
  refine ⟨?_, rfl, rfl⟩
  constructor <;> rfl

namespace VariablesStructure

theorem initNode_still (state : VariablesStructure × Workspace) (node : Node) :
    Still state.2 (initNode state node).2 := by
  obtain ⟨defaults, workspace⟩ := state
  unfold initNode
  dsimp only
  split
  · next failure _ => exact .report failure workspace
  · refine ⟨?_, rfl, rfl⟩
    constructor <;> rfl

theorem init_still (body : Section) (defaults : VariablesStructure) (workspace : Workspace) :
    Still workspace (defaults.init body workspace).2 := by
  unfold init
  generalize (body.convertToEntries 0 "=").nodes = nodes
  induction nodes generalizing defaults workspace with
  | nil => exact .refl workspace
  | cons node others ih =>
    rw [List.foldl_cons]
    exact (initNode_still (defaults, workspace) node).trans (ih _ _)

end VariablesStructure

namespace EventStructure

/-- What taking a header does for an event: nothing that lasts, or a trigger waits from now on. The
filter that has taken the header is one of those that are possible. -/
inductive Takes (Possible : EventFilter → Prop) (event : EventStructure) (body : Section)
    (workspace : Workspace) : Except Failure Bool × EventStructure × Workspace → Prop
  /-- Nothing waits; if the header is taken all the same, the filter does not load bodies. -/
  | nothing (result : Except Failure Bool) (taken : EventStructure) (after : Workspace)
      (still : Still workspace after) (sameTicket : taken.ticket = event.ticket)
      (idle : result = .ok true → ∃ filter, Possible filter ∧ filter.loads = false) :
      Takes Possible event body workspace (result, taken, after)
  /-- A trigger waits, for the event in hand. -/
  | waits (info : EventInfo) (filter : EventFilter) (items : List Item)
      (priority : Option EventPriority) (taken : EventStructure) (after : Workspace)
      (still : Still (workspace.inContext
        (·.addDraft ⟨event.ticket, info, filter, body.line, items, priority⟩)) after)
      (sameTicket : taken.ticket = event.ticket) (sameFilter : taken.filter = some filter)
      (samePriority : taken.priority = priority)
      (inHand : ((workspace.context.sectionInHand.getD {}).info.bind (·.event)) = some info)
      (possible : Possible filter) :
      Takes Possible event body workspace (.ok true, taken, after)

variable {Possible : EventFilter → Prop}

theorem buffer_still (info : EventInfo) (filter : EventFilter) (body : Section)
    (event : EventStructure) (workspace : Workspace) :
    (∃ failure, (buffer info filter body event workspace).1 = .error failure ∧
        Still workspace (buffer info filter body event workspace).2) ∨
      ∃ items, (buffer info filter body event workspace).1 = .ok true ∧
        Still (workspace.inContext
            (·.addDraft ⟨event.ticket, info, filter, body.line, items, event.priority⟩))
          (buffer info filter body event workspace).2 := by
  unfold buffer
  rw [Workspace.reading_readBody]
  cases (Item.readBody (workspace.scopeFor (bodyEvent info)) body).1 with
  | error failure => exact Or.inl ⟨failure, rfl, .leave _ workspace⟩
  | ok items =>
    refine Or.inr ⟨items, ?_⟩
    dsimp only
    split
    all_goals
      refine ⟨rfl, ?_, rfl, rfl⟩
      constructor <;> rfl

theorem start_takes (info : EventInfo) (filter : EventFilter) (header : MatchResult)
    (body : Section) (event : EventStructure) (workspace : Workspace)
    (inHand : ((workspace.context.sectionInHand.getD {}).info.bind (·.event)) = some info)
    (possible : Possible (filter.start header).2.1) :
    Takes Possible event body workspace (start info filter header body event workspace) := by
  unfold start
  generalize filter.start header = started at *
  obtain ⟨taken, filter, notes⟩ := started
  dsimp only at possible ⊢
  split
  · split
    · rcases buffer_still info filter body { event with filter := some filter }
          (workspace.inHost (·.note notes)) with ⟨failure, same, still⟩ | ⟨items, same, still⟩
      · rw [same]
        exact .nothing _ _ _ ((Still.note notes workspace).trans still) rfl nofun
      · rw [same]
        refine .waits info filter items event.priority _ _ ?_ rfl rfl rfl inHand possible
        refine Still.trans ?_ still
        refine ⟨?_, rfl, rfl⟩
        constructor <;> rfl
    · next idle =>
      exact .nothing _ _ _ (.note notes workspace) rfl
        fun _ => ⟨filter, possible, by simpa using idle⟩
  · exact .nothing _ _ _ (.note notes workspace) rfl nofun

theorem Takes.of_still {event : EventStructure} {body : Section} {workspace other : Workspace}
    {result : Except Failure Bool × EventStructure × Workspace} (still : Still workspace other)
    (sameHand : other.context.sectionInHand.getD {} = workspace.context.sectionInHand.getD {})
    (takes : Takes Possible event body other result) :
    Takes Possible event body workspace result := by
  cases takes with
  | nothing result taken after later sameTicket idle =>
    exact .nothing result taken after (still.trans later) sameTicket idle
  | waits info filter items priority taken after later sameTicket sameFilter samePriority inHand
      possible =>
    rw [sameHand] at inHand
    refine .waits info filter items priority taken after ?_ sameTicket sameFilter samePriority
      inHand possible
    refine Still.trans ?_ later
    have drafts : other.context.currentDrafts = workspace.context.currentDrafts := by
      rw [Context.currentDrafts, Context.currentDrafts, still.drafts]
    refine ⟨?_, still.functions, ?_⟩
    · exact ⟨still.untouched.config, still.untouched.classes, still.untouched.bus,
        still.untouched.commands, still.untouched.queue, still.untouched.bound,
        still.untouched.registrations, still.untouched.nextTicket, still.untouched.script,
        still.untouched.calls⟩
    · simp only [Workspace.inContext, Context.addDraft, drafts]

theorem Takes.of_event {event other : EventStructure} {body : Section} {workspace : Workspace}
    {result : Except Failure Bool × EventStructure × Workspace} (same : other.ticket = event.ticket)
    (takes : Takes Possible other body workspace result) :
    Takes Possible event body workspace result := by
  cases takes with
  | nothing result taken after still sameTicket idle =>
    exact .nothing result taken after still (sameTicket.trans same) idle
  | waits info filter items priority taken after still sameTicket sameFilter samePriority inHand
      possible =>
    rw [same] at still
    exact .waits info filter items priority taken after still (sameTicket.trans same) sameFilter
      samePriority inHand possible

theorem initWith_takes (info : EventInfo) (header : MatchResult) (body : Section)
    (event : EventStructure) (workspace : Workspace)
    (inHand : ((workspace.context.sectionInHand.getD {}).info.bind (·.event)) = some info)
    (possible : ∀ filter ∈ event.unused, ∀ header, Possible (filter.start header).2.1) :
    Takes Possible event body workspace (initWith info header body event workspace) := by
  unfold initWith
  split
  · exact .nothing _ _ _ (.refl workspace) rfl nofun
  · next filter isUnused =>
    dsimp only
    split
    · exact .nothing _ _ _ (.refl workspace) rfl nofun
    · refine Takes.of_event ?_
        (start_takes info filter _ body _ workspace inHand (possible filter isUnused _))
      rfl

theorem init_takes (header : MatchResult) (body : Section) (event : EventStructure)
    (workspace : Workspace)
    (possible : ∀ filter ∈ event.unused, ∀ header, Possible (filter.start header).2.1) :
    Takes Possible event body workspace (event.init header body workspace) := by
  have inHand : Still workspace (workspace.inContext
      ({ · with sectionInHand := some (workspace.context.sectionInHand.getD {}) })) := by
    refine ⟨?_, rfl, rfl⟩
    constructor <;> rfl
  unfold init
  dsimp only
  split
  · exact .nothing _ _ _ inHand rfl nofun
  · next descriptor isDescriptor =>
    split
    · exact .nothing _ _ _ inHand rfl nofun
    · next info isInfo =>
      refine Takes.of_still inHand rfl (initWith_takes info header body event _ ?_ possible)
      change (workspace.context.sectionInHand.getD {}).info.bind (·.event) = some info
      rw [isDescriptor, Option.bind_some, isInfo]

end EventStructure

namespace FunctionStructure

theorem preload_untouched (function : FunctionStructure) (workspace : Workspace) :
    Untouched workspace (function.preload workspace).2 ∧
      (function.preload workspace).2.context.drafts = workspace.context.drafts := by
  unfold preload
  split
  · exact ⟨.refl workspace, rfl⟩
  · dsimp only
    split
    · exact ⟨.refl workspace, rfl⟩
    · split
      · exact ⟨.refl workspace, rfl⟩
      · refine ⟨?_, rfl⟩
        constructor <;> rfl

theorem loadBody_untouched (signature : Signature) (body : Section) (workspace : Workspace) :
    Untouched workspace (loadBody signature body workspace).2 ∧
      (loadBody signature body workspace).2.context.drafts = workspace.context.drafts := by
  unfold loadBody
  rw [Workspace.reading_readBody]
  cases (Item.readBody (workspace.scopeFor bodyEvent) body).1 with
  | error failure => exact ⟨(Still.leave _ workspace).untouched, rfl⟩
  | ok items =>
    dsimp only
    split
    · exact ⟨(Still.leave _ workspace).untouched, rfl⟩
    · refine ⟨?_, rfl⟩
      constructor <;> rfl

theorem load_untouched (function : FunctionStructure) (workspace : Workspace) :
    Untouched workspace (function.load workspace).2 ∧
      (function.load workspace).2.context.drafts = workspace.context.drafts := by
  unfold load
  split
  · exact ⟨.refl workspace, rfl⟩
  · split
    · exact ⟨.refl workspace, rfl⟩
    · next body _ _ signature _ => exact loadBody_untouched signature body workspace

theorem unload_untouched (function : FunctionStructure) (workspace : Workspace) :
    Untouched workspace (function.unload workspace).2 ∧
      (function.unload workspace).2.context.drafts = workspace.context.drafts := by
  unfold unload
  split
  · exact ⟨.refl workspace, rfl⟩
  · refine ⟨?_, rfl⟩
    constructor <;> rfl

end FunctionStructure

/-! ## Structures from outside -/

theorem CustomStructure.respond_still (phase : Phase) (custom : CustomStructure)
    (workspace : Workspace) : Still workspace (custom.respond phase workspace).2 :=
  (Still.note _ workspace).trans (.reportAll _ _)

/-! ## All structures -/

namespace Structure

/-- Taking a header leaves everything still, unless it makes a trigger wait. -/
theorem init_still (header : MatchResult) (body : Section) (workspace : Workspace)
    (inner : Structure) (noEvent : ∀ event, inner ≠ .event event) :
    Still workspace (inner.init header body workspace).2.2 := by
  cases inner with
  | options inner => exact .reportAll _ workspace
  | function inner =>
    dsimp only [init]
    split <;> exact .refl workspace
  | aliases => exact AliasesStructure.init_still body workspace
  | defaults inner => exact inner.init_still body workspace
  | command inner =>
    dsimp only [init]
    split <;> exact .refl workspace
  | event inner => exact absurd rfl (noEvent inner)
  | custom inner => exact CustomStructure.respond_still .init _ workspace

theorem init_untouched (header : MatchResult) (body : Section) (workspace : Workspace)
    (inner : Structure) : Untouched workspace (inner.init header body workspace).2.2 := by
  by_cases isEvent : ∃ event, inner = .event event
  · obtain ⟨event, rfl⟩ := isEvent
    have takes : EventStructure.Takes (fun _ => True) event body workspace _ :=
      event.init_takes header body workspace fun _ _ _ => trivial
    dsimp only [init]
    generalize event.init header body workspace = taken at *
    cases takes with
    | nothing _ _ _ still _ _ => exact still.untouched
    | waits _ _ _ _ _ _ still => exact (Untouched.addDraft _ workspace).trans still.untouched
  · exact (init_still header body workspace inner
      fun event same => isEvent ⟨event, same⟩).untouched

theorem preload_untouched (workspace : Workspace) (inner : Structure) :
    Untouched workspace (inner.preload workspace).2.2 ∧
      (inner.preload workspace).2.2.context.drafts = workspace.context.drafts := by
  have still {after : Workspace} (still : Still workspace after) :
      Untouched workspace after ∧ after.context.drafts = workspace.context.drafts :=
    ⟨still.untouched, still.drafts⟩
  cases inner with
  | options inner => exact still (inner.apply_still workspace)
  | function inner =>
    have untouched := inner.preload_untouched workspace
    dsimp only [preload]
    cases left : inner.preload workspace with
    | mk result after =>
      rw [left] at untouched
      cases result <;> exact untouched
  | custom inner => exact still (inner.respond_still .preload workspace)
  | aliases => exact still (.refl workspace)
  | defaults inner => exact still (.refl workspace)
  | command inner => exact still (.refl workspace)
  | event inner => exact still (.refl workspace)

theorem afterLoad_still (workspace : Workspace) (inner : Structure) :
    Still workspace (inner.afterLoad workspace).2.2 := by
  cases inner with
  | custom inner => exact inner.respond_still .afterLoad workspace
  | options inner => exact .refl workspace
  | function inner => exact .refl workspace
  | aliases => exact .refl workspace
  | defaults inner => exact .refl workspace
  | command inner => exact .refl workspace
  | event inner => exact .refl workspace

end Structure

/-! ## Phases with jobs -/

namespace CommandStructure

/-- Handing a command over leaves the current script, the calls and the waiting triggers alone. -/
theorem submit_context (thread : Thread) (command : Command) (ticket : Nat)
    (workspace : Workspace) :
    (submit thread command ticket workspace).2.context.script = workspace.context.script ∧
      (submit thread command ticket workspace).2.context.calls = workspace.context.calls ∧
      (submit thread command ticket workspace).2.context.drafts = workspace.context.drafts := by
  unfold submit
  dsimp only
  split <;> exact ⟨rfl, rfl, rfl⟩

theorem loadBody_context (thread : Thread) (body : Section) (command : CommandStructure)
    (workspace : Workspace) :
    (loadBody thread body command workspace).2.context.script = workspace.context.script ∧
      (loadBody thread body command workspace).2.context.calls = workspace.context.calls ∧
      (loadBody thread body command workspace).2.context.drafts = workspace.context.drafts := by
  unfold loadBody
  rw [Workspace.reading_readCommand]
  cases (workspace.commandFor bodyEvent command.header body).1 with
  | error failure => exact ⟨rfl, rfl, rfl⟩
  | ok loaded =>
    dsimp only
    split
    · exact ⟨rfl, rfl, rfl⟩
    · exact submit_context thread loaded command.ticket _

theorem load_context (thread : Thread) (command : CommandStructure) (workspace : Workspace) :
    (command.load thread workspace).2.context.script = workspace.context.script ∧
      (command.load thread workspace).2.context.calls = workspace.context.calls ∧
      (command.load thread workspace).2.context.drafts = workspace.context.drafts := by
  unfold load
  split
  · exact ⟨rfl, rfl, rfl⟩
  · exact loadBody_context thread _ command workspace

end CommandStructure

namespace Structure

/-- Loading leaves the current script, the calls and the waiting triggers alone, whatever job it
submits. -/
theorem load_context (thread : Thread) (workspace : Workspace) (inner : Structure) :
    (inner.load thread workspace).2.2.context.script = workspace.context.script ∧
      (inner.load thread workspace).2.2.context.calls = workspace.context.calls ∧
      (inner.load thread workspace).2.2.context.drafts = workspace.context.drafts := by
  cases inner with
  | options inner => exact ⟨rfl, rfl, rfl⟩
  | function inner =>
    obtain ⟨untouched, drafts⟩ := inner.load_untouched workspace
    exact ⟨untouched.script, untouched.calls, drafts⟩
  | command inner =>
    have same := inner.load_context thread workspace
    dsimp only [load]
    cases left : inner.load thread workspace with
    | mk result after =>
      rw [left] at same
      cases result <;> exact same
  | custom inner =>
    have still := inner.respond_still .load workspace
    exact ⟨still.untouched.script, still.untouched.calls, still.drafts⟩
  | aliases => exact ⟨rfl, rfl, rfl⟩
  | defaults inner => exact ⟨rfl, rfl, rfl⟩
  | event inner => exact ⟨rfl, rfl, rfl⟩

end Structure

end ScriptBinding
