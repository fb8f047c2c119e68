import ScriptBinding.Proofs.FailedCalls
import ScriptBinding.Proofs.Headers

/-! # Two parsers abreast

The same script is read in two workspaces: in one of them the jobs for the main thread are done
directly, in the other they are deferred. What structures look at is the same in both, apart from
the commands that the script has declared: a command that the host refuses directly counts for the
deferred run until it is settled. All that structures do, other than declaring commands, keeps both
runs abreast.
-/

namespace ScriptBinding

/-- What structures look at is the same, other than the commands of the script. The direct run has
recorded some more failures. -/
structure Workspace.Alike (gap : Nat) (direct deferred : Workspace) : Prop where
  classes : deferred.host.classes = direct.host.classes
  functions : deferred.host.functions = direct.host.functions
  store : deferred.host.store = direct.host.store
  nextTicket : deferred.host.nextTicket = direct.host.nextTicket
  script : deferred.context.script = direct.context.script
  inHand : deferred.context.sectionInHand = direct.context.sectionInHand
  options : deferred.context.options = direct.context.options
  aliases : deferred.context.aliases = direct.context.aliases
  drafts : deferred.context.drafts = direct.context.drafts
  events : deferred.context.events = direct.context.events
  structureCount : deferred.context.info.structures = direct.context.info.structures
  triggerCount : deferred.context.info.triggers = direct.context.info.triggers
  functionCount : deferred.context.info.functions = direct.context.info.functions
  recorded : direct.context.diagnostics.length = deferred.context.diagnostics.length + gap

/-- The commands that the script has declared are those that it counts. The deferred run has all
those of the direct run, in the same order, and those that the host has refused. -/
structure Context.Tallies (refused : List String) (direct deferred : Context) : Prop where
  directNames : direct.currentCommands = direct.info.commandNames
  deferredNames : deferred.currentCommands = deferred.info.commandNames
  distinct : deferred.info.commandNames.Nodup
  among : ∀ name ∈ refused, name ∈ deferred.info.commandNames
  accepted : direct.info.commandNames = deferred.info.commandNames.filter (· ∉ refused)
  count : deferred.info.commands = direct.info.commands + refused.length

/-- Both runs are reading the same script, and the direct one has taken note of the refusal of some
commands that the deferred one counts. -/
structure Workspace.Abreast (gap : Nat) (refused : List String) (direct deferred : Workspace) :
    Prop extends Workspace.Alike gap direct deferred,
      Context.Tallies refused direct.context deferred.context

variable {gap : Nat} {refused : List String}

namespace Workspace

/-- Both runs come to the same result, which is as it should be, and stay abreast. -/
inductive Results (gap : Nat) (refused : List String) {α : Type} (Good : α → Prop) :
    α × Workspace → α × Workspace → Prop
  | same (result : α) {direct deferred : Workspace} (good : Good result)
      (abreast : Abreast gap refused direct deferred) :
      Results gap refused Good (result, direct) (result, deferred)

/-- In both runs a structure goes through a phase with the same outcome and becomes the same, which
is as it should be, and they stay abreast. -/
inductive Phases (gap : Nat) (refused : List String) {α β : Type} (Good : β → Prop) :
    α × β × Workspace → α × β × Workspace → Prop
  | same (outcome : α) (inner : β) {direct deferred : Workspace} (good : Good inner)
      (abreast : Abreast gap refused direct deferred) :
      Phases gap refused Good (outcome, inner, direct) (outcome, inner, deferred)

namespace Abreast

variable {direct deferred : Workspace}

theorem bodyScope (abreast : Abreast gap refused direct deferred) :
    deferred.bodyScope = direct.bodyScope := by
  simp only [Workspace.bodyScope, Context.currentOptions, Context.isReading,
    Context.currentEvent?, abreast.options, abreast.functions, abreast.events]

theorem pushEvent (abreast : Abreast gap refused direct deferred) (event : CurrentEvent) :
    Abreast gap refused (direct.inContext (·.pushEvent event))
      (deferred.inContext (·.pushEvent event)) :=
  { abreast with events := congrArg (event :: ·) abreast.events }

theorem scopeFor (abreast : Abreast gap refused direct deferred) (event : CurrentEvent) :
    deferred.scopeFor event = direct.scopeFor event :=
  (abreast.pushEvent event).bodyScope

theorem commandFor (abreast : Abreast gap refused direct deferred) (event : CurrentEvent)
    (header : String) (body : Section) :
    deferred.commandFor event header body = direct.commandFor event header body := by
  unfold Workspace.commandFor
  rw [abreast.script, abreast.classes, abreast.scopeFor]

theorem leave (abreast : Abreast gap refused direct deferred) (traces : Traces) :
    Abreast gap refused (direct.leave traces) (deferred.leave traces) :=
  { abreast with
    recorded := by
      simp only [Workspace.leave, List.length_append, abreast.recorded]
      omega }

theorem reportAll (abreast : Abreast gap refused direct deferred) (failures : List Failure) :
    Abreast gap refused (direct.reportAll failures) (deferred.reportAll failures) := by
  rw [reportAll_eq_leave, reportAll_eq_leave, abreast.script]
  exact abreast.leave _

/-- Both runs record a failure, which need not be the same. -/
theorem record (abreast : Abreast gap refused direct deferred) (failure other : Failure)
    (line otherLine : Option Nat) :
    Abreast gap refused (direct.record failure line) (deferred.record other otherLine) :=
  { abreast with
    recorded := by
      simp only [Workspace.record, Context.record, List.length_append, List.length_singleton,
        abreast.recorded]
      omega }

/-- Only the direct run records a failure. -/
theorem record_direct (abreast : Abreast gap refused direct deferred) (failure : Failure)
    (line : Option Nat) : Abreast (gap + 1) refused (direct.record failure line) deferred :=
  { abreast with
    recorded := by
      simp only [Workspace.record, Context.record, List.length_append, List.length_singleton,
        abreast.recorded]
      omega }

theorem note (abreast : Abreast gap refused direct deferred) (texts : List String) :
    Abreast gap refused (direct.inHost (·.note texts)) (deferred.inHost (·.note texts)) :=
  { abreast with }

theorem noteCall (abreast : Abreast gap refused direct deferred) (call other : PhaseCall) :
    Abreast gap refused (direct.inContext (·.noteCall call))
      (deferred.inContext (·.noteCall other)) :=
  { abreast with }

theorem takeInHand (abreast : Abreast gap refused direct deferred) (body : Option Section)
    (info : Option StructureInfo) :
    Abreast gap refused (direct.inContext (·.takeInHand body info))
      (deferred.inContext (·.takeInHand body info)) :=
  { abreast with inHand := rfl }

theorem reading_readBody (abreast : Abreast gap refused direct deferred) (event : CurrentEvent)
    (body : Section) :
    Results gap refused (fun _ => True) (direct.reading event (·.readBody body))
      (deferred.reading event (·.readBody body)) := by
  rw [Workspace.reading_readBody, Workspace.reading_readBody, abreast.scopeFor, abreast.script]
  exact .same _ trivial (abreast.leave _)

end Abreast

end Workspace

open Workspace (Abreast Results Phases)

variable {direct deferred : Workspace}

/-! ## Structures that are built in -/

theorem OptionsStructure.apply_abreast (abreast : Abreast gap refused direct deferred)
    (options : OptionsStructure) :
    Abreast gap refused (options.apply direct) (options.apply deferred) :=
  { abreast with
    options := by
      simp only [OptionsStructure.apply, Workspace.inContext, Context.putOptions,
        Context.currentOptions, abreast.options] }

theorem AliasesStructure.init_abreast (abreast : Abreast gap refused direct deferred)
    (body : Section) :
    Abreast gap refused (AliasesStructure.init body direct)
      (AliasesStructure.init body deferred) := by
  have same : deferred.context.currentAliases = direct.context.currentAliases := by
    rw [Context.currentAliases, abreast.aliases, Context.currentAliases]
  unfold AliasesStructure.init Context.loadAliases
  dsimp only
  rw [same]
  refine Abreast.reportAll ?_ _
  exact { abreast with aliases := rfl }

namespace VariablesStructure

theorem initNode_abreast (abreast : Abreast gap refused direct deferred)
    (defaults : VariablesStructure) (node : Node) :
    Results gap refused (fun _ => True) (initNode (defaults, direct) node)
      (initNode (defaults, deferred) node) := by
  unfold initNode
  dsimp only
  rw [abreast.classes, abreast.store]
  cases seedNode direct.host.classes direct.host.store node with
  | error failure => exact .same _ trivial (abreast.record _ _ _ _)
  | ok seeded => exact .same _ trivial { abreast with store := rfl }

theorem init_abreast (abreast : Abreast gap refused direct deferred) (body : Section)
    (defaults : VariablesStructure) :
    Results gap refused (fun _ => True) (defaults.init body direct)
      (defaults.init body deferred) := by
  unfold init
  generalize (body.convertToEntries 0 "=").nodes = nodes
  induction nodes generalizing defaults direct deferred with
  | nil => exact .same _ trivial abreast
  | cons node others ih =>
    rw [List.foldl_cons, List.foldl_cons]
    have first := initNode_abreast abreast defaults node
    generalize initNode (defaults, direct) node = one,
      initNode (defaults, deferred) node = other at first ⊢
    cases first with
    | same defaults _ abreast => exact ih abreast defaults

end VariablesStructure

namespace EventStructure

theorem buffer_abreast (abreast : Abreast gap refused direct deferred) (info : EventInfo)
    (filter : EventFilter) (body : Section) (event : EventStructure) :
    Results gap refused (fun _ => True) (buffer info filter body event direct)
      (buffer info filter body event deferred) := by
  have reads := abreast.reading_readBody (bodyEvent info) body
  unfold buffer
  generalize direct.reading (bodyEvent info) (·.readBody body) = one,
    deferred.reading (bodyEvent info) (·.readBody body) = other at reads ⊢
  cases reads with
  | same result _ abreast =>
    cases result with
    | error failure => exact .same _ trivial abreast
    | ok items =>
      have waits (draft : TriggerDraft) {direct deferred : Workspace}
          (abreast : Abreast gap refused direct deferred) :
          Abreast gap refused
            (direct.inContext fun context => (context.addDraft draft).updateInfo
              fun info => { info with triggers := info.triggers + 1 })
            (deferred.inContext fun context => (context.addDraft draft).updateInfo
              fun info => { info with triggers := info.triggers + 1 }) :=
        { abreast with
          drafts := by
            simp only [Workspace.inContext, Context.addDraft, Context.updateInfo,
              Context.currentDrafts, abreast.drafts]
          triggerCount := congrArg (· + 1) abreast.triggerCount }
      dsimp only
      rw [(waits _ abreast).script]
      split
      · exact .same _ trivial ((waits _ abreast).note _)
      · exact .same _ trivial (waits _ abreast)

theorem start_abreast (abreast : Abreast gap refused direct deferred) (info : EventInfo)
    (filter : EventFilter) (header : MatchResult) (body : Section) (event : EventStructure) :
    Phases gap refused (fun _ => True) (start info filter header body event direct)
      (start info filter header body event deferred) := by
  unfold start
  generalize filter.start header = started
  obtain ⟨taken, filter, notes⟩ := started
  have noted := abreast.note notes
  have buffers := buffer_abreast noted info filter body { event with filter := some filter }
  dsimp only
  split
  · split
    · generalize buffer info filter body { event with filter := some filter }
          (direct.inHost (·.note notes)) = one,
        buffer info filter body { event with filter := some filter }
          (deferred.inHost (·.note notes)) = other at buffers ⊢
      cases buffers with
      | same result _ abreast => exact .same _ _ trivial abreast
    · exact .same _ _ trivial noted
  · exact .same _ _ trivial noted

theorem init_abreast (abreast : Abreast gap refused direct deferred) (header : MatchResult)
    (body : Section) (event : EventStructure) :
    Phases gap refused (fun _ => True) (event.init header body direct)
      (event.init header body deferred) := by
  have same : deferred.context.sectionInHand.getD {} = direct.context.sectionInHand.getD {} := by
    rw [abreast.inHand]
  have built : Abreast gap refused
      (direct.inContext
        ({ · with sectionInHand := some (direct.context.sectionInHand.getD {}) }))
      (deferred.inContext
        ({ · with sectionInHand := some (direct.context.sectionInHand.getD {}) })) :=
    { abreast with inHand := rfl }
  unfold init
  dsimp only
  rw [same]
  split
  · exact .same _ _ trivial built
  · split
    · exact .same _ _ trivial built
    · unfold initWith
      split
      · exact .same _ _ trivial built
      · dsimp only
        split
        · exact .same _ _ trivial built
        · exact start_abreast built _ _ _ _ _

end EventStructure

namespace FunctionStructure

theorem preload_abreast (abreast : Abreast gap refused direct deferred)
    (function : FunctionStructure) :
    Results gap refused (fun _ => True) (function.preload direct) (function.preload deferred) := by
  unfold preload
  rw [abreast.script, abreast.classes, abreast.functions]
  split
  · exact .same _ trivial abreast
  · dsimp only
    split
    · exact .same _ trivial abreast
    · split
      · exact .same _ trivial abreast
      · exact .same _ trivial { abreast with functions := rfl }

theorem load_abreast (abreast : Abreast gap refused direct deferred)
    (function : FunctionStructure) :
    Results gap refused (fun _ => True) (function.load direct) (function.load deferred) := by
  unfold load
  split
  · exact .same _ trivial abreast
  · next body _ =>
    split
    · exact .same _ trivial abreast
    · have reads := abreast.reading_readBody bodyEvent body
      unfold loadBody
      generalize direct.reading bodyEvent (·.readBody body) = one,
        deferred.reading bodyEvent (·.readBody body) = other at reads ⊢
      cases reads with
      | same result _ abreast =>
        cases result with
        | error failure => exact .same _ trivial abreast
        | ok items =>
          dsimp only
          rw [abreast.functions]
          split
          · exact .same _ trivial abreast
          · exact .same _ trivial
              { abreast with
                functions := rfl
                functionCount := congrArg (· + 1) abreast.functionCount }

end FunctionStructure

/-! ## All structures that are built in -/

namespace Structure

variable {inner : Structure}

theorem init_abreast (abreast : Abreast gap refused direct deferred) (header : MatchResult)
    (body : Section) (builtIn : inner.isBuiltIn = true) :
    Phases gap refused (·.isBuiltIn = true) (inner.init header body direct)
      (inner.init header body deferred) := by
  cases inner with
  | options inner => exact .same _ _ rfl (abreast.reportAll _)
  | aliases => exact .same _ _ rfl (AliasesStructure.init_abreast abreast body)
  | defaults inner =>
    have seeds := VariablesStructure.init_abreast abreast body inner
    dsimp only [init]
    generalize inner.init body direct = one, inner.init body deferred = other at seeds ⊢
    cases seeds with
    | same result _ abreast => exact .same _ _ rfl abreast
  | function inner =>
    dsimp only [init]
    split <;> exact .same _ _ rfl abreast
  | command inner =>
    dsimp only [init]
    split <;> exact .same _ _ rfl abreast
  | event inner =>
    have takes := EventStructure.init_abreast abreast header body inner
    dsimp only [init]
    generalize inner.init header body direct = one, inner.init header body deferred = other
      at takes ⊢
    cases takes with
    | same outcome inner _ abreast => exact .same _ _ rfl abreast
  | custom inner => cases builtIn

theorem preload_abreast (abreast : Abreast gap refused direct deferred)
    (builtIn : inner.isBuiltIn = true) :
    Phases gap refused (·.isBuiltIn = true) (inner.preload direct) (inner.preload deferred) := by
  cases inner with
  | options inner => exact .same _ _ rfl (inner.apply_abreast abreast)
  | function inner =>
    have declares := FunctionStructure.preload_abreast abreast inner
    dsimp only [preload]
    generalize inner.preload direct = one, inner.preload deferred = other at declares ⊢
    cases declares with
    | same result _ abreast => cases result <;> exact .same _ _ rfl abreast
  | custom inner => cases builtIn
  | _ => exact .same _ _ rfl abreast

/-- Loading a structure, apart from a command, on different threads. -/
theorem load_abreast (abreast : Abreast gap refused direct deferred)
    (builtIn : inner.isBuiltIn = true) (noCommand : inner.command? = none) :
    Phases gap refused (·.isBuiltIn = true) (inner.load .main direct)
      (inner.load .worker deferred) := by
  cases inner with
  | options inner => exact .same _ _ rfl (inner.apply_abreast abreast)
  | function inner =>
    have loads := FunctionStructure.load_abreast abreast inner
    dsimp only [load]
    generalize inner.load direct = one, inner.load deferred = other at loads ⊢
    cases loads with
    | same result _ abreast => exact .same _ _ rfl abreast
  | command inner => cases noCommand
  | custom inner => cases builtIn
  | _ => exact .same _ _ rfl abreast

/-- A structure that is built in has nothing to mend. -/
theorem afterLoad_eq (workspace : Workspace) (builtIn : inner.isBuiltIn = true) :
    inner.afterLoad workspace = (.done (), inner, workspace) := by
  cases inner with
  | custom inner => cases builtIn
  | _ => rfl

end Structure

/-! ## Loading -/

namespace Loading

theorem takeHeader_abreast (abreast : Abreast gap refused direct deferred)
    (assignment : Assignment)
    (builtIn : ∀ ticket, (assignment.descriptor.create ticket).isBuiltIn = true) :
    Phases gap refused (·.isBuiltIn = true) (takeHeader assignment direct)
      (takeHeader assignment deferred) := by
  have inHand : Abreast gap refused (inHand assignment direct) (inHand assignment deferred) :=
    { abreast with nextTicket := congrArg (· + 1) abreast.nextTicket, inHand := rfl }
  have takes := Structure.init_abreast inHand assignment.header assignment.top.body
    (builtIn direct.host.nextTicket)
  rw [takeHeader_eq, takeHeader_eq, abreast.nextTicket]
  generalize (assignment.descriptor.create direct.host.nextTicket).init assignment.header
      assignment.top.body (Loading.inHand assignment direct) = one,
    (assignment.descriptor.create direct.host.nextTicket).init assignment.header
      assignment.top.body (Loading.inHand assignment deferred) = other at takes ⊢
  cases takes with
  | same _ _ builtIn abreast => exact .same _ _ builtIn (abreast.takeInHand none none)

theorem initialise_abreast (abreast : Abreast gap refused direct deferred)
    (assignment : Assignment)
    (builtIn : ∀ ticket, (assignment.descriptor.create ticket).isBuiltIn = true) :
    Results gap refused (fun result => ∀ loaded ∈ result, loaded.inner.isBuiltIn = true)
      (initialise assignment direct) (initialise assignment deferred) := by
  have takes := takeHeader_abreast abreast assignment builtIn
  have none : ∀ loaded ∈ (none : Option LoadedStructure), loaded.inner.isBuiltIn = true :=
    fun _ member => absurd member (Option.not_mem_none _)
  unfold initialise
  generalize takeHeader assignment direct = one, takeHeader assignment deferred = other at takes ⊢
  cases takes with
  | same outcome inner builtIn abreast =>
    dsimp only
    split
    · refine .same _ (fun loaded member => ?_) (abreast.noteCall _ _)
      rw [← Option.mem_some_iff.mp member]
      exact builtIn
    · exact .same _ none ((abreast.noteCall _ _).record _ _ _ _)
    · exact .same _ none ((abreast.noteCall _ _).record _ _ _ _)

theorem conclude_abreast {one other : Outcome Unit × Structure × Workspace} (phase : Phase)
    (loaded : LoadedStructure) (phases : Phases gap refused (·.isBuiltIn = true) one other) :
    Phases gap refused (·.inner.isBuiltIn = true) (conclude phase loaded one)
      (conclude phase loaded other) := by
  cases phases with
  | same outcome inner builtIn abreast =>
    unfold conclude
    dsimp only
    split
    · exact .same _ _ builtIn (abreast.noteCall _ _)
    · exact .same _ _ builtIn ((abreast.noteCall _ _).record _ _ _ _)

theorem preload_abreast (abreast : Abreast gap refused direct deferred)
    (loaded : LoadedStructure) (builtIn : loaded.inner.isBuiltIn = true) :
    Results gap refused (·.inner.isBuiltIn = true) (preload loaded direct)
      (preload loaded deferred) := by
  have phases := conclude_abreast .preload loaded (Structure.preload_abreast abreast builtIn)
  unfold preload
  generalize conclude .preload loaded (loaded.inner.preload direct) = one,
    conclude .preload loaded (loaded.inner.preload deferred) = other at phases ⊢
  cases phases with
  | same _ after builtIn abreast => exact .same _ builtIn abreast

theorem initialisePreloading_abreast (abreast : Abreast gap refused direct deferred)
    (assignment : Assignment)
    (builtIn : ∀ ticket, (assignment.descriptor.create ticket).isBuiltIn = true) :
    Results gap refused (fun result => ∀ loaded ∈ result, loaded.inner.isBuiltIn = true)
      (initialisePreloading assignment direct) (initialisePreloading assignment deferred) := by
  have takes := initialise_abreast abreast assignment builtIn
  unfold initialisePreloading
  generalize initialise assignment direct = one, initialise assignment deferred = other at takes ⊢
  cases takes with
  | @same result direct deferred builtIn abreast =>
    cases result with
    | none => exact .same _ builtIn abreast
    | some loaded =>
      have preloads := preload_abreast abreast loaded (builtIn loaded rfl)
      dsimp only
      generalize preload loaded direct = one, preload loaded deferred = other at preloads ⊢
      cases preloads with
      | same after builtIn abreast =>
        refine .same _ (fun loaded member => ?_) abreast
        rw [← Option.mem_some_iff.mp member]
        exact builtIn

theorem initialiseNormal_abreast (abreast : Abreast gap refused direct deferred)
    (descriptors : List Descriptor) (top : TopSection)
    (builtIn : ∀ descriptor ∈ descriptors, ∀ ticket,
      (descriptor.create ticket).isBuiltIn = true) :
    Results gap refused (fun result => ∀ loaded ∈ result, loaded.inner.isBuiltIn = true)
      (initialiseNormal descriptors top direct) (initialiseNormal descriptors top deferred) := by
  unfold initialiseNormal
  cases found : assign? descriptors top with
  | none =>
    exact .same _ (fun _ member => absurd member (Option.not_mem_none _)) (abreast.record _ _ _ _)
  | some assignment =>
    refine initialise_abreast abreast assignment (builtIn _ ?_)
    obtain ⟨⟨descriptor, header⟩, first, rfl⟩ := Option.map_eq_some_iff.mp found
    exact first?_mem first

/-- Runs that stay abreast over every item stay abreast over all of them. -/
theorem each_abreast {α β : Type} {Good : β → Prop} {act : α → Workspace → β × Workspace}
    (items : List α) (abreast : Abreast gap refused direct deferred)
    (one : ∀ item ∈ items, ∀ direct deferred, Abreast gap refused direct deferred →
      Results gap refused Good (act item direct) (act item deferred)) :
    Results gap refused (∀ result ∈ ·, Good result) (each act items direct)
      (each act items deferred) := by
  induction items generalizing direct deferred with
  | nil => exact .same _ (fun _ member => absurd member List.not_mem_nil) abreast
  | cons item others ih =>
    have first := one item List.mem_cons_self direct deferred abreast
    unfold each
    generalize act item direct = head, act item deferred = other at first ⊢
    cases first with
    | @same result direct deferred good abreast =>
      have rest := ih abreast fun later member => one later (List.mem_cons_of_mem _ member)
      dsimp only
      generalize each act others direct = tail, each act others deferred = otherTail at rest ⊢
      cases rest with
      | same results goods abreast =>
        refine .same _ (fun found member => ?_) abreast
        rcases List.mem_cons.mp member with rfl | later
        · exact good
        · exact goods found later

theorem reportPlain_abreast (abreast : Abreast gap refused direct deferred) (nodes : List Node) :
    Abreast gap refused (reportPlain nodes direct) (reportPlain nodes deferred) := by
  unfold reportPlain
  induction nodes generalizing direct deferred with
  | nil => exact abreast
  | cons node others ih =>
    rw [List.foldl_cons, List.foldl_cons]
    refine ih ?_
    cases node with
    | nested key line nodes => exact abreast
    | entry key value line => exact abreast.record _ _ _ _
    | simple key line => exact abreast.record _ _ _ _

/-- The sections of a script take their headers in the same way in both runs. -/
theorem initialiseAll_abreast {registry : Registry}
    (abreast : Abreast gap refused direct deferred) (nodes : List Node)
    (builtIn : ∀ descriptor ∈ registry.all, ∀ ticket,
      (descriptor.create ticket).isBuiltIn = true) :
    Results gap refused (∀ loaded ∈ ·, loaded.inner.isBuiltIn = true)
      (initialiseAll registry nodes direct) (initialiseAll registry nodes deferred) := by
  have plain := reportPlain_abreast abreast nodes
  have early := each_abreast (claimAll registry.preloading (topSections 0 nodes)).1 plain
    fun assignment member direct deferred abreast => initialisePreloading_abreast abreast assignment
      (builtIn _ (first?_mem (match?_of_claimed registry _ assignment member)))
  unfold initialiseAll
  dsimp only
  generalize each initialisePreloading _ (reportPlain nodes direct) = one,
    each initialisePreloading _ (reportPlain nodes deferred) = other at early ⊢
  cases early with
  | @same preloading direct deferred goods abreast =>
    have late := each_abreast (claimAll registry.preloading (topSections 0 nodes)).2 abreast
      fun top _ direct deferred abreast => initialiseNormal_abreast abreast registry.normal top
        fun descriptor member => builtIn descriptor (List.mem_append_right _ member)
    dsimp only
    generalize each (initialiseNormal registry.normal) _ direct = one,
      each (initialiseNormal registry.normal) _ deferred = other at late ⊢
    cases late with
    | same normal others abreast =>
      refine .same _ (fun loaded member => ?_) abreast
      rw [List.mem_mergeSort, List.reduceOption_mem_iff] at member
      rcases List.mem_append.mp member with here | there
      · exact goods _ here loaded rfl
      · exact others _ there loaded rfl

end Loading

end ScriptBinding
