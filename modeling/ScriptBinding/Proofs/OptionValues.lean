import ScriptBinding.Proofs.FailedCalls
import ScriptBinding.Proofs.FinishedScripts
import ScriptBinding.Proofs.StandardStructures

/-! # The options that bodies see

The sections of options of a script are laid over one another before any body is read, so that the
last definition of a key counts. Loading them lays them over one another once more, from the first
to the last: a body that is read in the middle of that sees the definitions before it in the place
of later ones. Events are read before, and functions behind all of that. Commands are read in
between, each at its place in the text.
-/

namespace ScriptBinding

namespace Options

/-- The value of the last definition of a key. -/
def lastDefinition (key : String) : List (String × String) → Option String
  | [] => none
  | (name, value) :: others =>
    (lastDefinition key others).or (if name = key then some value else none)

theorem lastDefinition_append (key : String) (definitions others : List (String × String)) :
    lastDefinition key (definitions ++ others) =
      (lastDefinition key others).or (lastDefinition key definitions) := by
  induction definitions with
  | nil => rw [List.nil_append, lastDefinition, Option.or_none]
  | cons first rest ih => rw [List.cons_append, lastDefinition, ih, lastDefinition, Option.or_assoc]

theorem get?_insertAll (key : String) (definitions : List (String × String)) (options : Options) :
    (options.insertAll definitions).get? key =
      (lastDefinition key definitions).or (options.get? key) := by
  unfold Table.insertAll
  induction definitions generalizing options with
  | nil => rfl
  | cons first others ih =>
    rw [List.foldl_cons, ih, lastDefinition, Option.or_assoc, Table.get?_insert]
    by_cases here : first.1 = key
    · simp only [here, ↓reduceIte, Option.some_or]
    · simp only [here, ↓reduceIte, Option.none_or]

/-- No key of a table is defined twice. -/
theorem lastDefinition_entries (key : String) (options : Options) :
    lastDefinition key options.entries = options.get? key := by
  obtain ⟨entries, sorted⟩ := options
  change lastDefinition key entries = Table.find key entries
  induction entries with
  | nil => rfl
  | cons first others ih =>
    obtain ⟨least, rest⟩ := List.pairwise_cons.mp sorted
    rw [lastDefinition, ih rest, Table.find]
    by_cases here : first.1 = key
    · have absent : Table.find key others = none :=
        Table.find_eq_none_of_before fun entry member => here ▸ least entry member
      simp only [absent, here, ↓reduceIte, Option.none_or]
    · simp only [here, ↓reduceIte, Option.or_none]

end Options

open Options (lastDefinition)

/-- The definitions of a section of options, in the order of the text. -/
def OptionsStructure.definitions (body : Section) : List (String × String) :=
  (flatten.flattenAll "" (body.convertToEntries (-1) ":").nodes).1

/-- Bodies see these definitions. -/
def Workspace.Shows (definitions : List (String × String)) (workspace : Workspace) : Prop :=
  ∀ key, workspace.bodyScope.options.get? key = lastDefinition key definitions

namespace Workspace.Shows

variable {workspace after : Workspace} {definitions others : List (String × String)}

theorem of_same (shows : workspace.Shows definitions)
    (same : after.context.currentOptions = workspace.context.currentOptions) :
    after.Shows definitions := by
  intro key
  change after.context.currentOptions.get? key = _
  rw [same]
  exact shows key

theorem of_values (shows : workspace.Shows definitions)
    (same : ∀ key, lastDefinition key others = lastDefinition key definitions) :
    workspace.Shows others :=
  fun key => (shows key).trans (same key).symm

/-- Laying options over those of the script puts their definitions behind the others. -/
theorem apply (shows : workspace.Shows definitions) (options : OptionsStructure) :
    (options.apply workspace).Shows (definitions ++ options.entries.entries) := by
  intro key
  rw [Options.lastDefinition_append, ← shows key]
  exact Options.get?_insertAll key options.entries.entries workspace.context.currentOptions

end Workspace.Shows

/-! ## Structures that define no options -/

namespace Structure

/-- The structure is a section of options. -/
def isOptions : Structure → Bool
  | options _ => true
  | _ => false

/-- The definitions that a structure lays over the options of its script. -/
def overlay : Structure → List (String × String)
  | options inner => inner.entries.entries
  | _ => []

theorem init_isOptions (header : MatchResult) (body : Section) (workspace : Workspace)
    (inner : Structure) :
    (inner.init header body workspace).2.1.isOptions = inner.isOptions := by
  cases inner with
  | function inner =>
    dsimp only [init]
    split <;> rfl
  | command inner =>
    dsimp only [init]
    split <;> rfl
  | _ => rfl

/-- Taking a header never changes the options of the script. -/
theorem init_options (header : MatchResult) (body : Section) (workspace : Workspace)
    (inner : Structure) :
    (inner.init header body workspace).2.2.context.currentOptions =
      workspace.context.currentOptions := by
  have reported (failures : List Failure) (workspace : Workspace) :
      (workspace.reportAll failures).context.currentOptions =
        workspace.context.currentOptions := by
    rw [Workspace.reportAll_eq_leave]
    rfl
  cases inner with
  | options inner => exact reported _ workspace
  | aliases => exact reported _ _
  | custom inner => exact reported _ _
  | defaults inner =>
    change (inner.init body workspace).2.context.currentOptions = _
    unfold VariablesStructure.init
    generalize (body.convertToEntries 0 "=").nodes = nodes
    induction nodes generalizing inner workspace with
    | nil => rfl
    | cons node others ih =>
      rw [List.foldl_cons, ih]
      unfold VariablesStructure.initNode
      dsimp only
      split
      · exact reported [_] workspace
      · rfl
  | function inner =>
    dsimp only [init]
    split <;> rfl
  | command inner =>
    dsimp only [init]
    split <;> rfl
  | event inner =>
    have answers := inner.init_answers header body workspace
    change (inner.init header body workspace).2.2.context.currentOptions = _
    generalize inner.init header body workspace = answer at *
    cases answers with
    | nothing _ _ _ restored => exact restored.options
    | waits _ _ _ _ _ _ _ _ _ _ _ _ _ _ _ restored => exact restored.options

variable {inner : Structure}

theorem preload_isOptions (workspace : Workspace) :
    (inner.preload workspace).2.1.isOptions = inner.isOptions := by
  cases inner with
  | function inner =>
    dsimp only [preload]
    split <;> rfl
  | _ => rfl

theorem preload_priority (workspace : Workspace) :
    (inner.preload workspace).2.1.priority = inner.priority := by
  cases inner with
  | function inner =>
    dsimp only [preload]
    split <;> rfl
  | _ => rfl

/-- A structure that lays nothing over the options shows what was shown before. -/
theorem shows_of_same {workspace after : Workspace} {definitions : List (String × String)}
    (shows : workspace.Shows definitions) (other : inner.isOptions = false)
    (same : after.context.currentOptions = workspace.context.currentOptions) :
    after.Shows (definitions ++ inner.overlay) := by
  have nothing : inner.overlay = [] := by
    cases inner with
    | options options => cases other
    | _ => rfl
  rw [nothing, List.append_nil]
  exact shows.of_same same

/-- Only a section of options changes the options when it is preloaded. -/
theorem preload_shows (inner : Structure) {workspace : Workspace}
    {definitions : List (String × String)} (shows : workspace.Shows definitions) :
    (inner.preload workspace).2.2.Shows (definitions ++ inner.overlay) := by
  cases inner with
  | options options => exact shows.apply options
  | function inner =>
    refine shows_of_same shows rfl ?_
    dsimp only [preload]
    rcases inner.preload_cases workspace with ⟨_, same⟩ | ⟨_, _, _, same⟩
    · rw [same]
    · rw [same]
      rfl
  | custom inner =>
    refine shows_of_same shows rfl ?_
    change (Workspace.reportAll _ _).context.currentOptions = _
    rw [Workspace.reportAll_eq_leave]
    rfl
  | aliases => exact shows_of_same shows rfl rfl
  | defaults inner => exact shows_of_same shows rfl rfl
  | command inner => exact shows_of_same shows rfl rfl
  | event inner => exact shows_of_same shows rfl rfl

/-- Only a section of options changes the options when it is loaded. -/
theorem load_shows (thread : Thread) (inner : Structure) {workspace : Workspace}
    {definitions : List (String × String)} (shows : workspace.Shows definitions) :
    (inner.load thread workspace).2.2.Shows (definitions ++ inner.overlay) := by
  cases inner with
  | options options => exact shows.apply options
  | function inner =>
    refine shows_of_same shows rfl ?_
    change (inner.load workspace).2.context.currentOptions = _
    rcases inner.load_cases workspace with ⟨_, _, same⟩ | ⟨_, _, _, _, _, _, _, _, _, same⟩
    all_goals
      rw [same]
      rfl
  | command inner =>
    refine shows_of_same shows rfl ?_
    have submitted (loaded : Command) (after : Workspace) :
        (CommandStructure.submit thread loaded inner.ticket after).2.context.currentOptions =
          after.context.currentOptions := by
      unfold CommandStructure.submit
      dsimp only
      split <;> rfl
    have loads : (inner.load thread workspace).2.context.currentOptions =
        workspace.context.currentOptions := by
      rcases inner.load_reads thread workspace with ⟨_, _, restored, same⟩ |
        ⟨_, loaded, after, _, _, restored, same⟩
      · rw [same]
        exact restored.options
      · rw [same]
        exact (submitted loaded after).trans restored.options
    dsimp only [load]
    generalize inner.load thread workspace = result at *
    obtain ⟨outcome, after⟩ := result
    cases outcome <;> exact loads
  | custom inner =>
    refine shows_of_same shows rfl ?_
    change (Workspace.reportAll _ _).context.currentOptions = _
    rw [Workspace.reportAll_eq_leave]
    rfl
  | aliases => exact shows_of_same shows rfl rfl
  | defaults inner => exact shows_of_same shows rfl rfl
  | event inner => exact shows_of_same shows rfl rfl

end Structure

namespace Loading

/-! ## Phases of one structure -/

theorem conclude_shows (phase : Phase) (loaded : LoadedStructure)
    (result : Outcome Unit × Structure × Workspace) {definitions : List (String × String)}
    (shows : result.2.2.Shows definitions) :
    (conclude phase loaded result).2.2.Shows definitions := by
  obtain ⟨outcome, inner, after⟩ := result
  refine shows.of_same ?_
  unfold conclude
  dsimp only
  split
  · rfl
  · unfold Workspace.reportAt
    rw [Workspace.record_eq_leave]
    rfl

/-- The workspace in which a structure is loaded, which is preloaded first unless it has been. -/
def ready (loaded : LoadedStructure) (workspace : Workspace) : Workspace :=
  if loaded.preloaded then workspace else (preload loaded workspace).2

theorem preload_overlay (loaded : LoadedStructure) (workspace : Workspace) :
    (loaded.inner.preload workspace).2.1.overlay = loaded.inner.overlay := by
  cases loaded.inner with
  | function inner =>
    dsimp only [Structure.preload]
    split <;> rfl
  | _ => rfl

variable {loaded : LoadedStructure} {workspace : Workspace} {definitions : List (String × String)}

theorem preload_shows (shows : workspace.Shows definitions)
    (other : loaded.inner.isOptions = false) : (preload loaded workspace).2.Shows definitions := by
  have nothing : loaded.inner.overlay = [] := by
    cases inner : loaded.inner with
    | options options =>
      rw [inner] at other
      cases other
    | _ => rfl
  have preloaded := conclude_shows .preload loaded (loaded.inner.preload workspace)
    (loaded.inner.preload_shows shows)
  rw [nothing, List.append_nil] at preloaded
  exact preloaded

/-- A structure that is no section of options sees what is shown when its turn comes. -/
theorem ready_shows (shows : workspace.Shows definitions)
    (other : loaded.inner.isOptions = false) : (ready loaded workspace).Shows definitions := by
  unfold ready
  split
  · exact shows
  · exact preload_shows shows other

theorem load_shows (thread : Thread) (shows : workspace.Shows definitions) :
    (load thread loaded workspace).2.Shows (definitions ++ loaded.inner.overlay) := by
  unfold load
  cases loaded.preloaded with
  | true =>
    exact conclude_shows .load loaded (loaded.inner.load thread workspace)
      (loaded.inner.load_shows thread shows)
  | false =>
    have early := conclude_shows .preload loaded (loaded.inner.preload workspace)
      (loaded.inner.preload_shows shows)
    have late := conclude_shows .load (preload loaded workspace).1 _
      ((preload loaded workspace).1.inner.load_shows thread early)
    have same : (preload loaded workspace).1.inner.overlay = loaded.inner.overlay := by
      rw [preload_structure]
      exact preload_overlay loaded workspace
    refine late.of_values fun key => ?_
    rw [same, Options.lastDefinition_append, Options.lastDefinition_append,
      Options.lastDefinition_append, ← Option.or_assoc, Option.or_self]

theorem each_load_shows (thread : Thread) (structures : List LoadedStructure)
    (shows : workspace.Shows definitions) :
    (each (load thread) structures workspace).2.Shows
      (definitions ++ structures.flatMap (·.inner.overlay)) := by
  induction structures generalizing workspace definitions with
  | nil => rwa [List.flatMap_nil, List.append_nil]
  | cons first others ih =>
    rw [List.flatMap_cons, ← List.append_assoc]
    exact ih (load_shows thread shows)

/-! ## Sections of options -/

/-- A section of options has become a structure that lays its definitions over the options. -/
structure Lays (top : TopSection) (loaded : LoadedStructure) : Prop where
  index : loaded.index = top.index
  priority : loaded.priority = 10
  values : ∀ key, lastDefinition key loaded.inner.overlay =
    lastDefinition key (OptionsStructure.definitions top.body)

/-- The definitions of some sections of options, in their order. -/
def definitionsOf (sections : List TopSection) : List (String × String) :=
  sections.flatMap fun top => OptionsStructure.definitions top.body

theorem Lays.lastDefinition {sections : List TopSection} {structures : List LoadedStructure}
    (lays : List.Forall₂ Lays sections structures) (key : String) :
    lastDefinition key (structures.flatMap (·.inner.overlay)) =
      lastDefinition key (definitionsOf sections) := by
  induction lays with
  | nil => rfl
  | cons first _ ih =>
    rw [definitionsOf, List.flatMap_cons, List.flatMap_cons, Options.lastDefinition_append,
      Options.lastDefinition_append, ih, first.values key]
    rfl

end Loading

/-- New structures of this descriptor are sections of options. -/
def Descriptor.MakesOptions (descriptor : Descriptor) : Prop :=
  ∀ ticket, descriptor.create ticket = .options {}

/-- New structures of this descriptor are no sections of options. -/
def Descriptor.MakesOthers (descriptor : Descriptor) : Prop :=
  ∀ ticket, (descriptor.create ticket).isOptions = false

/-- A section with this header is one of options: that is what the first descriptor makes of it. -/
def Registry.isOptions (registry : Registry) (key : String) : Bool :=
  (registry.match? key).any fun found => (found.1.create 0).isOptions

namespace Loading

variable {loaded : LoadedStructure} {workspace : Workspace} {definitions : List (String × String)}

/-- What becomes of a section, if it becomes anything. -/
theorem initialise_spec (assignment : Assignment) (workspace : Workspace) :
    (initialise assignment workspace).2.context.currentOptions =
        workspace.context.currentOptions ∧
      ∀ loaded ∈ (initialise assignment workspace).1, loaded.index = assignment.top.index ∧
        loaded.priority = loaded.inner.priority ∧ loaded.inner.isOptions =
          (assignment.descriptor.create workspace.host.nextTicket).isOptions := by
  let inner := assignment.descriptor.create workspace.host.nextTicket
  have options := inner.init_options assignment.header assignment.top.body
    (inHand assignment workspace)
  have isOptions := inner.init_isOptions assignment.header assignment.top.body
    (inHand assignment workspace)
  have taken : takeHeader assignment workspace =
      ((inner.init assignment.header assignment.top.body (inHand assignment workspace)).1,
        (inner.init assignment.header assignment.top.body (inHand assignment workspace)).2.1,
        (inner.init assignment.header assignment.top.body
          (inHand assignment workspace)).2.2.inContext (·.takeInHand none none)) := rfl
  unfold initialise
  rw [taken]
  generalize inner.init assignment.header assignment.top.body (inHand assignment workspace) =
    result at *
  obtain ⟨outcome, after, final⟩ := result
  simp only at options isOptions ⊢
  split
  · refine ⟨options, ?_⟩
    rintro _ ⟨⟩
    exact ⟨rfl, rfl, isOptions⟩
  · refine ⟨?_, fun _ absent => absurd absent (Option.not_mem_none _)⟩
    rw [Workspace.report_eq_leave]
    exact options
  · refine ⟨?_, fun _ absent => absurd absent (Option.not_mem_none _)⟩
    unfold Workspace.reportAt
    rw [Workspace.record_eq_leave]
    exact options

/-- A section of options is always taken, and its definitions are laid over the others at once. -/
theorem initialisePreloading_options {assignment : Assignment}
    (makes : assignment.descriptor.MakesOptions) (shows : workspace.Shows definitions) :
    ∃ loaded, (initialisePreloading assignment workspace).1 = some loaded ∧
      loaded.inner.isOptions = true ∧ Lays assignment.top loaded ∧
      (initialisePreloading assignment workspace).2.Shows
        (definitions ++ OptionsStructure.definitions assignment.top.body) := by
  have options := (initialise_spec assignment workspace).1
  let inner : OptionsStructure :=
    ⟨Table.empty.insertAll (OptionsStructure.definitions assignment.top.body)⟩
  have initialised : (initialise assignment workspace).1 =
      some ⟨.options inner, assignment.top.body.key, assignment.top.body.line,
        assignment.top.index, 10, false, false⟩ := by
    unfold initialise takeHeader
    simp only [makes _]
    rfl
  have values (key : String) : lastDefinition key inner.entries.entries =
      lastDefinition key (OptionsStructure.definitions assignment.top.body) := by
    rw [Options.lastDefinition_entries]
    exact (Options.get?_insertAll key _ _).trans Option.or_none
  unfold initialisePreloading
  generalize initialise assignment workspace = result at *
  obtain ⟨first, after⟩ := result
  simp only at initialised options
  subst initialised
  refine ⟨_, rfl, rfl, ⟨rfl, rfl, values⟩, ?_⟩
  have applied := (shows.of_same options).apply inner
  refine (conclude_shows .preload _ (.done (), .options inner, inner.apply after)
    applied).of_values fun key => ?_
  rw [Options.lastDefinition_append, Options.lastDefinition_append, values]

/-- A structure that is no section of options leaves the options as they are. -/
theorem initialisePreloading_others {assignment : Assignment}
    (makes : assignment.descriptor.MakesOthers) (shows : workspace.Shows definitions) :
    (initialisePreloading assignment workspace).2.Shows definitions ∧
      ∀ loaded ∈ (initialisePreloading assignment workspace).1,
        loaded.inner.isOptions = false := by
  obtain ⟨options, made⟩ := initialise_spec assignment workspace
  unfold initialisePreloading
  generalize initialise assignment workspace = result at *
  obtain ⟨first, after⟩ := result
  cases first with
  | none => exact ⟨shows.of_same options, fun _ absent => absurd absent (Option.not_mem_none _)⟩
  | some loaded =>
    have other : loaded.inner.isOptions = false := (made loaded rfl).2.2.trans (makes _)
    refine ⟨preload_shows (shows.of_same options) other, ?_⟩
    intro result taken
    rw [← Option.mem_some_iff.mp taken]
    rw [preload_structure]
    exact (Structure.preload_isOptions after).trans other

/-- What preloading leaves of the sections that preloading descriptors take: the sections of options
among them, and their definitions behind the others. -/
theorem each_preloading (assignments : List Assignment)
    (makes : ∀ assignment ∈ assignments,
      assignment.descriptor.MakesOptions ∨ assignment.descriptor.MakesOthers)
    (shows : workspace.Shows definitions) :
    let sections := (assignments.filter fun assignment =>
      (assignment.descriptor.create 0).isOptions).map Assignment.top
    List.Forall₂ Lays sections
        ((each initialisePreloading assignments workspace).1.reduceOption.filter
          (·.inner.isOptions)) ∧
      (each initialisePreloading assignments workspace).2.Shows
        (definitions ++ definitionsOf sections) := by
  induction assignments generalizing workspace definitions with
  | nil => exact ⟨.nil, by rwa [definitionsOf, List.filter_nil, List.map_nil, List.flatMap_nil,
      List.append_nil]⟩
  | cons first others ih =>
    have rest := fun assignment member => makes assignment (List.mem_cons_of_mem _ member)
    intro sections
    rw [each_cons_reduceOption, List.filter_append]
    rcases makes first List.mem_cons_self with options | other
    · obtain ⟨loaded, taken, isOptions, lays, applied⟩ := initialisePreloading_options options shows
      obtain ⟨laid, shown⟩ := ih rest applied
      have here : (first.descriptor.create 0).isOptions = true := by rw [options]; rfl
      have cut : sections = first.top ::
          (others.filter fun assignment => (assignment.descriptor.create 0).isOptions).map
            Assignment.top := by
        simp only [sections, List.filter_cons, here, ↓reduceIte, List.map_cons]
      rw [cut, taken, Option.toList_some, List.filter_singleton, isOptions]
      refine ⟨.cons lays laid, ?_⟩
      rw [definitionsOf, List.flatMap_cons, ← List.append_assoc]
      exact shown
    · obtain ⟨same, none⟩ := initialisePreloading_others other shows
      have cut : sections = (others.filter fun assignment =>
          (assignment.descriptor.create 0).isOptions).map Assignment.top := by
        simp only [sections, List.filter_cons, other 0, Bool.false_eq_true, ↓reduceIte]
      have nothing : (initialisePreloading first workspace).1.toList.filter
          (·.inner.isOptions) = [] := by
        refine List.filter_eq_nil_iff.mpr fun loaded member => ?_
        rw [none loaded (Option.mem_toList.mp member)]
        exact Bool.false_ne_true
      rw [cut, nothing, List.nil_append]
      exact ih rest same

/-- The sections that preloading descriptors leave are offered to others, and never define
options. -/
theorem each_normal {descriptors : List Descriptor} (sections : List TopSection)
    (makes : ∀ descriptor ∈ descriptors, descriptor.MakesOthers)
    (shows : workspace.Shows definitions) :
    (each (initialiseNormal descriptors) sections workspace).2.Shows definitions ∧
      ∀ loaded ∈ (each (initialiseNormal descriptors) sections workspace).1.reduceOption,
        loaded.inner.isOptions = false := by
  induction sections generalizing workspace with
  | nil => exact ⟨shows, fun _ absent => absurd absent List.not_mem_nil⟩
  | cons first others ih =>
    have one : (initialiseNormal descriptors first workspace).2.Shows definitions ∧
        ∀ loaded ∈ (initialiseNormal descriptors first workspace).1,
          loaded.inner.isOptions = false := by
      unfold initialiseNormal
      split
      · next assignment found =>
        obtain ⟨options, made⟩ := initialise_spec assignment workspace
        obtain ⟨⟨descriptor, header⟩, matched, rfl⟩ := Option.map_eq_some_iff.mp found
        refine ⟨shows.of_same options, fun loaded taken => ?_⟩
        exact (made loaded taken).2.2.trans (makes _ (first?_mem matched) _)
      · refine ⟨shows.of_same ?_, fun _ absent => absurd absent (Option.not_mem_none _)⟩
        rw [Workspace.report_eq_leave]
        rfl
    obtain ⟨shown, rest⟩ := ih one.1
    refine ⟨shown, fun loaded member => ?_⟩
    change loaded ∈ ((initialiseNormal descriptors first workspace).1 :: _).reduceOption at member
    rw [List.reduceOption_mem_iff] at member
    rcases List.mem_cons.mp member with here | there
    · exact one.2 loaded here.symm
    · exact rest loaded (List.reduceOption_mem_iff.mpr there)

end Loading

/-- Only the first of the preloading descriptors can make sections of options. -/
structure Registry.OptionsLead (registry : Registry) : Prop where
  first : ∀ descriptor ∈ registry.preloading.head?,
    descriptor.MakesOptions ∨ descriptor.MakesOthers
  others : ∀ descriptor ∈ registry.preloading.tail ++ registry.normal, descriptor.MakesOthers

namespace Registry.OptionsLead

variable {registry : Registry}

theorem normal (leads : registry.OptionsLead) :
    ∀ descriptor ∈ registry.normal, descriptor.MakesOthers :=
  fun descriptor member => leads.others descriptor (List.mem_append_right _ member)

theorem all (leads : registry.OptionsLead) :
    ∀ descriptor ∈ registry.all, descriptor.MakesOptions ∨ descriptor.MakesOthers := by
  intro descriptor member
  rcases List.mem_append.mp member with early | late
  · cases preloading : registry.preloading with
    | nil =>
      rw [preloading] at early
      exact absurd early List.not_mem_nil
    | cons first others =>
      rw [preloading] at early
      rcases List.mem_cons.mp early with rfl | there
      · exact leads.first descriptor (by rw [preloading]; rfl)
      · refine Or.inr (leads.others descriptor (List.mem_append_left _ ?_))
        rwa [preloading, List.tail_cons]
  · exact Or.inr (leads.normal descriptor late)

end Registry.OptionsLead

namespace Loading

variable {registry : Registry} {workspace : Workspace} {definitions : List (String × String)}

/-- The sections of options of a script, in the order of the text. -/
def optionSections (registry : Registry) (nodes : List Node) : List TopSection :=
  (topSections 0 nodes).filter fun top => registry.isOptions top.body.key

theorem first?_others {descriptors : List Descriptor} (key : String)
    (others : ∀ descriptor ∈ descriptors, descriptor.MakesOthers) :
    ((Descriptor.first? key descriptors).any fun found => (found.1.create 0).isOptions) =
      false := by
  cases found : Descriptor.first? key descriptors with
  | none => rfl
  | some first => exact others first.1 (first?_mem found) 0

/-- The sections of options are those that the first of the preloading descriptors takes. -/
theorem isOptions_eq {first : Descriptor} {others : List Descriptor} (leads : registry.OptionsLead)
    (preloading : registry.preloading = first :: others) (key : String) :
    registry.isOptions key = ((first.create 0).isOptions && (first.match? key).isSome) := by
  have rest := leads.others
  rw [preloading, List.tail_cons] at rest
  rw [Registry.isOptions, Registry.match?, Registry.all, preloading, List.cons_append,
    Descriptor.first?]
  cases first.match? key with
  | none => rw [first?_others key rest, Option.isSome_none, Bool.and_false]
  | some header => rw [Option.any_some, Option.isSome_some, Bool.and_true]

theorem claimed_options (leads : registry.OptionsLead) (sections : List TopSection) :
    ((claimAll registry.preloading sections).1.filter fun assignment =>
        (assignment.descriptor.create 0).isOptions).map Assignment.top =
      sections.filter fun top => registry.isOptions top.body.key := by
  cases preloading : registry.preloading with
  | nil =>
    refine Eq.symm (List.filter_eq_nil_iff.mpr fun top _ => ?_)
    have none := first?_others top.body.key leads.normal
    rw [Registry.isOptions, Registry.match?, Registry.all, preloading, List.nil_append, none]
    exact Bool.false_ne_true
  | cons first others =>
    obtain ⟨taken, _⟩ := claim_eq first sections
    have rest := leads.others
    rw [preloading, List.tail_cons] at rest
    have later : (claimAll others (claim first sections).2).1.filter (fun assignment =>
        (assignment.descriptor.create 0).isOptions) = [] := by
      refine List.filter_eq_nil_iff.mpr fun assignment member => ?_
      have there := first?_mem (claimAll_first? assignment member)
      rw [rest _ (List.mem_append_left _ there) 0]
      exact Bool.false_ne_true
    have here : (claim first sections).1.filter (fun assignment =>
        (assignment.descriptor.create 0).isOptions) =
          (claim first sections).1.filter fun _ => (first.create 0).isOptions :=
      List.filter_congr fun assignment member => by rw [(claim_match? assignment member).1]
    have options : sections.filter (fun top => registry.isOptions top.body.key) =
        sections.filter fun top => (first.create 0).isOptions && first.takes top :=
      List.filter_congr fun top _ => isOptions_eq leads preloading top.body.key
    rw [claimAll, List.filter_append, later, List.append_nil, here, options]
    cases (first.create 0).isOptions with
    | true => rw [List.filter_true, taken]; rfl
    | false => rw [List.filter_false]; simp only [Bool.false_and, List.filter_false, List.map_nil]

/-! ## The order of loading -/

theorem mem_each {α β : Type} {act : α → Workspace → β × Workspace} {items : List α}
    {workspace : Workspace} {result : β} (member : result ∈ (each act items workspace).1) :
    ∃ item ∈ items, ∃ before, result = (act item before).1 := by
  induction items generalizing workspace with
  | nil => exact absurd member List.not_mem_nil
  | cons first others ih =>
    rcases List.mem_cons.mp member with here | there
    · exact ⟨first, List.mem_cons_self, workspace, here⟩
    · obtain ⟨item, itsMember, before, same⟩ := ih there
      exact ⟨item, List.mem_cons_of_mem _ itsMember, before, same⟩

/-- A structure stands at the place of its section, and its priority is its own. -/
structure Placed (registry : Registry) (nodes : List Node) (loaded : LoadedStructure) : Prop where
  priority : loaded.priority = loaded.inner.priority
  place : ∃ top ∈ topSections 0 nodes, top.index = loaded.index ∧
    loaded.inner.isOptions = registry.isOptions top.body.key

theorem initialise_placed {nodes : List Node} {assignment : Assignment} {loaded : LoadedStructure}
    (leads : registry.OptionsLead) (there : assignment.top ∈ topSections 0 nodes)
    (matched : registry.match? assignment.top.body.key =
      some (assignment.descriptor, assignment.header))
    (taken : (initialise assignment workspace).1 = some loaded) :
    Placed registry nodes loaded := by
  obtain ⟨index, priority, isOptions⟩ := (initialise_spec assignment workspace).2 loaded taken
  refine ⟨priority, assignment.top, there, index.symm, isOptions.trans ?_⟩
  rw [Registry.isOptions, matched, Option.any_some]
  rcases leads.all _ (first?_mem matched) with options | others
  · rw [options, options]
  · rw [others, others]

theorem Placed.preload {nodes : List Node} {loaded : LoadedStructure}
    (placed : Placed registry nodes loaded) :
    Placed registry nodes (Loading.preload loaded workspace).1 := by
  obtain ⟨priority, top, there, index, isOptions⟩ := placed
  rw [preload_structure]
  exact ⟨priority.trans (Structure.preload_priority workspace).symm, top, there, index,
    (Structure.preload_isOptions workspace).trans isOptions⟩

/-- What taking the headers of a script comes to: the options are those of all its sections, and
these are loaded again in the order of the text. -/
structure Prepared (registry : Registry) (nodes : List Node) (structures : List LoadedStructure)
    (after : Workspace) : Prop where
  placed : ∀ loaded ∈ structures, Placed registry nodes loaded
  sorted : structures.Pairwise fun a b => before a b = true
  lays : List.Forall₂ Lays (optionSections registry nodes)
    (structures.filter (·.inner.isOptions))
  shows : after.Shows (definitionsOf (optionSections registry nodes))

theorem before_trans (a b c : LoadedStructure) (first : before a b = true)
    (second : before b c = true) : before a c = true := by
  simp only [before] at *
  split at first <;> split at second <;> split <;> simp only [decide_eq_true_eq] at * <;> omega

theorem before_total (a b : LoadedStructure) : (before a b || before b a) = true := by
  simp only [before, Bool.or_eq_true]
  split <;> split <;> simp only [decide_eq_true_eq] <;> omega

/-- The workspace in which a script that has just become current comes to the header of a section
that is left by the preloading descriptors, behind some others. -/
def atHeader (registry : Registry) (nodes : List Node) (earlier : List TopSection)
    (workspace : Workspace) : Workspace :=
  let claimed := claimAll registry.preloading (topSections 0 nodes)
  let preloaded := (each initialisePreloading claimed.1 (reportPlain nodes workspace)).2
  (each (initialiseNormal registry.normal) earlier preloaded).2

theorem reportPlain_shows (nodes : List Node) (shows : workspace.Shows definitions) :
    (reportPlain nodes workspace).Shows definitions := by
  unfold reportPlain
  induction nodes generalizing workspace with
  | nil => exact shows
  | cons node others ih =>
    rw [List.foldl_cons]
    refine ih ?_
    split
    · exact shows
    · rw [Workspace.report_eq_leave]
      exact shows

/-- Once the preloading descriptors are through with a script, its options are those of all
sections. -/
theorem preloading_shows (leads : registry.OptionsLead) (nodes : List Node)
    (none : workspace.context.currentOptions = .empty) :
    let claimed := claimAll registry.preloading (topSections 0 nodes)
    let preloaded := each initialisePreloading claimed.1 (reportPlain nodes workspace)
    List.Forall₂ Lays (optionSections registry nodes)
        (preloaded.1.reduceOption.filter (·.inner.isOptions)) ∧
      preloaded.2.Shows (definitionsOf (optionSections registry nodes)) := by
  have nothing : workspace.Shows [] := by
    intro key
    change workspace.context.currentOptions.get? key = _
    rw [none]
    rfl
  have pass := each_preloading (claimAll registry.preloading (topSections 0 nodes)).1
    (fun assignment member =>
      leads.all _ (first?_mem (match?_of_claimed registry _ assignment member)))
    (reportPlain_shows nodes nothing)
  rwa [claimed_options leads] at pass

theorem atHeader_shows (leads : registry.OptionsLead) (nodes : List Node)
    (earlier : List TopSection) (none : workspace.context.currentOptions = .empty) :
    (atHeader registry nodes earlier workspace).Shows
      (definitionsOf (optionSections registry nodes)) :=
  (each_normal earlier leads.normal (preloading_shows leads nodes none).2).1

theorem mem_related {α β : Type} {Related : α → β → Prop} {items : List α} {others : List β}
    (related : List.Forall₂ Related items others) {other : β} (member : other ∈ others) :
    ∃ item ∈ items, Related item other := by
  induction related with
  | nil => exact absurd member List.not_mem_nil
  | cons first _ ih =>
    rcases List.mem_cons.mp member with rfl | later
    · exact ⟨_, List.mem_cons_self, first⟩
    · obtain ⟨item, there, same⟩ := ih later
      exact ⟨item, List.mem_cons_of_mem _ there, same⟩

/-- Structures of sections of options are loaded in the order of the text. -/
theorem Lays.sorted {sections : List TopSection} {structures : List LoadedStructure}
    (lays : List.Forall₂ Lays sections structures)
    (ascending : sections.Pairwise fun a b => a.index < b.index) :
    structures.Pairwise fun a b => before a b = true := by
  induction lays with
  | nil => exact .nil
  | @cons top loaded others rest first lays ih =>
    obtain ⟨least, ascending⟩ := List.pairwise_cons.mp ascending
    refine List.pairwise_cons.mpr ⟨fun later member => ?_, ih ascending⟩
    obtain ⟨top, there, laid⟩ := mem_related lays member
    have less := least top there
    rw [← first.index, ← laid.index] at less
    simp only [before, first.priority, laid.priority, ↓reduceIte, decide_eq_true_eq]
    exact less.le

theorem initialisePreloading_placed {nodes : List Node} (leads : registry.OptionsLead)
    {assignment : Assignment} {loaded : LoadedStructure}
    (member : assignment ∈ (claimAll registry.preloading (topSections 0 nodes)).1)
    (taken : (initialisePreloading assignment workspace).1 = some loaded) :
    Placed registry nodes loaded := by
  have placed (first : LoadedStructure) (taken : (initialise assignment workspace).1 = some first) :
      Placed registry nodes first :=
    initialise_placed leads (claimAll_top_mem assignment member)
      (match?_of_claimed registry _ assignment member) taken
  unfold initialisePreloading at taken
  generalize initialise assignment workspace = result at *
  obtain ⟨first, after⟩ := result
  cases first with
  | none => cases taken
  | some first =>
    cases taken
    exact (placed first rfl).preload

theorem initialiseNormal_placed {nodes : List Node} (leads : registry.OptionsLead)
    {top : TopSection} {loaded : LoadedStructure}
    (member : top ∈ (claimAll registry.preloading (topSections 0 nodes)).2)
    (taken : (initialiseNormal registry.normal top workspace).1 = some loaded) :
    Placed registry nodes loaded := by
  unfold initialiseNormal at taken
  split at taken
  · next assignment found =>
    have matched := match?_of_left registry _ member found
    rw [claimAll_left] at member
    refine initialise_placed leads ?_ matched taken
    rw [assign?_top found]
    exact (List.mem_filter.mp member).1
  · cases taken

/-- Taking the headers of a script prepares its structures. -/
theorem initialiseAll_prepared (leads : registry.OptionsLead) (nodes : List Node)
    (none : workspace.context.currentOptions = .empty) :
    Prepared registry nodes (initialiseAll registry nodes workspace).1
      (initialiseAll registry nodes workspace).2 := by
  obtain ⟨lays, shown⟩ := preloading_shows leads nodes none
  obtain ⟨shows, others⟩ := each_normal
    (claimAll registry.preloading (topSections 0 nodes)).2 leads.normal shown
  have noOptions : (each (initialiseNormal registry.normal)
      (claimAll registry.preloading (topSections 0 nodes)).2
      (each initialisePreloading (claimAll registry.preloading (topSections 0 nodes)).1
        (reportPlain nodes workspace)).2).1.reduceOption.filter (·.inner.isOptions) = [] := by
    refine List.filter_eq_nil_iff.mpr fun loaded member => ?_
    rw [others loaded member]
    exact Bool.false_ne_true
  refine ⟨?_, List.pairwise_mergeSort before_trans before_total _, ?_, shows⟩
  · intro loaded member
    have there := List.reduceOption_mem_iff.mp (List.mem_mergeSort.mp member)
    rcases List.mem_append.mp there with early | late
    · obtain ⟨assignment, claimed, _, taken⟩ := mem_each early
      exact initialisePreloading_placed leads claimed taken.symm
    · obtain ⟨top, left, _, taken⟩ := mem_each late
      exact initialiseNormal_placed leads left taken.symm
  · have ascending := (topSections_sorted 0 nodes).filter
      fun top => registry.isOptions top.body.key
    unfold initialiseAll
    dsimp only
    rw [EventBus.filter_mergeSort before_trans before_total, List.reduceOption_append,
      List.filter_append, noOptions, List.append_nil,
      List.mergeSort_of_pairwise (Lays.sorted lays ascending)]
    exact lays

/-! ## What bodies see -/

/-- The section of options is loaded before the structure. -/
def reapplied (loaded : LoadedStructure) (top : TopSection) : Bool :=
  if loaded.priority = 10 then top.index < loaded.index else 10 < loaded.priority

namespace Prepared

variable {nodes : List Node} {structures earlier later : List LoadedStructure}
  {loaded : LoadedStructure} {after : Workspace}

theorem index_ne (prepared : Prepared registry nodes structures after)
    (member : loaded ∈ structures) (other : loaded.inner.isOptions = false) :
    ∀ top ∈ optionSections registry nodes, top.index ≠ loaded.index := by
  obtain ⟨own, ownMember, index, isOptions⟩ := (prepared.placed loaded member).place
  intro top options same
  obtain ⟨there, isOne⟩ := List.mem_filter.mp options
  rw [eq_of_index_eq there ownMember (same.trans index.symm), ← isOptions, other] at isOne
  cases isOne

/-- The sections of options that are loaded before a structure, in the order of the text. -/
theorem earlier_lays (prepared : Prepared registry nodes structures after)
    (split : structures = earlier ++ loaded :: later) (other : loaded.inner.isOptions = false) :
    List.Forall₂ Lays ((optionSections registry nodes).filter (reapplied loaded))
      (earlier.filter (·.inner.isOptions)) := by
  have apart := prepared.index_ne (split ▸ List.mem_append_right _ List.mem_cons_self) other
  obtain ⟨_, sorted, lays, _⟩ := prepared
  rw [split] at sorted lays
  obtain ⟨_, fromHere, toHere⟩ := List.pairwise_append.mp sorted
  rw [List.filter_append, List.filter_cons_of_neg (by rw [other]; exact Bool.false_ne_true)] at lays
  have first := List.forall₂_take_append _ _ _ lays
  have second := List.forall₂_drop_append _ _ _ lays
  have whole := List.take_append_drop (earlier.filter (·.inner.isOptions)).length
    (optionSections registry nodes)
  generalize (optionSections registry nodes).take (earlier.filter (·.inner.isOptions)).length =
    ahead at *
  generalize (optionSections registry nodes).drop (earlier.filter (·.inner.isOptions)).length =
    behind at *
  have isAhead : ∀ top ∈ ahead, reapplied loaded top = true := by
    intro top there
    obtain ⟨options, member, laid⟩ := mem_related first.flip there
    have precedes := toHere options (List.mem_filter.mp member).1 loaded List.mem_cons_self
    have differ := apart top (whole ▸ List.mem_append_left _ there)
    rw [before, laid.priority, laid.index] at precedes
    rw [reapplied]
    split at precedes <;> split <;> simp only [decide_eq_true_eq] at * <;> omega
  have isBehind : ∀ top ∈ behind, ¬ reapplied loaded top = true := by
    intro top there
    obtain ⟨options, member, laid⟩ := mem_related second.flip there
    have follows := (List.pairwise_cons.mp fromHere).1 options (List.mem_filter.mp member).1
    rw [before, laid.priority, laid.index] at follows
    rw [reapplied]
    split at follows <;> split <;> simp only [decide_eq_true_eq] at * <;> omega
  rw [← whole, List.filter_append, List.filter_eq_self.mpr isAhead,
    List.filter_eq_nil_iff.mpr isBehind, List.append_nil]
  exact first

end Prepared

/-- The workspace in which a structure of the script comes to be loaded, behind some others. -/
def atLoad (registry : Registry) (thread : Thread) (nodes : List Node)
    (earlier : List LoadedStructure) (workspace : Workspace) : Workspace :=
  (each (load thread) earlier (initialiseAll registry nodes workspace).2).2

theorem flatMap_overlay (structures : List LoadedStructure) :
    structures.flatMap (·.inner.overlay) =
      (structures.filter (·.inner.isOptions)).flatMap (·.inner.overlay) := by
  induction structures with
  | nil => rfl
  | cons first others ih =>
    rw [List.flatMap_cons, List.filter_cons]
    split
    · rw [List.flatMap_cons, ih]
    · next other =>
      have nothing : first.inner.overlay = [] := by
        cases inner : first.inner with
        | options options =>
          rw [inner] at other
          exact absurd rfl other
        | _ => rfl
      rw [nothing, List.nil_append, ih]

/-- A structure is loaded with the definitions of all sections of options, and with those of the
sections that are loaded before it once more behind them. -/
theorem atLoad_shows {nodes : List Node} {earlier later : List LoadedStructure}
    {loaded : LoadedStructure} (leads : registry.OptionsLead) (thread : Thread)
    (none : workspace.context.currentOptions = .empty)
    (split : (initialiseAll registry nodes workspace).1 = earlier ++ loaded :: later)
    (other : loaded.inner.isOptions = false) :
    (ready loaded (atLoad registry thread nodes earlier workspace)).Shows
      (definitionsOf (optionSections registry nodes) ++
        definitionsOf ((optionSections registry nodes).filter (reapplied loaded))) := by
  have prepared := initialiseAll_prepared leads nodes none
  have lays := prepared.earlier_lays split other
  refine ready_shows ((each_load_shows thread earlier prepared.shows).of_values fun key => ?_) other
  rw [Options.lastDefinition_append, Options.lastDefinition_append, flatMap_overlay,
    Lays.lastDefinition lays]

end Loading

/-! ## The standard structures -/

namespace Registry

variable {registry after : Registry}

theorem OptionsLead.add {descriptor : Descriptor} (leads : registry.OptionsLead)
    (others : descriptor.MakesOthers)
    (stays : ∀ order ∈ descriptor.order, ∃ first ∈ registry.preloading.head?,
      first.order.getD order ≤ order) : (registry.add descriptor).OptionsLead := by
  unfold Registry.add
  split
  · next order given =>
    obtain ⟨first, isFirst, least⟩ := stays order given
    obtain ⟨rest, preloading⟩ := List.head?_eq_some_iff.mp isFirst
    have kept : insertByOrder order descriptor registry.preloading =
        first :: insertByOrder order descriptor rest := by
      rw [preloading]
      simp only [insertByOrder, List.takeWhile_cons, List.dropWhile_cons, least, decide_true,
        ↓reduceIte, List.cons_append]
    refine ⟨?_, ?_⟩
    · dsimp only
      rw [kept]
      rintro _ ⟨⟩
      exact leads.first first isFirst
    · dsimp only
      rw [kept, List.tail_cons]
      intro other member
      have old {other : Descriptor} (there : other ∈ rest) : other.MakesOthers := by
        refine leads.others other (List.mem_append_left _ ?_)
        rwa [preloading, List.tail_cons]
      rcases List.mem_append.mp member with early | late
      · rcases List.mem_append.mp early with here | there
        · exact old ((List.takeWhile_sublist _).subset here)
        · rcases List.mem_cons.mp there with rfl | last
          · exact others
          · exact old ((List.dropWhile_sublist _).subset last)
      · exact leads.normal other late
  · refine ⟨leads.first, fun other member => ?_⟩
    rw [← List.append_assoc] at member
    rcases List.mem_append.mp member with old | new
    · exact leads.others other old
    · rw [List.mem_singleton.mp new]
      exact others

theorem OptionsLead.register {id : String} {order : Option Int} {create : Nat → Structure}
    {patterns : List String} (leads : registry.OptionsLead)
    (registers : registry.register id order create patterns = .ok after)
    (others : ∀ ticket, (create ticket).isOptions = false)
    (stays : ∀ new ∈ order, ∃ first ∈ registry.preloading.head?, first.order.getD new ≤ new) :
    after.OptionsLead := by
  unfold Registry.register at registers
  split at registers
  · cases Except.ok.inj registers
    exact leads
  · split at registers
    · cases registers
    · cases Except.ok.inj registers
      exact leads.add others stays

theorem OptionsLead.registerEvent {name : String} {classes : List String} {filter : EventFilter}
    {patterns : List String} (leads : registry.OptionsLead)
    (registers : registry.registerEvent name classes filter patterns = .ok after) :
    after.OptionsLead := by
  unfold Registry.registerEvent at registers
  dsimp only at registers
  split at registers
  · cases Except.ok.inj registers
    exact leads
  · split at registers
    · cases registers
    · cases Except.ok.inj registers
      exact leads.add (fun _ => rfl) fun _ absent => absurd absent (Option.not_mem_none _)

theorem registerStructures_lead (registers : registerStructures {} = .ok after) :
    after.OptionsLead := by
  simp only [registerStructures, bind_eq_ok] at registers
  obtain ⟨withOptions, options, withFunctions, functions, withAliases, aliases, withDefaults,
    defaults, commands⟩ := registers
  have first : ∃ patterns, withOptions =
      { preloading := [⟨⟨"options", some 10, patterns, none⟩, fun _ => .options {}⟩] } := by
    have unknown : Registry.contains {} "options" = false := rfl
    simp only [register, unknown, Bool.false_eq_true, ↓reduceIte] at options
    split at options
    · cases options
    · next patterns _ =>
      cases Except.ok.inj options
      exact ⟨patterns, rfl⟩
  obtain ⟨patterns, rfl⟩ := first
  have alone : OptionsLead
      { preloading := [⟨⟨"options", some 10, patterns, none⟩, fun _ => .options {}⟩] } := by
    refine ⟨?_, fun _ absent => absurd absent List.not_mem_nil⟩
    rintro _ ⟨⟩
    exact Or.inl fun _ => rfl
  have second := alone.register functions (fun _ => rfl) (by
    rintro _ ⟨⟩
    refine ⟨_, rfl, ?_⟩
    change (10 : Int) ≤ 20
    decide)
  have noOrder {registry : Registry} (new : Int) (absent : new ∈ (none : Option Int)) :
      ∃ first ∈ registry.preloading.head?, first.order.getD new ≤ new :=
    absurd absent (Option.not_mem_none _)
  have third := second.register aliases (fun _ => rfl) noOrder
  have fourth := third.register defaults (fun _ => rfl) noOrder
  exact fourth.register commands (fun _ => rfl) noOrder

/-- Only the first of the standard descriptors makes sections of options. -/
theorem standard_lead : standard.OptionsLead := by
  have empty : OptionsLead {} := ⟨fun _ absent => absurd absent (Option.not_mem_none _),
    fun _ absent => absurd absent List.not_mem_nil⟩
  have registered (registry : Registry) (found : standard? = .ok registry) :
      registry.OptionsLead := by
    obtain ⟨structures, first, events⟩ := bind_eq_ok.mp found
    simp only [registerEvents, bind_eq_ok] at events
    obtain ⟨_, chat, _, join, _, click, loads⟩ := events
    exact ((((registerStructures_lead first).registerEvent chat).registerEvent
      join).registerEvent click).registerEvent loads
  unfold standard
  generalize standard? = result at registered
  cases result with
  | error failure => exact empty
  | ok registry => exact registered registry rfl

end Registry

namespace Loading

variable {workspace : Workspace}

/-- **What options mean in bodies.** A script that becomes current is loaded with the standard
structures. Whatever event takes its header, the options are those of the last definitions in the
text, and so they are when a function reads its body. When a command reads its body, the definitions
that stand before the command have been laid over the others again: what it sees are the last
definitions just if none of those before it is defined otherwise behind it. -/
theorem bodies_see_options (thread : Thread) (script : Script) (nodes : List Node)
    (moves : Script.sameCurrent workspace.context.script (some script) = false) :
    let start := workspace.setScript thread (some script)
    let sections := optionSections .standard nodes
    (∀ earlier, (atHeader .standard nodes earlier start).Shows (definitionsOf sections)) ∧
      ∀ earlier loaded later,
        (initialiseAll .standard nodes start).1 = earlier ++ loaded :: later →
        let reading := ready loaded (atLoad .standard thread nodes earlier start)
        (∀ function, loaded.inner = .function function →
          reading.Shows (definitionsOf sections)) ∧
        ∀ command, loaded.inner = .command command →
          let before := definitionsOf (sections.filter (·.index < loaded.index))
          (∀ key, reading.bodyScope.options.get? key =
            (lastDefinition key before).or (lastDefinition key (definitionsOf sections))) ∧
          (reading.Shows (definitionsOf sections) ↔
            ∀ key value, lastDefinition key before = some value →
              lastDefinition key (definitionsOf sections) = some value) := by
  intro start sections
  have none : start.context.currentOptions = .empty := by
    simp only [start, Workspace.setScript_of_moves moves]
    change ((workspace.flush thread).context.options.map fun _ => Table.empty).getD .empty = _
    cases (workspace.flush thread).context.options <;> rfl
  have leads := Registry.standard_lead
  refine ⟨fun earlier => atHeader_shows leads nodes earlier none, ?_⟩
  intro earlier loaded later split reading
  have shows := atLoad_shows leads thread none split
  have prepared := initialiseAll_prepared leads nodes none
  have priority := (prepared.placed loaded
    (split ▸ List.mem_append_right _ List.mem_cons_self)).priority
  refine ⟨?_, ?_⟩
  · intro function isFunction
    rw [isFunction] at priority
    have every : sections.filter (reapplied loaded) = sections := by
      refine List.filter_eq_self.mpr fun top _ => ?_
      rw [reapplied, priority]
      rfl
    refine (shows (by rw [isFunction]; rfl)).of_values fun key => ?_
    rw [every, Options.lastDefinition_append, Option.or_self]
  · intro command isCommand before
    rw [isCommand] at priority
    have those : sections.filter (reapplied loaded) =
        sections.filter (·.index < loaded.index) := by
      refine List.filter_congr fun top _ => ?_
      rw [reapplied, priority]
      rfl
    have seen (key : String) : reading.bodyScope.options.get? key =
        (lastDefinition key before).or (lastDefinition key (definitionsOf sections)) := by
      rw [← Options.lastDefinition_append]
      simp only [before, ← those]
      exact shows (by rw [isCommand]; rfl) key
    refine ⟨seen, fun last key value isBefore => ?_, fun same key => ?_⟩
    · rw [← last key, seen, isBefore, Option.some_or]
    · rw [seen]
      cases isBefore : lastDefinition key before with
      | none => rw [Option.none_or]
      | some value => rw [same key value isBefore, Option.some_or]

/-- A section of options with one key. -/
def greetOptions (line : Nat) (value : String) : Section :=
  ⟨"options", line, [.simple ("greeting: " ++ value) (line + 1)]⟩

/-- A command that refers to the key. -/
def greetCommand : Section :=
  ⟨"command /greet", 3, [.nested "trigger" 4 [.simple "send \x7b@greeting\x7d" 5]]⟩

/-- The command between two sections that define the key. -/
def greetNodes : List Node :=
  [greetOptions 1 "hi", greetCommand, greetOptions 6 "bye"].map fun body =>
    .nested body.key body.line body.nodes

/-- The script with the command is the first one of its host. -/
def greetStart : Workspace :=
  ({} : Workspace).setScript .main (some ⟨⟨"greet.sk"⟩, 1⟩)

theorem greet_bodies_see_options :
    Script.sameCurrent ({} : Workspace).context.script (some ⟨⟨"greet.sk"⟩, 1⟩) = false ∧
      ∀ earlier, (atHeader .standard greetNodes earlier greetStart).Shows
        (definitionsOf (optionSections .standard greetNodes)) :=
  ⟨rfl, (bodies_see_options .main ⟨⟨"greet.sk"⟩, 1⟩ greetNodes rfl).1⟩

/-- A section of options has taken its header, at a place of the script. -/
def greetOptionsAt (index : Nat) (body : Section) : LoadedStructure :=
  ⟨.options (({} : OptionsStructure).init body {}).1, body.key, body.line, index, 10, false, false⟩

/-- The command has taken its header, at the second place. -/
def greetCommandAt : LoadedStructure :=
  ⟨.command { ticket := 0, header := "/greet", body := some greetCommand }, greetCommand.key,
    greetCommand.line, 1, 10, false, false⟩

/-- The script is read to its end: its options are preloaded, and everything is loaded in order. -/
def greetEnd : Workspace :=
  let options := [greetOptionsAt 0 (greetOptions 1 "hi"), greetOptionsAt 2 (greetOptions 6 "bye")]
  let (options, prepared) := each preload options greetStart
  (each (load .main) (options.take 1 ++ greetCommandAt :: options.drop 1) prepared).2

/-- The command sends the first definition, though the last one is another. -/
theorem greet_sends_first :
    before (greetOptionsAt 0 (greetOptions 1 "hi")) greetCommandAt = true ∧
      before greetCommandAt (greetOptionsAt 2 (greetOptions 6 "bye")) = true ∧
      lastDefinition "greeting" (OptionsStructure.definitions (greetOptions 1 "hi") ++
        OptionsStructure.definitions (greetOptions 6 "bye")) = some "bye" ∧
      (greetEnd.host.dispatch "greet" "").2.effects = ["send hi"] := by
  decide +kernel

end Loading

end ScriptBinding
