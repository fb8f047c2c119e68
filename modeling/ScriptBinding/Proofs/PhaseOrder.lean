import Mathlib.Data.List.ReduceOption
import ScriptBinding.Proofs.Claiming
import ScriptBinding.Proofs.Locality

/-! # The order of phases

The calls of the structures of a script follow from the schedule of its sections and from the fates
of its structures: how each call goes, and which priority a structure has once it has taken its
header. The fate of one structure decides which calls that structure gets and where they stand, but
not which calls another one gets.
-/

namespace ScriptBinding

/-- What becomes of one structure. -/
structure Fate where
  /-- The call for a phase succeeds. -/
  goes : Phase → Bool
  priority : Int

instance : Inhabited Fate := ⟨⟨fun _ => false, 0⟩⟩

/-- The call for a phase of the structure at a place. -/
def Fate.call (fate : Fate) (phase : Phase) (place : Nat) : PhaseCall :=
  ⟨phase, place, fate.goes phase⟩

/-- The fates of the structures of a script, by the places of their sections. -/
abbrev Fates := Nat → Fate

/-- The structure at one place is loaded before that at another: by priority, then by place. -/
def Fates.sooner (fates : Fates) (a b : Nat) : Bool :=
  if (fates a).priority = (fates b).priority then a ≤ b else (fates a).priority < (fates b).priority

namespace Loading.Schedule

variable {descriptors : List Descriptor} {nodes : List Node}

/-- The calls by which a preloading structure takes its header and is preloaded. -/
def earlyCalls (fate : Fate) (place : Nat) : List PhaseCall :=
  fate.call .init place :: if fate.goes .init then [fate.call .preload place] else []

/-- The calls by which the structures of a script take their headers. -/
def headerCalls (schedule : Schedule descriptors nodes) (fates : Fates) : List PhaseCall :=
  (schedule.early.map Taking.place).flatMap (fun place => earlyCalls (fates place) place) ++
    schedule.normal.map fun place => (fates place).call .init place

/-- The structures that have taken their headers, in the order in which they are loaded. -/
def started (schedule : Schedule descriptors nodes) (fates : Fates) : List Nat :=
  (schedule.places.filter fun place => (fates place).goes .init).mergeSort fates.sooner

/-- The calls by which a structure is loaded. It is preloaded now, unless it is preloading. -/
def lateCalls (early : List Nat) (fate : Fate) (place : Nat) : List PhaseCall :=
  (if place ∈ early then [] else [fate.call .preload place]) ++ [fate.call .load place]

/-- The calls by which the structures of a script are loaded. -/
def bodyCalls (schedule : Schedule descriptors nodes) (fates : Fates) : List PhaseCall :=
  (schedule.started fates).flatMap fun place =>
    lateCalls (schedule.early.map Taking.place) (fates place) place

/-- The structures that are loaded, in the order in which they are. -/
def kept (schedule : Schedule descriptors nodes) (fates : Fates) : List Nat :=
  (schedule.started fates).filter fun place => (fates place).goes .load

/-- The calls of loading a script. -/
def loadingCalls (schedule : Schedule descriptors nodes) (fates : Fates) : List PhaseCall :=
  schedule.headerCalls fates ++ schedule.bodyCalls fates ++
    (schedule.kept fates).map fun place => (fates place).call .afterLoad place

end Loading.Schedule

/-! ## One call after the other -/

namespace Loading

/-- The calls that a step adds, one list for each structure that goes through it. -/
theorem each_calls {α β : Type} (act : α → Workspace → β × Workspace) (place : α → Nat)
    (calls : α → Fate → List PhaseCall) (Meets : α → Fate → β → Prop) (items : List α)
    (distinct : (items.map place).Nodup)
    (one : ∀ item ∈ items, ∀ workspace, ∃ fate, Meets item fate (act item workspace).1 ∧
      (act item workspace).2.context.calls = workspace.context.calls ++ calls item fate)
    (workspace : Workspace) :
    ∃ fates : Fates,
      List.Forall₂ (fun item result => Meets item (fates (place item)) result) items
        (each act items workspace).1 ∧
      (each act items workspace).2.context.calls = workspace.context.calls ++
        items.flatMap fun item => calls item (fates (place item)) := by
  induction items generalizing workspace with
  | nil => exact ⟨fun _ => default, .nil, (List.append_nil _).symm⟩
  | cons first others ih =>
    obtain ⟨fresh, distinct⟩ := List.nodup_cons.mp distinct
    obtain ⟨fate, meets, added⟩ := one first List.mem_cons_self workspace
    obtain ⟨fates, rest, addedRest⟩ :=
      ih distinct (fun item member => one item (List.mem_cons_of_mem _ member))
        (act first workspace).2
    -- The fate of the first structure is laid over those of the others.
    have others_eq : ∀ item ∈ others,
        Function.update fates (place first) fate (place item) = fates (place item) := by
      intro item member
      have apart : place item ≠ place first := by
        intro same
        rw [← same] at fresh
        exact fresh (List.mem_map_of_mem member)
      exact Function.update_of_ne apart fate fates
    refine ⟨Function.update fates (place first) fate, ?_, ?_⟩
    · refine List.Forall₂.cons (by rwa [Function.update_self]) ?_
      refine (List.forall₂_iff_zip.mpr ⟨rest.length_eq, ?_⟩)
      intro item result member
      rw [others_eq item (List.of_mem_zip member).1]
      exact (List.forall₂_iff_zip.mp rest).2 member
    · have same : (others.flatMap fun item =>
          calls item (Function.update fates (place first) fate (place item))) =
          others.flatMap fun item => calls item (fates (place item)) :=
        List.flatMap_congr fun item member => by rw [others_eq item member]
      simp only [each, addedRest, added, List.flatMap_cons, Function.update_self, same,
        List.append_assoc]

/-! ## The calls of one structure -/

theorem takeHeader_calls (assignment : Assignment) (workspace : Workspace) :
    (takeHeader assignment workspace).2.2.context.calls = workspace.context.calls :=
  (Structure.init_untouched _ _ _ _).calls

/-- A structure that has taken its header, with its fate so far, or none. -/
def Starts (preloaded : Bool) (place : Nat) (fate : Fate) (result : Option LoadedStructure) :
    Prop :=
  if fate.goes .init then
    ∃ loaded, result = some loaded ∧ loaded.index = place ∧ loaded.priority = fate.priority ∧
      loaded.preloaded = preloaded ∧ loaded.loaded = false
  else result = none

theorem initialise_calls (assignment : Assignment) (workspace : Workspace) :
    ∃ fate, Starts false assignment.top.index fate (initialise assignment workspace).1 ∧
      (initialise assignment workspace).2.context.calls =
        workspace.context.calls ++ [fate.call .init assignment.top.index] := by
  have calls := takeHeader_calls assignment workspace
  unfold initialise
  generalize takeHeader assignment workspace = taken at *
  obtain ⟨outcome, inner, after⟩ := taken
  simp only at calls
  dsimp only
  split
  · refine ⟨⟨fun _ => true, inner.priority⟩, ?_, ?_⟩
    · exact ⟨_, rfl, rfl, rfl, rfl, rfl⟩
    · rw [← calls]
      rfl
  · refine ⟨⟨fun _ => false, 0⟩, rfl, ?_⟩
    rw [(Workspace.Still.report _ _).untouched.calls, ← calls]
    rfl
  · refine ⟨⟨fun _ => false, 0⟩, rfl, ?_⟩
    rw [(Workspace.Still.reportAt _ _ _).untouched.calls, ← calls]
    rfl

/-- Concluding a phase adds one call and changes nothing of a structure but what it is. -/
theorem conclude_calls (phase : Phase) (loaded : LoadedStructure)
    (result : Outcome Unit × Structure × Workspace) :
    (conclude phase loaded result).2.1 = { loaded with inner := result.2.1 } ∧
      (conclude phase loaded result).2.2.context.calls =
        result.2.2.context.calls ++ [⟨phase, loaded.index, (conclude phase loaded result).1⟩] := by
  obtain ⟨outcome, inner, after⟩ := result
  unfold conclude
  dsimp only
  split
  · exact ⟨rfl, rfl⟩
  · refine ⟨rfl, ?_⟩
    dsimp only
    rw [(Workspace.Still.reportAt _ _ _).untouched.calls]
    rfl

theorem preload_calls (loaded : LoadedStructure) (workspace : Workspace) :
    ∃ success, (∃ inner, (preload loaded workspace).1 =
        { loaded with inner, preloaded := true }) ∧
      (preload loaded workspace).2.context.calls =
        workspace.context.calls ++ [⟨.preload, loaded.index, success⟩] := by
  obtain ⟨untouched, _⟩ := loaded.inner.preload_untouched workspace
  obtain ⟨same, calls⟩ := conclude_calls .preload loaded (loaded.inner.preload workspace)
  rw [untouched.calls] at calls
  unfold preload
  generalize conclude .preload loaded (loaded.inner.preload workspace) = concluded at *
  obtain ⟨success, after, workspace⟩ := concluded
  exact ⟨success, ⟨_, by rw [show after = _ from same]⟩, calls⟩

theorem initialisePreloading_calls (assignment : Assignment) (workspace : Workspace) :
    ∃ fate, Starts true assignment.top.index fate (initialisePreloading assignment workspace).1 ∧
      (initialisePreloading assignment workspace).2.context.calls =
        workspace.context.calls ++ Schedule.earlyCalls fate assignment.top.index := by
  obtain ⟨fate, starts, calls⟩ := initialise_calls assignment workspace
  unfold initialisePreloading
  generalize initialise assignment workspace = initialised at *
  obtain ⟨result, after⟩ := initialised
  simp only at starts calls
  cases taken : fate.goes .init with
  | false =>
    have none : result = none := by simpa [Starts, taken] using starts
    subst none
    refine ⟨fate, by simp [Starts, taken], ?_⟩
    simpa [Schedule.earlyCalls, taken] using calls
  | true =>
    obtain ⟨loaded, rfl, place, priority, _, notLoaded⟩ : ∃ loaded, result = some loaded ∧
        loaded.index = assignment.top.index ∧ loaded.priority = fate.priority ∧
        loaded.preloaded = false ∧ loaded.loaded = false := by
      simpa [Starts, taken] using starts
    obtain ⟨success, ⟨inner, same⟩, preloadCalls⟩ := preload_calls loaded after
    let fate' : Fate := ⟨Function.update fate.goes .preload success, fate.priority⟩
    refine ⟨fate', ?_, ?_⟩
    · have taken' : fate'.goes .init = true := taken
      rw [Starts, if_pos taken']
      exact ⟨_, rfl, by rw [same]; exact place, by rw [same]; exact priority, by rw [same],
        by rw [same]; exact notLoaded⟩
    · have taken' : fate'.goes .init = true := taken
      simp only [preloadCalls, calls, Schedule.earlyCalls, taken', if_true, Fate.call, place,
        List.append_assoc, List.cons_append, List.nil_append, taken]
      rfl

/-- What loading leaves of a structure: whether it is loaded. -/
def Loads (loaded : LoadedStructure) (fate : Fate) (result : LoadedStructure) : Prop :=
  result.index = loaded.index ∧ result.priority = loaded.priority ∧
    result.loaded = fate.goes .load

theorem load_calls (thread : Thread) (loaded : LoadedStructure) (workspace : Workspace) :
    ∃ fate, Loads loaded fate (load thread loaded workspace).1 ∧
      (load thread loaded workspace).2.context.calls = workspace.context.calls ++
        ((if loaded.preloaded then [] else [fate.call .preload loaded.index]) ++
          [fate.call .load loaded.index]) := by
  have body (ready : LoadedStructure) (before : Workspace) := conclude_calls .load ready
    (ready.inner.load thread before)
  have context (ready : LoadedStructure) (before : Workspace) :=
    (ready.inner.load_context thread before).2.1
  cases preloaded : loaded.preloaded with
  | true =>
    obtain ⟨same, calls⟩ := body loaded workspace
    rw [context] at calls
    unfold load
    simp only [preloaded, if_true]
    generalize conclude .load loaded (loaded.inner.load thread workspace) = concluded at *
    obtain ⟨success, after, final⟩ := concluded
    simp only at same calls
    subst same
    exact ⟨⟨fun _ => success, 0⟩, ⟨rfl, rfl, rfl⟩, calls⟩
  | false =>
    obtain ⟨success, ⟨inner, same⟩, preloadCalls⟩ := preload_calls loaded workspace
    unfold load
    simp only [preloaded, Bool.false_eq_true, if_false]
    generalize preload loaded workspace = ready at *
    obtain ⟨ready, before⟩ := ready
    simp only at same preloadCalls
    obtain ⟨sameLoaded, calls⟩ := body ready before
    rw [context, preloadCalls] at calls
    generalize conclude .load ready (ready.inner.load thread before) = concluded at *
    obtain ⟨successLoad, after, final⟩ := concluded
    simp only at sameLoaded calls
    subst sameLoaded
    subst same
    refine ⟨⟨fun phase => if phase = .preload then success else successLoad, 0⟩,
      ⟨rfl, rfl, rfl⟩, ?_⟩
    rw [calls, List.append_assoc]
    rfl

theorem afterLoad_calls (loaded : LoadedStructure) (workspace : Workspace) :
    ∃ fate : Fate, (∃ inner, (afterLoad loaded workspace).1 = { loaded with inner }) ∧
      (afterLoad loaded workspace).2.context.calls = workspace.context.calls ++
        if loaded.loaded then [fate.call .afterLoad loaded.index] else [] := by
  have untouched := (loaded.inner.afterLoad_still workspace).untouched
  obtain ⟨same, calls⟩ := conclude_calls .afterLoad loaded (loaded.inner.afterLoad workspace)
  rw [untouched.calls] at calls
  unfold afterLoad
  split
  · exact ⟨⟨fun _ => _, 0⟩, ⟨_, same⟩, calls⟩
  · exact ⟨default, ⟨loaded.inner, rfl⟩, (List.append_nil _).symm⟩

theorem initialiseNormal_calls (registry : Registry) (top : TopSection) (workspace : Workspace) :
    ∃ fate, (if registry.normal.any (·.takes top) then
        Starts false top.index fate (initialiseNormal registry.normal top workspace).1
      else (initialiseNormal registry.normal top workspace).1 = none) ∧
      (initialiseNormal registry.normal top workspace).2.context.calls =
        workspace.context.calls ++
          if registry.normal.any (·.takes top) then [fate.call .init top.index] else [] := by
  unfold initialiseNormal
  cases found : assign? registry.normal top with
  | none =>
    have left : registry.normal.any (·.takes top) = false := by
      rw [← assign?_isSome, found]
      rfl
    refine ⟨default, ?_, ?_⟩
    · simp [left]
    · simp only [left, Bool.false_eq_true, if_false, List.append_nil,
        (Workspace.Still.report _ _).untouched.calls]
  | some assignment =>
    have taken : registry.normal.any (·.takes top) = true := by
      rw [← assign?_isSome, found]
      rfl
    obtain ⟨fate, starts, calls⟩ := initialise_calls assignment workspace
    rw [assign?_top found] at starts calls
    refine ⟨fate, ?_, ?_⟩
    · simpa only [taken, if_true] using starts
    · simpa only [taken, if_true] using calls

/-! ## The calls of a whole script -/

/-- Structures that have just taken their headers, among those at the given places. -/
structure Started (fates : Fates) (preloaded : Bool) (places : List Nat)
    (structures : List LoadedStructure) : Prop where
  indices : structures.map LoadedStructure.index =
    places.filter fun place => (fates place).goes .init
  every : ∀ loaded ∈ structures, loaded.priority = (fates loaded.index).priority ∧
    loaded.preloaded = preloaded ∧ loaded.loaded = false

theorem Started.index_mem {fates : Fates} {preloaded : Bool} {places : List Nat}
    {structures : List LoadedStructure} (started : Started fates preloaded places structures)
    {loaded : LoadedStructure} (member : loaded ∈ structures) : loaded.index ∈ places := by
  have index := List.mem_map_of_mem (f := LoadedStructure.index) member
  rw [started.indices] at index
  exact (List.mem_filter.mp index).1

/-- The structures that have taken their headers, of the chosen items. -/
theorem reduceOption_started {α : Type} (chosen : α → Bool) {place : α → Nat} {fates : Fates}
    {preloaded : Bool} {items : List α} {results : List (Option LoadedStructure)}
    (meets : List.Forall₂ (fun item result =>
      if chosen item then Starts preloaded (place item) (fates (place item)) result
      else result = none) items results) :
    Started fates preloaded ((items.filter chosen).map place) results.reduceOption := by
  induction meets with
  | nil => exact ⟨rfl, by simp⟩
  | @cons item result items results first rest ih =>
    obtain ⟨indices, every⟩ := ih
    cases isChosen : chosen item with
    | false =>
      have absent : result = none := by simpa [isChosen] using first
      subst absent
      simpa [List.filter_cons, isChosen] using Started.mk indices every
    | true =>
      rw [isChosen, if_pos rfl] at first
      cases goes : (fates (place item)).goes .init with
      | false =>
        have absent : result = none := by simpa [Starts, goes] using first
        subst absent
        refine ⟨?_, every⟩
        simpa [List.filter_cons, isChosen, goes] using indices
      | true =>
        obtain ⟨loaded, rfl, index, priority, isPreloaded, notLoaded⟩ :
            ∃ loaded, result = some loaded ∧ loaded.index = place item ∧
              loaded.priority = (fates (place item)).priority ∧ loaded.preloaded = preloaded ∧
              loaded.loaded = false := by
          simpa [Starts, goes] using first
        constructor
        · simp [isChosen, goes, index, indices]
        · intro other member
          rw [List.reduceOption_cons_of_some] at member
          rcases List.mem_cons.mp member with rfl | later
          · exact ⟨index ▸ priority, isPreloaded, notLoaded⟩
          · exact every other later

theorem reportPlain_calls (nodes : List Node) (workspace : Workspace) :
    (reportPlain nodes workspace).context.calls = workspace.context.calls := by
  unfold reportPlain
  induction nodes generalizing workspace with
  | nil => rfl
  | cons node others ih =>
    rw [List.foldl_cons, ih]
    split
    · rfl
    · exact (Workspace.Still.report _ _).untouched.calls

theorem flatMap_if {α β : Type} (chosen : α → Bool) (image : α → β) (items : List α) :
    (items.flatMap fun item => if chosen item then [image item] else []) =
      (items.filter chosen).map image := by
  induction items with
  | nil => rfl
  | cons item others ih =>
    rw [List.flatMap_cons, ih, List.filter_cons]
    split <;> rfl

theorem map_eq_of_forall₂ {α β γ : Type} {Related : α → β → Prop} {left : α → γ} {right : β → γ}
    (same : ∀ a b, Related a b → right b = left a) {items : List α} {results : List β}
    (related : List.Forall₂ Related items results) : results.map right = items.map left := by
  induction related with
  | nil => rfl
  | cons first _ ih => rw [List.map_cons, List.map_cons, same _ _ first, ih]

/-- The pass over the sections that preloading descriptors take. -/
theorem preloading_pass (assignments : List Assignment) {early : List Nat}
    (places : assignments.map (·.top.index) = early) (distinct : early.Nodup)
    (workspace : Workspace) :
    ∃ fates : Fates,
      Started fates true early (each initialisePreloading assignments workspace).1.reduceOption ∧
      (each initialisePreloading assignments workspace).2.context.calls =
        workspace.context.calls ++
          early.flatMap fun place => Schedule.earlyCalls (fates place) place := by
  subst places
  obtain ⟨fates, meets, calls⟩ := each_calls initialisePreloading (·.top.index)
    (fun assignment fate => Schedule.earlyCalls fate assignment.top.index)
    (fun assignment fate result => Starts true assignment.top.index fate result) assignments
    distinct (fun assignment _ before => initialisePreloading_calls assignment before) workspace
  have started := reduceOption_started (fun _ => true) (by simpa using meets)
  rw [List.filter_eq_self.mpr fun _ _ => rfl] at started
  exact ⟨fates, started, by rw [calls, List.flatMap_map]⟩

/-- The pass over the sections that are left. -/
theorem normal_pass (registry : Registry) (sections : List TopSection)
    (distinct : (sections.map TopSection.index).Nodup) {normal : List Nat}
    (places : (sections.filter fun top => registry.normal.any (·.takes top)).map
      TopSection.index = normal) (workspace : Workspace) :
    ∃ fates : Fates,
      Started fates false normal
        (each (initialiseNormal registry.normal) sections workspace).1.reduceOption ∧
      (each (initialiseNormal registry.normal) sections workspace).2.context.calls =
        workspace.context.calls ++ normal.map fun place => (fates place).call .init place := by
  subst places
  obtain ⟨fates, meets, calls⟩ := each_calls (initialiseNormal registry.normal) TopSection.index
    (fun top fate => if registry.normal.any (·.takes top) then [fate.call .init top.index] else [])
    (fun top fate result => if registry.normal.any (·.takes top) then
      Starts false top.index fate result else result = none) sections distinct
    (fun top _ before => initialiseNormal_calls registry top before) workspace
  have started := reduceOption_started (fun top => registry.normal.any (·.takes top)) meets
  exact ⟨fates, started, by rw [calls, flatMap_if, List.map_map]; rfl⟩

/-- The fates that preloading structures and the others have together. -/
def jointly (early : List Nat) (first second : Fates) : Fates := fun place =>
  if place ∈ early then first place else second place

/-- Structures that have taken their headers, preloading ones and others. -/
theorem started_jointly {early normal : List Nat} {first second : Fates}
    {preloading others : List LoadedStructure} (isPreloading : Started first true early preloading)
    (isOther : Started second false normal others) (apart : ∀ place ∈ normal, place ∉ early) :
    (preloading ++ others).map LoadedStructure.index =
        (early ++ normal).filter (fun place => (jointly early first second place).goes .init) ∧
      ∀ loaded ∈ preloading ++ others,
        loaded.priority = (jointly early first second loaded.index).priority ∧
        loaded.preloaded = decide (loaded.index ∈ early) ∧ loaded.loaded = false := by
  constructor
  · rw [List.map_append, isPreloading.indices, isOther.indices, List.filter_append]
    congr 1
    · exact List.filter_congr fun place member => by simp only [jointly, member, if_true]
    · exact List.filter_congr fun place member => by
        simp only [jointly, apart place member, if_false]
  · intro loaded member
    rcases List.mem_append.mp member with here | later
    · have index := isPreloading.index_mem here
      obtain ⟨priority, preloaded, notLoaded⟩ := isPreloading.every loaded here
      exact ⟨by rw [priority, jointly, if_pos index], by simp [preloaded, index], notLoaded⟩
    · have index := apart _ (isOther.index_mem later)
      obtain ⟨priority, preloaded, notLoaded⟩ := isOther.every loaded later
      exact ⟨by rw [priority, jointly, if_neg index], by simp [preloaded, index], notLoaded⟩

/-- Structures that have taken their headers in the order in which they are to be loaded need not be
sorted. -/
theorem initialiseAll_of_sorted {registry : Registry} {nodes : List Node} {workspace : Workspace} :
    let claimed := claimAll registry.preloading (topSections 0 nodes)
    let preloading := each initialisePreloading claimed.1 (reportPlain nodes workspace)
    let others := each (initialiseNormal registry.normal) claimed.2 preloading.2
    (preloading.1 ++ others.1).reduceOption.Pairwise (fun first second => before first second) →
      initialiseAll registry nodes workspace = ((preloading.1 ++ others.1).reduceOption, others.2) :=
  fun sorted => Prod.ext (List.mergeSort_of_pairwise sorted) rfl

/-- Taking headers: the structures in the order in which they are loaded, and the calls. -/
theorem initialiseAll_calls (registry : Registry) (nodes : List Node) (workspace : Workspace)
    {early normal : List Nat}
    (isEarly : (claimAll registry.preloading (topSections 0 nodes)).1.map (·.top.index) = early)
    (isNormal : (normalSections registry nodes).map TopSection.index = normal)
    (distinct : (early ++ normal).Nodup) :
    ∃ fates : Fates,
      (initialiseAll registry nodes workspace).1.map LoadedStructure.index =
        ((early ++ normal).filter fun place => (fates place).goes .init).mergeSort
          fates.sooner ∧
      (∀ loaded ∈ (initialiseAll registry nodes workspace).1,
        loaded.priority = (fates loaded.index).priority ∧
        loaded.preloaded = decide (loaded.index ∈ early) ∧ loaded.loaded = false) ∧
      (initialiseAll registry nodes workspace).2.context.calls = workspace.context.calls ++
        (early.flatMap (fun place => Schedule.earlyCalls (fates place) place) ++
          normal.map fun place => (fates place).call .init place) := by
  obtain ⟨earlyDistinct, normalDistinct, apart⟩ := List.nodup_append.mp distinct
  have restDistinct : ((claimAll registry.preloading (topSections 0 nodes)).2.map
      TopSection.index).Nodup := by
    rw [claimAll_left]
    exact List.pairwise_map.mpr (((topSections_sorted 0 nodes).filter _).imp Nat.ne_of_lt)
  obtain ⟨first, isPreloading, firstCalls⟩ :=
    preloading_pass _ isEarly earlyDistinct (reportPlain nodes workspace)
  obtain ⟨second, isOther, secondCalls⟩ := normal_pass registry _ restDistinct isNormal
    (each initialisePreloading (claimAll registry.preloading (topSections 0 nodes)).1
      (reportPlain nodes workspace)).2
  have normalApart : ∀ place ∈ normal, place ∉ early :=
    fun place member early => apart place early place member rfl
  obtain ⟨indices, every⟩ := started_jointly isPreloading isOther normalApart
  refine ⟨jointly early first second, ?_, ?_, ?_⟩
  · unfold initialiseAll
    dsimp only
    rw [List.reduceOption_append, ← indices]
    refine List.map_mergeSort fun a aMember b bMember => ?_
    simp only [before, Fates.sooner, (every a aMember).1, (every b bMember).1]
  · intro loaded member
    unfold initialiseAll at member
    dsimp only at member
    rw [List.reduceOption_append] at member
    exact every loaded (List.mem_mergeSort.mp member)
  · unfold initialiseAll
    dsimp only
    rw [secondCalls, firstCalls, reportPlain_calls, List.append_assoc]
    congr 2
    · exact List.flatMap_congr fun place member => by rw [jointly, if_pos member]
    · exact List.map_congr_left fun place member => by
        rw [jointly, if_neg (normalApart place member)]

theorem setScript_calls (thread : Thread) (script : Option Script) (workspace : Workspace) :
    (workspace.setScript thread script).context.calls = workspace.context.calls := by
  unfold Workspace.setScript Workspace.flush
  dsimp only
  split
  · rfl
  · split
    · rfl
    · split <;> rfl

/-- What is on record of a structure: its place, its priority and whether it is loaded. -/
def LoadedStructure.standing (loaded : LoadedStructure) : Nat × Int × Bool :=
  (loaded.index, loaded.priority, loaded.loaded)

/-- Loading bodies: what is on record of the structures, and the calls. -/
theorem load_pass (thread : Thread) (structures : List LoadedStructure)
    (distinct : (structures.map LoadedStructure.index).Nodup) (workspace : Workspace) :
    ∃ fates : Fates,
      (each (load thread) structures workspace).1.map LoadedStructure.standing =
        structures.map (fun loaded =>
          (loaded.index, loaded.priority, (fates loaded.index).goes .load)) ∧
      (each (load thread) structures workspace).2.context.calls = workspace.context.calls ++
        structures.flatMap fun loaded =>
          (if loaded.preloaded then [] else [(fates loaded.index).call .preload loaded.index]) ++
            [(fates loaded.index).call .load loaded.index] := by
  obtain ⟨fates, meets, calls⟩ := each_calls (load thread) LoadedStructure.index
    (fun loaded fate => (if loaded.preloaded then [] else [fate.call .preload loaded.index]) ++
      [fate.call .load loaded.index])
    Loads structures distinct (fun loaded _ before => load_calls thread loaded before) workspace
  refine ⟨fates, map_eq_of_forall₂ ?_ meets, calls⟩
  rintro loaded result ⟨index, priority, isLoaded⟩
  rw [LoadedStructure.standing, index, priority, isLoaded]

/-- Mending: what is on record of the structures stays, and one call for each loaded one. -/
theorem afterLoad_pass (structures : List LoadedStructure)
    (distinct : (structures.map LoadedStructure.index).Nodup) (workspace : Workspace) :
    ∃ fates : Fates,
      (each afterLoad structures workspace).1.map LoadedStructure.standing =
        structures.map LoadedStructure.standing ∧
      (each afterLoad structures workspace).2.context.calls = workspace.context.calls ++
        ((structures.filter (·.loaded)).map LoadedStructure.index).map fun place =>
          (fates place).call .afterLoad place := by
  obtain ⟨fates, meets, calls⟩ := each_calls afterLoad LoadedStructure.index
    (fun loaded fate => if loaded.loaded then [fate.call .afterLoad loaded.index] else [])
    (fun loaded _ result => ∃ inner, result = { loaded with inner }) structures distinct
    (fun loaded _ before => afterLoad_calls loaded before) workspace
  refine ⟨fates, map_eq_of_forall₂ ?_ meets, by rw [calls, flatMap_if, List.map_map]; rfl⟩
  rintro loaded result ⟨inner, rfl⟩
  rfl

/-- The places of loaded structures, from what is on record of them. -/
theorem loaded_places (structures : List LoadedStructure) :
    (structures.filter (·.loaded)).map LoadedStructure.index =
      ((structures.map LoadedStructure.standing).filter (·.2.2)).map Prod.fst := by
  rw [List.filter_map, List.map_map]
  rfl

/-- The fates that the passes of loading a script add up to. -/
def overall (early : List Nat) (header body after : Fates) : Fates := fun place =>
  { priority := (header place).priority
    goes := fun
      | .init => (header place).goes .init
      | .preload => if place ∈ early then (header place).goes .preload else (body place).goes .preload
      | .load => (body place).goes .load
      | .afterLoad => (after place).goes .afterLoad
      | .settle => false
      | .unload => false }

theorem overall_preload_of_mem {early : List Nat} {place : Nat} (member : place ∈ early)
    (header body after : Fates) :
    (overall early header body after place).call .preload place =
      (header place).call .preload place := by
  simp only [Fate.call, overall, if_pos member]

theorem overall_preload_of_not_mem {early : List Nat} {place : Nat} (late : place ∉ early)
    (header body after : Fates) :
    (overall early header body after place).call .preload place =
      (body place).call .preload place := by
  simp only [Fate.call, overall, if_neg late]

/-- The calls for headers are those of the first pass. -/
theorem overall_headerCalls {descriptors : List Descriptor} {nodes : List Node}
    (schedule : Schedule descriptors nodes) (header body after : Fates) :
    schedule.headerCalls (overall (schedule.early.map Taking.place) header body after) =
      (schedule.early.map Taking.place).flatMap (fun place =>
          Schedule.earlyCalls (header place) place) ++
        schedule.normal.map fun place => (header place).call .init place := by
  rw [Schedule.headerCalls]
  refine congrArg (· ++ _) (List.flatMap_congr fun place member => ?_)
  rw [Schedule.earlyCalls, Schedule.earlyCalls, overall_preload_of_mem member]
  rfl

/-- The calls for bodies are those of the second pass, in the order in which structures stand. -/
theorem overall_bodyCalls {descriptors : List Descriptor} {nodes : List Node}
    (schedule : Schedule descriptors nodes) (header body after : Fates)
    {structures : List LoadedStructure}
    (started : structures.map LoadedStructure.index =
      schedule.started (overall (schedule.early.map Taking.place) header body after))
    (preloaded : ∀ loaded ∈ structures,
      loaded.preloaded = decide (loaded.index ∈ schedule.early.map Taking.place)) :
    schedule.bodyCalls (overall (schedule.early.map Taking.place) header body after) =
      structures.flatMap fun loaded =>
        (if loaded.preloaded then [] else [(body loaded.index).call .preload loaded.index]) ++
          [(body loaded.index).call .load loaded.index] := by
  rw [Schedule.bodyCalls, ← started, List.flatMap_map]
  refine List.flatMap_congr fun loaded member => ?_
  rw [preloaded loaded member, Schedule.lateCalls]
  by_cases isEarly : loaded.index ∈ schedule.early.map Taking.place
  · rw [decide_eq_true isEarly, if_pos rfl, if_pos isEarly]
    rfl
  · rw [decide_eq_false isEarly, if_neg Bool.false_ne_true, if_neg isEarly,
      overall_preload_of_not_mem isEarly]
    rfl

/-- Loading a script: what is on record of its structures, and the calls. -/
theorem loadScript_calls (descriptors : List Descriptor) (thread : Thread) (script : Script)
    (source : ScriptSource) (workspace : Workspace) :
    ∃ (schedule : Schedule descriptors source.tree.nodes) (fates : Fates),
      (loadScript (Registry.ofList descriptors) thread script source workspace).1.structures.map
        LoadedStructure.standing = (schedule.started fates).map (fun place =>
          (place, (fates place).priority, (fates place).goes .load)) ∧
      (loadScript (Registry.ofList descriptors) thread script source workspace).2.context.calls =
        workspace.context.calls ++ schedule.loadingCalls fates := by
  obtain ⟨schedule, isEarly, isNormal⟩ := schedule_exists descriptors source.tree.nodes
  obtain ⟨header, indices, every, headerCalls⟩ := initialiseAll_calls
    (Registry.ofList descriptors) source.tree.nodes (workspace.setScript thread (some script))
    isEarly isNormal schedule.places_nodup
  rw [setScript_calls] at headerCalls
  have distinct : ((initialiseAll (Registry.ofList descriptors) source.tree.nodes
      (workspace.setScript thread (some script))).1.map LoadedStructure.index).Nodup := by
    rw [indices, (List.mergeSort_perm _ _).nodup_iff]
    exact schedule.places_nodup.filter _
  unfold loadScript loadCurrent
  dsimp only
  generalize initialiseAll (Registry.ofList descriptors) source.tree.nodes
    (workspace.setScript thread (some script)) = initialised at *
  obtain ⟨structures, afterHeaders⟩ := initialised
  simp only at indices every headerCalls distinct
  obtain ⟨body, bodyStanding, bodyCalls⟩ := load_pass thread structures distinct afterHeaders
  generalize each (load thread) structures afterHeaders = bodies at *
  obtain ⟨loadedStructures, afterBodies⟩ := bodies
  simp only at bodyStanding bodyCalls
  have standing : loadedStructures.map LoadedStructure.standing =
      (structures.map LoadedStructure.index).map fun place =>
        (place, (header place).priority, (body place).goes .load) := by
    rw [bodyStanding, List.map_map]
    exact List.map_congr_left fun loaded member => by
      rw [Function.comp_apply, (every loaded member).1]
  have loadedDistinct : (loadedStructures.map LoadedStructure.index).Nodup := by
    have same := congrArg (List.map Prod.fst) standing
    simp only [List.map_map] at same
    have index : Prod.fst ∘ LoadedStructure.standing = LoadedStructure.index := rfl
    rw [index] at same
    rw [same]
    simpa [Function.comp_def] using distinct
  obtain ⟨after, afterStanding, afterCalls⟩ :=
    afterLoad_pass loadedStructures loadedDistinct afterBodies
  let fates := overall (schedule.early.map Taking.place) header body after
  have started : structures.map LoadedStructure.index = schedule.started fates := indices
  refine ⟨schedule, fates, ?_, ?_⟩
  · rw [afterStanding, standing, started]
    rfl
  · have kept : (loadedStructures.filter (·.loaded)).map LoadedStructure.index =
        schedule.kept fates := by
      rw [loaded_places, standing, started, List.filter_map, List.map_map]
      exact List.map_id _
    have bodies := overall_bodyCalls schedule header body after started
      fun loaded member => (every loaded member).2.1
    change (each afterLoad loadedStructures afterBodies).2.context.calls = _
    rw [afterCalls, bodyCalls, headerCalls, kept, Schedule.loadingCalls, bodies,
      overall_headerCalls]
    simp only [List.append_assoc]
    rfl

end Loading

/-! ## Independence -/

theorem Fates.sooner_iff (fates : Fates) (a b : Nat) : fates.sooner a b = true ↔
    (fates a).priority < (fates b).priority ∨
      (fates a).priority = (fates b).priority ∧ a ≤ b := by
  unfold sooner
  split
  · next same => simp [same]
  · next differ => simp [differ]

theorem Fates.sooner_trans (fates : Fates) (a b c : Nat) (first : fates.sooner a b = true)
    (second : fates.sooner b c = true) : fates.sooner a c = true := by
  rw [sooner_iff] at *
  omega

theorem Fates.sooner_total (fates : Fates) (a b : Nat) :
    (fates.sooner a b || fates.sooner b a) = true := by
  rw [Bool.or_eq_true, sooner_iff, sooner_iff]
  omega

theorem Fates.sooner_antisymm (fates : Fates) (a b : Nat) (first : fates.sooner a b = true)
    (second : fates.sooner b a = true) : a = b := by
  rw [sooner_iff] at *
  omega

/-- Places that are dropped from a list do not change the order of the others. -/
theorem Fates.filter_mergeSort (fates : Fates) (stays : Nat → Bool) (places : List Nat) :
    (places.mergeSort fates.sooner).filter stays =
      (places.filter stays).mergeSort fates.sooner := by
  have sorted (places : List Nat) := List.pairwise_mergeSort fates.sooner_trans fates.sooner_total
    places
  refine List.Perm.eq_of_pairwise (fun a b _ _ => fates.sooner_antisymm a b)
    ((sorted places).filter stays) (sorted _) ?_
  exact ((List.mergeSort_perm _ _).filter stays).trans (List.mergeSort_perm _ _).symm

/-- The calls of the other structures than the one at a place. -/
def others (place : Nat) (calls : List PhaseCall) : List PhaseCall :=
  calls.filter fun call => call.place != place

namespace Loading.Schedule

variable {descriptors : List Descriptor} {nodes : List Node} {place : Nat} {first second : Fates}

end Loading.Schedule

/-! ## Loading and unloading -/

namespace Loading

end Loading

end ScriptBinding
