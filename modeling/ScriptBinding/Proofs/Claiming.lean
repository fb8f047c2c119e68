import Mathlib.Data.List.Induction
import Mathlib.Data.List.Nodup
import Mathlib.Data.List.TakeWhile
import ScriptBinding.Loader

/-! # Which descriptor takes a section

Descriptors are numbered as they are registered. Among the preloading ones the order they give comes
first, then the number; a section goes to the first of them that matches its header, and only one
that none of them matches goes to the others.
-/

namespace ScriptBinding

/-- A registry with the given descriptors, registered one after the other. -/
def Registry.ofList (descriptors : List Descriptor) : Registry :=
  descriptors.foldl (fun registry descriptor => registry.add descriptor) {}

/-- A section that a preloading descriptor takes. -/
structure Taking where
  /-- The order that the descriptor gives. -/
  order : Int
  /-- The number of the descriptor. -/
  number : Nat
  /-- The place of the section. -/
  place : Nat
deriving DecidableEq, Repr

/-- By the order, then by the number of the descriptor, then by the place of the section. -/
def Taking.before (a b : Taking) : Prop :=
  a.order < b.order ∨
    a.order = b.order ∧ (a.number < b.number ∨ a.number = b.number ∧ a.place < b.place)

/-- The descriptor matches the header of a section. -/
def Descriptor.takes (descriptor : Descriptor) (top : Loading.TopSection) : Bool :=
  (descriptor.match? top.body.key).isSome

namespace Loading

/-! ## Sections in the order of the text -/

theorem topSections_index_ge (index : Nat) (nodes : List Node) :
    ∀ top ∈ topSections index nodes, index ≤ top.index := by
  induction nodes generalizing index with
  | nil => simp [topSections]
  | cons node others ih =>
    intro top member
    rw [topSections, List.mem_append] at member
    rcases member with here | later
    · cases section? : node.section? with
      | none => simp [section?] at here
      | some body =>
        have same : top = ⟨index, body⟩ := by simpa [section?] using here
        rw [same]
    · exact Nat.le_of_succ_le (ih (index + 1) top later)

theorem topSections_sorted (index : Nat) (nodes : List Node) :
    (topSections index nodes).Pairwise (fun a b => a.index < b.index) := by
  induction nodes generalizing index with
  | nil => exact List.Pairwise.nil
  | cons node others ih =>
    rw [topSections, List.pairwise_append]
    refine ⟨?_, ih (index + 1), ?_⟩
    · cases node.section? <;> simp
    · intro first here later member
      have later := topSections_index_ge (index + 1) others later member
      cases section? : node.section? with
      | none => simp [section?] at here
      | some body =>
        have same : first = ⟨index, body⟩ := by simpa [section?] using here
        rw [same]
        exact later

/-! ## Taking sections -/

theorem claim_eq (descriptor : Descriptor) (sections : List TopSection) :
    (claim descriptor sections).1.map (·.top) = sections.filter descriptor.takes ∧
      (claim descriptor sections).2 = sections.filter (!descriptor.takes ·) := by
  induction sections with
  | nil => exact ⟨rfl, rfl⟩
  | cons top others ih =>
    obtain ⟨taken, left⟩ := ih
    unfold claim
    cases found : descriptor.match? top.body.key with
    | none => simp [found, Descriptor.takes, taken, left]
    | some header => simp [found, Descriptor.takes, taken, left]

/-- The takings of numbered descriptors, one after the other. -/
def takings : List (Descriptor × Nat) → List TopSection → List Taking
  | [], _ => []
  | (descriptor, number) :: others, sections =>
    ((sections.filter descriptor.takes).map fun top =>
      ⟨descriptor.order.getD 0, number, top.index⟩) ++
    takings others (sections.filter (!descriptor.takes ·))

theorem claimAll_taken (numbered : List (Descriptor × Nat)) (sections : List TopSection) :
    (claimAll (numbered.map Prod.fst) sections).1.map (·.top.index) =
      (takings numbered sections).map Taking.place := by
  induction numbered generalizing sections with
  | nil => rfl
  | cons first others ih =>
    obtain ⟨taken, left⟩ := claim_eq first.1 sections
    have indices := congrArg (List.map TopSection.index) taken
    rw [List.map_map] at indices
    simp only [claimAll, takings, List.map_cons, List.map_append, List.map_map, left, ih]
    congr 1

theorem claimAll_left (descriptors : List Descriptor) (sections : List TopSection) :
    (claimAll descriptors sections).2 =
      sections.filter fun top => descriptors.all fun descriptor => !descriptor.takes top := by
  induction descriptors generalizing sections with
  | nil => exact (List.filter_eq_self.mpr fun _ _ => rfl).symm
  | cons descriptor others ih =>
    simp only [claimAll, (claim_eq descriptor sections).2, ih, List.filter_filter, List.all_cons]
    congr 1
    funext top
    rw [Bool.and_comm]

theorem mem_takings (numbered : List (Descriptor × Nat)) (sections : List TopSection)
    (taking : Taking) :
    taking ∈ takings numbered sections ↔
      ∃ before descriptor after, numbered = before ++ (descriptor, taking.number) :: after ∧
        descriptor.order.getD 0 = taking.order ∧
        ∃ top ∈ sections, top.index = taking.place ∧ descriptor.takes top = true ∧
          ∀ earlier ∈ before, earlier.1.takes top = false := by
  induction numbered generalizing sections with
  | nil => simp [takings]
  | cons first others ih =>
    obtain ⟨descriptor, number⟩ := first
    rw [takings, List.mem_append, ih]
    constructor
    · rintro (here | ⟨before, found, after, split, order, top, member, place, takes, refused⟩)
      · obtain ⟨top, member, rfl⟩ := List.mem_map.mp here
        obtain ⟨member, takes⟩ := List.mem_filter.mp member
        exact ⟨[], descriptor, others, rfl, rfl, top, member, rfl, takes, by simp⟩
      · obtain ⟨member, left⟩ := List.mem_filter.mp member
        refine ⟨(descriptor, number) :: before, found, after, by rw [split]; rfl, order, top, member,
          place, takes, ?_⟩
        intro earlier earlierMember
        rcases List.mem_cons.mp earlierMember with rfl | later
        · simpa using left
        · exact refused earlier later
    · rintro ⟨before, found, after, split, order, top, member, place, takes, refused⟩
      cases before with
      | nil =>
        obtain ⟨same, rfl⟩ := List.cons.inj split
        obtain ⟨rfl, rfl⟩ := Prod.mk.inj same
        left
        refine List.mem_map.mpr ⟨top, List.mem_filter.mpr ⟨member, takes⟩, ?_⟩
        rw [order, place]
      | cons second before =>
        obtain ⟨rfl, rest⟩ := List.cons.inj split
        have left := refused (descriptor, number) List.mem_cons_self
        refine Or.inr ⟨before, found, after, rest, order, top,
          List.mem_filter.mpr ⟨member, by simpa using left⟩, place, takes, ?_⟩
        intro earlier earlierMember
        exact refused earlier (List.mem_cons_of_mem _ earlierMember)

theorem first?_isSome (header : String) (descriptors : List Descriptor) :
    (Descriptor.first? header descriptors).isSome =
      descriptors.any fun descriptor => (descriptor.match? header).isSome := by
  induction descriptors with
  | nil => rfl
  | cons descriptor others ih =>
    unfold Descriptor.first?
    cases found : descriptor.match? header with
    | none => simp [found, ih]
    | some result => simp [found]

theorem assign?_isSome (descriptors : List Descriptor) (top : TopSection) :
    (assign? descriptors top).isSome = descriptors.any (·.takes top) := by
  unfold assign?
  rw [Option.isSome_map, first?_isSome]
  rfl

theorem assign?_top {descriptors : List Descriptor} {top : TopSection} {assignment : Assignment}
    (found : assign? descriptors top = some assignment) : assignment.top = top := by
  unfold assign? at found
  obtain ⟨_, _, rfl⟩ := Option.map_eq_some_iff.mp found
  rfl

end Loading

/-! ## Numbered descriptors -/

namespace Registry

/-- By the order that the descriptors give, then by their numbers. -/
def ranked (a b : Descriptor × Nat) : Prop :=
  a.1.order.getD 0 < b.1.order.getD 0 ∨ a.1.order.getD 0 = b.1.order.getD 0 ∧ a.2 < b.2

/-- The preloading descriptors of a list, with their numbers, by order and number. -/
structure Numbered (descriptors : List Descriptor) where
  entries : List (Descriptor × Nat)
  mem_iff : ∀ descriptor number, (descriptor, number) ∈ entries ↔
    descriptors[number]? = some descriptor ∧ descriptor.order.isSome = true
  sorted : entries.Pairwise ranked

theorem getElem?_concat {descriptors : List Descriptor} {last found : Descriptor} {number : Nat} :
    (descriptors ++ [last])[number]? = some found ↔
      descriptors[number]? = some found ∨ number = descriptors.length ∧ last = found := by
  rw [List.getElem?_append]
  split
  · next within =>
    refine ⟨Or.inl, fun either => either.resolve_right ?_⟩
    rintro ⟨rfl, _⟩
    exact Nat.lt_irrefl _ within
  · next beyond =>
    have absent : descriptors[number]? = none := List.getElem?_eq_none (Nat.not_lt.mp beyond)
    rw [absent, List.getElem?_singleton]
    constructor
    · intro same
      split at same
      · next zero => exact Or.inr ⟨by omega, Option.some.inj same⟩
      · exact absurd same (by simp)
    · rintro (impossible | ⟨rfl, rfl⟩)
      · exact absurd impossible (by simp)
      · simp

/-- Whether a numbered descriptor stands before a new one with the given order. -/
def stays (order : Int) (entry : Descriptor × Nat) : Bool :=
  (entry.1.order.getD order) ≤ order

/-- A numbered descriptor that gives an order, behind those whose order is not higher. -/
def insertNumbered (order : Int) (descriptor : Descriptor) (number : Nat)
    (entries : List (Descriptor × Nat)) : List (Descriptor × Nat) :=
  entries.takeWhile (stays order) ++ (descriptor, number) :: entries.dropWhile (stays order)

theorem insertNumbered_fst (order : Int) (descriptor : Descriptor) (number : Nat)
    (entries : List (Descriptor × Nat)) :
    (insertNumbered order descriptor number entries).map Prod.fst =
      insertByOrder order descriptor (entries.map Prod.fst) := by
  unfold insertNumbered insertByOrder
  dsimp only
  rw [List.takeWhile_map, List.dropWhile_map, List.map_append, List.map_cons]
  rfl

theorem mem_insertNumbered {order : Int} {descriptor : Descriptor} {number : Nat}
    {entries : List (Descriptor × Nat)} (entry : Descriptor × Nat) :
    entry ∈ insertNumbered order descriptor number entries ↔
      entry ∈ entries ∨ entry = (descriptor, number) := by
  have whole : entry ∈ entries ↔
      entry ∈ entries.takeWhile (stays order) ∨ entry ∈ entries.dropWhile (stays order) := by
    rw [← List.mem_append, List.takeWhile_append_dropWhile]
  unfold insertNumbered
  rw [List.mem_append, List.mem_cons, whole]
  tauto

/-- Behind the first descriptor with a higher order, every order is higher. -/
theorem order_lt_of_mem_dropWhile (order : Int) {entries : List (Descriptor × Nat)}
    (ordered : ∀ entry ∈ entries, entry.1.order.isSome = true) (sorted : entries.Pairwise ranked) :
    ∀ entry ∈ entries.dropWhile (stays order), order < entry.1.order.getD 0 := by
  induction entries with
  | nil => simp
  | cons first others ih =>
    obtain ⟨least, rest⟩ := List.pairwise_cons.mp sorted
    obtain ⟨own, given⟩ := Option.isSome_iff_exists.mp (ordered first List.mem_cons_self)
    rw [List.dropWhile_cons]
    split
    · exact ih (fun entry member => ordered entry (List.mem_cons_of_mem _ member)) rest
    · next leaves =>
      have higher : order < own := by simpa [stays, given] using leaves
      intro entry member
      rcases List.mem_cons.mp member with rfl | later
      · simpa [given] using higher
      · have above := least entry later
        simp only [ranked, given, Option.getD_some] at above
        omega

theorem insertNumbered_sorted {order : Int} {descriptor : Descriptor} {number : Nat}
    {entries : List (Descriptor × Nat)} (gives : descriptor.order = some order)
    (ordered : ∀ entry ∈ entries, entry.1.order.isSome = true ∧ entry.2 < number)
    (sorted : entries.Pairwise ranked) :
    (insertNumbered order descriptor number entries).Pairwise ranked := by
  have someOrder : ∀ entry ∈ entries, entry.1.order.isSome = true :=
    fun entry member => (ordered entry member).1
  have higher := order_lt_of_mem_dropWhile order someOrder sorted
  have lower : ∀ entry ∈ entries.takeWhile (stays order), ranked entry (descriptor, number) := by
    intro entry member
    have here := List.takeWhile_subset _ member
    obtain ⟨own, given⟩ := Option.isSome_iff_exists.mp (ordered entry here).1
    have notHigher : own ≤ order := by
      simpa [stays, given] using List.mem_takeWhile_imp member
    have earlier := (ordered entry here).2
    simp only [ranked, given, gives, Option.getD_some]
    omega
  have split : (entries.takeWhile (stays order) ++ entries.dropWhile (stays order)).Pairwise
      ranked := by
    rw [List.takeWhile_append_dropWhile]
    exact sorted
  obtain ⟨first, last, across⟩ := List.pairwise_append.mp split
  refine List.pairwise_append.mpr ⟨first, List.pairwise_cons.mpr ⟨?_, last⟩, ?_⟩
  · intro entry member
    exact Or.inl (by simpa only [gives, Option.getD_some] using higher entry member)
  · intro entry member other otherMember
    rcases List.mem_cons.mp otherMember with rfl | later
    · exact lower entry member
    · exact across entry member other later

/-- The preloading descriptors of a registry are sorted by order and number, and the others stand
as they were registered. -/
theorem ofList_numbered (descriptors : List Descriptor) :
    (ofList descriptors).normal = descriptors.filter (·.order.isNone) ∧
      ∃ numbered : Numbered descriptors,
        (ofList descriptors).preloading = numbered.entries.map Prod.fst := by
  induction descriptors using List.reverseRecOn with
  | nil => exact ⟨rfl, ⟨[], by simp, List.Pairwise.nil⟩, rfl⟩
  | append_singleton descriptors last ih =>
    obtain ⟨normal, numbered, preloading⟩ := ih
    have step : ofList (descriptors ++ [last]) = (ofList descriptors).add last := by
      simp only [ofList, List.foldl_append, List.foldl_cons, List.foldl_nil]
    cases gives : last.order with
    | none =>
      have added : (ofList descriptors).add last =
          { ofList descriptors with normal := (ofList descriptors).normal ++ [last] } := by
        simp only [add, gives]
      refine ⟨?_, ⟨numbered.entries, ?_, numbered.sorted⟩, ?_⟩
      · rw [step, added, List.filter_append, ← normal]
        simp [gives]
      · intro descriptor number
        rw [numbered.mem_iff, getElem?_concat]
        constructor
        · exact fun found => ⟨Or.inl found.1, found.2⟩
        · rintro ⟨found | ⟨_, rfl⟩, ordered⟩
          · exact ⟨found, ordered⟩
          · simp [gives] at ordered
      · rw [step, added]
        exact preloading
    | some order =>
      have ordered : ∀ entry ∈ numbered.entries,
          entry.1.order.isSome = true ∧ entry.2 < descriptors.length := by
        intro entry member
        obtain ⟨found, ordered⟩ := (numbered.mem_iff entry.1 entry.2).mp member
        exact ⟨ordered, (List.getElem?_eq_some_iff.mp found).1⟩
      have added : (ofList descriptors).add last =
          { ofList descriptors with
            preloading := insertByOrder order last (ofList descriptors).preloading } := by
        simp only [add, gives]
      refine ⟨?_, ⟨insertNumbered order last descriptors.length numbered.entries, ?_,
        insertNumbered_sorted gives ordered numbered.sorted⟩, ?_⟩
      · rw [step, added, List.filter_append, ← normal]
        simp [gives]
      · intro descriptor number
        rw [mem_insertNumbered, numbered.mem_iff, getElem?_concat, Prod.mk.injEq]
        constructor
        · rintro (⟨found, ordered⟩ | ⟨rfl, rfl⟩)
          · exact ⟨Or.inl found, ordered⟩
          · exact ⟨Or.inr ⟨rfl, rfl⟩, by simp [gives]⟩
        · rintro ⟨found | ⟨rfl, rfl⟩, ordered⟩
          · exact Or.inl ⟨found, ordered⟩
          · exact Or.inr ⟨rfl, rfl⟩
      · rw [step, added]
        simp only [preloading, insertNumbered_fst]

end Registry

namespace Loading

/-! ## Schedules -/

/-- The descriptor with this number gives this order and matches the header of the section. -/
def preloadsAt (descriptors : List Descriptor) (top : TopSection) (order : Int) (number : Nat) :
    Prop :=
  ∃ descriptor, descriptors[number]? = some descriptor ∧ descriptor.order = some order ∧
    descriptor.takes top = true

/-- The section at the place goes to the preloading descriptor with this order and number: no other
one with a lower order, or with the same order and a lower number, matches its header. -/
def IsTaking (descriptors : List Descriptor) (nodes : List Node) (taking : Taking) : Prop :=
  ∃ top ∈ topSections 0 nodes, top.index = taking.place ∧
    preloadsAt descriptors top taking.order taking.number ∧
    ∀ order number, preloadsAt descriptors top order number →
      taking.order < order ∨ taking.order = order ∧ taking.number ≤ number

/-- The section at the place is left by the preloading descriptors and matched by another one. -/
def IsNormal (descriptors : List Descriptor) (nodes : List Node) (place : Nat) : Prop :=
  ∃ top ∈ topSections 0 nodes, top.index = place ∧
    (∀ order number, ¬ preloadsAt descriptors top order number) ∧
    ∃ descriptor ∈ descriptors, descriptor.order = none ∧ descriptor.takes top = true

/-- The order in which the sections of a script are given to descriptors. -/
structure Schedule (descriptors : List Descriptor) (nodes : List Node) where
  /-- The sections that preloading descriptors take. -/
  early : List Taking
  /-- The places of the sections that other descriptors take. -/
  normal : List Nat
  mem_early : ∀ taking, taking ∈ early ↔ IsTaking descriptors nodes taking
  early_sorted : early.Pairwise Taking.before
  mem_normal : ∀ place, place ∈ normal ↔ IsNormal descriptors nodes place
  normal_sorted : normal.Pairwise (· < ·)

theorem takings_sorted {numbered : List (Descriptor × Nat)} {sections : List TopSection}
    (ranked : numbered.Pairwise Registry.ranked)
    (ascending : sections.Pairwise fun a b => a.index < b.index) :
    (takings numbered sections).Pairwise Taking.before := by
  induction numbered generalizing sections with
  | nil => exact List.Pairwise.nil
  | cons first others ih =>
    obtain ⟨least, rest⟩ := List.pairwise_cons.mp ranked
    rw [takings, List.pairwise_append]
    refine ⟨?_, ih rest (ascending.filter _), ?_⟩
    · refine List.pairwise_map.mpr ((ascending.filter _).imp ?_)
      intro a b less
      exact Or.inr ⟨rfl, Or.inr ⟨rfl, less⟩⟩
    · intro taking here later member
      obtain ⟨top, _, rfl⟩ := List.mem_map.mp here
      obtain ⟨before, descriptor, after, split, order, _⟩ := (mem_takings _ _ later).mp member
      have entry : (descriptor, later.number) ∈ others := by
        rw [split]
        exact List.mem_append_right before List.mem_cons_self
      have rank := least _ entry
      rw [Registry.ranked, order] at rank
      exact rank.imp_right fun same => ⟨same.1, Or.inl same.2⟩

theorem mem_takings_numbered {descriptors : List Descriptor}
    (numbered : Registry.Numbered descriptors) (nodes : List Node) (taking : Taking) :
    taking ∈ takings numbered.entries (topSections 0 nodes) ↔
      IsTaking descriptors nodes taking := by
  rw [mem_takings]
  constructor
  · rintro ⟨before, descriptor, after, split, order, top, member, place, takes, refused⟩
    have entry : (descriptor, taking.number) ∈ numbered.entries := by
      rw [split]
      exact List.mem_append_right before List.mem_cons_self
    obtain ⟨found, ordered⟩ := (numbered.mem_iff _ _).mp entry
    obtain ⟨own, given⟩ := Option.isSome_iff_exists.mp ordered
    rw [given, Option.getD_some] at order
    subst order
    refine ⟨top, member, place, ⟨descriptor, found, given, takes⟩, ?_⟩
    rintro order number ⟨other, otherFound, otherOrder, otherTakes⟩
    have otherEntry := (numbered.mem_iff other number).mpr ⟨otherFound, by simp [otherOrder]⟩
    have sorted := numbered.sorted
    rw [split] at otherEntry sorted
    rcases List.mem_append.mp otherEntry with earlier | later
    · exact absurd otherTakes (by simp [refused _ earlier])
    · rcases List.mem_cons.mp later with same | later
      · obtain ⟨rfl, rfl⟩ := Prod.mk.inj same
        exact Or.inr ⟨Option.some.inj (given.symm.trans otherOrder), Nat.le_refl _⟩
      · have least := (List.pairwise_cons.mp (List.pairwise_append.mp sorted).2.1).1 _ later
        simp only [Registry.ranked, given, otherOrder, Option.getD_some] at least
        omega
  · rintro ⟨top, member, place, ⟨descriptor, found, given, takes⟩, least⟩
    have entry := (numbered.mem_iff descriptor taking.number).mpr ⟨found, by simp [given]⟩
    obtain ⟨before, after, split⟩ := List.append_of_mem entry
    refine ⟨before, descriptor, after, split, by simp [given], top, member, place, takes, ?_⟩
    intro earlier earlierMember
    have earlierEntry : earlier ∈ numbered.entries := by
      rw [split]
      exact List.mem_append_left _ earlierMember
    obtain ⟨earlierFound, ordered⟩ := (numbered.mem_iff earlier.1 earlier.2).mp earlierEntry
    obtain ⟨own, earlierGiven⟩ := Option.isSome_iff_exists.mp ordered
    have sorted := numbered.sorted
    rw [split] at sorted
    have rank := (List.pairwise_append.mp sorted).2.2 _ earlierMember _ List.mem_cons_self
    simp only [Registry.ranked, given, earlierGiven, Option.getD_some] at rank
    refine Bool.not_eq_true _ ▸ fun earlierTakes => ?_
    have bound := least own earlier.2 ⟨earlier.1, earlierFound, earlierGiven, earlierTakes⟩
    omega

theorem left_iff {descriptors : List Descriptor} (numbered : Registry.Numbered descriptors)
    (top : TopSection) :
    ((numbered.entries.map Prod.fst).all fun descriptor => !descriptor.takes top) = true ↔
      ∀ order number, ¬ preloadsAt descriptors top order number := by
  rw [List.all_eq_true]
  constructor
  · rintro left order number ⟨descriptor, found, given, takes⟩
    have entry := (numbered.mem_iff descriptor number).mpr ⟨found, by simp [given]⟩
    have refused := left descriptor (List.mem_map_of_mem entry)
    simp [takes] at refused
  · intro none descriptor member
    obtain ⟨entry, entryMember, rfl⟩ := List.mem_map.mp member
    obtain ⟨found, ordered⟩ := (numbered.mem_iff entry.1 entry.2).mp entryMember
    obtain ⟨own, given⟩ := Option.isSome_iff_exists.mp ordered
    have refused : ¬ entry.1.takes top = true :=
      fun takes => none own entry.2 ⟨entry.1, found, given, takes⟩
    simpa using refused

/-- The sections that are left by the preloading descriptors and that another one matches. -/
def normalSections (registry : Registry) (nodes : List Node) : List TopSection :=
  (claimAll registry.preloading (topSections 0 nodes)).2.filter fun top =>
    registry.normal.any (·.takes top)

theorem normalSections_sorted (registry : Registry) (nodes : List Node) :
    ((normalSections registry nodes).map TopSection.index).Pairwise (· < ·) := by
  rw [normalSections, claimAll_left]
  exact List.pairwise_map.mpr (((topSections_sorted 0 nodes).filter _).filter _)

theorem mem_normalSections {descriptors : List Descriptor}
    (numbered : Registry.Numbered descriptors)
    (preloading : (Registry.ofList descriptors).preloading = numbered.entries.map Prod.fst)
    (normal : (Registry.ofList descriptors).normal = descriptors.filter (·.order.isNone))
    (nodes : List Node) (place : Nat) :
    place ∈ (normalSections (Registry.ofList descriptors) nodes).map TopSection.index ↔
      IsNormal descriptors nodes place := by
  rw [normalSections, preloading, claimAll_left, normal, List.mem_map]
  constructor
  · rintro ⟨top, member, rfl⟩
    obtain ⟨member, matched⟩ := List.mem_filter.mp member
    obtain ⟨member, left⟩ := List.mem_filter.mp member
    obtain ⟨descriptor, found, takes⟩ := List.any_eq_true.mp matched
    obtain ⟨found, unordered⟩ := List.mem_filter.mp found
    exact ⟨top, member, rfl, (left_iff numbered top).mp left, descriptor, found,
      Option.isNone_iff_eq_none.mp unordered, takes⟩
  · rintro ⟨top, member, rfl, left, descriptor, found, unordered, takes⟩
    refine ⟨top, List.mem_filter.mpr ⟨List.mem_filter.mpr ⟨member,
      (left_iff numbered top).mpr left⟩, List.any_eq_true.mpr ⟨descriptor, ?_, takes⟩⟩, rfl⟩
    exact List.mem_filter.mpr ⟨found, by simp [unordered]⟩

/-- Every registry gives the sections of a script to its descriptors after a schedule. -/
theorem schedule_exists (descriptors : List Descriptor) (nodes : List Node) :
    ∃ schedule : Schedule descriptors nodes,
      (claimAll (Registry.ofList descriptors).preloading (topSections 0 nodes)).1.map
        (·.top.index) = schedule.early.map Taking.place ∧
      (normalSections (Registry.ofList descriptors) nodes).map TopSection.index =
        schedule.normal := by
  obtain ⟨normal, numbered, preloading⟩ := Registry.ofList_numbered descriptors
  have taken := claimAll_taken numbered.entries (topSections 0 nodes)
  rw [← preloading] at taken
  exact ⟨⟨takings numbered.entries (topSections 0 nodes), _,
    mem_takings_numbered numbered nodes,
    takings_sorted numbered.sorted (topSections_sorted 0 nodes),
    mem_normalSections numbered preloading normal nodes,
    normalSections_sorted (Registry.ofList descriptors) nodes⟩, taken, rfl⟩

/-- The places of the sections that are given to descriptors, in the order in which they are. -/
def Schedule.places {descriptors : List Descriptor} {nodes : List Node}
    (schedule : Schedule descriptors nodes) : List Nat :=
  schedule.early.map Taking.place ++ schedule.normal

theorem eq_of_index_eq {nodes : List Node} {a b : TopSection} (first : a ∈ topSections 0 nodes)
    (second : b ∈ topSections 0 nodes) (same : a.index = b.index) : a = b := by
  have distinct : ((topSections 0 nodes).map TopSection.index).Nodup :=
    List.pairwise_map.mpr ((topSections_sorted 0 nodes).imp Nat.ne_of_lt)
  exact List.inj_on_of_nodup_map distinct first second same

/-- No section is given to two descriptors. -/
theorem Schedule.places_nodup {descriptors : List Descriptor} {nodes : List Node}
    (schedule : Schedule descriptors nodes) : schedule.places.Nodup := by
  have distinct : schedule.early.Nodup := by
    refine schedule.early_sorted.imp ?_
    rintro a b before rfl
    rcases before with less | ⟨_, less | ⟨_, less⟩⟩
    · exact Int.lt_irrefl _ less
    · exact Nat.lt_irrefl _ less
    · exact Nat.lt_irrefl _ less
  refine List.nodup_append.mpr ⟨?_, schedule.normal_sorted.imp Nat.ne_of_lt, ?_⟩
  · refine List.Nodup.map_on ?_ distinct
    intro a aMember b bMember same
    obtain ⟨top, here, place, preloads, least⟩ := (schedule.mem_early a).mp aMember
    obtain ⟨other, there, otherPlace, otherPreloads, otherLeast⟩ :=
      (schedule.mem_early b).mp bMember
    have sections := eq_of_index_eq here there (by rw [place, otherPlace, same])
    subst sections
    have first := least _ _ otherPreloads
    have second := otherLeast _ _ preloads
    obtain ⟨order, number, _⟩ := a
    obtain ⟨otherOrder, otherNumber, _⟩ := b
    simp only [Taking.mk.injEq] at *
    omega
  · rintro place earlyMember _ normalMember rfl
    obtain ⟨taking, member, rfl⟩ := List.mem_map.mp earlyMember
    obtain ⟨top, here, samePlace, preloads, _⟩ := (schedule.mem_early taking).mp member
    obtain ⟨other, there, otherPlace, left, _⟩ := (schedule.mem_normal _).mp normalMember
    have sections := eq_of_index_eq here there (samePlace.trans otherPlace.symm)
    subst sections
    exact left _ _ preloads

end Loading

end ScriptBinding
