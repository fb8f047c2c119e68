import ScriptBinding.Regex.CharSet

/-! # What sets of characters contain

Every set that can be written has ranges that are in order and end at characters. For such sets the
operations are those of sets, and a set with a single code point has a single character.
-/

namespace ScriptBinding

namespace Text

/-- A code point belongs to a character, or has one next to it on the lower side. -/
def beginsRange (point : Nat) : Bool :=
  point ≤ 0x10FFFF && (point ≤ 0xD800 || 0xDFFF < point)

/-- A code point belongs to a character, or has one next to it on the upper side. -/
def endsRange (point : Nat) : Bool :=
  point ≤ 0x10FFFF && (point < 0xD800 || 0xDFFF ≤ point)

/-- A range is in order, and does not begin or end among code points that belong to no character. -/
structure ProperRange (range : Nat × Nat) : Prop where
  ordered : range.1 ≤ range.2
  begins : beginsRange range.1 = true
  ends : endsRange range.2 = true

instance (range : Nat × Nat) : Decidable (ProperRange range) :=
  decidable_of_iff (range.1 ≤ range.2 ∧ beginsRange range.1 = true ∧ endsRange range.2 = true)
    ⟨fun ⟨ordered, begins, ends⟩ => ⟨ordered, begins, ends⟩,
      fun ⟨ordered, begins, ends⟩ => ⟨ordered, begins, ends⟩⟩

/-- The code point of a character bounds a range on either side. -/
theorem bounds_of_char (c : Char) : beginsRange c.toNat = true ∧ endsRange c.toNat = true := by
  have valid : c.toNat < 0xD800 ∨ 0xDFFF < c.toNat ∧ c.toNat < 0x110000 := c.valid
  simp only [beginsRange, endsRange, Bool.and_eq_true, Bool.or_eq_true, decide_eq_true_eq]
  omega

/-- A range of one code point belongs to a character. -/
theorem ProperRange.valid {point : Nat} (proper : ProperRange (point, point)) :
    point.isValidChar := by
  have begins := proper.begins
  have ends := proper.ends
  simp only [beginsRange, endsRange, Bool.and_eq_true, Bool.or_eq_true, decide_eq_true_eq]
    at begins ends
  change point < 0xD800 ∨ 0xDFFF < point ∧ point < 0x110000
  omega

theorem toNat_ofNat {point : Nat} (valid : point.isValidChar) :
    (Char.ofNat point).toNat = point := by
  rw [Char.ofNat, dif_pos valid]
  rfl

theorem inRanges_iff {ranges : List (Nat × Nat)} {point : Nat} :
    inRanges ranges point = true ↔ ∃ range ∈ ranges, range.1 ≤ point ∧ point ≤ range.2 := by
  simp only [inRanges, List.any_eq_true, Bool.and_eq_true, decide_eq_true_eq]

end Text

namespace CharSet

/-- The ranges of a set are in order and end at characters. -/
def Proper (a : CharSet) : Prop :=
  ∀ range ∈ a.ranges, Text.ProperRange range

instance (a : CharSet) : Decidable a.Proper :=
  inferInstanceAs (Decidable (∀ range ∈ a.ranges, Text.ProperRange range))

/-! ## Adding ranges -/

/-- Adding a range to others. -/
theorem inRanges_insertRange {first last : Nat} {ranges : List (Nat × Nat)} {point : Nat}
    (ordered : first ≤ last) (others : ∀ range ∈ ranges, range.1 ≤ range.2) :
    Text.inRanges (insertRange first last ranges) point = true ↔
      first ≤ point ∧ point ≤ last ∨ Text.inRanges ranges point = true := by
  induction ranges generalizing first last with
  | nil => simp [insertRange, Text.inRanges]
  | cons piece rest ih =>
    obtain ⟨low, high⟩ := piece
    have own : low ≤ high := others _ List.mem_cons_self
    have later : ∀ range ∈ rest, range.1 ≤ range.2 :=
      fun range member => others range (List.mem_cons_of_mem _ member)
    have split : Text.inRanges ((low, high) :: rest) point = true ↔
        low ≤ point ∧ point ≤ high ∨ Text.inRanges rest point = true := by
      simp [Text.inRanges]
    unfold insertRange
    split
    · simp [Text.inRanges]
    split
    · have added : Text.inRanges ((low, high) :: insertRange first last rest) point = true ↔
          low ≤ point ∧ point ≤ high ∨
            Text.inRanges (insertRange first last rest) point = true := by
        simp [Text.inRanges]
      rw [added, ih ordered later, split]
      exact or_left_comm
    · -- The two ranges meet or touch, so nothing lies between them.
      rw [ih (by omega) later, split, ← or_assoc]
      refine or_congr_left ?_
      omega

theorem insertRange_proper {first last : Nat} {ranges : List (Nat × Nat)}
    (proper : Text.ProperRange (first, last)) (others : ∀ range ∈ ranges, Text.ProperRange range) :
    ∀ range ∈ insertRange first last ranges, Text.ProperRange range := by
  induction ranges generalizing first last with
  | nil => simpa [insertRange] using proper
  | cons piece rest ih =>
    obtain ⟨own, later⟩ := List.forall_mem_cons.mp others
    unfold insertRange
    split
    · exact List.forall_mem_cons.mpr ⟨proper, others⟩
    split
    · exact List.forall_mem_cons.mpr ⟨own, ih proper later⟩
    · refine ih ⟨?_, ?_, ?_⟩ later
      · have first := proper.ordered
        have second := own.ordered
        dsimp only at first second ⊢
        omega
      · rcases Nat.le_total first piece.1 with le | le
        · rw [Nat.min_eq_left le]
          exact proper.begins
        · rw [Nat.min_eq_right le]
          exact own.begins
      · rcases Nat.le_total last piece.2 with le | le
        · rw [Nat.max_eq_right le]
          exact own.ends
        · rw [Nat.max_eq_left le]
          exact proper.ends

section Inserting

variable {ranges pieces : List (Nat × Nat)}

theorem insertAll_proper (others : ∀ range ∈ ranges, Text.ProperRange range)
    (proper : ∀ piece ∈ pieces, Text.ProperRange piece) :
    ∀ range ∈ pieces.foldl (fun ranges piece => insertRange piece.1 piece.2 ranges) ranges,
      Text.ProperRange range := by
  induction pieces generalizing ranges with
  | nil => exact others
  | cons piece rest ih =>
    obtain ⟨own, later⟩ := List.forall_mem_cons.mp proper
    exact ih (insertRange_proper own others) later

theorem inRanges_insertAll {point : Nat} (others : ∀ range ∈ ranges, Text.ProperRange range)
    (proper : ∀ piece ∈ pieces, Text.ProperRange piece) :
    Text.inRanges (pieces.foldl (fun ranges piece => insertRange piece.1 piece.2 ranges) ranges)
        point = true ↔
      Text.inRanges ranges point = true ∨ Text.inRanges pieces point = true := by
  induction pieces generalizing ranges with
  | nil => simp [Text.inRanges]
  | cons piece rest ih =>
    obtain ⟨own, later⟩ := List.forall_mem_cons.mp proper
    rw [List.foldl_cons, ih (insertRange_proper own others) later,
      inRanges_insertRange own.ordered fun range member => (others range member).ordered]
    simp only [Text.inRanges, List.any_cons, Bool.or_eq_true, Bool.and_eq_true, decide_eq_true_eq]
    rw [or_assoc]
    exact or_left_comm

end Inserting

variable {a b : CharSet}

theorem Proper.union (proper : a.Proper) (other : b.Proper) : (a.union b).Proper :=
  insertAll_proper proper other

theorem Proper.contains_union (proper : a.Proper) (other : b.Proper) (c : Char) :
    (a.union b).contains c = true ↔ a.contains c = true ∨ b.contains c = true :=
  inRanges_insertAll proper other

/-- Adding code points is adding ranges. -/
theorem addPoints_eq (a : CharSet) (points : List Nat) :
    a.addPoints points = a.union ⟨points.map fun point => (point, point)⟩ := by
  rw [addPoints, CharSet.union, List.foldl_map]

theorem proper_points {points : List Nat} (valid : ∀ point ∈ points, point.isValidChar) :
    CharSet.Proper ⟨points.map fun point => (point, point)⟩ := by
  intro range member
  obtain ⟨point, there, rfl⟩ := List.mem_map.mp member
  have own := Text.bounds_of_char (Char.ofNatAux point (valid point there))
  exact ⟨Nat.le_refl _, own.1, own.2⟩

theorem Proper.addPoints {points : List Nat} (proper : a.Proper)
    (valid : ∀ point ∈ points, point.isValidChar) : (a.addPoints points).Proper := by
  rw [addPoints_eq]
  exact proper.union (proper_points valid)

theorem Proper.hasPoint_addPoints {points : List Nat} (proper : a.Proper)
    (valid : ∀ point ∈ points, point.isValidChar) (point : Nat) :
    (a.addPoints points).hasPoint point = true ↔ a.hasPoint point = true ∨ point ∈ points := by
  rw [addPoints_eq]
  refine (inRanges_insertAll proper (proper_points valid)).trans (or_congr_right ?_)
  rw [Text.inRanges_iff]
  constructor
  · rintro ⟨_, member, low, high⟩
    obtain ⟨own, there, rfl⟩ := List.mem_map.mp member
    exact Nat.le_antisymm high low ▸ there
  · exact fun there => ⟨_, List.mem_map.mpr ⟨point, there, rfl⟩, Nat.le_refl _, Nat.le_refl _⟩

/-! ## Complements -/

theorem gapsFrom_proper {next : Nat} {ranges : List (Nat × Nat)}
    (begins : next ≤ lastPoint → Text.beginsRange next = true)
    (proper : ∀ range ∈ ranges, Text.ProperRange range) :
    ∀ range ∈ gapsFrom next ranges, Text.ProperRange range := by
  induction ranges generalizing next with
  | nil =>
    unfold gapsFrom
    split
    · next le => exact List.forall_mem_singleton.mpr ⟨le, begins le, rfl⟩
    · exact fun _ absent => absurd absent List.not_mem_nil
  | cons piece rest ih =>
    obtain ⟨own, later⟩ := List.forall_mem_cons.mp proper
    have start := own.begins
    have stop := own.ends
    simp only [Text.beginsRange, Text.endsRange, Bool.and_eq_true, Bool.or_eq_true,
      decide_eq_true_eq] at start stop
    have behind : piece.2 + 1 ≤ lastPoint → Text.beginsRange (piece.2 + 1) = true := by
      intro le
      simp only [lastPoint] at le
      simp only [Text.beginsRange, Bool.and_eq_true, Bool.or_eq_true, decide_eq_true_eq]
      omega
    unfold gapsFrom
    split
    · next less =>
      refine List.forall_mem_cons.mpr ⟨⟨?_, ?_, ?_⟩, ih behind later⟩
      · dsimp only
        omega
      · refine begins ?_
        simp only [lastPoint]
        omega
      · simp only [Text.endsRange, Bool.and_eq_true, Bool.or_eq_true, decide_eq_true_eq]
        omega
    · exact ih behind later

theorem Proper.complement (proper : a.Proper) : a.complement.Proper :=
  gapsFrom_proper (fun _ => rfl) proper

theorem Proper.inter (proper : a.Proper) (other : b.Proper) : (a.inter b).Proper :=
  (proper.complement.union other.complement).complement

/-! ## Single characters and ranges -/

theorem proper_single (c : Char) : (single c).Proper := by
  obtain ⟨begins, ends⟩ := Text.bounds_of_char c
  exact List.forall_mem_singleton.mpr ⟨Nat.le_refl _, begins, ends⟩

theorem proper_range {first last : Char} (ordered : first ≤ last) : (range first last).Proper :=
  List.forall_mem_singleton.mpr
    ⟨ordered, (Text.bounds_of_char first).1, (Text.bounds_of_char last).2⟩

theorem toNat_injective {c d : Char} (same : c.toNat = d.toNat) : c = d :=
  Char.ext (UInt32.toNat_inj.mp same)

theorem contains_single (c d : Char) : (single c).contains d = true ↔ d = c := by
  simp only [CharSet.contains, hasPoint, single, Text.inRanges, List.any_cons, List.any_nil,
    Bool.or_false, Bool.and_eq_true, decide_eq_true_eq]
  exact ⟨fun ⟨low, high⟩ => toNat_injective (Nat.le_antisymm high low),
    fun same => same ▸ ⟨Nat.le_refl _, Nat.le_refl _⟩⟩

/-- A set that has a code point meets every range that has it. -/
theorem meets_of_hasPoint {first last point : Nat} (has : a.hasPoint point = true)
    (low : first ≤ point) (high : point ≤ last) : a.meets first last = true := by
  obtain ⟨range, member, begins, ends⟩ := Text.inRanges_iff.mp has
  refine List.any_eq_true.mpr ⟨range, member, ?_⟩
  rw [Bool.and_eq_true, decide_eq_true_eq, decide_eq_true_eq]
  exact ⟨Nat.le_trans begins high, Nat.le_trans low ends⟩

/-- The only code point of a set belongs to its only character. -/
theorem Proper.contains_of_only {point : Nat} (proper : a.Proper) (only : a.only? = some point)
    (c : Char) : a.contains c = true ↔ c = Char.ofNat point := by
  obtain ⟨ranges⟩ := a
  unfold only? at only
  split at only
  · next low high same =>
    split at only
    · next equal =>
      cases only
      subst equal
      cases same
      have back := Text.toNat_ofNat (proper _ List.mem_cons_self).valid
      rw [← contains_single, single, back]
    · cases only
  · cases only

/-! ## Named sets -/

theorem contains_blank (c : Char) : blank.contains c = Text.isBlank c := by
  rw [Bool.eq_iff_iff]
  simp only [CharSet.contains, hasPoint, blank, Text.inRanges, Text.isBlank, List.any_cons,
    List.any_nil, Bool.or_false, Bool.or_eq_true, Bool.and_eq_true, decide_eq_true_eq, beq_iff_eq]
  omega

theorem contains_exceptLineFeed (c : Char) : exceptLineFeed.contains c = true ↔ c ≠ '\n' := by
  have valid : c.toNat < 0xD800 ∨ 0xDFFF < c.toNat ∧ c.toNat < 0x110000 := c.valid
  have ranges : exceptLineFeed.ranges = [(0, 9), (11, lastPoint)] := rfl
  have other : c ≠ '\n' ↔ c.toNat ≠ 10 :=
    not_congr ⟨fun same => same ▸ rfl, fun same => toNat_injective same⟩
  rw [other, CharSet.contains, hasPoint, ranges]
  simp only [Text.inRanges, List.any_cons, List.any_nil, Bool.or_false, Bool.or_eq_true,
    Bool.and_eq_true, decide_eq_true_eq, lastPoint]
  omega

theorem proper_blank : blank.Proper := by decide
theorem proper_all : all.Proper := by decide
theorem proper_none : none.Proper := by decide
theorem proper_digit : digit.Proper := by decide +kernel
theorem proper_word : word.Proper := by decide +kernel

theorem proper_exceptLineFeed : exceptLineFeed.Proper :=
  (proper_single '\n').complement

end CharSet

end ScriptBinding
