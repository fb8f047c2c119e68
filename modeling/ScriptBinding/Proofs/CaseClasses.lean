import ScriptBinding.Proofs.CharacterSets

/-! # Case classes

The table of case classes moves every letter to the chosen member of its class, at most once. The
set that a letter stands for when case is ignored has exactly the characters with the same chosen
member.
-/

namespace ScriptBinding

namespace Text

namespace Shift

/-- Two ranges of code points have none in common, or are made of even ones and odd ones. -/
def apart (first last : Nat) (thinned : Bool) (entry : Shift) : Bool :=
  Nat.blt last entry.first || Nat.blt entry.last first ||
    thinned && Nat.beq entry.step 2 && !Nat.beq (first % 2) (entry.first % 2)

/-- All code points that an entry moves are even, or all are odd. -/
def thinned (entry : Shift) : Bool :=
  entry.step == 2 || entry.first == entry.last

/-- Code points from the first to the last belong to characters. -/
def ofChars (first last : Nat) : Bool :=
  last < 0xD800 || 0xDFFF < first && last < 0x110000

/-- An entry moves characters to characters. -/
def wellFormed (entry : Shift) : Bool :=
  0 < entry.step && entry.step ≤ 2 && ofChars entry.first entry.last &&
    ofChars (entry.image entry.first) (entry.image entry.last) && 0 < entry.image entry.first

variable {entry other : Shift} {point : Nat}

theorem moves_iff : entry.moves point = true ↔
    entry.first ≤ point ∧ point ≤ entry.last ∧ (point - entry.first) % entry.step = 0 := by
  simp only [moves, Bool.and_eq_true, decide_eq_true_eq, beq_iff_eq, and_assoc]

/-- The code points of an entry are those that it moves. -/
theorem mem_points (step : 0 < entry.step) (ordered : entry.first ≤ entry.last) :
    point ∈ entry.points ↔ entry.moves point = true := by
  rw [moves_iff]
  simp only [points, List.mem_map, List.mem_range]
  constructor
  · rintro ⟨number, less, rfl⟩
    have le := (Nat.le_div_iff_mul_le step).mp (Nat.le_of_lt_succ less)
    rw [Nat.mul_comm] at le
    exact ⟨Nat.le_add_right _ _, by omega, by rw [Nat.add_sub_cancel_left, Nat.mul_mod_right]⟩
  · rintro ⟨low, high, divides⟩
    have whole := Nat.mul_div_cancel' (Nat.dvd_of_mod_eq_zero divides)
    refine ⟨(point - entry.first) / entry.step,
      Nat.lt_succ_of_le (Nat.div_le_div_right (Nat.sub_le_sub_right high _)), ?_⟩
    omega

theorem step_pos (formed : entry.wellFormed = true) : 0 < entry.step := by
  simp only [wellFormed, Bool.and_eq_true, decide_eq_true_eq] at formed
  exact formed.1.1.1.1

theorem image_mono {low high : Nat} (le : low ≤ high) : entry.image low ≤ entry.image high :=
  Int.toNat_le_toNat (by omega)

/-- What an entry moves keeps its remainder by two, when it moves only every other code point. -/
theorem mod_two_of_moves (thin : entry.thinned = true) (moves : entry.moves point = true) :
    point % 2 = entry.first % 2 := by
  obtain ⟨low, high, divides⟩ := moves_iff.mp moves
  simp only [thinned, Bool.or_eq_true, beq_iff_eq] at thin
  rcases thin with two | one
  · rw [two] at divides
    omega
  · omega

/-- The images of what an entry moves are even or odd together, when it moves only every other code
point. -/
theorem image_mod_two (formed : entry.wellFormed = true) (thin : entry.thinned = true)
    (moves : entry.moves point = true) :
    entry.image point % 2 = entry.image entry.first % 2 := by
  have same := mod_two_of_moves thin moves
  obtain ⟨low, _⟩ := moves_iff.mp moves
  simp only [wellFormed, Bool.and_eq_true, decide_eq_true_eq] at formed
  have positive := formed.2
  simp only [image] at positive ⊢
  omega

/-- An entry moves no code point of a range that is apart from it. -/
theorem not_moves_of_apart {first last : Nat} {thin : Bool} (apart : entry.apart first last thin)
    (low : first ≤ point) (high : point ≤ last) (parity : thin = true → point % 2 = first % 2) :
    entry.moves point = false := by
  rw [← Bool.not_eq_true]
  intro moves
  obtain ⟨above, below, divides⟩ := moves_iff.mp moves
  simp only [Shift.apart, Bool.or_eq_true, Bool.and_eq_true, Nat.blt_eq, Nat.beq_eq,
    Bool.not_eq_true'] at apart
  rcases apart with (less | less) | ⟨⟨isThin, two⟩, differ⟩
  · omega
  · omega
  · have own := parity isThin
    rw [two] at divides
    have same : first % 2 = entry.first % 2 := by omega
    rw [same, Nat.beq_refl] at differ
    cases differ

end Shift

/-! ## Tables of entries -/

/-- Entries for the ASCII letters in front of a table for other characters. -/
def withAscii (table : List Shift) : List Shift :=
  ⟨65, 90, 1, 32⟩ :: table

section Tables

variable {table : List Shift}

/-- A code point is moved by an entry of the table, or stays where it is. -/
theorem shifted_cases (table : List Shift) (point : Nat) :
    (∃ entry ∈ table, entry.moves point = true ∧ shifted table point = entry.image point) ∨
      shifted table point = point := by
  unfold shifted
  cases found : table.find? (·.moves point) with
  | none => exact Or.inr rfl
  | some entry =>
    exact Or.inl ⟨entry, List.mem_of_find?_eq_some found,
      List.find?_some (p := (Shift.moves · point)) found, rfl⟩

/-- Each entry is apart from what the entries of the table have moved. -/
def Shift.settles (table : List Shift) : Bool :=
  table.all fun entry => table.all
    (·.apart (entry.image entry.first) (entry.image entry.last) entry.thinned)

/-- What a table has moved is not moved again. -/
theorem shifted_settled (formed : ∀ entry ∈ table, entry.wellFormed = true)
    (settles : Shift.settles table = true) (point : Nat) :
    shifted table (shifted table point) = shifted table point := by
  rcases shifted_cases table point with ⟨entry, member, moves, isImage⟩ | same
  · rcases shifted_cases table (shifted table point) with ⟨other, there, again, _⟩ | same
    · obtain ⟨low, high, _⟩ := Shift.moves_iff.mp moves
      have apart := List.all_eq_true.mp (List.all_eq_true.mp settles entry member) other there
      have still : other.moves (entry.image point) = false :=
        Shift.not_moves_of_apart apart (Shift.image_mono low) (Shift.image_mono high)
          fun thin => Shift.image_mod_two (formed entry member) thin moves
      rw [isImage, still] at again
      cases again
    · exact same
  · rw [same, same]

/-- An entry moves characters to characters. -/
theorem Shift.valid_of_moves {entry : Shift} {point : Nat} (formed : entry.wellFormed = true)
    (moves : entry.moves point = true) :
    point.isValidChar ∧ (entry.image point).isValidChar := by
  obtain ⟨low, high, _⟩ := Shift.moves_iff.mp moves
  simp only [Shift.wellFormed, Shift.ofChars, Bool.and_eq_true, Bool.or_eq_true,
    decide_eq_true_eq] at formed
  have above : entry.image entry.first ≤ entry.image point := Shift.image_mono low
  have below : entry.image point ≤ entry.image entry.last := Shift.image_mono high
  refine ⟨?_, ?_⟩
  · change point < 0xD800 ∨ 0xDFFF < point ∧ point < 0x110000
    omega
  · change entry.image point < 0xD800 ∨ 0xDFFF < entry.image point ∧ entry.image point < 0x110000
    omega

theorem valid_shifted (formed : ∀ entry ∈ table, entry.wellFormed = true) (c : Char) :
    (shifted table c.toNat).isValidChar := by
  rcases shifted_cases table c.toNat with ⟨entry, member, moves, isImage⟩ | same
  · rw [isImage]
    exact (Shift.valid_of_moves (formed entry member) moves).2
  · rw [same]
    exact c.valid

/-- In a table with entries for the ASCII letters, only the first one is about ASCII letters. -/
theorem shifted_withAscii (above : ∀ entry ∈ table, 128 ≤ entry.first) (point : Nat) :
    shifted (withAscii table) point =
      if 65 ≤ point ∧ point ≤ 90 then point + 32
      else if point < 128 then point else shifted table point := by
  unfold shifted withAscii
  rw [List.find?_cons]
  have first : Shift.moves ⟨65, 90, 1, 32⟩ point = decide (65 ≤ point ∧ point ≤ 90) := by
    rw [Bool.eq_iff_iff, Shift.moves_iff, decide_eq_true_eq, Nat.mod_one]
    simp
  rw [first]
  by_cases letter : 65 ≤ point ∧ point ≤ 90
  · rw [if_pos letter, decide_eq_true letter]
    rfl
  rw [if_neg letter, decide_eq_false letter]
  by_cases ascii : point < 128
  · have none : table.find? (·.moves point) = Option.none := by
      refine List.find?_eq_none.mpr fun entry member moves => ?_
      have above := above entry member
      have low := (Shift.moves_iff.mp moves).1
      omega
    rw [if_pos ascii]
    dsimp only
    rw [none]
  · rw [if_neg ascii]

/-- Lower-casing ASCII letters and moving other characters is moving by one table. -/
theorem toNat_shiftedChar (formed : ∀ entry ∈ withAscii table, entry.wellFormed = true)
    (above : ∀ entry ∈ table, 128 ≤ entry.first) (c : Char) :
    (if c.toNat < 128 then asciiLower c else Char.ofNat (shifted table c.toNat)).toNat =
      shifted (withAscii table) c.toNat := by
  have valid := valid_shifted formed c
  rw [shifted_withAscii above] at valid ⊢
  unfold asciiLower
  have letter : ('A' ≤ c && c ≤ 'Z') = true ↔ 65 ≤ c.toNat ∧ c.toNat ≤ 90 := by
    rw [Bool.and_eq_true, decide_eq_true_eq, decide_eq_true_eq]
    exact Iff.rfl
  by_cases isLetter : 65 ≤ c.toNat ∧ c.toNat ≤ 90
  · rw [if_pos isLetter] at valid ⊢
    rw [if_pos (by omega), if_pos (letter.mpr isLetter), toNat_ofNat valid]
  · rw [if_neg isLetter] at valid ⊢
    by_cases ascii : c.toNat < 128
    · rw [if_pos ascii, if_pos ascii, if_neg (isLetter ∘ letter.mp)]
    · rw [if_neg ascii] at valid ⊢
      rw [if_neg ascii, toNat_ofNat valid]

end Tables

/-! ## The table -/

/-- Each entry is apart from those behind it. -/
def Shift.allApart : List Shift → Bool
  | [] => true
  | entry :: others =>
    others.all (·.apart entry.first entry.last entry.thinned) && allApart others

theorem Shift.eq_or_apart {entries : List Shift} (all : allApart entries = true)
    {entry other : Shift} (member : entry ∈ entries) (there : other ∈ entries) :
    entry = other ∨ other.apart entry.first entry.last entry.thinned = true ∨
      entry.apart other.first other.last other.thinned = true := by
  induction entries with
  | nil => exact absurd member List.not_mem_nil
  | cons first others ih =>
    obtain ⟨own, later⟩ := Bool.and_eq_true_iff.mp all
    have own := List.all_eq_true.mp own
    rcases List.mem_cons.mp member with rfl | isLater
    · rcases List.mem_cons.mp there with rfl | otherLater
      · exact Or.inl rfl
      · exact Or.inr (Or.inl (own other otherLater))
    · rcases List.mem_cons.mp there with rfl | otherLater
      · exact Or.inr (Or.inr (own entry isLater))
      · exact ih later isLater otherLater

/-- What the table of case classes is checked for. -/
theorem foldEntries_checked :
    (∀ entry ∈ foldEntries, entry.wellFormed = true ∧ entry.first ≤ entry.last) ∧
      Shift.allApart foldEntries = true ∧ Shift.settles foldEntries = true ∧
      ∀ entry ∈ foldShifts, 128 ≤ entry.first := by
  decide +kernel

theorem foldEntries_wellFormed : ∀ entry ∈ foldEntries,
    entry.wellFormed = true ∧ entry.first ≤ entry.last :=
  foldEntries_checked.1

theorem foldEntries_apart : Shift.allApart foldEntries = true :=
  foldEntries_checked.2.1

theorem foldEntries_settled : Shift.settles foldEntries = true :=
  foldEntries_checked.2.2.1

theorem foldShifts_above : ∀ entry ∈ foldShifts, 128 ≤ entry.first :=
  foldEntries_checked.2.2.2

/-- An entry moves nothing of what is apart from all that another one moves. -/
theorem Shift.not_moves_both {entry other : Shift} {point : Nat}
    (apart : other.apart entry.first entry.last entry.thinned = true)
    (moves : entry.moves point = true) : other.moves point = false := by
  obtain ⟨low, high, _⟩ := moves_iff.mp moves
  exact not_moves_of_apart apart low high fun thin => mod_two_of_moves thin moves

/-- No two entries move the same code point. -/
theorem eq_of_moves {entry other : Shift} {point : Nat} (member : entry ∈ foldEntries)
    (there : other ∈ foldEntries) (moves : entry.moves point = true)
    (alike : other.moves point = true) : entry = other := by
  rcases Shift.eq_or_apart foldEntries_apart member there with same | apart | apart
  · exact same
  · cases (Shift.not_moves_both apart moves).symm.trans alike
  · cases (Shift.not_moves_both apart alike).symm.trans moves

/-! ## The chosen member -/

/-- The chosen member of the case class of a code point. -/
def chosenPoint (point : Nat) : Nat :=
  shifted foldEntries point

/-- Some entry moves a code point to another. -/
def Moved (point target : Nat) : Prop :=
  ∃ entry ∈ foldEntries, entry.moves point = true ∧ entry.image point = target

variable {point target : Nat}

theorem chosenPoint_of_moved (moved : Moved point target) : chosenPoint point = target := by
  obtain ⟨entry, member, moves, rfl⟩ := moved
  unfold chosenPoint shifted
  cases found : foldEntries.find? (·.moves point) with
  | none => exact absurd moves (List.find?_eq_none.mp found entry member)
  | some first =>
    rw [eq_of_moves member (List.mem_of_find?_eq_some found) moves
      (List.find?_some (p := (Shift.moves · point)) found)]
    rfl

/-- A code point is moved to the chosen member, or is that itself. -/
theorem moved_or_chosen (point : Nat) :
    Moved point (chosenPoint point) ∨ chosenPoint point = point :=
  (shifted_cases foldEntries point).imp_left fun ⟨entry, member, moves, isImage⟩ =>
    ⟨entry, member, moves, isImage.symm⟩

/-- What an entry has moved is not moved. -/
theorem chosenPoint_settled (moved : Moved point target) : chosenPoint target = target := by
  rw [← chosenPoint_of_moved moved]
  exact shifted_settled (fun entry member => (foldEntries_wellFormed entry member).1)
    foldEntries_settled point

/-- Code points of one case class have the same chosen member. -/
theorem chosenPoint_eq_iff {other : Nat} : chosenPoint point = chosenPoint other ↔
    other = point ∨ Moved point other ∨
      ∃ target, Moved other target ∧ (target = point ∨ Moved point target) := by
  constructor
  · intro same
    rcases moved_or_chosen point with moved | chosen
    · rcases moved_or_chosen other with alike | itself
      · exact Or.inr (Or.inr ⟨_, alike, Or.inr (same ▸ moved)⟩)
      · exact Or.inr (Or.inl (itself ▸ same ▸ moved))
    · rcases moved_or_chosen other with alike | itself
      · exact Or.inr (Or.inr ⟨_, alike, Or.inl (same.symm.trans chosen)⟩)
      · exact Or.inl (itself.symm.trans (same.symm.trans chosen))
  · rintro (rfl | moved | ⟨target, moved, rfl | alike⟩)
    · rfl
    · rw [chosenPoint_settled moved, chosenPoint_of_moved moved]
    · rw [chosenPoint_settled moved, chosenPoint_of_moved moved]
    · rw [chosenPoint_of_moved moved, chosenPoint_of_moved alike]

/-- Entries move characters to characters. -/
theorem Moved.valid (moved : Moved point target) : point.isValidChar ∧ target.isValidChar := by
  obtain ⟨entry, member, moves, rfl⟩ := moved
  exact Shift.valid_of_moves (foldEntries_wellFormed entry member).1 moves

theorem toNat_foldChar (c : Char) : (foldChar c).toNat = chosenPoint c.toNat :=
  toNat_shiftedChar (fun entry member => (foldEntries_wellFormed entry member).1)
    foldShifts_above c

/-- Two characters have the same chosen member exactly if their code points have. -/
theorem foldChar_eq_iff (c d : Char) :
    foldChar c = foldChar d ↔ chosenPoint c.toNat = chosenPoint d.toNat := by
  rw [← toNat_foldChar, ← toNat_foldChar]
  exact ⟨congrArg Char.toNat, CharSet.toNat_injective⟩

end Text

namespace CharSet

open Text

variable {a : CharSet}

theorem mem_chosenImages {target : Nat} :
    target ∈ a.chosenImages ↔ ∃ point, a.hasPoint point = true ∧ Moved point target := by
  unfold chosenImages Moved
  rw [List.mem_flatMap]
  constructor
  · rintro ⟨entry, member, there⟩
    obtain ⟨formed, ordered⟩ := foldEntries_wellFormed entry member
    split at there
    · obtain ⟨point, own, rfl⟩ := List.mem_map.mp there
      obtain ⟨isPoint, has⟩ := List.mem_filter.mp own
      exact ⟨point, has, entry, member,
        (Shift.mem_points (Shift.step_pos formed) ordered).mp isPoint, rfl⟩
    · exact absurd there List.not_mem_nil
  · rintro ⟨point, has, entry, member, moves, rfl⟩
    obtain ⟨formed, ordered⟩ := foldEntries_wellFormed entry member
    obtain ⟨low, high, _⟩ := Shift.moves_iff.mp moves
    refine ⟨entry, member, ?_⟩
    rw [if_pos (meets_of_hasPoint has low high)]
    exact List.mem_map.mpr ⟨point, List.mem_filter.mpr
      ⟨(Shift.mem_points (Shift.step_pos formed) ordered).mpr moves, has⟩, rfl⟩

theorem mem_foldSources {point : Nat} :
    point ∈ a.foldSources ↔ ∃ target, Moved point target ∧ a.hasPoint target = true := by
  unfold foldSources Moved
  rw [List.mem_flatMap]
  constructor
  · rintro ⟨entry, member, there⟩
    obtain ⟨formed, ordered⟩ := foldEntries_wellFormed entry member
    split at there
    · obtain ⟨isPoint, has⟩ := List.mem_filter.mp there
      exact ⟨_, ⟨entry, member, (Shift.mem_points (Shift.step_pos formed) ordered).mp isPoint, rfl⟩,
        has⟩
    · exact absurd there List.not_mem_nil
  · rintro ⟨_, ⟨entry, member, moves, rfl⟩, has⟩
    obtain ⟨formed, ordered⟩ := foldEntries_wellFormed entry member
    obtain ⟨low, high, _⟩ := Shift.moves_iff.mp moves
    refine ⟨entry, member, ?_⟩
    rw [if_pos (meets_of_hasPoint has (Shift.image_mono low) (Shift.image_mono high))]
    exact List.mem_filter.mpr ⟨(Shift.mem_points (Shift.step_pos formed) ordered).mpr moves, has⟩

theorem valid_chosenImages : ∀ target ∈ a.chosenImages, target.isValidChar := by
  intro target member
  obtain ⟨_, _, moved⟩ := mem_chosenImages.mp member
  exact moved.valid.2

theorem valid_foldSources : ∀ point ∈ a.foldSources, point.isValidChar := by
  intro point member
  obtain ⟨_, moved, _⟩ := mem_foldSources.mp member
  exact moved.valid.1

theorem Proper.folded (proper : a.Proper) : a.folded.Proper :=
  (proper.addPoints valid_chosenImages).addPoints valid_foldSources

theorem Proper.foldIf (proper : a.Proper) (ignoreCase : Bool) : (a.foldIf ignoreCase).Proper := by
  unfold CharSet.foldIf
  split
  · exact proper.folded
  · exact proper

/-- A letter stands for the characters of its case class. -/
theorem contains_folded_single (c d : Char) :
    (single c).folded.contains d = true ↔ foldChar c = foldChar d := by
  have own (point : Nat) : (single c).hasPoint point = true ↔ point = c.toNat := by
    simp only [hasPoint, single, inRanges, List.any_cons, List.any_nil, Bool.or_false,
      Bool.and_eq_true, decide_eq_true_eq]
    omega
  have chosen (point : Nat) :
      ((single c).addPoints (single c).chosenImages).hasPoint point = true ↔
        point = c.toNat ∨ Moved c.toNat point := by
    rw [(proper_single c).hasPoint_addPoints valid_chosenImages, own, mem_chosenImages]
    simp only [own, exists_eq_left]
  rw [foldChar_eq_iff, chosenPoint_eq_iff]
  unfold CharSet.contains CharSet.folded
  rw [((proper_single c).addPoints valid_chosenImages).hasPoint_addPoints valid_foldSources,
    mem_foldSources, chosen, or_assoc]
  simp only [chosen]

end CharSet

end ScriptBinding
