import ScriptBinding.Proofs.PatternNotation

/-! # The first occurrence of a mark

A text is cut at the first place where the mark stands, and is not cut if it stands nowhere.
-/

namespace ScriptBinding.Text

/-- The mark stands between the two texts, and nowhere in the whole text does it start earlier. -/
structure FirstAt (mark chars before after : List Char) : Prop where
  whole : chars = before ++ mark ++ after
  first : ∀ earlier later, chars = earlier ++ mark ++ later → before.length ≤ earlier.length

variable {mark chars before after : List Char}

namespace FirstAt

/-- A mark at the start is the first one. -/
theorem start (whole : chars = mark ++ after) : FirstAt mark chars [] after :=
  ⟨whole, fun _ _ _ => Nat.zero_le _⟩

theorem cons (first : FirstAt mark chars before after) {c : Char}
    (notHere : afterLead? mark (c :: chars) = none) :
    FirstAt mark (c :: chars) (c :: before) after := by
  refine ⟨by simp [first.whole], fun earlier later split => ?_⟩
  cases earlier with
  | nil =>
    have here : afterLead? mark (c :: chars) = some later := afterLead?_eq_some.mpr split
    rw [notHere] at here
    cases here
  | cons d earlier =>
    obtain ⟨-, split⟩ := by simpa using split
    have behind := first.first earlier later (by simpa using split)
    simpa using behind

/-- There is only one first place. -/
theorem unique {left right : List Char} (first : FirstAt mark chars before after)
    (other : FirstAt mark chars left right) : before = left ∧ after = right := by
  have lengths : before.length = left.length :=
    Nat.le_antisymm (first.first _ _ other.whole) (other.first _ _ first.whole)
  have same : before ++ (mark ++ after) = left ++ (mark ++ right) := by
    rw [← List.append_assoc, ← List.append_assoc, ← first.whole, ← other.whole]
  obtain ⟨sameLeft, rest⟩ := List.append_inj same lengths
  exact ⟨sameLeft, List.append_cancel_left rest⟩

end FirstAt

theorem cut?_of_lead (lead : afterLead? mark chars = some after) :
    cut? mark chars = some ([], after) := by
  unfold cut?
  rw [lead]

theorem cut?_cons {c : Char} (notHere : afterLead? mark (c :: chars) = none) :
    cut? mark (c :: chars) = (cut? mark chars).map fun sides => (c :: sides.1, sides.2) := by
  rw [cut?, notHere]

/-- Cutting finds the first place of the mark, if there is any. -/
theorem cut?_spec (mark chars : List Char) :
    match cut? mark chars with
    | some (before, after) => FirstAt mark chars before after
    | none => ¬ mark <:+: chars := by
  induction chars with
  | nil =>
    cases lead : afterLead? mark [] with
    | some rest =>
      rw [cut?_of_lead lead]
      exact .start (afterLead?_eq_some.mp lead)
    | none =>
      rw [cut?, lead]
      intro inside
      rw [List.infix_nil.mp inside] at lead
      cases lead
  | cons c tail ih =>
    cases lead : afterLead? mark (c :: tail) with
    | some rest =>
      rw [cut?_of_lead lead]
      exact .start (afterLead?_eq_some.mp lead)
    | none =>
      rw [cut?_cons lead]
      cases found : cut? mark tail with
      | some sides =>
        rw [found] at ih
        exact ih.cons lead
      | none =>
        rw [found] at ih
        intro inside
        rcases List.infix_cons_iff.mp inside with ⟨rest, here⟩ | later
        · rw [afterLead?_eq_some.mpr here.symm] at lead
          cases lead
        · exact ih later

theorem cut?_eq_some_iff :
    cut? mark chars = some (before, after) ↔ FirstAt mark chars before after := by
  have spec := cut?_spec mark chars
  cases found : cut? mark chars with
  | none =>
    rw [found] at spec
    refine ⟨nofun, fun first => absurd ?_ spec⟩
    exact ⟨before, after, first.whole.symm⟩
  | some sides =>
    rw [found] at spec
    constructor
    · rintro ⟨⟩
      exact spec
    · intro first
      obtain ⟨left, right⟩ := spec.unique first
      simp [← left, ← right]

theorem cut?_eq_none_iff : cut? mark chars = none ↔ ¬ mark <:+: chars := by
  have spec := cut?_spec mark chars
  cases found : cut? mark chars with
  | none =>
    rw [found] at spec
    simp [spec]
  | some sides =>
    rw [found] at spec
    have inside : mark <:+: chars := ⟨sides.1, sides.2, spec.whole.symm⟩
    simp [inside]

/-- A mark of one character is the first one if the character does not stand before it. -/
theorem cut?_singleton_iff {c : Char} :
    cut? [c] chars = some (before, after) ↔ chars = before ++ c :: after ∧ c ∉ before := by
  constructor
  · intro found
    refine ⟨?_, Piece.not_mem_of_cut? found⟩
    simpa using eq_of_cut? found
  · rintro ⟨rfl, absent⟩
    exact cut?_append absent after

theorem cut?_singleton_eq_none_iff {c : Char} : cut? [c] chars = none ↔ c ∉ chars := by
  rw [cut?_eq_none_iff]
  refine not_congr ⟨fun inside => inside.subset List.mem_cons_self, fun member => ?_⟩
  obtain ⟨before, after, rfl⟩ := List.append_of_mem member
  exact ⟨before, after, by simp⟩

/-- A mark of two different characters cannot overlap itself, so it is the first one if none stands
in the text before it. -/
theorem firstAt_pair_iff {c d : Char} (differ : c ≠ d) :
    FirstAt [c, d] chars before after ↔
      chars = before ++ [c, d] ++ after ∧ ¬ [c, d] <:+: before := by
  constructor
  · intro first
    refine ⟨first.whole, ?_⟩
    rintro ⟨earlier, between, rfl⟩
    have early := first.first earlier (between ++ [c, d] ++ after) (by simp [first.whole])
    simp only [List.length_append, List.length_cons, List.length_nil] at early
    omega
  · rintro ⟨rfl, none⟩
    refine ⟨rfl, fun earlier later split => Nat.le_of_not_lt fun less => ?_⟩
    rw [List.append_assoc, List.append_assoc] at split
    rcases List.append_eq_append_iff.mp split with ⟨between, rfl, -⟩ | ⟨between, rfl, rest⟩
    · simp only [List.length_append] at less
      omega
    · match between with
      | [] => simp at less
      | [x] =>
        -- The first character of the later mark would be the second one of the earlier.
        simp only [List.cons_append, List.nil_append, List.cons.injEq] at rest
        exact differ rest.2.1.symm
      | x :: y :: more =>
        simp only [List.cons_append, List.nil_append, List.cons.injEq] at rest
        obtain ⟨rfl, rfl, -⟩ := rest
        exact none ⟨earlier, more, by simp⟩

end ScriptBinding.Text
