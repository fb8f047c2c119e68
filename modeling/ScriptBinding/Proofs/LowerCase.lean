import ScriptBinding.Proofs.CaseClasses

/-! # Lower case

A text in lower case consists of characters that lower-casing leaves alone, whatever stands around
them. So changing the case of its ASCII letters is undone by lower-casing the text again.
-/

namespace ScriptBinding.Text

/-- The entries for the characters that have another character as their lower-case form. -/
def lowerEntries : List Shift :=
  withAscii lowerShifts

/-- What the table is checked for: entries move characters to characters, and none of them to the
dotted capital I, which becomes two characters. -/
theorem lowerEntries_checked :
    (∀ entry ∈ lowerEntries, entry.wellFormed = true ∧
      Shift.apart (entry.image entry.first) (entry.image entry.last) entry.thinned
        ⟨0x130, 0x130, 1, 0⟩ = true) ∧
      Shift.settles lowerEntries = true ∧ ∀ entry ∈ lowerShifts, 128 ≤ entry.first := by
  decide +kernel

theorem lowerEntries_wellFormed : ∀ entry ∈ lowerEntries, entry.wellFormed = true :=
  fun entry member => (lowerEntries_checked.1 entry member).1

theorem lowerEntries_settle : Shift.settles lowerEntries = true :=
  lowerEntries_checked.2.1

theorem lowerShifts_above : ∀ entry ∈ lowerShifts, 128 ≤ entry.first :=
  lowerEntries_checked.2.2

/-! ## Characters in lower case -/

/-- A character that lower-casing leaves alone. -/
def IsLower (c : Char) : Prop :=
  shifted lowerEntries c.toNat = c.toNat ∧ c.toNat ≠ 0x130

instance (c : Char) : Decidable (IsLower c) :=
  inferInstanceAs (Decidable (_ ∧ _))

/-- What is left alone among the small i, the dot above it and the sigmas. -/
theorem isLower_marks : IsLower 'i' ∧ IsLower (Char.ofNat 0x307) ∧ IsLower (Char.ofNat 0x3C2) ∧
    IsLower (Char.ofNat 0x3C3) ∧ ¬ IsLower (Char.ofNat 0x3A3) := by
  decide +kernel

/-- The lower-case form of a character that has a single one. -/
theorem lowerChar_eq {c : Char} (undotted : c.toNat ≠ 0x130) :
    lowerChar c = [Char.ofNat (shifted lowerEntries c.toNat)] := by
  have moved := toNat_shiftedChar lowerEntries_wellFormed lowerShifts_above c
  have valid := valid_shifted lowerEntries_wellFormed c
  have single : lowerChar c =
      [if c.toNat < 128 then asciiLower c else Char.ofNat (shifted lowerShifts c.toNat)] := by
    unfold lowerChar
    by_cases ascii : c.toNat < 128
    · rw [if_pos ascii, if_pos ascii]
    · rw [if_neg ascii, if_neg ascii, if_neg (by simpa using undotted)]
  rw [single]
  exact congrArg (fun d => [d]) (CharSet.toNat_injective (moved.trans (toNat_ofNat valid).symm))

theorem IsLower.lowerChar {c : Char} (lower : IsLower c) : lowerChar c = [c] := by
  rw [lowerChar_eq lower.2, lower.1]
  exact congrArg (fun d => [d]) (CharSet.toNat_injective (toNat_ofNat c.valid))

/-- The capital sigma has a lower-case form. -/
theorem IsLower.ne_sigma {c : Char} (lower : IsLower c) : c.toNat ≠ 0x3A3 := by
  intro sigma
  have same : c = Char.ofNat 0x3A3 := by
    apply CharSet.toNat_injective
    rw [sigma, toNat_ofNat (by decide)]
  exact isLower_marks.2.2.2.2 (same ▸ lower)

/-- Lower-casing an ASCII letter away from its context is lower-casing it as an ASCII letter. -/
theorem lowerChar_of_ascii {c : Char} (ascii : c.toNat < 128) : lowerChar c = [asciiLower c] :=
  if_pos ascii

theorem asciiLower_of_not_ascii {c : Char} (beyond : ¬ c.toNat < 128) : asciiLower c = c := by
  refine if_neg fun letter => beyond ?_
  have upper : c.toNat ≤ 'Z'.toNat :=
    of_decide_eq_true (Bool.and_eq_true_iff.mp letter).2
  exact Nat.lt_of_le_of_lt upper (by decide)

theorem IsLower.asciiLower {c : Char} (lower : IsLower c) : asciiLower c = c := by
  by_cases ascii : c.toNat < 128
  · exact List.singleton_inj.mp ((lowerChar_of_ascii ascii).symm.trans lower.lowerChar)
  · exact asciiLower_of_not_ascii ascii

theorem lowerChar_of_dotted {c : Char} (dotted : c.toNat = 0x130) :
    lowerChar c = ['i', Char.ofNat 0x307] := by
  unfold lowerChar
  rw [if_neg (by omega), if_pos (by simpa using dotted)]

/-- Lower-casing away from the context gives characters in lower case. -/
theorem isLower_of_mem_lowerChar {c d : Char} (member : d ∈ lowerChar c) : IsLower d := by
  by_cases dotted : c.toNat = 0x130
  · rw [lowerChar_of_dotted dotted] at member
    simp only [List.mem_cons, List.not_mem_nil, or_false] at member
    obtain rfl | rfl := member
    · exact isLower_marks.1
    · exact isLower_marks.2.1
  · rw [lowerChar_eq dotted, List.mem_singleton] at member
    have image : d.toNat = shifted lowerEntries c.toNat := by
      rw [member]
      exact toNat_ofNat (valid_shifted lowerEntries_wellFormed c)
    refine ⟨?_, ?_⟩
    · rw [image]
      exact shifted_settled lowerEntries_wellFormed lowerEntries_settle c.toNat
    · intro again
      rcases shifted_cases lowerEntries c.toNat with ⟨entry, there, moves, isImage⟩ | same
      · obtain ⟨low, high, _⟩ := Shift.moves_iff.mp moves
        have still := Shift.not_moves_of_apart (lowerEntries_checked.1 entry there).2
          (Shift.image_mono low) (Shift.image_mono high)
          fun thin => Shift.image_mod_two (lowerEntries_wellFormed entry there) thin moves
        rw [← isImage, ← image, again] at still
        cases still
      · exact dotted (same.symm.trans (image.symm.trans again))

/-! ## Texts in lower case -/

/-- A character becomes one of the small sigmas or its lower-case form away from the context. -/
theorem lowerFrom_cons (before : List Char) (c : Char) (rest : List Char) :
    ∃ image, lowerFrom before (c :: rest) = image ++ lowerFrom (c :: before) rest ∧
      (image = [Char.ofNat 0x3C2] ∨ image = [Char.ofNat 0x3C3] ∨ image = lowerChar c) := by
  refine ⟨_, rfl, ?_⟩
  by_cases sigma : c.toNat == 0x3A3
  · rw [if_pos sigma]
    by_cases final : meetsCased before && !meetsCased rest
    · exact Or.inl (if_pos final)
    · exact Or.inr (Or.inl (if_neg final))
  · exact Or.inr (Or.inr (if_neg sigma))

/-- Every character of a text in lower case is left alone by lower-casing. -/
theorem isLower_of_mem_lowerFrom {before chars : List Char} {c : Char}
    (member : c ∈ lowerFrom before chars) : IsLower c := by
  induction chars generalizing before with
  | nil => cases member
  | cons first others ih =>
    obtain ⟨image, splits, images⟩ := lowerFrom_cons before first others
    rw [splits] at member
    rcases List.mem_append.mp member with here | later
    · rcases images with rfl | rfl | rfl
      · rw [List.mem_singleton.mp here]
        exact isLower_marks.2.2.1
      · rw [List.mem_singleton.mp here]
        exact isLower_marks.2.2.2.1
      · exact isLower_of_mem_lowerChar here
    · exact ih later

/-- A character that is left alone, ASCII case aside, does not depend on what stands around it. -/
theorem lowerFrom_cons_of_settled {c : Char} (settled : IsLower (asciiLower c))
    (before rest : List Char) :
    lowerFrom before (c :: rest) = asciiLower c :: lowerFrom (c :: before) rest := by
  have image : c.toNat ≠ 0x3A3 ∧ lowerChar c = [asciiLower c] := by
    by_cases ascii : c.toNat < 128
    · exact ⟨by omega, lowerChar_of_ascii ascii⟩
    · rw [asciiLower_of_not_ascii ascii] at settled ⊢
      exact ⟨settled.ne_sigma, settled.lowerChar⟩
  rw [lowerFrom, if_neg (by simpa using image.1), image.2]
  rfl

/-- Lower-casing undoes a change of the case of ASCII letters. -/
theorem lowerFrom_eq_map {before chars : List Char}
    (lower : ∀ c ∈ chars, IsLower (asciiLower c)) :
    lowerFrom before chars = chars.map asciiLower := by
  induction chars generalizing before with
  | nil => rfl
  | cons first others ih =>
    obtain ⟨own, later⟩ := List.forall_mem_cons.mp lower
    rw [lowerFrom_cons_of_settled own, ih later, List.map_cons]

theorem isLower_of_mem_lower {text : String} {c : Char} (member : c ∈ (lower text).toList) :
    IsLower c := by
  unfold lower at member
  rw [String.toList_ofList] at member
  exact isLower_of_mem_lowerFrom member

/-- A text in lower case has its ASCII letters in lower case. -/
theorem map_asciiLower_lower (text : String) :
    (lower text).toList.map asciiLower = (lower text).toList :=
  (List.map_congr_left fun _ member => (isLower_of_mem_lower member).asciiLower).trans
    (List.map_id' _)

/-- A lower-case form is that of every text that differs from it in the case of ASCII letters. -/
theorem lower_of_changed {changed text : String}
    (same : equalIgnoringAsciiCase changed (lower text) = true) : lower changed = lower text := by
  have image : changed.toList.map asciiLower = (lower text).toList :=
    (eq_of_beq same).trans (map_asciiLower_lower text)
  have settles : ∀ c ∈ changed.toList, IsLower (asciiLower c) := by
    intro c member
    apply isLower_of_mem_lower
    rw [← image]
    exact List.mem_map_of_mem member
  rw [lower, lowerFrom_eq_map settles, image, String.ofList_toList]

/-- A text in lower case is its own lower-case form. -/
theorem lower_eq_self {text : String} (settled : ∀ c ∈ text.toList, IsLower c) :
    lower text = text := by
  have own : text.toList.map asciiLower = text.toList :=
    (List.map_congr_left fun c member => (settled c member).asciiLower).trans (List.map_id' _)
  have image : ∀ c ∈ text.toList, IsLower (asciiLower c) := fun c member =>
    (settled c member).asciiLower.symm ▸ settled c member
  rw [lower, lowerFrom_eq_map image, own, String.ofList_toList]

/-! ## Characters that no other one becomes -/

/-- A character that no other one has in its lower-case form. -/
def Solitary (d : Char) : Prop :=
  (∀ entry ∈ lowerEntries,
    d.toNat < entry.image entry.first ∨ entry.image entry.last < d.toNat) ∧
    d ∉ ['i', Char.ofNat 0x307, Char.ofNat 0x3C2, Char.ofNat 0x3C3]

instance (d : Char) : Decidable (Solitary d) :=
  inferInstanceAs (Decidable (_ ∧ _))

/-- The signs that structure headers and names. -/
theorem solitary_signs : ∀ d ∈ ['/', ':', '%', '\x7b', '\x7d'], Solitary d := by
  have checked : ['/', ':', '%', '\x7b', '\x7d'].all (fun d => decide (Solitary d)) = true := by
    decide +kernel
  exact fun d member => of_decide_eq_true (List.all_eq_true.mp checked d member)

theorem Solitary.eq_of_mem_lowerChar {c d : Char} (alone : Solitary d)
    (member : d ∈ lowerChar c) : c = d := by
  by_cases dotted : c.toNat = 0x130
  · rw [lowerChar_of_dotted dotted] at member
    exact absurd (List.mem_append_left _ member) alone.2
  rw [lowerChar_eq dotted, List.mem_singleton] at member
  have image : d.toNat = shifted lowerEntries c.toNat := by
    rw [member]
    exact toNat_ofNat (valid_shifted lowerEntries_wellFormed c)
  rcases shifted_cases lowerEntries c.toNat with ⟨entry, there, moves, isImage⟩ | same
  · obtain ⟨low, high, _⟩ := Shift.moves_iff.mp moves
    have above : entry.image entry.first ≤ entry.image c.toNat := Shift.image_mono low
    have below : entry.image c.toNat ≤ entry.image entry.last := Shift.image_mono high
    have apart := alone.1 entry there
    omega
  · exact CharSet.toNat_injective (same.symm.trans image.symm)

theorem Solitary.eq_of_asciiLower {c d : Char} (alone : Solitary d) (image : asciiLower c = d) :
    c = d := by
  by_cases ascii : c.toNat < 128
  · exact alone.eq_of_mem_lowerChar (by simp [lowerChar_of_ascii ascii, image])
  · rwa [asciiLower_of_not_ascii ascii] at image

theorem lowerChar_ne_nil (c : Char) : lowerChar c ≠ [] := by
  by_cases dotted : c.toNat = 0x130
  · rw [lowerChar_of_dotted dotted]
    exact List.cons_ne_nil _ _
  · rw [lowerChar_eq dotted]
    exact List.cons_ne_nil _ _

/-- A character becomes some characters, among them no solitary one but itself. -/
theorem lowerFrom_cons_solitary (before : List Char) (c : Char) (rest : List Char) :
    ∃ image, lowerFrom before (c :: rest) = image ++ lowerFrom (c :: before) rest ∧
      image ≠ [] ∧ ∀ d ∈ image, Solitary d → c = d := by
  obtain ⟨image, splits, images⟩ := lowerFrom_cons before c rest
  refine ⟨image, splits, ?_⟩
  rcases images with rfl | rfl | rfl
  · refine ⟨List.cons_ne_nil _ _, fun d member alone => absurd ?_ alone.2⟩
    simp [List.mem_singleton.mp member]
  · refine ⟨List.cons_ne_nil _ _, fun d member alone => absurd ?_ alone.2⟩
    simp [List.mem_singleton.mp member]
  · exact ⟨lowerChar_ne_nil c, fun d member alone => alone.eq_of_mem_lowerChar member⟩

/-- Characters become at least as many characters, among them no solitary one that was not there. -/
theorem lowerFrom_append (before text rest : List Char) :
    ∃ image, lowerFrom before (text ++ rest) = image ++ lowerFrom (text.reverse ++ before) rest ∧
      (text ≠ [] → image ≠ []) ∧ ∀ d ∈ image, Solitary d → d ∈ text := by
  induction text generalizing before with
  | nil => exact ⟨[], rfl, id, fun d absent => absurd absent List.not_mem_nil⟩
  | cons c text ih =>
    obtain ⟨first, splits, some, only⟩ := lowerFrom_cons_solitary before c (text ++ rest)
    obtain ⟨others, later, -, among⟩ := ih (c :: before)
    refine ⟨first ++ others, ?_, fun _ => by simp [some], fun d member alone => ?_⟩
    · rw [List.cons_append, splits, later, List.append_assoc, List.reverse_cons,
        List.append_assoc, List.singleton_append]
    · rcases List.mem_append.mp member with here | there
      · exact only d here alone ▸ List.mem_cons_self
      · exact List.mem_cons_of_mem _ (among d there alone)

/-- Only a text of solitary characters has them for its lower-case form. -/
theorem eq_of_lowerFrom_solitary {before chars signs : List Char}
    (image : lowerFrom before chars = signs) (solitary : ∀ d ∈ signs, Solitary d) :
    chars = signs := by
  induction chars generalizing before signs with
  | nil => exact image
  | cons c rest ih =>
    obtain ⟨first, splits, some, only⟩ := lowerFrom_cons_solitary before c rest
    obtain ⟨d, others, rfl⟩ := List.exists_cons_of_ne_nil some
    have starts : d ∈ lowerFrom before (c :: rest) := splits ▸ List.mem_cons_self
    have same : d = c := (only d List.mem_cons_self (solitary d (image ▸ starts))).symm
    have settled : IsLower c := isLower_of_mem_lowerFrom (same ▸ starts)
    rw [lowerFrom_cons_of_settled (settled.asciiLower.symm ▸ settled), settled.asciiLower] at image
    subst image
    exact congrArg (c :: ·) (ih rfl (List.forall_mem_cons.mp solitary).2)

/-- The lower-case form of a text starts with a solitary character only if the text does. -/
theorem head?_lowerFrom {before chars : List Char} {d : Char} (alone : Solitary d)
    (starts : chars.head? ≠ some d) : (lowerFrom before chars).head? ≠ some d := by
  cases chars with
  | nil => exact Option.some_ne_none _ |>.symm
  | cons c rest =>
    obtain ⟨image, splits, filled, only⟩ := lowerFrom_cons_solitary before c rest
    have absent : d ∉ image := fun member => starts (congrArg some (only d member alone))
    obtain ⟨first, others, rfl⟩ := List.exists_cons_of_ne_nil filled
    rw [splits]
    intro same
    exact absent (List.mem_cons.mpr (Or.inl (Option.some.inj same).symm))

/-- The lower-case form of a text ends in a solitary character only if the text does. -/
theorem getLast?_lowerFrom {before chars : List Char} {d : Char} (alone : Solitary d)
    (ends : chars.getLast? ≠ some d) : (lowerFrom before chars).getLast? ≠ some d := by
  rcases List.eq_nil_or_concat chars with rfl | ⟨front, last, rfl⟩
  · exact Option.some_ne_none _ |>.symm
  · obtain ⟨lead, splits, -, -⟩ := lowerFrom_append before front [last]
    obtain ⟨image, final, filled, only⟩ :=
      lowerFrom_cons_solitary (front.reverse ++ before) last []
    have whole : lowerFrom before (front ++ [last]) = lead ++ image := by
      rw [splits, final, lowerFrom, List.append_nil]
    rw [List.concat_eq_append, whole, List.getLast?_append,
      Option.or_of_isSome (List.getLast?_isSome.mpr filled)]
    intro same
    refine ends ?_
    rw [List.concat_eq_append, List.getLast?_concat, only d (List.mem_of_getLast? same) alone]

end ScriptBinding.Text
