import ScriptBinding.Pattern.Notation

/-! # Patterns as they are written

Which pieces a text spells, by the notation of patterns alone. Reading a pattern gives pieces that
the text spells.
-/

namespace ScriptBinding

theorem Text.cut?_append {mark : Char} {before : List Char} (absent : mark ∉ before)
    (after : List Char) : cut? [mark] (before ++ mark :: after) = some (before, after) := by
  induction before with
  | nil => simp only [List.nil_append, cut?, afterLead?, ↓reduceIte]
  | cons c others ih =>
    obtain ⟨other, later⟩ := List.ne_and_not_mem_of_not_mem_cons absent
    simp only [List.cons_append, cut?, afterLead?, if_neg other, ih later, Option.map_some]

namespace Piece

/-- The characters that do not stand for themselves. -/
def signs : List Char :=
  ['[', ']', '(', ')', '|', '<', '%', '\\', ' ']

/-- The mark that a number gives, if it has no more than 31 bits. -/
def markOf (digits : List Char) : Option Nat :=
  if Number.digitsValue digits < Nat.pow 2 31 then some (Number.digitsValue digits) else none

/-- A text starts with a number and the sign for a mark. -/
def StartsMarked (text : List Char) : Prop :=
  ∃ digits rest, digits ≠ [] ∧ (∀ c ∈ digits, Text.isAsciiDigit c = true) ∧
    text = digits ++ markSign :: rest

mutual

/-- A text spells some pieces. -/
inductive Spells : List Char → List Piece → Prop
  | done : Spells [] []
  /-- A character that is no sign. -/
  | literal {c : Char} {rest : List Char} {pieces : List Piece} (plain : c ∉ signs)
      (others : Spells rest pieces) : Spells (c :: rest) (.literal c :: pieces)
  /-- Any character behind a backslash. -/
  | escaped {c : Char} {rest : List Char} {pieces : List Piece} (others : Spells rest pieces) :
      Spells ('\\' :: c :: rest) (.literal c :: pieces)
  /-- All the spaces that stand together. -/
  | blanks {count : Nat} {rest : List Char} {pieces : List Piece} (ends : rest.head? ≠ some ' ')
      (others : Spells rest pieces) :
      Spells (List.replicate (count + 1) ' ' ++ rest) (.blanks :: pieces)
  /-- A part in square brackets, with the spaces that follow it. -/
  | optional {inner rest : List Char} {count : Nat} {alternatives : List Alternative}
      {pieces : List Piece} (body : SpellsEach inner alternatives) (ends : rest.head? ≠ some ' ')
      (others : Spells rest pieces) :
      Spells ('[' :: (inner ++ ']' :: (List.replicate count ' ' ++ rest)))
        (.optional alternatives (0 < count) :: pieces)
  /-- A part in round brackets. -/
  | choice {inner rest : List Char} {alternatives : List Alternative} {pieces : List Piece}
      (body : SpellsEach inner alternatives) (others : Spells rest pieces) :
      Spells ('(' :: (inner ++ ')' :: rest)) (.choice alternatives :: pieces)
  /-- A part in pointed brackets, which is not read any further. -/
  | raw {text rest : List Char} {pieces : List Piece} (closes : '>' ∉ text)
      (others : Spells rest pieces) : Spells ('<' :: (text ++ '>' :: rest)) (.raw text :: pieces)
  /-- The name of a type between percent signs. -/
  | argument {text rest : List Char} {pieces : List Piece} (closes : '%' ∉ text)
      (named : typeName text ≠ []) (others : Spells rest pieces) :
      Spells ('%' :: (text ++ '%' :: rest)) (.argument (String.ofList (typeName text)) :: pieces)

/-- A text spells an alternative. -/
inductive SpellsAlternative : List Char → Alternative → Prop
  | unmarked {text : List Char} {body : List Piece} (plain : ¬ StartsMarked text)
      (pieces : Spells text body) : SpellsAlternative text (.mk none body)
  | marked {digits text : List Char} {body : List Piece} (nonempty : digits ≠ [])
      (all : ∀ c ∈ digits, Text.isAsciiDigit c = true) (pieces : Spells text body) :
      SpellsAlternative (digits ++ markSign :: text) (.mk (markOf digits) body)

/-- A text spells alternatives, with bars between them. -/
inductive SpellsEach : List Char → List Alternative → Prop
  | last {text : List Char} {alternative : Alternative}
      (only : SpellsAlternative text alternative) : SpellsEach text [alternative]
  | more {text rest : List Char} {alternative : Alternative} {others : List Alternative}
      (first : SpellsAlternative text alternative) (later : SpellsEach rest others) :
      SpellsEach (text ++ '|' :: rest) (alternative :: others)

end

/-! ## Reading -/

/-- What is read as pieces spells them. -/
def ReadsSequence (fuel : Nat) : Prop :=
  ∀ closing chars pieces behind, readSequence closing fuel chars = .ok (pieces, behind) →
    ∃ own, chars = own ++ behind ∧ Spells own pieces

/-- What is read as alternatives spells them. -/
def ReadsAlternatives (fuel : Nat) : Prop :=
  ∀ close chars alternatives behind,
    readAlternatives close fuel chars = .ok (alternatives, behind) →
      ∃ own, chars = own ++ close :: behind ∧ SpellsEach own alternatives

theorem not_mem_of_cut? {mark : Char} {chars before after : List Char}
    (cut : Text.cut? [mark] chars = some (before, after)) : mark ∉ before := by
  induction chars generalizing before with
  | nil => cases cut
  | cons c rest ih =>
    unfold Text.cut? at cut
    split at cut
    · cases cut
      exact List.not_mem_nil
    · next absent =>
      obtain ⟨⟨first, _⟩, found, same⟩ := Option.map_eq_some_iff.mp cut
      cases same
      rw [List.mem_cons, not_or]
      refine ⟨fun same => ?_, ih found⟩
      rw [same] at absent
      simp [Text.afterLead?] at absent

theorem readUntil_eq_ok {closing : Char} {chars text after : List Char}
    (reads : readUntil closing chars = .ok (text, after)) :
    chars = text ++ closing :: after ∧ closing ∉ text := by
  unfold readUntil at reads
  split at reads
  · next cut =>
    cases reads
    have whole := Text.eq_of_cut? cut
    rw [List.append_assoc] at whole
    exact ⟨whole, not_mem_of_cut? cut⟩
  · cases reads

theorem readUntil_append_cons {closing : Char} {text : List Char} (absent : closing ∉ text)
    (after : List Char) : readUntil closing (text ++ closing :: after) = .ok (text, after) := by
  have cut : Text.cut? [closing] (text ++ closing :: after) = some (text, after) :=
    Text.cut?_append absent after
  rw [readUntil, cut]

/-- The spaces at the start of a text, and what follows them. -/
theorem spaces_append (chars : List Char) :
    ∃ count, chars = List.replicate count ' ' ++ chars.dropWhile (· == ' ') ∧
      (chars.dropWhile (· == ' ')).head? ≠ some ' ' ∧
      (chars.head? == some ' ') = decide (0 < count) := by
  induction chars with
  | nil => exact ⟨0, rfl, Option.some_ne_none _ |>.symm, rfl⟩
  | cons c rest ih =>
    by_cases space : c = ' '
    · obtain ⟨count, whole, ends, _⟩ := ih
      subst space
      rw [List.dropWhile_cons_of_pos (by rfl)]
      refine ⟨count + 1, ?_, ends, ?_⟩
      · rw [List.replicate_succ, List.cons_append, ← whole]
      · simp
    · have other : ¬ (c == ' ') = true := by simp [space]
      rw [List.dropWhile_cons_of_neg (p := (· == ' ')) other]
      exact ⟨0, rfl, by simp [space], by simp [space]⟩

/-! ### One piece after the other -/

/-- A text starts with a piece, and its sequence goes on with the text behind it. -/
inductive StartsWith (fuel : Nat) : List Char → Piece → List Char → Prop
  | literal {c : Char} {rest : List Char} (plain : c ∉ signs) :
      StartsWith fuel (c :: rest) (.literal c) rest
  | escaped {c : Char} {rest : List Char} : StartsWith fuel ('\\' :: c :: rest) (.literal c) rest
  | blanks {rest : List Char} : StartsWith fuel (' ' :: rest) .blanks (rest.dropWhile (· == ' '))
  | optional {rest after : List Char} {alternatives : List Alternative}
      (found : readAlternatives ']' fuel rest = .ok (alternatives, after)) :
      StartsWith fuel ('[' :: rest) (.optional alternatives (after.head? == some ' '))
        (after.dropWhile (· == ' '))
  | choice {rest after : List Char} {alternatives : List Alternative}
      (found : readAlternatives ')' fuel rest = .ok (alternatives, after)) :
      StartsWith fuel ('(' :: rest) (.choice alternatives) after
  | raw {rest text after : List Char} (found : readUntil '>' rest = .ok (text, after)) :
      StartsWith fuel ('<' :: rest) (.raw text) after
  | argument {rest text after : List Char} (found : readUntil '%' rest = .ok (text, after))
      (named : typeName text ≠ []) :
      StartsWith fuel ('%' :: rest) (.argument (String.ofList (typeName text))) after

/-- A sequence that does not stop is read as the piece it starts with, and what is behind that. -/
theorem StartsWith.readSequence_eq {closing : Option Char} {fuel : Nat} {chars after : List Char}
    {piece : Piece} (starts : StartsWith fuel chars piece after)
    (onward : ∀ c ∈ chars.head?, stopsAt closing c = false) :
    readSequence closing (fuel + 1) chars =
      (readSequence closing fuel after).map fun read => (piece :: read.1, read.2) := by
  have noStop {c : Char} (first : chars.head? = some c) : ¬ stopsAt closing c = true := by
    rw [onward c first]
    exact Bool.false_ne_true
  conv => lhs; unfold readSequence
  cases starts with
  | @literal c rest plain =>
    simp only [signs, List.mem_cons, List.not_mem_nil, or_false, not_or] at plain
    obtain ⟨square, squared, round, rounded, bar, angle, percent, slash, blank⟩ := plain
    dsimp only
    rw [if_neg (noStop rfl), if_neg square, if_neg round, if_neg angle, if_neg percent,
      if_neg slash, if_neg blank, if_neg (by simp [squared, rounded, bar])]
    cases readSequence closing fuel after <;> rfl
  | escaped =>
    dsimp only
    rw [if_neg (noStop rfl), if_neg (by decide), if_neg (by decide), if_neg (by decide),
      if_neg (by decide), if_pos rfl]
    cases readSequence closing fuel after <;> rfl
  | @blanks rest =>
    dsimp only
    rw [if_neg (noStop rfl), if_neg (by decide), if_neg (by decide), if_neg (by decide),
      if_neg (by decide), if_neg (by decide), if_pos rfl]
    cases readSequence closing fuel (rest.dropWhile (· == ' ')) <;> rfl
  | @optional rest after _ found =>
    dsimp only
    rw [if_neg (noStop rfl), if_pos rfl, found]
    dsimp only
    cases readSequence closing fuel (after.dropWhile (· == ' ')) <;> rfl
  | choice found =>
    dsimp only
    rw [if_neg (noStop rfl), if_neg (by decide), if_pos rfl, found]
    dsimp only
    cases readSequence closing fuel after <;> rfl
  | raw found =>
    dsimp only
    rw [if_neg (noStop rfl), if_neg (by decide), if_neg (by decide), if_pos rfl, found]
    dsimp only
    cases readSequence closing fuel after <;> rfl
  | argument found named =>
    dsimp only
    rw [if_neg (noStop rfl), if_neg (by decide), if_neg (by decide), if_neg (by decide),
      if_pos rfl, found]
    dsimp only
    rw [if_neg fun none => named (List.isEmpty_iff.mp none)]
    cases readSequence closing fuel after <;> rfl

/-- A sequence that is read has come to its end, or it starts with a piece and is read on from
there. -/
theorem readSequence_cases {closing : Option Char} {fuel : Nat} {chars behind : List Char}
    {pieces : List Piece} (reads : readSequence closing (fuel + 1) chars = .ok (pieces, behind)) :
    (pieces = [] ∧ behind = chars) ∨
      ∃ piece after others, StartsWith fuel chars piece after ∧
        (∀ c ∈ chars.head?, stopsAt closing c = false) ∧
        readSequence closing fuel after = .ok (others, behind) ∧ pieces = piece :: others := by
  cases chars with
  | nil =>
    unfold readSequence at reads
    cases reads
    exact .inl ⟨rfl, rfl⟩
  | cons c rest =>
  unfold readSequence at reads
  dsimp only at reads
  split at reads
  · cases reads
    exact .inl ⟨rfl, rfl⟩
  next goes =>
  have onward : ∀ d ∈ (c :: rest).head?, stopsAt closing d = false := fun d first =>
    Option.some.inj first ▸ Bool.eq_false_iff.mpr goes
  refine .inr ?_
  split at reads
  · next square =>
    subst square
    split at reads
    · cases reads
    · next found =>
      split at reads
      · cases reads
      · next later =>
        cases reads
        exact ⟨_, _, _, .optional found, onward, later, rfl⟩
  split at reads
  · next round =>
    subst round
    split at reads
    · cases reads
    · next found =>
      split at reads
      · cases reads
      · next later =>
        cases reads
        exact ⟨_, _, _, .choice found, onward, later, rfl⟩
  split at reads
  · next angle =>
    subst angle
    split at reads
    · cases reads
    · next found =>
      split at reads
      · cases reads
      · next later =>
        cases reads
        exact ⟨_, _, _, .raw found, onward, later, rfl⟩
  split at reads
  · next percent =>
    subst percent
    split at reads
    · cases reads
    · next found =>
      split at reads
      · cases reads
      · next named =>
        split at reads
        · cases reads
        · next later =>
          cases reads
          exact ⟨_, _, _, .argument found (fun none => named (List.isEmpty_iff.mpr none)), onward,
            later, rfl⟩
  split at reads
  · next slash =>
    subst slash
    split at reads
    · cases reads
    · split at reads
      · cases reads
      · next later =>
        cases reads
        exact ⟨_, _, _, .escaped, onward, later, rfl⟩
  split at reads
  · next blank =>
    subst blank
    split at reads
    · cases reads
    · next later =>
      cases reads
      exact ⟨_, _, _, .blanks, onward, later, rfl⟩
  split at reads
  · cases reads
  · next square round angle percent slash blank other =>
    split at reads
    · cases reads
    · next later =>
      cases reads
      have plain : c ∉ signs := by
        simp only [Bool.or_eq_true, decide_eq_true_eq, not_or] at other
        simp [signs, square, round, angle, percent, slash, blank, other]
      exact ⟨_, _, _, .literal plain, onward, later, rfl⟩

theorem readsSequence_succ {fuel : Nat} (sequence : ReadsSequence fuel)
    (alternatives : ReadsAlternatives fuel) : ReadsSequence (fuel + 1) := by
  intro closing chars pieces behind reads
  rcases readSequence_cases reads with ⟨rfl, rfl⟩ | ⟨piece, after, others, starts, -, later, rfl⟩
  · exact ⟨[], rfl, .done⟩
  obtain ⟨own, whole, spells⟩ := sequence _ _ _ _ later
  -- What follows the spaces behind a piece does not start with one.
  have ends (solid : after.head? ≠ some ' ') : own.head? ≠ some ' ' := fun space =>
    solid (by rw [whole, List.head?_append, space]; rfl)
  cases starts with
  | @literal c _ plain => exact ⟨c :: own, by rw [whole, List.cons_append], .literal plain spells⟩
  | @escaped c => exact ⟨'\\' :: c :: own, by rw [whole]; rfl, .escaped spells⟩
  | @blanks rest =>
    obtain ⟨count, split, solid, -⟩ := spaces_append rest
    rw [whole] at split
    refine ⟨List.replicate (count + 1) ' ' ++ own, ?_, .blanks (ends solid) spells⟩
    rw [split]
    simp [List.replicate_succ]
  | @optional _ after _ found =>
    obtain ⟨inner, rfl, body⟩ := alternatives _ _ _ _ found
    obtain ⟨count, split, solid, absorbs⟩ := spaces_append after
    rw [whole] at split
    refine ⟨'[' :: (inner ++ ']' :: (List.replicate count ' ' ++ own)), by simp [split], ?_⟩
    rw [absorbs]
    exact .optional body (ends solid) spells
  | choice found =>
    obtain ⟨inner, rfl, body⟩ := alternatives _ _ _ _ found
    exact ⟨'(' :: (inner ++ ')' :: own), by simp [whole], .choice body spells⟩
  | @raw _ text _ found =>
    obtain ⟨rfl, closes⟩ := readUntil_eq_ok found
    exact ⟨'<' :: (text ++ '>' :: own), by simp [whole], .raw closes spells⟩
  | @argument _ text _ found named =>
    obtain ⟨rfl, closes⟩ := readUntil_eq_ok found
    exact ⟨'%' :: (text ++ '%' :: own), by simp [whole], .argument closes named spells⟩

theorem isAsciiDigit_markSign : Text.isAsciiDigit markSign = false := by decide

/-- The digits at the start of a text that starts with a number and the sign for a mark. -/
theorem takeWhile_marked {digits rest : List Char}
    (all : ∀ c ∈ digits, Text.isAsciiDigit c = true) :
    (digits ++ markSign :: rest).takeWhile Text.isAsciiDigit = digits := by
  rw [List.takeWhile_append_of_pos all, List.takeWhile_cons_of_neg, List.append_nil]
  rw [isAsciiDigit_markSign]
  exact Bool.false_ne_true

theorem markOfDigits_eq {digits : List Char} (nonempty : digits ≠ [])
    (all : ∀ c ∈ digits, Text.isAsciiDigit c = true) : markOfDigits digits = markOf digits := by
  obtain ⟨first, others, rfl⟩ := List.exists_cons_of_ne_nil nonempty
  have unsigned : first ≠ '+' := by
    rintro rfl
    exact absurd (all '+' List.mem_cons_self) (by decide)
  have every : (first :: others).all Text.isAsciiDigit = true := List.all_eq_true.mpr all
  unfold markOfDigits Number.readNat?
  dsimp only
  split
  · next same => exact absurd (List.cons.inj same).1 unsigned
  · unfold Number.readDigits? markOf
    rw [every]
    simp only [List.isEmpty_cons, Bool.not_true, Bool.or_false, Bool.false_eq_true, if_false,
      Option.filter_some, decide_eq_true_eq]

/-- An alternative that starts with a number and the sign for a mark has that mark. -/
theorem readMark_marked {digits rest : List Char} (nonempty : digits ≠ [])
    (all : ∀ c ∈ digits, Text.isAsciiDigit c = true) :
    readMark (digits ++ markSign :: rest) = (markOf digits, rest) := by
  obtain ⟨first, others, rfl⟩ := List.exists_cons_of_ne_nil nonempty
  unfold readMark
  dsimp only
  rw [takeWhile_marked all, List.drop_left]
  dsimp only
  rw [if_pos rfl, markOfDigits_eq nonempty all]

theorem readMark_plain {chars : List Char} (plain : ¬ StartsMarked chars) :
    readMark chars = (none, chars) := by
  unfold readMark
  dsimp only
  split
  · next first others c rest digits behind =>
    split
    · next sign =>
      obtain ⟨behind', whole⟩ := List.takeWhile_prefix Text.isAsciiDigit (l := chars)
      have same : c :: rest = behind' := by
        have dropped := congrArg (List.drop (chars.takeWhile Text.isAsciiDigit).length) whole
        rw [List.drop_left, behind] at dropped
        exact dropped.symm
      refine absurd ⟨chars.takeWhile Text.isAsciiDigit, rest, ?_, ?_, ?_⟩ plain
      · rw [digits]
        exact List.cons_ne_nil first others
      · exact fun c member => List.all_eq_true.mp List.all_takeWhile c member
      · rw [← sign, same, whole]
    · rfl
  · rfl

theorem readsAlternatives_succ {fuel : Nat} (sequence : ReadsSequence fuel)
    (alternatives : ReadsAlternatives fuel) : ReadsAlternatives (fuel + 1) := by
  intro close chars result behind reads
  unfold readAlternatives at reads
  dsimp only at reads
  have own {text later : List Char} {body : List Piece} (whole : (readMark chars).2 = text ++ later)
      (spells : Spells text body) :
      ∃ start, chars = start ++ later ∧
        SpellsAlternative start (.mk (readMark chars).1 body) := by
    by_cases marked : StartsMarked chars
    · obtain ⟨digits, rest, some, all, rfl⟩ := marked
      rw [readMark_marked some all] at whole ⊢
      obtain rfl : rest = _ := whole
      exact ⟨digits ++ markSign :: text, by simp, .marked some all spells⟩
    · rw [readMark_plain marked] at whole ⊢
      obtain rfl : chars = _ := whole
      refine ⟨text, rfl, .unmarked (fun ⟨digits, rest, nonempty, all, same⟩ =>
        marked ?_) spells⟩
      exact ⟨digits, rest ++ later, nonempty, all, by simp [same]⟩
  split at reads
  · cases reads
  · cases reads
  · next body c after found =>
    obtain ⟨text, whole, spells⟩ := sequence _ _ _ _ found
    obtain ⟨start, split, alternative⟩ := own whole spells
    split at reads
    · next bar =>
      subst bar
      split at reads
      · cases reads
      · next later =>
        cases reads
        obtain ⟨rest, rfl, others⟩ := alternatives _ _ _ _ later
        exact ⟨start ++ '|' :: rest, by simp [split], .more alternative others⟩
    · split at reads
      · next closes =>
        subst closes
        cases reads
        exact ⟨start, split, .last alternative⟩
      · cases reads

theorem reads_spell (fuel : Nat) : ReadsSequence fuel ∧ ReadsAlternatives fuel := by
  induction fuel with
  | zero =>
    refine ⟨fun closing chars pieces behind reads => ?_, fun close chars _ _ reads => ?_⟩
    · unfold readSequence at reads
      cases reads
      exact ⟨[], rfl, .done⟩
    · unfold readAlternatives at reads
      cases reads
  | succ fuel ih => exact ⟨readsSequence_succ ih.1 ih.2, readsAlternatives_succ ih.1 ih.2⟩

/-- A pattern spells the pieces it is read as. -/
theorem readPattern_spells {chars : List Char} {pieces : List Piece}
    (reads : readPattern chars = .ok pieces) : Spells chars pieces := by
  unfold readPattern at reads
  split at reads
  · cases reads
  · next found =>
    cases reads
    obtain ⟨own, rfl, spells⟩ := (reads_spell _).1 none chars _ _ found
    rw [List.append_nil]
    exact spells
  · cases reads

end Piece

end ScriptBinding
