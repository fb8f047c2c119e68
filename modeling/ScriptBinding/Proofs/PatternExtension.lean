import Mathlib.Data.List.TakeWhile
import ScriptBinding.Pattern.Basic
import ScriptBinding.Proofs.PatternNotation

/-! # Patterns with something behind them

What is read of a pattern stays the same when the pattern goes on behind its end, unless it goes on
with spaces, which could belong to those before. The groups of what comes behind are numbered behind
its own.
-/

namespace ScriptBinding.Piece

/-- Pieces that stand in front of what is read. -/
def behindPieces (pieces : List Piece) (read : List Piece × List Char) : List Piece × List Char :=
  (pieces ++ read.1, read.2)

/-- A sequence that goes on behind its end is read on from there. More fuel does no harm, and every
piece leaves some. -/
def ExtendsSequence (fuel : Nat) : Prop :=
  ∀ closing chars pieces behind, readSequence closing fuel chars = .ok (pieces, behind) →
    (∀ c ∈ behind.head?, stopsAt closing c = true) →
    ∀ tail, (behind ++ tail).head? ≠ some ' ' → ∀ extra, ∃ left,
      fuel + extra ≤ left + chars.length ∧
      readSequence closing (fuel + extra) (chars ++ tail) =
        (readSequence closing left (behind ++ tail)).map (behindPieces pieces)

/-- Alternatives are read up to the bracket that closes them, whatever follows it. -/
def ExtendsAlternatives (fuel : Nat) : Prop :=
  ∀ close ∈ [']', ')'], ∀ chars alternatives behind,
    readAlternatives close fuel chars = .ok (alternatives, behind) →
    ∀ tail extra,
      readAlternatives close (fuel + extra) (chars ++ tail) = .ok (alternatives, behind ++ tail)

/-! ## Parts of the notation -/

theorem readUntil_append {closing : Char} {chars text after : List Char}
    (reads : readUntil closing chars = .ok (text, after)) (tail : List Char) :
    readUntil closing (chars ++ tail) = .ok (text, after ++ tail) := by
  obtain ⟨rfl, absent⟩ := readUntil_eq_ok reads
  rw [List.append_assoc, List.cons_append, readUntil_append_cons absent]

theorem readSequence_stopped {closing : Option Char} {c : Char} (stops : stopsAt closing c = true)
    (fuel : Nat) (rest : List Char) :
    readSequence closing fuel (c :: rest) = .ok ([], c :: rest) := by
  cases fuel with
  | zero => rfl
  | succ fuel =>
    unfold readSequence
    exact if_pos stops

theorem readSequence_nil {closing : Option Char} {fuel : Nat} {pieces : List Piece}
    {behind : List Char} (reads : readSequence closing fuel [] = .ok (pieces, behind)) :
    behind = [] := by
  cases fuel <;> cases reads <;> rfl

/-- Spaces at the end of what has been read so far are not spaces of what follows. -/
theorem dropWhile_spaces_append {closing : Option Char} {fuel : Nat} {after : List Char}
    {pieces : List Piece} {behind tail : List Char}
    (reads : readSequence closing fuel (after.dropWhile (· == ' ')) = .ok (pieces, behind))
    (apart : (behind ++ tail).head? ≠ some ' ') :
    (after ++ tail).dropWhile (· == ' ') = after.dropWhile (· == ' ') ++ tail ∧
      ((after ++ tail).head? == some ' ') = (after.head? == some ' ') := by
  rw [List.dropWhile_append]
  split
  · next spaces =>
    rw [List.isEmpty_iff.mp spaces] at reads ⊢
    obtain rfl := readSequence_nil reads
    have own : tail.dropWhile (· == ' ') = tail := by
      cases tail with
      | nil => rfl
      | cons c rest =>
        have other : ¬ (c == ' ') = true := fun same => apart (congrArg some (eq_of_beq same))
        exact List.dropWhile_cons_of_neg other
    refine ⟨own, ?_⟩
    cases after with
    | nil => exact (beq_false_of_ne apart).trans rfl
    | cons c rest => rfl
  · next solid =>
    refine ⟨rfl, ?_⟩
    cases after with
    | nil => exact absurd rfl solid
    | cons c rest => rfl

/-! ## Sequences -/

theorem map_behindPieces_nil {ε : Type} (result : Except ε (List Piece × List Char)) :
    result.map (behindPieces []) = result := by
  cases result <;> rfl

theorem length_of_readUntil {closing : Char} {chars text after : List Char}
    (reads : readUntil closing chars = .ok (text, after)) : after.length ≤ chars.length := by
  obtain ⟨rfl, -⟩ := readUntil_eq_ok reads
  simp only [List.length_append, List.length_cons]
  omega

theorem length_of_readAlternatives {close : Char} {fuel : Nat} {chars : List Char}
    {read : List Alternative × List Char} (reads : readAlternatives close fuel chars = .ok read) :
    read.2.length ≤ chars.length := by
  obtain ⟨own, rfl, -⟩ := (reads_spell fuel).2 close chars _ _ reads
  simp only [List.length_append, List.length_cons]
  omega

namespace StartsWith

variable {fuel : Nat} {chars after : List Char} {piece : Piece}

/-- What is behind a piece is shorter than the text that starts with it. -/
theorem length_lt (starts : StartsWith fuel chars piece after) : after.length < chars.length := by
  cases starts with
  | literal => exact Nat.lt_succ_self _
  | escaped => exact Nat.lt_succ_of_lt (Nat.lt_succ_self _)
  | blanks => exact Nat.lt_succ_of_le (List.length_dropWhile_le _ _)
  | optional found =>
    exact Nat.lt_succ_of_le
      ((List.length_dropWhile_le _ _).trans (length_of_readAlternatives found))
  | choice found => exact Nat.lt_succ_of_le (length_of_readAlternatives found)
  | raw found => exact Nat.lt_succ_of_le (length_of_readUntil found)
  | argument found => exact Nat.lt_succ_of_le (length_of_readUntil found)

/-- A text starts with the same piece when it goes on behind the end of its sequence. -/
theorem append (starts : StartsWith fuel chars piece after)
    (alternatives : ExtendsAlternatives fuel) {closing : Option Char} {pieces : List Piece}
    {behind tail : List Char} (later : readSequence closing fuel after = .ok (pieces, behind))
    (apart : (behind ++ tail).head? ≠ some ' ') (extra : Nat) :
    StartsWith (fuel + extra) (chars ++ tail) piece (after ++ tail) := by
  cases starts with
  | literal plain => exact .literal plain
  | escaped => exact .escaped
  | blanks =>
    rw [← (dropWhile_spaces_append later apart).1]
    exact .blanks
  | optional found =>
    obtain ⟨spaces, absorbs⟩ := dropWhile_spaces_append later apart
    rw [← spaces, ← absorbs]
    exact .optional (alternatives ']' List.mem_cons_self _ _ _ found tail extra)
  | choice found =>
    have round : ')' ∈ [']', ')'] := List.mem_cons_of_mem _ (List.mem_singleton_self _)
    exact .choice (alternatives ')' round _ _ _ found tail extra)
  | raw found => exact .raw (readUntil_append found tail)
  | argument found named => exact .argument (readUntil_append found tail) named

end StartsWith

theorem extendsSequence_succ {fuel : Nat} (sequence : ExtendsSequence fuel)
    (alternatives : ExtendsAlternatives fuel) : ExtendsSequence (fuel + 1) := by
  intro closing chars pieces behind reads ends tail apart extra
  rcases readSequence_cases reads with ⟨rfl, rfl⟩ |
    ⟨piece, after, others, starts, onward, later, rfl⟩
  · exact ⟨fuel + 1 + extra, Nat.le_add_right _ _, (map_behindPieces_nil _).symm⟩
  obtain ⟨left, enough, same⟩ := sequence _ _ _ _ later ends tail apart extra
  have shorter := starts.length_lt
  have first : (chars ++ tail).head? = chars.head? := by cases starts <;> rfl
  refine ⟨left, by omega, ?_⟩
  rw [Nat.add_right_comm,
    (starts.append alternatives later apart extra).readSequence_eq (first ▸ onward), same]
  cases readSequence closing left (behind ++ tail) <;> rfl

/-! ## Alternatives -/

/-- A mark is read from what stands in front of the first character that is no digit, and that
character. -/
theorem readMark_digits {digits : List Char} (all : ∀ c ∈ digits, Text.isAsciiDigit c = true)
    {c : Char} (noDigit : Text.isAsciiDigit c = false) (rest : List Char) :
    readMark (digits ++ c :: rest) =
      if digits ≠ [] ∧ c = markSign then (markOfDigits digits, rest)
      else (none, digits ++ c :: rest) := by
  have first : (digits ++ c :: rest).takeWhile Text.isAsciiDigit = digits := by
    rw [List.takeWhile_append_of_pos all, List.takeWhile_cons_of_neg, List.append_nil]
    rw [noDigit]
    exact Bool.false_ne_true
  unfold readMark
  dsimp only
  rw [first, List.drop_left]
  cases digits with
  | nil => rfl
  | cons d others =>
    dsimp only
    split
    · next sign => rw [if_pos ⟨List.cons_ne_nil _ _, sign⟩]
    · next other => rw [if_neg fun both => other both.2]

theorem readMark_suffix (chars : List Char) : (readMark chars).2 <:+ chars := by
  unfold readMark
  dsimp only
  split
  · next behind =>
    split
    · exact (List.suffix_cons _ _).trans (behind ▸ List.drop_suffix _ _)
    · exact List.suffix_rfl
  · exact List.suffix_rfl

/-- The mark of an alternative that has a character that is no digit. -/
theorem readMark_append {chars : List Char} {c : Char} (member : c ∈ chars)
    (noDigit : Text.isAsciiDigit c = false) (tail : List Char) :
    readMark (chars ++ tail) = ((readMark chars).1, (readMark chars).2 ++ tail) := by
  have solid : chars.dropWhile Text.isAsciiDigit ≠ [] := fun none => by
    rw [List.dropWhile_eq_nil_iff.mp none c member] at noDigit
    cases noDigit
  obtain ⟨d, rest, behind⟩ := List.exists_cons_of_ne_nil solid
  have stops : Text.isAsciiDigit d = false := by
    have first := List.head_dropWhile_not Text.isAsciiDigit solid
    simpa [behind] using first
  have all : ∀ c ∈ chars.takeWhile Text.isAsciiDigit, Text.isAsciiDigit c = true :=
    fun _ => List.mem_takeWhile_imp
  have whole : chars = chars.takeWhile Text.isAsciiDigit ++ d :: rest := by
    rw [← behind, List.takeWhile_append_dropWhile]
  rw [whole, List.append_assoc, List.cons_append]
  generalize chars.takeWhile Text.isAsciiDigit = digits at all
  rw [readMark_digits all stops, readMark_digits all stops]
  split
  · rfl
  · rw [List.append_assoc, List.cons_append]

theorem extendsAlternatives_succ {fuel : Nat} (sequence : ExtendsSequence fuel)
    (alternatives : ExtendsAlternatives fuel) : ExtendsAlternatives (fuel + 1) := by
  intro close bracket chars result behind reads tail extra
  have sign : Text.isAsciiDigit close = false ∧ close ≠ ' ' := by
    rcases List.mem_cons.mp bracket with rfl | later
    · exact ⟨by decide, by decide⟩
    · cases List.mem_singleton.mp later
      exact ⟨by decide, by decide⟩
  have onward {body : List Piece} {c : Char} {after : List Char}
      (found : readSequence (some close) fuel (readMark chars).2 = .ok (body, c :: after))
      (ends : c = '|' ∨ c = close) :
      readMark (chars ++ tail) = ((readMark chars).1, (readMark chars).2 ++ tail) ∧
        readSequence (some close) (fuel + extra) ((readMark chars).2 ++ tail) =
          .ok (body, c :: (after ++ tail)) := by
    have stops : stopsAt (some close) c = true := by
      rcases ends with rfl | rfl <;> simp [stopsAt]
    have apart : Text.isAsciiDigit c = false ∧ c ≠ ' ' := by
      rcases ends with rfl | rfl
      · exact ⟨by decide, by decide⟩
      · exact sign
    obtain ⟨own, whole, _⟩ := (reads_spell fuel).1 _ _ _ _ found
    have member : c ∈ chars := by
      refine readMark_suffix chars |>.subset ?_
      rw [whole]
      exact List.mem_append_right _ List.mem_cons_self
    obtain ⟨left, _, same⟩ := sequence _ _ _ _ found
      (fun d isFirst => Option.some.inj isFirst ▸ stops)
      tail (fun same => apart.2 (Option.some.inj same)) extra
    refine ⟨readMark_append member apart.1 tail, ?_⟩
    rw [same, List.cons_append, readSequence_stopped stops, Except.map, behindPieces,
      List.append_nil]
  rw [Nat.add_right_comm]
  unfold readAlternatives at reads ⊢
  dsimp only at reads ⊢
  split at reads
  · cases reads
  · cases reads
  · next body c after found =>
    split at reads
    · next bar =>
      split at reads
      · cases reads
      · next later =>
        cases reads
        obtain ⟨mark, same⟩ := onward found (Or.inl bar)
        rw [mark]
        dsimp only
        rw [same]
        dsimp only
        rw [if_pos bar, alternatives close bracket _ _ _ later tail extra]
    · next other =>
      split at reads
      · next closes =>
        cases reads
        obtain ⟨mark, same⟩ := onward found (Or.inr closes)
        rw [mark]
        dsimp only
        rw [same]
        dsimp only
        rw [if_neg other, if_pos closes]
      · cases reads

theorem reads_extend (fuel : Nat) : ExtendsSequence fuel ∧ ExtendsAlternatives fuel := by
  induction fuel with
  | zero =>
    refine ⟨fun closing chars pieces behind reads ends tail apart extra => ?_,
      fun close _ chars _ _ reads => ?_⟩
    · unfold readSequence at reads
      cases reads
      rw [Nat.zero_add]
      exact ⟨extra, Nat.le_add_right _ _, (map_behindPieces_nil _).symm⟩
    · unfold readAlternatives at reads
      cases reads
  | succ fuel ih =>
    exact ⟨extendsSequence_succ ih.1 ih.2, extendsAlternatives_succ ih.1 ih.2⟩

/-- A pattern behind another one, unless it starts with a space. -/
theorem readPattern_append {chars tail : List Char} {pieces others : List Piece}
    (first : readPattern chars = .ok pieces) (second : readPattern tail = .ok others)
    (apart : tail.head? ≠ some ' ') : readPattern (chars ++ tail) = .ok (pieces ++ others) := by
  have whole {chars : List Char} {pieces : List Piece} (reads : readPattern chars = .ok pieces) :
      readSequence none (2 * chars.length + 1) chars = .ok (pieces, []) := by
    unfold readPattern at reads
    split at reads
    · cases reads
    · next found =>
      cases reads
      exact found
    · cases reads
  have noEnds : ∀ c ∈ ([] : List Char).head?, stopsAt none c = true := nofun
  obtain ⟨left, enough, same⟩ := (reads_extend _).1 _ _ _ _ (whole first) noEnds tail apart
    (2 * tail.length)
  obtain ⟨extra, rfl⟩ : ∃ extra, left = 2 * tail.length + 1 + extra :=
    ⟨left - (2 * tail.length + 1), by omega⟩
  obtain ⟨_, _, last⟩ := (reads_extend _).1 _ _ _ _ (whole second) noEnds [] nofun extra
  rw [List.append_nil] at last
  have fuel : 2 * (chars ++ tail).length + 1 = 2 * chars.length + 1 + 2 * tail.length := by
    rw [List.length_append]
    omega
  have ended (fuel : Nat) : readSequence none fuel [] = .ok ([], []) := by cases fuel <;> rfl
  rw [readPattern, fuel, same, List.nil_append, last, List.append_nil, ended]
  simp [Except.map, behindPieces]

/-! ## Expressions -/

theorem capturesOf_append (pieces others : List Piece) :
    capturesOf (pieces ++ others) = capturesOf pieces ++ capturesOf others := by
  induction pieces with
  | nil => rfl
  | cons piece rest ih => rw [List.cons_append, capturesOf, ih, capturesOf, List.append_assoc]

section Expressions

variable {number : Nat} {pieces others : List Piece} {items more : List Regex}

/-- The expressions of two sequences, one behind the other. -/
theorem regexOf?_append (first : regexOf? number pieces = some items)
    (rest : regexOf? (number + (capturesOf pieces).length) others = some more) :
    regexOf? number (pieces ++ others) = some (items ++ more) := by
  induction pieces generalizing number items with
  | nil =>
    cases first
    exact rest
  | cons piece pieces ih =>
    unfold regexOf? at first
    split at first
    · next own later =>
      cases first
      rw [capturesOf, List.length_append, ← Nat.add_assoc] at rest
      rw [List.cons_append, regexOf?, own, ih later rest]
      rfl
    · cases first

theorem regexOf?_word (word : List Char) (made : regexOf? number others = some items) :
    regexOf? number (word.map .literal ++ others) = some (word.map literalRegex ++ items) := by
  induction word with
  | nil => exact made
  | cons c rest ih =>
    have behind : regexOf? (number + (Piece.literal c).captures.length)
        (rest.map .literal ++ others) = some _ := ih
    rw [List.map_cons, List.cons_append, regexOf?, behind]
    rfl

theorem regexOf?_blanks (made : regexOf? number others = some items) :
    regexOf? number (.blanks :: others) = some (blanksRegex :: items) := by
  have behind : regexOf? (number + Piece.blanks.captures.length) others = some items := made
  rw [regexOf?, behind]
  rfl

end Expressions

end ScriptBinding.Piece
