import Mathlib.Algebra.Ring.Parity
import Mathlib.Data.List.Infix
import ScriptBinding.Item.Arguments
import ScriptBinding.Proofs.TreeWriting

/-! # Lists of arguments

Arguments that are written one after the other, with commas between them and any blanks around them,
are taken apart again. An argument closes the quotes and parentheses that it opens, and has commas
only inside them: whatever follows it is read as if it stood alone, and what is read of the argument
itself is a single piece. Only a single empty argument is lost, since nothing but blanks are no
arguments.
-/

namespace ScriptBinding

/-- Blanks at the end of a text are trimmed away, whatever stands before them. -/
theorem Text.trimChars_append_ending {ending : List Char}
    (blank : ∀ c ∈ ending, Text.isBlank c = true) (chars : List Char) :
    Text.trimChars (chars ++ ending) = Text.trimChars chars := by
  by_cases empty : chars.dropWhile Text.isBlank = []
  · have gone : ending.dropWhile Text.isBlank = [] := List.dropWhile_eq_nil_iff.mpr blank
    rw [Text.trimChars, Text.trimChars, List.dropWhile_append, empty, List.isEmpty_nil,
      if_pos rfl, gone]
  · have stays : (chars.dropWhile Text.isBlank).isEmpty = false := by simpa using empty
    rw [Text.trimChars, Text.trimChars, List.dropWhile_append, stays, if_neg Bool.false_ne_true,
      Text.trimEndChars_append_of_blank blank]

namespace Arguments

/-! ## Quotes and parentheses -/

/-- The characters of a text that stand outside quotes, without the quotes themselves. The text
starts inside quotes or not. -/
def outside (quoted : Bool) : List Char → List Char
  | [] => []
  | c :: chars =>
    if c = '"' then outside (!quoted) chars
    else if quoted then outside quoted chars
    else c :: outside quoted chars

theorem outside_cons {c : Char} (other : c ≠ '"') (chars : List Char) :
    outside false (c :: chars) = c :: outside false chars := by
  rw [outside, if_neg other, if_neg Bool.false_ne_true]

theorem outside_of_not_mem {chars : List Char} (noQuote : '"' ∉ chars) :
    outside false chars = chars := by
  induction chars with
  | nil => rfl
  | cons c others ih =>
    obtain ⟨other, later⟩ := List.ne_and_not_mem_of_not_mem_cons noQuote
    rw [outside_cons (Ne.symm other), ih later]

/-- How many parentheses a text opens outside quotes. -/
def opened (quoted : Bool) (chars : List Char) : Nat :=
  (outside quoted chars).count '('

/-- How many parentheses a text closes outside quotes. -/
def closed (quoted : Bool) (chars : List Char) : Nat :=
  (outside quoted chars).count ')'

/-- A text that is one argument, wherever it stands. -/
structure IsArgument (text : List Char) : Prop where
  trimmed : Text.trimChars text = text
  quotes : Even (text.count '"')
  /-- Outside quotes, no parenthesis is closed before it is opened. -/
  nested : ∀ before, before <+: text → closed false before ≤ opened false before
  balanced : closed false text = opened false text
  /-- A comma stands inside quotes or inside parentheses. -/
  commas : ∀ before, before ++ [','] <+: text →
    Odd (before.count '"') ∨ closed false before < opened false before

instance (text : List Char) : Decidable (IsArgument text) :=
  decidable_of_iff
    (Text.trimChars text = text ∧ Even (text.count '"') ∧
      (∀ before ∈ text.inits, closed false before ≤ opened false before) ∧
      closed false text = opened false text ∧
      ∀ before ∈ text.inits, before ++ [','] <+: text →
        Odd (before.count '"') ∨ closed false before < opened false before)
    ⟨fun ⟨trimmed, quotes, nested, balanced, commas⟩ =>
      ⟨trimmed, quotes, fun before start => nested before ((List.mem_inits _ _).mpr start), balanced,
        fun before start => commas before
          ((List.mem_inits _ _).mpr ((List.prefix_append before [',']).trans start)) start⟩,
      fun isArgument => ⟨isArgument.trimmed, isArgument.quotes,
        fun before start => isArgument.nested before ((List.mem_inits _ _).mp start),
        isArgument.balanced, fun before _ start => isArgument.commas before start⟩⟩

/-- A text that starts inside quotes or not, and inside so many parentheses, closes all of them and
has no comma that separates arguments. -/
structure Whole (quoted : Bool) (depth : Nat) (text : List Char) : Prop where
  quotes : Even (text.count '"' + quoted.toNat)
  nested : ∀ before, before <+: text → closed quoted before ≤ depth + opened quoted before
  balanced : closed quoted text = depth + opened quoted text
  commas : ∀ before, before ++ [','] <+: text →
    Odd (before.count '"' + quoted.toNat) ∨ closed quoted before < depth + opened quoted before

variable {quoted : Bool} {depth : Nat} {c : Char} {text : List Char}

theorem IsArgument.whole (isArgument : IsArgument text) : Whole false 0 text where
  quotes := isArgument.quotes
  nested before start := by simpa using isArgument.nested before start
  balanced := by simpa using isArgument.balanced
  commas before start := by simpa using isArgument.commas before start

/-- A text without signs is whole. -/
theorem Whole.of_plain (plain : ∀ c ∈ text, c ∉ ['"', '(', ')', ',']) : Whole false 0 text := by
  have absent : ∀ sign ∈ ['"', '(', ')', ','], sign ∉ text := fun sign isSign member =>
    plain sign member isSign
  have noParenthesis : ∀ before, before <+: text →
      closed false before = 0 ∧ opened false before = 0 := by
    intro before start
    have same : outside false before = before :=
      outside_of_not_mem fun member => absent '"' (by decide) (start.subset member)
    rw [closed, opened, same, List.count_eq_zero, List.count_eq_zero]
    exact ⟨fun member => absent ')' (by decide) (start.subset member),
      fun member => absent '(' (by decide) (start.subset member)⟩
  refine ⟨?_, ?_, ?_, ?_⟩
  · simp [List.count_eq_zero.mpr (absent '"' (by decide))]
  · intro before start
    simp [(noParenthesis before start).1]
  · obtain ⟨noneClosed, noneOpened⟩ := noParenthesis text (List.prefix_refl text)
    rw [noneClosed, noneOpened]
  · intro before start
    have member : ',' ∈ text := start.subset (by simp)
    exact absurd member (absent ',' (by decide))

theorem Whole.of_blank (blank : ∀ c ∈ text, Text.isBlank c = true) : Whole false 0 text := by
  apply Whole.of_plain
  intro c member isSign
  have solid : ∀ sign ∈ ['"', '(', ')', ','], Text.isBlank sign = false := by
    simp [Text.isBlank]
  exact absurd (blank c member) (Bool.eq_false_iff.mp (solid c isSign))

/-! ## One character -/

/-- What is whole stays so behind its first character, in the state that this has led to. -/
theorem Whole.tail (whole : Whole quoted depth (c :: text)) {quoted' : Bool} {depth' : Nat}
    (parity : ∀ before : List Char, Even (before.count '"' + quoted'.toNat) ↔
      Even ((c :: before).count '"' + quoted.toNat))
    (level : ∀ before, closed quoted (c :: before) + (depth' + opened quoted' before) =
      depth + opened quoted (c :: before) + closed quoted' before) :
    Whole quoted' depth' text where
  quotes := (parity text).mpr whole.quotes
  nested before start := by
    have own := whole.nested (c :: before) (List.prefix_cons_inj c |>.mpr start)
    have same := level before
    omega
  balanced := by
    have own := whole.balanced
    have same := level text
    omega
  commas before start := by
    have own := whole.commas (c :: before) (List.prefix_cons_inj c |>.mpr start)
    have same := level before
    rw [← Nat.not_even_iff_odd, parity before, Nat.not_even_iff_odd]
    refine own.imp_right fun less => ?_
    omega

/-- The first character of a whole text separates nothing: it belongs to the first piece, and the
rest of the text is whole again. -/
theorem Whole.step (whole : Whole quoted depth (c :: text)) :
    ∃ quoted' depth', Whole quoted' depth' text ∧
      ∀ rest, pieces quoted depth (c :: rest) = extend c (pieces quoted' depth' rest) := by
  by_cases quote : c = '"'
  · subst quote
    refine ⟨!quoted, depth, whole.tail (fun before => ?_) (fun before => ?_), fun rest => ?_⟩
    · rw [List.count_cons_self]
      cases quoted <;> simp [Nat.even_add_one, add_assoc]
    · simp only [closed, opened, outside, ↓reduceIte]
      omega
    · rw [pieces, if_pos rfl]
  have sameParity : ∀ before : List Char, Even (before.count '"' + quoted.toNat) ↔
      Even ((c :: before).count '"' + quoted.toNat) := by
    intro before
    rw [List.count_cons_of_ne quote]
  by_cases inside : quoted = true
  · subst inside
    refine ⟨true, depth, whole.tail sameParity (fun before => ?_), fun rest => ?_⟩
    · simp only [closed, opened, outside, quote, ↓reduceIte]
      omega
    · rw [pieces, if_neg quote, if_pos rfl]
  rw [Bool.not_eq_true] at inside
  subst inside
  have shown := outside_cons quote
  by_cases opens : c = '('
  · subst opens
    refine ⟨false, depth + 1, whole.tail sameParity (fun before => ?_), fun rest => ?_⟩
    · have other : '(' ≠ ')' := by decide
      simp only [closed, opened, shown, List.count_cons_self, List.count_cons_of_ne other]
      omega
    · simp [pieces]
  by_cases closes : c = ')'
  · subst closes
    have positive : 1 ≤ depth := by
      have first := whole.nested [')'] (by simp)
      simpa [closed, opened, outside] using first
    refine ⟨false, depth - 1, whole.tail sameParity (fun before => ?_), fun rest => ?_⟩
    · simp only [closed, opened, shown, List.count_cons_self, List.count_cons_of_ne opens]
      omega
    · simp [pieces]
  refine ⟨false, depth, whole.tail sameParity (fun before => ?_), fun rest => ?_⟩
  · simp only [closed, opened, shown, List.count_cons_of_ne closes, List.count_cons_of_ne opens]
    omega
  · have within : c = ',' → depth ≠ 0 := by
      rintro rfl
      have first : 0 < depth := by
        simpa [closed, opened, outside] using whole.commas [] (by simp)
      exact first.ne'
    rw [pieces, if_neg quote, if_neg Bool.false_ne_true, if_neg opens, if_neg closes, if_neg]
    simpa using within

/-! ## Whole texts -/

/-- What is read behind a whole text is read as if it stood alone, and the text is part of its first
piece. -/
theorem Whole.pieces_append (whole : Whole quoted depth text) (rest : List Char) :
    pieces quoted depth (text ++ rest) = text.foldr extend (pieces false 0 rest) := by
  induction text generalizing quoted depth with
  | nil =>
    have settled : depth = 0 := by simpa [closed, opened, outside] using whole.balanced.symm
    have outer : quoted = false := by
      have even := whole.quotes
      cases quoted with
      | false => rfl
      | true => simp at even
    rw [settled, outer]
    rfl
  | cons c others ih =>
    obtain ⟨quoted', depth', behind, reads⟩ := whole.step
    rw [List.cons_append, reads, ih behind, List.foldr_cons]

theorem foldr_extend (chars piece : List Char) (others : List (List Char)) :
    chars.foldr extend (piece :: others) = (chars ++ piece) :: others := by
  induction chars with
  | nil => rfl
  | cons c chars ih => rw [List.foldr_cons, ih, extend, List.cons_append]

/-! ## Lists -/

/-- An argument with the blanks that are written around it. -/
structure Padded where
  lead : List Char
  text : List Char
  ending : List Char
  lead_blank : ∀ c ∈ lead, Text.isBlank c = true
  isArgument : IsArgument text
  ending_blank : ∀ c ∈ ending, Text.isBlank c = true

/-- The argument as it is written. -/
def Padded.chars (argument : Padded) : List Char :=
  argument.lead ++ (argument.text ++ argument.ending)

/-- Arguments that are written one after the other, with commas between them. -/
def join (arguments : List Padded) : List Char :=
  List.intercalate [','] (arguments.map Padded.chars)

namespace Padded

/-- What is read behind an argument and its blanks is read as if it stood alone. -/
theorem pieces_chars_append (argument : Padded) (rest : List Char) :
    pieces false 0 (argument.chars ++ rest) =
      argument.chars.foldr extend (pieces false 0 rest) := by
  have lead := (Whole.of_blank argument.lead_blank).pieces_append
  have ending := (Whole.of_blank argument.ending_blank).pieces_append
  have own := argument.isArgument.whole.pieces_append
  rw [chars, List.append_assoc, List.append_assoc, lead, own, ending, List.foldr_append,
    List.foldr_append]

theorem trimChars_chars (argument : Padded) : Text.trimChars argument.chars = argument.text := by
  rw [chars, Text.trimChars_append_of_blank argument.lead_blank,
    Text.trimChars_append_ending argument.ending_blank, argument.isArgument.trimmed]

end Padded

/-- The pieces of arguments that are written one after the other. -/
theorem pieces_join {arguments : List Padded} (some : arguments ≠ []) :
    pieces false 0 (join arguments) = arguments.map Padded.chars := by
  induction arguments with
  | nil => exact absurd rfl some
  | cons first others ih =>
    cases others with
    | nil =>
      have own := first.pieces_chars_append []
      rw [List.append_nil, pieces, foldr_extend, List.append_nil] at own
      rw [join, List.map_singleton, List.intercalate_singleton, own]
    | cons second rest =>
      have behind := ih (List.cons_ne_nil second rest)
      have split : join (first :: second :: rest) =
          first.chars ++ ',' :: join (second :: rest) := by
        simp [join, List.intercalate_cons_cons]
      have comma : ∀ chars, pieces false 0 (',' :: chars) = [] :: pieces false 0 chars := by
        intro chars
        simp [pieces]
      rw [split, first.pieces_chars_append, comma, foldr_extend, behind, List.append_nil]
      rfl

/-- **Taking arguments apart.** Arguments that are written with commas between them and any blanks
around them are taken apart again, those included that are empty at either end. Only a single empty
argument is not told from none. -/
theorem split_join (arguments : List Padded) (told : arguments.map Padded.text ≠ [[]]) :
    split (join arguments) = arguments.map Padded.text := by
  by_cases none : arguments = []
  · subst none
    rfl
  · have trimmed : (arguments.map Padded.chars).map Text.trimChars =
        arguments.map Padded.text := by
      rw [List.map_map]
      exact List.map_congr_left fun argument _ => argument.trimChars_chars
    rw [split, pieces_join none, trimmed, if_neg told]

/-- Nothing but blanks are no arguments. -/
theorem split_of_blank (blank : ∀ c ∈ text, Text.isBlank c = true) : split text = [] := by
  have single := (Whole.of_blank blank).pieces_append []
  have gone : Text.trimChars text = [] := Text.trimChars_append_ending blank []
  rw [List.append_nil, pieces, foldr_extend, List.append_nil] at single
  rw [split, single, List.map_singleton, gone, if_pos rfl]

/-- A number, a quoted text with a comma in it, a call with two arguments and nothing. -/
def sampleArguments : List Padded :=
  [⟨[], ['1'], [' '], by simp, by decide, by simp [Text.isBlank]⟩,
    ⟨[' '], "\"a,b\"".toList, [], by simp [Text.isBlank], by decide, by simp⟩,
    ⟨['\t'], "f(2, 3)".toList, [], by simp [Text.isBlank], by decide, by simp⟩,
    ⟨[' '], [], [' '], by simp [Text.isBlank], by decide, by simp [Text.isBlank]⟩]

theorem split_samples : sampleArguments.map Padded.text ≠ [[]] ∧
    join sampleArguments = "1 , \"a,b\",\tf(2, 3),  ".toList ∧
    split (join sampleArguments) = sampleArguments.map Padded.text :=
  ⟨by decide, by decide, split_join sampleArguments (by decide)⟩

end Arguments

end ScriptBinding
