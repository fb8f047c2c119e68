import ScriptBinding.Proofs.PatternExtension

/-! # Which texts are patterns

The notation of patterns as a grammar: ordinary characters, spaces, escapes, raw expressions,
placeholders, and bracketed choices between alternatives. Reading succeeds for the texts of this
grammar and for no other, and takes them up as a whole. Its fuel is more than it ever needs.
-/

namespace ScriptBinding

namespace Piece

/-! ## The grammar -/

mutual

/-- A text is a pattern. -/
inductive IsPattern : List Char → Prop
  | done : IsPattern []
  /-- A character that is no sign. -/
  | ordinary {c : Char} {rest : List Char} (plain : c ∉ signs) (others : IsPattern rest) :
      IsPattern (c :: rest)
  /-- A run of spaces. -/
  | spaces {count : Nat} {rest : List Char} (others : IsPattern rest) :
      IsPattern (List.replicate (count + 1) ' ' ++ rest)
  /-- Any character behind a backslash. -/
  | escaped {c : Char} {rest : List Char} (others : IsPattern rest) :
      IsPattern ('\\' :: c :: rest)
  /-- Anything between pointed brackets. -/
  | raw {text rest : List Char} (closes : '>' ∉ text) (others : IsPattern rest) :
      IsPattern ('<' :: (text ++ '>' :: rest))
  /-- A type between percent signs, of which the leading signs and the blanks do not count. -/
  | argument {text rest : List Char} (closes : '%' ∉ text) (named : typeName text ≠ [])
      (others : IsPattern rest) : IsPattern ('%' :: (text ++ '%' :: rest))
  /-- Alternatives in square brackets. -/
  | square {inner rest : List Char} (body : IsChoice inner) (others : IsPattern rest) :
      IsPattern ('[' :: (inner ++ ']' :: rest))
  /-- Alternatives in round brackets. -/
  | round {inner rest : List Char} (body : IsChoice inner) (others : IsPattern rest) :
      IsPattern ('(' :: (inner ++ ')' :: rest))

/-- A text is an alternative: a pattern, behind a mark or not. -/
inductive IsAlternative : List Char → Prop
  | unmarked {text : List Char} (body : IsPattern text) : IsAlternative text
  | marked {digits text : List Char} (nonempty : digits ≠ [])
      (all : ∀ c ∈ digits, Text.isAsciiDigit c = true) (body : IsPattern text) :
      IsAlternative (digits ++ markSign :: text)

/-- A text is one alternative or several, with bars between them. -/
inductive IsChoice : List Char → Prop
  | last {text : List Char} (only : IsAlternative text) : IsChoice text
  | more {text rest : List Char} (first : IsAlternative text) (later : IsChoice rest) :
      IsChoice (text ++ '|' :: rest)

end

theorem IsPattern.behind_spaces {rest : List Char} (isPattern : IsPattern rest) (count : Nat) :
    IsPattern (List.replicate count ' ' ++ rest) := by
  cases count with
  | zero => exact isPattern
  | succ count => exact .spaces isPattern

mutual

/-- What spells pieces is a pattern. -/
theorem Spells.isPattern {text : List Char} {pieces : List Piece} (spells : Spells text pieces) :
    IsPattern text := by
  cases spells with
  | done => exact .done
  | literal plain others => exact .ordinary plain others.isPattern
  | escaped others => exact .escaped others.isPattern
  | blanks _ others => exact .spaces others.isPattern
  | optional body _ others => exact .square body.isChoice (others.isPattern.behind_spaces _)
  | choice body others => exact .round body.isChoice others.isPattern
  | raw closes others => exact .raw closes others.isPattern
  | argument closes named others => exact .argument closes named others.isPattern

theorem SpellsAlternative.isAlternative {text : List Char} {alternative : Alternative}
    (spells : SpellsAlternative text alternative) : IsAlternative text := by
  cases spells with
  | unmarked _ pieces => exact .unmarked pieces.isPattern
  | marked nonempty all pieces => exact .marked nonempty all pieces.isPattern

theorem SpellsEach.isChoice {text : List Char} {alternatives : List Alternative}
    (spells : SpellsEach text alternatives) : IsChoice text := by
  cases spells with
  | last only => exact .last only.isAlternative
  | more first later => exact .more first.isAlternative later.isChoice

end

/-! ## The pieces of a pattern

The grammar leaves open where a run of spaces ends and whether digits in front of a bar are a mark.
The pieces take up all the spaces, and every mark.
-/

/-- The spaces that a text starts with can be told from the rest. -/
theorem Spells.behind_spaces {text : List Char} {pieces : List Piece}
    (spells : Spells text pieces) : ∃ count rest others,
      text = List.replicate count ' ' ++ rest ∧ rest.head? ≠ some ' ' ∧ Spells rest others := by
  have solid {c : Char} {rest : List Char} (other : c ≠ ' ') : (c :: rest).head? ≠ some ' ' :=
    fun same => other (Option.some.inj same)
  cases spells with
  | done => exact ⟨0, [], [], rfl, nofun, .done⟩
  | blanks ends others => exact ⟨_, _, _, rfl, ends, others⟩
  | literal plain others =>
    exact ⟨0, _, _, rfl, solid fun same => plain (by simp [same, signs]), .literal plain others⟩
  | escaped others => exact ⟨0, _, _, rfl, solid (by decide), .escaped others⟩
  | optional body ends others =>
    exact ⟨0, _, _, rfl, solid (by decide), .optional body ends others⟩
  | choice body others => exact ⟨0, _, _, rfl, solid (by decide), .choice body others⟩
  | raw closes others => exact ⟨0, _, _, rfl, solid (by decide), .raw closes others⟩
  | argument closes named others =>
    exact ⟨0, _, _, rfl, solid (by decide), .argument closes named others⟩

theorem Spells.exists_blanks {rest : List Char} {pieces : List Piece} (spells : Spells rest pieces)
    (count : Nat) : ∃ others, Spells (List.replicate (count + 1) ' ' ++ rest) others := by
  obtain ⟨more, later, others, rfl, ends, behind⟩ := spells.behind_spaces
  refine ⟨.blanks :: others, ?_⟩
  rw [← List.append_assoc, List.replicate_append_replicate, Nat.add_right_comm]
  exact .blanks ends behind

theorem Spells.exists_optional {inner rest : List Char} {alternatives : List Alternative}
    {pieces : List Piece} (body : SpellsEach inner alternatives) (spells : Spells rest pieces) :
    ∃ others, Spells ('[' :: (inner ++ ']' :: rest)) others := by
  obtain ⟨count, later, others, rfl, ends, behind⟩ := spells.behind_spaces
  exact ⟨_, .optional body ends behind⟩

/-- A character that is no sign stands for itself. -/
theorem Spells.of_cons {c : Char} {rest : List Char} {pieces : List Piece} (plain : c ∉ signs)
    (spells : Spells (c :: rest) pieces) : ∃ others, Spells rest others := by
  generalize whole : c :: rest = text at spells
  cases spells with
  | done => cases whole
  | literal _ others =>
    cases whole
    exact ⟨_, others⟩
  | blanks _ _ =>
    rw [List.replicate_succ, List.cons_append] at whole
    cases whole
    exact absurd (by decide) plain
  | _ =>
    cases whole
    exact absurd (by decide) plain

/-- What stands behind a mark is a pattern of its own. -/
theorem Spells.of_marked {digits rest : List Char} {pieces : List Piece}
    (all : ∀ c ∈ digits, Text.isAsciiDigit c = true)
    (spells : Spells (digits ++ markSign :: rest) pieces) : ∃ others, Spells rest others := by
  induction digits generalizing pieces with
  | nil => exact spells.of_cons (by decide)
  | cons digit digits ih =>
    have plain : digit ∉ signs := fun isSign => by
      have isDigit := all digit List.mem_cons_self
      simp only [signs, List.mem_cons, List.not_mem_nil, or_false] at isSign
      rcases isSign with rfl | rfl | rfl | rfl | rfl | rfl | rfl | rfl | rfl <;>
        exact absurd isDigit (by decide)
    obtain ⟨others, later⟩ := spells.of_cons plain
    exact ih (fun c member => all c (List.mem_cons_of_mem _ member)) later

/-- A pattern is an alternative, and its mark is read if it starts with one. -/
theorem Spells.exists_alternative {text : List Char} {pieces : List Piece}
    (spells : Spells text pieces) : ∃ alternative, SpellsAlternative text alternative := by
  by_cases marked : StartsMarked text
  · obtain ⟨digits, rest, nonempty, all, rfl⟩ := marked
    obtain ⟨others, later⟩ := spells.of_marked all
    exact ⟨_, .marked nonempty all later⟩
  · exact ⟨_, .unmarked marked spells⟩

mutual

/-- A pattern spells pieces. -/
theorem IsPattern.spells {text : List Char} : IsPattern text → ∃ pieces, Spells text pieces
  | .done => ⟨_, .done⟩
  | .ordinary plain others => others.spells.imp' _ fun _ => .literal plain
  | .spaces others => others.spells.elim fun _ spells => spells.exists_blanks _
  | .escaped others => others.spells.imp' _ fun _ => .escaped
  | .raw closes others => others.spells.imp' _ fun _ => .raw closes
  | .argument closes named others => others.spells.imp' _ fun _ => .argument closes named
  | .square body others =>
    body.spells.elim fun _ inside => others.spells.elim fun _ => Spells.exists_optional inside
  | .round body others =>
    body.spells.elim fun _ inside => others.spells.imp' _ fun _ => .choice inside

theorem IsAlternative.spells {text : List Char} :
    IsAlternative text → ∃ alternative, SpellsAlternative text alternative
  | .unmarked body => body.spells.elim fun _ => Spells.exists_alternative
  | .marked nonempty all body => body.spells.imp' _ fun _ => .marked nonempty all

theorem IsChoice.spells {text : List Char} :
    IsChoice text → ∃ alternatives, SpellsEach text alternatives
  | .last only => only.spells.imp' _ fun _ => .last
  | .more first later =>
    first.spells.elim fun _ spells => later.spells.imp' _ fun _ => .more spells

end

/-! ## Reading what is spelt -/

/-- The bracket that a sequence is to stop at closes one. -/
def Closes (closing : Option Char) : Prop :=
  ∀ close ∈ closing, close = ']' ∨ close = ')'

section Sequences

variable {closing : Option Char} {fuel : Nat}

/-- A sequence stops only at signs that close or separate. -/
theorem not_stopsAt (closes : Closes closing) {c : Char} (onward : c ∉ [']', ')', '|']) :
    ¬ stopsAt closing c = true := by
  simp only [List.mem_cons, List.not_mem_nil, or_false, not_or] at onward
  cases closing with
  | none => exact Bool.false_ne_true
  | some close =>
    simp only [stopsAt, Bool.or_eq_true, beq_iff_eq, not_or]
    refine ⟨onward.2.2, fun same => ?_⟩
    rcases closes close rfl with rfl | rfl
    · exact onward.1 same
    · exact onward.2.1 same

/-- A sequence does not stop in front of a piece. -/
theorem StartsWith.reads {chars after : List Char} {piece : Piece}
    (starts : StartsWith fuel chars piece after) (closes : Closes closing) :
    readSequence closing (fuel + 1) chars =
      (readSequence closing fuel after).map (behindPieces [piece]) := by
  refine starts.readSequence_eq fun c first => Bool.eq_false_iff.mpr (not_stopsAt closes ?_)
  cases starts with
  | literal plain =>
    obtain rfl := Option.some.inj first
    refine fun isSign => plain ?_
    simp only [List.mem_cons, List.not_mem_nil, or_false] at isSign
    rcases isSign with rfl | rfl | rfl <;> decide
  | escaped | blanks | optional | choice | raw | argument =>
    obtain rfl := Option.some.inj first
    decide

end Sequences

theorem dropWhile_spaces {rest : List Char} (ends : rest.head? ≠ some ' ') (count : Nat) :
    (List.replicate count ' ' ++ rest).dropWhile (· == ' ') = rest := by
  rw [List.dropWhile_append_of_pos fun c member => by simp [List.eq_of_mem_replicate member]]
  cases rest with
  | nil => rfl
  | cons c rest =>
    have other : ¬ (c == ' ') = true := fun same => ends (congrArg some (eq_of_beq same))
    exact List.dropWhile_cons_of_neg other

theorem head?_spaces {rest : List Char} (ends : rest.head? ≠ some ' ') (count : Nat) :
    ((List.replicate count ' ' ++ rest).head? == some ' ') = decide (0 < count) := by
  cases count with
  | zero => simpa using ends
  | succ count => simp [List.replicate_succ]

/-- What stands in front of a bar or a bracket starts with a mark if it does so by itself. -/
theorem not_startsMarked_append {text after : List Char} {c : Char}
    (noDigit : Text.isAsciiDigit c = false) (noSign : c ≠ markSign)
    (plain : ¬ StartsMarked text) : ¬ StartsMarked (text ++ c :: after) := by
  rintro ⟨digits, rest, nonempty, all, same⟩
  rcases List.append_eq_append_iff.mp same with ⟨more, rfl, behind⟩ | ⟨more, rfl, behind⟩
  · cases more with
    | nil => exact noSign (List.cons.inj behind).1
    | cons d more =>
      obtain ⟨rfl, -⟩ := List.cons.inj behind
      rw [all c (by simp)] at noDigit
      cases noDigit
  · cases more with
    | nil => exact noSign (List.cons.inj behind).1.symm
    | cons d more =>
      obtain ⟨rfl, -⟩ := List.cons.inj behind
      exact plain ⟨digits, more, nonempty, all, rfl⟩

mutual

/-- Pieces that are spelt are read, up to where their sequence ends. -/
theorem Spells.reads {own tail : List Char} {pieces : List Piece} {closing : Option Char}
    {fuel : Nat} (spells : Spells own pieces) (closes : Closes closing)
    (ends : ∀ c ∈ tail.head?, stopsAt closing c = true) (enough : 2 * own.length < fuel) :
    readSequence closing fuel (own ++ tail) = .ok (pieces, tail) := by
  have apart {rest : List Char} (solid : rest.head? ≠ some ' ') :
      (rest ++ tail).head? ≠ some ' ' := by
    rw [List.head?_append]
    intro space
    cases front : rest.head? with
    | some c => exact solid (by rw [← space, front]; rfl)
    | none =>
      rw [front] at space
      exact not_stopsAt closes (by decide) (ends ' ' space)
  obtain ⟨fuel, rfl⟩ : ∃ less, fuel = less + 1 := ⟨fuel - 1, by omega⟩
  cases spells with
  | done =>
    cases tail with
    | nil => rfl
    | cons c rest => exact readSequence_stopped (ends c rfl) _ _
  | literal plain others =>
    rw [List.cons_append, (StartsWith.literal plain).reads closes, others.reads closes ends]
    · rfl
    · grind
  | escaped others =>
    rw [List.cons_append, List.cons_append, StartsWith.escaped.reads closes,
      others.reads closes ends]
    · rfl
    · grind
  | @blanks count rest _ solid others =>
    rw [List.replicate_succ, List.cons_append, List.cons_append, StartsWith.blanks.reads closes,
      List.append_assoc, dropWhile_spaces (apart solid), others.reads closes ends]
    · rfl
    · grind
  | @optional inner rest count _ _ body solid others =>
    have found : readAlternatives ']' fuel (inner ++ ']' :: (List.replicate count ' ' ++
        (rest ++ tail))) = .ok (_, List.replicate count ' ' ++ (rest ++ tail)) :=
      body.reads (.inl rfl) _ (by grind)
    rw [List.cons_append, List.append_assoc, List.cons_append, List.append_assoc,
      (StartsWith.optional found).reads closes, dropWhile_spaces (apart solid),
      head?_spaces (apart solid), others.reads closes ends]
    · rfl
    · grind
  | @choice inner rest _ _ body others =>
    have found : readAlternatives ')' fuel (inner ++ ')' :: (rest ++ tail)) =
        .ok (_, rest ++ tail) := body.reads (.inr rfl) _ (by grind)
    rw [List.cons_append, List.append_assoc, List.cons_append,
      (StartsWith.choice found).reads closes, others.reads closes ends]
    · rfl
    · grind
  | raw absent others =>
    rw [List.cons_append, List.append_assoc, List.cons_append,
      (StartsWith.raw (readUntil_append_cons absent _)).reads closes, others.reads closes ends]
    · rfl
    · grind
  | argument absent named others =>
    rw [List.cons_append, List.append_assoc, List.cons_append,
      (StartsWith.argument (readUntil_append_cons absent _) named).reads closes,
      others.reads closes ends]
    · rfl
    · grind

theorem SpellsAlternative.reads {own : List Char} {alternative : Alternative} {close c : Char}
    {fuel : Nat} (spells : SpellsAlternative own alternative) (bracket : close = ']' ∨ close = ')')
    (ends : c = '|' ∨ c = close) (after : List Char) (enough : 2 * own.length < fuel) : ∃ body,
      readSequence (some close) fuel (readMark (own ++ c :: after)).2 = .ok (body, c :: after) ∧
        alternative = .mk (readMark (own ++ c :: after)).1 body := by
  have closes : Closes (some close) := fun _ same => Option.some.inj same ▸ bracket
  have stops : ∀ d ∈ (c :: after).head?, stopsAt (some close) d = true := by
    intro d first
    obtain rfl : c = d := Option.some.inj first
    rcases ends with rfl | rfl <;> simp [stopsAt]
  have sign : Text.isAsciiDigit c = false ∧ c ≠ markSign := by
    rcases ends with rfl | rfl
    · exact ⟨by decide, by decide⟩
    · rcases bracket with rfl | rfl <;> exact ⟨by decide, by decide⟩
  cases spells with
  | unmarked plain pieces =>
    rw [readMark_plain (not_startsMarked_append sign.1 sign.2 plain)]
    exact ⟨_, pieces.reads closes stops enough, rfl⟩
  | marked nonempty all pieces =>
    rw [List.append_assoc, List.cons_append, readMark_marked nonempty all]
    exact ⟨_, pieces.reads closes stops (by grind), rfl⟩

theorem SpellsEach.reads {own : List Char} {alternatives : List Alternative} {close : Char}
    {fuel : Nat} (spells : SpellsEach own alternatives) (bracket : close = ']' ∨ close = ')')
    (after : List Char) (enough : 2 * own.length + 1 < fuel) :
    readAlternatives close fuel (own ++ close :: after) = .ok (alternatives, after) := by
  obtain ⟨fuel, rfl⟩ : ∃ less, fuel = less + 1 := ⟨fuel - 1, by omega⟩
  have noBar : close ≠ '|' := by rcases bracket with rfl | rfl <;> decide
  unfold readAlternatives
  dsimp only
  cases spells with
  | last only =>
    have own : 2 * _ < fuel := Nat.lt_of_succ_lt_succ enough
    obtain ⟨body, found, rfl⟩ := only.reads bracket (.inr rfl) after own
    rw [found]
    dsimp only
    rw [if_neg noBar, if_pos rfl]
  | @more text rest _ _ first later =>
    have own : 2 * text.length < fuel := by grind
    obtain ⟨body, found, rfl⟩ := first.reads bracket (.inl rfl) (rest ++ close :: after) own
    rw [List.append_assoc, List.cons_append, found]
    dsimp only
    rw [if_pos rfl, later.reads bracket after (by grind)]

end

/-- The pieces that a pattern is read as are those that it spells. -/
theorem readPattern_eq_ok_iff {chars : List Char} {pieces : List Piece} :
    readPattern chars = .ok pieces ↔ Spells chars pieces := by
  refine ⟨readPattern_spells, fun spells => ?_⟩
  have found : readSequence none (2 * chars.length + 1) (chars ++ []) = .ok (pieces, []) :=
    spells.reads nofun nofun (Nat.lt_succ_self _)
  rw [List.append_nil] at found
  rw [readPattern, found]

/-- A text is read as pieces exactly if it is a pattern. -/
theorem isPattern_iff {chars : List Char} :
    IsPattern chars ↔ ∃ pieces, readPattern chars = .ok pieces := by
  simp only [readPattern_eq_ok_iff]
  exact ⟨IsPattern.spells, fun ⟨_, spells⟩ => spells.isPattern⟩

/-! ## Fuel -/

/-- More fuel than this does not change what is read as a sequence. -/
def SettlesSequence (fuel : Nat) : Prop :=
  ∀ closing chars, 2 * chars.length < fuel →
    readSequence closing (fuel + 1) chars = readSequence closing fuel chars

/-- More fuel than this does not change what is read as alternatives. -/
def SettlesAlternatives (fuel : Nat) : Prop :=
  ∀ close chars, 2 * chars.length + 1 < fuel →
    readAlternatives close (fuel + 1) chars = readAlternatives close fuel chars

theorem settlesSequence_succ {fuel : Nat} (sequence : SettlesSequence fuel)
    (alternatives : SettlesAlternatives fuel) : SettlesSequence (fuel + 1) := by
  intro closing chars enough
  cases chars with
  | nil => rfl
  | cons c rest =>
  rw [List.length_cons] at enough
  -- What is read behind a piece is shorter than the text, and takes up less fuel by two.
  have later (after : List Char) (shorter : after.length ≤ rest.length) :
      readSequence closing (fuel + 1) after = readSequence closing fuel after :=
    sequence closing after (by omega)
  have spaces (after : List Char) : (after.dropWhile (· == ' ')).length ≤ after.length :=
    List.length_dropWhile_le _ after
  have inside (close : Char) :
      readAlternatives close (fuel + 1) rest = readAlternatives close fuel rest :=
    alternatives close rest (by omega)
  unfold readSequence
  dsimp only
  split
  · rfl
  split
  · rw [inside]
    cases found : readAlternatives ']' fuel rest with
    | error problem => rfl
    | ok read =>
      dsimp only
      rw [later _ ((spaces _).trans (length_of_readAlternatives found))]
  split
  · rw [inside]
    cases found : readAlternatives ')' fuel rest with
    | error problem => rfl
    | ok read =>
      dsimp only
      rw [later _ (length_of_readAlternatives found)]
  split
  · cases found : readUntil '>' rest with
    | error problem => rfl
    | ok read =>
      dsimp only
      rw [later _ (length_of_readUntil found)]
  split
  · cases found : readUntil '%' rest with
    | error problem => rfl
    | ok read =>
      dsimp only
      rw [later _ (length_of_readUntil found)]
  split
  · cases rest with
    | nil => rfl
    | cons escaped after =>
      dsimp only
      rw [later _ (Nat.le_succ _)]
  split
  · rw [later _ (spaces rest)]
  split
  · rfl
  · rw [later _ (Nat.le_refl _)]

theorem settlesAlternatives_succ {fuel : Nat} (sequence : SettlesSequence fuel)
    (alternatives : SettlesAlternatives fuel) : SettlesAlternatives (fuel + 1) := by
  intro close chars enough
  have unmarked := (readMark_suffix chars).length_le
  unfold readAlternatives
  dsimp only
  -- The sequence may be as long as the text, but needs one unit of fuel less than alternatives.
  rw [sequence (some close) (readMark chars).2 (by omega)]
  split
  · rfl
  · rfl
  · next body c after found =>
    obtain ⟨own, whole, -⟩ := (reads_spell fuel).1 _ _ _ _ found
    have shorter : after.length < (readMark chars).2.length := by
      rw [whole, List.length_append, List.length_cons]
      omega
    rw [alternatives close after (by omega)]

theorem reads_settle (fuel : Nat) : SettlesSequence fuel ∧ SettlesAlternatives fuel := by
  induction fuel with
  | zero => exact ⟨fun _ _ => nofun, fun _ _ => nofun⟩
  | succ fuel ih =>
    exact ⟨settlesSequence_succ ih.1 ih.2, settlesAlternatives_succ ih.1 ih.2⟩

/-- Reading a pattern comes to its end with the fuel that it is given: any more leaves the answer
as it is. -/
theorem readSequence_settled (closing : Option Char) {chars : List Char} {fuel : Nat}
    (enough : 2 * chars.length < fuel) :
    readSequence closing fuel chars = readSequence closing (2 * chars.length + 1) chars := by
  induction fuel, Nat.succ_le_of_lt enough using Nat.le_induction with
  | base => rfl
  | succ fuel more ih => exact ((reads_settle fuel).1 closing chars more).trans (ih more)

end Piece

namespace Pattern

/-- What compiling makes of a text. -/
structure Judges (source : String) : Prop where
  /-- The checks of the notation pass for the patterns. -/
  checked : (∀ error, compile source = .error error → error = .refused source) ↔
    Piece.IsPattern source.toList
  /-- The pieces of a pattern take up the whole text, and just its raw parts may be refused. -/
  whole : Piece.IsPattern source.toList → ∃ pieces, Piece.Spells source.toList pieces ∧
    compile source = match (Piece.wholeRegex? pieces).bind Regex.machine? with
      | some machine => .ok ⟨source, pieces, machine⟩
      | none => .error (.refused source)
  /-- Reading comes to an end, whatever the text is. -/
  ends : ∀ fuel, 2 * source.toList.length < fuel →
    Piece.readSequence none fuel source.toList =
      Piece.readSequence none (2 * source.toList.length + 1) source.toList

/-- **Compiling judges every text**: its own checks pass exactly for the patterns. -/
theorem compile_judges (source : String) : Judges source := by
  have whole (isPattern : Piece.IsPattern source.toList) : ∃ pieces,
      Piece.Spells source.toList pieces ∧
        compile source = match (Piece.wholeRegex? pieces).bind Regex.machine? with
          | some machine => .ok ⟨source, pieces, machine⟩
          | none => .error (.refused source) := by
    obtain ⟨pieces, reads⟩ := Piece.isPattern_iff.mp isPattern
    refine ⟨pieces, Piece.readPattern_spells reads, ?_⟩
    rw [compile, reads]
    dsimp only
    cases (Piece.wholeRegex? pieces).bind Regex.machine? <;> rfl
  refine ⟨⟨fun passes => ?_, fun isPattern error fails => ?_⟩, whole,
    fun _ => Piece.readSequence_settled none⟩
  · cases reads : Piece.readPattern source.toList with
    | ok pieces => exact Piece.isPattern_iff.mpr ⟨pieces, reads⟩
    | error error =>
      have fails : compile source = .error (.malformed source
          (source.toList.length - error.behind) error.problem) := by
        rw [compile, reads]
      cases passes _ fails
  · obtain ⟨pieces, -, compiled⟩ := whole isPattern
    rw [compiled] at fails
    split at fails <;> cases fails
    rfl

end Pattern

end ScriptBinding
