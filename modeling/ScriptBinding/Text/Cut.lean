import ScriptBinding.Text.Blank

/-! # Cutting texts

Prefixes and suffixes, the first occurrence of a mark, pieces between separators, and lines.
-/

namespace ScriptBinding.Text

/-- What follows a lead, when the characters start with it. -/
def afterLead? : List Char → List Char → Option (List Char)
  | [], chars => some chars
  | _ :: _, [] => none
  | p :: lead, c :: chars => if p = c then afterLead? lead chars else none

/-- What precedes an end, when the characters end with it. -/
def beforeEnd? (ending chars : List Char) : Option (List Char) :=
  (afterLead? ending.reverse chars.reverse).map List.reverse

/-- What stands before and after the first occurrence of a mark. -/
def cut? (mark : List Char) (chars : List Char) : Option (List Char × List Char) :=
  match afterLead? mark chars with
  | some rest => some ([], rest)
  | none =>
    match chars with
    | [] => none
    | c :: tail => (cut? mark tail).map fun sides => (c :: sides.1, sides.2)

/-- What stands before and after the last occurrence of a mark. -/
def cutLast? (mark : List Char) (chars : List Char) : Option (List Char × List Char) :=
  match chars with
  | [] => (afterLead? mark []).map fun rest => ([], rest)
  | c :: tail =>
    match cutLast? mark tail with
    | some sides => some (c :: sides.1, sides.2)
    | none => (afterLead? mark chars).map fun rest => ([], rest)

/-- The pieces between the occurrences of a separator. -/
def pieces (separator : Char) : List Char → List (List Char)
  | [] => [[]]
  | c :: chars =>
    if c = separator then [] :: pieces separator chars
    else
      match pieces separator chars with
      | [] => [[c]]
      | first :: others => (c :: first) :: others

/-- The pieces of a text between the occurrences of a separator. -/
def split (separator : Char) (text : String) : List String :=
  (pieces separator text.toList).map String.ofList

/-- Replace every occurrence of a non-empty mark, from left to right. -/
def replaceAll (mark image : List Char) (chars : List Char) : List Char :=
  match _found : cut? mark chars with
  | none => chars
  | some (before, after) =>
    if after.length < chars.length then before ++ image ++ replaceAll mark image after else chars
termination_by chars.length

/-- The carriage return that ends a line belongs to the line break. -/
def dropReturn (line : List Char) : List Char :=
  (beforeEnd? ['\r'] line).getD line

/-- The lines of a list of pieces between line feeds; nothing after the last feed is no line. -/
def closedLines : List (List Char) → List (List Char)
  | [] => []
  | [last] => if last.isEmpty then [] else [last]
  | line :: others => dropReturn line :: closedLines others

/-- The lines of a text, without the line feed, or return and feed, that ends each. -/
def lines (text : String) : List (List Char) :=
  closedLines (pieces '\n' text.toList)

/-- The text starts with the given one. -/
def startsWith (lead text : String) : Bool :=
  (afterLead? lead.toList text.toList).isSome

/-- The text between an opening and a closing character, when both are there and differ in place. -/
def between? (opening closing : Char) (chars : List Char) : Option (List Char) :=
  (afterLead? [opening] chars).bind (beforeEnd? [closing])

theorem afterLead?_eq_some {lead chars rest : List Char} :
    afterLead? lead chars = some rest ↔ chars = lead ++ rest := by
  induction lead generalizing chars with
  | nil => simp [afterLead?, eq_comm]
  | cons p lead ih =>
    cases chars with
    | nil => simp [afterLead?]
    | cons c chars =>
      by_cases same : p = c
      · subst same; simp [afterLead?, ih]
      · simp only [afterLead?, same, ↓reduceIte, reduceCtorEq, List.cons_append,
          List.cons.injEq, false_iff, not_and]
        exact fun h => absurd h.symm same

/-- Both sides of the first occurrence, with the mark between them, make up the characters. -/
theorem eq_of_cut? {mark chars before after : List Char}
    (found : cut? mark chars = some (before, after)) : chars = before ++ mark ++ after := by
  induction chars generalizing before with
  | nil =>
    unfold cut? at found
    split at found
    · next rest lead =>
      obtain ⟨rfl, rfl⟩ := by simpa using found
      simpa using afterLead?_eq_some.mp lead
    · simp at found
  | cons c tail ih =>
    unfold cut? at found
    split at found
    · next rest lead =>
      obtain ⟨rfl, rfl⟩ := by simpa using found
      simpa using afterLead?_eq_some.mp lead
    · simp only [Option.map_eq_some_iff, Prod.mk.injEq] at found
      obtain ⟨⟨left, right⟩, inner, rfl, rfl⟩ := found
      simp [ih inner]

/-- Nothing after an occurrence is longer than the characters without the mark. -/
theorem length_of_cut? {mark chars before after : List Char}
    (found : cut? mark chars = some (before, after)) :
    before.length + mark.length + after.length = chars.length := by
  rw [eq_of_cut? found]; simp [Nat.add_assoc]

end ScriptBinding.Text
