import ScriptBinding.Text.Blank

/-! # Arguments of a call

The arguments of a call are separated by commas. A comma inside quotes or parentheses belongs to
its argument; parentheses inside quotes do not count, and closing more of them than are open is no
fault.
-/

namespace ScriptBinding.Arguments

/-- Put a character in front of the first piece. -/
def extend (c : Char) : List (List Char) → List (List Char)
  | [] => [[c]]
  | piece :: others => (c :: piece) :: others

/-- The pieces between the commas that separate arguments, inside quotes or not, and inside so many
parentheses. -/
def pieces (quoted : Bool) (depth : Nat) : List Char → List (List Char)
  | [] => [[]]
  | c :: chars =>
    if c = '"' then extend c (pieces (!quoted) depth chars)
    else if quoted then extend c (pieces quoted depth chars)
    else if c = '(' then extend c (pieces quoted (depth + 1) chars)
    else if c = ')' then extend c (pieces quoted (depth - 1) chars)
    else if c = ',' && depth = 0 then [] :: pieces quoted depth chars
    else extend c (pieces quoted depth chars)

/-- The arguments of a call. Nothing but blanks are no arguments. -/
def split (written : List Char) : List (List Char) :=
  let arguments := (pieces false 0 written).map Text.trimChars
  if arguments = [[]] then [] else arguments

end ScriptBinding.Arguments
