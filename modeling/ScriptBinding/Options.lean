import ScriptBinding.Failure
import ScriptBinding.Table
import ScriptBinding.Text.Reference

/-! # Options

Options are named texts of a script. A reference to one, `@` and its name in braces, stands for the
text; what is put in its place is not searched again.
-/

namespace ScriptBinding

/-- The named texts of a script. -/
abbrev Options := Table String

namespace Options

/-- The mark that opens a reference to an option. -/
def opening : List Char := ['\x7b', '@']

/-- A reference to an option that does not exist. -/
def undefinedFailure (line : Nat) (key : List Char) : Failure :=
  .parse line s!"Undefined option \x7b@{String.ofList key}\x7d"

/-- A reference that is never closed. -/
def unclosedFailure (line : Nat) : Failure :=
  .parse line "Unclosed option reference '\x7b@'"

/-- Put the options in place of cut-off references, from left to right. -/
def fill (options : Options) (line : Nat) :
    List (List Char × List Char) → Except Failure (List Char)
  | [] => .ok []
  | (before, key) :: others =>
    match options.get? (String.ofList key) with
    | none => .error (undefinedFailure line key)
    | some value =>
      match fill options line others with
      | .error failure => .error failure
      | .ok rest => .ok (before ++ value.toList ++ rest)

/-- The text with the options in place of their references. -/
def replace (options : Options) (line : Nat) (text : String) : Except Failure String :=
  let references := Text.References.scan opening '\x7d' text.toList
  match fill options line references.found, references.unclosed with
  | .error failure, _ => .error failure
  | .ok _, some _ => .error (unclosedFailure line)
  | .ok filled, none => .ok (String.ofList (filled ++ references.tail))

end Options

end ScriptBinding
