import ScriptBinding.Failure
import ScriptBinding.Text.Reference
import ScriptBinding.Value.Class

/-! # Names of default variables

A name is put in lower case and out of its braces, and the types between its percent signs become
segments in angle brackets, which answer for any value in their place.
-/

namespace ScriptBinding.DefaultName

/-- The name without the braces around it. -/
def unwrap (written : String) : List Char :=
  let lowered := (Text.lower (Text.trim written)).toList
  (Text.between? '\x7b' '\x7d' lowered).getD lowered

/-- A text with a brace in it. -/
def hasBrace (chars : List Char) : Bool :=
  chars.any fun c => c == '\x7b' || c == '\x7d'

/-- A name that cannot be one. -/
def invalidFailure (line : Nat) (name : List Char) : Failure :=
  .config line s!"'{String.ofList name}' is not a valid name for a default variable"

/-- The segment that stands for a type. -/
def placeholder (classes : ClassRegistry) (line : Nat) (name type : List Char) :
    Except Failure (List Char) :=
  if type.isEmpty || hasBrace type then .error (invalidFailure line name)
  else
    match classes.ofUserInput? (String.ofList type) with
    | some info => .ok ('<' :: info.codeName.toList ++ ['>'])
    | none => .error (.config line s!"Can't understand the type '{String.ofList type}'")

/-- Put segments in the place of types. -/
def fill (classes : ClassRegistry) (line : Nat) (name : List Char) :
    List (List Char × List Char) → Except Failure (List Char)
  | [] => .ok []
  | (before, type) :: others =>
    match placeholder classes line name type with
    | .error failure => .error failure
    | .ok segment =>
      match fill classes line name others with
      | .error failure => .error failure
      | .ok rest => .ok (before ++ segment ++ rest)

/-- The name under which a default is stored. -/
def read (classes : ClassRegistry) (written : String) (line : Nat) : Except Failure String :=
  let name := unwrap written
  let references := Text.References.scan ['%'] '%' name
  match fill classes line name references.found with
  | .error failure => .error failure
  | .ok filled =>
    let whole := filled ++ references.tail
    if references.unclosed.isSome || whole.contains '%' then
      .error (.config line "Invalid use of percent signs in variable name")
    else if hasBrace whole then .error (invalidFailure line name)
    else .ok (String.ofList whole)

end ScriptBinding.DefaultName
