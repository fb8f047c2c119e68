import ScriptBinding.Text.Cut

/-! # Paths

A path is kept as it was written; its components are what two spellings of one path share. They
order paths, and the last of them gives the name and the extension of a file.
-/

namespace ScriptBinding

/-- A path as it was written. -/
structure Path where
  raw : String
deriving DecidableEq, Repr, Inhabited

namespace Path

/-- One step of a path. -/
inductive Component where
  /-- The top of the tree. -/
  | top
  /-- The folder a relative path starts from, when it is written out. -/
  | here
  /-- The folder above. -/
  | up
  /-- An entry with the given name. -/
  | name (text : String)
deriving DecidableEq, Repr

/-- Names come last, in the order of their characters. -/
def Component.precedes : Component → Component → Bool
  | top, top => false
  | top, _ => true
  | _, top => false
  | here, here => false
  | here, _ => true
  | _, here => false
  | up, up => false
  | up, name _ => true
  | name _, up => false
  | name a, name b => a < b

/-- The path starts at the top of the tree. -/
def isAbsolute (path : Path) : Bool :=
  Text.startsWith "/" path.raw

/-- The components of the pieces between slashes; an empty piece or a dot is no step. -/
def steps (parts : List String) : List Component :=
  parts.filterMap fun part =>
    if part = "" || part = "." then none
    else if part = ".." then some .up
    else some (.name part)

/-- The components of a path; a dot counts only where a relative path starts. -/
def components (path : Path) : List Component :=
  let parts := Text.split '/' path.raw
  if path.isAbsolute then .top :: steps parts
  else if parts.head? = some "." then .here :: steps parts
  else steps parts

/-- The names among the components of a path. -/
def names (path : Path) : List String :=
  path.components.filterMap fun component =>
    match component with
    | .name text => some text
    | _ => none

/-- Both spellings have the same components. -/
def same (a b : Path) : Bool :=
  a.components == b.components

/-- The order of component lists. -/
def precedesBy : List Component → List Component → Bool
  | _, [] => false
  | [], _ :: _ => true
  | a :: as, b :: bs => if a = b then precedesBy as bs else a.precedes b

/-- The order in which paths are listed. -/
def precedes (a b : Path) : Bool :=
  precedesBy a.components b.components

/-- The name of the file, when the path ends in one. -/
def fileName? (path : Path) : Option String :=
  match path.components.getLast? with
  | some (.name text) => some text
  | _ => none

/-- The part of the file name behind its last dot, unless the name starts there. -/
def extension? (path : Path) : Option String :=
  path.fileName?.bind fun name =>
    match Text.cutLast? ['.'] name.toList with
    | some (_ :: _, extension) => some (String.ofList extension)
    | _ => none

/-- The other path, seen from a folder. -/
def join (folder other : Path) : Path :=
  if other.isAbsolute then other
  else if folder.raw = "" || (Text.beforeEnd? ['/'] folder.raw.toList).isSome then
    ⟨folder.raw ++ other.raw⟩
  else ⟨folder.raw ++ "/" ++ other.raw⟩

end Path

end ScriptBinding
