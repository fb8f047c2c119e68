import ScriptBinding.Config

/-! # File trees

A file tree is what stands at a path: a file, whose content may not be text, or a folder. The
scripts below a folder are its files with the right extension, without those that are left out and
without what is in folders that are left out.
-/

namespace ScriptBinding

/-- What stands at a path. -/
inductive FileTree where
  /-- A file, whose content may not be text. -/
  | file (text : Option String)
  | folder (entries : List (String × FileTree))

namespace FileTree

/-- A folder with nothing in it. -/
def emptyFolder : FileTree := .folder []

/-- The tree is a folder. -/
def isFolder : FileTree → Bool
  | file _ => false
  | folder _ => true

/-- What stands in a folder under a name. -/
def entry? (name : String) : FileTree → Option FileTree
  | file _ => none
  | folder entries => entries.lookup name

/-- What stands at the end of a path, given by its pieces between slashes, seen from a tree with
those around it. Every piece leads on from a folder: an empty one or a dot to itself, two dots to
the folder above. -/
def follow (around : List FileTree) (tree : FileTree) : List String → Option FileTree
  | [] => some tree
  | piece :: pieces =>
    if !tree.isFolder then none
    else if piece = "" || piece = "." then follow around tree pieces
    else if piece = ".." then
      match around with
      | [] => none
      | above :: further => follow further above pieces
    else
      match tree.entry? piece with
      | none => none
      | some inner => follow (tree :: around) inner pieces

/-- What stands at a relative path. -/
def at? (tree : FileTree) (path : Path) : Option FileTree :=
  if path.raw = "" || path.isAbsolute then none
  else tree.follow [] (Text.split '/' path.raw)

/-- Put a tree at the end of a path of names, and make the folders on the way. -/
def put (added : FileTree) : List String → FileTree → FileTree
  | [], _ => added
  | name :: names, tree =>
    let entries := match tree with
      | folder entries => entries
      | file _ => []
    let inner := (entries.lookup name).getD emptyFolder
    folder (entries.filter (·.1 != name) ++ [(name, put added names inner)])

/-- The tree with another one in the place of what stands at a path. -/
def insert (tree : FileTree) (path : Path) (added : FileTree) : FileTree :=
  added.put path.names tree

/-- The text of what stands at a path. -/
def readText : Option FileTree → Except LoadError String
  | none => .error (.unreadable .missing)
  | some (.folder _) => .error (.unreadable .isFolder)
  | some (.file none) => .error (.unreadable .notText)
  | some (.file (some text)) => .ok text

/-- The scripts at or below a path, each with its content. -/
def scripts (config : Config) (path : Path) : FileTree → List (Path × Option String)
  | file text => if config.isScriptFile path then [(path, text)] else []
  | folder entries => scriptsOf config path entries
where
  /-- The scripts among the entries of a folder. -/
  scriptsOf (config : Config) (path : Path) :
      List (String × FileTree) → List (Path × Option String)
    | [] => []
    | (name, entry) :: others =>
      let found :=
        if entry.isFolder && config.disables name then []
        else scripts config (path.join ⟨name⟩) entry
      found ++ scriptsOf config path others

end FileTree

end ScriptBinding
