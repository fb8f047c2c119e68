import ScriptBinding.FileTree

/-! # Reading the settings from a file

The settings of a folder are in its file `config.sk`; without one they have their defaults.
-/

namespace ScriptBinding.Config

/-- The settings in the file of a folder. -/
def pathIn (folder : Path) : Path :=
  folder.join ⟨"config.sk"⟩

/-- Read the settings from what stands at a path. -/
def load (path : Path) (tree : Option FileTree) : Except LoadError Config × List LogEntry :=
  match FileTree.readText tree with
  | .error error => (.error error, [])
  | .ok text => parse path.raw text

/-- Read the settings of a folder, given what stands at any path. -/
def loadIn (folder : Path) (view : Path → Option FileTree) :
    Except LoadError Config × List LogEntry :=
  match view (pathIn folder) with
  | none => (.ok {}, [⟨.info, s!"No config.sk in {folder.raw}, using defaults"⟩])
  | some tree => load (pathIn folder) (some tree)

end ScriptBinding.Config
