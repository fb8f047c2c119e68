import ScriptBinding.Program

/-! # The command line

The one argument is the folder with the settings and the scripts; without it, the current folder.
-/

namespace ScriptBinding.CommandLine

/-- Read what stands at a path. Folders are read with all that is below them. -/
partial def readTree (path : String) : IO (Option FileTree) := do
  try
    let mut inner : List (String × FileTree) := []
    for entry in ← ((← IO.currentDir) / path).readDir do
      if let some tree ← readTree entry.path.toString then
        inner := inner ++ [(entry.fileName, tree)]
    return some (.folder inner)
  catch _ =>
    try
      return some (.file (String.fromUTF8? (← IO.FS.readBinFile path)))
    catch _ => return none

/-- Read what stands at the paths that the program looks at. -/
def readView (root : Path) : IO (Path → Option FileTree) := do
  let settings ← readTree (Config.pathIn root).raw
  let known (path : Path) : Option FileTree := if path = Config.pathIn root then settings else none
  match (Config.loadIn root known).1 with
  | .error _ => return known
  | .ok config =>
    let folder := Program.scriptsFolder config root
    let scripts ← readTree folder.raw
    return fun path => if path = folder then scripts else known path

end ScriptBinding.CommandLine

open ScriptBinding

def main (args : List String) : IO UInt32 := do
  let root : Path := ⟨args.headD "."⟩
  let report := Program.run root (← CommandLine.readView root)
  for entry in report.log do
    IO.println entry.render
  for line in report.errorLines do
    IO.eprintln line
  return report.exitCode.toUInt32
