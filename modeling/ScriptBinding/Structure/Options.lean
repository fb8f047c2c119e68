import ScriptBinding.Context
import ScriptBinding.Node.Entries

/-! # Option sections

Every entry of the section, at any depth, becomes an option. Its name is the key behind the keys of
the sections around it, each followed by a dot.
-/

namespace ScriptBinding

/-- The section of options. -/
structure OptionsStructure where
  entries : Options := .empty

namespace OptionsStructure

/-- The options below a node, in the order of the text, and the lines that are none. -/
def flatten (lead : String) : Node → List (String × String) × List Failure
  | .entry key value _ => ([(lead ++ key, value)], [])
  | .nested key _ nodes => flattenAll (lead ++ key ++ ".") nodes
  | .simple key line =>
    ([], [.config line s!"Invalid line in options: '{key}' is not a 'key: value' entry"])
where
  /-- The options below a list of nodes. -/
  flattenAll (lead : String) : List Node → List (String × String) × List Failure
    | [] => ([], [])
    | node :: others =>
      let (entries, failures) := flatten lead node
      let (rest, restFailures) := flattenAll lead others
      (entries ++ rest, failures ++ restFailures)

/-- Take the options from the section. -/
def init (body : Section) (options : OptionsStructure) (workspace : Workspace) :
    OptionsStructure × Workspace :=
  let (entries, failures) := flatten.flattenAll "" (body.convertToEntries (-1) ":").nodes
  (⟨options.entries.insertAll entries⟩, workspace.reportAll failures)

/-- Lay the options over those of the script. -/
def apply (options : OptionsStructure) (workspace : Workspace) : Workspace :=
  workspace.inContext (·.putOptions options.entries)

end OptionsStructure

end ScriptBinding
