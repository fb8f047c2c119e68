import ScriptBinding.Context
import ScriptBinding.Node.Entries

/-! # Alias sections

The lines of the section are loaded into the aliases of the script, and the bad ones reported.
-/

namespace ScriptBinding.AliasesStructure

/-- Load the lines of the section. -/
def init (body : Section) (workspace : Workspace) : Workspace :=
  let (context, failures) :=
    workspace.context.loadAliases (body.convertToEntries 0 "=").nodes
  ({ workspace with context } : Workspace).reportAll failures

end ScriptBinding.AliasesStructure
