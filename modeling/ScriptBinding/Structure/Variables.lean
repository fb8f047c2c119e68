import ScriptBinding.Context
import ScriptBinding.Node.Entries
import ScriptBinding.Variable.DefaultName

/-! # Variable sections

Every entry of the section gives a variable a value, unless it has one. A value is stored as one of
its own class or of the class that stands for it in the store, and only if that can be stored.
-/

namespace ScriptBinding

/-- The section of variables. -/
structure VariablesStructure where
  /-- The names that have been given a value. -/
  seeded : List String := []

namespace VariablesStructure

/-- The value is of no use in the store. -/
def unsavable (line : Nat) (written : String) : Failure :=
  .config line s!"Can't save '{written}' in a variable"

/-- The value that is stored for one that is written. -/
def storedValue (classes : ClassRegistry) (written : String) (line : Nat) : Except Failure Value :=
  match classes.parse? written with
  | none => .error (.parse line s!"Can't understand the value '{written}'")
  | some value =>
    match classes.classOf? value with
    | none => .error (.fatal s!"No class info for '{value.className}'")
    | some info =>
      if info.serializable then
        match info.storedAs with
        | none => .ok value
        | some target =>
          match classes.convert? value target with
          | some stored => .ok stored
          | none => .error (unsavable line written)
      else .error (unsavable line written)

/-- Give one variable its value: the name it is stored under, unless it had a value before. -/
def seed (classes : ClassRegistry) (store : VariableStore) (key written : String) (line : Nat) :
    Except Failure (Option String × VariableStore) :=
  match DefaultName.read classes key line with
  | .error failure => .error failure
  | .ok name =>
    if (store.get? name).isSome then .ok (none, store)
    else
      match storedValue classes written line with
      | .error failure => .error failure
      | .ok value => .ok (some name, store.set name (some value))

/-- Give the variable of one node its value. -/
def seedNode (classes : ClassRegistry) (store : VariableStore) :
    Node → Except Failure (Option String × VariableStore)
  | .entry key value line => seed classes store key value line
  | other => .error (.config other.line "Invalid line in variables section")

/-- Take over what one node says. -/
def initNode (state : VariablesStructure × Workspace) (node : Node) :
    VariablesStructure × Workspace :=
  let (defaults, workspace) := state
  match seedNode workspace.host.classes workspace.host.store node with
  | .error failure => (defaults, workspace.report failure)
  | .ok (name, store) =>
    (⟨defaults.seeded ++ name.toList⟩, workspace.inHost ({ · with store }))

/-- Give the variables of the section their values. -/
def init (body : Section) (defaults : VariablesStructure) (workspace : Workspace) :
    VariablesStructure × Workspace :=
  (body.convertToEntries 0 "=").nodes.foldl initNode (defaults, workspace)

end VariablesStructure

end ScriptBinding
