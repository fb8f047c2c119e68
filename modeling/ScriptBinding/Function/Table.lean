import ScriptBinding.Function.Signature
import ScriptBinding.Item.Basic
import ScriptBinding.Table

/-! # Declared functions

A function is declared by its signature, so that bodies can refer to it, and given its body later.
The script that declares a name owns it until the declaration is taken back.
-/

namespace ScriptBinding

/-- A function with its body. -/
structure Function where
  signature : Signature
  items : List Item

/-- The functions that are declared, and those that have a body. -/
structure FunctionTable where
  signatures : Table Signature := .empty
  bodies : Table Function := .empty

namespace FunctionTable

/-- The signature of a function. -/
def signature? (functions : FunctionTable) (name : String) : Option Signature :=
  functions.signatures.get? name

/-- Declare a function whose name is not taken. -/
def declare (signature : Signature) (functions : FunctionTable) : Except Failure FunctionTable :=
  match functions.signature? signature.name with
  | some existing =>
    .error (.parse signature.line
      s!"A function named '{signature.name}' already exists in {existing.script.name}")
  | none =>
    .ok { functions with signatures := functions.signatures.insert signature.name signature }

/-- The signature is declared, by the same load of a script. -/
def declares (functions : FunctionTable) (signature : Signature) : Bool :=
  (functions.signature? signature.name).any (·.same signature)

/-- Give a declared function its body. -/
def attach (function : Function) (functions : FunctionTable) : Except Failure FunctionTable :=
  let signature := function.signature
  if functions.declares signature then
    .ok { functions with bodies := functions.bodies.insert signature.name function }
  else .error (.bind signature.line s!"Function '{signature.name}' was not declared")

/-- Remove some functions. -/
def removeAll (names : List String) (functions : FunctionTable) : FunctionTable :=
  ⟨functions.signatures.eraseAll names, functions.bodies.eraseAll names⟩

/-- The function with this name is declared by the script. -/
def ownedBy (functions : FunctionTable) (script : Script) (name : String) : Bool :=
  (functions.signature? name).any (·.script.same script)

/-- Take back a declaration, unless its name belongs to another script. -/
def withdraw (signature : Signature) (functions : FunctionTable) : Bool × FunctionTable :=
  if functions.ownedBy signature.script signature.name then
    (true, functions.removeAll [signature.name])
  else (false, functions)

/-- The names of the functions that a script has declared. -/
def namesOf (functions : FunctionTable) (script : Script) : List String :=
  functions.signatures.keys.filter (functions.ownedBy script)

/-- Take back every declaration of a script. -/
def withdrawScript (script : Script) (functions : FunctionTable) : Nat × FunctionTable :=
  let names := functions.namesOf script
  (names.length, functions.removeAll names)

end FunctionTable

end ScriptBinding
