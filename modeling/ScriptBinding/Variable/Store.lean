import ScriptBinding.Text.Cut
import ScriptBinding.Value.Basic

/-! # Variables

Variables are named by segments between pairs of colons, whatever their case. A name with segments
in angle brackets is a template: it answers for names of the same shape that have no value of
their own.
-/

namespace ScriptBinding

/-- The stored variables, by their names in lower case. -/
structure VariableStore where
  table : Table Value := .empty
deriving DecidableEq

namespace VariableStore

/-- The value stored under exactly this name. -/
def get? (store : VariableStore) (name : String) : Option Value :=
  store.table.get? (Text.lower name)

/-- Store a value, or delete the variable. -/
def set (name : String) (value : Option Value) (store : VariableStore) : VariableStore :=
  match value with
  | some value => ⟨store.table.insert (Text.lower name) value⟩
  | none => ⟨store.table.erase (Text.lower name)⟩

/-- The segments of a name, between pairs of colons. -/
def segments (name : List Char) : List (List Char) :=
  match _found : Text.cut? [':', ':'] name with
  | none => [name]
  | some (first, rest) => first :: segments rest
termination_by name.length
decreasing_by
  have := Text.length_of_cut? _found
  simp only [List.length_cons, List.length_nil] at this
  omega

/-- A segment in angle brackets, with something between them. -/
def isPlaceholder (segment : List Char) : Bool :=
  2 < segment.length && segment.head? == some '<' && segment.getLast? == some '>'

/-- The segments of a template answer for those of a name. -/
def answersFor : List (List Char) → List (List Char) → Bool
  | [], [] => true
  | template :: templates, segment :: others =>
    (isPlaceholder template || template == segment) && answersFor templates others
  | _, _ => false

/-- The value of a variable, or else of a template that answers for its name. -/
def resolve? (store : VariableStore) (name : String) : Option Value :=
  let key := Text.lower name
  match store.table.get? key with
  | some value => some value
  | none =>
    (store.table.entries.find? fun entry =>
      answersFor (segments entry.1.toList) (segments key.toList)).map Prod.snd

/-- The names of the variables, in their order. -/
def names (store : VariableStore) : List String :=
  store.table.keys

/-- The stored form of all variables. -/
def stored (store : VariableStore) : String :=
  Value.storedTable store.table

end VariableStore

end ScriptBinding
