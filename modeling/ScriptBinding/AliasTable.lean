import ScriptBinding.Failure
import ScriptBinding.Node.Basic
import ScriptBinding.Table
import ScriptBinding.Text.Cut

/-! # Aliases

An alias stands for a list of items. A name in braces among the items of a new alias stands for the
items of an earlier one.
-/

namespace ScriptBinding

/-- The aliases of a script. -/
abbrev AliasTable := Table (List String)

namespace AliasTable

/-- The form in which names are looked up. -/
def lookupName (written : String) : String :=
  Text.lower (Text.trim written)

/-- The items of an alias. -/
def items? (table : AliasTable) (name : String) : Option (List String) :=
  table.get? (lookupName name)

/-- The items that one piece of a line stands for. -/
def itemsOf (table : AliasTable) (line : Nat) (piece : List Char) :
    Except Failure (List String) :=
  match Text.between? '\x7b' '\x7d' piece with
  | none => .ok [Text.lower (String.ofList piece)]
  | some name =>
    match table.items? (String.ofList name) with
    | some items => .ok items
    | none => .error (.config line s!"'{String.ofList name}' is not an alias")

/-- The pieces of a value between commas that are not blank, without the blanks around them. -/
def piecesOf (value : String) : List (List Char) :=
  ((Text.pieces ',' value.toList).map Text.trimChars).filter (!·.isEmpty)

/-- The items that the pieces of a line stand for, and the faults among them. -/
def collect (table : AliasTable) (line : Nat) :
    List (List Char) → List String × List Failure
  | [] => ([], [])
  | piece :: others =>
    let (items, failures) := collect table line others
    match table.itemsOf line piece with
    | .ok found => (found ++ items, failures)
    | .error failure => (items, failure :: failures)

/-- Load one line. One that has no items is left out. -/
def loadNode (node : Node) (table : AliasTable) : AliasTable × List Failure :=
  match node with
  | .entry key value line =>
    let (items, failures) := table.collect line (piecesOf value)
    if items.isEmpty then
      (table, failures ++ [.config line s!"Alias '{lookupName key}' has no items"])
    else (table.insert (lookupName key) items, failures)
  | other => (table, [.config other.line "Invalid line in aliases section"])

/-- Load lines one after the other. -/
def load : List Node → AliasTable → AliasTable × List Failure
  | [], table => (table, [])
  | node :: others, table =>
    let (first, failures) := table.loadNode node
    let (last, rest) := load others first
    (last, failures ++ rest)

end AliasTable

end ScriptBinding
