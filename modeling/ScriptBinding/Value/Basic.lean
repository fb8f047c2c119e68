import ScriptBinding.Number.Decimal
import ScriptBinding.Table

/-! # Values

The values scripts work with, their texts, and their written form in a store.
-/

namespace ScriptBinding

/-- A value of a script. -/
inductive Value where
  | boolean (flag : Bool)
  | integer (value : Int)
  | number (value : Binary64)
  | text (content : String)
  /-- A value of any other class, in the form in which it is stored. -/
  | object (className data : String)
deriving DecidableEq

namespace Value

/-- The code name of the class of a value. -/
def className : Value → String
  | boolean _ => "boolean"
  | integer _ => "integer"
  | number _ => "number"
  | text _ => "text"
  | object className _ => className

/-- Numbers are shown without exponent, and whole ones without a point. -/
def shownNumber : Number.Layout := ⟨none, none, false, true⟩

/-- Numbers are stored with a point or an exponent; an exponent stands for more than 16 digits
before the point or four zeros behind it. -/
def storedNumber : Number.Layout := ⟨some 16, some 4, true, false⟩

/-- A value as it is shown. -/
def shown : Value → String
  | boolean flag => if flag then "true" else "false"
  | integer value => toString value
  | number value => shownNumber.render value
  | text content => content
  | object _ data => data

/-- A hexadecimal digit. -/
def hexDigit (value : Nat) : Char :=
  (Nat.toDigits 16 value).headD '0'

/-- A character of a quoted text. -/
def quoteChar (c : Char) : List Char :=
  if c = '"' then ['\\', '"']
  else if c = '\\' then ['\\', '\\']
  else if c = '\n' then ['\\', 'n']
  else if c = '\r' then ['\\', 'r']
  else if c = '\t' then ['\\', 't']
  else if c = '\x08' then ['\\', 'b']
  else if c = '\x0c' then ['\\', 'f']
  else if c.toNat < 32 then ['\\', 'u', '0', '0', hexDigit (c.toNat / 16), hexDigit (c.toNat % 16)]
  else [c]

/-- A quoted text. -/
def quote (text : String) : String :=
  String.ofList ('"' :: text.toList.flatMap quoteChar ++ ['"'])

/-- The word for the shape of a stored value, and the lines of its content, the first of which
continues the line it is put on. -/
def storedParts : Value → String × List String
  | boolean flag => ("boolean", [if flag then "true" else "false"])
  | integer value => ("integer", [toString value])
  | number value => ("number", [storedNumber.render value])
  | text content => ("text", [quote content])
  | object className data =>
    ("object", ["\x7b", "  \"class\": " ++ quote className ++ ",", "  \"data\": " ++ quote data,
      "\x7d"])

/-- The lines of one stored variable. -/
def storedLines (name : String) (value : Value) : List String :=
  let (word, lines) := value.storedParts
  let first := "    \"value\": " ++ lines.headD ""
  let others := (lines.drop 1).map ("    " ++ ·)
  ["  " ++ quote name ++ ": \x7b", "    \"type\": " ++ quote word ++ ",", first] ++ others ++
    ["  \x7d"]

/-- Join blocks of lines with commas. -/
def joinBlocks : List (List String) → List String
  | [] => []
  | [last] => last
  | block :: others =>
    block.dropLast ++ (block.getLast?.map (· ++ ",")).toList ++ joinBlocks others

/-- The stored form of a table of variables, in the order of their names. -/
def storedTable (table : Table Value) : String :=
  if table.isEmpty then "\x7b\x7d"
  else
    let blocks := table.entries.map fun entry => storedLines entry.1 entry.2
    "\n".intercalate ("\x7b" :: joinBlocks blocks ++ ["\x7d"])

end Value

end ScriptBinding
