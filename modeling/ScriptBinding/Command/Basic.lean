import ScriptBinding.Item.Basic
import ScriptBinding.Script
import ScriptBinding.Text.Blank
import ScriptBinding.Text.Case
import ScriptBinding.Text.Cut

/-! # Commands

A command has a name and perhaps aliases, all of them labels under which it can be run.
-/

namespace ScriptBinding

/-- Who may run a command. -/
inductive Executors where
  | players
  | console
  | both
deriving DecidableEq, Repr

namespace Executors

/-- The word for those who may run a command. -/
def name : Executors → String
  | players => "players"
  | console => "console"
  | both => "both"

/-- The words that name some of those who may run a command. -/
def readWord? (word : List Char) : Option Executors :=
  let word := String.ofList (Text.trimChars word)
  if word = "players" || word = "player" then some players
  else if word = "console" then some console
  else none

/-- Those who belong to one of two groups. -/
def join (a b : Executors) : Executors :=
  if a = b then a else both

/-- Those who are named in a list of words. -/
def readWords? : List (List Char) → Option Executors
  | [] => none
  | [word] => readWord? word
  | word :: others =>
    match readWord? word, readWords? others with
    | some first, some rest => some (first.join rest)
    | _, _ => none

/-- Those who are named in a list with commas or the word "and", whatever the case. -/
def read? (text : String) : Option Executors :=
  let lowered := (Text.lower text).toList
  readWords? (Text.pieces ',' (Text.replaceAll " and ".toList [','] lowered))

end Executors

/-- A command of a script. -/
structure Command where
  name : String
  /-- What the header says about arguments. -/
  arguments : String := ""
  aliases : List String := []
  usage : String := ""
  description : String := ""
  permission : Option String := none
  permissionMessage : Option String := none
  executors : Executors := .both
  items : List Item
  script : Script
  line : Nat

/-- The labels under which a command can be run: its name and its aliases. -/
def Command.labels (command : Command) : List String :=
  command.name :: command.aliases

/-- The form in which labels are looked up: without leading slashes and in lower case. -/
def Command.lookupLabel (written : String) : String :=
  Text.lower (Text.dropLeading '/' written)

/-- The label that a script writes, without the blanks around it. -/
def Command.label (written : String) : String :=
  lookupLabel (Text.trim written)

end ScriptBinding
