import ScriptBinding.Text.Blank
import ScriptBinding.Text.Case

/-! # Event priorities

The points of a dispatch at which a trigger sees an event, from the first to the last.
-/

namespace ScriptBinding

/-- The point of a dispatch at which a trigger sees an event. -/
inductive EventPriority where
  | lowest
  | low
  | normal
  | high
  | highest
  | monitor
deriving DecidableEq, Repr, Inhabited

namespace EventPriority

/-- The word for a priority. -/
def name : EventPriority → String
  | lowest => "lowest"
  | low => "low"
  | normal => "normal"
  | high => "high"
  | highest => "highest"
  | monitor => "monitor"

/-- The place of a priority in a dispatch. -/
def rank : EventPriority → Nat
  | lowest => 0
  | low => 1
  | normal => 2
  | high => 3
  | highest => 4
  | monitor => 5

/-- Every priority, in the order of a dispatch. -/
def all : List EventPriority :=
  [lowest, low, normal, high, highest, monitor]

/-- The priority a word stands for, whatever its case and the blanks around it. -/
def read? (text : String) : Option EventPriority :=
  let word := Text.lower (Text.trim text)
  all.find? fun priority => priority.name == word

/-- The message for a word that is no priority. -/
def unknownMessage (text : String) : String :=
  s!"Unknown event priority: {text}"

end EventPriority

end ScriptBinding
