import ScriptBinding.Table
import ScriptBinding.Text.Case
import ScriptBinding.Text.Reference

/-! # Events of the host

An event belongs to a class and carries named fields. Running bodies keep their local values in
fields whose names start with an underscore, and refer to them in braces.
-/

namespace ScriptBinding

/-- A class of events, named in lower case. -/
structure EventClass where
  name : String
deriving DecidableEq, Repr

/-- The class a text names, whatever its case. -/
def EventClass.of (text : String) : EventClass :=
  ⟨Text.lower text⟩

/-- An event of the host. -/
structure HostEvent where
  eventClass : EventClass
  fields : Table String := .empty
  cancelled : Bool := false
deriving DecidableEq

namespace HostEvent

/-- An event of a class, without fields. -/
def ofClass (name : String) : HostEvent :=
  { eventClass := .of name }

/-- The event with one more field. -/
def withField (name value : String) (event : HostEvent) : HostEvent :=
  { event with fields := event.fields.insert name value }

/-- The value of a field. -/
def field? (event : HostEvent) (name : String) : Option String :=
  event.fields.get? name

/-- The mark that opens a reference to a local value. -/
def localOpening : List Char := ['\x7b', '_']

/-- What stands for a reference to a local value; one that is not there is left as it is written. -/
def localImage (event : HostEvent) (key : List Char) : List Char :=
  match event.field? (String.ofList ('_' :: key)) with
  | some value => value.toList
  | none => localOpening ++ key ++ ['\x7d']

/-- The text with the local values of the event in place of their references. -/
def expand (event : HostEvent) (text : String) : String :=
  String.ofList ((Text.References.scan localOpening '\x7d' text.toList).fill localOpening
    event.localImage)

end HostEvent

end ScriptBinding
