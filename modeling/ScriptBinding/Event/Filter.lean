import ScriptBinding.Event.Basic
import ScriptBinding.Pattern.Basic
import ScriptBinding.Script

/-! # Event filters

A filter stands between the events of the host and a body. It is given the header of its section
once, and decides then which events the body runs for. A filter that registers itself is not
subscribed to classes of events, and takes no priority.
-/

namespace ScriptBinding

/-- The button a click is made with. -/
inductive ClickKind where
  | any
  | left
  | right
deriving DecidableEq, Repr

namespace ClickKind

/-- The button that the mark of a header stands for. -/
def ofMark (mark : Nat) : ClickKind :=
  if mark = 1 then left else if mark = 2 then right else any

/-- The name of such a click. -/
def describe : ClickKind → String
  | any => "click"
  | left => "left click"
  | right => "right click"

/-- An action, which is empty when an event has none, is such a click. -/
def accepts (kind : ClickKind) (action : String) : Bool :=
  match kind with
  | any => true
  | left => Text.equalIgnoringAsciiCase action "left"
  | right => Text.equalIgnoringAsciiCase action "right"

end ClickKind

/-- What a custom filter notes when it registers itself. -/
structure SelfRegistration where
  /-- When a trigger with this label is registered. -/
  onRegister : String → List String
  /-- When a trigger with this label is unregistered. -/
  onUnregister : String → List String
  /-- When its section has been read in a script. -/
  onRead : Script → List String

/-- The behaviour of a filter that is supplied from outside. It may depend on the header, once the
filter has been given it. -/
structure CustomFilter where
  /-- Take a header or reject it, and leave notes. -/
  start : MatchResult → Bool × List String
  /-- The body runs for the event. -/
  accepts : Option MatchResult → HostEvent → Bool
  /-- The body is read and bound at all. -/
  loads : Option MatchResult → Bool
  /-- The classes to subscribe to, in place of those of the descriptor. -/
  classes? : Option MatchResult → Option (List EventClass)
  takesPriority : Bool
  selfRegistration : Option SelfRegistration
  describe : Option MatchResult → String

/-- A filter between the events of the host and a body. -/
inductive EventFilter where
  /-- Every event. -/
  | simple (name : String)
  /-- Clicks with some button. -/
  | click (kind : ClickKind)
  /-- The moment at which the trigger itself is bound. -/
  | scriptLoad
  /-- A filter from outside, and the header it was given. -/
  | custom (behaviour : CustomFilter) (header : Option MatchResult)

namespace EventFilter

/-- Give a filter its header: whether it takes it, the filter afterwards, and the notes it leaves.
-/
def start (header : MatchResult) : EventFilter → Bool × EventFilter × List String
  | simple name => (true, simple name, [])
  | click _ => (true, click (.ofMark header.mark), [])
  | scriptLoad => (true, scriptLoad, [])
  | custom behaviour _ =>
    let (taken, notes) := behaviour.start header
    (taken, custom behaviour (some header), notes)

/-- The body runs for the event. -/
def accepts (event : HostEvent) : EventFilter → Bool
  | simple _ | scriptLoad => true
  | click kind => kind.accepts ((event.field? "action").getD "")
  | custom behaviour header => behaviour.accepts header event

/-- The body is read and bound at all. -/
def loads : EventFilter → Bool
  | custom behaviour header => behaviour.loads header
  | _ => true

/-- The classes to subscribe to, in place of those of the descriptor. -/
def classes? : EventFilter → Option (List EventClass)
  | custom behaviour header => behaviour.classes? header
  | _ => none

/-- The filter does not object to a priority. -/
def takesPriority : EventFilter → Bool
  | scriptLoad => false
  | custom behaviour _ => behaviour.takesPriority
  | _ => true

/-- The filter registers itself. -/
def registersItself : EventFilter → Bool
  | scriptLoad => true
  | custom behaviour _ => behaviour.selfRegistration.isSome
  | _ => false

/-- The notes that a filter leaves at some point of its registration. -/
def notes (point : SelfRegistration → List String) : EventFilter → List String
  | custom behaviour _ => (behaviour.selfRegistration.map point).getD []
  | _ => []

/-- What the filter is called in descriptions. -/
def describe : EventFilter → String
  | simple name => name
  | click kind => kind.describe
  | scriptLoad => "script load"
  | custom behaviour header => behaviour.describe header

end EventFilter

end ScriptBinding
