import ScriptBinding.Event.Basic
import ScriptBinding.Failure
import ScriptBinding.Item.Basic

/-! # Running bodies

Items run one after the other on an event. Texts are handed to the host with the local values of the
event in place of their references. What a call does is left open here: it is given the effects so
far and answers with a result and the effects after it, and it never sees the event of its caller.
-/

namespace ScriptBinding

/-- What the host makes of a text, given the event at that point: whether a block with this header
runs, and the event afterwards. -/
structure Sink where
  perform : String → HostEvent → Bool × HostEvent

/-- A host that only takes note of texts, and lets every block run. -/
def Sink.recording : Sink := ⟨fun _ event => (true, event)⟩

/-- The state of a running body. -/
structure RunState where
  event : HostEvent
  /-- The texts handed to the host so far. -/
  effects : List String := []
deriving DecidableEq

/-- What a call does: given the name of a function, its arguments and the effects so far, it has a
result and the effects after it. -/
abbrev Caller := String → List String → List String → Except Failure (Option String) × List String

/-- Hand a text to the host. -/
def RunState.perform (sink : Sink) (text : String) (state : RunState) : Bool × RunState :=
  let (accepted, event) := sink.perform text state.event
  (accepted, ⟨event, state.effects ++ [text]⟩)

/-- Cancel the event, or take that back, or else hand the text to the host. -/
def RunState.effect (sink : Sink) (text : String) (state : RunState) : RunState :=
  if Text.equalIgnoringAsciiCase text "cancel event" then
    { state with event := { state.event with cancelled := true } }
  else if Text.equalIgnoringAsciiCase text "uncancel event" then
    { state with event := { state.event with cancelled := false } }
  else (state.perform sink text).2

namespace Item

/-- Run an item. -/
def run (sink : Sink) (caller : Caller) : Item → RunState → Except Failure Flow × RunState
  | effect text _, state => (.ok .finished, state.effect sink (state.event.expand text))
  | call function arguments _, state =>
    let (result, effects) := caller function (arguments.map state.event.expand) state.effects
    (result.map fun _ => .finished, { state with effects })
  | answer value _, state => (.ok (.answered (value.map state.event.expand)), state)
  | block header _ items, state =>
    let (accepted, after) := state.perform sink (state.event.expand header)
    if accepted then runAll sink caller items after else (.ok .finished, after)
where
  /-- Run items one after the other, until one fails or ends the body. -/
  runAll (sink : Sink) (caller : Caller) : List Item → RunState → Except Failure Flow × RunState
    | [], state => (.ok .finished, state)
    | item :: others, state =>
      match run sink caller item state with
      | (.ok .finished, after) => runAll sink caller others after
      | ended => ended

end Item

end ScriptBinding
