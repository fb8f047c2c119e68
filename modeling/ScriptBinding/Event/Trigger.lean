import ScriptBinding.Event.Filter
import ScriptBinding.Function.Call
import ScriptBinding.Priority
import ScriptBinding.Text.Inspect

/-! # Triggers

A trigger is a body that is bound to the host behind a filter. A body that has been read waits as a
draft until its script is finished; its ticket tells triggers apart that are alike otherwise.
-/

namespace ScriptBinding

/-- What a descriptor says about an event. -/
structure EventInfo where
  name : String
  /-- The classes of events that triggers are subscribed to. -/
  classes : List EventClass
deriving DecidableEq, Repr

/-- The section of an event that has been read and waits for its script to be finished. -/
structure TriggerDraft where
  ticket : Nat
  info : EventInfo
  filter : EventFilter
  line : Nat
  items : List Item
  /-- The priority that the header gives. -/
  priority : Option EventPriority

/-- A body bound to the host. -/
structure Trigger where
  ticket : Nat
  script : Script
  eventName : String
  filter : EventFilter
  items : List Item
  line : Nat

namespace Trigger

/-- What a trigger is called in the log. -/
def label (trigger : Trigger) : String :=
  s!"{trigger.script.name}: line {trigger.line}"

/-- The trigger in full, as it is shown to those who look for faults. -/
def inspect (trigger : Trigger) : String :=
  s!"Trigger \x7b label: {Text.inspect trigger.label}, event: {Text.inspect trigger.eventName}, " ++
    s!"items: {trigger.items.length} \x7d"

/-- Run the body if the filter accepts the event; the answer is whether it did. -/
def execute (environment : Environment) (trigger : Trigger) (state : RunState) :
    Except Failure Bool × RunState :=
  if trigger.filter.accepts state.event then
    let (flow, after) := environment.run trigger.items 0 state
    (flow.map fun _ => true, after)
  else (.ok false, state)

/-- The log entry of a body that failed. -/
def failureEntry (trigger : Trigger) (failure : Failure) : LogEntry :=
  ⟨.error, s!"{failure.message} ({trigger.label})"⟩

end Trigger

/-- The trigger that a draft of a script becomes. -/
def TriggerDraft.toTrigger (script : Script) (draft : TriggerDraft) : Trigger :=
  ⟨draft.ticket, script, draft.info.name, draft.filter, draft.items, draft.line⟩

end ScriptBinding
