import ScriptBinding.Event.Trigger
import ScriptBinding.JobQueue

/-! # Subscriptions

The bus knows which triggers are subscribed to which classes, and at which priority. An event is
shown to the triggers of its class in the order of their priorities, and of two equal ones first
to the one that was subscribed first.
-/

namespace ScriptBinding

/-- A trigger that waits for the events of a class. -/
structure Subscription where
  eventClass : EventClass
  priority : EventPriority
  trigger : Trigger

/-- The subscriptions, in the order in which they were made, and the triggers that registered
themselves. -/
structure EventBus where
  subscriptions : List Subscription := []
  selfRegistered : List Trigger := []
  /-- The triggers that ran when they were bound, and have not been unbound since. -/
  loadListeners : List Trigger := []
  /-- How often the bus was modified by a worker. -/
  offMain : Nat := 0

/-- A row of the overview of a bus. -/
structure BusEntry where
  className : String
  priority : EventPriority
  label : String
deriving DecidableEq, Repr

/-- The order of the overview: by class, then by priority, then by label. -/
def BusEntry.precedes (a b : BusEntry) : Bool :=
  if a.className = b.className then
    if a.priority = b.priority then !(b.label < a.label)
    else a.priority.rank < b.priority.rank
  else a.className < b.className

namespace EventBus

/-- Subscribe a trigger to classes, in their order. -/
def subscribe (classes : List EventClass) (priority : EventPriority) (trigger : Trigger)
    (bus : EventBus) : EventBus :=
  { bus with subscriptions := bus.subscriptions ++ classes.map (⟨·, priority, trigger⟩) }

/-- Take note of a trigger that registered itself. -/
def addSelfRegistered (trigger : Trigger) (bus : EventBus) : EventBus :=
  { bus with selfRegistered := bus.selfRegistered ++ [trigger] }

/-- Take note of a trigger that runs when it is bound. -/
def addLoadListener (trigger : Trigger) (bus : EventBus) : EventBus :=
  { bus with loadListeners := bus.loadListeners ++ [trigger] }

/-- Forget a trigger that ran when it was bound. -/
def removeLoadListener (ticket : Nat) (bus : EventBus) : EventBus :=
  { bus with loadListeners := bus.loadListeners.filter (·.ticket != ticket) }

/-- Remove the subscriptions of a trigger. -/
def remove (ticket : Nat) (bus : EventBus) : EventBus :=
  { bus with
    subscriptions := bus.subscriptions.filter (·.trigger.ticket != ticket)
    selfRegistered := bus.selfRegistered.filter (·.ticket != ticket) }

/-- A subscription that is shown an event before another one, unless that was made earlier. -/
def before (a b : Subscription) : Bool :=
  a.priority.rank ≤ b.priority.rank

/-- The subscriptions to a class, in the order in which they are shown an event. -/
def listeners (bus : EventBus) (eventClass : EventClass) : List Subscription :=
  (bus.subscriptions.filter (·.eventClass == eventClass)).mergeSort before

/-- Every subscription and every trigger that registered itself, in order. -/
def overview (bus : EventBus) : List BusEntry :=
  let subscribed := bus.subscriptions.map fun subscription =>
    ⟨subscription.eventClass.name, subscription.priority, subscription.trigger.label⟩
  let others := bus.selfRegistered.map fun trigger =>
    ⟨(EventClass.of trigger.eventName).name, .normal, trigger.label⟩
  (subscribed ++ others).mergeSort BusEntry.precedes

/-- What showing an event to triggers has left. -/
structure Dispatch where
  state : RunState
  /-- The number of bodies that ran to their end. -/
  completed : Nat := 0
  log : List LogEntry := []

/-- Show an event to one trigger. A body that fails leaves an entry in the log. -/
def Dispatch.show (environment : Environment) (dispatch : Dispatch) (trigger : Trigger) :
    Dispatch :=
  match trigger.execute environment dispatch.state with
  | (.ok true, state) => ⟨state, dispatch.completed + 1, dispatch.log⟩
  | (.ok false, state) => ⟨state, dispatch.completed, dispatch.log⟩
  | (.error failure, state) =>
    ⟨state, dispatch.completed, dispatch.log ++ [trigger.failureEntry failure]⟩

/-- Show an event to the triggers of its class, one after the other. -/
def fire (environment : Environment) (state : RunState) (bus : EventBus) : Dispatch :=
  (bus.listeners state.event.eventClass).foldl
    (fun dispatch subscription => dispatch.show environment subscription.trigger) { state }

end EventBus

end ScriptBinding
