import ScriptBinding.Command.Table
import ScriptBinding.Config
import ScriptBinding.Event.Bus
import ScriptBinding.Value.Standard
import ScriptBinding.Variable.Store

/-! # The host

The host holds what scripts are bound to. Its subscriptions and its commands belong to the main
thread: the jobs that change them go through a queue, and what a structure has bound is kept under
the ticket of the structure, so that a later job can take it back.
-/

namespace ScriptBinding

/-- What became of the command of a structure. -/
structure Registration where
  /-- The command that is registered. -/
  registered : Option Command := none
  /-- Why the host refused it, until that has been taken note of. -/
  refusal : Option String := none

/-- Work that belongs to the main thread. -/
inductive Job where
  /-- Bind the drafts of a script. -/
  | bind (script : Script) (drafts : List TriggerDraft)
  /-- Take back the trigger that is bound under a ticket. -/
  | unbind (ticket : Nat)
  /-- Register a command under a ticket. -/
  | register (ticket : Nat) (command : Command)
  /-- Take back the command that is registered under a ticket. -/
  | unregister (ticket : Nat)

/-- What scripts are bound to. -/
structure Host where
  config : Config := {}
  classes : ClassRegistry := .standard
  sink : Sink := .recording
  bus : EventBus := {}
  commands : CommandTable := {}
  functions : FunctionTable := {}
  store : VariableStore := {}
  queue : JobQueue Job := {}
  /-- The trigger that is bound under a ticket. -/
  bound : Nat → Option Trigger := fun _ => none
  /-- What became of the command under a ticket. -/
  registrations : Nat → Registration := fun _ => {}
  /-- The ticket that is handed out next. -/
  nextTicket : Nat := 0
  /-- The texts that running bodies have handed out. -/
  effects : List String := []
  /-- The notes of filters and structures from outside. -/
  notes : List String := []
  log : List LogEntry := []

namespace Host

/-- What running bodies need. -/
def environment (host : Host) : Environment :=
  ⟨host.functions, host.sink, host.config.maxCallDepth⟩

/-- Write entries to the log. -/
def write (entries : List LogEntry) (host : Host) : Host :=
  { host with log := host.log ++ entries }

/-- Leave notes. -/
def note (texts : List String) (host : Host) : Host :=
  { host with notes := host.notes ++ texts }

/-- A ticket that has not been handed out before. -/
def takeTicket (host : Host) : Nat × Host :=
  (host.nextTicket, { host with nextTicket := host.nextTicket + 1 })

/-- Keep a trigger under its ticket. -/
def keepBound (ticket : Nat) (trigger : Option Trigger) (host : Host) : Host :=
  { host with bound := fun other => if other = ticket then trigger else host.bound other }

/-- Keep what became of the command under a ticket. -/
def keepRegistration (ticket : Nat) (registration : Registration) (host : Host) : Host :=
  { host with
    registrations := fun other =>
      if other = ticket then registration else host.registrations other }

/-! ## Subscriptions -/

/-- A modification of the bus, which belongs to the main thread. -/
def touchBus (thread : Thread) (host : Host) : Host :=
  match thread with
  | .main => host
  | .worker =>
    ({ host with bus := { host.bus with offMain := host.bus.offMain + 1 } } : Host).write
      [⟨.warn, "Event subscriptions modified off the main thread"⟩]

/-- Subscribe a trigger to classes. -/
def subscribe (thread : Thread) (classes : List EventClass) (priority : EventPriority)
    (trigger : Trigger) (host : Host) : Host :=
  let host := host.touchBus thread
  { host with bus := host.bus.subscribe classes priority trigger }

/-- Take note of a trigger that registered itself. -/
def addSelfRegistered (thread : Thread) (trigger : Trigger) (host : Host) : Host :=
  let host := host.touchBus thread
  { host with bus := host.bus.addSelfRegistered trigger }

/-- Remove the subscriptions of a trigger. -/
def removeTrigger (thread : Thread) (ticket : Nat) (host : Host) : Host :=
  let host := host.touchBus thread
  { host with bus := host.bus.remove ticket }

/-- The event that a trigger is shown when it is bound. -/
def loadEvent (trigger : Trigger) : HostEvent :=
  (HostEvent.ofClass "script load").withField "script" trigger.script.name

/-- Show a trigger the event of its own binding. -/
def runLoadTrigger (trigger : Trigger) (host : Host) : Host :=
  let (result, state) := trigger.execute host.environment ⟨loadEvent trigger, host.effects⟩
  let host := { host with effects := state.effects }
  match result with
  | .ok _ => host
  | .error failure => host.write [trigger.failureEntry failure]

/-- A trigger registers itself. -/
def selfRegister (trigger : Trigger) (host : Host) : Host :=
  let host := host.note (trigger.filter.notes fun custom => custom.onRegister trigger.label)
  match trigger.filter with
  | .scriptLoad =>
    ({ host with bus := host.bus.addLoadListener trigger } : Host).runLoadTrigger trigger
  | _ => host

/-- A trigger takes its own registration back. -/
def selfUnregister (trigger : Trigger) (host : Host) : Host :=
  let host := host.note (trigger.filter.notes fun custom => custom.onUnregister trigger.label)
  match trigger.filter with
  | .scriptLoad => { host with bus := host.bus.removeLoadListener trigger.ticket }
  | _ => host

/-- Show an event to the triggers of its class: how many bodies ran, the event afterwards, and the
host. -/
def fire (event : HostEvent) (host : Host) : Nat × HostEvent × Host :=
  let dispatch := host.bus.fire host.environment ⟨event, host.effects⟩
  (dispatch.completed, dispatch.state.event,
    ({ host with effects := dispatch.state.effects } : Host).write dispatch.log)

/-! ## Commands and functions -/

/-- A modification of the command table, which belongs to the main thread. -/
def touchCommands (thread : Thread) (host : Host) : Host :=
  match thread with
  | .main => host
  | .worker =>
    ({ host with
      commands := { host.commands with offMain := host.commands.offMain + 1 } } : Host).write
      [⟨.warn, "Command table modified off the main thread"⟩]

/-- Register a command, unless one of its labels is taken. -/
def registerCommand (thread : Thread) (command : Command) (host : Host) :
    Except Failure Unit × Host :=
  let host := host.touchCommands thread
  match host.commands.register command with
  | .error failure => (.error failure, host)
  | .ok commands => (.ok (), { host with commands })

/-- Remove a command, if there is one with this name. -/
def unregisterCommand (thread : Thread) (name : String) (host : Host) : Bool × Host :=
  let host := host.touchCommands thread
  let (removed, commands) := host.commands.unregister name
  (removed, { host with commands })

/-- Run the command with this label. -/
def dispatch (label arguments : String) (host : Host) : Except Failure Bool × Host :=
  let (result, effects) :=
    host.commands.dispatch host.environment label arguments host.effects
  (result, { host with effects })

/-- Call a function from the given depth of calls. -/
def call (function : String) (arguments : List String) (depth : Nat) (host : Host) :
    Except Failure (Option String) × Host :=
  let (result, effects) := host.environment.call depth function arguments host.effects
  (result, { host with effects })

/-! ## Jobs -/

/-- The classes a draft is subscribed to. -/
def draftClasses (draft : TriggerDraft) : List EventClass :=
  draft.filter.classes?.getD draft.info.classes

/-- The priority at which a draft is subscribed. -/
def draftPriority (host : Host) (draft : TriggerDraft) : EventPriority :=
  draft.priority.getD host.config.defaultPriority

/-- Bind one draft of a script. -/
def bindDraft (script : Script) (draft : TriggerDraft) (host : Host) : Host :=
  let trigger := draft.toTrigger script
  let host := host.keepBound draft.ticket (some trigger)
  if draft.filter.registersItself then
    (host.selfRegister trigger).addSelfRegistered .main trigger
  else host.subscribe .main (draftClasses draft) (host.draftPriority draft) trigger

/-- Take back the trigger that is bound under a ticket, if there is one. -/
def unbind (ticket : Nat) (host : Host) : Host :=
  match host.bound ticket with
  | none => host
  | some trigger =>
    let host := host.keepBound ticket none
    let host := if trigger.filter.registersItself then host.selfUnregister trigger else host
    host.removeTrigger .main trigger.ticket

/-- Register a command and keep what became of it. -/
def registerUnder (ticket : Nat) (command : Command) (host : Host) : Host :=
  let (result, host) := host.registerCommand .main command
  let registration := host.registrations ticket
  match result with
  | .ok () => host.keepRegistration ticket { registration with registered := some command }
  | .error failure =>
    (host.write [⟨.error, failure.message⟩]).keepRegistration ticket
      { registration with refusal := some failure.text }

/-- Take back the command that is registered under a ticket, if there is one. -/
def unregisterUnder (ticket : Nat) (host : Host) : Host :=
  let registration := host.registrations ticket
  match registration.registered with
  | none => host
  | some command =>
    ((host.keepRegistration ticket { registration with registered := none }).unregisterCommand
      .main command.name).2

/-- Do a job, on the main thread. -/
def perform (host : Host) : Job → Host
  | .bind script drafts => drafts.foldl (fun host draft => host.bindDraft script draft) host
  | .unbind ticket => host.unbind ticket
  | .register ticket command => host.registerUnder ticket command
  | .unregister ticket => host.unregisterUnder ticket

/-- Submit a job: the main thread does it at once, and a worker leaves it in the queue. -/
def submit (thread : Thread) (job : Job) (host : Host) : Host :=
  let (jobs, queue) := host.queue.submit thread (.single job)
  jobs.foldl perform { host with queue }

/-- Do the jobs that wait, which only the main thread can: how many there were, and the host. -/
def runPending (thread : Thread) (host : Host) : Nat × Host :=
  let (drained, entries, queue) := host.queue.drainOn thread
  (drained.count, (drained.done.foldl perform { host with queue }).write entries)

/-- Take note of the refusal of the command under a ticket, if there is one. -/
def takeRefusal (ticket : Nat) (host : Host) : Option String × Host :=
  let registration := host.registrations ticket
  (registration.refusal, host.keepRegistration ticket { registration with refusal := none })

end Host

end ScriptBinding
