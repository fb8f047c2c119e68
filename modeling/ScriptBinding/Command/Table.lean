import ScriptBinding.Command.Basic
import ScriptBinding.Function.Call

/-! # Registered commands

No two registered commands share a label.
-/

namespace ScriptBinding

/-- The registered commands by their names, and the names of the commands by their labels. -/
structure CommandTable where
  commands : Table Command := .empty
  labels : Table String := .empty
  /-- How often the table was modified by a worker. -/
  offMain : Nat := 0

namespace CommandTable

/-- There is a command with this label. -/
def contains (commands : CommandTable) (label : String) : Bool :=
  commands.labels.contains (Command.lookupLabel label)

/-- The command with this label. -/
def get? (commands : CommandTable) (label : String) : Option Command :=
  (commands.labels.get? (Command.lookupLabel label)).bind commands.commands.get?

/-- The refusal of a label that is taken. -/
def takenFailure (label : String) : Failure :=
  .host s!"A command or alias named '/{label}' is already registered"

/-- Register a command, unless one of its labels is taken. -/
def register (command : Command) (commands : CommandTable) : Except Failure CommandTable :=
  match command.labels.find? commands.labels.contains with
  | some label => .error (takenFailure label)
  | none =>
    .ok { commands with
      commands := commands.commands.insert command.name command
      labels := commands.labels.insertAll (command.labels.map (·, command.name)) }

/-- Remove a command and its labels, if there is one with this name. -/
def unregister (name : String) (commands : CommandTable) : Bool × CommandTable :=
  match commands.commands.get? name with
  | none => (false, commands)
  | some command =>
    (true, { commands with
      commands := commands.commands.erase name
      labels := commands.labels.eraseAll command.labels })

/-- The names of the registered commands, in order. -/
def names (commands : CommandTable) : List String :=
  commands.commands.keys

/-- The event of a command that is run. -/
def event (command : Command) (arguments : String) : HostEvent :=
  ((HostEvent.ofClass "command").withField "command" command.name).withField "arguments" arguments

/-- Run the command with this label: whether there is one, and the effects afterwards. -/
def dispatch (environment : Environment) (label arguments : String) (effects : List String)
    (commands : CommandTable) : Except Failure Bool × List String :=
  match commands.get? label with
  | none => (.ok false, effects)
  | some command =>
    let (flow, state) := environment.run command.items 0 ⟨event command arguments, effects⟩
    (flow.map fun _ => true, state.effects)

end CommandTable

end ScriptBinding
