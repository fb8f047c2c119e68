import ScriptBinding.Command.Reading
import ScriptBinding.Context

/-! # Command sections

The command is registered by the main thread. Loaded there, it learns at once whether the host takes
it; loaded by a worker, it counts as taken until it is settled.
-/

namespace ScriptBinding

/-- Read a command from its section, and report what is wrong with its entries and its body. -/
def Workspace.readCommand (header : String) (body : Section) (workspace : Workspace) :
    Except Failure Command × Workspace :=
  match workspace.context.script with
  | none => (.error (.fatal "Command parsed outside of a script"), workspace)
  | some script =>
    match CommandReading.readHeader workspace.host.classes script header body.line with
    | .error failure => (.error failure, workspace)
    | .ok command =>
      let reading := CommandReading.applyAll body command
      let workspace := workspace.reportAll reading.failures
      match reading.body with
      | none => (.error (CommandReading.missingBody body.line command), workspace)
      | some trigger =>
        let (items, after) := workspace.readBody trigger
        (items.map fun items => { reading.command with items }, after)

/-- The section of a command. -/
structure CommandStructure where
  /-- The ticket under which the host keeps the registration. -/
  ticket : Nat
  /-- The header behind the word for commands. -/
  header : String := ""
  body : Option Section := none
  /-- The name of the command that has been loaded. -/
  name : Option String := none

namespace CommandStructure

/-- Take the header and the section. -/
def init (header : MatchResult) (body : Section) (command : CommandStructure) :
    Except Failure CommandStructure :=
  match header.raws with
  | written :: _ => .ok { command with header := written, body := some body }
  | [] => .error (.fatal s!"No command given in '{header.expr}'")

/-- The event of the bodies of commands. -/
def bodyEvent : CurrentEvent := ⟨"command", [.of "command"]⟩

/-- Count a command of the script. -/
def count (name : String) (info : ScriptInfo) : ScriptInfo :=
  { info with commands := info.commands + 1, commandNames := info.commandNames ++ [name] }

/-- Take a command of the script back. -/
def uncount (name : String) (info : ScriptInfo) : ScriptInfo :=
  { info with
    commands := info.commands - 1
    commandNames := info.commandNames.filter (· != name) }

/-- Hand a command that has been read to the main thread. -/
def submit (thread : Thread) (command : Command) (ticket : Nat) (workspace : Workspace) :
    Except Failure Unit × Workspace :=
  let workspace := workspace.submit thread (.register ticket command)
  let (refusal, host) := workspace.host.takeRefusal ticket
  let workspace := { workspace with host }
  match refusal with
  | some text => (.error (.host text), workspace)
  | none =>
    (.ok (), workspace.inContext fun context =>
      (context.declareCommand command.name).updateInfo (count command.name))

/-- Read the command and hand it to the main thread, unless the script has it already. -/
def loadBody (thread : Thread) (body : Section) (command : CommandStructure)
    (workspace : Workspace) : Except Failure CommandStructure × Workspace :=
  match workspace.reading bodyEvent (·.readCommand command.header body) with
  | (.error failure, after) => (.error failure, after)
  | (.ok loaded, after) =>
    let declared := after.context.currentCommands
    let after := after.inContext ({ · with commands := some declared })
    if declared.contains loaded.name then
      (.error (.parse body.line s!"The command /{loaded.name} is already defined in this script"),
        after)
    else
      let (result, final) := submit thread loaded command.ticket after
      (result.map fun _ => { command with name := some loaded.name }, final)

/-- Load the command. -/
def load (thread : Thread) (command : CommandStructure) (workspace : Workspace) :
    Except Failure CommandStructure × Workspace :=
  match command.body with
  | none => (.error (.fatal "Command loaded before init"), workspace)
  | some body => loadBody thread body command workspace

/-- A command that the host has refused since does not count. -/
def settle (command : CommandStructure) (host : Host) (info : ScriptInfo) :
    Except Failure Unit × Host × ScriptInfo :=
  match host.takeRefusal command.ticket with
  | (none, host) => (.ok (), host, info)
  | (some text, host) =>
    (.error (.host text), host,
      match command.name with
      | some name => uncount name info
      | none => info)

/-- Take the command back. -/
def unload (thread : Thread) (command : CommandStructure) (workspace : Workspace) : Workspace :=
  workspace.submit thread (.unregister command.ticket)

/-- What the structure is called in descriptions. -/
def describe (command : CommandStructure) : String :=
  match command.name with
  | some name => s!"command /{name}"
  | none => "command"

end CommandStructure

end ScriptBinding
