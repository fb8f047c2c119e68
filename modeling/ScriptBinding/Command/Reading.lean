import ScriptBinding.Command.Basic
import ScriptBinding.Failure
import ScriptBinding.Node.Entries
import ScriptBinding.Text.Reference
import ScriptBinding.Value.Class

/-! # Reading commands

The section of a command holds entries and the section of its body. What is neither leaves a report
and is passed over; of two bodies the later one counts.
-/

namespace ScriptBinding

/-- A command as far as it has been read. -/
structure CommandReading where
  command : Command
  /-- The section of the body. -/
  body : Option Section := none
  /-- The reports in the order of the text. -/
  failures : List Failure := []

namespace CommandReading

/-! ## Headers -/

/-- Cut a header at its first blank into the name and the arguments. -/
def cutHeader (header : List Char) : List Char × List Char :=
  let name := header.takeWhile (!Text.isBlank ·)
  (name, Text.trimChars (header.drop name.length))

/-- A label can be the name of a command. -/
def isName (label : String) : Bool :=
  !label.isEmpty && label.toList.all fun c => !Text.isBlank c && c != '/'

/-- The type of an argument, which a default may follow behind an equals sign. -/
def argumentType (written : List Char) : String :=
  String.ofList (Text.trimChars (written.takeWhile (· != '=')))

/-- Check that the arguments in angle brackets have types that are known. -/
def checkTypes (classes : ClassRegistry) (line : Nat) : List String → Except Failure Unit
  | [] => .ok ()
  | type :: others =>
    if (classes.ofUserInput? type).isSome then checkTypes classes line others
    else .error (.parse line s!"Cannot recognise the type '{type}'")

/-- Check the arguments of a header. -/
def checkArguments (classes : ClassRegistry) (line : Nat) (arguments : List Char) :
    Except Failure Unit :=
  let references := Text.References.scan ['<'] '>' arguments
  match checkTypes classes line (references.found.map fun part => argumentType part.2) with
  | .error failure => .error failure
  | .ok () =>
    if references.unclosed.isSome then .error (.parse line "Unclosed '<' in command arguments")
    else .ok ()

/-- The command that a header announces, without anything its section says. -/
def readHeader (classes : ClassRegistry) (script : Script) (header : String) (line : Nat) :
    Except Failure Command :=
  let header := Text.trimChars header.toList
  let (written, arguments) := cutHeader header
  let name := Command.label (String.ofList written)
  if isName name then
    match checkArguments classes line arguments with
    | .error failure => .error failure
    | .ok () =>
      .ok
        { name
          arguments := String.ofList arguments
          usage := Text.trimEnd s!"/{name} {String.ofList arguments}"
          items := []
          script
          line }
  else .error (.parse line s!"Invalid command name '{String.ofList header}'")

/-! ## Entries -/

/-- The labels of a list, without the name of the command itself. -/
def aliasesOf (name value : String) : List String :=
  ((Text.split ',' value).map Command.label).filter fun label => !label.isEmpty && label != name

/-- Leave a report. -/
def fail (line : Nat) (text : String) (reading : CommandReading) : CommandReading :=
  { reading with failures := reading.failures ++ [.config line text] }

/-- Change the command. -/
def update (change : Command → Command) (reading : CommandReading) : CommandReading :=
  { reading with command := change reading.command }

/-- Take over what an entry says. -/
def applyEntry (key value : String) (line : Nat) (reading : CommandReading) : CommandReading :=
  match Text.lower key with
  | "usage" => reading.update ({ · with usage := value })
  | "description" => reading.update ({ · with description := value })
  | "permission" => reading.update ({ · with permission := some value })
  | "permission message" => reading.update ({ · with permissionMessage := some value })
  | "aliases" => reading.update ({ · with aliases := aliasesOf reading.command.name value })
  | "executable by" =>
    match Executors.read? value with
    | some executors => reading.update ({ · with executors })
    | none => reading.fail line s!"'{value}' is not a valid value for 'executable by'"
  | other => reading.fail line s!"Unexpected entry '{other}' in command /{reading.command.name}"

/-- Take over what a node says. -/
def apply (reading : CommandReading) (node : Node) : CommandReading :=
  match node with
  | .entry key value line => reading.applyEntry key value line
  | .nested key line nodes =>
    if Text.equalIgnoringAsciiCase key "trigger" then
      { reading with body := some ⟨key, line, nodes⟩ }
    else reading.fail line s!"Unexpected line '{key}' in command /{reading.command.name}"
  | .simple key line =>
    reading.fail line s!"Unexpected line '{key}' in command /{reading.command.name}"

/-- Take over what the nodes of a section say. -/
def applyAll (tree : Section) (command : Command) : CommandReading :=
  (tree.convertToEntries 0 ":").nodes.foldl apply { command }

/-- A command without a body. -/
def missingBody (line : Nat) (command : Command) : Failure :=
  .config line s!"Required entry 'trigger' is missing in command /{command.name}"

end CommandReading

end ScriptBinding
