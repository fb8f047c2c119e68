import ScriptBinding.Failure
import ScriptBinding.Node.Entries
import ScriptBinding.Node.Parser
import ScriptBinding.Number.Integer
import ScriptBinding.Path
import ScriptBinding.Priority

/-! # Settings

The settings of the loader are the entries of a tree. An entry whose value cannot be read falls back
and leaves a warning; a key that is not known is passed over.
-/

namespace ScriptBinding

/-- How much is written to the log. -/
inductive Verbosity where
  | low
  | normal
  | high
  | veryHigh
  | debug
deriving DecidableEq, Repr, Inhabited

namespace Verbosity

/-- The verbosity a text asks for, whatever its case and the spaces in it. -/
def read? (text : String) : Option Verbosity :=
  let word := String.ofList ((Text.lower text).toList.filter (· != ' '))
  if word = "low" then some low
  else if word = "normal" then some normal
  else if word = "high" then some high
  else if word = "veryhigh" then some veryHigh
  else if word = "debug" then some debug
  else none

/-- The name of a verbosity. -/
def name : Verbosity → String
  | low => "Low"
  | normal => "Normal"
  | high => "High"
  | veryHigh => "VeryHigh"
  | debug => "Debug"

/-- The name of the least urgent level that is shown. -/
def threshold : Verbosity → String
  | low => "warn"
  | normal => "info"
  | high | veryHigh => "debug"
  | debug => "trace"

/-- An entry of the level is shown. -/
def shows (verbosity : Verbosity) (level : Level) : Bool :=
  verbosity != low || level != .info

end Verbosity

/-- The settings of the loader. -/
structure Config where
  /-- The priority of triggers that do not name one. -/
  defaultPriority : EventPriority := .normal
  /-- Load scripts on a worker. -/
  asyncLoading : Bool := false
  /-- Where the scripts are. -/
  scriptsFolder : Path := ⟨"scripts"⟩
  /-- The extension of script files, without its dot. -/
  scriptExtension : String := "sk"
  /-- Files and folders whose names start with this text are left out, unless it is empty. -/
  disabledLead : String := "-"
  /-- How deep calls may be nested. -/
  maxCallDepth : Nat := 256
  verbosity : Verbosity := .normal
deriving DecidableEq, Repr

namespace Config

/-- One of the settings. -/
inductive Field where
  | defaultPriority
  | asyncLoading
  | scriptsFolder
  | scriptExtension
  | disabledLead
  | maxCallDepth
  | verbosity
deriving DecidableEq, Repr

/-- The key a setting is written under. -/
def Field.key : Field → String
  | defaultPriority => "default event priority"
  | asyncLoading => "asynchronous script loading"
  | scriptsFolder => "scripts folder"
  | scriptExtension => "script file extension"
  | disabledLead => "disabled script prefix"
  | maxCallDepth => "max function call depth"
  | verbosity => "verbosity"

/-- Every setting. -/
def Field.all : List Field :=
  [defaultPriority, asyncLoading, scriptsFolder, scriptExtension, disabledLead, maxCallDepth,
    verbosity]

/-- The setting a key stands for, whatever its case. -/
def Field.ofKey? (key : String) : Option Field :=
  Field.all.find? fun field => field.key == Text.lower key

/-- The truth value a word stands for, whatever its case. -/
def readBool? (text : String) : Option Bool :=
  let word := Text.lower text
  if word = "true" || word = "yes" || word = "on" then some true
  else if word = "false" || word = "no" || word = "off" then some false
  else none

/-- The number of nested calls a text asks for, which is below two to the power of 64. -/
def readDepth? (text : String) : Option Nat :=
  Number.readNat? (Nat.pow 2 64) text.toList

/-- Give a setting the value a text stands for; a text that cannot be read leaves a warning. -/
def set (field : Field) (value : String) (config : Config) : Config × List LogEntry :=
  match field with
  | .defaultPriority =>
    match EventPriority.read? value with
    | some priority => ({ config with defaultPriority := priority }, [])
    | none =>
      (config, [⟨.warn, s!"{EventPriority.unknownMessage value}, keeping " ++
        config.defaultPriority.name⟩])
  | .asyncLoading =>
    match readBool? value with
    | some flag => ({ config with asyncLoading := flag }, [])
    | none =>
      ({ config with asyncLoading := false },
        [⟨.warn, s!"Invalid boolean '{value}' for asynchronous script loading"⟩])
  | .scriptsFolder => ({ config with scriptsFolder := ⟨value⟩ }, [])
  | .scriptExtension => ({ config with scriptExtension := Text.dropLeading '.' value }, [])
  | .disabledLead => ({ config with disabledLead := value }, [])
  | .maxCallDepth =>
    match readDepth? value with
    | some depth => ({ config with maxCallDepth := depth }, [])
    | none =>
      ({ config with maxCallDepth := 256 },
        [⟨.warn, s!"Invalid number '{value}' for max function call depth"⟩])
  | .verbosity =>
    match Verbosity.read? value with
    | some verbosity => ({ config with verbosity := verbosity }, [])
    | none => ({ config with verbosity := .normal }, [⟨.warn, s!"Unknown verbosity '{value}'"⟩])

/-- Take over what one node of the settings file says. -/
def apply (name : String) (node : Node) (config : Config) : Config × List LogEntry :=
  match node with
  | .entry key value _ =>
    match Field.ofKey? key with
    | some field => config.set field value
    | none => (config, [])
  | other =>
    (config, [⟨.warn, s!"Ignoring line {other.line} of {name}: not a 'key: value' entry"⟩])

/-- Take over what the nodes of the settings file say, one after the other. -/
def applyAll (name : String) : List Node → Config → Config × List LogEntry
  | [], config => (config, [])
  | node :: others, config =>
    let first := config.apply name node
    let last := applyAll name others first.1
    (last.1, first.2 ++ last.2)

/-- Read the settings from the text of a file with the given name. -/
def parse (name text : String) : Except LoadError Config × List LogEntry :=
  match Section.parse name text with
  | .error problem => (.error (.config problem.message), Section.warnings text)
  | .ok root =>
    let read := applyAll name (root.convertToEntries (-1) ":").nodes {}
    (.ok read.1, Section.warnings text ++ read.2)

/-- The name is that of a file or folder that is left out. -/
def disables (config : Config) (name : String) : Bool :=
  config.disabledLead != "" && Text.startsWith config.disabledLead name

/-- The file is a script that is not left out. -/
def isScriptFile (config : Config) (path : Path) : Bool :=
  match path.fileName?, path.extension? with
  | some name, some extension =>
    Text.equalIgnoringAsciiCase extension config.scriptExtension && !config.disables name
  | _, _ => false

/-- The settings as the log shows them. -/
def summary (config : Config) : List LogEntry :=
  [⟨.info, "Script loader configuration:"⟩,
    ⟨.info, s!"    Default event priority: {config.defaultPriority.name}"⟩,
    ⟨.info, s!"    Asynchronous loading: {config.asyncLoading}"⟩,
    ⟨.info, s!"    Scripts folder: {config.scriptsFolder.raw}"⟩,
    ⟨.info, s!"    Script extension: .{config.scriptExtension}"⟩,
    ⟨.info, s!"    Disabled prefix: '{config.disabledLead}'"⟩,
    ⟨.info, s!"    Max function call depth: {config.maxCallDepth}"⟩,
    ⟨.info, s!"    Verbosity: {config.verbosity.name}"⟩]

end Config

end ScriptBinding
