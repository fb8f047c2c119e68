import ScriptBinding.Config.Loading
import ScriptBinding.Session
import ScriptBinding.Text.Terminal

/-! # The program

The program loads the scripts of a folder onto a host, which it then describes. It is run here on a
view of the files, and answers with what it writes.
-/

namespace ScriptBinding.Program

/-- What a run of the program has written, and how it ended. -/
structure Report where
  /-- The log, without entries that are not urgent enough to be shown. -/
  log : List LogEntry := []
  /-- The lines of the error that ended the run. -/
  errorLines : List String := []
deriving DecidableEq

/-- The code that the program ends with. -/
def Report.exitCode (report : Report) : Nat :=
  if report.errorLines.isEmpty then 0 else 1

/-- What lies behind an error, from the outside in. -/
def causes : LoadError → List String
  | .unreadable problem => [(LoadError.unreadable problem).message, problem.message]
  | error => [error.message]

/-- A cause, indented, and numbered when there are several. -/
def causeLine (number : Option Nat) (text : String) : String :=
  match number with
  | none => "    " ++ text
  | some number => s!"    {number}: {text}"

/-- The lines for an error. -/
def errorLines : List String → List String
  | [] => []
  | first :: [] => ["Error: " ++ first]
  | first :: [cause] => ["Error: " ++ first, "", "Caused by:", causeLine none cause]
  | first :: others =>
    ["Error: " ++ first, "", "Caused by:"] ++
      others.zipIdx.map fun cause => causeLine (some cause.2) cause.1

/-- The folder of the scripts. -/
def scriptsFolder (config : Config) (root : Path) : Path :=
  root.join config.scriptsFolder

/-- Load the scripts at once. -/
def loadDirectly (folder : Path) (tree : Option FileTree) (session : Session) :
    Except LoadError (List LoadedScript) × Session :=
  session.loadFolder .main folder tree

/-- Load the scripts on a worker, and then do on the main thread what belongs there. -/
def loadOnWorker (folder : Path) (tree : Option FileTree) (session : Session) :
    Except LoadError (List LoadedScript) × Session :=
  match Session.collectSources session.workspace.host.config folder tree with
  | .error error => (.error error, session)
  | .ok (sources, entries) =>
    let started : LogEntry :=
      ⟨.info, s!"Loading {sources.length} script(s) from {folder.raw} on a worker"⟩
    let (scripts, session) := (session.write (entries ++ [started])).loadOnWorker sources
    let ((count, scripts), session) := session.runPending .main scripts
    (.ok scripts, session.write [⟨.info, s!"Applied {count} queued registration(s)"⟩])

/-- The entries of the log that describe a host. -/
def describeHost (host : Host) : List LogEntry :=
  let bound := host.bus.subscriptions.length + host.bus.selfRegistered.length
  let names := host.commands.names
  ⟨.info, s!"Host ready: {bound} event subscription(s), {names.length} command(s), " ++
    s!"{host.functions.bodies.size} function(s)"⟩ ::
  names.map fun name => ⟨.info, s!"    /{name}"⟩

/-- The entries of the log at the end of a run. -/
def conclude (scripts : List LoadedScript) (host : Host) : List LogEntry :=
  let warning : List LogEntry :=
    if (LoadSummary.ofScripts scripts).errors = 0 then []
    else [⟨.warn, "Some scripts did not load cleanly"⟩]
  warning ++ describeHost host

/-- Run the program with settings that have been read. -/
def runWith (config : Config) (root : Path) (view : Path → Option FileTree) : Report :=
  let opening : List LogEntry := ⟨.info, "Skript host starting up..."⟩ :: config.summary
  let folder := scriptsFolder config root
  let session := Session.start .standard ContextPart.standard { config, log := opening }
  let load := if config.asyncLoading then loadOnWorker else loadDirectly
  let (result, session) := load folder (view folder) session
  let host := session.workspace.host
  let shown (entries : List LogEntry) : List LogEntry :=
    (entries.filter fun entry => config.verbosity.shows entry.level).map fun entry =>
      { entry with text := Text.onTerminal entry.text }
  match result with
  | .error error => ⟨shown host.log, errorLines (causes error)⟩
  | .ok scripts => ⟨shown (host.log ++ conclude scripts host), []⟩

/-- Run the program in a folder, given what stands at any path. -/
def run (root : Path) (view : Path → Option FileTree) : Report :=
  match (Config.loadIn root view).1 with
  | .error error => ⟨[], errorLines ("Failed to load config.sk" :: causes error)⟩
  | .ok config => runWith config root view

end ScriptBinding.Program
