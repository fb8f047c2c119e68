import ScriptBinding.FileTree
import ScriptBinding.Loader

/-! # Sessions

A session loads, unloads and reloads scripts on one context and one host. Every load has a
generation of its own.
-/

namespace ScriptBinding

/-- A loader at work on a host. -/
structure Session where
  registry : Registry := .standard
  /-- The parts that new contexts have. -/
  parts : List ContextPart := ContextPart.standard
  generations : GenerationCounter := {}
  workspace : Workspace := {}

/-- What scripts amount to together. -/
structure LoadSummary where
  scripts : Nat := 0
  structures : Nat := 0
  triggers : Nat := 0
  commands : Nat := 0
  functions : Nat := 0
  errors : Nat := 0
deriving DecidableEq, Repr

namespace LoadSummary

/-- Add a script. -/
def add (summary : LoadSummary) (loaded : LoadedScript) : LoadSummary where
  scripts := summary.scripts + 1
  structures := summary.structures + loaded.loadedCount
  triggers := summary.triggers + loaded.info.triggers
  commands := summary.commands + loaded.info.commands
  functions := summary.functions + loaded.info.functions
  errors := summary.errors + loaded.errors

/-- What scripts amount to together. -/
def ofScripts (scripts : List LoadedScript) : LoadSummary :=
  scripts.foldl add {}

/-- The entries of the log for a summary. -/
def entries (summary : LoadSummary) : List LogEntry :=
  let totals : LogEntry := ⟨.info,
    s!"Loaded {summary.scripts} script(s): {summary.structures} structure(s), " ++
    s!"{summary.triggers} trigger(s), {summary.commands} command(s), " ++
    s!"{summary.functions} function(s)"⟩
  if summary.errors = 0 then [totals]
  else [totals, ⟨.warn, s!"{summary.errors} error(s) while loading scripts"⟩]

end LoadSummary

namespace Session

/-- A session on a host, with a new context. -/
def start (registry : Registry) (parts : List ContextPart) (host : Host) : Session :=
  { registry, parts, workspace := ⟨host, .withParts parts⟩ }

/-- Change the workspace. -/
def inWorkspace (change : Workspace → Workspace) (session : Session) : Session :=
  { session with workspace := change session.workspace }

/-- Write entries to the log. -/
def write (entries : List LogEntry) (session : Session) : Session :=
  session.inWorkspace (·.inHost (·.write entries))

/-- Move on to a script, or to none. -/
def setScript (thread : Thread) (script : Option Script) (session : Session) : Session :=
  session.inWorkspace (·.setScript thread script)

/-- Load a script, which stays current. -/
def load (thread : Thread) (source : ScriptSource) (session : Session) :
    LoadedScript × Session :=
  let (generation, generations) := session.generations.take
  let (loaded, workspace) :=
    Loading.loadScript session.registry thread ⟨source.path, generation⟩ source session.workspace
  (loaded, { session with generations, workspace })

/-- Load scripts one after the other; the last one stays current. -/
def loadEach (thread : Thread) : List ScriptSource → Session → List LoadedScript × Session
  | [], session => ([], session)
  | source :: others, session =>
    let (loaded, session) := session.load thread source
    let (rest, session) := loadEach thread others session
    (loaded :: rest, session)

/-- Load scripts one after the other, and finish the last one. -/
def loadAll (thread : Thread) (sources : List ScriptSource) (session : Session) :
    List LoadedScript × Session :=
  let (scripts, session) := session.loadEach thread sources
  (scripts, (session.setScript thread none).write (LoadSummary.ofScripts scripts).entries)

/-- Load scripts on a worker, with a new context that takes the place of the old one. -/
def loadOnWorker (sources : List ScriptSource) (session : Session) :
    List LoadedScript × Session :=
  (session.inWorkspace ({ · with context := .withParts session.parts })).loadAll .worker sources

/-- Settle scripts, and count the structures that the host has refused. -/
def settle (thread : Thread) (scripts : List LoadedScript) (session : Session) :
    (List LoadedScript × Nat) × Session :=
  let (result, workspace) := Loading.settleScripts thread scripts session.workspace
  (result, { session with workspace })

/-- Do the jobs that wait for the main thread, and settle scripts: the number of jobs and the
scripts. -/
def runPending (thread : Thread) (scripts : List LoadedScript) (session : Session) :
    (Nat × List LoadedScript) × Session :=
  let (count, host) := session.workspace.host.runPending thread
  let session := session.inWorkspace ({ · with host })
  let ((settled, refused), session) := session.settle thread scripts
  let entries : List LogEntry :=
    if refused = 0 then [] else [⟨.warn, s!"The host rejected {refused} queued registration(s)"⟩]
  ((count, settled), session.write entries)

/-- Unload a script. -/
def unload (thread : Thread) (loaded : LoadedScript) (session : Session) :
    LoadedScript × Session :=
  let (unloaded, workspace) := Loading.unloadScript thread loaded session.workspace
  (unloaded, { session with workspace })

/-- Unload a script and load its source again. -/
def reload (thread : Thread) (loaded : LoadedScript) (source : ScriptSource) (session : Session) :
    LoadedScript × Session :=
  let (reloaded, session) := (session.unload thread loaded).2.load thread source
  (reloaded, session.setScript thread none)

/-! ## Folders -/

/-- Read a script from its file, with the warnings that leaves. -/
def readSource (path : Path) (text : Option String) :
    Except LoadError ScriptSource × List LogEntry :=
  match FileTree.readText (some (.file text)) with
  | .error error => (.error error, [])
  | .ok text => ScriptSource.ofText path text

/-- Read scripts, and note those that cannot be read. -/
def readSources : List (Path × Option String) → List ScriptSource × List LogEntry
  | [] => ([], [])
  | (path, text) :: others =>
    let (sources, entries) := readSources others
    match readSource path text with
    | (.ok source, warnings) => (source :: sources, warnings ++ entries)
    | (.error error, warnings) =>
      (sources, warnings ++ ⟨.error, s!"Skipping {path.raw}: {error.message}"⟩ :: entries)

/-- The scripts of a folder, in the order of their paths, and notes on those that cannot be read. -/
def collectSources (config : Config) (path : Path) (tree : Option FileTree) :
    Except LoadError (List ScriptSource × List LogEntry) :=
  match tree with
  | some (.folder entries) =>
    let files := (FileTree.folder entries).scripts config path
    .ok (readSources (files.mergeSort fun a b => !b.1.precedes a.1))
  | _ => .error (.notFound s!"Scripts folder {path.raw}")

/-- Load the scripts of a folder. -/
def loadFolder (thread : Thread) (path : Path) (tree : Option FileTree) (session : Session) :
    Except LoadError (List LoadedScript) × Session :=
  match collectSources session.workspace.host.config path tree with
  | .error error => (.error error, session)
  | .ok (sources, entries) =>
    let started : LogEntry :=
      ⟨.info, s!"Loading {sources.length} script(s) from {path.raw}"⟩
    let (scripts, session) := (session.write (entries ++ [started])).loadAll thread sources
    (.ok scripts, session)

end Session

end ScriptBinding
