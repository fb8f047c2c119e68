import ScriptBinding.AliasTable
import ScriptBinding.Host
import ScriptBinding.Item.Reading
import ScriptBinding.Structure.Phase

/-! # Parser contexts

A context is the state of a parser that belongs to the script it is reading: its options, its
aliases, its commands, and the triggers that wait for it to be finished. Moving on to another
script, or to none, hands the waiting triggers to the host and empties everything else.
-/

namespace ScriptBinding

/-- The event that a body is read for. -/
structure CurrentEvent where
  name : String
  classes : List EventClass
deriving DecidableEq, Repr

/-- What a script amounts to. -/
structure ScriptInfo where
  structures : Nat := 0
  triggers : Nat := 0
  functions : Nat := 0
  commands : Nat := 0
  commandNames : List String := []
deriving DecidableEq, Repr

/-- What a descriptor of structures says about itself. -/
structure StructureInfo where
  id : String
  /-- Structures with an order are preloaded, the lowest first. -/
  order : Option Int
  patterns : List Pattern
  /-- The event whose sections the descriptor describes. -/
  event : Option EventInfo

/-- The section that is being handled, and the descriptor it is handled under. -/
structure SectionInHand where
  body : Option Section := none
  info : Option StructureInfo := none

/-- A part of a context. Parts are built when they are first used, or up front. -/
inductive ContextPart where
  | sectionInHand
  | options
  | aliases
  | commands
  | drafts
  | passages
deriving DecidableEq, Repr

/-- The parts that are built up front for scripts. -/
def ContextPart.standard : List ContextPart :=
  [sectionInHand, options, aliases, commands, drafts]

/-- Parts, with one more that was not among them. -/
def ContextPart.register (part : ContextPart) (parts : List ContextPart) : List ContextPart :=
  if part ∈ parts then parts else parts ++ [part]

/-- The state of a parser. -/
structure Context where
  script : Option Script := none
  sectionInHand : Option SectionInHand := none
  options : Option Options := none
  /-- The aliases of the script; the table itself is made when it is first used. -/
  aliases : Option (Option AliasTable) := none
  /-- The names of the commands the script has declared. -/
  commands : Option (List String) := none
  /-- The triggers that wait for the script to be finished. -/
  drafts : Option (List TriggerDraft) := none
  /-- The scripts the context has passed from and to, by their names. -/
  passages : Option (List (Option String × Option String)) := none
  /-- The events that bodies are being read for, the innermost first. -/
  events : List CurrentEvent := []
  info : ScriptInfo := {}
  diagnostics : List Diagnostic := []
  /-- The calls of structures, in the order in which they were made. -/
  calls : List PhaseCall := []

namespace Context

/-- Build one part. -/
def build (context : Context) : ContextPart → Context
  | .sectionInHand => { context with sectionInHand := some {} }
  | .options => { context with options := some .empty }
  | .aliases => { context with aliases := some none }
  | .commands => { context with commands := some [] }
  | .drafts => { context with drafts := some [] }
  | .passages => { context with passages := some [] }

/-- A context with some parts built up front. -/
def withParts (parts : List ContextPart) : Context :=
  parts.foldl build {}

/-! ## Current events -/

/-- The event that the innermost body is read for. -/
def currentEvent? (context : Context) : Option CurrentEvent :=
  context.events.head?

/-- The innermost body is read for an event of this name, ASCII case aside. -/
def isReading (context : Context) (name : String) : Bool :=
  context.currentEvent?.any fun event => Text.equalIgnoringAsciiCase event.name name

/-- Start to read a body for an event. -/
def pushEvent (event : CurrentEvent) (context : Context) : Context :=
  { context with events := event :: context.events }

/-- End the innermost body. -/
def popEvent (context : Context) : Context :=
  { context with events := context.events.drop 1 }

/-- End bodies until no more than so many are left. -/
def restoreEvents (depth : Nat) (context : Context) : Context :=
  { context with events := context.events.drop (context.events.length - depth) }

/-! ## Parts -/

/-- Put a section and its descriptor in hand. -/
def takeInHand (body : Option Section) (info : Option StructureInfo) (context : Context) :
    Context :=
  { context with sectionInHand := some ⟨body, info⟩ }

/-- The options of the script. -/
def currentOptions (context : Context) : Options :=
  context.options.getD .empty

/-- Lay options over those of the script. -/
def putOptions (options : Options) (context : Context) : Context :=
  { context with options := some (context.currentOptions.insertAll options.entries) }

/-- The aliases of the script. -/
def currentAliases (context : Context) : AliasTable :=
  (context.aliases.getD none).getD .empty

/-- Load lines into the aliases of the script. -/
def loadAliases (nodes : List Node) (context : Context) : Context × List Failure :=
  let (table, failures) := context.currentAliases.load nodes
  ({ context with aliases := some (some table) }, failures)

/-- The commands the script has declared. -/
def currentCommands (context : Context) : List String :=
  context.commands.getD []

/-- Take note of a command the script has declared. -/
def declareCommand (name : String) (context : Context) : Context :=
  let names := context.currentCommands
  { context with commands := some (if names.contains name then names else names ++ [name]) }

/-- The triggers that wait for the script to be finished. -/
def currentDrafts (context : Context) : List TriggerDraft :=
  context.drafts.getD []

/-- Let a trigger wait for the script to be finished. -/
def addDraft (draft : TriggerDraft) (context : Context) : Context :=
  { context with drafts := some (context.currentDrafts ++ [draft]) }

/-- Change what the script amounts to. -/
def updateInfo (change : ScriptInfo → ScriptInfo) (context : Context) : Context :=
  { context with info := change context.info }

/-- Take note of a call of a structure. -/
def noteCall (call : PhaseCall) (context : Context) : Context :=
  { context with calls := context.calls ++ [call] }

/-- Record a failure, with the log entry for it. -/
def record (failure : Failure) (line : Option Nat) (context : Context) : Context × LogEntry :=
  let script := context.script.map Script.name
  let place := match script, line with
    | some name, some line => s!" ({name}, line {line})"
    | some name, none => s!" ({name})"
    | none, _ => ""
  ({ context with
      diagnostics := context.diagnostics ++ [⟨failure.kind, failure.text, script, line⟩] },
    ⟨.error, failure.message ++ place⟩)

/-- The context once it has moved on to another script, or to none. -/
def moved (script : Option Script) (context : Context) : Context :=
  let passage := (context.script.map Script.name, script.map Script.name)
  { script
    sectionInHand := context.sectionInHand.map fun _ => {}
    options := context.options.map fun _ => .empty
    aliases := context.aliases.map fun _ => none
    commands := context.commands.map fun _ => []
    drafts := context.drafts.map fun _ => []
    passages := context.passages.map (· ++ [passage])
    events := context.events
    info := {}
    diagnostics := context.diagnostics
    calls := context.calls }

end Context

/-- A context and the host its scripts are bound to. -/
structure Workspace where
  host : Host := {}
  context : Context := {}

namespace Workspace

/-- Change the context. -/
def inContext (change : Context → Context) (workspace : Workspace) : Workspace :=
  { workspace with context := change workspace.context }

/-- Change the host. -/
def inHost (change : Host → Host) (workspace : Workspace) : Workspace :=
  { workspace with host := change workspace.host }

/-- Submit a job to the main thread. -/
def submit (thread : Thread) (job : Job) (workspace : Workspace) : Workspace :=
  workspace.inHost (·.submit thread job)

/-! ## Reports -/

/-- Record a failure with the given line, in the context and in the log. -/
def record (failure : Failure) (line : Option Nat) (workspace : Workspace) : Workspace :=
  let (context, entry) := workspace.context.record failure line
  { workspace with context, host := workspace.host.write [entry] }

/-- Report a failure. -/
def report (failure : Failure) (workspace : Workspace) : Workspace :=
  workspace.record failure failure.line?

/-- Report failures one after the other. -/
def reportAll (failures : List Failure) (workspace : Workspace) : Workspace :=
  failures.foldl (fun workspace failure => workspace.report failure) workspace

/-- Report a failure that came up at a line. -/
def reportAt (line : Nat) (failure : Failure) (workspace : Workspace) : Workspace :=
  let placed := failure.atLine line
  workspace.record placed (placed.line?.or (if line = 0 then none else some line))

/-! ## Scripts -/

/-- Hand the waiting triggers to the host. Without a script they are dropped. -/
def flush (thread : Thread) (workspace : Workspace) : Workspace :=
  let drafts := workspace.context.currentDrafts
  if drafts.isEmpty then workspace
  else
    match workspace.context.script with
    | some script => workspace.submit thread (.bind script drafts)
    | none =>
      workspace.inHost (·.write
        [⟨.error, s!"Dropping {drafts.length} event(s) parsed outside of a script"⟩])

/-- Move on to a script, or to none. The script that is current already stays as it is. -/
def setScript (thread : Thread) (script : Option Script) (workspace : Workspace) : Workspace :=
  if Script.sameCurrent workspace.context.script script then workspace
  else (workspace.flush thread).inContext (·.moved script)

/-! ## Bodies -/

/-- What the bodies of the script can refer to. -/
def bodyScope (workspace : Workspace) : BodyScope where
  options := workspace.context.currentOptions
  signature? := workspace.host.functions.signature?
  inFunction := workspace.context.isReading "function"

/-- Read the body of a section, and report what is wrong with its lines. -/
def readBody (body : Section) (workspace : Workspace) : Except Failure (List Item) × Workspace :=
  let (result, failures) := Item.readBody workspace.bodyScope body
  (result, workspace.reportAll failures)

/-- Do something while bodies are read for an event. -/
def reading {α : Type} (event : CurrentEvent) (act : Workspace → α × Workspace)
    (workspace : Workspace) : α × Workspace :=
  let depth := workspace.context.events.length
  let (result, after) := act (workspace.inContext (·.pushEvent event))
  (result, after.inContext (·.restoreEvents depth))

end Workspace

end ScriptBinding
