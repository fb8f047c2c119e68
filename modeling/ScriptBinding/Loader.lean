import ScriptBinding.Node.Parser
import ScriptBinding.StandardRegistry

/-! # Loading scripts

The sections of a script are given to descriptors: first each preloading descriptor takes the
sections it matches, and then each section that is left goes to the first of the other descriptors
that matches it. The structures take their headers in that order, the preloading ones being
preloaded at once. Then all of them are loaded by priority, and of equal ones by their place in
the text.
-/

namespace ScriptBinding

/-- A script that has been read as a tree. -/
structure ScriptSource where
  path : Path
  tree : Section

/-- The script of a file with the given text, and the warnings that reading it leaves. -/
def ScriptSource.ofText (path : Path) (text : String) :
    Except LoadError ScriptSource × List LogEntry :=
  let source := match Section.parse path.raw text with
    | .ok tree => .ok ⟨path, tree⟩
    | .error error => .error (.invalidData s!"{path.raw}: {error.message}")
  (source, Section.warnings text)

/-- A structure that has taken its header. -/
structure LoadedStructure where
  inner : Structure
  /-- The header of its section. -/
  key : String
  line : Nat
  /-- The place of its section among the nodes of the script. -/
  index : Nat
  priority : Int
  preloaded : Bool := false
  loaded : Bool := false

/-- A script and its structures, in the order in which they were loaded. -/
structure LoadedScript where
  script : Script
  structures : List LoadedStructure
  info : ScriptInfo
  /-- The number of failures that were reported. -/
  errors : Nat

/-- The number of structures that are loaded. -/
def LoadedScript.loadedCount (loaded : LoadedScript) : Nat :=
  (loaded.structures.filter (·.loaded)).length

namespace Loading

/-! ## Giving sections to descriptors -/

/-- A section at the top of a script, and its place among the nodes. -/
structure TopSection where
  index : Nat
  body : Section

/-- A section that a descriptor has taken. -/
structure Assignment where
  descriptor : Descriptor
  header : MatchResult
  top : TopSection

/-- The sections among the nodes of a script, the first of which has the given place. -/
def topSections (index : Nat) : List Node → List TopSection
  | [] => []
  | node :: others =>
    (node.section?.map (⟨index, ·⟩)).toList ++ topSections (index + 1) others

/-- The sections that a descriptor takes, and those that it leaves. -/
def claim (descriptor : Descriptor) : List TopSection → List Assignment × List TopSection
  | [] => ([], [])
  | top :: others =>
    let (taken, left) := claim descriptor others
    match descriptor.match? top.body.key with
    | some header => (⟨descriptor, header, top⟩ :: taken, left)
    | none => (taken, top :: left)

/-- The sections that some descriptors take one after the other, and those that are left. -/
def claimAll : List Descriptor → List TopSection → List Assignment × List TopSection
  | [], sections => ([], sections)
  | descriptor :: others, sections =>
    let (taken, left) := claim descriptor sections
    let (takenLater, rest) := claimAll others left
    (taken ++ takenLater, rest)

/-- The first of some descriptors that takes a section. -/
def assign? (descriptors : List Descriptor) (top : TopSection) : Option Assignment :=
  (Descriptor.first? top.body.key descriptors).map fun found => ⟨found.1, found.2, top⟩

/-! ## Taking headers -/

/-- A node that is not understood. -/
def notUnderstood (line : Nat) (key : String) : Failure :=
  .parse line s!"Can't understand this structure: {key}"

/-- Report the nodes of a script that are no sections. -/
def reportPlain (nodes : List Node) (workspace : Workspace) : Workspace :=
  nodes.foldl
    (fun workspace node =>
      match node with
      | .nested _ _ _ => workspace
      | other => workspace.report (notUnderstood other.line other.key))
    workspace

/-- Let a new structure take its header, with the section and the descriptor in hand. -/
def takeHeader (assignment : Assignment) (workspace : Workspace) :
    Outcome Bool × Structure × Workspace :=
  let body := assignment.top.body
  let (ticket, host) := workspace.host.takeTicket
  let workspace := { workspace with
    host, context := workspace.context.takeInHand body assignment.descriptor.toStructureInfo }
  let (outcome, inner, after) :=
    (assignment.descriptor.create ticket).init assignment.header body workspace
  (outcome, inner, after.inContext (·.takeInHand none none))

/-- Let a new structure take its header. One that does not is reported. -/
def initialise (assignment : Assignment) (workspace : Workspace) :
    Option LoadedStructure × Workspace :=
  let body := assignment.top.body
  let place := assignment.top.index
  let (outcome, inner, after) := takeHeader assignment workspace
  match outcome.guarded body.key with
  | .ok true =>
    (some ⟨inner, body.key, body.line, place, inner.priority, false, false⟩,
      after.inContext (·.noteCall ⟨.init, place, true⟩))
  | .ok false =>
    (none, (after.inContext (·.noteCall ⟨.init, place, false⟩)).report
      (notUnderstood body.line body.key))
  | .error failure =>
    (none, (after.inContext (·.noteCall ⟨.init, place, false⟩)).reportAt body.line failure)

/-! ## Phases -/

/-- What goes on in a phase of a structure. -/
def activity (phase : Phase) (loaded : LoadedStructure) : String :=
  s!"{phase.name} of '{loaded.key}'"

/-- Conclude a phase: whether it succeeded, with a report if it did not. -/
def conclude (phase : Phase) (loaded : LoadedStructure)
    (result : Outcome Unit × Structure × Workspace) : Bool × LoadedStructure × Workspace :=
  let (outcome, inner, after) := result
  let loaded := { loaded with inner }
  match outcome.guarded (activity phase loaded) with
  | .ok () => (true, loaded, after.inContext (·.noteCall ⟨phase, loaded.index, true⟩))
  | .error failure =>
    (false, loaded,
      (after.inContext (·.noteCall ⟨phase, loaded.index, false⟩)).reportAt loaded.line failure)

/-- Preload a structure. -/
def preload (loaded : LoadedStructure) (workspace : Workspace) : LoadedStructure × Workspace :=
  let (_, loaded, after) := conclude .preload loaded (loaded.inner.preload workspace)
  ({ loaded with preloaded := true }, after)

/-- Load a structure, which is preloaded first unless it has been. -/
def load (thread : Thread) (loaded : LoadedStructure) (workspace : Workspace) :
    LoadedStructure × Workspace :=
  let (loaded, workspace) :=
    if loaded.preloaded then (loaded, workspace) else preload loaded workspace
  let (success, loaded, after) := conclude .load loaded (loaded.inner.load thread workspace)
  ({ loaded with loaded := success }, after)

/-- Mend a structure that is loaded. -/
def afterLoad (loaded : LoadedStructure) (workspace : Workspace) : LoadedStructure × Workspace :=
  if loaded.loaded then (conclude .afterLoad loaded (loaded.inner.afterLoad workspace)).2
  else (loaded, workspace)

/-- Unload a structure that is loaded. -/
def unload (thread : Thread) (loaded : LoadedStructure) (workspace : Workspace) :
    LoadedStructure × Workspace :=
  if loaded.loaded then
    let (_, loaded, after) := conclude .unload loaded (loaded.inner.unload thread workspace)
    ({ loaded with loaded := false }, after)
  else (loaded, workspace)

/-- Take structures through a phase one after the other. -/
def each {α β : Type} (act : α → Workspace → β × Workspace) :
    List α → Workspace → List β × Workspace
  | [], workspace => ([], workspace)
  | item :: others, workspace =>
    let (first, after) := act item workspace
    let (rest, final) := each act others after
    (first :: rest, final)

/-- Let a structure take its header, and preload it. -/
def initialisePreloading (assignment : Assignment) (workspace : Workspace) :
    Option LoadedStructure × Workspace :=
  match initialise assignment workspace with
  | (none, after) => (none, after)
  | (some loaded, after) =>
    let (loaded, final) := preload loaded after
    (some loaded, final)

/-- Let a section go to the first descriptor that takes it, or report it. -/
def initialiseNormal (descriptors : List Descriptor) (top : TopSection) (workspace : Workspace) :
    Option LoadedStructure × Workspace :=
  match assign? descriptors top with
  | some assignment => initialise assignment workspace
  | none => (none, workspace.report (notUnderstood top.body.line top.body.key))

/-- A structure that is loaded before another one. -/
def before (a b : LoadedStructure) : Bool :=
  if a.priority = b.priority then a.index ≤ b.index else a.priority < b.priority

/-- Let the sections of a script take their headers: the structures, in the order in which they are
to be loaded. -/
def initialiseAll (registry : Registry) (nodes : List Node) (workspace : Workspace) :
    List LoadedStructure × Workspace :=
  let workspace := reportPlain nodes workspace
  let (assignments, rest) := claimAll registry.preloading (topSections 0 nodes)
  let (preloading, workspace) := each initialisePreloading assignments workspace
  let (normal, workspace) := each (initialiseNormal registry.normal) rest workspace
  ((preloading ++ normal).reduceOption.mergeSort before, workspace)

/-- Load the script that has just become current. -/
def loadCurrent (registry : Registry) (thread : Thread) (script : Script) (nodes : List Node)
    (workspace : Workspace) : LoadedScript × Workspace :=
  let reported := workspace.context.diagnostics.length
  let (structures, workspace) := initialiseAll registry nodes workspace
  let (structures, workspace) := each (load thread) structures workspace
  let (structures, workspace) := each afterLoad structures workspace
  let workspace := workspace.inContext
    (·.updateInfo fun info => { info with structures := structures.length })
  (⟨script, structures, workspace.context.info,
    workspace.context.diagnostics.length - reported⟩, workspace)

/-- Load a script, which becomes current. -/
def loadScript (registry : Registry) (thread : Thread) (script : Script) (source : ScriptSource)
    (workspace : Workspace) : LoadedScript × Workspace :=
  loadCurrent registry thread script source.tree.nodes (workspace.setScript thread (some script))

/-- Unload a script, the last structures first. No script is current afterwards. -/
def unloadScript (thread : Thread) (loaded : LoadedScript) (workspace : Workspace) :
    LoadedScript × Workspace :=
  let workspace := (workspace.setScript thread none).setScript thread (some loaded.script)
  let workspace := (each (unload thread) loaded.structures.reverse workspace).2
  let workspace := (workspace.setScript thread none).inHost fun host =>
    { host with functions := (host.functions.withdrawScript loaded.script).2 }
  ({ loaded with structures := [] }, workspace)

/-! ## Settling -/

/-- What settling the structures of a script has come to. -/
structure Settlement where
  info : ScriptInfo
  /-- The number of structures that the host has refused. -/
  refused : Nat := 0

/-- Settle one structure of a script. One that fails is reported, and is not loaded any more. -/
def settle (thread : Thread) (script : Script) (loaded : LoadedStructure)
    (settlement : Settlement) (workspace : Workspace) :
    LoadedStructure × Settlement × Workspace :=
  if loaded.loaded then
    let (outcome, info, after) := loaded.inner.settle settlement.info workspace
    match outcome.guarded (activity .settle loaded) with
    | .ok () =>
      (loaded, ⟨info, settlement.refused⟩,
        after.inContext (·.noteCall ⟨.settle, loaded.index, true⟩))
    | .error failure =>
      ({ loaded with loaded := false }, ⟨info, settlement.refused + 1⟩,
        ((after.inContext (·.noteCall ⟨.settle, loaded.index, false⟩)).setScript thread
          (some script)).reportAt loaded.line failure)
  else (loaded, settlement, workspace)

/-- Settle the structures of a script one after the other. -/
def settleAll (thread : Thread) (script : Script) :
    List LoadedStructure → Settlement → Workspace → List LoadedStructure × Settlement × Workspace
  | [], settlement, workspace => ([], settlement, workspace)
  | loaded :: others, settlement, workspace =>
    let (first, settlement, after) := settle thread script loaded settlement workspace
    let (rest, settlement, final) := settleAll thread script others settlement after
    (first :: rest, settlement, final)

/-- Settle a script, and count the structures that the host has refused. -/
def settleScript (thread : Thread) (loaded : LoadedScript) (workspace : Workspace) :
    (LoadedScript × Nat) × Workspace :=
  let (structures, settlement, after) :=
    settleAll thread loaded.script loaded.structures ⟨loaded.info, 0⟩ workspace
  (({ loaded with
      structures
      info := settlement.info
      errors := loaded.errors + settlement.refused }, settlement.refused), after)

/-- Settle scripts, and count the structures that the host has refused. No script is current
afterwards. -/
def settleScripts (thread : Thread) (scripts : List LoadedScript) (workspace : Workspace) :
    (List LoadedScript × Nat) × Workspace :=
  let (settled, after) := each (settleScript thread) scripts workspace
  let refused := settled.foldl (fun count script => count + script.2) 0
  ((settled.map Prod.fst, refused), after.setScript thread none)

end Loading

end ScriptBinding
