import ScriptBinding.Context

/-! # Event sections

The header of the section may start with `on` and end with a priority; the filter sees what is
between them. The body is read at once, but its trigger waits until the script is finished.
-/

namespace ScriptBinding

/-- The section of an event. -/
structure EventStructure where
  /-- The ticket of the trigger. -/
  ticket : Nat
  /-- The filter, until it is given a header. -/
  unused : Option EventFilter
  /-- The filter that has taken its header. -/
  filter : Option EventFilter := none
  /-- The priority that the header gives. -/
  priority : Option EventPriority := none

namespace EventStructure

/-- The word that a header may start with. -/
def onWord : List Char := ['o', 'n', ' ']

/-- The words before a priority. -/
def priorityWords : List Char := " with priority ".toList

/-- Drop the word that a header may start with. -/
def stripOn (header : List Char) : List Char :=
  if (header.take onWord.length).map Text.asciiLower = onWord then
    (header.drop onWord.length).dropWhile Text.isBlank
  else header

/-- Cut the priority from the end of a header, behind the last occurrence of the words for it. -/
def cutPriority? (header : List Char) : Option (List Char × List Char) :=
  (Text.cutLast? priorityWords (header.map Text.asciiLower)).map fun sides =>
    (Text.trimEndChars (header.take sides.1.length),
      Text.trimChars (header.drop (sides.1.length + priorityWords.length)))

/-- The priority that a header gives, if any, and the header without it. -/
def readPriority (filter : EventFilter) (line : Nat) (header : List Char) :
    Except Failure (Option EventPriority × List Char) :=
  match cutPriority? header with
  | none => .ok (none, header)
  | some (rest, written) =>
    if filter.registersItself || !filter.takesPriority then
      .error (.parse line "This event doesn't support event priority")
    else
      match EventPriority.read? (String.ofList written) with
      | some priority => .ok (some priority, rest)
      | none => .error (.fatal (EventPriority.unknownMessage (String.ofList written)))

/-- The event of the body. -/
def bodyEvent (info : EventInfo) : CurrentEvent :=
  ⟨Text.lower info.name, info.classes⟩

/-- Read the body and let its trigger wait. -/
def buffer (info : EventInfo) (filter : EventFilter) (body : Section) (event : EventStructure)
    (workspace : Workspace) : Except Failure Bool × Workspace :=
  match workspace.reading (bodyEvent info) (·.readBody body) with
  | (.error failure, after) => (.error failure, after)
  | (.ok items, after) =>
    let after := after.inContext fun context =>
      (context.addDraft ⟨event.ticket, info, filter, body.line, items, event.priority⟩).updateInfo
        fun info => { info with triggers := info.triggers + 1 }
    match after.context.script with
    | some script =>
      (.ok true, after.inHost (·.note (filter.notes fun custom => custom.onRead script)))
    | none => (.ok true, after)

/-- Give the filter its header, and if it takes it read the body. -/
def start (info : EventInfo) (filter : EventFilter) (header : MatchResult) (body : Section)
    (event : EventStructure) (workspace : Workspace) :
    Except Failure Bool × EventStructure × Workspace :=
  let (taken, filter, notes) := filter.start header
  let workspace := workspace.inHost (·.note notes)
  if taken then
    let event := { event with filter := some filter }
    if filter.loads then
      let (result, after) := buffer info filter body event workspace
      (result, event, after)
    else (.ok true, event, workspace)
  else (.ok false, event, workspace)

/-- Take the filter, which can be used only once, and the priority of the header. -/
def initWith (info : EventInfo) (header : MatchResult) (body : Section) (event : EventStructure)
    (workspace : Workspace) : Except Failure Bool × EventStructure × Workspace :=
  match event.unused with
  | none => (.error (.fatal "Event structure initialised twice"), event, workspace)
  | some filter =>
    let event := { event with unused := none }
    let written := stripOn (Text.trimChars header.expr.toList)
    match readPriority filter body.line written with
    | .error failure => (.error failure, event, workspace)
    | .ok (priority, rest) =>
      start info filter { header with expr := String.ofList rest } body
        { event with priority := priority.or event.priority } workspace

/-- Take the header and read the body, under the descriptor that is in hand. -/
def init (header : MatchResult) (body : Section) (event : EventStructure)
    (workspace : Workspace) : Except Failure Bool × EventStructure × Workspace :=
  let inHand := workspace.context.sectionInHand.getD {}
  let workspace := workspace.inContext ({ · with sectionInHand := some inHand })
  match inHand.info with
  | none =>
    (.error (.fatal "Event structure initialised without a descriptor"), event, workspace)
  | some descriptor =>
    match descriptor.event with
    | none => (.error (.fatal s!"'{descriptor.id}' is not an event descriptor"), event, workspace)
    | some info => initWith info header body event workspace

/-- Take the trigger back. -/
def unload (thread : Thread) (event : EventStructure) (workspace : Workspace) : Workspace :=
  workspace.submit thread (.unbind event.ticket)

/-- What the structure is called in descriptions. -/
def describe (event : EventStructure) : String :=
  match event.filter with
  | some filter => s!"on {filter.describe}"
  | none => "event"

end EventStructure

end ScriptBinding
