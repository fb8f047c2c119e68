import ScriptBinding.Context

/-! # Structures from outside

A structure goes through phases. One that is supplied from outside looks at what it is given in
each, leaves notes and reports, and says how the phase went; it may also crash.
-/

namespace ScriptBinding

/-- How a phase went. -/
inductive Outcome (α : Type) where
  | done (value : α)
  | failed (failure : Failure)
  /-- It crashed, perhaps with a message. -/
  | crashed (message : Option String)

namespace Outcome

variable {α : Type}

/-- A result that may be a failure, as an outcome. -/
def ofExcept : Except Failure α → Outcome α
  | .ok value => done value
  | .error failure => failed failure

/-- The outcome with a crash of the named activity turned into a failure. -/
def guarded (activity : String) : Outcome α → Except Failure α
  | done value => .ok value
  | failed failure => .error failure
  | crashed message =>
    let shown := message.getD "unknown panic"
    .error (.fatal s!"{activity} panicked: {shown}")

/-- Apply a function to the value. -/
def map {β : Type} (f : α → β) : Outcome α → Outcome β
  | done value => done (f value)
  | failed failure => failed failure
  | crashed message => crashed message

end Outcome

/-- A header that has been matched, and the section below it. -/
structure Heading where
  header : MatchResult
  body : Section

/-- What a structure from outside answers. The value counts when it takes its header: false rejects
it. -/
structure Reply where
  notes : List String := []
  reports : List Failure := []
  outcome : Outcome Bool := .done true

/-- The behaviour of a structure that is supplied from outside. It may depend on the heading, once
the structure has been given it. -/
structure CustomBehaviour where
  respond : Phase → Option Heading → Workspace → Reply
  priority : Option Heading → Int
  describe : Option Heading → String

/-- A structure that is supplied from outside. -/
structure CustomStructure where
  behaviour : CustomBehaviour
  heading : Option Heading := none

namespace CustomStructure

/-- Go through a phase. -/
def respond (phase : Phase) (custom : CustomStructure) (workspace : Workspace) :
    Outcome Bool × Workspace :=
  let reply := custom.behaviour.respond phase custom.heading workspace
  (reply.outcome, (workspace.inHost (·.note reply.notes)).reportAll reply.reports)

/-- Take the header and the section. -/
def init (header : MatchResult) (body : Section) (custom : CustomStructure)
    (workspace : Workspace) : Outcome Bool × CustomStructure × Workspace :=
  let custom := { custom with heading := some ⟨header, body⟩ }
  let (outcome, after) := custom.respond .init workspace
  (outcome, custom, after)

end CustomStructure

end ScriptBinding
