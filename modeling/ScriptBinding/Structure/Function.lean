import ScriptBinding.Context

/-! # Function sections

The signature of a function is declared before any body of its script is loaded, so that every body
can call it. Its own body is loaded later.
-/

namespace ScriptBinding

/-- The section of a function. -/
structure FunctionStructure where
  /-- The signature as it is written. -/
  header : String := ""
  body : Option Section := none
  /-- The signature that has been declared. -/
  signature : Option Signature := none

namespace FunctionStructure

/-- Take the header and the section. -/
def init (header : MatchResult) (body : Section) (function : FunctionStructure) :
    Except Failure FunctionStructure :=
  match header.raws with
  | written :: _ => .ok { function with header := written, body := some body }
  | [] => .error (.fatal s!"No signature given in '{header.expr}'")

/-- Declare the signature. -/
def preload (function : FunctionStructure) (workspace : Workspace) :
    Except Failure FunctionStructure × Workspace :=
  match workspace.context.script with
  | none => (.error (.fatal "Function preloaded outside of a script"), workspace)
  | some script =>
    let line := (function.body.map Section.line).getD 0
    match Signature.read workspace.host.classes script function.header line with
    | .error failure => (.error failure, workspace)
    | .ok signature =>
      match workspace.host.functions.declare signature with
      | .error failure => (.error failure, workspace)
      | .ok functions =>
        (.ok { function with signature := some signature },
          workspace.inHost ({ · with functions }))

/-- The event of the bodies of functions. -/
def bodyEvent : CurrentEvent := ⟨"function", [.of "function"]⟩

/-- Load the body of a function that has been declared. -/
def loadBody (signature : Signature) (body : Section) (workspace : Workspace) :
    Except Failure Unit × Workspace :=
  match workspace.reading bodyEvent (·.readBody body) with
  | (.error failure, after) => (.error failure, after)
  | (.ok items, after) =>
    match after.host.functions.attach ⟨signature, items⟩ with
    | .error failure => (.error failure, after)
    | .ok functions =>
      (.ok (), (after.inHost ({ · with functions })).inContext
        (·.updateInfo fun info => { info with functions := info.functions + 1 }))

/-- Load the body. -/
def load (function : FunctionStructure) (workspace : Workspace) : Except Failure Unit × Workspace :=
  match function.body with
  | none => (.error (.fatal "Function loaded before init"), workspace)
  | some body =>
    match function.signature with
    | none =>
      (.error (.bind body.line s!"The signature of '{function.header}' was not registered"),
        workspace)
    | some signature => loadBody signature body workspace

/-- Take the declaration back. -/
def unload (function : FunctionStructure) (workspace : Workspace) :
    FunctionStructure × Workspace :=
  match function.signature with
  | none => (function, workspace)
  | some signature =>
    ({ function with signature := none },
      workspace.inHost fun host =>
        { host with functions := (host.functions.withdraw signature).2 })

end FunctionStructure

end ScriptBinding
