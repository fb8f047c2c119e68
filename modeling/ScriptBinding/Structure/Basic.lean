import ScriptBinding.Structure.Aliases
import ScriptBinding.Structure.Command
import ScriptBinding.Structure.Custom
import ScriptBinding.Structure.Event
import ScriptBinding.Structure.Function
import ScriptBinding.Structure.Options
import ScriptBinding.Structure.Variables

/-! # Structures

A structure is what a section at the top of a script stands for. Every phase takes it and the
workspace to an outcome and to what both have become.
-/

namespace ScriptBinding

/-- What a section at the top of a script stands for. -/
inductive Structure where
  | options (options : OptionsStructure)
  | function (function : FunctionStructure)
  | aliases
  | defaults (defaults : VariablesStructure)
  | command (command : CommandStructure)
  | event (event : EventStructure)
  | custom (custom : CustomStructure)

namespace Structure

/-- Structures are loaded in the order of their priorities, the lowest first. -/
def priority : Structure → Int
  | options _ => 10
  | function _ => 30
  | aliases => 1000
  | defaults _ => 20
  | command _ => 10
  | event _ => 1000
  | custom inner => inner.behaviour.priority inner.heading

/-- What a structure is called in descriptions. -/
def describe : Structure → String
  | options _ => "options"
  | function inner => s!"function {inner.header}"
  | aliases => "aliases"
  | defaults _ => "variables"
  | command inner => inner.describe
  | event inner => inner.describe
  | custom inner => inner.behaviour.describe inner.heading

/-- Take the header and the section; false rejects them. -/
def init (header : MatchResult) (body : Section) (workspace : Workspace) :
    Structure → Outcome Bool × Structure × Workspace
  | options inner =>
    let (inner, after) := inner.init body workspace
    (.done true, options inner, after)
  | function inner =>
    match inner.init header body with
    | .ok inner => (.done true, function inner, workspace)
    | .error failure => (.failed failure, function inner, workspace)
  | aliases => (.done true, aliases, AliasesStructure.init body workspace)
  | defaults inner =>
    let (inner, after) := inner.init body workspace
    (.done true, defaults inner, after)
  | command inner =>
    match inner.init header body with
    | .ok inner => (.done true, command inner, workspace)
    | .error failure => (.failed failure, command inner, workspace)
  | event inner =>
    let (result, inner, after) := inner.init header body workspace
    (.ofExcept result, event inner, after)
  | custom inner =>
    let (outcome, inner, after) := inner.init header body workspace
    (outcome, custom inner, after)

/-- Declare what others may refer to. -/
def preload (workspace : Workspace) : Structure → Outcome Unit × Structure × Workspace
  | options inner => (.done (), options inner, inner.apply workspace)
  | function inner =>
    match inner.preload workspace with
    | (.ok inner, after) => (.done (), function inner, after)
    | (.error failure, after) => (.failed failure, function inner, after)
  | custom inner =>
    let (outcome, after) := inner.respond .preload workspace
    (outcome.map fun _ => (), custom inner, after)
  | other => (.done (), other, workspace)

/-- Bind what the section says. -/
def load (thread : Thread) (workspace : Workspace) :
    Structure → Outcome Unit × Structure × Workspace
  | options inner => (.done (), options inner, inner.apply workspace)
  | function inner =>
    let (result, after) := inner.load workspace
    (.ofExcept result, function inner, after)
  | command inner =>
    match inner.load thread workspace with
    | (.ok inner, after) => (.done (), command inner, after)
    | (.error failure, after) => (.failed failure, command inner, after)
  | custom inner =>
    let (outcome, after) := inner.respond .load workspace
    (outcome.map fun _ => (), custom inner, after)
  | other => (.done (), other, workspace)

/-- Mend what depends on other structures. -/
def afterLoad (workspace : Workspace) : Structure → Outcome Unit × Structure × Workspace
  | custom inner =>
    let (outcome, after) := inner.respond .afterLoad workspace
    (outcome.map fun _ => (), custom inner, after)
  | other => (.done (), other, workspace)

/-- Take note of what the main thread has done since, for a script that amounts to so much. -/
def settle (info : ScriptInfo) (workspace : Workspace) :
    Structure → Outcome Unit × ScriptInfo × Workspace
  | command inner =>
    let (result, host, info) := inner.settle workspace.host info
    (.ofExcept result, info, { workspace with host })
  | custom inner =>
    let (outcome, after) := inner.respond .settle workspace
    (outcome.map fun _ => (), info, after)
  | _ => (.done (), info, workspace)

/-- Take everything back. -/
def unload (thread : Thread) (workspace : Workspace) :
    Structure → Outcome Unit × Structure × Workspace
  | function inner =>
    let (inner, after) := inner.unload workspace
    (.done (), function inner, after)
  | command inner => (.done (), command inner, inner.unload thread workspace)
  | event inner => (.done (), event inner, inner.unload thread workspace)
  | custom inner =>
    let (outcome, after) := inner.respond .unload workspace
    (outcome.map fun _ => (), custom inner, after)
  | other => (.done (), other, workspace)

end Structure

end ScriptBinding
