/-! # Failures

What can go wrong with a script, how it is worded, and the record that is kept of it.
-/

namespace ScriptBinding

/-- What can go wrong with a script. A line of zero is not known yet. -/
inductive Failure where
  /-- A text is not what stands at its place. -/
  | parse (line : Nat) (text : String)
  /-- An entry does not fit the structure it is in. -/
  | config (line : Nat) (text : String)
  /-- A declaration that is referred to is missing. -/
  | bind (line : Nat) (text : String)
  /-- Something that should not happen. -/
  | fatal (text : String)
  /-- The host refused a registration. -/
  | host (text : String)
  /-- A body failed while it ran. -/
  | runtime (text : String)
  /-- Calls were nested deeper than allowed. -/
  | stackOverflow
deriving DecidableEq, Repr

/-- The kind of a failure, as it is reported. -/
inductive FailureKind where
  | parse
  | config
  | bind
  | fatal
  | host
  | runtime
deriving DecidableEq, Repr

/-- The word for a kind. -/
def FailureKind.name : FailureKind → String
  | parse => "parse"
  | config => "config"
  | bind => "bind"
  | fatal => "fatal"
  | host => "host"
  | runtime => "runtime"

namespace Failure

/-- The kind of a failure. -/
def kind : Failure → FailureKind
  | parse _ _ => .parse
  | config _ _ => .config
  | bind _ _ => .bind
  | fatal _ => .fatal
  | host _ => .host
  | runtime _ | stackOverflow => .runtime

/-- The line of a failure, when it is known. -/
def line? : Failure → Option Nat
  | parse line _ | config line _ | bind line _ => if line = 0 then none else some line
  | _ => none

/-- What went wrong, without kind and line. -/
def text : Failure → String
  | parse _ text | config _ text | bind _ text | fatal text | host text | runtime text => text
  | stackOverflow => "stack overflow"

/-- What went wrong, with kind and line. -/
def message : Failure → String
  | parse line text => s!"Parse error at line {line}: {text}"
  | config line text => s!"Invalid entry at line {line}: {text}"
  | bind line text => s!"Bind error at line {line}: {text}"
  | fatal text => s!"Fatal error: {text}"
  | host text => s!"Host error: {text}"
  | runtime text => s!"Runtime error: {text}"
  | stackOverflow => "Stack overflow"

/-- Supply the line of a failure that has a place for it and does not know it. -/
def atLine (line : Nat) : Failure → Failure
  | parse 0 text => parse line text
  | config 0 text => config line text
  | bind 0 text => bind line text
  | other => other

end Failure

/-- Why a file cannot be read as text. -/
inductive ReadProblem where
  | missing
  | isFolder
  | notText
deriving DecidableEq, Repr

/-- The wording of the problem. -/
def ReadProblem.message : ReadProblem → String
  | missing => "No such file or directory (os error 2)"
  | isFolder => "Is a directory (os error 21)"
  | notText => "stream did not contain valid UTF-8"

/-- What can go wrong outside of scripts. -/
inductive LoadError where
  /-- A script failed. -/
  | script (text : String)
  /-- A file cannot be read as text. -/
  | unreadable (problem : ReadProblem)
  /-- The settings are not a tree. -/
  | config (text : String)
  /-- Something is not there. -/
  | notFound (text : String)
  /-- A file is not a script. -/
  | invalidData (text : String)
deriving DecidableEq, Repr

/-- The wording of the error. -/
def LoadError.message : LoadError → String
  | script text => s!"Script error: {text}"
  | unreadable problem => s!"IO error: {problem.message}"
  | config text => s!"Configuration error: {text}"
  | notFound text => s!"Not found: {text}"
  | invalidData text => s!"Invalid data: {text}"

/-- A failure of a script, seen from outside. -/
def Failure.toLoadError (failure : Failure) : LoadError :=
  .script failure.message

/-- A failure that has been reported. -/
structure Diagnostic where
  kind : FailureKind
  text : String
  /-- The name of the script that was current. -/
  script : Option String
  line : Option Nat
deriving DecidableEq, Repr

/-- How urgent a log entry is. -/
inductive Level where
  | info
  | warn
  | error
deriving DecidableEq, Repr

/-- The word for a level. -/
def Level.name : Level → String
  | info => "INFO"
  | warn => "WARN"
  | error => "ERROR"

/-- A line of the log. -/
structure LogEntry where
  level : Level
  text : String
deriving DecidableEq, Repr

/-- The entry as it is written. -/
def LogEntry.render (entry : LogEntry) : String :=
  s!"{entry.level.name} {entry.text}"

end ScriptBinding
