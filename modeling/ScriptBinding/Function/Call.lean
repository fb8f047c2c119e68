import ScriptBinding.Function.Table
import ScriptBinding.Item.Running

/-! # Calling functions

A call binds arguments to the local values of the body and runs it. Calls may be nested only so
deep; the number of levels that remain bounds the recursion.
-/

namespace ScriptBinding

/-- The value of an argument text: without the blanks around it, and without quotes around the
rest. -/
def Signature.argumentValue (written : String) : String :=
  let chars := Text.trimChars written.toList
  String.ofList ((Text.between? '"' '"' chars).getD chars)

/-- The text that is bound to a parameter, given the arguments that are left. -/
def Parameter.textFrom? (parameter : Parameter) (arguments : List String) : Option String :=
  arguments.head?.or parameter.default

/-- Bind arguments to parameters. Those at the end for which nothing is given have their defaults.
-/
def Signature.bind (function : String) :
    List Parameter → List String → HostEvent → Except Failure HostEvent
  | [], _, event => .ok event
  | parameter :: others, arguments, event =>
    match parameter.textFrom? arguments with
    | none =>
      .error (.runtime s!"Missing argument '{parameter.name}' in call to '{function}'")
    | some written =>
      bind function others (arguments.drop 1)
        (event.withField ("_" ++ parameter.name) (argumentValue written))

/-- The event of a call. -/
def Function.event (function : Function) (name : String) (arguments : List String) :
    Except Failure HostEvent :=
  Signature.bind name function.signature.parameters arguments
    ((HostEvent.ofClass "function").withField "function" name)

/-- What a call answers when its body ends. -/
def Flow.result : Flow → Option String
  | .finished => none
  | .answered value => value

namespace FunctionTable

/-- Call a function when so many levels remain. -/
def call (functions : FunctionTable) (sink : Sink) : Nat → Caller
  | 0, _, _, effects => (.error .stackOverflow, effects)
  | remaining + 1, name, arguments, effects =>
    match functions.bodies.get? name with
    | none => (.error (.runtime s!"The function '{name}' is not loaded"), effects)
    | some function =>
      match function.event name arguments with
      | .error failure => (.error failure, effects)
      | .ok event =>
        let (flow, state) :=
          Item.run.runAll sink (functions.call sink remaining) function.items ⟨event, effects⟩
        (flow.map Flow.result, state.effects)

end FunctionTable

/-- What running bodies need of the host. -/
structure Environment where
  functions : FunctionTable
  sink : Sink
  /-- How deep calls may be nested. -/
  maxDepth : Nat

namespace Environment

/-- Call a function from the given depth of calls. -/
def call (environment : Environment) (depth : Nat) : Caller :=
  environment.functions.call environment.sink (environment.maxDepth - depth)

/-- Run a body at the given depth of calls. -/
def run (environment : Environment) (items : List Item) (depth : Nat) (state : RunState) :
    Except Failure Flow × RunState :=
  Item.run.runAll environment.sink (environment.call depth) items state

end Environment

end ScriptBinding
