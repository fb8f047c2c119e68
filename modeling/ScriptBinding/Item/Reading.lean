import ScriptBinding.Function.Signature
import ScriptBinding.Item.Arguments
import ScriptBinding.Item.Basic
import ScriptBinding.Node.Basic
import ScriptBinding.Options

/-! # Reading bodies

A body is read from the nodes of a section. Every node either becomes an item or leaves a report; a
block whose header fails is left out with all that is below it. A call must fit a declared function:
when any does not, the whole body is refused.
-/

namespace ScriptBinding

/-- What the items of a body can refer to. -/
structure BodyScope where
  options : Options
  /-- The declared functions. -/
  signature? : String → Option Signature
  /-- The body belongs to a function. -/
  inFunction : Bool

namespace Item

/-- The text of a line that is read as an item. -/
def textOf : Node → String
  | .entry key value _ => s!"{key}: {value}"
  | other => other.key

/-- The word that ends a function. -/
def returnWord : String := "return"

/-- The line ends a function: it is the word itself, or the word with a space and more behind it. -/
def isReturn (text : String) : Bool :=
  let lowered := Text.lower text
  lowered == returnWord || Text.startsWith "return " lowered

/-- What follows the first bytes of a text, or nothing when they end inside a character. -/
def dropBytes (count : Nat) : List Char → List Char
  | [] => []
  | c :: chars =>
    if count = 0 then c :: chars
    else if c.utf8Size ≤ count then dropBytes (count - c.utf8Size) chars
    else []

/-- The result of a line that ends a function. -/
def returnedValue? (text : String) : Option String :=
  let value := Text.trimChars (dropBytes returnWord.utf8ByteSize text.toList)
  if value.isEmpty then none else some (String.ofList value)

/-- The name and the text of the arguments, when a line has the shape of a call. -/
def readCall? (chars : List Char) : Option (List Char × List Char) :=
  match Signature.readName? Signature.startsName chars with
  | none => none
  | some (name, rest) =>
    match Text.between? '(' ')' rest with
    | none => none
    | some arguments => if arguments.contains '\n' then none else some (name, arguments)

/-- Read a call, which must fit the function it names. -/
def readCall (scope : BodyScope) (line : Nat) (name : String) (arguments : List String) :
    Except Failure Item :=
  match scope.signature? name with
  | none => .error (.bind line s!"The function '{name}' does not exist")
  | some signature =>
    if signature.accepts arguments.length then .ok (.call name arguments line)
    else
      .error (.bind line (s!"The function '{name}' takes {signature.parameters.length} " ++
        s!"argument(s), {arguments.length} given"))

/-- Read a line in which the options have been replaced. -/
def readPlain (scope : BodyScope) (line : Nat) (text : String) : Except Failure Item :=
  if isReturn text then
    if scope.inFunction then .ok (.answer (returnedValue? text) line)
    else .error (.parse line "'return' can only be used in a function")
  else
    match readCall? text.toList with
    | some (name, arguments) =>
      readCall scope line (String.ofList name) ((Arguments.split arguments).map String.ofList)
    | none => .ok (.effect text line)

/-- Read a line. -/
def readLine (scope : BodyScope) (line : Nat) (text : String) : Except Failure Item :=
  match scope.options.replace line text with
  | .error failure => .error failure
  | .ok replaced => readPlain scope line (Text.trim replaced)

/-- Read a node: the item it becomes, if any, and the reports it leaves, in the order of the text.
-/
def readNode (scope : BodyScope) : Node → Option Item × List Failure
  | .simple key line =>
    match readLine scope line key with
    | .ok item => (some item, [])
    | .error failure => (none, [failure])
  | .entry key value line =>
    match readLine scope line (textOf (.entry key value line)) with
    | .ok item => (some item, [])
    | .error failure => (none, [failure])
  | .nested key line nodes =>
    match scope.options.replace line key with
    | .error failure => (none, [failure])
    | .ok header =>
      let (items, failures) := readNodes scope nodes
      (some (.block header line items), failures)
where
  /-- Read a list of nodes. -/
  readNodes (scope : BodyScope) : List Node → List Item × List Failure
    | [] => ([], [])
    | node :: others =>
      let (item, failures) := readNode scope node
      let (items, rest) := readNodes scope others
      (item.toList ++ items, failures ++ rest)

/-- Read the body of a section. The reports are left whether or not the body is refused. -/
def readBody (scope : BodyScope) (body : Section) : Except Failure (List Item) × List Failure :=
  let (items, failures) := readNode.readNodes scope body.nodes
  let unresolved := (failures.filter (·.kind == .bind)).length
  if unresolved = 0 then (.ok items, failures)
  else
    (.error (.bind body.line s!"{unresolved} unresolved reference(s) in '{body.key}'"), failures)

end Item

end ScriptBinding
