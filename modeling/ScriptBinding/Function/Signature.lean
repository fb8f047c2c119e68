import ScriptBinding.Failure
import ScriptBinding.Script
import ScriptBinding.Text.Letter
import ScriptBinding.Value.Class

/-! # Signatures of functions

A signature names a function, its parameters with their types and defaults, and perhaps the type of
what it returns: `give(who: player, amount: number = 1) :: boolean`.
-/

namespace ScriptBinding

/-- A parameter of a function. -/
structure Parameter where
  name : String
  /-- The code name of the class of its values. -/
  type : String
  /-- What is bound when a call gives nothing for the parameter. -/
  default : Option String
deriving DecidableEq, Repr

/-- The name, the parameters and the return type of a function. -/
structure Signature where
  /-- The script that declares the function. -/
  script : Script
  name : String
  parameters : List Parameter
  returnType : Option String
  line : Nat
deriving DecidableEq, Repr

namespace Signature

/-- The number of parameters that every call must give. -/
def required (signature : Signature) : Nat :=
  (signature.parameters.filter (·.default.isNone)).length

/-- A call with this number of arguments fits. -/
def accepts (signature : Signature) (count : Nat) : Bool :=
  signature.required ≤ count && count ≤ signature.parameters.length

/-- The same declaration, by the same load of a script. -/
def same (a b : Signature) : Bool :=
  a.script.same b.script && a.name == b.name && a.parameters == b.parameters &&
    a.returnType == b.returnType && a.line == b.line

/-! ## Reading -/

/-- A name can start with this character. -/
def startsName (c : Char) : Bool :=
  Text.isAsciiLetter c || c == '_'

/-- The name of a function can start with this character, whose case does not count. -/
def startsFunctionName (c : Char) : Bool :=
  startsName (Text.foldChar c)

/-- The name at the start of a text, and what follows it. -/
def readName? (starts : Char → Bool) : List Char → Option (List Char × List Char)
  | c :: chars =>
    if starts c then some (c :: chars.takeWhile Text.isWord, chars.dropWhile Text.isWord) else none
  | [] => none

/-- The word that introduces a return type. -/
def returnsWord : List Char := "returns".toList

/-- What follows the mark or the word that introduces a return type. -/
def afterReturns? : List Char → Option (List Char)
  | ':' :: ':' :: chars => some chars
  | chars =>
    if (chars.take returnsWord.length).map Text.foldChar = returnsWord then
      some (chars.drop returnsWord.length)
    else none

/-- Read what follows the parameters: nothing, or a return type. -/
def readReturn? (chars : List Char) : Option (Option (List Char)) :=
  match chars.dropWhile Text.isBlank with
  | [] => some none
  | rest =>
    match afterReturns? rest with
    | none => none
    | some after =>
      let type := Text.trimChars after
      if type.isEmpty || type.contains '\n' then none else some (some type)

/-- The texts between an opened parenthesis and the last one that closes it so that a return type,
or nothing, follows. -/
def readParameters? : List Char → Option (List Char × Option (List Char))
  | [] => none
  | c :: chars =>
    let further := if c = '\n' then none else
      (readParameters? chars).map fun found => (c :: found.1, found.2)
    further.or (if c = ')' then (readReturn? chars).map fun type => ([], type) else none)

/-- The texts of the name, the parameters and the return type of a signature. -/
def readParts? (chars : List Char) : Option (List Char × List Char × Option (List Char)) :=
  match readName? startsFunctionName (Text.trimChars chars) with
  | none => none
  | some (name, rest) =>
    match rest.dropWhile Text.isBlank with
    | '(' :: inside => (readParameters? inside).map fun found => (name, found.1, found.2)
    | _ => none

/-- Cut a type from the default that follows an equals sign. A sign at the very start belongs to the
type, and so does one that nothing follows. -/
def cutDefault : List Char → List Char × Option (List Char)
  | [] => ([], none)
  | first :: chars =>
    match Text.cut? ['='] chars with
    | some (type, value) =>
      if value.isEmpty then (first :: chars, none)
      else (Text.trimEndChars (first :: type), some (Text.trimChars value))
    | none => (first :: chars, none)

/-- The name, the type and the default of a parameter, as they are written. -/
def readParameter? (chars : List Char) : Option (List Char × List Char × Option (List Char)) :=
  match readName? startsName chars with
  | none => none
  | some (name, rest) =>
    match rest.dropWhile Text.isBlank with
    | ':' :: written =>
      match written.dropWhile Text.isBlank with
      | [] => none
      | type => some (name, cutDefault type)
    | _ => none

/-- The code name of the class that users write like this. -/
def typeNamed (classes : ClassRegistry) (line : Nat) (written : String) : Except Failure String :=
  match classes.ofUserInput? written with
  | some info => .ok info.codeName
  | none => .error (.parse line s!"Cannot recognise the type '{written}'")

/-- Read one parameter of the function, after those before it. -/
def addParameter (classes : ClassRegistry) (line : Nat) (function : String)
    (before : List Parameter) (written : String) : Except Failure Parameter :=
  match readParameter? written.toList with
  | none => .error (.parse line s!"Invalid parameter '{written}' of function '{function}'")
  | some (name, type, default) =>
    let name := String.ofList name
    if before.any fun parameter => Text.equalIgnoringAsciiCase parameter.name name then
      .error (.parse line s!"Parameter '{name}' is declared twice in function '{function}'")
    else
      match typeNamed classes line (String.ofList type) with
      | .error failure => .error failure
      | .ok type => .ok ⟨name, type, default.map String.ofList⟩

/-- Read the parameters of the function, after those before them. -/
def addParameters (classes : ClassRegistry) (line : Nat) (function : String)
    (before : List Parameter) : List String → Except Failure (List Parameter)
  | [] => .ok before
  | written :: others =>
    match addParameter classes line function before written with
    | .error failure => .error failure
    | .ok parameter => addParameters classes line function (before ++ [parameter]) others

/-- The pieces between commas that are not blank, without the blanks around them. -/
def parameterTexts (written : List Char) : List String :=
  (((Text.pieces ',' written).map Text.trimChars).filter (!·.isEmpty)).map String.ofList

/-- The code name of the return type. -/
def readType (classes : ClassRegistry) (line : Nat) :
    Option (List Char) → Except Failure (Option String)
  | none => .ok none
  | some written => (typeNamed classes line (String.ofList written)).map some

/-- Read a signature. -/
def read (classes : ClassRegistry) (script : Script) (text : String) (line : Nat) :
    Except Failure Signature :=
  match readParts? text.toList with
  | none => .error (.parse line s!"Invalid function signature '{text}'")
  | some (name, written, returned) =>
    let name := String.ofList name
    match addParameters classes line name [] (parameterTexts written) with
    | .error failure => .error failure
    | .ok parameters =>
      match readType classes line returned with
      | .error failure => .error failure
      | .ok returnType => .ok ⟨script, name, parameters, returnType, line⟩

end Signature

end ScriptBinding
