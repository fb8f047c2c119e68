import ScriptBinding.Regex.Compile
import ScriptBinding.Value.Basic

/-! # Classes of values

A class has a code name, the words users write for it, perhaps a way to read literals, and says
whether and as what its values are stored. A registry asks its classes in the order in which they
were registered.
-/

namespace ScriptBinding

/-- A class of values. -/
structure ClassInfo where
  codeName : String
  /-- What users write for the class. -/
  userInput : List Regex.Machine := []
  /-- Reads the literals of the class. -/
  read : Option (String → Option Value) := none
  /-- Values of the class can be stored. -/
  serializable : Bool := true
  /-- The class as which values are stored, when it is another one. -/
  storedAs : Option String := none

namespace ClassInfo

/-- The machine for one way to write a class, over the whole text and whatever its case. -/
def userRegex? (written : String) : Option Regex.Machine :=
  Regex.parse? { ignoreCase := true } ("^(?:".toList ++ written.toList ++ ")$".toList)

/-- Add ways to write the class; one that is no expression is left out. -/
def user (written : List String) (info : ClassInfo) : ClassInfo :=
  { info with userInput := info.userInput ++ written.filterMap userRegex? }

/-- The text, without the blanks around it, is one of the ways to write the class. -/
def accepts (info : ClassInfo) (input : String) : Bool :=
  info.userInput.any fun machine => machine.matchesIn (Text.trimChars input.toList)

/-- The value a text stands for as a literal of the class. -/
def parse? (info : ClassInfo) (text : String) : Option Value :=
  info.read.bind fun read => read text

end ClassInfo

/-- The classes that are known, and the ways from one to another. -/
structure ClassRegistry where
  /-- The classes in the order in which they were registered. -/
  classes : List ClassInfo := []
  /-- The converters by source and target, the latest first. -/
  converters : List ((String × String) × (Value → Option Value)) := []

namespace ClassRegistry

/-- The class with the given code name. -/
def named? (registry : ClassRegistry) (codeName : String) : Option ClassInfo :=
  registry.classes.find? (·.codeName == codeName)

/-- Register a class behind the others, unless its code name is taken. -/
def register (info : ClassInfo) (registry : ClassRegistry) : ClassRegistry :=
  if (registry.named? info.codeName).isSome then registry
  else { registry with classes := registry.classes ++ [info] }

/-- Register a converter, in place of any for the same classes. -/
def registerConverter (source target : String) (convert : Value → Option Value)
    (registry : ClassRegistry) : ClassRegistry :=
  { registry with converters := ((source, target), convert) :: registry.converters }

/-- The first class that users write like this. -/
def ofUserInput? (registry : ClassRegistry) (input : String) : Option ClassInfo :=
  registry.classes.find? (·.accepts input)

/-- The class of a value, or else the class of all objects. -/
def classOf? (registry : ClassRegistry) (value : Value) : Option ClassInfo :=
  (registry.named? value.className).or (registry.named? "object")

/-- The value that the first class to read a literal finds in it. -/
def parse? (registry : ClassRegistry) (text : String) : Option Value :=
  registry.classes.findSome? (·.parse? (Text.trim text))

/-- The value as one of another class. -/
def convert? (registry : ClassRegistry) (value : Value) (target : String) : Option Value :=
  if value.className = target then some value
  else (registry.converters.lookup (value.className, target)).bind fun convert => convert value

end ClassRegistry

end ScriptBinding
