import ScriptBinding.Text.Cut
import ScriptBinding.Value.Class

/-! # The standard classes

Truth values, whole and other numbers, spans of time, worlds, players, texts and objects, with the
literals of each.
-/

namespace ScriptBinding.Value

/-- Read a truth value, whatever its case. -/
def readBoolean? (text : String) : Option Value :=
  let word := Text.lower text
  if word = "true" || word = "yes" || word = "on" then some (.boolean true)
  else if word = "false" || word = "no" || word = "off" then some (.boolean false)
  else none

/-- Read a whole number of 64 bits. -/
def readInteger? (text : String) : Option Value :=
  (Number.readInt? (Nat.pow 2 63) text.toList).map .integer

/-- Read a finite number. -/
def readNumber? (text : String) : Option Value :=
  (Number.readFinite? text.toList).map .number

/-- The units of time, with their lengths in thousandths of a second. -/
def timeUnits : List (String × Nat) :=
  [("tick", 50), ("second", 1000), ("minute", 60000), ("hour", 3600000), ("day", 86400000)]

/-- The length of a unit as it is written; an unusual spelling counts as days. -/
def unitLength (written : List Char) : Nat :=
  ((timeUnits.find? fun unit => unit.1 == Text.lower (String.ofList written)).map Prod.snd).getD
    86400000

/-- The unit that a text is, whatever its case and with or without a plural ending. -/
def readUnit? (chars : List Char) : Option (List Char) :=
  let folded := chars.map Text.foldChar
  (timeUnits.find? fun unit =>
    folded == unit.1.toList || folded == unit.1.toList ++ ['s']).map fun unit =>
      chars.take unit.1.length

/-- The amount at the start of a text: digits, perhaps with a point and further digits. -/
def readAmount? (chars : List Char) : Option (List Char × List Char) :=
  let whole := chars.takeWhile Text.isDigit
  let rest := chars.drop whole.length
  let part := match rest with
    | '.' :: more => more.takeWhile Text.isDigit
    | _ => []
  if whole.isEmpty then none
  else if part.isEmpty then some (whole, rest)
  else some (whole ++ '.' :: part, rest.drop (part.length + 1))

/-- The number of thousandths of a second, which is cut off at 64 bits. -/
def milliseconds (amount : Number.Reading) (unit : Nat) : Nat :=
  let most := Nat.pow 2 64 - 1
  match amount with
  | .finite value =>
    match (Binary64.ofInt? unit).bind value.mul? with
    | some total => min most total.roundHalfUp
    | none => most
  | _ => most

/-- Read a span of time: an amount, blanks and a unit. -/
def readTimespan? (text : String) : Option Value :=
  match readAmount? text.toList with
  | none => none
  | some (amount, rest) =>
    let blanks := rest.takeWhile Text.isBlank
    match readUnit? (rest.drop blanks.length), Number.read? amount with
    | some unit, some reading =>
      if blanks.isEmpty then none
      else some (.object "timespan" (toString (milliseconds reading (unitLength unit))))
    | _, _ => none

/-- Read a quoted name behind a word. -/
def readNamed? (word : String) (text : String) : Option Value :=
  ((Text.afterLead? word.toList text.toList).bind fun rest =>
    Text.between? '"' '"' (rest.dropWhile Text.isBlank)).map fun name =>
      .object word (String.ofList name)

/-- Two quotes inside a quoted text stand for one. -/
def undouble : List Char → List Char
  | '"' :: '"' :: rest => '"' :: undouble rest
  | c :: rest => c :: undouble rest
  | [] => []

/-- Read a quoted text. -/
def readText? (text : String) : Option Value :=
  (Text.between? '"' '"' text.toList).map fun inner => .text (String.ofList (undouble inner))

/-- A player is stored as an offline player of the same name. -/
def toOfflinePlayer? : Value → Option Value
  | .object _ data => some (.object "offlineplayer" data)
  | _ => none

/-- A whole number as a number. -/
def toNumber? : Value → Option Value
  | .integer value => (Binary64.ofInt? value).map .number
  | _ => none

end Value

namespace ClassInfo

/-- The standard classes, in the order in which literals are tried. -/
def standard : List ClassInfo :=
  [ClassInfo.user ["booleans?"] { codeName := "boolean", read := some Value.readBoolean? },
    ClassInfo.user ["integers?"] { codeName := "integer", read := some Value.readInteger? },
    ClassInfo.user ["numbers?"] { codeName := "number", read := some Value.readNumber? },
    ClassInfo.user ["time ?spans?"] { codeName := "timespan", read := some Value.readTimespan? },
    ClassInfo.user ["worlds?"]
      { codeName := "world", read := some (Value.readNamed? "world"), serializable := false },
    ClassInfo.user ["players?"]
      { codeName := "player", read := some (Value.readNamed? "player"),
        storedAs := some "offlineplayer" },
    ClassInfo.user ["offline ?players?"] { codeName := "offlineplayer" },
    ClassInfo.user ["texts?", "strings?"] { codeName := "text", read := some Value.readText? },
    ClassInfo.user ["objects?"] { codeName := "object" }]

end ClassInfo

/-- The registry of the standard classes. -/
def ClassRegistry.standard : ClassRegistry where
  classes := ClassInfo.standard
  converters :=
    [(("integer", "number"), Value.toNumber?),
      (("player", "offlineplayer"), Value.toOfflinePlayer?)]

end ScriptBinding
