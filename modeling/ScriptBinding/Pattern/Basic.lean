import ScriptBinding.Failure
import ScriptBinding.Pattern.Notation
import ScriptBinding.Regex.Compile

/-! # Patterns

A pattern is compiled to a regular expression over whole texts, in which letter case does not count.
Placeholders, raw expressions and marked alternatives become named groups. They are numbered in the
order in which they are finished, so a marked alternative comes behind what it contains.
-/

namespace ScriptBinding

/-- What a named group of a pattern stands for. -/
inductive Capture where
  /-- A placeholder of the given type. -/
  | argument (type : String)
  /-- A raw expression. -/
  | raw
  /-- An alternative with the given mark. -/
  | mark (value : Nat)
deriving DecidableEq, Repr

/-- The name of the group with the given number. -/
def Capture.groupName (number : Nat) : Capture → String
  | argument _ => s!"a{number}"
  | raw => s!"r{number}"
  | mark _ => s!"m{number}"

namespace Piece

/-- The flags of a pattern. -/
def flags : Regex.Flags := { ignoreCase := true }

/-- A character that stands for itself, whatever its case. -/
def literalRegex (c : Char) : Regex :=
  .oneOf (.folded (.single c))

/-- At least one blank. -/
def blanksRegex : Regex :=
  .repeated 1 none true (.oneOf .blank)

/-- Text for a placeholder: as little as will do, but not nothing. -/
def argumentRegex : Regex :=
  .repeated 1 none false (.oneOf .exceptLineFeed)

mutual

/-- The groups of a piece, in the order in which they are finished. -/
def captures : Piece → List Capture
  | .literal _ | .blanks => []
  | .optional alternatives _ | .choice alternatives => capturesOfEach alternatives
  | .raw _ => [.raw]
  | .argument type => [.argument type]

/-- The groups of a sequence. -/
def capturesOf : List Piece → List Capture
  | [] => []
  | piece :: others => piece.captures ++ capturesOf others

/-- The groups of an alternative. -/
def capturesOfAlternative : Alternative → List Capture
  | .mk none body => capturesOf body
  | .mk (some value) body => capturesOf body ++ [.mark value]

/-- The groups of some alternatives. -/
def capturesOfEach : List Alternative → List Capture
  | [] => []
  | alternative :: others => capturesOfAlternative alternative ++ capturesOfEach others

end

mutual

/-- The expression of a piece whose first group has the given number, unless a raw part is no
expression by itself. -/
def regex? (number : Nat) : Piece → Option Regex
  | .literal c => some (literalRegex c)
  | .blanks => some blanksRegex
  | .optional alternatives absorbs =>
    (regexOfEach? number alternatives).map fun bodies =>
      let inner := Regex.group .plain (Regex.altAll bodies)
      .repeated 0 (some 1) true
        (.group .plain (if absorbs then .cat inner blanksRegex else inner))
  | .choice alternatives =>
    (regexOfEach? number alternatives).map fun bodies => .group .plain (Regex.altAll bodies)
  | .raw text => (Regex.read? flags text).map (.group (.named (Capture.raw.groupName number)))
  | .argument type =>
    some (.group (.named ((Capture.argument type).groupName number)) argumentRegex)

/-- The expressions of a sequence. -/
def regexOf? (number : Nat) : List Piece → Option (List Regex)
  | [] => some []
  | piece :: others =>
    match piece.regex? number, regexOf? (number + piece.captures.length) others with
    | some first, some rest => some (first :: rest)
    | _, _ => none

/-- The expression of an alternative. -/
def regexOfAlternative? (number : Nat) : Alternative → Option Regex
  | .mk none body => (regexOf? number body).map Regex.catAll
  | .mk (some value) body =>
    (regexOf? number body).map fun items =>
      .group (.named ((Capture.mark value).groupName (number + (capturesOf body).length)))
        (Regex.catAll items)

/-- The expressions of some alternatives. -/
def regexOfEach? (number : Nat) : List Alternative → Option (List Regex)
  | [] => some []
  | alternative :: others =>
    match regexOfAlternative? number alternative,
      regexOfEach? (number + (capturesOfAlternative alternative).length) others with
    | some first, some rest => some (first :: rest)
    | _, _ => none

end

/-- A named group around a text. -/
def groupText (name : String) (body : List Char) : List Char :=
  "(?P<".toList ++ name.toList ++ ['>'] ++ body ++ [')']

/-- Texts joined by bars. -/
def barred : List (List Char) → List Char
  | [] => []
  | [last] => last
  | first :: others => first ++ '|' :: barred others

mutual

/-- A piece, written as a regular expression. -/
def text (number : Nat) : Piece → List Char
  | .literal c => Regex.escape c
  | .blanks => "\\s+".toList
  | .optional alternatives absorbs =>
    let inner := "(?:".toList ++ barred (textOfEach number alternatives) ++ [')']
    "(?:".toList ++ (if absorbs then inner ++ "\\s+".toList else inner) ++ ")?".toList
  | .choice alternatives => "(?:".toList ++ barred (textOfEach number alternatives) ++ [')']
  | .raw body => groupText (Capture.raw.groupName number) body
  | .argument type => groupText ((Capture.argument type).groupName number) ".+?".toList

/-- A sequence, written as a regular expression. -/
def textOf (number : Nat) : List Piece → List Char
  | [] => []
  | piece :: others => piece.text number ++ textOf (number + piece.captures.length) others

/-- An alternative, written as a regular expression. -/
def textOfAlternative (number : Nat) : Alternative → List Char
  | .mk none body => textOf number body
  | .mk (some value) body =>
    groupText ((Capture.mark value).groupName (number + (capturesOf body).length))
      (textOf number body)

/-- Some alternatives, written as regular expressions. -/
def textOfEach (number : Nat) : List Alternative → List (List Char)
  | [] => []
  | alternative :: others =>
    textOfAlternative number alternative ::
      textOfEach (number + (capturesOfAlternative alternative).length) others

end

/-- The expression of a whole pattern. Where a raw part is no expression by itself, it may still
become one together with the text around it, and the pattern is read as one text. -/
def wholeRegex? (pieces : List Piece) : Option Regex :=
  match regexOf? 0 pieces with
  | some items => some (Regex.catAll (Regex.edge .textStart :: items ++ [Regex.edge .textEnd]))
  | none => Regex.read? flags ('^' :: textOf 0 pieces ++ ['$'])

end Piece

/-- Text found for a placeholder. -/
structure Argument where
  type : String
  text : String
deriving DecidableEq, Repr

/-- What a header gave when it was matched. -/
structure MatchResult where
  /-- The header, without blanks at its ends. -/
  expr : String
  /-- The place of the pattern that matched among those of its descriptor. -/
  pattern : Nat := 0
  /-- The placeholders in the order of the pattern; one that was not reached has no text. -/
  arguments : List (Option Argument) := []
  /-- The texts of the raw expressions that were reached. -/
  raws : List String := []
  /-- The marks of the alternatives that were taken, combined bit by bit. -/
  mark : Nat := 0
deriving DecidableEq, Repr

/-- Why a text is no pattern. -/
inductive PatternError where
  /-- It is not in the notation of patterns; the place counts the characters before it. -/
  | malformed (source : String) (place : Nat) (problem : NotationProblem)
  /-- Its raw expressions are not well formed. -/
  | refused (source : String)
deriving DecidableEq, Repr

/-- The error as a failure of a script. -/
def PatternError.toFailure : PatternError → Failure
  | malformed source place problem =>
    .fatal s!"Invalid pattern '{source}' at {place}: {problem.message}"
  | refused source => .fatal s!"Invalid pattern '{source}'"

/-- A pattern that headers are matched against. -/
structure Pattern where
  source : String
  pieces : List Piece
  /-- Runs the expression of the pattern. -/
  machine : Regex.Machine

namespace Pattern

/-- The groups of a pattern, in the order in which they are finished. -/
def captures (pattern : Pattern) : List Capture :=
  Piece.capturesOf pattern.pieces

/-- Compile a pattern. -/
def compile (source : String) : Except PatternError Pattern :=
  match Piece.readPattern source.toList with
  | .error error =>
    .error (.malformed source (source.toList.length - error.behind) error.problem)
  | .ok pieces =>
    match (Piece.wholeRegex? pieces).bind Regex.machine? with
    | none => .error (.refused source)
    | some machine => .ok ⟨source, pieces, machine⟩

/-- Record what one group of a pattern has taken. -/
def record (bindings : Regex.Bindings) (number : Nat) (capture : Capture)
    (result : MatchResult) : MatchResult :=
  let taken := bindings.lookup (capture.groupName number)
  match capture with
  | .argument type =>
    { result with
      arguments := result.arguments ++
        [taken.map fun text => ⟨type, String.ofList (Text.trimChars text)⟩] }
  | .raw => { result with raws := result.raws ++ (taken.map String.ofList).toList }
  | .mark value => if taken.isSome then { result with mark := result.mark ^^^ value } else result

/-- Record what the groups of a pattern have taken. -/
def recordAll (bindings : Regex.Bindings) : Nat → List Capture → MatchResult → MatchResult
  | _, [], result => result
  | number, capture :: others, result =>
    recordAll bindings (number + 1) others (record bindings number capture result)

/-- Match a whole header, without the blanks at its ends. -/
def match? (pattern : Pattern) (expr : String) : Option MatchResult :=
  (pattern.machine.search? (Text.trimChars expr.toList)).map fun bindings =>
    recordAll bindings 0 pattern.captures { expr := Text.trim expr }

end Pattern

end ScriptBinding
