import ScriptBinding.Text.Cut

/-! # Significant lines

A text is read line by line. Comments and blank lines are dropped; what is left has an indentation,
made of one kind of character throughout the file, and a content without blanks at its ends.
-/

namespace ScriptBinding

/-- A line that is neither blank nor a comment. -/
structure Line where
  /-- How many blanks the line starts with. -/
  indent : Nat
  /-- The content of the line. -/
  text : String
  /-- The place of the line in the file, counted from one. -/
  number : Nat
deriving DecidableEq, Repr

/-- Why a text is not a tree. -/
inductive IndentError where
  /-- The line is deeper than the section it stands in. -/
  | unexpected (line : Nat)
  /-- The line is indented by tabs and spaces together. -/
  | mixed (line : Nat)
  /-- The line is indented by another character than the lines before it. -/
  | otherStyle (line : Nat)
deriving DecidableEq, Repr

/-- The wording of the error. -/
def IndentError.message : IndentError → String
  | unexpected line => s!"Unexpected indentation at line {line}"
  | mixed line => s!"Inconsistent indentation at line {line}: tabs and spaces are mixed"
  | otherStyle line =>
    s!"Inconsistent indentation at line {line}: " ++
      "indentation style differs from the rest of the file"

namespace Line

/-- Cut a line at the sign that starts a comment; a doubled sign stands for itself. -/
def dropComment : List Char → List Char
  | [] => []
  | '#' :: '#' :: rest => '#' :: dropComment rest
  | c :: rest => if c = '#' then [] else c :: dropComment rest

/-- The characters that indent a line. -/
def isMargin (c : Char) : Bool :=
  c == ' ' || c == '\t'

/-- The content of a line, without its comment. -/
def content (raw : List Char) : List Char :=
  Text.trimChars (Text.trimEndChars (dropComment raw))

/-- The blanks that indent a line. -/
def margin (raw : List Char) : List Char :=
  (Text.trimEndChars (dropComment raw)).takeWhile isMargin

/-- The style of the file after a margin, or why the margin does not fit. -/
def checkMargin (style : Option Char) (number : Nat) (margin : List Char) :
    Except IndentError (Option Char) :=
  if margin.contains ' ' && margin.contains '\t' then .error (.mixed number)
  else
    match style, margin.head? with
    | style, none => .ok style
    | none, some c => .ok (some c)
    | some known, some c => if known = c then .ok style else .error (.otherStyle number)

/-- Read the significant lines, the first of which has the given number. -/
def readFrom (style : Option Char) (number : Nat) : List (List Char) →
    Except IndentError (List Line)
  | [] => .ok []
  | raw :: others =>
    if (content raw).isEmpty then readFrom style (number + 1) others
    else
      match checkMargin style number (margin raw) with
      | .error problem => .error problem
      | .ok style =>
        (readFrom style (number + 1) others).map fun lines =>
          ⟨(margin raw).length, String.ofList (content raw), number⟩ :: lines

/-- Read the significant lines of a text. -/
def read (text : String) : Except IndentError (List Line) :=
  readFrom none 1 (Text.lines text)

/-- The header of the section that a line opens, when it opens one. -/
def header? (line : Line) : Option String :=
  (Text.beforeEnd? [':'] line.text.toList).map fun header =>
    String.ofList (Text.trimEndChars header)

end Line

end ScriptBinding
