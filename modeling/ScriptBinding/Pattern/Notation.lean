import ScriptBinding.Number.Integer
import ScriptBinding.Text.Cut

/-! # The notation of patterns

A pattern is a sequence of pieces: literal characters, runs of spaces, `[optional]` parts,
`(one|of|several)` choices whose alternatives may carry a mark, `<raw>` expressions and `%type%`
placeholders. `Piece.readPattern` accepts exactly the well bracketed sequences of these.
-/

namespace ScriptBinding

mutual

/-- A piece of a pattern. -/
inductive Piece where
  /-- A character that stands for itself. -/
  | literal (c : Char)
  /-- A run of spaces. -/
  | blanks
  /-- A part that may be left out; it may have taken up the spaces behind it. -/
  | optional (alternatives : List Alternative) (absorbs : Bool)
  /-- One of several alternatives. -/
  | choice (alternatives : List Alternative)
  /-- A regular expression, whose text is kept. -/
  | raw (text : List Char)
  /-- Text of the named type. -/
  | argument (type : String)

/-- One alternative of a choice, which adds its mark when it is taken. -/
inductive Alternative where
  | mk (mark : Option Nat) (body : List Piece)

end

/-- Why a text is no pattern. -/
inductive NotationProblem where
  /-- A bracket or bar that closes or separates nothing. -/
  | unbalanced (c : Char)
  /-- A bracket that is never closed. -/
  | missing (c : Char)
  /-- A placeholder without a type. -/
  | emptyType
  /-- A backslash at the end. -/
  | danglingEscape
  /-- Something behind the end of the pattern. -/
  | unexpected (c : Char)
deriving DecidableEq, Repr

/-- The wording of the problem. -/
def NotationProblem.message : NotationProblem → String
  | unbalanced c => s!"unbalanced '{c}'"
  | missing c => s!"missing '{c}'"
  | emptyType => "empty type placeholder"
  | danglingEscape => "dangling escape"
  | unexpected c => s!"unexpected '{c}'"

/-- A problem, with the number of characters behind the place where it was met. -/
structure NotationError where
  behind : Nat
  problem : NotationProblem
deriving DecidableEq, Repr

namespace Piece

/-- Read up to a closing character, which is dropped. -/
def readUntil (closing : Char) (chars : List Char) :
    Except NotationError (List Char × List Char) :=
  match Text.cut? [closing] chars with
  | some sides => .ok sides
  | none => .error ⟨0, .missing closing⟩

/-- The type of a placeholder: leading signs and the blanks around it do not count. -/
def typeName (text : List Char) : List Char :=
  Text.trimChars (text.dropWhile fun c => c == '-' || c == '*' || c == '~')

/-- The sign behind the number of a mark. -/
def markSign : Char := '¦'

/-- The mark of a number of digits; a number beyond 31 bits is none. -/
def markOfDigits (digits : List Char) : Option Nat :=
  Number.readNat? (Nat.pow 2 31) digits

/-- Read the mark at the start of an alternative, when there is one. -/
def readMark (chars : List Char) : Option Nat × List Char :=
  let digits := chars.takeWhile Text.isAsciiDigit
  match digits, chars.drop digits.length with
  | _ :: _, c :: rest => if c = markSign then (markOfDigits digits, rest) else (none, chars)
  | _, _ => (none, chars)

/-- The sequence stops in front of the character. -/
def stopsAt (closing : Option Char) (c : Char) : Bool :=
  match closing with
  | none => false
  | some close => c == '|' || c == close

mutual

/-- Read pieces up to the end of the alternative they stand in. -/
def readSequence (closing : Option Char) :
    Nat → List Char → Except NotationError (List Piece × List Char)
  | 0, chars => .ok ([], chars)
  | _ + 1, [] => .ok ([], [])
  | fuel + 1, c :: rest =>
    if stopsAt closing c then .ok ([], c :: rest)
    else if c = '[' then
      match readAlternatives ']' fuel rest with
      | .error problem => .error problem
      | .ok (alternatives, after) =>
        let absorbs := after.head? == some ' '
        match readSequence closing fuel (after.dropWhile (· == ' ')) with
        | .error problem => .error problem
        | .ok (pieces, behind) => .ok (.optional alternatives absorbs :: pieces, behind)
    else if c = '(' then
      match readAlternatives ')' fuel rest with
      | .error problem => .error problem
      | .ok (alternatives, after) =>
        match readSequence closing fuel after with
        | .error problem => .error problem
        | .ok (pieces, behind) => .ok (.choice alternatives :: pieces, behind)
    else if c = '<' then
      match readUntil '>' rest with
      | .error problem => .error problem
      | .ok (text, after) =>
        match readSequence closing fuel after with
        | .error problem => .error problem
        | .ok (pieces, behind) => .ok (.raw text :: pieces, behind)
    else if c = '%' then
      match readUntil '%' rest with
      | .error problem => .error problem
      | .ok (text, after) =>
        if (typeName text).isEmpty then .error ⟨after.length, .emptyType⟩
        else
          match readSequence closing fuel after with
          | .error problem => .error problem
          | .ok (pieces, behind) =>
            .ok (.argument (String.ofList (typeName text)) :: pieces, behind)
    else if c = '\\' then
      match rest with
      | [] => .error ⟨0, .danglingEscape⟩
      | escaped :: after =>
        match readSequence closing fuel after with
        | .error problem => .error problem
        | .ok (pieces, behind) => .ok (.literal escaped :: pieces, behind)
    else if c = ' ' then
      match readSequence closing fuel (rest.dropWhile (· == ' ')) with
      | .error problem => .error problem
      | .ok (pieces, behind) => .ok (.blanks :: pieces, behind)
    else if c = ']' || c = ')' || c = '|' then .error ⟨rest.length + 1, .unbalanced c⟩
    else
      match readSequence closing fuel rest with
      | .error problem => .error problem
      | .ok (pieces, behind) => .ok (.literal c :: pieces, behind)

/-- Read the alternatives of a choice up to the bracket that closes it, which is dropped. -/
def readAlternatives (close : Char) :
    Nat → List Char → Except NotationError (List Alternative × List Char)
  | 0, chars => .error ⟨chars.length, .missing close⟩
  | fuel + 1, chars =>
    let marked := readMark chars
    match readSequence (some close) fuel marked.2 with
    | .error problem => .error problem
    | .ok (_, []) => .error ⟨0, .missing close⟩
    | .ok (body, c :: after) =>
      if c = '|' then
        match readAlternatives close fuel after with
        | .error problem => .error problem
        | .ok (others, behind) => .ok (.mk marked.1 body :: others, behind)
      else if c = close then .ok ([.mk marked.1 body], after)
      else .error ⟨after.length + 1, .missing close⟩

end

/-- Read a whole pattern. -/
def readPattern (chars : List Char) : Except NotationError (List Piece) :=
  match readSequence none (2 * chars.length + 1) chars with
  | .error problem => .error problem
  | .ok (pieces, []) => .ok pieces
  | .ok (_, c :: rest) => .error ⟨rest.length + 1, .unexpected c⟩

end Piece

end ScriptBinding
