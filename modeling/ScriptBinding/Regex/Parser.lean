import ScriptBinding.Number.Integer
import ScriptBinding.Regex.Basic

/-! # Reading regular expressions

The written form of regular expressions: literals, classes, groups, choices, repetitions, anchors,
escapes and flags. A text that is not well formed is refused.
-/

namespace ScriptBinding.Regex

/-- The flags in force at a place of an expression. -/
structure Flags where
  /-- Letters stand for their case class. -/
  ignoreCase : Bool := false
  /-- The dot matches line feeds too. -/
  dotAll : Bool := false
  /-- Anchors match at line feeds too. -/
  multiLine : Bool := false
  /-- Repetitions are lazy unless a question mark follows. -/
  swapGreed : Bool := false
deriving DecidableEq, Repr

/-- The characters that have to be escaped to stand for themselves. -/
def metaCharacters : List Char :=
  ['\\', '.', '+', '*', '?', '(', ')', '|', '[', ']', '\x7b', '\x7d', '^', '$', '#', '&', '-', '~']

/-- The character as an expression that matches it alone. -/
def escape (c : Char) : List Char :=
  if metaCharacters.contains c then ['\\', c] else [c]

/-- What an escape stands for. -/
inductive Escape where
  | literal (c : Char)
  | chars (set : CharSet)
  | edge (condition : Edge)

/-- The value of a hexadecimal digit. -/
def hexValue? (c : Char) : Option Nat :=
  if Text.isAsciiDigit c then some (c.toNat - '0'.toNat)
  else if 'a' ≤ c && c ≤ 'f' then some (c.toNat - 'a'.toNat + 10)
  else if 'A' ≤ c && c ≤ 'F' then some (c.toNat - 'A'.toNat + 10)
  else none

/-- The character with a hexadecimal number. -/
def hexChar? (digits : List Char) : Option Char :=
  if digits.isEmpty then none
  else
    match digits.mapM hexValue? with
    | none => none
    | some values =>
      let point := values.foldl (fun total value => 16 * total + value) 0
      if h : point.isValidChar then some (Char.ofNatAux point h) else none

/-- Read a character given by its number: a fixed count of digits, or any number in braces. -/
def readHex? (width : Nat) (chars : List Char) : Option (Char × List Char) :=
  match chars with
  | '\x7b' :: rest =>
    match rest.dropWhile (· != '\x7d') with
    | [] => none
    | _ :: after => (hexChar? (rest.takeWhile (· != '\x7d'))).map (·, after)
  | _ =>
    if chars.length < width then none
    else (hexChar? (chars.take width)).map (·, chars.drop width)

/-- Read what follows a backslash. -/
def readEscape? : List Char → Option (Escape × List Char)
  | [] => none
  | c :: rest =>
    match c with
    | 'd' => some (.chars .digit, rest)
    | 'D' => some (.chars (.complement .digit), rest)
    | 'w' => some (.chars .word, rest)
    | 'W' => some (.chars (.complement .word), rest)
    | 's' => some (.chars .blank, rest)
    | 'S' => some (.chars (.complement .blank), rest)
    | 'a' => some (.literal '\x07', rest)
    | 'f' => some (.literal '\x0c', rest)
    | 't' => some (.literal '\t', rest)
    | 'n' => some (.literal '\n', rest)
    | 'r' => some (.literal '\r', rest)
    | 'v' => some (.literal '\x0b', rest)
    | 'x' => (readHex? 2 rest).map fun read => (.literal read.1, read.2)
    | 'u' => (readHex? 4 rest).map fun read => (.literal read.1, read.2)
    | 'U' => (readHex? 8 rest).map fun read => (.literal read.1, read.2)
    | 'A' => some (.edge .textStart, rest)
    | 'z' => some (.edge .textEnd, rest)
    | 'b' => some (.edge .wordEdge, rest)
    | 'B' => some (.edge .noWordEdge, rest)
    | '<' => some (.edge .wordStart, rest)
    | '>' => some (.edge .wordEnd, rest)
    | _ =>
      if c.toNat < 128 && !Text.isAsciiLetter c && !Text.isAsciiDigit c then
        some (.literal c, rest)
      else none

/-- A member of a bracketed class: one character, or a class of its own. -/
inductive Member where
  | literal (c : Char)
  | chars (set : CharSet)

/-- The set of a member. -/
def Member.set (ignoreCase : Bool) : Member → CharSet
  | literal c => .foldIf ignoreCase (.single c)
  | chars named => named

/-- Read one member of a bracketed class. -/
def readMember? : List Char → Option (Member × List Char)
  | [] => none
  | '\\' :: rest =>
    match readEscape? rest with
    | some (.literal c, after) => some (.literal c, after)
    | some (.chars named, after) => some (.chars named, after)
    | _ => none
  | c :: rest => some (.literal c, rest)

/-- Read a member of a bracketed class, or a range between two characters. -/
def readRange? (ignoreCase : Bool) (chars : List Char) : Option (CharSet × List Char) :=
  match readMember? chars with
  | none => none
  | some (first, '-' :: next :: rest) =>
    if next == ']' || next == '-' then some (first.set ignoreCase, '-' :: next :: rest)
    else
      match first, readMember? (next :: rest) with
      | .literal low, some (.literal high, after) =>
        if low ≤ high then some (.foldIf ignoreCase (.range low high), after) else none
      | _, _ => none
  | some (first, rest) => some (first.set ignoreCase, rest)

/-- How two sets are combined inside a bracketed class. -/
inductive SetOperator where
  | inter
  | minus
  | symmetric

/-- The combination of two sets. -/
def SetOperator.apply : SetOperator → CharSet → CharSet → CharSet
  | inter, a, b => .inter a b
  | minus, a, b => .inter a (.complement b)
  | symmetric, a, b => .union (.inter a (.complement b)) (.inter b (.complement a))

/-- The named classes of ASCII characters. -/
def asciiClass? (name : String) : Option CharSet :=
  let upper : CharSet := .range 'A' 'Z'
  let lower : CharSet := .range 'a' 'z'
  let digits : CharSet := .range '0' '9'
  match name with
  | "alnum" => some (.union (.union upper lower) digits)
  | "alpha" => some (.union upper lower)
  | "ascii" => some (.range '\x00' '\x7f')
  | "blank" => some (.union (.single ' ') (.single '\t'))
  | "cntrl" => some (.union (.range '\x00' '\x1f') (.single '\x7f'))
  | "digit" => some digits
  | "graph" => some (.range '!' '~')
  | "lower" => some lower
  | "print" => some (.range ' ' '~')
  | "punct" =>
    some (.union (.union (.range '!' '/') (.range ':' '@'))
      (.union (.range '[' (Char.ofNat 96)) (.range '\x7b' '~')))
  | "space" => some (.union (.range '\t' '\r') (.single ' '))
  | "upper" => some upper
  | "word" => some (.union (.union upper lower) (.union digits (.single '_')))
  | "xdigit" => some (.union digits (.union (.range 'A' 'F') (.range 'a' 'f')))
  | _ => none

/-- Read a named class, from behind its opening bracket. -/
def readNamed? (ignoreCase : Bool) (chars : List Char) : Option (CharSet × List Char) :=
  match chars with
  | ':' :: rest =>
    let negated := rest.head? == some '^'
    let rest := if negated then rest.drop 1 else rest
    let name := rest.takeWhile Text.isAsciiLetter
    match rest.drop name.length with
    | ':' :: ']' :: after =>
      (asciiClass? (String.ofList name)).map fun named =>
        let chars := CharSet.foldIf ignoreCase named
        (if negated then .complement chars else chars, after)
    | _ => none
  | _ => none

/-- A set of characters as it is written, with classes nested so deep. -/
structure WrittenSet where
  chars : CharSet
  nesting : Nat := 0

/-- A bracketed class that is being read. -/
structure OpenClass where
  negated : Bool
  /-- What stands before the last operator, and that operator. -/
  pending : Option (WrittenSet × SetOperator) := none
  /-- The members read since. -/
  members : CharSet := .none
  /-- How many they are. -/
  count : Nat := 0
  /-- How deep the classes among them are nested. -/
  nesting : Nat := 0

/-- The members read since the last operator. Several of them are one level. -/
def OpenClass.operand (open' : OpenClass) : WrittenSet :=
  ⟨open'.members, if open'.count < 2 then open'.nesting else open'.nesting + 1⟩

/-- Everything read so far. An operator with what it combines is one level. -/
def OpenClass.content (open' : OpenClass) : WrittenSet :=
  match open'.pending with
  | none => open'.operand
  | some (left, operator) =>
    ⟨operator.apply left.chars open'.members, 1 + max left.nesting open'.operand.nesting⟩

/-- The set of a class, once it is closed. -/
def OpenClass.close (open' : OpenClass) : WrittenSet :=
  let content := open'.content
  ⟨if open'.negated then content.chars.complement else content.chars, 1 + content.nesting⟩

/-- Add a set to the members of a class. -/
def OpenClass.add (member : WrittenSet) (open' : OpenClass) : OpenClass :=
  { open' with
    members := open'.members.union member.chars
    count := open'.count + 1
    nesting := max open'.nesting member.nesting }

/-- Start the operand behind an operator. -/
def OpenClass.combine (operator : SetOperator) (open' : OpenClass) : OpenClass :=
  { negated := open'.negated, pending := some (open'.content, operator) }

/-- Open a class behind its bracket: a sign of negation, hyphens, and a closing bracket that comes
first and so stands for itself. -/
def openClass (ignoreCase : Bool) (chars : List Char) : OpenClass × List Char :=
  let negated := chars.head? == some '^'
  let chars := if negated then chars.drop 1 else chars
  let hyphens := chars.takeWhile (· == '-')
  let chars := chars.drop hyphens.length
  let start := hyphens.foldl (fun open' hyphen => open'.add ⟨.single hyphen, 0⟩)
    ({ negated := negated } : OpenClass)
  match hyphens, chars with
  | [], ']' :: rest => (start.add ⟨.foldIf ignoreCase (.single ']'), 0⟩, rest)
  | _, _ => (start, chars)

/-- Read the members of a class up to its closing bracket, with the classes it is nested in. -/
def readClass? (ignoreCase : Bool) :
    Nat → OpenClass → List OpenClass → List Char → Option (WrittenSet × List Char)
  | 0, _, _, _ => none
  | _ + 1, _, _, [] => none
  | fuel + 1, current, outer, ']' :: rest =>
    match outer with
    | [] => some (current.close, rest)
    | parent :: others => readClass? ignoreCase fuel (parent.add current.close) others rest
  | fuel + 1, current, outer, '[' :: rest =>
    match readNamed? ignoreCase rest with
    | some (chars, after) => readClass? ignoreCase fuel (current.add ⟨chars, 0⟩) outer after
    | none =>
      let inner := openClass ignoreCase rest
      readClass? ignoreCase fuel inner.1 (current :: outer) inner.2
  | fuel + 1, current, outer, '&' :: '&' :: rest =>
    readClass? ignoreCase fuel (current.combine .inter) outer rest
  | fuel + 1, current, outer, '-' :: '-' :: rest =>
    readClass? ignoreCase fuel (current.combine .minus) outer rest
  | fuel + 1, current, outer, '~' :: '~' :: rest =>
    readClass? ignoreCase fuel (current.combine .symmetric) outer rest
  | fuel + 1, current, outer, chars =>
    match readRange? ignoreCase chars with
    | none => none
    | some (member, rest) => readClass? ignoreCase fuel (current.add ⟨member, 0⟩) outer rest

/-- Read a decimal number with blanks around it. -/
def readCount? (chars : List Char) : Option (Nat × List Char) :=
  let chars := chars.dropWhile Text.isBlank
  let digits := chars.takeWhile Text.isAsciiDigit
  let value := Number.digitsValue digits
  if digits.isEmpty || Nat.pow 2 32 ≤ value then none
  else some (value, (chars.drop digits.length).dropWhile Text.isBlank)

/-- Read the bounds of a repetition behind the opening brace. -/
def readBounds? (chars : List Char) : Option (Nat × Option Nat × List Char) :=
  match readCount? chars with
  | some (least, '\x7d' :: rest) => some (least, some least, rest)
  | some (least, ',' :: rest) =>
    match rest.dropWhile Text.isBlank with
    | '\x7d' :: after => some (least, none, after)
    | more =>
      match readCount? more with
      | some (most, '\x7d' :: after) =>
        if least ≤ most then some (least, some most, after) else none
      | _ => none
  | _ => none

/-- Set or clear one flag. -/
def Flags.put (flags : Flags) (letter : Char) (on : Bool) : Option Flags :=
  match letter with
  | 'i' => some { flags with ignoreCase := on }
  | 's' => some { flags with dotAll := on }
  | 'm' => some { flags with multiLine := on }
  | 'U' => some { flags with swapGreed := on }
  | 'u' => if on then some flags else none
  | _ => none

/-- Read flags up to the bracket or colon behind them; no letter may be repeated, and one has to
follow a sign of negation. -/
def readFlags? (flags : Flags) (on : Bool) (seen : List Char) :
    List Char → Option (Flags × List Char)
  | [] => none
  | c :: rest =>
    if c == ')' || c == ':' then
      if seen.head? == some '-' || seen.isEmpty && c == ')' then none else some (flags, c :: rest)
    else if c == '-' then
      if on then readFlags? flags false ('-' :: seen) rest else none
    else if seen.contains c then none
    else
      match flags.put c on with
      | none => none
      | some flags => readFlags? flags on (c :: seen) rest

/-- How a bracket opens. -/
inductive Opening where
  /-- A group, with the flags inside it. -/
  | group (bracket : Bracket) (flags : Flags)
  /-- New flags for the rest of the surrounding group. -/
  | flags (flags : Flags)

/-- The character may stand in the name of a group. -/
def isNameCharacter (first : Bool) (c : Char) : Bool :=
  c == '_' || (Text.isWord c && !(first && Text.isDigit c)) ||
    (!first && (c == '.' || c == '[' || c == ']'))

/-- Read the name of a group up to the bracket behind it. -/
def readName? (chars : List Char) : Option (String × List Char) :=
  let name := chars.takeWhile (· != '>')
  match name, chars.drop name.length with
  | first :: others, _ :: rest =>
    if isNameCharacter true first && others.all (isNameCharacter false) then
      some (String.ofList name, rest)
    else none
  | _, _ => none

/-- Read what follows an opening bracket. -/
def readOpening? (flags : Flags) (chars : List Char) : Option (Opening × List Char) :=
  match chars with
  | '?' :: 'P' :: '<' :: rest | '?' :: '<' :: rest =>
    if rest.head? == some '=' || rest.head? == some '!' then none
    else (readName? rest).map fun read => (.group (.named read.1) flags, read.2)
  | '?' :: rest =>
    match readFlags? flags true [] rest with
    | some (inner, ':' :: after) => some (.group .plain inner, after)
    | some (inner, _ :: after) => some (.flags inner, after)
    | _ => none
  | _ => some (.group .counted flags, chars)

/-- Read the question mark that changes the greed of a repetition. -/
def readGreed (flags : Flags) (chars : List Char) : Bool × List Char :=
  match chars with
  | '?' :: rest => (flags.swapGreed, rest)
  | _ => (!flags.swapGreed, chars)

/-- The expressions of a choice that is being read, the latest first, and those of its last
alternative. -/
structure OpenGroup where
  alternatives : List Regex := []
  items : List Regex := []
  /-- There is an expression that a repetition can be put on. -/
  repeatable : Bool := false

/-- Put an expression behind the others. -/
def OpenGroup.add (item : Regex) (group : OpenGroup) : OpenGroup :=
  { group with items := item :: group.items, repeatable := true }

/-- Start the next alternative. -/
def OpenGroup.next (group : OpenGroup) : OpenGroup :=
  ⟨catAll group.items.reverse :: group.alternatives, [], false⟩

/-- Put a repetition on the last expression. -/
def OpenGroup.repeated (least : Nat) (most : Option Nat) (greedy : Bool) (group : OpenGroup) :
    OpenGroup :=
  match group.items with
  | [] => group
  | last :: others => { group with items := .repeated least most greedy last :: others }

/-- The expression of a choice, once it is closed. -/
def OpenGroup.close (group : OpenGroup) : Regex :=
  altAll group.next.alternatives.reverse

/-- Read a choice up to the bracket that closes it, or to the end. -/
def readChoice? : Nat → Flags → OpenGroup → List Char → Option (Regex × List Char)
  | 0, _, _, _ => none
  | _ + 1, _, state, [] => some (state.close, [])
  | fuel + 1, flags, state, c :: rest =>
    let repetition (least : Nat) (most : Option Nat) (rest : List Char) :=
      if state.repeatable then
        let greed := readGreed flags rest
        readChoice? fuel flags (state.repeated least most greed.1) greed.2
      else none
    match c with
    | ')' => some (state.close, c :: rest)
    | '|' => readChoice? fuel flags state.next rest
    | '*' => repetition 0 none rest
    | '+' => repetition 1 none rest
    | '?' => repetition 0 (some 1) rest
    | '\x7b' =>
      match readBounds? rest with
      | some (least, most, after) => repetition least most after
      | none => none
    | '(' =>
      match readOpening? flags rest with
      | none => none
      | some (.flags inner, after) =>
        readChoice? fuel inner { state with items := .empty :: state.items, repeatable := false }
          after
      | some (.group bracket inner, after) =>
        match readChoice? fuel inner {} after with
        | some (body, ')' :: behind) =>
          readChoice? fuel flags (state.add (.group bracket body)) behind
        | _ => none
    | '[' =>
      let opened := openClass flags.ignoreCase rest
      match readClass? flags.ignoreCase fuel opened.1 [] opened.2 with
      | some (written, after) =>
        readChoice? fuel flags (state.add (.set written.chars written.nesting)) after
      | none => none
    | '.' =>
      let chars := if flags.dotAll then CharSet.all else .exceptLineFeed
      readChoice? fuel flags (state.add (.oneOf chars)) rest
    | '^' =>
      let condition := if flags.multiLine then Edge.lineStart else .textStart
      readChoice? fuel flags (state.add (.edge condition)) rest
    | '$' =>
      let condition := if flags.multiLine then Edge.lineEnd else .textEnd
      readChoice? fuel flags (state.add (.edge condition)) rest
    | '\\' =>
      match readEscape? rest with
      | some (.literal c, after) =>
        readChoice? fuel flags (state.add (.oneOf (.foldIf flags.ignoreCase (.single c)))) after
      | some (.chars named, after) => readChoice? fuel flags (state.add (.oneOf named)) after
      | some (.edge condition, after) =>
        readChoice? fuel flags (state.add (.edge condition)) after
      | none => none
    | c => readChoice? fuel flags (state.add (.oneOf (.foldIf flags.ignoreCase (.single c)))) rest

/-- Read a whole text as an expression. -/
def read? (flags : Flags) (chars : List Char) : Option Regex :=
  match readChoice? (chars.length + 1) flags {} chars with
  | some (regex, []) => some regex
  | _ => none

end ScriptBinding.Regex
