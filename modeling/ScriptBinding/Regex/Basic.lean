import ScriptBinding.Regex.CharSet

/-! # Regular expressions

The tree of a regular expression as it is written. Alternatives and repetitions are ordered: of
several ways to match, the one that comes first counts.
-/

namespace ScriptBinding

/-- A condition on a place of a text that takes no characters. -/
inductive Edge where
  | textStart
  | textEnd
  | lineStart
  | lineEnd
  | wordEdge
  | noWordEdge
  | wordStart
  | wordEnd
deriving DecidableEq, Repr

/-- What brackets around an expression do. -/
inductive Bracket where
  /-- They only hold it together. -/
  | plain
  /-- They count as a group, but its text is not asked for. -/
  | counted
  /-- Its text is kept under a name. -/
  | named (name : String)
deriving DecidableEq, Repr

/-- The name under which a text is kept. -/
def Bracket.name? : Bracket → Option String
  | named name => some name
  | plain | counted => none

/-- A regular expression. -/
inductive Regex where
  /-- The empty text. -/
  | empty
  /-- One character of a set, which is written with classes nested so deep. -/
  | set (chars : CharSet) (nesting : Nat)
  /-- A condition on the place. -/
  | edge (condition : Edge)
  /-- One expression behind the other. -/
  | cat (first second : Regex)
  /-- The first expression, or else the second. -/
  | alt (first second : Regex)
  /-- At least and at most so many copies; a greedy repetition prefers more of them. -/
  | repeated (least : Nat) (most : Option Nat) (greedy : Bool) (body : Regex)
  /-- A bracketed expression. -/
  | group (bracket : Bracket) (body : Regex)
deriving DecidableEq, Repr

namespace Regex

/-- One character of a set that is written without a bracketed class. -/
def oneOf (chars : CharSet) : Regex :=
  .set chars 0

/-- The expressions of a list, one behind the other. -/
def catAll : List Regex → Regex
  | [] => .empty
  | [last] => last
  | first :: others => .cat first (catAll others)

/-- The expressions of a list, earlier ones preferred. -/
def altAll : List Regex → Regex
  | [] => .empty
  | [last] => last
  | first :: others => .alt first (altAll others)

/-- What an expression stands directly below. -/
inductive Parent where
  | sequence
  | choice
  | other
deriving DecidableEq

/-- How deep sequences, choices, repetitions, brackets and classes are nested. A sequence or a
choice of several expressions is one level. -/
def depthBelow : Parent → Regex → Nat
  | _, empty | _, edge _ => 0
  | _, set _ nesting => nesting
  | parent, cat a b =>
    (if parent = .sequence then 0 else 1) + max (depthBelow .sequence a) (depthBelow .sequence b)
  | parent, alt a b =>
    (if parent = .choice then 0 else 1) + max (depthBelow .choice a) (depthBelow .choice b)
  | _, repeated _ _ _ body => 1 + depthBelow .other body
  | _, group _ body => 1 + depthBelow .other body

/-- How deep the parts of an expression are nested. -/
def depth (regex : Regex) : Nat :=
  depthBelow .other regex

/-- Expressions that are nested deeper are refused. -/
def maxDepth : Nat := 250

/-- The names of the groups, in the order in which they open. -/
def groupNames : Regex → List String
  | empty | set _ _ | edge _ => []
  | cat a b | alt a b => a.groupNames ++ b.groupNames
  | repeated _ _ _ body => body.groupNames
  | group bracket body => bracket.name?.toList ++ body.groupNames

end Regex

end ScriptBinding
