import ScriptBinding.Regex.Basic

/-! # Reduced expressions

The form in which an expression is run. Sequences and choices are flat and lean to the right, equal
beginnings of all alternatives are taken out of a choice, single characters to choose from are one
set, plain brackets are gone and repetitions that repeat nothing are dropped.
-/

namespace ScriptBinding.Regex

/-- A reduced expression. -/
inductive Reduced where
  /-- The empty text. -/
  | empty
  /-- The given characters, of which there is at least one. -/
  | literal (chars : List Char)
  /-- One character of a set. -/
  | set (chars : CharSet)
  /-- A condition on the place. -/
  | edge (condition : Edge)
  /-- A group, whose text is kept when it has a name. -/
  | group (name : Option String) (body : Reduced)
  /-- At least and at most so many copies; a greedy repetition prefers more of them. -/
  | repeated (least : Nat) (most : Option Nat) (greedy : Bool) (body : Reduced)
  /-- One expression behind the other. -/
  | cat (first rest : Reduced)
  /-- The first expression, or else the rest. -/
  | alt (first rest : Reduced)
deriving DecidableEq, Repr

namespace Reduced

/-- The least length of what an expression matches; a choice from no characters has none, and
passes that on. -/
def leastLength? : Reduced → Option Nat
  | empty | edge _ => some 0
  | literal chars => some chars.length
  | set chars => if chars.ranges.isEmpty then none else some 1
  | group _ body => body.leastLength?
  | repeated least _ _ body => body.leastLength?.map (least * ·)
  | cat a b => a.leastLength?.bind fun m => b.leastLength?.map (m + ·)
  | alt a b => a.leastLength?.bind fun m => b.leastLength?.map (min m ·)

/-- Every match takes at least one character. -/
def takesSome (expr : Reduced) : Bool :=
  expr.leastLength?.any (0 < ·)

/-- No match takes a character. -/
def takesNothing : Reduced → Bool
  | empty | edge _ => true
  | literal _ | set _ => false
  | group _ body => body.takesNothing
  | repeated _ most _ body => most.isSome && body.takesNothing
  | cat a b | alt a b => a.takesNothing && b.takesNothing

/-- The expression has no groups. -/
def groupless : Reduced → Bool
  | empty | literal _ | set _ | edge _ => true
  | group _ _ => false
  | repeated _ _ _ body => body.groupless
  | cat a b | alt a b => a.groupless && b.groupless

/-- How many nodes the expression has. -/
def size : Reduced → Nat
  | empty | set _ | edge _ => 1
  | literal chars => 1 + chars.length
  | group _ body | repeated _ _ _ body => 1 + body.size
  | cat a b | alt a b => 1 + a.size + b.size

/-- One character of a set; that of a set with one member is spelled out. -/
def oneOf (chars : CharSet) : Reduced :=
  match chars.only? with
  | some point => .literal [Char.ofNat point]
  | none => .set chars

/-- The expressions a sequence is made of. -/
def factors : Reduced → List Reduced
  | empty => []
  | cat a b => a :: b.factors
  | expr => [expr]

/-- One expression, which is no sequence, before another. Literals that meet are joined. -/
def prepend (first rest : Reduced) : Reduced :=
  match first, rest with
  | empty, rest => rest
  | first, empty => first
  | literal a, literal b => .literal (a ++ b)
  | literal a, cat (literal b) others => .cat (.literal (a ++ b)) others
  | first, rest => .cat first rest

/-- One expression behind the other, as a flat sequence. -/
def concat (a b : Reduced) : Reduced :=
  a.factors.foldr prepend b

/-- The expressions of a list, one behind the other. -/
def concatAll (exprs : List Reduced) : Reduced :=
  exprs.foldr concat .empty

/-- The expressions a choice is made of. -/
def branches : Reduced → List Reduced
  | alt a b => a :: b.branches
  | expr => [expr]

/-- The choice between some expressions, none of which is a choice. -/
def ofBranches : List Reduced → Reduced
  | [] => .set .none
  | [last] => last
  | first :: others => .alt first (ofBranches others)

/-- The only character of a literal that has but one. -/
def onlyChar? : Reduced → Option Char
  | literal [c] => some c
  | _ => none

/-- The set of an expression that matches one of its characters. -/
def chars? : Reduced → Option CharSet
  | set chars => some chars
  | _ => none

/-- A single expression for a choice between single characters, or between sets. -/
def asOneOf? (exprs : List Reduced) : Option Reduced :=
  match exprs.mapM onlyChar? with
  | some chars => some (.oneOf (CharSet.none.addPoints (chars.map Char.toNat)))
  | none => (exprs.mapM chars?).map fun sets => .oneOf (sets.foldl .union .none)

/-- How many expressions two sequences have in common at their beginnings. An expression with groups
is equal only to itself, and so is not held in common. -/
def commonLength : List Reduced → List Reduced → Nat
  | a :: as, b :: bs => if a = b && a.groupless then commonLength as bs + 1 else 0
  | _, _ => 0

/-- The factors of an expression that is a sequence of several. -/
def sequence? : Reduced → Option (List Reduced)
  | cat a b => some (a :: b.factors)
  | _ => none

/-- How many expressions all of some sequences have in common at their beginnings. -/
def sharedLength : List (List Reduced) → Nat
  | [] => 0
  | first :: others =>
    others.foldl (fun count factors => min count (commonLength first factors)) first.length

/-- The choice between some expressions as a flat one, from which what all alternatives begin with
is taken out, again and again as often as the fuel allows. -/
def choose : Nat → List Reduced → Reduced
  | 0, exprs => ofBranches exprs
  | fuel + 1, exprs =>
    let exprs := exprs.flatMap branches
    match exprs with
    | [] | [_] => ofBranches exprs
    | _ =>
      match asOneOf? exprs with
      | some expr => expr
      | none =>
        match exprs.mapM sequence? with
        | none => ofBranches exprs
        | some sequences =>
          match sharedLength sequences with
          | 0 => ofBranches exprs
          | count + 1 =>
            let first := (sequences.headD []).take (count + 1)
            let endings := sequences.map fun factors => concatAll (factors.drop (count + 1))
            concatAll (first ++ [choose fuel endings])

/-- The choice between some expressions. -/
def choice : List Reduced → Reduced
  | [only] => only
  | exprs => choose ((exprs.map size).foldl (· + ·) 1) exprs

/-- So many copies. Of an expression that takes nothing, one copy is enough. -/
def copies (least : Nat) (most : Option Nat) (greedy : Bool) (body : Reduced) : Reduced :=
  let least' := if body.takesNothing then min least 1 else least
  let most' := if body.takesNothing then some (min (most.getD 1) 1) else most
  if least' = 0 && most' = some 0 then .empty
  else if least' = 1 && most' = some 1 then body
  else .repeated least' most' greedy body

end Reduced

/-- The alternatives of an expression in reduced form. -/
def reducedBranches : Regex → List Reduced
  | empty => [.empty]
  | set chars _ => [.oneOf chars]
  | edge condition => [.edge condition]
  | cat a b => [(Reduced.choice a.reducedBranches).concat (Reduced.choice b.reducedBranches)]
  | alt a b => a.reducedBranches ++ b.reducedBranches
  | repeated least most greedy body =>
    [Reduced.copies least most greedy (Reduced.choice body.reducedBranches)]
  | group .plain body => [Reduced.choice body.reducedBranches]
  | group .counted body => [.group none (Reduced.choice body.reducedBranches)]
  | group (.named name) body => [.group (some name) (Reduced.choice body.reducedBranches)]

/-- An expression in reduced form. -/
def reduced (regex : Regex) : Reduced :=
  Reduced.choice regex.reducedBranches

end ScriptBinding.Regex
