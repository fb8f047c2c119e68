import ScriptBinding.Regex.Reduced

/-! # Code

An expression is run as a list of instructions. Each goes on to the next one, unless it jumps or
forks: at a fork two ways are open, the first one preferred. The code of an expression ends where
the code behind it starts.
-/

namespace ScriptBinding.Regex

/-- An instruction. -/
inductive Instruction where
  /-- Take one character of a set. -/
  | take (chars : CharSet)
  /-- Go on if the condition holds. -/
  | check (condition : Edge)
  /-- A named group starts or ends here. -/
  | mark (name : String) (opens : Bool)
  /-- Go on at another address. -/
  | jump (target : Nat)
  /-- Go on at the first address, or else at the second. -/
  | fork (first second : Nat)
  /-- The expression has matched. -/
  | accept
deriving DecidableEq, Repr

namespace Reduced

/-- A fork that goes on or leaves; a greedy one prefers to go on. -/
def goOnOr (greedy : Bool) (goOn leave : Nat) : Instruction :=
  if greedy then .fork goOn leave else .fork leave goOn

/-- How many instructions an expression has. -/
def codeLength : Reduced → Nat
  | empty => 0
  | literal chars => chars.length
  | set _ | edge _ => 1
  | group none body => body.codeLength
  | group (some _) body => body.codeLength + 2
  | repeated 0 none _ body => body.codeLength + 2
  | repeated (least + 1) none _ body => (least + 1) * body.codeLength + 1
  | repeated least (some most) _ body =>
    least * body.codeLength + (most - least) * (body.codeLength + 1)
  | cat a b => a.codeLength + b.codeLength
  | alt a b => a.codeLength + b.codeLength + 2

/-- So many copies of some code in a row, given by its address, from an address on. -/
def inARow (body : Nat → List Instruction) (length start count : Nat) : List Instruction :=
  (List.range count).flatMap fun number => body (start + number * length)

/-- The instructions of an expression whose code starts at the given address.

After the required copies of a repetition without a bound, a fork behind the last one leads back to
its start. Where no copy is required, a copy that takes something is put behind such a fork; one
that may take nothing is made optional as a whole, because the fork that follows it has to be
reached through it. The further copies of a bounded repetition each stand behind a fork that
leaves. -/
def code (start : Nat) : Reduced → List Instruction
  | empty => []
  | literal chars => chars.map fun c => .take (.single c)
  | set chars => [.take chars]
  | edge condition => [.check condition]
  | group none body => body.code start
  | group (some name) body => .mark name true :: body.code (start + 1) ++ [.mark name false]
  | repeated 0 none greedy body =>
    let leave := start + body.codeLength + 2
    if body.takesSome then
      goOnOr greedy (start + 1) leave :: body.code (start + 1) ++ [.jump start]
    else
      goOnOr greedy (start + 1) leave :: body.code (start + 1) ++ [goOnOr greedy (start + 1) leave]
  | repeated (least + 1) none greedy body =>
    let last := start + least * body.codeLength
    inARow (fun address => body.code address) body.codeLength start (least + 1) ++
      [goOnOr greedy last (last + body.codeLength + 1)]
  | repeated least (some most) greedy body =>
    let optional := start + least * body.codeLength
    let leave := optional + (most - least) * (body.codeLength + 1)
    inARow (fun address => body.code address) body.codeLength start least ++
      inARow (fun address => goOnOr greedy (address + 1) leave :: body.code (address + 1))
        (body.codeLength + 1) optional (most - least)
  | cat a b => a.code start ++ b.code (start + a.codeLength)
  | alt a b =>
    let second := start + a.codeLength + 2
    .fork (start + 1) second :: a.code (start + 1) ++
      .jump (second + b.codeLength) :: b.code second

end Reduced

end ScriptBinding.Regex
