import ScriptBinding.Regex.Code

/-! # Matching

The code of an expression is run over a text by threads in order of preference, all at the same
place of the text. Before the next character is taken, every thread is followed to the instructions
that wait for one. An instruction is reached once at each place: a second way to it could only lead
where the first already leads, and comes behind it.
-/

namespace ScriptBinding

/-- A place of a text. -/
structure Place where
  /-- How many characters stand before the place. -/
  offset : Nat := 0
  /-- The last of them. -/
  before : Option Char := none
  /-- The characters after it. -/
  rest : List Char
deriving DecidableEq, Repr

namespace Regex

/-- What the named groups have taken, the latest first. -/
abbrev Bindings := List (String × List Char)

/-- A character on this side of the place belongs to a word. -/
def wordOn (side : Option Char) : Bool :=
  side.any Text.isWord

/-- The condition holds at the place. -/
def holds (condition : Edge) (place : Place) : Bool :=
  let left := wordOn place.before
  let right := wordOn place.rest.head?
  match condition with
  | .textStart => place.before.isNone
  | .textEnd => place.rest.isEmpty
  | .lineStart => place.before.all (· == '\n')
  | .lineEnd => place.rest.head?.all (· == '\n')
  | .wordEdge => left != right
  | .noWordEdge => left == right
  | .wordStart => !left && right
  | .wordEnd => left && !right

/-- A named group started or ended at a place. -/
structure Mark where
  name : String
  opens : Bool
  /-- How many characters stand before the place. -/
  offset : Nat
deriving DecidableEq, Repr

/-- One way through the code: where it stands, and the marks it has passed, the latest first. -/
structure Thread where
  address : Nat := 0
  marks : List Mark := []
deriving DecidableEq, Repr

/-- The thread at another address. -/
def Thread.at (address : Nat) (thread : Thread) : Thread :=
  { thread with address := address }

/-- The thread at the next address. -/
def Thread.next (thread : Thread) : Thread :=
  thread.at (thread.address + 1)

/-- A list of instructions to run. -/
structure Machine where
  code : Array Instruction
deriving DecidableEq, Repr

namespace Machine

/-- The code of an expression, which accepts behind its last instruction. -/
def ofReduced (expr : Reduced) : Machine :=
  ⟨(expr.code 0 ++ [Instruction.accept]).toArray⟩

/-- The threads that are opened by an instruction that takes no character. -/
def successors (place : Place) (thread : Thread) : Instruction → List Thread
  | .take _ | .accept => []
  | .check condition => if holds condition place then [thread.next] else []
  | .mark name opens =>
    [{ thread.next with marks := ⟨name, opens, place.offset⟩ :: thread.marks }]
  | .jump target => [thread.at target]
  | .fork first second => [thread.at first, thread.at second]

/-- Threads that have been followed as far as they go without a character. -/
structure Settled where
  /-- Those that wait for a character, the preferred one first. -/
  waiting : List Thread := []
  /-- The marks of the thread that has accepted; what is less preferred has been given up. -/
  accepted : Option (List Mark) := none
deriving DecidableEq, Repr

/-- Follow threads in order of preference to the instructions that wait for a character, given the
addresses reached so far. The fuel bounds the number of threads looked at. -/
def follow (machine : Machine) (place : Place) :
    Nat → List Nat → List Thread → List Thread → Settled
  | 0, _, found, _ | _ + 1, _, found, [] => ⟨found.reverse, none⟩
  | fuel + 1, reached, found, thread :: others =>
    if reached.contains thread.address then machine.follow place fuel reached found others
    else
      let reached := thread.address :: reached
      match machine.code[thread.address]? with
      | none => machine.follow place fuel reached found others
      | some (.take _) => machine.follow place fuel reached (thread :: found) others
      | some .accept => ⟨found.reverse, some thread.marks⟩
      | some instruction =>
        machine.follow place fuel reached found
          (successors place thread instruction ++ others)

/-- Follow threads to the instructions that wait for a character. Each address is left once, by two
ways at most, which bounds the number of threads looked at. -/
def settle (machine : Machine) (place : Place) (threads : List Thread) : Settled :=
  machine.follow place (threads.length + 2 * machine.code.size + 1) [] [] threads

/-- The thread behind a character, if it waits for that one. -/
def advance (machine : Machine) (c : Char) (thread : Thread) : Option Thread :=
  match machine.code[thread.address]? with
  | some (.take chars) => if chars.contains c then some thread.next else none
  | _ => none

/-- Run threads over the rest of a text. The answer is that of the most preferred thread that
accepts at all, which is the last one to accept. -/
def run (machine : Machine) (offset : Nat) (before : Option Char) :
    List Char → List Thread → Option (List Mark) → Option (List Mark)
  | [], threads, best => (machine.settle ⟨offset, before, []⟩ threads).accepted.or best
  | c :: rest, threads, best =>
    let settled := machine.settle ⟨offset, before, c :: rest⟩ threads
    let best := settled.accepted.or best
    match settled.waiting.filterMap (machine.advance c) with
    | [] => best
    | threads => machine.run (offset + 1) (some c) rest threads best

/-- The marks of the first match from this place on. -/
def searchFrom (machine : Machine) (offset : Nat) (before : Option Char) :
    List Char → Option (List Mark)
  | [] => machine.run offset before [] [{}] none
  | c :: rest =>
    match machine.run offset before (c :: rest) [{}] none with
    | some marks => some marks
    | none => machine.searchFrom (offset + 1) (some c) rest

/-- What the groups have taken that end at some marks. -/
def bindings (text : List Char) : List Mark → Bindings
  | [] => []
  | mark :: earlier =>
    if mark.opens then bindings text earlier
    else
      match earlier.find? fun other => other.opens && other.name == mark.name with
      | none => bindings text earlier
      | some start =>
        (mark.name, (text.drop start.offset).take (mark.offset - start.offset)) ::
          bindings text earlier

/-- The texts of the named groups in the first match. -/
def search? (machine : Machine) (text : List Char) : Option Bindings :=
  (machine.searchFrom 0 none text).map (bindings text)

/-- The expression matches some part of the text. -/
def matchesIn (machine : Machine) (text : List Char) : Bool :=
  (machine.searchFrom 0 none text).isSome

end Machine

end Regex

end ScriptBinding
