import ScriptBinding.Regex.ByteRange
import ScriptBinding.Regex.Reduced

/-! # The size of the automaton of an expression

An expression stands for an automaton over the bytes of UTF-8, which is laid out once to be run
forwards, with its groups, and once to be run backwards, without them. An expression with more
nodes and ways between them than fit into a given room is refused. Sets of characters share nodes
that lead on in the same way, as far as a table of limited size remembers them.
-/

namespace ScriptBinding.Regex

/-- The size of a part of an automaton. -/
structure Footprint where
  /-- How many nodes there are. -/
  nodes : Nat := 0
  /-- The room for the ways that lead from them, where a node does not have it itself. -/
  ways : Nat := 0
deriving DecidableEq, Repr

namespace Footprint

/-- The room that automata may take. -/
def room : Nat := 10485760

/-- The room for one node. -/
def nodeRoom : Nat := 32

/-- The room for a way by a range of bytes. -/
def byteWay : Nat := 8

/-- The room for a way that takes nothing. -/
def freeWay : Nat := 4

/-- The automaton is not too large. -/
def fits (print : Footprint) : Bool :=
  print.nodes * nodeRoom + print.ways ≤ room

/-- Add nodes and room for their ways, if they fit. -/
def add (nodes ways : Nat) (print : Footprint) : Option Footprint :=
  let larger : Footprint := ⟨print.nodes + nodes, print.ways + ways⟩
  if larger.fits then some larger else none

/-- Do something so many times. -/
def times (step : Footprint → Option Footprint) : Nat → Footprint → Option Footprint
  | 0, print => some print
  | count + 1, print =>
    match step print with
    | none => none
    | some larger => times step count larger

end Footprint

/-- A table of nodes that may be shared, by what they lead to. Each entry has one place, at which a
later one takes over. -/
structure NodeTable where
  /-- How many places there are. -/
  places : Nat
  /-- The keys and nodes at the places that are taken. -/
  entries : List (Nat × List Nat × Nat) := []

namespace NodeTable

/-- The place of a key: its numbers are mixed one after the other into a word of 64 bits. -/
def placeOf (table : NodeTable) (key : List Nat) : Nat :=
  let mixed := key.foldl
    (fun (word : UInt64) number => (word ^^^ number.toUInt64) * 1099511628211)
    14695981039346656037
  mixed.toNat % table.places

/-- The node with the given key, if the table has it. -/
def find? (table : NodeTable) (key : List Nat) : Option Nat :=
  match table.entries.lookup (table.placeOf key) with
  | some (known, node) => if known = key then some node else none
  | none => none

/-- Remember a node. -/
def insert (table : NodeTable) (key : List Nat) (node : Nat) : NodeTable :=
  { table with entries := (table.placeOf key, key, node) :: table.entries }

end NodeTable

/-- An automaton in the making, with the nodes that can be shared. -/
structure SharedFootprint where
  print : Footprint
  table : NodeTable

namespace SharedFootprint

/-- The node for a key, which is added with room for its ways unless the table has it. -/
def node (key : List Nat) (ways : Nat) (shared : SharedFootprint) :
    Option (Nat × SharedFootprint) :=
  match shared.table.find? key with
  | some node => some (node, shared)
  | none =>
    (shared.print.add 1 ways).map fun larger =>
      (shared.print.nodes, ⟨larger, shared.table.insert key shared.print.nodes⟩)

/-- The node from which some sequences of bytes lead to a target. Sequences that begin alike stand
side by side. The fuel bounds their length. -/
def start (target : Nat) :
    Nat → List (List ByteRange) → SharedFootprint → Option (Nat × SharedFootprint)
  | 0, _, shared => some (target, shared)
  | fuel + 1, sequences, shared =>
    if sequences.all List.isEmpty then some (target, shared)
    else
      let groups := sequences.splitBy fun a b => a.head? == b.head?
      let step (state : List Nat × SharedFootprint) (group : List (List ByteRange)) :=
        (start target fuel (group.map List.tail) state.2).map fun (node, shared) =>
          match group.head?.bind List.head? with
          | some range => (state.1 ++ [range.first, range.last, node], shared)
          | none => (state.1, shared)
      (groups.foldlM step ([], shared)).bind fun (key, shared) =>
        shared.node key (groups.length * Footprint.byteWay)

/-- The node to which a sequence of bytes leads backwards from a target. -/
def reach : List ByteRange → Nat → SharedFootprint → Option (Nat × SharedFootprint)
  | [], target, shared => some (target, shared)
  | range :: others, target, shared =>
    match shared.node [target, range.first, range.last] 0 with
    | none => none
    | some (node, shared) => reach others node shared

end SharedFootprint

namespace Footprint

/-- Add a set of characters. One of ASCII characters alone takes two nodes. Forwards, another set
shares the nodes its sequences have in common at their ends; backwards, those they have in common
at their beginnings. -/
def addSet (forward : Bool) (chars : CharSet) (print : Footprint) : Option Footprint :=
  let sequences := ByteRange.sequences chars
  if chars.ranges.all (·.2 < 0x80) then print.add 2 (chars.ranges.length * byteWay)
  else if forward then do
    let larger ← print.add 1 0
    let (_, shared) ← SharedFootprint.start print.nodes 4 sequences ⟨larger, { places := 10000 }⟩
    return shared.print
  else do
    let larger ← print.add 2 (sequences.length * freeWay)
    let shared ← sequences.foldlM (fun shared sequence =>
      (SharedFootprint.reach sequence (print.nodes + 1) shared).map Prod.snd)
      (⟨larger, { places := 1000 }⟩ : SharedFootprint)
    return shared.print

/-- The parts between the empty members of a list of texts. -/
def parts : List (List Nat) → List (List (List Nat))
  | [] => [[]]
  | [] :: others => [] :: parts others
  | text :: others =>
    match parts others with
    | [] => [[text]]
    | first :: later => (text :: first) :: later

/-- What a choice between texts of bytes takes below their common beginning. A text that ends here
divides those before it from those after it. The fuel bounds the length of the texts. -/
def trie : Nat → List (List Nat) → Footprint
  | 0, _ => {}
  | fuel + 1, texts =>
    if texts.all List.isEmpty then {}
    else
      let chunks := (parts (texts.dropWhile List.isEmpty)).map fun part =>
        (part.filterMap List.head?).eraseDups.map fun byte =>
          (part.filter (·.head? == some byte)).map List.tail
      let ends := chunks.length - 1 + if texts.head? = some [] then 1 else 0
      let used := chunks.filter (!·.isEmpty)
      let wide := (used.map List.length).filter (1 < ·)
      let own : Footprint :=
        ⟨used.length + 1, wide.foldl (· + · * byteWay) ((used.length + ends) * freeWay)⟩
      (used.flatten.map (trie fuel)).foldl
        (fun total below => ⟨total.nodes + below.nodes, total.ways + below.ways⟩) own

end Footprint

/-- An alternative that is added to an automaton. -/
structure Branch where
  /-- Its bytes in the order in which they are met, when it is a literal. -/
  literal? : Option (List Nat) := none
  add : Footprint → Option Footprint

/-- Add some alternatives. Of several literals alone, those that begin alike share nodes; otherwise
the node at which they part and the one at which they meet come behind the second one. -/
def Branch.addAll (branches : List Branch) (print : Footprint) : Option Footprint :=
  match branches, branches.mapM literal? with
  | [], _ => some print
  | [only], _ => only.add print
  | _ :: _ :: _, some texts =>
    let below := Footprint.trie ((texts.map List.length).foldl max 0 + 1) texts
    print.add (below.nodes + 1) below.ways
  | first :: second :: others, none => do
    let print ← first.add print
    let print ← second.add print
    let print ← print.add 2 (branches.length * Footprint.freeWay)
    others.foldlM (fun print branch => branch.add print) print

namespace Reduced

/-- The alternatives of an expression, as they are added to an automaton. A repetition takes a node
for each fork, and one at which its ways meet, unless the fork itself is that one. -/
def added (forward : Bool) : Reduced → List Branch
  | empty | edge _ => [{ add := Footprint.add 1 0 }]
  | literal chars =>
    let bytes := chars.flatMap fun c => ByteRange.encode c.toNat
    [{ literal? := some (if forward then bytes else bytes.reverse)
       add := Footprint.add bytes.length 0 }]
  | set chars => [{ add := Footprint.addSet forward chars }]
  | group _ body =>
    let inner := Branch.addAll (body.added forward)
    [{ add := fun print =>
        if forward then do (← inner (← print.add 1 0)).add 1 0 else inner print }]
  | repeated least most _ body =>
    let inner := Branch.addAll (body.added forward)
    let fork := 2 * Footprint.freeWay
    [{ add := fun print =>
        match least, most with
        | 0, some 1 => do (← inner (← print.add 1 fork)).add 1 0
        | 0, none =>
          if body.takesSome then do inner (← print.add 1 fork)
          else do (← inner print).add 3 (2 * fork)
        | least, none => do (← Footprint.times inner least print).add 1 fork
        | least, some most =>
          if least = most then Footprint.times inner least print
          else do
            let print ← if least = 0 then print.add 1 0 else Footprint.times inner least print
            Footprint.times (fun print => do inner (← print.add 1 fork)) (most - least)
              (← print.add 1 0) }]
  | cat a b =>
    let first := Branch.addAll (a.added forward)
    let second := Branch.addAll (b.added forward)
    [{ add := fun print =>
        if forward then (first print).bind second else (second print).bind first }]
  | alt a b => a.added forward ++ b.added forward

/-- The automata of an expression are not too large. Both start with a node of their own and end
with one that accepts; forwards the whole expression is a group. -/
def fits (expr : Reduced) : Bool :=
  let whole (forward : Bool) := do
    let frame := if forward then 2 else 1
    let print ← Footprint.add frame 0 {}
    (← Branch.addAll (expr.added forward) print).add frame 0
  (whole true).isSome && (whole false).isSome

end Reduced

end ScriptBinding.Regex
