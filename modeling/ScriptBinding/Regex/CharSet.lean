import ScriptBinding.Text.Blank
import ScriptBinding.Text.Case

/-! # Sets of characters

The sets a regular expression can ask for at one place of a text. A set is the list of its ranges
of code points, in ascending order and with a gap between any two, so that equal sets are equal
lists.
-/

namespace ScriptBinding

/-- A set of characters. -/
structure CharSet where
  /-- The first and last code points of its ranges. -/
  ranges : List (Nat × Nat)
deriving DecidableEq, Repr

namespace CharSet

/-- The last code point. -/
def lastPoint : Nat := 0x10FFFF

/-- The code point belongs to the set. -/
def hasPoint (a : CharSet) (point : Nat) : Bool :=
  Text.inRanges a.ranges point

/-- Membership in a set of characters. -/
def contains (a : CharSet) (c : Char) : Bool :=
  a.hasPoint c.toNat

/-- The set without members. -/
def none : CharSet := ⟨[]⟩

/-- Every character. -/
def all : CharSet := ⟨[(0, lastPoint)]⟩

/-- One character. -/
def single (c : Char) : CharSet := ⟨[(c.toNat, c.toNat)]⟩

/-- The characters from the first to the last. -/
def range (first last : Char) : CharSet := ⟨[(first.toNat, last.toNat)]⟩

/-- Put a range among others, one with those it meets or touches. -/
def insertRange (first last : Nat) : List (Nat × Nat) → List (Nat × Nat)
  | [] => [(first, last)]
  | (low, high) :: others =>
    if last + 1 < low then (first, last) :: (low, high) :: others
    else if high + 1 < first then (low, high) :: insertRange first last others
    else insertRange (min first low) (max last high) others

/-- The members of either set. -/
def union (a b : CharSet) : CharSet :=
  ⟨b.ranges.foldl (fun ranges piece => insertRange piece.1 piece.2 ranges) a.ranges⟩

/-- What the ranges leave out from a code point on. -/
def gapsFrom (next : Nat) : List (Nat × Nat) → List (Nat × Nat)
  | [] => if next ≤ lastPoint then [(next, lastPoint)] else []
  | (low, high) :: others =>
    if next < low then (next, low - 1) :: gapsFrom (high + 1) others
    else gapsFrom (high + 1) others

/-- The characters that are not in the set. -/
def complement (a : CharSet) : CharSet :=
  ⟨gapsFrom 0 a.ranges⟩

/-- The members of both sets. -/
def inter (a b : CharSet) : CharSet :=
  (a.complement.union b.complement).complement

/-- The set with some more code points. -/
def addPoints (a : CharSet) (points : List Nat) : CharSet :=
  ⟨points.foldl (fun ranges point => insertRange point point ranges) a.ranges⟩

/-- Some code point from the first to the last belongs to the set. -/
def meets (a : CharSet) (first last : Nat) : Bool :=
  a.ranges.any fun piece => piece.1 ≤ last && first ≤ piece.2

/-- The chosen members of the case classes of the members that are not chosen themselves. -/
def chosenImages (a : CharSet) : List Nat :=
  Text.foldEntries.flatMap fun entry =>
    if a.meets entry.first entry.last then (entry.points.filter a.hasPoint).map entry.image else []

/-- The code points whose chosen member is in the set. -/
def foldSources (a : CharSet) : List Nat :=
  Text.foldEntries.flatMap fun entry =>
    if a.meets (entry.image entry.first) (entry.image entry.last) then
      entry.points.filter fun point => a.hasPoint (entry.image point)
    else []

/-- Every character whose case class meets the set: the chosen members of the classes of its
members are added, and then the other members of the classes of those. -/
def folded (a : CharSet) : CharSet :=
  let chosen := a.addPoints a.chosenImages
  chosen.addPoints chosen.foldSources

/-- The set, or every character whose case class meets it. -/
def foldIf (ignoreCase : Bool) (a : CharSet) : CharSet :=
  if ignoreCase then a.folded else a

/-- Decimal digits. -/
def digit : CharSet := ⟨(48, 57) :: Text.digitRanges⟩

/-- The characters words are made of. -/
def word : CharSet := ⟨(48, 57) :: (65, 90) :: (95, 95) :: (97, 122) :: Text.wordRanges⟩

/-- Blank characters. -/
def blank : CharSet :=
  ⟨[(9, 13), (32, 32), (0x85, 0x85), (0xA0, 0xA0), (0x1680, 0x1680), (0x2000, 0x200A),
    (0x2028, 0x2029), (0x202F, 0x202F), (0x205F, 0x205F), (0x3000, 0x3000)]⟩

/-- Every character but the line feed. -/
def exceptLineFeed : CharSet :=
  (single '\n').complement

/-- The only member of a set that has but one. -/
def only? (a : CharSet) : Option Nat :=
  match a.ranges with
  | [(low, high)] => if low = high then some low else .none
  | _ => .none

end CharSet

end ScriptBinding
