import ScriptBinding.Regex.CharSet

/-! # Sets of characters as sequences of bytes

A range of code points is divided so that the UTF-8 forms of each part have the same length and
vary independently at each of their bytes. A part is then a sequence of ranges of bytes.
-/

namespace ScriptBinding.Regex

/-- The bytes from the first to the last. -/
structure ByteRange where
  first : Nat
  last : Nat
deriving DecidableEq, Repr

namespace ByteRange

/-- The bytes of a code point in UTF-8. -/
def encode (point : Nat) : List Nat :=
  if point < 0x80 then [point]
  else if point < 0x800 then [0xC0 + point / 64, 0x80 + point % 64]
  else if point < 0x10000 then
    [0xE0 + point / 4096, 0x80 + point / 64 % 64, 0x80 + point % 64]
  else
    [0xF0 + point / 262144, 0x80 + point / 4096 % 64, 0x80 + point / 64 % 64, 0x80 + point % 64]

/-- Where a range of code points begins and ends in the middle of a block of the given size, it is
divided at the first end of a block, or else before its last block. -/
def blockCut? (first last block : Nat) : Option Nat :=
  if first / block = last / block then none
  else if first % block ≠ 0 then some (first / block * block + block - 1)
  else if last % block ≠ block - 1 then some (last / block * block - 1)
  else none

/-- The last code point of the first part, when a range has to be divided: where the length of the
form changes, and where only a part of the values of a later byte occurs. -/
def cut? (first last : Nat) : Option Nat :=
  match [0x7F, 0x7FF, 0xFFFF].find? fun point => first ≤ point && point < last with
  | some point => some point
  | none => if last ≤ 0x7F then none else [64, 4096, 262144].findSome? (blockCut? first last)

/-- The sequences for a range of code points. Surrogates have no form in UTF-8. The fuel bounds how
often the range is divided. -/
def divide : Nat → Nat → Nat → List (List ByteRange)
  | 0, _, _ => []
  | fuel + 1, first, last =>
    if last < first then []
    else if first < 0xE000 && 0xD7FF < last then
      divide fuel first 0xD7FF ++ divide fuel 0xE000 last
    else
      match cut? first last with
      | some point => divide fuel first point ++ divide fuel (point + 1) last
      | none => [List.zipWith ByteRange.mk (encode first) (encode last)]

/-- The sequences for a set of characters, in ascending order. -/
def sequences (chars : CharSet) : List (List ByteRange) :=
  chars.ranges.flatMap fun range => divide (range.2 - range.1 + 2) range.1 range.2

end ByteRange

end ScriptBinding.Regex
