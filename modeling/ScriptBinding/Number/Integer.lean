import ScriptBinding.Text.Letter

/-! # Reading integers

Integers are written in ASCII digits, with an optional sign, and have to lie in the range asked for.
-/

namespace ScriptBinding.Number

/-- The value of a run of digits. -/
def digitsValue (digits : List Char) : Nat :=
  digits.foldl (fun value c => 10 * value + (c.toNat - '0'.toNat)) 0

/-- The value of a text made of at least one digit and nothing else. -/
def readDigits? (chars : List Char) : Option Nat :=
  if chars.isEmpty || !chars.all Text.isAsciiDigit then none else some (digitsValue chars)

/-- A natural number below a bound, with an optional plus sign. -/
def readNat? (bound : Nat) (chars : List Char) : Option Nat :=
  let digits := match chars with
    | '+' :: rest => rest
    | _ => chars
  (readDigits? digits).filter (· < bound)

/-- An integer from `-bound` up to and without `bound`, with an optional sign. -/
def readInt? (bound : Nat) (chars : List Char) : Option Int :=
  match chars with
  | '-' :: digits => ((readDigits? digits).filter (· ≤ bound)).map fun value => -(value : Int)
  | '+' :: digits => ((readDigits? digits).filter (· < bound)).map fun value => (value : Int)
  | digits => ((readDigits? digits).filter (· < bound)).map fun value => (value : Int)

end ScriptBinding.Number
