/-! # Binary numbers of 64 bits

A finite number is a sign, a mantissa of at most 53 bits and a power of two. Every operation is
exact on ratios of natural numbers and is rounded once, to the nearest number, ties to the even
mantissa.
-/

namespace ScriptBinding

/-- The mantissa and the exponent are those of a finite number. -/
def Binary64.Canonical (mantissa : Nat) (exponent : Int) : Prop :=
  (mantissa < Nat.pow 2 52 ∧ exponent = -1074) ∨
    (Nat.pow 2 52 ≤ mantissa ∧ mantissa < Nat.pow 2 53 ∧ -1074 ≤ exponent ∧ exponent ≤ 971)

/-- A finite number. -/
structure Binary64 where
  negative : Bool
  mantissa : Nat
  exponent : Int
  canonical : Binary64.Canonical mantissa exponent

namespace Binary64

instance (mantissa : Nat) (exponent : Int) : Decidable (Canonical mantissa exponent) :=
  inferInstanceAs (Decidable (_ ∨ _))

deriving instance DecidableEq for Binary64

/-- Zero with a sign. -/
def zero (negative : Bool) : Binary64 :=
  ⟨negative, 0, -1074, Or.inl (by decide)⟩

instance : Inhabited Binary64 := ⟨zero false⟩

/-- The nearest natural number to a ratio, ties to even. -/
def roundRatio (num den : Nat) : Nat :=
  let whole := num / den
  let rest := 2 * (num % den)
  if den < rest || rest == den && whole % 2 == 1 then whole + 1 else whole

/-- The numerator of a ratio divided by a power of two. -/
def shiftedNum (num : Nat) (exponent : Int) : Nat :=
  num * Nat.pow 2 (-exponent).toNat

/-- The denominator of a ratio divided by a power of two. -/
def shiftedDen (den : Nat) (exponent : Int) : Nat :=
  den * Nat.pow 2 exponent.toNat

/-- The power of two at which the mantissa of a ratio is taken. -/
def ratioExponent (num den : Nat) : Int :=
  let guess : Int := (num.log2 : Int) - den.log2 - 52
  let exact :=
    if shiftedNum num guess < shiftedDen den guess * Nat.pow 2 52 then guess - 1 else guess
  max exact (-1074)

/-- The number nearest to a ratio, unless it is too large. -/
def ofRatio? (negative : Bool) (num den : Nat) : Option Binary64 :=
  let exponent := ratioExponent num den
  let mantissa := roundRatio (shiftedNum num exponent) (shiftedDen den exponent)
  let carried :=
    if mantissa = Nat.pow 2 53 then (Nat.pow 2 52, exponent + 1) else (mantissa, exponent)
  if h : Canonical carried.1 carried.2 then some ⟨negative, carried.1, carried.2, h⟩ else none

/-- The numerator of the absolute value. -/
def num (x : Binary64) : Nat :=
  x.mantissa * Nat.pow 2 x.exponent.toNat

/-- The denominator of the absolute value. -/
def den (x : Binary64) : Nat :=
  Nat.pow 2 (-x.exponent).toNat

/-- The number nearest to an integer, unless it is too large. -/
def ofInt? (value : Int) : Option Binary64 :=
  ofRatio? (value < 0) value.natAbs 1

/-- The number nearest to a product, unless it is too large. -/
def mul? (x y : Binary64) : Option Binary64 :=
  ofRatio? (x.negative != y.negative) (x.num * y.num) (x.den * y.den)

/-- The natural number nearest to the absolute value; a half goes up. -/
def roundHalfUp (x : Binary64) : Nat :=
  (2 * x.num + x.den) / (2 * x.den)

end Binary64

end ScriptBinding
