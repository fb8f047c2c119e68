import ScriptBinding.Number.Binary64
import ScriptBinding.Number.Integer
import ScriptBinding.Text.Case

/-! # Decimal texts of numbers

Reading rounds the written decimal once. Writing gives the fewest digits that read back, and of
those the nearest; a layout says where the point and the exponent go.
-/

namespace ScriptBinding.Number

/-- What the text of a number stands for. -/
inductive Reading where
  | finite (value : Binary64)
  | infinite (negative : Bool)
  | notANumber

/-- The number nearest to `digits` times a power of ten. Powers far beyond the range are not worked
out. -/
def ofDecimal (negative : Bool) (digits : Nat) (power : Int) : Reading :=
  let scale : Int := (Nat.toDigits 10 digits).length + power
  if digits = 0 || scale < -330 then .finite (Binary64.zero negative)
  else if 310 < scale then .infinite negative
  else
    let num := digits * Nat.pow 10 power.toNat
    let den := Nat.pow 10 (-power).toNat
    match Binary64.ofRatio? negative num den with
    | some value => .finite value
    | none => .infinite negative

/-- Read the exponent behind a decimal: nothing, or a letter, a sign and digits. -/
def readExponent? (chars : List Char) : Option Int :=
  match chars with
  | [] => some 0
  | c :: rest =>
    if c == 'e' || c == 'E' then
      match rest with
      | '-' :: digits => (readDigits? digits).map fun value => -(value : Int)
      | '+' :: digits => (readDigits? digits).map fun value => (value : Int)
      | digits => (readDigits? digits).map fun value => (value : Int)
    else none

/-- Read a decimal without its sign: digits, with a point somewhere among them, and an exponent. -/
def readUnsigned? (negative : Bool) (chars : List Char) : Option Reading :=
  let whole := chars.takeWhile Text.isAsciiDigit
  let behind := chars.drop whole.length
  let pointed := behind.head? == some '.'
  let part := if pointed then (behind.drop 1).takeWhile Text.isAsciiDigit else []
  let rest := if pointed then behind.drop (1 + part.length) else behind
  if whole.isEmpty && part.isEmpty then none
  else
    (readExponent? rest).map fun power =>
      ofDecimal negative (digitsValue (whole ++ part)) (power - part.length)

/-- Read a number, or one of the words for what is not finite, with an optional sign. -/
def read? (text : List Char) : Option Reading :=
  let negative := text.head? == some '-'
  let body := if negative || text.head? == some '+' then text.drop 1 else text
  let word := String.ofList (body.map Text.asciiLower)
  if word = "inf" || word = "infinity" then some (.infinite negative)
  else if word = "nan" then some .notANumber
  else readUnsigned? negative body

/-- Read a finite number. -/
def readFinite? (text : List Char) : Option Binary64 :=
  match read? text with
  | some (.finite value) => some value
  | _ => none

/-- A ratio is at least a power of ten. -/
def atLeastPower (num den : Nat) (power : Int) : Bool :=
  den * Nat.pow 10 power.toNat ≤ num * Nat.pow 10 (-power).toNat

/-- The number of digits before the point of a positive ratio; below one it is not positive and
counts the zeros behind the point. -/
def wholeDigits (num den : Nat) : Int :=
  let guess : Int := ((num.log2 : Int) - den.log2) * 1233 / 4096
  let near : List Int := [guess - 1, guess, guess + 1, guess + 2]
  (near.find? fun count => !atLeastPower num den count).getD (guess + 3)

/-- The point of a grid of tens that is nearest to a number, among those that are rounded to the
number, as a multiple of the grid. -/
def nearestOnGrid? (x : Binary64) (tieUp : Bool) (grid : Int) : Option Nat :=
  let unit := Nat.pow 10 grid.toNat
  let finer := Nat.pow 10 (-grid).toNat
  -- four times the number and the ends of the interval that is rounded to it
  let value := 4 * x.num * finer
  let narrow := x.mantissa = Nat.pow 2 52 && x.exponent != -1074
  let step := Nat.pow 2 x.exponent.toNat * finer
  let high := value + 2 * step
  let low := value - (if narrow then step else 2 * step)
  let spacing := 4 * x.den * unit
  let below := value / spacing
  let fits (point : Nat) : Bool :=
    let place := point * spacing
    if x.mantissa % 2 == 0 then low ≤ place && place ≤ high else low < place && place < high
  let downFits := fits below && below != 0
  let upFits := fits (below + 1)
  let rest := 2 * (value % spacing)
  if downFits && upFits then
    some (if spacing < rest || rest == spacing && (tieUp || below % 2 == 1) then below + 1
      else below)
  else if downFits then some below
  else if upFits then some (below + 1)
  else none

/-- Remove the zeros at the end of a number of digits, counting them. -/
def dropZeros : Nat → Nat → Int → Nat × Int
  | 0, digits, power => (digits, power)
  | fuel + 1, digits, power =>
    if digits % 10 == 0 && digits != 0 then dropZeros fuel (digits / 10) (power + 1)
    else (digits, power)

/-- The fewest digits, and the power of ten behind them, that read back as a number other than
zero. -/
def shortest (x : Binary64) (tieUp : Bool) : Nat × Int :=
  let whole := wholeDigits x.num x.den
  let grids := (List.range 17).map fun (count : Nat) => whole - 1 - (count : Int)
  match grids.findSome? fun grid => (nearestOnGrid? x tieUp grid).map (·, grid) with
  | some (digits, grid) => dropZeros 400 digits grid
  | none => (0, 0)

/-- How the digits of a number are laid out. -/
structure Layout where
  /-- With more digits before the point an exponent is written; none is never written without a
  bound. -/
  maxWhole : Option Nat
  /-- With more zeros behind the point an exponent is written. -/
  maxZeros : Option Nat
  /-- Whole numbers end in a point and a zero. -/
  pointed : Bool
  /-- A tie between two texts goes up. -/
  tieUp : Bool

/-- The count stays within the bound. -/
def within (bound : Option Nat) (count : Int) : Bool :=
  bound.all fun most => count ≤ most

/-- Lay out digits whose point stands behind the given number of them. -/
def Layout.place (layout : Layout) (digits : List Char) (point : Int) : List Char :=
  if 0 < point && within layout.maxWhole point then
    if digits.length ≤ point then
      digits ++ List.replicate (point - digits.length).toNat '0' ++
        (if layout.pointed then ['.', '0'] else [])
    else digits.take point.toNat ++ '.' :: digits.drop point.toNat
  else if point ≤ 0 && within layout.maxZeros (-point) then
    '0' :: '.' :: List.replicate (-point).toNat '0' ++ digits
  else
    let power := point - 1
    let sign := if power < 0 then '-' else '+'
    let mantissa := match digits with
      | [single] => [single]
      | first :: others => first :: '.' :: others
      | [] => []
    mantissa ++ 'e' :: sign :: Nat.toDigits 10 power.natAbs

/-- The text of a number. -/
def Layout.render (layout : Layout) (x : Binary64) : String :=
  let body :=
    if x.mantissa = 0 then if layout.pointed then "0.0".toList else ['0']
    else
      let (digits, power) := shortest x layout.tieUp
      let chars := Nat.toDigits 10 digits
      layout.place chars (chars.length + power)
  String.ofList (if x.negative then '-' :: body else body)

end ScriptBinding.Number
