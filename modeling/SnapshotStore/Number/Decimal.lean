import SnapshotStore.Number.Binary64

/-!
# Decimal text of numbers

Reading rounds the exact decimal to the nearest binary number (`Binary64.ofDecimal`). Writing
takes the fewest digits that read back (`Finite.shortest`): on the grids of 1, 2, … 17 digits the
two neighbours of the number are tried, and the first grid on which one of them reads back gives
the digits, the nearer of two, an even last digit on a tie.

`Binary64.text` lays the digits out: positional from `10^-4` up to `10^16`, always with a
fractional part, and otherwise with an exponent of a sign and at least two digits.
-/

namespace SnapshotStore

/-- The digits of a natural number. -/
def digitsOf (n : Nat) : List Char := Nat.toDigits 10 n

/-- The natural number that digits spell; zero for none. -/
def natOfDigits (digits : List Char) : Nat := Nat.ofDigitChars 10 digits 0

/-- The most digits of an integer that is read or written. -/
def maxIntegerDigits : Nat := 4300

/-- The text of an integer. -/
def integerText : Int → List Char
  | .ofNat n => digitsOf n
  | .negSucc n => '-' :: digitsOf (n + 1)

namespace Binary64

/-- The number nearest to `coefficient · 10^exponent`. Decimals beyond the range of numbers are
settled by their order of magnitude, so a huge exponent costs nothing. -/
def ofDecimal (negative : Bool) (coefficient : Nat) (exponent : Int) : Binary64 :=
  if coefficient = 0 then zero negative
  else
    let order := (digitsOf coefficient).length + exponent
    if order > 310 then .infinite negative
    else if order < -330 then zero negative
    else if exponent ≥ 0 then
      roundUnits negative (coefficient * Nat.pow 10 exponent.toNat * unitsPerOne) 1
    else roundUnits negative (coefficient * unitsPerOne) (Nat.pow 10 (-exponent).toNat)

namespace Finite

/-- The least `k` with the number below `10^k` (for a number other than zero). -/
def decimalOrder (x : Finite) : Int :=
  (digitsOf (x.magnitude * Nat.pow 10 400 / unitsPerOne)).length - 400

/-- The neighbours of the number among the multiples of `10^exponent`, each with its distance,
as multiples of a common measure. -/
def neighbours (x : Finite) (exponent : Int) : List (Nat × Nat) :=
  let num := if exponent ≥ 0 then x.magnitude else x.magnitude * Nat.pow 10 (-exponent).toNat
  let den := if exponent ≥ 0 then unitsPerOne * Nat.pow 10 exponent.toNat else unitsPerOne
  let low := num / den
  let rest := num % den
  [(low, rest), (low + 1, den - rest)]

/-- The neighbour on a grid that reads back, the nearer of two. -/
def readable (x : Finite) (exponent : Int) : Option Nat :=
  let hits := (x.neighbours exponent).filter fun (digits, _) =>
    ofDecimal x.negative digits exponent = .finite x
  match hits with
  | [] => none
  | [(digits, _)] => some digits
  | (a, da) :: (b, db) :: _ =>
    some (if da < db then a else if db < da then b else if a % 2 = 0 then a else b)

/-- The fewest digits that read back, as a coefficient and an exponent of ten. The exact decimal
expansion stands in where no grid serves. -/
def shortest (x : Finite) : Nat × Int :=
  let order := x.decimalOrder
  let found := (List.range 17).findSome? fun (n : Nat) =>
    let exponent := order - (n + 1)
    (x.readable exponent).map fun digits => (digits, exponent)
  found.getD (x.magnitude * Nat.pow 5 1074, -1074)

end Finite

/-! ## Layout -/

/-- Exponents from `10^-4` up to below `10^16` are written positionally. -/
def positional (order : Int) : Bool := -4 < order ∧ order ≤ 16

/-- The text of an exponent: a sign and at least two digits. -/
def exponentText (exponent : Int) : List Char :=
  let digits := digitsOf exponent.natAbs
  (if exponent < 0 then '-' else '+') :: (if digits.length < 2 then '0' :: digits else digits)

/-- Lay out significant digits with the decimal point after `order` of them. -/
def layOut (digits : List Char) (order : Int) : List Char :=
  if positional order then
    if order ≤ 0 then '0' :: '.' :: (List.replicate (-order).toNat '0' ++ digits)
    else
      let whole := order.toNat
      if digits.length ≤ whole then
        digits ++ List.replicate (whole - digits.length) '0' ++ ['.', '0']
      else digits.take whole ++ '.' :: digits.drop whole
  else
    let mantissa := match digits with
      | d :: e :: rest => d :: '.' :: e :: rest
      | short => short
    mantissa ++ 'e' :: exponentText (order - 1)

/-- Drop the zeros at the end. -/
def dropTrailingZeros (digits : List Char) : List Char :=
  (digits.reverse.dropWhile (· == '0')).reverse

/-- The text of a finite number's size. -/
def Finite.sizeText (x : Finite) : List Char :=
  if x.significand = 0 then ['0', '.', '0']
  else
    let (coefficient, exponent) := x.shortest
    let digits := digitsOf coefficient
    layOut (dropTrailingZeros digits) (digits.length + exponent)

/-- The shortest text that reads back as the number. -/
def text : Binary64 → List Char
  | .finite x => if x.negative then '-' :: x.sizeText else x.sizeText
  | .infinite negative => if negative then ['-', 'i', 'n', 'f'] else ['i', 'n', 'f']
  | .nan _ => ['n', 'a', 'n']

end Binary64

end SnapshotStore
