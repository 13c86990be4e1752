import SnapshotStore.Number.Binary64

/-!
# Sums and means

A sum of integers is an exact integer. As soon as a floating-point number takes part, integers are
rounded to floating point first, which fails for an integer out of range. A mean is always a
floating-point number.
-/

namespace SnapshotStore

/-- Why an arithmetic operation fails. -/
inductive ArithmeticError where
  | integerTooLarge
  | quotientTooLarge
deriving DecidableEq

namespace ArithmeticError

/-- What is wrong, in words. -/
def message : ArithmeticError → String
  | integerTooLarge => "int too large to convert to float"
  | quotientTooLarge => "integer division result too large for a float"

end ArithmeticError

/-- A number of either kind. -/
inductive Number where
  | int (n : Int)
  | float (x : Binary64)
deriving DecidableEq

namespace Number

/-- Zero. -/
def zero : Number := .int 0

/-- A finite floating-point number, or an error in its place. -/
def inRange (x : Binary64) (e : ArithmeticError) : Except ArithmeticError Binary64 :=
  if x.isFinite then .ok x else .error e

/-- The number in floating point. -/
def toBinary64 : Number → Except ArithmeticError Binary64
  | .int n => inRange (.ofInt n) .integerTooLarge
  | .float x => .ok x

/-- The sum of two numbers. -/
def add : Number → Number → Except ArithmeticError Number
  | .int m, .int n => .ok (.int (m + n))
  | a, b => do .ok (.float ((← a.toBinary64).add (← b.toBinary64)))

/-- The quotient by a positive count. -/
def divide : Number → Nat → Except ArithmeticError Binary64
  | .int n, count => inRange (.ofQuotient n count) .quotientTooLarge
  | .float x, count => .ok (x.divide count)

end Number

end SnapshotStore
