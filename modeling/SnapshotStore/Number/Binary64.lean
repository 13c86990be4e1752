/-!
# Binary floating-point numbers

A finite number is held exactly: a sign, a significand below `2^53` and a shift, standing for
`± significand · 2^(shift - 1074)`. Every finite number is thus a whole multiple of the *unit*
`2^-1074`, and all arithmetic below is integer arithmetic on such multiples followed by one
rounding (`roundUnits`, to nearest, ties to even).

The representation is canonical, so two numbers are the same exactly when their fields are.
-/

namespace SnapshotStore

namespace Binary64

/-- The field ranges of a finite number: a full significand, or the smallest shift. -/
def Canonical (significand shift : Nat) : Prop :=
  significand < Nat.pow 2 53 ∧ shift ≤ 2045 ∧ (shift = 0 ∨ Nat.pow 2 52 ≤ significand)

instance (significand shift : Nat) : Decidable (Canonical significand shift) :=
  inferInstanceAs (Decidable (_ ∧ _ ∧ _))

/-- A finite number, `± significand · 2^(shift - 1074)`. -/
structure Finite where
  negative : Bool
  significand : Nat
  shift : Nat
  canonical : Canonical significand shift
deriving DecidableEq

end Binary64

/-- A double-precision number. Undefined results are told apart by a tag, because containers
compare an undefined element as equal to itself and as different from any other one. -/
inductive Binary64 where
  | finite (x : Binary64.Finite)
  | infinite (negative : Bool)
  | nan (tag : Nat)
deriving DecidableEq

namespace Binary64

/-- Units of `2^-1074` in one. -/
def unitsPerOne : Nat := Nat.pow 2 1074

/-- The size in units. -/
def Finite.magnitude (x : Finite) : Nat := x.significand <<< x.shift

/-- The value in units. -/
def Finite.units (x : Finite) : Int :=
  if x.negative then -(x.magnitude : Int) else x.magnitude

theorem canonical_zero : Canonical 0 0 := by decide

/-- Zero of either sign. -/
def zero (negative : Bool) : Binary64 := .finite ⟨negative, 0, 0, canonical_zero⟩

instance : Inhabited Binary64 := ⟨zero false⟩

/-- A number from its fields; a significand or shift out of range is an overflow. -/
def pack (negative : Bool) (significand shift : Nat) : Binary64 :=
  if h : Canonical significand shift then .finite ⟨negative, significand, shift, h⟩
  else .infinite negative

/-- Round the quotient `num / den` units to the nearest number, a tie to the even significand. -/
def roundUnits (negative : Bool) (num den : Nat) : Binary64 :=
  let shift := Nat.log2 (num / den) - 52
  let step := den <<< shift
  let low := num / step
  let rest := num % step
  let significand :=
    if step < 2 * rest ∨ (2 * rest = step ∧ low % 2 = 1) then low + 1 else low
  if significand = Nat.pow 2 53 then pack negative (Nat.pow 2 52) (shift + 1)
  else pack negative significand shift

/-- The number nearest to an integer; infinite when the integer is out of range. -/
def ofInt (n : Int) : Binary64 :=
  roundUnits (n < 0) (n.natAbs * unitsPerOne) 1

/-- The number nearest to the quotient of an integer by a positive count. -/
def ofQuotient (n : Int) (count : Nat) : Binary64 :=
  roundUnits (n < 0) (n.natAbs * unitsPerOne) count

/-- The sum, rounded. Opposite infinities have no sum; a zero sum is negative only when both
summands are. -/
def add : Binary64 → Binary64 → Binary64
  | .nan t, _ => .nan t
  | _, .nan t => .nan t
  | .infinite s, .infinite t => if s = t then .infinite s else .nan 0
  | .infinite s, .finite _ => .infinite s
  | .finite _, .infinite t => .infinite t
  | .finite x, .finite y =>
    let sum := x.units + y.units
    if sum = 0 then zero (x.negative && y.negative)
    else roundUnits (sum < 0) sum.natAbs 1

/-- The quotient by a positive count, rounded. -/
def divide : Binary64 → Nat → Binary64
  | .finite x, count => roundUnits x.negative x.magnitude count
  | x, _ => x

/-- The integer that the number equals, if it is one. -/
def toInt? : Binary64 → Option Int
  | .finite x => if x.units % unitsPerOne = 0 then some (x.units / unitsPerOne) else none
  | _ => none

/-- Neither infinite nor undefined. -/
def isFinite : Binary64 → Bool
  | .finite _ => true
  | _ => false

/-- The undefined number. -/
def isNaN : Binary64 → Bool
  | .nan _ => true
  | _ => false

end Binary64

/-! ## Places on the number line -/

/-- A place on the extended number line, in units of `2^-1074`. -/
inductive Place where
  | below
  | at (units : Int)
  | above
deriving DecidableEq

namespace Place

/-- The order of the extended line. -/
def compare : Place → Place → Ordering
  | .below, .below => .eq
  | .below, _ => .lt
  | _, .below => .gt
  | .above, .above => .eq
  | .above, _ => .gt
  | _, .above => .lt
  | .at m, .at n => Ord.compare m n

/-- An integer's place. -/
def ofInt (n : Int) : Place := .at (n * Binary64.unitsPerOne)

/-- A floating-point number's place; the undefined number has none. -/
def ofBinary64? : Binary64 → Option Place
  | .finite x => some (.at x.units)
  | .infinite negative => some (if negative then .below else .above)
  | .nan _ => none

end Place

end SnapshotStore
