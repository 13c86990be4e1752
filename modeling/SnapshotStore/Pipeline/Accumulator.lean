import SnapshotStore.Number.Arithmetic
import SnapshotStore.Value.Order

/-!
# Accumulators

An accumulator folds one value from each document of a group into a single value: their number,
sum or mean, the least or greatest, a list of all or of the different ones. Sums and means pass
over everything but numbers. The extremes pass over null and over values that do not compare with
the one kept so far, and keep the first of several alike.
-/

namespace SnapshotStore

/-- A way to fold the values of a group. -/
inductive Accumulator where
  | count
  | sum
  | mean
  | least
  | greatest
  | collect
  | distinct
deriving DecidableEq

namespace Accumulator

/-- Every accumulator. -/
def all : List Accumulator := [count, sum, mean, least, greatest, collect, distinct]

/-- An accumulator as pipelines write it. -/
def name : Accumulator → String
  | count => "$count"
  | sum => "$sum"
  | mean => "$avg"
  | least => "$min"
  | greatest => "$max"
  | collect => "$push"
  | distinct => "$addToSet"

/-- The accumulator of a name. -/
def ofName? : Value → Option Accumulator
  | .str name => all.find? fun acc => acc.name == name
  | _ => none

end Accumulator

/-- What an accumulator has gathered so far. -/
inductive Tally where
  | count (documents : Nat)
  | sum (total : Number)
  | mean (total : Number) (numbers : Nat)
  | least (best : Value)
  | greatest (best : Value)
  | collect (items : List Value)
  | distinct (items : List Value)

namespace Tally

/-- Nothing gathered yet. -/
def start : Accumulator → Tally
  | .count => .count 0
  | .sum => .sum .zero
  | .mean => .mean .zero 0
  | .least => .least .null
  | .greatest => .greatest .null
  | .collect => .collect []
  | .distinct => .distinct []

/-- A number, if the value is one; booleans are none. -/
def number? : Value → Option Number
  | .int n => some (.int n)
  | .float x => some (.float x)
  | _ => none

/-- The better of the value kept and a new one, which replaces it only when it stands to it in
the wanted relation. -/
def better (wanted : Relation) (best v : Value) : Value :=
  match best, v with
  | best, .null => best
  | .null, v => v
  | best, v => if v.relate? best == some wanted then v else best

/-- Gather the value of one more document. -/
def add (v : Value) : Tally → Except ArithmeticError Tally
  | .count documents => .ok (.count (documents + 1))
  | .sum total => match number? v with
    | some n => do .ok (.sum (← total.add n))
    | none => .ok (.sum total)
  | .mean total numbers => match number? v with
    | some n => do .ok (.mean (← total.add n) (numbers + 1))
    | none => .ok (.mean total numbers)
  | .least best => .ok (.least (better .less best v))
  | .greatest best => .ok (.greatest (better .greater best v))
  | .collect items => .ok (.collect (items ++ [v]))
  | .distinct items =>
    .ok (.distinct (if items.any (·.agrees v) then items else items ++ [v]))

/-- The value gathered. -/
def result : Tally → Except ArithmeticError Value
  | .count documents => .ok (.int documents)
  | .sum (.int n) => .ok (.int n)
  | .sum (.float x) => .ok (.float x)
  | .mean _ 0 => .ok .null
  | .mean total numbers => do .ok (.float (← total.divide numbers))
  | .least best => .ok best
  | .greatest best => .ok best
  | .collect items => .ok (.list items)
  | .distinct items => .ok (.list items)

end Tally

end SnapshotStore
