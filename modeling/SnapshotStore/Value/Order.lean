import SnapshotStore.Value.Equality

/-!
# Order of values

`Value.relate?` says how two values compare, if they compare at all. Numbers and booleans compare
by place, texts and byte strings by code, times in time, sets by inclusion; lists and tuples
compare at their first members that are not alike, or else by length.
-/

namespace SnapshotStore

/-- How two values that compare stand to each other. -/
inductive Relation where
  | less
  | equal
  | greater
  | unordered
deriving DecidableEq

namespace Relation

/-- From an order. -/
def ofOrdering : Ordering → Relation
  | .lt => less
  | .eq => equal
  | .gt => greater

/-- From the two ways in which one set may lie within another. -/
def ofInclusions : (within around : Bool) → Relation
  | true, true => equal
  | true, false => less
  | false, true => greater
  | false, false => unordered

end Relation

namespace Value

/-- How the places of two numbers compare; an undefined number is unordered with every number. -/
def relateNumbers? (a b : Value) : Option Relation :=
  let undefinedA := a.undefinedTag?.isSome
  let undefinedB := b.undefinedTag?.isSome
  match a.place?, b.place? with
  | some p, some q => some (.ofOrdering (p.compare q))
  | some _, none => if undefinedB then some .unordered else none
  | none, some _ => if undefinedA then some .unordered else none
  | none, none => if undefinedA && undefinedB then some .unordered else none

mutual

/-- How two values compare; nothing when they are of kinds that do not. -/
def relate? : Value → Value → Option Relation
  | .str s, .str t => some (.ofOrdering (compare s t))
  | .list xs, .list ys => relateAll? xs ys
  | .tuple xs, .tuple ys => relateAll? xs ys
  | .set xs, .set ys => some (.ofInclusions (alikeWithin xs ys) (alikeWithin ys xs))
  | .bytes xs, .bytes ys => some (.ofOrdering (compare xs ys))
  | .datetime s, .datetime t => (s.compare? t).map .ofOrdering
  | .date c, .date d => some (.ofOrdering (c.compare d))
  | .bool a, b => relateNumbers? (.bool a) b
  | .int a, b => relateNumbers? (.int a) b
  | .float a, b => relateNumbers? (.float a) b
  | _, _ => none

/-- Compare at the first members that are not alike, or else by length. -/
def relateAll? : List Value → List Value → Option Relation
  | [], [] => some .equal
  | [], _ :: _ => some .less
  | _ :: _, [] => some .greater
  | x :: xs, y :: ys => if alike x y then relateAll? xs ys else relate? x y

end

/-- Compares as greater, null and incomparable values never. -/
def isGreater (a b : Value) : Bool :=
  match a, b with
  | .null, _ => false
  | _, .null => false
  | a, b => relate? a b == some .greater

end Value

end SnapshotStore
