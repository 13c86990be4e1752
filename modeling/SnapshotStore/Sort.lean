import SnapshotStore.Sort.Run
import SnapshotStore.Sort.Merge

/-!
# A stable sort

The sort asks only whether one element is less than another. It splits the input into runs and
merges neighbouring runs, in an order that keeps the merges balanced: the gap between two
neighbouring runs has a *power*, the number of binary places after which the midpoints of the two,
as fractions of the whole length, first differ, and gaps of higher power are merged first.

When the relation is not an order (`Pipeline` sorts by such relations) the result depends on which
pairs are compared, so the choice of pairs is part of the meaning of the sort.
-/

namespace SnapshotStore.Sort

variable {m : Type → Type} [Monad m] {α : Type}

/-- A run waiting to be merged: where it starts, and the power of the gap behind it. -/
structure Pending (α : Type) where
  start : Nat
  power : Nat
  items : List α

/-- Binary places until two fractions of the whole differ. -/
def powerOf : (fuel whole a b : Nat) → Nat
  | 0, _, _, _ => 1
  | fuel + 1, whole, a, b =>
    if whole ≤ a then powerOf fuel whole (2 * (a - whole)) (2 * (b - whole)) + 1
    else if whole ≤ b then 1
    else powerOf fuel whole (2 * a) (2 * b) + 1

/-- The power of the gap between two neighbouring runs. -/
def gapPower (whole start length next : Nat) : Nat :=
  let a := 2 * start + length
  powerOf whole whole a (a + length + next)

/-- Merge the last two of the waiting runs while the gap between them has a higher power. The last
run comes first. -/
def mergeAbove (lt : α → α → m Bool) (power : Nat) :
    (fuel : Nat) → (threshold : Nat) → List (Pending α) → m (List (Pending α) × Nat)
  | fuel + 1, threshold, top :: below :: rest => do
    if power < below.power then
      let (items, threshold) ← mergeRuns lt threshold below.items top.items
      mergeAbove lt power fuel threshold ({ below with items } :: rest)
    else pure (top :: below :: rest, threshold)
  | _, threshold, runs => pure (runs, threshold)

/-- Let a run wait behind the others, after merging those that must come before it. -/
def pushRun (lt : α → α → m Bool) (whole threshold start : Nat) (items : List α)
    (runs : List (Pending α)) : m (List (Pending α) × Nat) := do
  match runs with
  | [] => pure ([⟨start, 0, items⟩], threshold)
  | top :: _ =>
    let power := gapPower whole top.start top.items.length items.length
    let (runs, threshold) ← mergeAbove lt power runs.length threshold runs
    match runs with
    | [] => pure ([⟨start, 0, items⟩], threshold)
    | top :: rest => pure (⟨start, 0, items⟩ :: { top with power } :: rest, threshold)

/-- Split the input into runs, merging on the way. -/
def gather (lt : α → α → m Bool) (whole : Nat) :
    (fuel : Nat) → (threshold start : Nat) → List α → List (Pending α) →
      m (List (Pending α) × Nat)
  | fuel + 1, threshold, start, x :: xs, runs => do
    let (run, rest) ← nextRun lt (leastRun whole) (x :: xs)
    let (runs, threshold) ← pushRun lt whole threshold start run runs
    gather lt whole fuel threshold (start + run.length) rest runs
  | _, threshold, _, _, runs => pure (runs, threshold)

/-- Merge all waiting runs, each time the last two, or the two before the last when the last is
longer than the third last. -/
def collapse (lt : α → α → m Bool) :
    (fuel : Nat) → (threshold : Nat) → List (Pending α) → m (List α)
  | fuel + 1, threshold, top :: second :: third :: rest => do
    if third.items.length < top.items.length then
      let (items, threshold) ← mergeRuns lt threshold third.items second.items
      collapse lt fuel threshold (top :: { third with items } :: rest)
    else
      let (items, threshold) ← mergeRuns lt threshold second.items top.items
      collapse lt fuel threshold ({ second with items } :: third :: rest)
  | _, threshold, [top, second] => do
    let (items, _) ← mergeRuns lt threshold second.items top.items
    pure items
  | _, _, runs => pure (runs.reverse.flatMap (·.items))

/-- Sort, asking by an effectful comparison. -/
def sortM (lt : α → α → m Bool) (xs : List α) : m (List α) := do
  let (runs, threshold) ← gather lt xs.length xs.length longStretch 0 xs []
  collapse lt runs.length threshold runs

/-- Sort by a relation. -/
def sort (lt : α → α → Bool) (xs : List α) : List α :=
  Id.run (sortM (fun x y => pure (lt x y)) xs)

end SnapshotStore.Sort
