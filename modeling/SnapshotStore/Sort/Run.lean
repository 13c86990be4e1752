import SnapshotStore.Sort.Search

/-!
# Runs

A run is a stretch of the input already in order: either no element is less than its predecessor,
or every element is, and then the stretch is turned round. Short runs are extended to a least
length by inserting the elements that follow, each behind the last element it is not less than.
-/

namespace SnapshotStore.Sort

variable {m : Type → Type} [Monad m] {α : Type}

/-- Split off the elements that go on without falling below their predecessor. -/
def climb (lt : α → α → m Bool) (last : α) : List α → m (List α × List α)
  | [] => pure ([], [])
  | x :: xs => do
    if ← lt x last then pure ([], x :: xs)
    else
      let (run, rest) ← climb lt x xs
      pure (x :: run, rest)

/-- Split off the elements that go on falling, turning them round onto those before. -/
def fall (lt : α → α → m Bool) (last : α) (turned : List α) : List α → m (List α × List α)
  | [] => pure (turned, [])
  | x :: xs => do
    if ← lt x last then fall lt x (x :: turned) xs
    else pure (turned, x :: xs)

/-- Split off the run at the start. -/
def splitRun (lt : α → α → m Bool) : List α → m (List α × List α)
  | [] => pure ([], [])
  | [x] => pure ([x], [])
  | x :: y :: rest => do
    if ← lt y x then fall lt y [y, x] rest
    else
      let (run, rest) ← climb lt y rest
      pure (x :: y :: run, rest)

/-- Insert an element into a run. -/
def insertInto (lt : α → α → m Bool) (run : List α) (x : α) : m (List α) := do
  let place ← bisect (fun y => lt x y) run 0 run.length
  pure (run.take place ++ x :: run.drop place)

/-- Insert elements one after the other. -/
def insertAll (lt : α → α → m Bool) (run : List α) : List α → m (List α)
  | [] => pure run
  | x :: xs => do insertAll lt (← insertInto lt run x) xs

/-- Split off the run at the start, extended to a least length while there are elements. -/
def nextRun (lt : α → α → m Bool) (least : Nat) (xs : List α) : m (List α × List α) := do
  let (run, rest) ← splitRun lt xs
  let missing := least - run.length
  let run ← insertAll lt run (rest.take missing)
  pure (run, rest.drop missing)

/-- Halve a length until it is below 64, rounding up if anything was lost. -/
def leastRun (length : Nat) (lost : Nat := 0) : Nat :=
  if length < 64 then length + lost
  else leastRun (length / 2) (max lost (length % 2))
termination_by length

end SnapshotStore.Sort
