import SnapshotStore.Sort.Search

/-!
# Merging two runs

Two neighbouring runs are merged so that equal elements keep their order. Elements of the first
run that stay in front, and of the second that stay behind, are found by galloping and left alone.
The rest is merged from the front when the first run is the shorter and from the back otherwise.

A merge counts how often in a row one run gives the next element. At a threshold it goes over to
galloping rounds, which move whole stretches, and comes back when the stretches get short; the
threshold falls while galloping pays and rises when it does not. It is handed on from one merge to
the next. When only one element is left of the run that moves last, the merge ends without further
comparison.
-/

namespace SnapshotStore.Sort

variable {m : Type → Type} [Monad m] {α : Type}

/-- Stretches of at least this length keep a merge galloping. -/
def longStretch : Nat := 7

/-- How a merge is going: counting elements taken in a row from the first and the second run,
galloping, or after a galloping round that moved stretches of the given lengths. -/
inductive Pace where
  | counting (first second : Nat)
  | galloping
  | moved (first second : Nat)

/-- Counting or, with the threshold reached, galloping. -/
def Pace.next (threshold first second : Nat) : Pace :=
  if threshold ≤ max first second then .galloping else .counting first second

/-- Decide how to go on after a galloping round: gallop again while stretches are long, which
lowers the threshold, or go back to counting, which raises it. -/
def Pace.resume : Pace → (threshold : Nat) → Pace × Nat
  | .moved first second, threshold =>
    if longStretch ≤ first ∨ longStretch ≤ second then
      (.galloping, if threshold > 1 then threshold - 1 else threshold)
    else (.counting 0 0, threshold + 1)
  | pace, threshold => (pace, threshold)

/-! ## From the front -/

/-- What is left to write once one run is used up, or the first is down to one element. -/
def frontEnd? : (first second : List α) → Option (List α)
  | first, [] => some first
  | [], second => some second
  | [x], second => some (second ++ [x])
  | _, _ => none

/-- Merge from the front. -/
def mergeFront (lt : α → α → m Bool) :
    (fuel : Nat) → Pace → (threshold : Nat) → (first second : List α) → m (List α × Nat)
  | 0, _, threshold, first, second => pure (first ++ second, threshold)
  | fuel + 1, pace, threshold, first, second =>
    match frontEnd? first second, first, second with
    | some rest, _, _ => pure (rest, threshold)
    | none, x :: first', y :: second' =>
      match pace.resume threshold with
      | (.counting a b, threshold) => do
        if ← lt y x then
          let (rest, t) ← mergeFront lt fuel (.next threshold 0 (b + 1)) threshold first second'
          pure (y :: rest, t)
        else
          let (rest, t) ← mergeFront lt fuel (.next threshold (a + 1) 0) threshold first' second
          pure (x :: rest, t)
      | (_, threshold) => do
        let a ← gallop (fun z => lt y z) first 0
        let stretch := first.take a
        match frontEnd? (first.drop a) second, first.drop a with
        | some rest, _ => pure (stretch ++ rest, threshold)
        | none, [] => pure (stretch ++ second, threshold)
        | none, x :: first' =>
          match frontEnd? (x :: first') second' with
          | some rest => pure (stretch ++ y :: rest, threshold)
          | none =>
            let b ← gallop (fun z => do pure !(← lt z x)) second' 0
            let stretch' := second'.take b
            match frontEnd? (x :: first') (second'.drop b) with
            | some rest => pure (stretch ++ y :: (stretch' ++ rest), threshold)
            | none =>
              let (rest, t) ← mergeFront lt fuel (.moved a b) threshold first' (second'.drop b)
              pure (stretch ++ y :: (stretch' ++ x :: rest), t)
    | none, first, second => pure (first ++ second, threshold)

/-! ## From the back

The runs are given turned round, last element first, and the merged elements are gathered in front
of those already in place. -/

/-- What is in place once one run is used up, or the second is down to one element. -/
def backEnd? : (first second done : List α) → Option (List α)
  | [], second, done => some (second.reverse ++ done)
  | first, [], done => some (first.reverse ++ done)
  | first, [y], done => some (y :: (first.reverse ++ done))
  | _, _, _ => none

/-- Merge from the back. -/
def mergeBack (lt : α → α → m Bool) :
    (fuel : Nat) → Pace → (threshold : Nat) → (first second done : List α) → m (List α × Nat)
  | 0, _, threshold, first, second, done =>
    pure (first.reverse ++ (second.reverse ++ done), threshold)
  | fuel + 1, pace, threshold, first, second, done =>
    match backEnd? first second done, first, second with
    | some all, _, _ => pure (all, threshold)
    | none, x :: first', y :: second' =>
      match pace.resume threshold with
      | (.counting a b, threshold) => do
        if ← lt y x then
          mergeBack lt fuel (.next threshold (a + 1) 0) threshold first' second (x :: done)
        else
          mergeBack lt fuel (.next threshold 0 (b + 1)) threshold first second' (y :: done)
      | (_, threshold) => do
        let a ← gallop (fun z => lt y z) first.reverse (first.length - 1)
        let a := first.length - a
        let done := (first.take a).reverse ++ done
        match backEnd? (first.drop a) second done, first.drop a with
        | some all, _ => pure (all, threshold)
        | none, [] => pure (second.reverse ++ done, threshold)
        | none, x :: first' =>
          let done := y :: done
          match backEnd? (x :: first') second' done with
          | some all => pure (all, threshold)
          | none =>
            let b ← gallop (fun z => do pure !(← lt z x)) second'.reverse (second'.length - 1)
            let b := second'.length - b
            let done := (second'.take b).reverse ++ done
            match backEnd? (x :: first') (second'.drop b) done with
            | some all => pure (all, threshold)
            | none =>
              mergeBack lt fuel (.moved a b) threshold first' (second'.drop b) (x :: done)
    | none, first, second => pure (first.reverse ++ (second.reverse ++ done), threshold)

/-! ## Two runs -/

/-- Merge two runs of which the second starts before the first does and ends before the first
does. -/
def mergeOverlap (lt : α → α → m Bool) (threshold : Nat) (first second : List α) :
    m (List α × Nat) :=
  let fuel := first.length + second.length
  if first.length ≤ second.length then
    match second with
    | [] => pure (first, threshold)
    | y :: second => do
      let (rest, t) ← mergeFront lt fuel (.counting 0 0) threshold first second
      pure (y :: rest, t)
  else
    match first.reverse with
    | [] => pure (second, threshold)
    | x :: first => mergeBack lt fuel (.counting 0 0) threshold first second.reverse [x]

/-- Merge two runs, leaving alone what is in place. -/
def mergeRuns (lt : α → α → m Bool) (threshold : Nat) (first second : List α) :
    m (List α × Nat) :=
  match second with
  | [] => pure (first, threshold)
  | y :: _ => do
    let start ← gallop (fun z => lt y z) first 0
    match (first.drop start).getLast? with
    | none => pure (first ++ second, threshold)
    | some x =>
      let stop ← gallop (fun z => do pure !(← lt z x)) second (second.length - 1)
      let (merged, t) ← mergeOverlap lt threshold (first.drop start) (second.take stop)
      pure (first.take start ++ (merged ++ second.drop stop), t)

end SnapshotStore.Sort
