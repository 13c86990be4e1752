/-!
# Searching for a boundary

Both searches look for the place where a condition turns from false to true along a list. Each
returns an index whose element was seen to meet the condition (or the end) and whose predecessor
was seen not to (or the start), whether or not the condition turns only once.

The condition may have effects; the order in which elements are asked is part of the meaning.
-/

namespace SnapshotStore.Sort

variable {m : Type → Type} [Monad m] {α : Type}

/-- Ask about the element at an index; past the end the condition counts as met. -/
def probe (after : α → m Bool) (xs : List α) (i : Nat) : m Bool :=
  match xs[i]? with
  | some x => after x
  | none => pure true

/-- Look between two indices by halving. -/
def bisect (after : α → m Bool) (xs : List α) (low high : Nat) : m Nat :=
  if low < high then do
    let middle := low + (high - low) / 2
    if ← probe after xs middle then bisect after xs low middle
    else bisect after xs (middle + 1) high
  else pure high
termination_by high - low

/-- Widen an offset, roughly doubling it, until asked to stop or at the limit. Returns the last
offset at which there was no stop and the offset reached. -/
def widen (stop : Nat → m Bool) (limit last offset : Nat) : m (Nat × Nat) :=
  if offset < limit then do
    if ← stop offset then pure (last, offset)
    else widen stop limit offset (2 * offset + 1)
  else pure (last, limit)
termination_by limit - offset

/-- Look outwards from a hint, in the direction that its element gives, and then by halving. -/
def gallop (after : α → m Bool) (xs : List α) (hint : Nat) : m Nat := do
  if ← probe after xs hint then
    let (last, offset) ← widen (fun k => do pure !(← probe after xs (hint - k))) (hint + 1) 0 1
    bisect after xs (hint + 1 - offset) (hint - last)
  else
    let (last, offset) ← widen (fun k => probe after xs (hint + k)) (xs.length - hint) 0 1
    bisect after xs (hint + last + 1) (hint + offset)

end SnapshotStore.Sort
