import SnapshotStore.Proofs.Sort.Consistent

/-!
# Neighbours in the result

A relation need not be an order for the sort to be of use. Where it holds at most one way, the sort
leaves no element in front of one that is less (`sort_isChain`). A list in which no element is less
than its predecessor is a single run, and the sort gives it back as it is (`sort_of_isChain`). So
sorting twice is sorting once (`sort_sort`).
-/

namespace SnapshotStore.Sort

/-! ## A single run -/

section

variable {m : Type → Type} [Monad m] [LawfulMonad m] {α : Type} {lt : α → α → m Bool} {xs : List α}

theorem climb_of_isChain {last : α}
    (h : (last :: xs).IsChain fun x y => lt y x = pure false) :
    climb lt last xs = pure (xs, []) := by
  induction xs generalizing last with
  | nil => rfl
  | cons x xs ih =>
    obtain ⟨hx, hxs⟩ := List.isChain_cons_cons.mp h
    rw [climb, hx, pure_bind, if_neg Bool.false_ne_true, ih hxs, pure_bind]

theorem splitRun_of_isChain (h : xs.IsChain fun x y => lt y x = pure false) :
    splitRun lt xs = pure (xs, []) := by
  match xs with
  | [] => rfl
  | [x] => rfl
  | x :: y :: xs =>
    obtain ⟨hxy, hxs⟩ := List.isChain_cons_cons.mp h
    rw [splitRun, hxy, pure_bind, if_neg Bool.false_ne_true, climb_of_isChain hxs, pure_bind]

theorem nextRun_of_isChain (least : Nat) (h : xs.IsChain fun x y => lt y x = pure false) :
    nextRun lt least xs = pure (xs, []) := by
  rw [nextRun, splitRun_of_isChain h, pure_bind]
  simp only [List.take_nil, List.drop_nil, insertAll, pure_bind]

/-- **A list in which no element is less than its predecessor stays as it is.** -/
theorem sortM_of_isChain (h : xs.IsChain fun x y => lt y x = pure false) :
    sortM lt xs = pure xs := by
  cases xs with
  | nil => simp [sortM, gather, collapse]
  | cons x xs =>
    have hgather : gather lt (x :: xs).length (x :: xs).length longStretch 0 (x :: xs) [] =
        pure ([⟨0, 0, x :: xs⟩], longStretch) := by
      rw [List.length_cons, gather, nextRun_of_isChain _ h, pure_bind]
      simp only [pushRun, pure_bind]
      cases xs <;> rfl
    rw [sortM, hgather, pure_bind]
    simp [collapse]

end

variable {α : Type} {lt : α → α → Bool} {xs : List α}

theorem sort_of_isChain (h : xs.IsChain fun x y => lt y x = false) : sort lt xs = xs := by
  have hM : xs.IsChain fun x y => (pure (lt y x) : Id Bool) = pure false :=
    h.imp fun x y hxy => congrArg pure hxy
  exact sortM_of_isChain hM

/-- **No element stands in front of one that is less**, if no two elements are less than each
other. -/
theorem sort_isChain (h : ∀ x ∈ xs, ∀ y ∈ xs, lt x y = true → lt y x = false) :
    (sort lt xs).IsChain fun x y => lt y x = false := by
  have hsettles : xs.Pairwise
      (Settles (fun x y => (pure (lt x y) : Id Bool)) lt fun x y => lt y x = false) :=
    List.pairwise_of_forall_mem_list fun x hx y hy => ⟨rfl, h y hy x hx, id⟩
  obtain ⟨out, hout, -, hchain⟩ := sortM_spec hsettles
  have hsort : sort lt xs = out := hout
  rwa [hsort]

/-- Sorting twice is sorting once. -/
theorem sort_sort (h : ∀ x ∈ xs, ∀ y ∈ xs, lt x y = true → lt y x = false) :
    sort lt (sort lt xs) = sort lt xs :=
  sort_of_isChain (sort_isChain h)

end SnapshotStore.Sort
