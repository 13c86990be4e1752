import Mathlib.Data.List.Nodup
import SnapshotStore.Proofs.Sort.Consistent

/-!
# The sort is stable

**Theorem (`stablySorted_sort`).** Where the relation is a weak order on the elements of the input,
the sort gives them in order, and elements that are tied as they were given.

The comparisons of a weak order are consistent (`WeakOrder.consistent`), so elements stand as they
compare (`placed_pairwise`). Of two that are tied the later one is not less, so it stays behind.
-/

namespace SnapshotStore.Sort

variable {α : Type} {lt : α → α → Bool} {xs : List α}

/-- A relation is a weak order on the elements of a list: it holds one way only, and where it does
not hold one way is transitive. -/
structure WeakOrder (lt : α → α → Bool) (xs : List α) : Prop where
  asymm : ∀ x ∈ xs, ∀ y ∈ xs, lt x y = true → lt y x = false
  trans : ∀ x ∈ xs, ∀ y ∈ xs, ∀ z ∈ xs, lt y x = false → lt z y = false → lt z x = false

namespace WeakOrder

/-- What an order up to ties calls less is a weak order. -/
theorem of_ordering {cmp : α → α → Ordering} [Std.TransCmp cmp]
    (h : ∀ x ∈ xs, ∀ y ∈ xs, lt x y = (cmp x y == .lt)) : WeakOrder lt xs := by
  have hnot : ∀ x ∈ xs, ∀ y ∈ xs, lt x y = false ↔ (cmp x y).isGE := by
    intro x hx y hy
    rw [h x hx y hy, beq_eq_false_iff_ne, Ne, Ordering.ne_lt_iff_isGE]
  refine ⟨fun x hx y hy hxy => ?_, fun x hx y hy z hz hyx hzy => ?_⟩
  · rw [h x hx y hy, beq_iff_eq] at hxy
    rw [hnot y hy x hx, Std.OrientedCmp.gt_of_lt hxy]
    rfl
  · rw [hnot y hy x hx] at hyx
    rw [hnot z hz y hy] at hzy
    rw [hnot z hz x hx]
    exact Std.TransCmp.isGE_trans hzy hyx

/-- The comparisons of a weak order are consistent. -/
theorem consistent (h : WeakOrder lt xs) : Consistent lt xs := by
  refine List.triplewise_iff_getElem.mpr fun i j k hij hjk hk => ⟨fun hyx hzy => ?_, ?_⟩
  · by_contra hzx
    have hxy := h.asymm _ (List.getElem_mem _) _ (List.getElem_mem _) hyx
    rw [h.trans _ (List.getElem_mem _) _ (List.getElem_mem _) _ (List.getElem_mem _) hxy
      (by simpa using hzx)] at hzy
    cases hzy
  · exact h.trans _ (List.getElem_mem _) _ (List.getElem_mem _) _ (List.getElem_mem _)

end WeakOrder

/-! ## Ties -/

/-- Two lists of the same elements in which places increase are the same. -/
theorem eq_of_perm_of_places {ps qs : List (α × Nat)} (hperm : ps.Perm qs)
    (hps : ps.Pairwise fun p q => p.2 < q.2) (hqs : qs.Pairwise fun p q => p.2 < q.2) :
    ps = qs :=
  hperm.eq_of_pairwise (fun _ _ _ _ hpq hqp => absurd hqp (Nat.lt_asymm hpq)) hps hqs

/-- Neither of two elements is less than the other. -/
def tied (lt : α → α → Bool) (x y : α) : Bool := !lt x y && !lt y x

theorem tied_iff {x y : α} : tied lt x y = true ↔ lt x y = false ∧ lt y x = false := by
  simp [tied]

/-- Those tied with one element are tied with one another, so they stand by place. -/
theorem filter_placed (h : WeakOrder lt xs) {x : α} (hx : x ∈ xs) :
    (placed lt xs).filter (fun p => tied lt x p.1) =
      xs.zipIdx.filter (fun p => tied lt x p.1) := by
  refine eq_of_perm_of_places ((placed_perm lt xs).filter _) ?_ ((pairwise_snd_zipIdx xs).filter _)
  refine ((placed_pairwise h.consistent).filter _).imp_of_mem fun {p q} hp hq hpq => ?_
  obtain ⟨hp, hxp⟩ := List.mem_filter.mp hp
  obtain ⟨hq, hxq⟩ := List.mem_filter.mp hq
  rcases hpq with ⟨hplace, -⟩ | ⟨-, hless⟩
  · exact hplace
  · rw [h.trans q.1 (fst_mem_of_placed hq) x hx p.1 (fst_mem_of_placed hp)
      (tied_iff.mp hxq).1 (tied_iff.mp hxp).2] at hless
    cases hless

/-- A list holds the elements of another one in order, those that are tied as they were given. -/
structure StablySorted (lt : α → α → Bool) (xs out : List α) : Prop where
  perm : out.Perm xs
  ordered : out.Pairwise fun x y => lt y x = false
  stable : ∀ x ∈ xs, out.filter (tied lt x) = xs.filter (tied lt x)

/-- **The sort is stable** where the relation is a weak order. -/
theorem stablySorted_sort (h : WeakOrder lt xs) : StablySorted lt xs (sort lt xs) := by
  refine ⟨sort_perm lt xs, sort_ordered h.consistent h.asymm, fun x hx => ?_⟩
  have hfilter (ps : List (α × Nat)) :
      (ps.map Prod.fst).filter (tied lt x) =
        (ps.filter fun p => tied lt x p.1).map Prod.fst := by
    rw [List.filter_map]
    rfl
  rw [← map_fst_placed, hfilter, filter_placed h hx, ← hfilter, List.zipIdx_map_fst]

end SnapshotStore.Sort
