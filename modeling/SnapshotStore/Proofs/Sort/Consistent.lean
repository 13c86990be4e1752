import Mathlib.Data.List.Triplewise
import SnapshotStore.Proofs.Sort
import SnapshotStore.Proofs.Sort.Natural

/-!
# Consistent comparisons

**Theorem (`placed_pairwise`).** If the comparisons of later elements of the input with earlier ones
are consistent, then any two elements of the result stand as they compare: the later one in front
exactly if it is less.

The sort only ever compares a later element of the input with an earlier one, so nothing is asked of
the other comparisons, and the relation need be no order. `Consistent` is a condition on triples of
the input: what is less than something less is less, and what is not less than something not less is
not. It makes the arrangement of elements transitive (`arranged_trans`), and a chain in a transitive
relation is in order throughout.

Elements carry their places in the input meanwhile; sorting images (`sort_map`) takes them off.
-/

namespace SnapshotStore.Sort

variable {α : Type} {lt : α → α → Bool} {xs : List α}

/-- The sort gives the elements it is given, whatever the relation. -/
theorem sort_perm (lt : α → α → Bool) (xs : List α) : (sort lt xs).Perm xs := by
  have hxs : xs.Pairwise (Settles (fun x y => (pure (lt x y) : Id Bool)) lt fun _ _ => True) :=
    List.pairwise_of_forall fun _ _ => ⟨rfl, fun _ => trivial, fun _ => trivial⟩
  obtain ⟨out, hout, hperm, -⟩ := sortM_spec hxs
  have hsort : sort lt xs = out := hout
  rwa [hsort]

/-! ## Elements with their places -/

/-- The elements with their places in the input, sorted. -/
def placed (lt : α → α → Bool) (xs : List α) : List (α × Nat) :=
  sort (fun p q => lt p.1 q.1) xs.zipIdx

theorem map_fst_placed (lt : α → α → Bool) (xs : List α) :
    (placed lt xs).map Prod.fst = sort lt xs := by
  conv_rhs => rw [← List.zipIdx_map_fst 0 xs]
  exact (sort_map Prod.fst lt xs.zipIdx).symm

theorem placed_perm (lt : α → α → Bool) (xs : List α) : (placed lt xs).Perm xs.zipIdx :=
  sort_perm _ _

theorem fst_mem_of_placed {p : α × Nat} (hp : p ∈ placed lt xs) : p.1 ∈ xs := by
  rw [← List.zipIdx_map_fst 0 xs]
  exact List.mem_map_of_mem ((placed_perm lt xs).mem_iff.mp hp)

theorem pairwise_snd_zipIdx (xs : List α) : xs.zipIdx.Pairwise fun p q => p.2 < q.2 := by
  have hmap : (xs.zipIdx.map Prod.snd).Pairwise (· < ·) := by
    rw [List.zipIdx_map_snd]
    exact List.pairwise_lt_range'
  exact List.pairwise_map.mp hmap

theorem eq_of_place_eq {p q : α × Nat} (hp : p ∈ xs.zipIdx) (hq : q ∈ xs.zipIdx)
    (h : p.2 = q.2) : p = q := by
  rw [List.mem_zipIdx_iff_getElem?] at hp hq
  rw [h, hq] at hp
  exact Prod.ext (Option.some.inj hp).symm h

theorem triplewise_of_places {R : α → α → α → Prop} (h : xs.Triplewise R) {p q r : α × Nat}
    (hp : p ∈ xs.zipIdx) (hq : q ∈ xs.zipIdx) (hr : r ∈ xs.zipIdx) (hpq : p.2 < q.2)
    (hqr : q.2 < r.2) : R p.1 q.1 r.1 := by
  rw [List.mem_zipIdx_iff_getElem?, List.getElem?_eq_some_iff] at hp hq hr
  obtain ⟨hlt, hr⟩ := hr
  have htriple := List.triplewise_iff_getElem.mp h p.2 q.2 r.2 hpq hqr hlt
  rwa [hp.2, hq.2, hr] at htriple

theorem pairwise_of_places {R : α → α → Prop} (h : xs.Pairwise R) {p q : α × Nat}
    (hp : p ∈ xs.zipIdx) (hq : q ∈ xs.zipIdx) (hpq : p.2 < q.2) : R p.1 q.1 := by
  rw [List.mem_zipIdx_iff_getElem?, List.getElem?_eq_some_iff] at hp hq
  obtain ⟨hltp, hp⟩ := hp
  obtain ⟨hltq, hq⟩ := hq
  have hpair := List.pairwise_iff_getElem.mp h p.2 q.2 hltp hltq hpq
  rwa [hp, hq] at hpair

/-! ## Arrangements -/

/-- The comparisons of later with earlier elements are consistent. -/
def Consistent (lt : α → α → Bool) (xs : List α) : Prop :=
  xs.Triplewise fun x y z => (lt y x = true → lt z y = true → lt z x = true) ∧
    (lt y x = false → lt z y = false → lt z x = false)

/-- One element may stand in front of another: it was given earlier and the other one is not less,
or it was given later and is less. -/
def Arranged (lt : α → α → Bool) (p q : α × Nat) : Prop :=
  (p.2 < q.2 ∧ lt q.1 p.1 = false) ∨ (q.2 < p.2 ∧ lt p.1 q.1 = true)

theorem arranged_trans (h : Consistent lt xs) {p q r : α × Nat} (hp : p ∈ xs.zipIdx)
    (hq : q ∈ xs.zipIdx) (hr : r ∈ xs.zipIdx) (hpq : Arranged lt p q) (hqr : Arranged lt q r) :
    Arranged lt p r := by
  have htriple {x y z : α × Nat} := triplewise_of_places h (p := x) (q := y) (r := z)
  rcases hpq with ⟨hpq, hless⟩ | ⟨hpq, hless⟩ <;> rcases hqr with ⟨hqr, hless'⟩ | ⟨hqr, hless'⟩
  · exact .inl ⟨by omega, (htriple hp hq hr hpq hqr).2 hless hless'⟩
  · -- Both the first and the last were given before the one between them.
    rcases Nat.lt_trichotomy p.2 r.2 with hpr | hpr | hpr
    · refine .inl ⟨hpr, Bool.eq_false_iff.mpr fun hrp => ?_⟩
      rw [(htriple hp hr hq hpr hqr).1 hrp hless'] at hless
      cases hless
    · rw [eq_of_place_eq hp hr hpr, hless'] at hless
      cases hless
    · refine .inr ⟨hpr, Bool.of_not_eq_false fun hnot => ?_⟩
      rw [(htriple hr hp hq hpr hpq).2 hnot hless] at hless'
      cases hless'
  · -- Both were given behind it.
    rcases Nat.lt_trichotomy p.2 r.2 with hpr | hpr | hpr
    · refine .inl ⟨hpr, Bool.eq_false_iff.mpr fun hrp => ?_⟩
      rw [(htriple hq hp hr hpq hpr).1 hless hrp] at hless'
      cases hless'
    · rw [eq_of_place_eq hp hr hpr, hless'] at hless
      cases hless
    · refine .inr ⟨hpr, Bool.of_not_eq_false fun hnot => ?_⟩
      rw [(htriple hq hr hp hqr hpr).2 hless' hnot] at hless
      cases hless
  · exact .inr ⟨by omega, (htriple hr hq hp hqr hpq).1 hless' hless⟩

/-- **Elements stand as they compare**, if the comparisons are consistent. -/
theorem placed_pairwise (h : Consistent lt xs) : (placed lt xs).Pairwise (Arranged lt) := by
  -- Membership goes into the relation, for only on the elements of the list is it transitive.
  let le (p q : α × Nat) : Prop := (p ∈ xs.zipIdx ∧ q ∈ xs.zipIdx) ∧ Arranged lt p q
  have hle : ∀ p q r, le p q → le q r → le p r :=
    fun p q r ⟨⟨hp, hq⟩, hpq⟩ ⟨⟨_, hr⟩, hqr⟩ => ⟨⟨hp, hr⟩, arranged_trans h hp hq hr hpq hqr⟩
  have hsettles : xs.zipIdx.Pairwise
      (Settles (fun p q => (pure (lt p.1 q.1) : Id Bool)) (fun p q => lt p.1 q.1) le) :=
    (pairwise_snd_zipIdx xs).imp_of_mem fun {p q} hp hq hplace =>
      ⟨rfl, fun hless => ⟨⟨hq, hp⟩, .inr ⟨hplace, hless⟩⟩,
        fun hnot => ⟨⟨hp, hq⟩, .inl ⟨hplace, hnot⟩⟩⟩
  obtain ⟨out, hout, -, hchain⟩ := sortM_spec hsettles
  have hsort : placed lt xs = out := hout
  have : Trans le le le := ⟨fun {p q r} => hle p q r⟩
  rw [hsort]
  exact (List.isChain_iff_pairwise.mp hchain).imp And.right

/-- No element stands in front of one that is less, if also no two are less than each other. -/
theorem sort_ordered (h : Consistent lt xs)
    (hasymm : ∀ x ∈ xs, ∀ y ∈ xs, lt x y = true → lt y x = false) :
    (sort lt xs).Pairwise fun x y => lt y x = false := by
  rw [← map_fst_placed, List.pairwise_map]
  refine (placed_pairwise h).imp_of_mem fun hp hq hpq => ?_
  rcases hpq with ⟨-, hnot⟩ | ⟨-, hless⟩
  · exact hnot
  · exact hasymm _ (fst_mem_of_placed hp) _ (fst_mem_of_placed hq) hless

/-- What holds between earlier and later elements still holds between those that are not less. -/
theorem sort_pairwise {R : α → α → Prop} (h : Consistent lt xs) (hxs : xs.Pairwise R) :
    (sort lt xs).Pairwise fun x y => lt x y = true ∨ lt y x = false ∧ R x y := by
  rw [← map_fst_placed, List.pairwise_map]
  refine (placed_pairwise h).imp_of_mem fun {p q} hp hq hpq => ?_
  rcases hpq with ⟨hplace, hnot⟩ | ⟨-, hless⟩
  · exact .inr ⟨hnot, pairwise_of_places hxs ((placed_perm lt xs).mem_iff.mp hp)
      ((placed_perm lt xs).mem_iff.mp hq) hplace⟩
  · exact .inl hless

end SnapshotStore.Sort
