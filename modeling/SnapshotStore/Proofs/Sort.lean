import SnapshotStore.Proofs.Sort.Merge
import SnapshotStore.Sort

/-!
# What the sort gives

**Theorem (`sortM_spec`).** If every comparison of a later element of the input with an earlier one
settles how the two may stand next to each other, then the sort gives the elements of the input in
a chain.

`Pieces` is the invariant of the runs that wait to be merged: each is a chain, together they are the
part of the input already seen, and whatever is in a later run comes later in the input. It is kept
by a merge of any two neighbours (`Pieces.merge`), so the order of the merges does not matter.
-/

namespace SnapshotStore.Sort

variable {m : Type → Type} [Monad m] {α : Type} {lt : α → α → m Bool} {c : α → α → Bool}
  {le : α → α → Prop}

/-- Chains, the latest first, which are made of what was seen of the input. -/
structure Pieces (lt : α → α → m Bool) (c : α → α → Bool) (le : α → α → Prop)
    (pieces : List (List α)) (seen : List α) : Prop where
  perm : pieces.flatten.Perm seen
  chain : ∀ piece ∈ pieces, piece.IsChain le
  cross : pieces.Pairwise fun later earlier => ∀ x ∈ earlier, ∀ y ∈ later, Settles lt c le x y

namespace Pieces

variable {pieces : List (List α)} {seen : List α}

theorem nil : Pieces lt c le [] [] :=
  ⟨.rfl, by simp, .nil⟩

/-- One more run, of what comes next in the input. -/
theorem push {run taken : List α} (h : Pieces lt c le pieces seen) (hperm : run.Perm taken)
    (hchain : run.IsChain le) (hcross : ∀ x ∈ seen, ∀ y ∈ taken, Settles lt c le x y) :
    Pieces lt c le (run :: pieces) (seen ++ taken) := by
  refine ⟨?_, List.forall_mem_cons.mpr ⟨hchain, h.chain⟩, List.pairwise_cons.mpr ⟨?_, h.cross⟩⟩
  · rw [List.flatten_cons]
    exact (hperm.append h.perm).trans List.perm_append_comm
  · intro piece hpiece x hx y hy
    exact hcross x (h.perm.mem_iff.mp (List.mem_flatten_of_mem hpiece hx)) y (hperm.mem_iff.mp hy)

/-- Two neighbours are merged. -/
theorem merge [LawfulMonad m] {front rest : List (List α)} {first second : List α} (threshold : Nat)
    (h : Pieces lt c le (front ++ second :: first :: rest) seen) :
    ∃ out t, mergeRuns lt threshold first second = pure (out, t) ∧
      Pieces lt c le (front ++ out :: rest) seen := by
  obtain ⟨hfront, hback, hacross⟩ := List.pairwise_append.mp h.cross
  rw [List.pairwise_cons, List.pairwise_cons] at hback
  obtain ⟨out, t, hout, hmerged⟩ := mergeRuns_spec threshold
    (hback.1 first (List.mem_cons_self ..)) (h.chain first (by simp)) (h.chain second (by simp))
  have hmem {x : α} (hx : x ∈ out) : x ∈ first ∨ x ∈ second :=
    List.mem_append.mp (hmerged.perm.mem_iff.mp hx)
  refine ⟨out, t, hout, ?_, ?_, ?_⟩
  · refine List.Perm.trans ?_ h.perm
    simp only [List.flatten_append, List.flatten_cons, ← List.append_assoc]
    refine List.Perm.append_right _ ?_
    rw [List.append_assoc]
    exact (hmerged.perm.trans List.perm_append_comm).append_left _
  · intro piece hpiece
    simp only [List.mem_append, List.mem_cons] at hpiece
    rcases hpiece with hpiece | rfl | hpiece
    · exact h.chain piece (by simp [hpiece])
    · exact hmerged.chain
    · exact h.chain piece (by simp [hpiece])
  · refine List.pairwise_append.mpr ⟨hfront, List.pairwise_cons.mpr ⟨?_, hback.2.2⟩, ?_⟩
    · intro piece hpiece x hx y hy
      rcases hmem hy with hy | hy
      · exact hback.2.1 piece hpiece x hx y hy
      · exact hback.1 piece (List.mem_cons_of_mem _ hpiece) x hx y hy
    · intro piece hpiece piece' hpiece' x hx y hy
      rcases List.mem_cons.mp hpiece' with rfl | hpiece'
      · rcases hmem hx with hx | hx
        · exact hacross piece hpiece first (by simp) x hx y hy
        · exact hacross piece hpiece second (by simp) x hx y hy
      · exact hacross piece hpiece piece' (by simp [hpiece']) x hx y hy

/-- The last two are merged. -/
theorem merge_top [LawfulMonad m] {rest : List (List α)} {first second : List α} (threshold : Nat)
    (h : Pieces lt c le (second :: first :: rest) seen) :
    ∃ out t, mergeRuns lt threshold first second = pure (out, t) ∧
      Pieces lt c le (out :: rest) seen := by
  have hfront : Pieces lt c le ([] ++ second :: first :: rest) seen := h
  exact hfront.merge threshold

end Pieces

/-! ## Runs that wait -/

variable [LawfulMonad m] {runs : List (Pending α)} {seen : List α}

/-- What is in the runs that wait. -/
def itemsOf (runs : List (Pending α)) : List (List α) := runs.map (·.items)

theorem mergeAbove_spec (power fuel threshold : Nat) (h : Pieces lt c le (itemsOf runs) seen) :
    ∃ runs' t, mergeAbove lt power fuel threshold runs = pure (runs', t) ∧
      Pieces lt c le (itemsOf runs') seen := by
  induction fuel generalizing threshold runs with
  | zero => exact ⟨runs, threshold, by simp [mergeAbove], h⟩
  | succ fuel ih =>
    match runs, h with
    | [], h => exact ⟨[], threshold, rfl, h⟩
    | [run], h => exact ⟨[run], threshold, rfl, h⟩
    | top :: below :: rest, h =>
      rw [mergeAbove]
      split_ifs
      · obtain ⟨out, t, hout, hpieces⟩ := h.merge_top threshold
        rw [hout, pure_bind]
        have hnext : Pieces lt c le (itemsOf ({ below with items := out } :: rest)) seen := hpieces
        exact ih t hnext
      · exact ⟨_, _, rfl, h⟩

theorem pushRun_spec (whole threshold start : Nat) {run taken : List α}
    (h : Pieces lt c le (itemsOf runs) seen) (hperm : run.Perm taken) (hchain : run.IsChain le)
    (hcross : ∀ x ∈ seen, ∀ y ∈ taken, Settles lt c le x y) :
    ∃ runs' t, pushRun lt whole threshold start run runs = pure (runs', t) ∧
      Pieces lt c le (itemsOf runs') (seen ++ taken) := by
  cases runs with
  | nil => exact ⟨_, _, rfl, h.push hperm hchain hcross⟩
  | cons top rest =>
    obtain ⟨runs', t, habove, hpieces⟩ := mergeAbove_spec
      (gapPower whole top.start top.items.length run.length) (top :: rest).length threshold h
    rw [pushRun]
    dsimp only
    rw [habove, pure_bind]
    cases runs' with
    | nil => exact ⟨_, _, rfl, hpieces.push hperm hchain hcross⟩
    | cons top' rest' => exact ⟨_, _, rfl, hpieces.push hperm hchain hcross⟩

theorem gather_spec (whole : Nat) {fuel threshold start : Nat} {xs : List α}
    (hfuel : xs.length ≤ fuel) (hxs : (seen ++ xs).Pairwise (Settles lt c le))
    (h : Pieces lt c le (itemsOf runs) seen) :
    ∃ runs' t, gather lt whole fuel threshold start xs runs = pure (runs', t) ∧
      Pieces lt c le (itemsOf runs') (seen ++ xs) := by
  induction fuel generalizing threshold start xs seen runs with
  | zero =>
    obtain rfl : xs = [] := List.eq_nil_of_length_eq_zero (by omega)
    exact ⟨runs, threshold, by simp [gather], by rwa [List.append_nil]⟩
  | succ fuel ih =>
    cases xs with
    | nil => exact ⟨runs, threshold, by simp [gather], by rwa [List.append_nil]⟩
    | cons x xs =>
      obtain ⟨-, hrest, hcross⟩ := List.pairwise_append.mp hxs
      obtain ⟨run, rest, taken, hnext, hsplit, hperm, hchain, hne⟩ :=
        nextRun_spec (leastRun whole) hrest
      have htaken : 0 < taken.length := List.length_pos_iff.mpr (hne (List.cons_ne_nil _ _))
      have hlength := congrArg List.length hsplit
      rw [List.length_append] at hlength
      rw [hsplit] at hxs hcross ⊢
      obtain ⟨runs₁, t₁, hpush, hpieces⟩ := pushRun_spec whole threshold start h hperm hchain
        fun z hz y hy => hcross z hz y (List.mem_append_left _ hy)
      rw [← List.append_assoc] at hxs ⊢
      obtain ⟨runs₂, t₂, hgather, hpieces₂⟩ := ih (by omega) hxs hpieces
      refine ⟨runs₂, t₂, ?_, hpieces₂⟩
      rw [← hsplit, gather, hnext, pure_bind]
      dsimp only
      rw [hpush, pure_bind]
      exact hgather

theorem collapse_spec {fuel : Nat} (threshold : Nat) (hfuel : runs.length ≤ fuel)
    (h : Pieces lt c le (itemsOf runs) seen) :
    ∃ out, collapse lt fuel threshold runs = pure out ∧ out.Perm seen ∧ out.IsChain le := by
  induction fuel generalizing threshold runs with
  | zero =>
    obtain rfl : runs = [] := List.eq_nil_of_length_eq_zero (by omega)
    exact ⟨[], by simp [collapse], h.perm, .nil⟩
  | succ fuel ih =>
    match runs, h with
    | [], h => exact ⟨[], by simp [collapse], h.perm, .nil⟩
    | [run], h =>
      have hperm := h.perm
      exact ⟨run.items, by simp [collapse], by simpa [itemsOf] using hperm,
        h.chain run.items (List.mem_cons_self ..)⟩
    | [top, second], h =>
      obtain ⟨out, t, hout, hpieces⟩ := h.merge_top threshold
      have hperm := hpieces.perm
      refine ⟨out, ?_, by simpa using hperm, hpieces.chain out (List.mem_cons_self ..)⟩
      rw [collapse, hout, pure_bind]
    | top :: second :: third :: rest, h =>
      simp only [List.length_cons] at hfuel
      rw [collapse]
      split_ifs
      · have hfront : Pieces lt c le
            ([top.items] ++ second.items :: third.items :: itemsOf rest) seen := h
        obtain ⟨out, t, hout, hpieces⟩ := hfront.merge threshold
        have hnext : Pieces lt c le (itemsOf (top :: { third with items := out } :: rest)) seen :=
          hpieces
        rw [hout, pure_bind]
        exact ih t (by simp only [List.length_cons]; omega) hnext
      · obtain ⟨out, t, hout, hpieces⟩ := h.merge_top threshold
        have hnext :
            Pieces lt c le (itemsOf ({ second with items := out } :: third :: rest)) seen := hpieces
        rw [hout, pure_bind]
        exact ih t (by simp only [List.length_cons]; omega) hnext

/-- **The sort gives the elements of the input in a chain.** -/
theorem sortM_spec {xs : List α} (h : xs.Pairwise (Settles lt c le)) :
    ∃ out, sortM lt xs = pure out ∧ out.Perm xs ∧ out.IsChain le := by
  have hnone : Pieces lt c le (itemsOf []) [] := .nil
  obtain ⟨runs, t, hgather, hpieces⟩ := gather_spec xs.length (Nat.le_refl _) h hnone
  obtain ⟨out, hcollapse, hout⟩ := collapse_spec t (Nat.le_refl _) hpieces
  refine ⟨out, ?_, hout⟩
  rw [sortM, hgather, pure_bind]
  exact hcollapse

end SnapshotStore.Sort
