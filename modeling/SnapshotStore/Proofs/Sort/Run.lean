import SnapshotStore.Proofs.Sort.Search
import SnapshotStore.Sort.Run

/-!
# Runs are in order

The sort compares a later element of the input with an earlier one, never the other way. What it
learns from a comparison is that one of the two may stand right in front of the other (`Settles`),
and all it promises is that neighbours may stand so: that its result is a chain.

**Theorem (`nextRun_spec`).** A run is a chain, made of the elements at the front of the input.
-/

namespace SnapshotStore.Sort

variable {m : Type → Type} [Monad m] {α : Type} {lt : α → α → m Bool} {c : α → α → Bool}
  {le : α → α → Prop}

/-- How two elements, the first of which comes earlier in the input, are put in order: a later one
that is less may stand in front of the earlier one, and otherwise behind it. -/
structure Settles (lt : α → α → m Bool) (c : α → α → Bool) (le : α → α → Prop) (x y : α) :
    Prop where
  asks : lt y x = pure (c y x)
  less : c y x = true → le y x
  notLess : c y x = false → le x y

variable [LawfulMonad m]

/-! ## Splitting off a run -/

theorem climb_spec {last : α} {xs : List α} (h : (last :: xs).Pairwise (Settles lt c le)) :
    ∃ run rest, climb lt last xs = pure (run, rest) ∧ xs = run ++ rest ∧
      (last :: run).IsChain le := by
  induction xs generalizing last with
  | nil => exact ⟨[], [], rfl, rfl, .singleton _⟩
  | cons x xs ih =>
    rw [List.pairwise_cons] at h
    have hx := h.1 x (List.mem_cons_self ..)
    rw [climb, hx.asks, pure_bind]
    by_cases hless : c x last = true
    · rw [if_pos hless]
      exact ⟨[], x :: xs, rfl, rfl, .singleton _⟩
    · obtain ⟨run, rest, hclimb, hxs, hrun⟩ := ih h.2
      rw [if_neg hless, hclimb, pure_bind]
      exact ⟨x :: run, rest, rfl, by rw [hxs, List.cons_append],
        List.isChain_cons_cons.mpr ⟨hx.notLess (by simpa using hless), hrun⟩⟩

theorem fall_spec {last : α} {xs turned : List α} (h : (last :: xs).Pairwise (Settles lt c le))
    (hturned : (last :: turned).IsChain le) :
    ∃ taken rest, fall lt last (last :: turned) xs =
        pure (taken.reverse ++ last :: turned, rest) ∧
      xs = taken ++ rest ∧ (taken.reverse ++ last :: turned).IsChain le := by
  induction xs generalizing last turned with
  | nil => exact ⟨[], [], rfl, rfl, hturned⟩
  | cons x xs ih =>
    rw [List.pairwise_cons] at h
    have hx := h.1 x (List.mem_cons_self ..)
    rw [fall, hx.asks, pure_bind]
    by_cases hless : c x last = true
    · obtain ⟨taken, rest, hfall, hxs, hrun⟩ :=
        ih h.2 (List.isChain_cons_cons.mpr ⟨hx.less hless, hturned⟩)
      have hreverse : (x :: taken).reverse ++ last :: turned =
          taken.reverse ++ x :: last :: turned := by simp
      rw [if_pos hless, hfall]
      exact ⟨x :: taken, rest, by rw [hreverse], by rw [hxs, List.cons_append], hreverse ▸ hrun⟩
    · rw [if_neg hless]
      exact ⟨[], x :: xs, rfl, rfl, hturned⟩

theorem splitRun_spec {xs : List α} (h : xs.Pairwise (Settles lt c le)) :
    ∃ run rest taken, splitRun lt xs = pure (run, rest) ∧ xs = taken ++ rest ∧ run.Perm taken ∧
      run.IsChain le ∧ (xs ≠ [] → taken ≠ []) := by
  match xs with
  | [] => exact ⟨[], [], [], rfl, rfl, .rfl, .nil, fun hne => absurd rfl hne⟩
  | [x] => exact ⟨[x], [], [x], rfl, rfl, .rfl, .singleton _, fun _ => List.cons_ne_nil _ _⟩
  | x :: y :: xs =>
    rw [List.pairwise_cons] at h
    have hy := h.1 y (List.mem_cons_self ..)
    rw [splitRun, hy.asks, pure_bind]
    by_cases hless : c y x = true
    · obtain ⟨taken, rest, hfall, hxs, hrun⟩ :=
        fall_spec h.2 (List.isChain_cons_cons.mpr ⟨hy.less hless, .singleton x⟩)
      rw [if_pos hless]
      refine ⟨_, rest, x :: y :: taken, hfall, by simp [hxs], ?_, hrun, by simp⟩
      have hperm : (taken.reverse ++ [y, x]).Perm ([y, x] ++ taken) :=
        List.perm_append_comm.trans ((List.reverse_perm taken).append_left _)
      exact hperm.trans (List.Perm.swap x y taken)
    · obtain ⟨run, rest, hclimb, hxs, hrun⟩ := climb_spec h.2
      rw [if_neg hless, hclimb, pure_bind]
      exact ⟨x :: y :: run, rest, x :: y :: run, rfl, by simp [hxs], .rfl,
        List.isChain_cons_cons.mpr ⟨hy.notLess (by simpa using hless), hrun⟩, by simp⟩

/-! ## Extending a run -/

theorem insertInto_spec {run : List α} {x : α} (h : ∀ y ∈ run, Settles lt c le y x)
    (hrun : run.IsChain le) :
    ∃ run', insertInto lt run x = pure run' ∧ run'.Perm (run ++ [x]) ∧ run'.IsChain le := by
  obtain ⟨place, hplace, hboundary⟩ := bisect_boundary fun y hy => (h y hy).asks
  rw [insertInto, hplace, pure_bind]
  refine ⟨run.take place ++ x :: run.drop place, rfl, ?_, ?_⟩
  · refine ((List.perm_append_singleton x _).symm.append_left _).trans ?_
    rw [← List.append_assoc, List.take_append_drop]
  · refine (hrun.take place).append ((hrun.drop place).cons fun y hy => ?_) fun y hy z hz => ?_
    · exact (h y (List.mem_of_mem_drop (List.mem_of_mem_head? hy))).less (hboundary.behind y hy)
    · obtain rfl : x = z := by simpa using hz
      exact (h y (List.mem_of_mem_take (List.mem_of_mem_getLast? hy))).notLess
        (hboundary.front y hy)

theorem insertAll_spec {run xs : List α} (hcross : ∀ x ∈ run, ∀ y ∈ xs, Settles lt c le x y)
    (hxs : xs.Pairwise (Settles lt c le)) (hrun : run.IsChain le) :
    ∃ run', insertAll lt run xs = pure run' ∧ run'.Perm (run ++ xs) ∧ run'.IsChain le := by
  induction xs generalizing run with
  | nil => exact ⟨run, rfl, by rw [List.append_nil], hrun⟩
  | cons x xs ih =>
    rw [List.pairwise_cons] at hxs
    obtain ⟨run₁, hinsert, hperm₁, hrun₁⟩ :=
      insertInto_spec (fun y hy => hcross y hy x (List.mem_cons_self ..)) hrun
    have hcross₁ : ∀ y ∈ run₁, ∀ z ∈ xs, Settles lt c le y z := by
      intro y hy z hz
      rcases List.mem_append.mp (hperm₁.mem_iff.mp hy) with hy | hy
      · exact hcross y hy z (List.mem_cons_of_mem _ hz)
      · rw [List.mem_singleton.mp hy]
        exact hxs.1 z hz
    obtain ⟨run₂, hall, hperm₂, hrun₂⟩ := ih hcross₁ hxs.2 hrun₁
    refine ⟨run₂, ?_, ?_, hrun₂⟩
    · rw [insertAll, hinsert, pure_bind, hall]
    · rw [List.append_cons]
      exact hperm₂.trans (hperm₁.append_right xs)

/-- **A run is a chain, made of the elements at the front.** -/
theorem nextRun_spec {xs : List α} (least : Nat) (h : xs.Pairwise (Settles lt c le)) :
    ∃ run rest taken, nextRun lt least xs = pure (run, rest) ∧ xs = taken ++ rest ∧
      run.Perm taken ∧ run.IsChain le ∧ (xs ≠ [] → taken ≠ []) := by
  obtain ⟨run, rest, taken, hsplit, rfl, hperm, hrun, hne⟩ := splitRun_spec h
  obtain ⟨-, hrest, hcross⟩ := List.pairwise_append.mp h
  have hcross' : ∀ x ∈ run, ∀ y ∈ rest.take (least - run.length), Settles lt c le x y :=
    fun x hx y hy => hcross x (hperm.mem_iff.mp hx) y (List.mem_of_mem_take hy)
  obtain ⟨run', hall, hperm', hrun'⟩ :=
    insertAll_spec hcross' (hrest.sublist (List.take_sublist _ _)) hrun
  refine ⟨run', rest.drop (least - run.length), taken ++ rest.take (least - run.length),
    ?_, ?_, hperm'.trans (hperm.append_right _), hrun', fun hxs hnil => ?_⟩
  · rw [nextRun, hsplit, pure_bind]
    dsimp only
    rw [hall, pure_bind]
  · rw [List.append_assoc, List.take_append_drop]
  · exact hne hxs (List.append_eq_nil_iff.mp hnil).1

end SnapshotStore.Sort
