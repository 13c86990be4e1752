import SnapshotStore.Proofs.Sort.Run
import SnapshotStore.Sort.Merge

/-!
# Merging keeps runs in order

**Theorem (`mergeRuns_spec`).** Two runs that are chains are merged into a chain.

`Merged` says what a merge gives: the elements of both runs in a chain which starts and ends where
one of the two runs does, so that more of either run may be put in front of it (`Merged.prepend`) or
behind it (`Merged.append`). A merge only ever does this, one element or one stretch at a time.

`Ready` says what it asks for. Besides the two chains this is a relation between the ends of the
runs, for the last element of the first run is put behind the second without being compared. From
the back the runs are turned round, and so is the relation.
-/

namespace SnapshotStore.Sort

variable {α : Type} {le : α → α → Prop}

theorem forall_head?_cons {p : α → Prop} {x : α} {xs : List α} :
    (∀ z ∈ (x :: xs).head?, p z) ↔ p x := by simp

/-- The elements of two runs in a chain that starts and ends where one of the two runs does. -/
structure Merged (le : α → α → Prop) (first second out : List α) : Prop where
  perm : out.Perm (first ++ second)
  chain : out.IsChain le
  head : ∀ z ∈ out.head?, z ∈ first.head? ∨ z ∈ second.head?
  last : ∀ z ∈ out.getLast?, z ∈ first.getLast? ∨ z ∈ second.getLast?

namespace Merged

variable {first second stretch out : List α}

theorem symm (h : Merged le first second out) : Merged le second first out :=
  ⟨h.perm.trans List.perm_append_comm, h.chain, fun z hz => (h.head z hz).symm,
    fun z hz => (h.last z hz).symm⟩

theorem of_chain (h : first.IsChain le) : Merged le first [] first :=
  ⟨by rw [List.append_nil], h, fun _ hz => .inl hz, fun _ hz => .inl hz⟩

/-- More of one run goes in front, if the other run may follow it. -/
theorem prepend (h : Merged le first second out) (hstretch : (stretch ++ first).IsChain le)
    (hcross : ∀ x ∈ stretch.getLast?, ∀ y ∈ second.head?, le x y) :
    Merged le (stretch ++ first) second (stretch ++ out) := by
  obtain ⟨hchain, -, hnext⟩ := List.isChain_append.mp hstretch
  refine ⟨?_, hchain.append h.chain fun x hx z hz => ?_, fun z hz => ?_, fun z hz => ?_⟩
  · rw [List.append_assoc]
    exact h.perm.append_left stretch
  · rcases h.head z hz with hz | hz
    · exact hnext x hx z hz
    · exact hcross x hx z hz
  · cases stretch with
    | nil => exact h.head z hz
    | cons x stretch => exact .inl hz
  · by_cases hout : out = []
    · have hnil : first = [] := by
        have hperm := h.perm
        rw [hout, List.nil_perm, List.append_eq_nil_iff] at hperm
        exact hperm.1
      rw [hout, List.append_nil] at hz
      rw [hnil, List.append_nil]
      exact .inl hz
    · rw [List.getLast?_append_of_ne_nil _ hout] at hz
      exact (h.last z hz).imp_left List.mem_getLast?_append_of_mem_getLast?

theorem cons {x : α} (h : Merged le first second out) (hchain : (x :: first).IsChain le)
    (hcross : ∀ y ∈ second.head?, le x y) : Merged le (x :: first) second (x :: out) := by
  have hsingle : ([x] ++ first).IsChain le := hchain
  refine h.prepend hsingle fun z hz => ?_
  obtain rfl : x = z := by simpa using hz
  exact hcross

/-- A round of two stretches: one of the first run, which stays in front of the element at the head
of the second, and one of the second, which stays in front of the rest of the first. -/
theorem round {stretch' rest : List α} {y : α} (h : Merged le first second rest)
    (hfirst : (stretch ++ first).IsChain le) (hsecond : (y :: (stretch' ++ second)).IsChain le)
    (hstretch : ∀ x ∈ stretch.getLast?, le x y) (hnext : ∀ x ∈ first.head?, le y x)
    (hstretch' : ∀ z ∈ stretch'.getLast?, ∀ x ∈ first.head?, le z x) :
    Merged le (stretch ++ first) (y :: (stretch' ++ second))
      (stretch ++ y :: (stretch' ++ rest)) := by
  have hbehind := (h.symm.prepend hsecond.tail hstretch').cons hsecond hnext
  exact hbehind.symm.prepend hfirst fun x hx => forall_head?_cons.mpr (hstretch x hx)

/-- Turned round, the two runs are in the opposite order. -/
theorem reverse (h : Merged le first second out) :
    Merged (flip le) first.reverse second.reverse out.reverse := by
  refine ⟨?_, List.isChain_reverse.mpr h.chain, fun z hz => ?_, fun z hz => ?_⟩
  · refine (List.reverse_perm out).trans (h.perm.trans ?_)
    exact (List.reverse_perm first).symm.append (List.reverse_perm second).symm
  · rw [List.head?_reverse] at hz ⊢
    rw [List.head?_reverse]
    exact h.last z hz
  · rw [List.getLast?_reverse] at hz ⊢
    rw [List.getLast?_reverse]
    exact h.head z hz

/-- More of one run goes behind, if it may follow the other run. -/
theorem append (h : Merged le first second out) (hstretch : (first ++ stretch).IsChain le)
    (hcross : ∀ y ∈ second.getLast?, ∀ x ∈ stretch.head?, le y x) :
    Merged le (first ++ stretch) second (out ++ stretch) := by
  have hchain : (stretch.reverse ++ first.reverse).IsChain (flip le) := by
    rw [← List.reverse_append]
    exact List.isChain_reverse.mpr hstretch
  have hmerged := (h.reverse.prepend hchain fun x hx y hy => hcross y
    (by rwa [List.head?_reverse] at hy) x (by rwa [List.getLast?_reverse] at hx)).reverse
  simpa using hmerged

end Merged

variable {m : Type → Type} [Monad m] {lt : α → α → m Bool} {c : α → α → Bool}

/-! ## Runs to be merged -/

/-- Two runs that are ready to be merged in the direction of a relation: the second one's end may
stand in front of the first one's. -/
structure Ready (lt : α → α → m Bool) (c : α → α → Bool) (le r : α → α → Prop)
    (first second : List α) : Prop where
  cross : ∀ x ∈ first, ∀ y ∈ second, Settles lt c le x y
  chain_first : first.IsChain r
  chain_second : second.IsChain r
  ends : ∀ x ∈ first.getLast?, ∀ y ∈ second.getLast?, le y x

namespace Ready

variable {r : α → α → Prop} {first second stretch : List α}

theorem drop_first (h : Ready lt c le r (stretch ++ first) second) :
    Ready lt c le r first second :=
  ⟨fun x hx => h.cross x (List.mem_append_right _ hx), h.chain_first.right_of_append,
    h.chain_second, fun x hx => h.ends x (List.mem_getLast?_append_of_mem_getLast? hx)⟩

theorem drop_second (h : Ready lt c le r first (stretch ++ second)) :
    Ready lt c le r first second :=
  ⟨fun x hx y hy => h.cross x hx y (List.mem_append_right _ hy), h.chain_first,
    h.chain_second.right_of_append,
    fun x hx y hy => h.ends x hx y (List.mem_getLast?_append_of_mem_getLast? hy)⟩

theorem tail_first {x : α} (h : Ready lt c le r (x :: first) second) :
    Ready lt c le r first second := by
  have happend : Ready lt c le r ([x] ++ first) second := h
  exact happend.drop_first

theorem tail_second {y : α} (h : Ready lt c le r first (y :: second)) :
    Ready lt c le r first second := by
  have happend : Ready lt c le r first ([y] ++ second) := h
  exact happend.drop_second

/-- Turned round, the second run must start in front of the first. -/
theorem reverse (h : Ready lt c le le first second)
    (hstart : ∀ x ∈ first.head?, ∀ y ∈ second.head?, le y x) :
    Ready lt c le (flip le) first.reverse second.reverse := by
  refine ⟨fun x hx y hy => h.cross x (List.mem_reverse.mp hx) y (List.mem_reverse.mp hy),
    List.isChain_reverse.mpr h.chain_first, List.isChain_reverse.mpr h.chain_second, ?_⟩
  rw [List.getLast?_reverse, List.getLast?_reverse]
  exact hstart

end Ready

/-! ## The ends of a merge -/

theorem frontEnd?_eq_none {first second : List α} (h : frontEnd? first second = none) :
    (∃ x x' first', first = x :: x' :: first') ∧ ∃ y second', second = y :: second' := by
  rcases first with _ | ⟨x, _ | ⟨x', first'⟩⟩ <;> rcases second with _ | ⟨y, second'⟩ <;>
    simp_all [frontEnd?]

theorem frontEnd?_spec {first second rest : List α} (h : frontEnd? first second = some rest)
    (hready : Ready lt c le le first second) : Merged le first second rest := by
  unfold frontEnd? at h
  split at h <;> cases h
  · exact .of_chain hready.chain_first
  · exact (Merged.of_chain hready.chain_second).symm
  · next x _ =>
    have hchain : (second ++ []).IsChain le := by
      rw [List.append_nil]
      exact hready.chain_second
    have hmerged := (Merged.of_chain hready.chain_first).symm.prepend hchain fun y hy =>
      forall_head?_cons.mpr (hready.ends x rfl y hy)
    rw [List.append_nil] at hmerged
    exact hmerged.symm

theorem backEnd?_eq_none {first second done : List α} (h : backEnd? first second done = none) :
    (∃ x first', first = x :: first') ∧ ∃ y y' second', second = y :: y' :: second' := by
  rcases first with _ | ⟨x, first'⟩ <;> rcases second with _ | ⟨y, _ | ⟨y', second'⟩⟩ <;>
    simp_all [backEnd?]

theorem backEnd?_spec {first second done all : List α}
    (h : backEnd? first second done = some all)
    (hready : Ready lt c le (flip le) first second) :
    ∃ out, all = out.reverse ++ done ∧ Merged (flip le) first second out := by
  unfold backEnd? at h
  split at h <;> cases h
  · exact ⟨second, rfl, (Merged.of_chain hready.chain_second).symm⟩
  · exact ⟨first, rfl, .of_chain hready.chain_first⟩
  · next y _ =>
    have hchain : (first ++ []).IsChain (flip le) := by
      rw [List.append_nil]
      exact hready.chain_first
    have hmerged := (Merged.of_chain hready.chain_second).symm.prepend hchain fun x hx =>
      forall_head?_cons.mpr (hready.ends x hx y rfl)
    rw [List.append_nil] at hmerged
    exact ⟨first ++ [y], by simp, hmerged⟩

variable [LawfulMonad m]

/-! ## Stretches -/

/-- The stretch of the first run which stays in front of an element of the second. -/
theorem gallop_less {xs : List α} {y : α} (h : ∀ x ∈ xs, Settles lt c le x y) (hint : Nat)
    (hhint : hint ≤ xs.length) :
    ∃ i, gallop (fun z => lt y z) xs hint = pure i ∧ i ≤ xs.length ∧
      (∀ x ∈ (xs.drop i).head?, le y x) ∧ ∀ x ∈ (xs.take i).getLast?, le x y := by
  obtain ⟨i, hi, hboundary⟩ := gallop_spec (fun x hx => (h x hx).asks) hint hhint
  refine ⟨i, hi, hboundary.le, fun x hx => ?_, fun x hx => ?_⟩
  · exact (h x (List.mem_of_mem_drop (List.mem_of_mem_head? hx))).less (hboundary.behind x hx)
  · exact (h x (List.mem_of_mem_take (List.mem_of_mem_getLast? hx))).notLess
      (hboundary.front x hx)

/-- The stretch of the second run which goes in front of an element of the first. -/
theorem gallop_notLess {ys : List α} {x : α} (h : ∀ y ∈ ys, Settles lt c le x y) (hint : Nat)
    (hhint : hint ≤ ys.length) :
    ∃ i, gallop (fun z => do pure !(← lt z x)) ys hint = pure i ∧ i ≤ ys.length ∧
      (∀ y ∈ (ys.drop i).head?, le x y) ∧ ∀ y ∈ (ys.take i).getLast?, le y x := by
  have hasks : ∀ y ∈ ys, (do pure !(← lt y x)) = (pure (!c y x) : m Bool) := by
    intro y hy
    rw [(h y hy).asks, pure_bind]
  obtain ⟨i, hi, hboundary⟩ := gallop_spec hasks hint hhint
  refine ⟨i, hi, hboundary.le, fun y hy => ?_, fun y hy => ?_⟩
  · exact (h y (List.mem_of_mem_drop (List.mem_of_mem_head? hy))).notLess
      (by simpa using hboundary.behind y hy)
  · exact (h y (List.mem_of_mem_take (List.mem_of_mem_getLast? hy))).less
      (by simpa using hboundary.front y hy)

/-! ## From the front -/

theorem mergeFront_spec {fuel threshold : Nat} {pace : Pace} {first second : List α}
    (hfuel : first.length + second.length ≤ fuel) (h : Ready lt c le le first second) :
    ∃ out t, mergeFront lt fuel pace threshold first second = pure (out, t) ∧
      Merged le first second out := by
  induction fuel generalizing pace threshold first second with
  | zero =>
    obtain rfl : first = [] := List.eq_nil_of_length_eq_zero (by omega)
    obtain rfl : second = [] := List.eq_nil_of_length_eq_zero (by simpa using hfuel)
    exact ⟨[], threshold, rfl, .of_chain h.chain_first⟩
  | succ fuel ih =>
    unfold mergeFront
    cases hend : frontEnd? first second with
    | some rest => exact ⟨rest, threshold, rfl, frontEnd?_spec hend h⟩
    | none =>
      obtain ⟨⟨x, x', first', rfl⟩, y, second', rfl⟩ := frontEnd?_eq_none hend
      have hxy := h.cross x (List.mem_cons_self ..) y (List.mem_cons_self ..)
      dsimp only
      split
      · rw [hxy.asks, pure_bind]
        by_cases hless : c y x = true
        · obtain ⟨out, t', hout, hmerged⟩ := ih (by simp at hfuel ⊢; omega) h.tail_second
          rw [if_pos hless, hout, pure_bind]
          exact ⟨_, _, rfl, (hmerged.symm.cons h.chain_second
            (forall_head?_cons.mpr (hxy.less hless))).symm⟩
        · obtain ⟨out, t', hout, hmerged⟩ := ih (by simp at hfuel ⊢; omega) h.tail_first
          rw [if_neg hless, hout, pure_bind]
          exact ⟨_, _, rfl, hmerged.cons h.chain_first
            (forall_head?_cons.mpr (hxy.notLess (by simpa using hless)))⟩
      -- A galloping round: a stretch of the first run, `y`, a stretch of the second, and `z`.
      · obtain ⟨a, ha, -, hbehind, hfront⟩ := gallop_less
          (fun z hz => h.cross z hz y (List.mem_cons_self ..)) 0 (Nat.zero_le _)
        have hsplit := List.take_append_drop a (x :: x' :: first')
        rw [ha, pure_bind]
        generalize List.take a (x :: x' :: first') = stretch at *
        generalize List.drop a (x :: x' :: first') = xs at *
        rw [← hsplit] at h hfuel ⊢
        cases hend₁ : frontEnd? xs (y :: second') with
        | some rest =>
          have hmerged := frontEnd?_spec hend₁ h.drop_first
          exact ⟨_, _, rfl, hmerged.prepend h.chain_first fun z hz =>
            forall_head?_cons.mpr (hfront z hz)⟩
        | none =>
          obtain ⟨⟨z, z', xs', rfl⟩, -⟩ := frontEnd?_eq_none hend₁
          dsimp only
          cases hend₂ : frontEnd? (z :: z' :: xs') second' with
          | some rest =>
            have hmerged := frontEnd?_spec hend₂ h.drop_first.tail_second
            have hround : Merged le _ (y :: ([] ++ second')) _ :=
              hmerged.round h.chain_first h.chain_second hfront hbehind (by simp)
            exact ⟨_, _, rfl, hround⟩
          | none =>
            obtain ⟨b, hb, -, hbehind', hfront'⟩ := gallop_notLess
              (h.drop_first.tail_second.cross z (List.mem_cons_self ..)) 0 (Nat.zero_le _)
            have hsplit' := List.take_append_drop b second'
            dsimp only
            rw [hb, pure_bind]
            generalize List.take b second' = stretch' at *
            generalize List.drop b second' = ys at *
            subst hsplit'
            have hready := h.drop_first.tail_second.drop_second
            have hround {rest : List α} (hrest : Merged le (z :: z' :: xs') ys rest) :=
              hrest.round h.chain_first h.chain_second hfront hbehind
                fun w hw => forall_head?_cons.mpr (hfront' w hw)
            cases hend₃ : frontEnd? (z :: z' :: xs') ys with
            | some rest => exact ⟨_, _, rfl, hround (frontEnd?_spec hend₃ hready)⟩
            | none =>
              simp only [List.length_append, List.length_cons] at hfuel
              obtain ⟨out, t, hout, hmerged⟩ := ih (by simp only [List.length_cons]; omega)
                hready.tail_first
              dsimp only
              rw [hout, pure_bind]
              exact ⟨_, _, rfl, hround (hmerged.cons hready.chain_first hbehind')⟩

/-! ## From the back -/

/-- The stretch of the first run which stays in front of an element of the second, looked for from
the back. -/
theorem gallop_less_back {xs : List α} {y : α} (h : ∀ x ∈ xs, Settles lt c le x y) :
    ∃ i, gallop (fun z => lt y z) xs.reverse (xs.length - 1) = pure i ∧
      (∀ x ∈ (xs.take (xs.length - i)).getLast?, le y x) ∧
      ∀ x ∈ (xs.drop (xs.length - i)).head?, le x y := by
  obtain ⟨i, hi, -, hbehind, hfront⟩ := gallop_less
    (fun x hx => h x (List.mem_reverse.mp hx)) (xs.length - 1) (by simp)
  rw [List.drop_reverse, List.head?_reverse] at hbehind
  rw [List.take_reverse, List.getLast?_reverse] at hfront
  exact ⟨i, hi, hbehind, hfront⟩

/-- The stretch of the second run which goes in front of an element of the first, looked for from
the back. -/
theorem gallop_notLess_back {ys : List α} {x : α} (h : ∀ y ∈ ys, Settles lt c le x y) :
    ∃ i, gallop (fun z => do pure !(← lt z x)) ys.reverse (ys.length - 1) = pure i ∧
      (∀ y ∈ (ys.take (ys.length - i)).getLast?, le x y) ∧
      ∀ y ∈ (ys.drop (ys.length - i)).head?, le y x := by
  obtain ⟨i, hi, -, hbehind, hfront⟩ := gallop_notLess
    (fun y hy => h y (List.mem_reverse.mp hy)) (ys.length - 1) (by simp)
  rw [List.drop_reverse, List.head?_reverse] at hbehind
  rw [List.take_reverse, List.getLast?_reverse] at hfront
  exact ⟨i, hi, hbehind, hfront⟩

theorem mergeBack_spec {fuel threshold : Nat} {pace : Pace} {first second done : List α}
    (hfuel : first.length + second.length ≤ fuel)
    (h : Ready lt c le (flip le) first second) :
    ∃ out t, mergeBack lt fuel pace threshold first second done = pure (out.reverse ++ done, t) ∧
      Merged (flip le) first second out := by
  induction fuel generalizing pace threshold first second done with
  | zero =>
    obtain rfl : first = [] := List.eq_nil_of_length_eq_zero (by omega)
    obtain rfl : second = [] := List.eq_nil_of_length_eq_zero (by simpa using hfuel)
    exact ⟨[], threshold, rfl, .of_chain h.chain_first⟩
  | succ fuel ih =>
    unfold mergeBack
    cases hend : backEnd? first second done with
    | some all =>
      obtain ⟨out, rfl, hmerged⟩ := backEnd?_spec hend h
      exact ⟨out, threshold, rfl, hmerged⟩
    | none =>
      obtain ⟨⟨x, first', rfl⟩, y, y', second', rfl⟩ := backEnd?_eq_none hend
      have hxy := h.cross x (List.mem_cons_self ..) y (List.mem_cons_self ..)
      dsimp only
      split
      · rw [hxy.asks, pure_bind]
        by_cases hless : c y x = true
        · obtain ⟨out, t, hout, hmerged⟩ := ih (by simp at hfuel ⊢; omega) h.tail_first
          rw [if_pos hless, hout]
          exact ⟨x :: out, t, by simp, hmerged.cons h.chain_first
            (forall_head?_cons.mpr (hxy.less hless))⟩
        · obtain ⟨out, t, hout, hmerged⟩ := ih (by simp at hfuel ⊢; omega) h.tail_second
          rw [if_neg hless, hout]
          exact ⟨y :: out, t, by simp, (hmerged.symm.cons h.chain_second
            (forall_head?_cons.mpr (hxy.notLess (by simpa using hless)))).symm⟩
      · next _ t _ _ =>
        obtain ⟨a, ha, hfront, hbehind⟩ := gallop_less_back
          fun z hz => h.cross z hz y (List.mem_cons_self ..)
        have hsplit := List.take_append_drop ((x :: first').length - a) (x :: first')
        rw [ha, pure_bind]
        generalize List.take ((x :: first').length - a) (x :: first') = stretch at *
        generalize List.drop ((x :: first').length - a) (x :: first') = xs at *
        rw [← hsplit] at h hfuel ⊢
        cases hend₁ : backEnd? xs (y :: y' :: second') (stretch.reverse ++ done) with
        | some all =>
          obtain ⟨out, rfl, hmerged⟩ := backEnd?_spec hend₁ h.drop_first
          exact ⟨stretch ++ out, t, by simp, hmerged.prepend h.chain_first fun z hz =>
            forall_head?_cons.mpr (hfront z hz)⟩
        | none =>
          obtain ⟨⟨z, xs', rfl⟩, -⟩ := backEnd?_eq_none hend₁
          dsimp only
          cases hend₂ : backEnd? (z :: xs') (y' :: second') (y :: (stretch.reverse ++ done)) with
          | some all =>
            obtain ⟨out, rfl, hmerged⟩ := backEnd?_spec hend₂ h.drop_first.tail_second
            have hround : Merged (flip le) _ (y :: ([] ++ y' :: second')) _ :=
              hmerged.round h.chain_first h.chain_second hfront hbehind (by simp)
            exact ⟨_, t, by simp, hround⟩
          | none =>
            obtain ⟨b, hb, hfront', hbehind'⟩ := gallop_notLess_back
              (h.drop_first.tail_second.cross z (List.mem_cons_self ..))
            have hsplit' := List.take_append_drop ((y' :: second').length - b) (y' :: second')
            dsimp only
            rw [hb, pure_bind]
            generalize List.take ((y' :: second').length - b) (y' :: second') = stretch' at *
            generalize List.drop ((y' :: second').length - b) (y' :: second') = ys at *
            rw [← hsplit'] at h hfuel ⊢
            have hready := h.drop_first.tail_second.drop_second
            have hround {rest : List α} (hrest : Merged (flip le) (z :: xs') ys rest) :=
              hrest.round h.chain_first h.chain_second hfront hbehind
                fun w hw => forall_head?_cons.mpr (hfront' w hw)
            cases hend₃ : backEnd? (z :: xs') ys
                (stretch'.reverse ++ y :: (stretch.reverse ++ done)) with
            | some all =>
              obtain ⟨out, rfl, hmerged⟩ := backEnd?_spec hend₃ hready
              exact ⟨_, t, by simp, hround hmerged⟩
            | none =>
              simp only [List.length_append, List.length_cons] at hfuel
              obtain ⟨out, t', hout, hmerged⟩ := ih (by omega) hready.tail_first
              dsimp only
              rw [hout]
              exact ⟨_, t', by simp, hround (hmerged.cons hready.chain_first hbehind')⟩

/-! ## Two runs -/

theorem mergeOverlap_spec {threshold : Nat} {first second : List α}
    (h : Ready lt c le le first second)
    (hstart : ∀ x ∈ first.head?, ∀ y ∈ second.head?, le y x) :
    ∃ out t, mergeOverlap lt threshold first second = pure (out, t) ∧
      Merged le first second out := by
  unfold mergeOverlap
  dsimp only
  split_ifs
  · cases second with
    | nil => exact ⟨first, threshold, rfl, .of_chain h.chain_first⟩
    | cons y second =>
      obtain ⟨out, t, hout, hmerged⟩ := mergeFront_spec
        (Nat.add_le_add_left (Nat.le_succ second.length) first.length) h.tail_second
      dsimp only
      rw [List.length_cons, hout, pure_bind]
      exact ⟨y :: out, t, rfl,
        (hmerged.symm.cons h.chain_second fun x hx => hstart x hx y rfl).symm⟩
  · cases hturned : first.reverse with
    | nil =>
      obtain rfl : first = [] := List.reverse_eq_nil_iff.mp hturned
      exact ⟨second, threshold, rfl, (Merged.of_chain h.chain_second).symm⟩
    | cons x turned =>
      have hback : Ready lt c le (flip le) (x :: turned) second.reverse := by
        rw [← hturned]
        exact h.reverse hstart
      have hlast : x ∈ first.getLast? := by
        rw [← List.head?_reverse, hturned]
        rfl
      have hfuel : turned.length + second.reverse.length ≤ first.length + second.length := by
        have hlength := congrArg List.length hturned
        rw [List.length_reverse, List.length_cons] at hlength
        rw [List.length_reverse]
        omega
      obtain ⟨out, t, hout, hmerged⟩ := mergeBack_spec hfuel hback.tail_first
      have hall := (hmerged.cons hback.chain_first fun y hy => h.ends x hlast y (by
        rwa [List.head?_reverse] at hy)).reverse
      rw [← hturned, List.reverse_reverse, List.reverse_reverse] at hall
      dsimp only
      rw [hout]
      exact ⟨(x :: out).reverse, t, by rw [List.reverse_cons], hall⟩

/-- **Two chains are merged into a chain.** -/
theorem mergeRuns_spec {first second : List α} (threshold : Nat)
    (hcross : ∀ x ∈ first, ∀ y ∈ second, Settles lt c le x y) (hfirst : first.IsChain le)
    (hsecond : second.IsChain le) :
    ∃ out t, mergeRuns lt threshold first second = pure (out, t) ∧
      Merged le first second out := by
  unfold mergeRuns
  cases second with
  | nil => exact ⟨first, threshold, rfl, .of_chain hfirst⟩
  | cons y second =>
    obtain ⟨start, hstart, -, hbehind, hfront⟩ := gallop_less
      (fun x hx => hcross x hx y (List.mem_cons_self ..)) 0 (Nat.zero_le _)
    have hsplit := List.take_append_drop start first
    dsimp only
    rw [hstart, pure_bind]
    generalize first.take start = front at *
    generalize first.drop start = first' at *
    subst hsplit
    have hfront' : ∀ x ∈ front.getLast?, ∀ z ∈ (y :: second).head?, le x z := fun x hx =>
      forall_head?_cons.mpr (hfront x hx)
    cases hlast : first'.getLast? with
    | none =>
      obtain rfl : first' = [] := List.getLast?_eq_none_iff.mp hlast
      refine ⟨_, _, rfl, ?_⟩
      have hmerged := (Merged.of_chain hsecond).symm.prepend hfirst hfront'
      rwa [List.append_nil] at hmerged ⊢
    | some x =>
      have hx : x ∈ front ++ first' := List.mem_append_right _ (List.mem_of_mem_getLast? hlast)
      obtain ⟨stop, hstop, -, hbehind', hfront''⟩ := gallop_notLess (hcross x hx)
        ((y :: second).length - 1) (Nat.sub_le _ _)
      have hsplit := List.take_append_drop stop (y :: second)
      dsimp only
      rw [hstop, pure_bind]
      generalize (y :: second).take stop = second' at *
      generalize (y :: second).drop stop = back at *
      have hhead : ∀ w ∈ second'.head?, y = w := by
        intro w hw
        have hw := List.mem_head?_append_of_mem_head? (t := back) hw
        rw [hsplit] at hw
        exact Option.some.inj hw
      have hend : ∀ z ∈ first'.getLast?, x = z := fun z hz => Option.some.inj (hlast.symm.trans hz)
      rw [← hsplit] at hcross hsecond hfront' ⊢
      have hready : Ready lt c le le first' second' :=
        ⟨fun z hz w hw => hcross z (List.mem_append_right _ hz) w (List.mem_append_left _ hw),
          hfirst.right_of_append, hsecond.left_of_append,
          fun z hz w hw => hend z hz ▸ hfront'' w hw⟩
      obtain ⟨out, t, hout, hmerged⟩ := mergeOverlap_spec hready
        fun z hz w hw => hhead w hw ▸ hbehind z hz
      have hbacked := (hmerged.symm.append hsecond fun z hz w hw =>
        hend z hz ▸ hbehind' w hw).symm.prepend hfirst hfront'
      rw [hout, pure_bind]
      exact ⟨_, t, rfl, hbacked⟩

end SnapshotStore.Sort
