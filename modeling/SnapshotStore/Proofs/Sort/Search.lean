import Mathlib.Data.List.Chain
import SnapshotStore.Sort.Search

/-!
# Where a search stops

**Theorem (`gallop_spec`).** A search splits a list at a boundary: the element behind it was seen to
meet the condition, and the element in front of it was seen not to.

Nothing is said about other elements, for the condition need not turn only once. This is why the
sort puts neighbours right even where the comparison is no order.

The condition is asked by `after`, whose answers on the list have no effect and are those of `c`.
-/

namespace SnapshotStore.Sort

variable {m : Type → Type} [Monad m] {α : Type} {after : α → m Bool} {c : α → Bool} {xs : List α}

/-- An element at an index meets the condition; past the end the condition counts as met. -/
def metAt (c : α → Bool) (xs : List α) (i : Nat) : Bool := xs[i]?.all c

theorem metAt_end {i : Nat} (h : xs.length ≤ i) : metAt c xs i = true := by
  unfold metAt
  rw [List.getElem?_eq_none h]
  rfl

theorem probe_eq (h : ∀ x ∈ xs, after x = pure (c x)) (i : Nat) :
    probe after xs i = pure (metAt c xs i) := by
  unfold probe metAt
  cases hx : xs[i]? with
  | none => rfl
  | some x => exact h x (List.mem_of_getElem? hx)

/-! ## Halving and widening -/

section

variable [LawfulMonad m]

theorem bisect_spec (h : ∀ x ∈ xs, after x = pure (c x)) (low high : Nat) (hle : low ≤ high)
    (hlow : low = 0 ∨ metAt c xs (low - 1) = false) (hhigh : metAt c xs high = true) :
    ∃ i, bisect after xs low high = pure i ∧ i ≤ high ∧ metAt c xs i = true ∧
      (i = 0 ∨ metAt c xs (i - 1) = false) := by
  induction low, high using bisect.induct with
  | case1 low high hlt middle ihleft ihright =>
    have hmiddle : middle = low + (high - low) / 2 := rfl
    rw [bisect, if_pos hlt]
    dsimp only
    rw [← hmiddle, probe_eq h, pure_bind]
    by_cases hmet : metAt c xs middle = true
    · obtain ⟨i, hi, hle', hi'⟩ := ihleft (by omega) hlow hmet
      rw [if_pos hmet]
      exact ⟨i, hi, by omega, hi'⟩
    · rw [if_neg hmet]
      exact ihright (by omega) (.inr (by simpa using hmet)) hhigh
  | case2 low high hge =>
    obtain rfl : low = high := by omega
    rw [bisect, if_neg hge]
    exact ⟨low, rfl, Nat.le_refl _, hhigh, hlow⟩

theorem widen_spec {stop : Nat → m Bool} {s : Nat → Bool} (h : ∀ k, stop k = pure (s k))
    (limit last offset : Nat) (hlast : last < limit) (hlt : last < offset)
    (hgo : last = 0 ∨ s last = false) :
    ∃ r : Nat × Nat, widen stop limit last offset = pure r ∧ r.1 < r.2 ∧ r.2 ≤ limit ∧
      (r.1 = 0 ∨ s r.1 = false) ∧ (r.2 = limit ∨ s r.2 = true) := by
  induction last, offset using widen.induct limit with
  | case1 last offset hoffset ih =>
    rw [widen, if_pos hoffset, h, pure_bind]
    by_cases hstop : s offset = true
    · rw [if_pos hstop]
      exact ⟨(last, offset), rfl, hlt, by omega, hgo, .inr hstop⟩
    · rw [if_neg hstop]
      exact ih hoffset (by omega) (.inr (by simpa using hstop))
  | case2 last offset hoffset =>
    rw [widen, if_neg hoffset]
    exact ⟨(last, limit), rfl, hlast, Nat.le_refl _, hgo, .inl rfl⟩

end

/-! ## Boundaries -/

/-- An index at which a list is split: the element behind it meets a condition, and the element in
front of it does not. -/
structure Boundary (c : α → Bool) (xs : List α) (i : Nat) : Prop where
  le : i ≤ xs.length
  behind : ∀ x ∈ (xs.drop i).head?, c x = true
  front : ∀ x ∈ (xs.take i).getLast?, c x = false

theorem boundary_of_metAt {i : Nat} (hle : i ≤ xs.length) (hbehind : metAt c xs i = true)
    (hfront : i = 0 ∨ metAt c xs (i - 1) = false) : Boundary c xs i := by
  refine ⟨hle, fun x hx => ?_, fun x hx => ?_⟩
  · rw [List.head?_drop] at hx
    rw [metAt, hx] at hbehind
    exact hbehind
  · by_cases hi : i = 0
    · subst hi
      simp at hx
    · have hsome : xs[i - 1]? = some xs[i - 1] := List.getElem?_eq_getElem (by omega)
      rw [List.getLast?_take, if_neg hi, hsome] at hx
      obtain rfl : xs[i - 1] = x := by simpa using hx
      have hmet := hfront.resolve_left hi
      rw [metAt, hsome] at hmet
      exact hmet

variable [LawfulMonad m]

/-- **A search splits a list at a boundary.** -/
theorem gallop_spec (h : ∀ x ∈ xs, after x = pure (c x)) (hint : Nat) (hhint : hint ≤ xs.length) :
    ∃ i, gallop after xs hint = pure i ∧ Boundary c xs i := by
  unfold gallop
  rw [probe_eq h, pure_bind]
  by_cases hmet : metAt c xs hint = true
  · have hstop : ∀ k, (do pure !(← probe after xs (hint - k))) =
        (pure (!metAt c xs (hint - k)) : m Bool) := by
      intro k
      rw [probe_eq h, pure_bind]
    obtain ⟨⟨last, offset⟩, hr, hlt, hlimit, hlast, hoffset⟩ :=
      widen_spec hstop (hint + 1) 0 1 (by omega) (by omega) (.inl rfl)
    dsimp only at hlt hlimit hlast hoffset
    have hlow : hint + 1 - offset = 0 ∨ metAt c xs (hint + 1 - offset - 1) = false := by
      rcases hoffset with rfl | hoffset
      · exact .inl (by omega)
      · rw [show hint + 1 - offset - 1 = hint - offset by omega]
        exact .inr (by simpa using hoffset)
    have hhigh : metAt c xs (hint - last) = true := by
      rcases hlast with rfl | hlast
      · exact hmet
      · simpa using hlast
    obtain ⟨i, hi, hle, hbehind, hfront⟩ :=
      bisect_spec h (hint + 1 - offset) (hint - last) (by omega) hlow hhigh
    refine ⟨i, ?_, boundary_of_metAt (by omega) hbehind hfront⟩
    rw [if_pos hmet, hr, pure_bind]
    exact hi
  · have hlength : hint < xs.length := by
      by_contra hge
      exact hmet (metAt_end (by omega))
    obtain ⟨⟨last, offset⟩, hr, hlt, hlimit, hlast, hoffset⟩ :=
      widen_spec (fun k => probe_eq h (hint + k)) (xs.length - hint) 0 1 (by omega) (by omega)
        (.inl rfl)
    dsimp only at hlt hlimit hlast hoffset
    have hlow : metAt c xs (hint + last + 1 - 1) = false := by
      rcases hlast with rfl | hlast
      · simpa using hmet
      · exact hlast
    have hhigh : metAt c xs (hint + offset) = true := by
      rcases hoffset with rfl | hoffset
      · exact metAt_end (by omega)
      · exact hoffset
    obtain ⟨i, hi, hle, hbehind, hfront⟩ :=
      bisect_spec h (hint + last + 1) (hint + offset) (by omega) (.inr hlow) hhigh
    refine ⟨i, ?_, boundary_of_metAt (by omega) hbehind hfront⟩
    rw [if_neg hmet, hr, pure_bind]
    exact hi

theorem bisect_boundary (h : ∀ x ∈ xs, after x = pure (c x)) :
    ∃ i, bisect after xs 0 xs.length = pure i ∧ Boundary c xs i := by
  obtain ⟨i, hi, hle, hbehind, hfront⟩ :=
    bisect_spec h 0 xs.length (Nat.zero_le _) (.inl rfl) (metAt_end (Nat.le_refl _))
  exact ⟨i, hi, boundary_of_metAt hle hbehind hfront⟩

end SnapshotStore.Sort
