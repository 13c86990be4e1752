import Mathlib.Data.Nat.Log
import Mathlib.Tactic.IntervalCases
import Mathlib.Tactic.Positivity
import Mathlib.Tactic.Ring
import SnapshotStore.Number.Decimal

/-!
# Decimal text and rounding

**Theorem (`ofDecimal_shortest`).** The digits that a finite number is written with are rounded to
the number itself.

Two facts carry it. Rounding a quotient looks only at its value (`roundUnits_mul_left`), so zeros
may be moved between a coefficient and its exponent (`ofDecimal_mul_pow`); and a quotient that is a
finite number's size is rounded to that number (`roundUnits_magnitude`), so the exact expansion,
which stands in where no short grid serves, reads back as well.
-/

namespace SnapshotStore

/-! ## Digits -/

theorem digitsOf_ne_nil (n : Nat) : digitsOf n ≠ [] := Nat.toDigits_ne_nil

theorem isDigit_of_mem_digitsOf {n : Nat} {c : Char} (h : c ∈ digitsOf n) : c.isDigit = true :=
  Nat.isDigit_of_mem_toDigits (by decide) (by decide) h

@[simp] theorem natOfDigits_digitsOf (n : Nat) : natOfDigits (digitsOf n) = n :=
  Nat.ofDigitChars_ten_toDigits

theorem natOfDigits_append (ds es : List Char) :
    natOfDigits (ds ++ es) = natOfDigits ds * 10 ^ es.length + natOfDigits es := by
  unfold natOfDigits
  rw [Nat.ofDigitChars_append, Nat.ofDigitChars_eq_ofDigitChars_zero, Nat.mul_comm]

theorem natOfDigits_lt {digits : List Char} (h : ∀ c ∈ digits, c.isDigit = true) :
    natOfDigits digits < 10 ^ digits.length := by
  induction digits using List.reverseRecOn with
  | nil => simp [natOfDigits]
  | append_singleton digits c ih =>
    have hlt := ih fun d hd => h d (List.mem_append_left _ hd)
    have hc : natOfDigits [c] < 10 := by
      have hdigit := h c (by simp)
      simp only [Char.isDigit, Bool.and_eq_true, decide_eq_true_eq] at hdigit
      have hle : c.toNat ≤ 57 := hdigit.2
      simp only [natOfDigits, Nat.ofDigitChars_cons, Nat.ofDigitChars_nil]
      have hzero : '0'.toNat = 48 := rfl
      omega
    rw [natOfDigits_append, List.length_append, List.length_singleton, Nat.pow_succ, Nat.pow_zero]
    omega

@[simp] theorem natOfDigits_replicate_zero (n : Nat) : natOfDigits (List.replicate n '0') = 0 := by
  simp [natOfDigits, Nat.ofDigitChars_replicate_zero]

theorem digitsOf_mul_ten {n : Nat} (hn : 0 < n) : digitsOf (n * 10) = digitsOf n ++ ['0'] := by
  have h := Nat.toDigits_append_toDigits (b := 10) (d := 0) (by decide) hn (by decide)
  rw [Nat.toDigits_zero, Nat.add_zero, Nat.mul_comm] at h
  exact h.symm

theorem length_digitsOf_mul_pow {n : Nat} (hn : 0 < n) (k : Nat) :
    (digitsOf (n * 10 ^ k)).length = (digitsOf n).length + k := by
  induction k with
  | zero => simp
  | succ k ih =>
    have hpos : 0 < n * 10 ^ k := Nat.mul_pos hn (Nat.pow_pos (by decide))
    rw [Nat.pow_succ, ← Nat.mul_assoc, digitsOf_mul_ten hpos, List.length_append, ih]
    rfl

/-- Only zero starts with a zero. -/
theorem head_digitsOf_ne_zero {n : Nat} (hn : 0 < n) : (digitsOf n).head? ≠ some '0' := by
  induction n using Nat.strongRecOn with
  | _ n ih =>
    rcases Nat.lt_or_ge n 10 with hlt | hge
    · unfold digitsOf
      rw [Nat.toDigits_of_lt_base hlt]
      interval_cases n <;> decide
    · unfold digitsOf
      have hhead := ih (n / 10) (Nat.div_lt_self hn (by decide)) (Nat.div_pos hge (by decide))
      rw [Nat.toDigits_of_base_le (by decide) hge]
      cases hdigits : Nat.toDigits 10 (n / 10) with
      | nil => exact absurd hdigits Nat.toDigits_ne_nil
      | cons c cs =>
        rw [digitsOf, hdigits] at hhead
        exact hhead

namespace Binary64

/-! ## Rounding -/

theorem canonical_iff {significand shift : Nat} :
    Canonical significand shift ↔
      significand < 2 ^ 53 ∧ shift ≤ 2045 ∧ (shift = 0 ∨ 2 ^ 52 ≤ significand) :=
  Iff.rfl

theorem unitsPerOne_eq : unitsPerOne = 2 ^ 1074 := by
  rw [unitsPerOne, Nat.pow_eq]

/-- Rounding looks only at the quotient. -/
theorem roundUnits_mul_left (negative : Bool) {k : Nat} (hk : 0 < k) (num den : Nat) :
    roundUnits negative (k * num) (k * den) = roundUnits negative num den := by
  have hquot : k * num / (k * den) = num / den := Nat.mul_div_mul_left num den hk
  unfold roundUnits
  simp only [hquot]
  set shift := Nat.log2 (num / den) - 52
  have hstep : (k * den) <<< shift = k * den <<< shift := by
    simp only [Nat.shiftLeft_eq, Nat.mul_assoc]
  have hup : k * den <<< shift < 2 * (k * (num % den <<< shift)) ↔
      den <<< shift < 2 * (num % den <<< shift) := by
    rw [Nat.mul_left_comm 2 k]
    exact Nat.mul_lt_mul_left hk
  have htie : 2 * (k * (num % den <<< shift)) = k * den <<< shift ↔
      2 * (num % den <<< shift) = den <<< shift := by
    rw [Nat.mul_left_comm 2 k]
    exact Nat.mul_right_inj hk.ne'
  simp only [hstep, Nat.mul_div_mul_left _ _ hk, Nat.mul_mod_mul_left, hup, htie]

theorem Finite.magnitude_eq (x : Finite) : x.magnitude = x.significand * 2 ^ x.shift :=
  Nat.shiftLeft_eq _ _

/-- The shift at which a finite number's size is rounded is its own. -/
theorem Finite.log2_magnitude (x : Finite) : Nat.log2 x.magnitude - 52 = x.shift := by
  obtain ⟨hsmall, -, hshift⟩ := canonical_iff.mp x.canonical
  rw [Finite.magnitude_eq]
  rcases hshift with hshift | hfull
  · have hlog : Nat.log2 x.significand ≤ 52 := by
      rcases Nat.eq_zero_or_pos x.significand with hzero | hpos
      · simp [hzero]
      · have := (Nat.log2_lt hpos.ne').mpr hsmall
        omega
    simp only [hshift, Nat.pow_zero, Nat.mul_one]
    omega
  · have hpow : 0 < 2 ^ x.shift := Nat.two_pow_pos _
    have hlog : Nat.log2 (x.significand * 2 ^ x.shift) = 52 + x.shift := by
      refine (Nat.log2_eq_iff (Nat.mul_pos (by omega) hpow).ne').mpr ⟨?_, ?_⟩
      · rw [Nat.pow_add]
        exact Nat.mul_le_mul_right _ hfull
      · rw [Nat.add_right_comm, Nat.pow_add]
        exact Nat.mul_lt_mul_of_pos_right hsmall hpow
    omega

/-- A finite number's size in units is rounded to the number itself. -/
theorem roundUnits_magnitude (x : Finite) {den : Nat} (hden : 0 < den) :
    roundUnits x.negative (x.magnitude * den) den = .finite x := by
  have hsmall : x.significand < Nat.pow 2 53 := x.canonical.1
  have hnum : x.magnitude * den = x.significand * (den <<< x.shift) := by
    rw [Finite.magnitude_eq, Nat.shiftLeft_eq, Nat.mul_assoc, Nat.mul_comm den]
  have hstep : 0 < den <<< x.shift := by
    rw [Nat.shiftLeft_eq]
    exact Nat.mul_pos hden (Nat.two_pow_pos _)
  have hshift : Nat.log2 (x.magnitude * den / den) - 52 = x.shift := by
    rw [Nat.mul_div_cancel _ hden, Finite.log2_magnitude]
  unfold roundUnits
  simp only [hshift]
  simp only [hnum, Nat.mul_mod_left, Nat.mul_div_cancel _ hstep]
  have hup : ¬(den <<< x.shift < 2 * 0 ∨ 2 * 0 = den <<< x.shift ∧ x.significand % 2 = 1) := by
    omega
  rw [if_neg hup, if_neg hsmall.ne, pack, dif_pos x.canonical]

/-! ## Decimals -/

/-- A power of ten may stand in the coefficient or in the exponent. -/
theorem roundUnits_decimal_mul_pow (negative : Bool) (coefficient k : Nat) (exponent : Int) :
    (if exponent ≥ 0 then
      roundUnits negative (coefficient * 10 ^ k * 10 ^ exponent.toNat * unitsPerOne) 1
    else roundUnits negative (coefficient * 10 ^ k * unitsPerOne) (10 ^ (-exponent).toNat)) =
    if exponent + k ≥ 0 then
      roundUnits negative (coefficient * 10 ^ (exponent + k).toNat * unitsPerOne) 1
    else roundUnits negative (coefficient * unitsPerOne) (10 ^ (-(exponent + k)).toNat) := by
  rcases Int.lt_or_le exponent 0 with hneg | hnonneg
  · rw [if_neg (by omega)]
    rcases Int.lt_or_le (exponent + k) 0 with hneg' | hnonneg'
    · have hexp : (-exponent).toNat = k + (-(exponent + k)).toNat := by omega
      rw [if_neg (by omega), hexp, Nat.pow_add, Nat.mul_comm coefficient, Nat.mul_assoc]
      exact roundUnits_mul_left negative (Nat.pow_pos (by decide)) _ _
    · have hexp : k = (-exponent).toNat + (exponent + k).toNat := by omega
      have hnum : coefficient * 10 ^ k * unitsPerOne =
          10 ^ (-exponent).toNat * (coefficient * 10 ^ (exponent + k).toNat * unitsPerOne) := by
        conv_lhs => rw [hexp, Nat.pow_add]
        ring
      rw [if_pos (by omega), hnum]
      simpa using roundUnits_mul_left negative (Nat.pow_pos (by decide)) _ 1
  · have hexp : (exponent + k).toNat = k + exponent.toNat := by omega
    rw [if_pos (by omega), if_pos (by omega), hexp, Nat.pow_add, Nat.mul_assoc coefficient]

/-- A decimal is rounded by its value, however many zeros its coefficient ends in. -/
theorem ofDecimal_mul_pow (negative : Bool) (coefficient k : Nat) (exponent : Int) :
    ofDecimal negative (coefficient * 10 ^ k) exponent =
      ofDecimal negative coefficient (exponent + k) := by
  rcases Nat.eq_zero_or_pos coefficient with rfl | hpos
  · simp [ofDecimal]
  have hpow : 0 < 10 ^ k := Nat.pow_pos (by decide)
  have horder : ((digitsOf (coefficient * 10 ^ k)).length : Int) + exponent =
      (digitsOf coefficient).length + (exponent + k) := by
    rw [length_digitsOf_mul_pow hpos]
    push_cast
    ring
  unfold ofDecimal
  simp only [Nat.pow_eq]
  rw [if_neg (Nat.mul_pos hpos hpow).ne', if_neg hpos.ne', horder, roundUnits_decimal_mul_pow]

theorem ofDecimal_zero (negative : Bool) (exponent : Int) :
    ofDecimal negative 0 exponent = zero negative := if_pos rfl

namespace Finite

/-! ## Shortest digits -/

theorem magnitude_lt (x : Finite) : x.magnitude < 2 ^ 1024 * unitsPerOne := by
  obtain ⟨hsmall, hrange, -⟩ := canonical_iff.mp x.canonical
  calc x.magnitude
      = x.significand * 2 ^ x.shift := magnitude_eq x
    _ < 2 ^ 53 * 2 ^ 2045 := Nat.mul_lt_mul_of_lt_of_le hsmall
        (Nat.pow_le_pow_right (by decide) hrange) (Nat.two_pow_pos _)
    _ = 2 ^ 1024 * unitsPerOne := by rw [unitsPerOne_eq, ← Nat.pow_add, ← Nat.pow_add]

theorem magnitude_pos {x : Finite} (hx : x.significand ≠ 0) : 0 < x.magnitude := by
  rw [magnitude_eq]
  exact Nat.mul_pos (Nat.pos_of_ne_zero hx) (Nat.two_pow_pos _)

/-- The exact decimal expansion reads back. -/
theorem ofDecimal_exact {x : Finite} (hx : x.significand ≠ 0) :
    ofDecimal x.negative (x.magnitude * 5 ^ 1074) (-1074) = .finite x := by
  have hunits : x.magnitude * 5 ^ 1074 * unitsPerOne = x.magnitude * 10 ^ 1074 := by
    rw [unitsPerOne_eq, Nat.mul_assoc, ← Nat.mul_pow]
  have hpos : 0 < x.magnitude * 5 ^ 1074 :=
    Nat.mul_pos (magnitude_pos hx) (by positivity)
  have hlong : (digitsOf (x.magnitude * 5 ^ 1074)).length ≤ 1384 := by
    refine (Nat.length_toDigits_le_iff (by decide) (by decide)).mpr ?_
    calc x.magnitude * 5 ^ 1074
        < 2 ^ 1024 * unitsPerOne * 5 ^ 1074 :=
          Nat.mul_lt_mul_of_pos_right x.magnitude_lt (Nat.pow_pos (by decide))
      _ ≤ 10 ^ 1384 := by decide +kernel
  have hshort : 745 < (digitsOf (x.magnitude * 5 ^ 1074)).length := by
    rw [← Nat.not_le, digitsOf, Nat.length_toDigits_le_iff (by decide) (by decide), Nat.not_lt]
    calc 10 ^ 745
        ≤ 1 * 5 ^ 1074 := by decide +kernel
      _ ≤ x.magnitude * 5 ^ 1074 := Nat.mul_le_mul_right _ (magnitude_pos hx)
  unfold ofDecimal
  rw [if_neg hpos.ne', if_neg (by omega), if_neg (by omega), if_neg (by decide), hunits]
  exact roundUnits_magnitude x (Nat.pow_pos (by decide))

theorem of_filter_eq {α : Type} {p : α → Bool} {items kept : List α} {a : α}
    (h : items.filter p = kept) (ha : a ∈ kept) : p a = true :=
  (List.mem_filter.mp (h ▸ ha)).2

/-- A neighbour is chosen only if it reads back. -/
theorem ofDecimal_of_readable {x : Finite} {exponent : Int} {digits : Nat}
    (h : x.readable exponent = some digits) :
    ofDecimal x.negative digits exponent = .finite x := by
  simp only [readable] at h
  split at h
  · cases h
  · next digits' distance heq =>
    cases h
    simpa using of_filter_eq heq (List.mem_cons_self ..)
  · next a da b db others heq =>
    have ha := of_filter_eq heq (a := (a, da)) (by simp)
    have hb := of_filter_eq heq (a := (b, db)) (by simp)
    simp only [decide_eq_true_eq] at ha hb
    simp only [Option.some.injEq] at h
    split_ifs at h <;> subst h <;> assumption

/-- The shortest digits read back. -/
theorem ofDecimal_shortest {x : Finite} (hx : x.significand ≠ 0) :
    ofDecimal x.negative x.shortest.1 x.shortest.2 = .finite x := by
  simp only [shortest]
  cases hfound : (List.range 17).findSome? fun (n : Nat) =>
      (x.readable (x.decimalOrder - (n + 1))).map fun digits =>
        (digits, x.decimalOrder - (n + 1)) with
  | none =>
    simp only [Option.getD_none, Nat.pow_eq, ofDecimal_exact hx]
  | some hit =>
    obtain ⟨n, -, hn⟩ := List.exists_of_findSome?_eq_some hfound
    obtain ⟨digits, hdigits, rfl⟩ := Option.map_eq_some_iff.mp hn
    exact ofDecimal_of_readable hdigits

theorem shortest_pos {x : Finite} (hx : x.significand ≠ 0) : 0 < x.shortest.1 := by
  refine Nat.pos_of_ne_zero fun hzero => hx ?_
  have h := ofDecimal_shortest hx
  rw [hzero, ofDecimal_zero, zero] at h
  injection h with h
  rw [← h]

end Finite

end Binary64
end SnapshotStore
