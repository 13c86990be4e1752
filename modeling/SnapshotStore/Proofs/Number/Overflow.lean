import SnapshotStore.Number.Arithmetic
import SnapshotStore.Proofs.Number.Rounding
import SnapshotStore.Proofs.Value.Json

/-!
# What is out of range

The greatest finite number is `(2^53 - 1) * 2^971`, and the next one would be `2^1024`. What lies
nearer to the latter is out of range, and so is the middle between the two, where the even
significand wins: `overflowBound`.

**Theorem (`isFinite_roundUnits_iff`).** A quotient of units is rounded to a finite number exactly
if it is below the middle.

The shift at which a quotient is rounded is read off its logarithm, so there are three cases: below
the last shift nothing is out of range, at the last shift only what is rounded up from the greatest
significand, and beyond it everything.

**Theorem (`exists_addAll_iff`).** Numbers have a sum unless an integer out of range has to be
rounded: the sum of the integers in front of the first floating-point number, or an integer behind
it.
-/

namespace SnapshotStore

namespace Binary64

/-- The least size that is out of range. -/
def overflowBound : Nat := (2 ^ 54 - 1) * 2 ^ 970

/-- The shift at which a quotient of units is rounded. -/
def shiftOf (num den : Nat) : Nat := Nat.log2 (num / den) - 52

/-- The significand to which a quotient of units is rounded at its shift. -/
def significandOf (num den : Nat) : Nat :=
  let step := den * Nat.pow 2 (shiftOf num den)
  let low := num / step
  let rest := num % step
  if step < 2 * rest ∨ (2 * rest = step ∧ low % 2 = 1) then low + 1 else low

theorem roundUnits_eq (negative : Bool) (num den : Nat) :
    roundUnits negative num den =
      if significandOf num den = Nat.pow 2 53 then
        pack negative (Nat.pow 2 52) (shiftOf num den + 1)
      else pack negative (significandOf num den) (shiftOf num den) := by
  unfold roundUnits significandOf shiftOf
  simp only [Nat.shiftLeft_eq, Nat.pow_eq]

theorem isFinite_pack {negative : Bool} {significand shift : Nat} :
    (pack negative significand shift).isFinite = true ↔ Canonical significand shift := by
  unfold pack
  split_ifs with h <;> simp [isFinite, h]

section

variable {num den : Nat} (hden : 0 < den)

theorem quotient_lt : num / den < 2 ^ (53 + shiftOf num den) := by
  refine Nat.lt_log2_self.trans_le (Nat.pow_le_pow_right (by decide) ?_)
  unfold shiftOf
  omega

theorem le_quotient (hshift : shiftOf num den ≠ 0) : 2 ^ (52 + shiftOf num den) ≤ num / den := by
  have hlog : Nat.log2 (num / den) = 52 + shiftOf num den := by
    unfold shiftOf at hshift ⊢
    omega
  rw [← hlog]
  refine Nat.log2_self_le fun hzero => hshift ?_
  rw [shiftOf, hzero, Nat.log2_zero]

variable (num den) in
/-- Before it is rounded a significand has at most 53 digits, and all of them but for small
quotients. -/
theorem low_bounds :
    num / (den * 2 ^ shiftOf num den) < 2 ^ 53 ∧
      (shiftOf num den = 0 ∨ 2 ^ 52 ≤ num / (den * 2 ^ shiftOf num den)) := by
  rw [← Nat.div_div_eq_div_mul]
  constructor
  · rw [Nat.div_lt_iff_lt_mul (Nat.two_pow_pos _), ← Nat.pow_add]
    exact quotient_lt
  · refine or_iff_not_imp_left.mpr fun hshift => ?_
    rw [Nat.le_div_iff_mul_le (Nat.two_pow_pos _), ← Nat.pow_add]
    exact le_quotient hshift

/-- A number is finite unless its shift is too large, or would be after rounding up. -/
theorem isFinite_roundUnits_iff_shift (negative : Bool) :
    (roundUnits negative num den).isFinite = true ↔
      shiftOf num den < 2045 ∨ shiftOf num den = 2045 ∧ significandOf num den ≠ 2 ^ 53 := by
  obtain ⟨hlt, hfull⟩ := low_bounds num den
  have hsignificand : significandOf num den = num / (den * 2 ^ shiftOf num den) ∨
      significandOf num den = num / (den * 2 ^ shiftOf num den) + 1 := by
    unfold significandOf
    simp only [Nat.pow_eq]
    split_ifs
    · exact .inr rfl
    · exact .inl rfl
  rw [roundUnits_eq]
  simp only [Nat.pow_eq]
  split_ifs with htop
  · rw [isFinite_pack, canonical_iff]
    omega
  · rw [isFinite_pack, canonical_iff]
    omega

/-- At the last shift only the greatest significand is rounded out of range. -/
theorem significandOf_ne_iff :
    significandOf num den ≠ 2 ^ 53 ↔ num / (den * 2 ^ shiftOf num den) ≠ 2 ^ 53 - 1 ∨
      2 * (num % (den * 2 ^ shiftOf num den)) < den * 2 ^ shiftOf num den := by
  obtain ⟨hlt, -⟩ := low_bounds num den
  unfold significandOf
  simp only [Nat.pow_eq]
  generalize num / (den * 2 ^ shiftOf num den) = low at hlt ⊢
  split_ifs <;> omega

include hden

/-- The middle between two significands, at the shift where the first is the greatest. -/
theorem lt_middle_iff {k : Nat} (hshift : shiftOf num den = k + 1) :
    (num / (den * 2 ^ shiftOf num den) ≠ 2 ^ 53 - 1 ∨
      2 * (num % (den * 2 ^ shiftOf num den)) < den * 2 ^ shiftOf num den) ↔
        num < (2 ^ 54 - 1) * 2 ^ k * den := by
  obtain ⟨hlt, -⟩ := low_bounds num den
  have hdivision := Nat.div_add_mod num (den * 2 ^ shiftOf num den)
  have hrest := Nat.mod_lt num (Nat.mul_pos hden (Nat.two_pow_pos (shiftOf num den)))
  -- all is counted in halves of the step
  have hstep : den * 2 ^ shiftOf num den = 2 * (2 ^ k * den) := by
    rw [hshift, Nat.pow_succ]
    ring
  rw [hstep] at hlt hdivision hrest ⊢
  rw [Nat.mul_assoc]
  generalize num / (2 * (2 ^ k * den)) = low at *
  generalize num % (2 * (2 ^ k * den)) = rest at *
  generalize 2 ^ k * den = half at *
  by_cases htop : low = 2 ^ 53 - 1
  · subst htop
    omega
  · have hbelow : 2 * half * low ≤ 2 * half * (2 ^ 53 - 2) := Nat.mul_le_mul_left _ (by omega)
    omega

/-- **A quotient of units is rounded to a finite number** exactly if it is below the bound. -/
theorem isFinite_roundUnits_iff (negative : Bool) :
    (roundUnits negative num den).isFinite = true ↔ num < overflowBound * unitsPerOne * den := by
  obtain ⟨k, hk⟩ : ∃ k, k = 970 + 1074 := ⟨_, rfl⟩
  have hbound : overflowBound * unitsPerOne = (2 ^ 54 - 1) * 2 ^ k := by
    rw [overflowBound, unitsPerOne_eq, Nat.mul_assoc, ← Nat.pow_add, ← hk]
  rw [isFinite_roundUnits_iff_shift, hbound]
  rcases Nat.lt_trichotomy (shiftOf num den) 2045 with hshift | hshift | hshift
  · refine iff_of_true (.inl hshift) ?_
    rw [← Nat.div_lt_iff_lt_mul hden]
    calc num / den
        < 2 ^ (53 + shiftOf num den) := quotient_lt
      _ ≤ 2 ^ (53 + k) := Nat.pow_le_pow_right (by decide) (by omega)
      _ = 2 ^ 53 * 2 ^ k := Nat.pow_add ..
      _ ≤ (2 ^ 54 - 1) * 2 ^ k := Nat.mul_le_mul_right _ (by decide)
  · rw [significandOf_ne_iff, and_iff_right hshift, or_iff_right (by omega)]
    exact lt_middle_iff hden (hshift.trans (by omega))
  · refine iff_of_false (by omega) ?_
    rw [← Nat.div_lt_iff_lt_mul hden, Nat.not_lt]
    calc (2 ^ 54 - 1) * 2 ^ k
        ≤ 2 ^ 54 * 2 ^ k := Nat.mul_le_mul_right _ (by decide)
      _ = 2 ^ (54 + k) := (Nat.pow_add ..).symm
      _ ≤ 2 ^ (52 + shiftOf num den) := Nat.pow_le_pow_right (by decide) (by omega)
      _ ≤ num / den := le_quotient (by omega)

end

theorem isFinite_ofQuotient_iff (n : Int) {count : Nat} (hcount : 0 < count) :
    (ofQuotient n count).isFinite = true ↔ n.natAbs < overflowBound * count := by
  have hunits : 0 < unitsPerOne := by
    rw [unitsPerOne_eq]
    positivity
  rw [ofQuotient, isFinite_roundUnits_iff hcount, Nat.mul_right_comm]
  exact Nat.mul_lt_mul_right hunits

theorem isFinite_ofInt_iff (n : Int) : (ofInt n).isFinite = true ↔ n.natAbs < overflowBound := by
  rw [← Nat.mul_one overflowBound]
  exact isFinite_ofQuotient_iff n Nat.one_pos

end Binary64

/-! ## Sums -/

namespace Number

open Binary64 (overflowBound)

/-- Add numbers to a total, one after the other. -/
def addAll (total : Number) (ns : List Number) : Except ArithmeticError Number :=
  ns.foldlM Number.add total

theorem addAll_append (total : Number) (ns others : List Number) :
    addAll total (ns ++ others) = addAll total ns >>= fun total => addAll total others :=
  List.foldlM_append

/-- An integer out of range is to be added in floating point: the sum of the integers in front of
the first floating-point number, or an integer behind it. -/
def SumOutOfRange (ns : List Number) : Prop :=
  ∃ (ints : List Int) (x : Binary64) (rest : List Number), ns = ints.map .int ++ .float x :: rest ∧
    (overflowBound ≤ ints.sum.natAbs ∨ ∃ n, .int n ∈ rest ∧ overflowBound ≤ n.natAbs)

/-- Numbers are integers, or have a first one that is none. -/
theorem exists_split (ns : List Number) :
    (∃ ints : List Int, ns = ints.map .int) ∨
      ∃ (ints : List Int) (x : Binary64) (rest : List Number),
        ns = ints.map .int ++ .float x :: rest := by
  induction ns with
  | nil => exact .inl ⟨[], rfl⟩
  | cons n ns ih =>
    cases n with
    | int n =>
      refine ih.imp ?_ ?_
      · rintro ⟨ints, rfl⟩
        exact ⟨n :: ints, rfl⟩
      · rintro ⟨ints, x, rest, rfl⟩
        exact ⟨n :: ints, x, rest, rfl⟩
    | float x => exact .inr ⟨[], x, ns, rfl⟩

theorem not_sumOutOfRange_ints (ints : List Int) : ¬ SumOutOfRange (ints.map .int) := by
  rintro ⟨ints', x, rest, heq, -⟩
  have hmem : Number.float x ∈ ints.map .int := by simp [heq]
  simp at hmem

theorem addAll_ints (total : Int) (ints : List Int) :
    addAll (.int total) (ints.map .int) = .ok (.int (total + ints.sum)) := by
  induction ints generalizing total with
  | nil => simp [addAll, pure, Except.pure]
  | cons n ints ih =>
    rw [List.sum_cons, ← Int.add_assoc]
    exact ih (total + n)

theorem toBinary64_int_of_lt {n : Int} (h : n.natAbs < overflowBound) :
    toBinary64 (.int n) = .ok (.ofInt n) := by
  have hfinite := (Binary64.isFinite_ofInt_iff n).mpr h
  rw [toBinary64, inRange, if_pos hfinite]

theorem toBinary64_int_of_le {n : Int} (h : overflowBound ≤ n.natAbs) :
    toBinary64 (.int n) = .error .integerTooLarge := by
  have hinfinite : ¬ (Binary64.ofInt n).isFinite = true := fun hfinite =>
    Nat.not_lt.mpr h ((Binary64.isFinite_ofInt_iff n).mp hfinite)
  rw [toBinary64, inRange, if_neg hinfinite]

theorem addAll_float_int (x : Binary64) (n : Int) (ns : List Number) :
    addAll (.float x) (.int n :: ns) =
      toBinary64 (.int n) >>= fun y => addAll (.float (x.add y)) ns := by
  rw [addAll, List.foldlM_cons, add]
  · generalize toBinary64 (.int n) = y
    cases y <;> rfl
  · exact fun _ _ h => nomatch h

/-- Numbers are added to a floating-point number if all integers among them are in range. -/
theorem exists_addAll_float {ns : List Number}
    (h : ∀ n, .int n ∈ ns → n.natAbs < overflowBound) (x : Binary64) :
    ∃ sum, addAll (.float x) ns = .ok (.float sum) := by
  induction ns generalizing x with
  | nil => exact ⟨x, rfl⟩
  | cons n ns ih =>
    have hrest := ih fun n hn => h n (List.mem_cons_of_mem _ hn)
    cases n with
    | int n =>
      rw [addAll_float_int, toBinary64_int_of_lt (h n (List.mem_cons_self ..))]
      exact hrest _
    | float y => exact hrest (x.add y)

theorem addAll_float_error {ns : List Number} {n : Int} (hmem : .int n ∈ ns)
    (hn : overflowBound ≤ n.natAbs) (x : Binary64) :
    addAll (.float x) ns = .error .integerTooLarge := by
  induction ns generalizing x with
  | nil => cases hmem
  | cons m ns ih =>
    cases m with
    | int m =>
      rw [addAll_float_int]
      rcases Nat.lt_or_ge m.natAbs overflowBound with hm | hm
      · have hne : n ≠ m := by
          rintro rfl
          omega
        rw [toBinary64_int_of_lt hm]
        exact ih (by simpa [hne] using hmem) _
      · rw [toBinary64_int_of_le hm]
        rfl
    | float y => exact ih (by simpa using hmem) (x.add y)

theorem addAll_int_float (n : Int) (x : Binary64) (ns : List Number) :
    addAll (.int n) (.float x :: ns) =
      toBinary64 (.int n) >>= fun y => addAll (.float (y.add x)) ns := by
  rw [addAll, List.foldlM_cons, add]
  · generalize toBinary64 (.int n) = y
    cases y <;> rfl
  · exact fun _ _ _ h => nomatch h

theorem addAll_split (ints : List Int) (x : Binary64) (rest : List Number) :
    addAll .zero (ints.map .int ++ .float x :: rest) =
      toBinary64 (.int ints.sum) >>= fun front => addAll (.float (front.add x)) rest := by
  have hints : addAll .zero (ints.map .int) = .ok (.int ints.sum) := by
    rw [← Int.zero_add ints.sum]
    exact addAll_ints 0 ints
  rw [addAll_append, hints, ok_bind, addAll_int_float]

/-- **Numbers with a floating-point number among them** have a sum, which is one, or it is out of
range. -/
theorem addAll_split_cases (ints : List Int) (x : Binary64) (rest : List Number) :
    (∃ sum, addAll .zero (ints.map .int ++ .float x :: rest) = .ok (.float sum)) ∨
      addAll .zero (ints.map .int ++ .float x :: rest) = .error .integerTooLarge ∧
        SumOutOfRange (ints.map .int ++ .float x :: rest) := by
  rw [addAll_split]
  rcases Nat.lt_or_ge ints.sum.natAbs overflowBound with hfront | hfront
  · rw [toBinary64_int_of_lt hfront]
    by_cases hrest : ∃ n, .int n ∈ rest ∧ overflowBound ≤ n.natAbs
    · obtain ⟨n, hmem, hn⟩ := hrest
      exact .inr ⟨addAll_float_error hmem hn _, ints, x, rest, rfl, .inr ⟨n, hmem, hn⟩⟩
    · push Not at hrest
      exact .inl (exists_addAll_float hrest _)
  · rw [toBinary64_int_of_le hfront]
    exact .inr ⟨rfl, ints, x, rest, rfl, .inl hfront⟩

theorem addAll_error_of_sumOutOfRange {ns : List Number} (h : SumOutOfRange ns) :
    addAll .zero ns = .error .integerTooLarge := by
  obtain ⟨ints, x, rest, rfl, hsum⟩ := h
  rw [addAll_split]
  rcases Nat.lt_or_ge ints.sum.natAbs overflowBound with hfront | hfront
  · obtain ⟨n, hmem, hn⟩ := hsum.resolve_left (Nat.not_le.mpr hfront)
    rw [toBinary64_int_of_lt hfront]
    exact addAll_float_error hmem hn _
  · rw [toBinary64_int_of_le hfront]
    rfl

/-- **Numbers have a sum unless it is out of range.** -/
theorem exists_addAll_iff (ns : List Number) :
    (∃ sum, addAll .zero ns = .ok sum) ↔ ¬ SumOutOfRange ns := by
  constructor
  · rintro ⟨sum, hsum⟩ hrange
    cases hsum.symm.trans (addAll_error_of_sumOutOfRange hrange)
  · intro hrange
    rcases exists_split ns with ⟨ints, rfl⟩ | ⟨ints, x, rest, rfl⟩
    · exact ⟨_, addAll_ints 0 ints⟩
    · rcases addAll_split_cases ints x rest with ⟨sum, hsum⟩ | ⟨-, h⟩
      · exact ⟨_, hsum⟩
      · exact absurd h hrange

/-! ## Means -/

/-- The sum is out of range, or that of integers alone is for the quotient by their number. -/
def MeanOutOfRange (ns : List Number) : Prop :=
  SumOutOfRange ns ∨ ∃ ints : List Int, ints ≠ [] ∧ ns = ints.map .int ∧
    overflowBound * ints.length ≤ ints.sum.natAbs

theorem exists_divide_int_iff (n : Int) {count : Nat} (hcount : 0 < count) :
    (∃ x, divide (.int n) count = .ok x) ↔ n.natAbs < overflowBound * count := by
  rw [← Binary64.isFinite_ofQuotient_iff n hcount, divide, inRange]
  generalize Binary64.ofQuotient n count = x
  cases x <;> simp [Binary64.isFinite]

theorem int_injective : Function.Injective Number.int := fun _ _ h => Number.int.inj h

/-- **Numbers have a mean unless it is out of range.** -/
theorem exists_mean_iff (ns : List Number) :
    (∃ total, addAll .zero ns = .ok total ∧
      (ns ≠ [] → ∃ x, total.divide ns.length = .ok x)) ↔ ¬ MeanOutOfRange ns := by
  rcases exists_split ns with ⟨ints, rfl⟩ | ⟨ints, x, rest, rfl⟩
  · have hsum := addAll_ints 0 ints
    rw [Int.zero_add] at hsum
    have hmean : MeanOutOfRange (ints.map .int) ↔
        ints ≠ [] ∧ overflowBound * ints.length ≤ ints.sum.natAbs := by
      constructor
      · rintro (h | ⟨ints', hne, heq, h⟩)
        · exact absurd h (not_sumOutOfRange_ints ints)
        · obtain rfl := List.map_injective_iff.mpr int_injective heq
          exact ⟨hne, h⟩
      · rintro ⟨hne, h⟩
        exact .inr ⟨ints, hne, rfl, h⟩
    rw [hmean, not_and, Nat.not_le]
    constructor
    · rintro ⟨total, htotal, hdivide⟩ hne
      cases hsum.symm.trans htotal
      have hquotient := hdivide (by simpa using hne)
      rw [List.length_map] at hquotient
      exact (exists_divide_int_iff _ (List.length_pos_of_ne_nil hne)).mp hquotient
    · intro h
      refine ⟨_, hsum, fun hne => ?_⟩
      replace hne : ints ≠ [] := by simpa using hne
      rw [List.length_map]
      exact (exists_divide_int_iff _ (List.length_pos_of_ne_nil hne)).mpr (h hne)
  · have hmean : MeanOutOfRange (ints.map .int ++ .float x :: rest) ↔
        SumOutOfRange (ints.map .int ++ .float x :: rest) := by
      refine or_iff_left ?_
      rintro ⟨ints', -, heq, -⟩
      have hmem : Number.float x ∈ ints'.map .int := by simp [← heq]
      simp at hmem
    rw [hmean, ← exists_addAll_iff]
    constructor
    · rintro ⟨total, htotal, -⟩
      exact ⟨total, htotal⟩
    · rintro ⟨total, htotal⟩
      rcases addAll_split_cases ints x rest with ⟨sum, hsum⟩ | ⟨herror, -⟩
      · cases hsum.symm.trans htotal
        exact ⟨_, hsum, fun _ => ⟨_, rfl⟩⟩
      · cases herror.symm.trans htotal

end Number

end SnapshotStore
