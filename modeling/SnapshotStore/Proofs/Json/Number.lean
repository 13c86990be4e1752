import Mathlib.Data.List.TakeDrop
import SnapshotStore.Json.Reader
import SnapshotStore.Json.Writer
import SnapshotStore.Proofs.Number.Rounding

/-!
# Numbers read back

**Theorem (`number_sizeText`).** The text of a finite number reads back as the same number, of the
same kind.

A number is read as a whole part, a fraction and an exponent. Which of them are there decides
between an integer (`number_integer`) and a floating-point number (`number_float`); where the layout
puts the decimal point makes no difference to the value (`number_layOut`).

What follows a number must not go on with anything that it could take in (`EndsNumber`).
-/

namespace SnapshotStore

namespace Json

/-! ## Parts of a number -/

/-- The text does not go on with a digit. -/
def NoDigit (cs : List Char) : Prop := ∀ c ∈ cs.head?, c.isDigit = false

/-- The text does not go on with anything that a number could take in. -/
def EndsNumber (cs : List Char) : Prop :=
  ∀ c ∈ cs.head?, c.isDigit = false ∧ c ≠ '.' ∧ c ≠ 'e' ∧ c ≠ 'E'

theorem EndsNumber.noDigit {cs : List Char} (h : EndsNumber cs) : NoDigit cs :=
  fun c hc => (h c hc).1

theorem NoDigit.cons {c : Char} {cs : List Char} (h : c.isDigit = false) : NoDigit (c :: cs) := by
  intro d hd
  cases hd
  exact h

theorem splitDigits_append {digits rest : List Char} (hdigits : ∀ c ∈ digits, c.isDigit = true)
    (hrest : NoDigit rest) : splitDigits (digits ++ rest) = (digits, rest) := by
  have htake : rest.takeWhile Char.isDigit = [] := by
    cases rest with
    | nil => rfl
    | cons c cs => simp [hrest c rfl]
  have hdrop : rest.dropWhile Char.isDigit = rest := by
    cases rest with
    | nil => rfl
    | cons c cs => simp [hrest c rfl]
  rw [splitDigits, List.span_eq_takeWhile_dropWhile, List.takeWhile_append_of_pos hdigits,
    List.dropWhile_append_of_pos hdigits, htake, hdrop, List.append_nil]

theorem fraction_point {digits rest : List Char} (hne : digits ≠ [])
    (hdigits : ∀ c ∈ digits, c.isDigit = true) (hrest : NoDigit rest) :
    fraction ('.' :: (digits ++ rest)) = (digits, rest) := by
  unfold fraction
  simp only [splitDigits_append hdigits hrest]

theorem fraction_of_no_point {cs : List Char} (h : ∀ c ∈ cs.head?, c ≠ '.') :
    fraction cs = ([], cs) := by
  unfold fraction
  split
  · next rest => exact absurd rfl (h '.' rfl)
  · rfl

theorem exponent?_ends {cs : List Char} (h : EndsNumber cs) : exponent? cs = none := by
  cases cs with
  | nil => rfl
  | cons c cs =>
    obtain ⟨-, -, he, hE⟩ := h c rfl
    simp [exponent?, he, hE]

theorem exponent?_digits (negative : Bool) {digits rest : List Char} (hne : digits ≠ [])
    (hdigits : ∀ c ∈ digits, c.isDigit = true) (hrest : NoDigit rest) :
    exponent? ('e' :: (if negative then '-' else '+') :: (digits ++ rest)) =
      some (if negative then -(natOfDigits digits : Int) else natOfDigits digits, rest) := by
  obtain ⟨d, ds, rfl⟩ := List.exists_cons_of_ne_nil hne
  cases negative <;>
    simp only [exponent?, true_or, if_true, Bool.false_eq_true, if_false,
      splitDigits_append hdigits hrest]

theorem exponentText_eq (e : Int) :
    ∃ digits, Binary64.exponentText e = (if e < 0 then '-' else '+') :: digits ∧ digits ≠ [] ∧
      (∀ c ∈ digits, c.isDigit = true) ∧ natOfDigits digits = e.natAbs := by
  refine ⟨_, rfl, ?_⟩
  split_ifs
  · refine ⟨List.cons_ne_nil _ _, List.forall_mem_cons.mpr ⟨rfl, ?_⟩, ?_⟩
    · exact fun c hc => isDigit_of_mem_digitsOf hc
    · exact (natOfDigits_append ['0'] _).trans (by
        rw [show natOfDigits ['0'] = 0 from rfl, Nat.zero_mul, Nat.zero_add]
        exact natOfDigits_digitsOf _)
  · exact ⟨digitsOf_ne_nil _, fun c hc => isDigit_of_mem_digitsOf hc, natOfDigits_digitsOf _⟩

/-- An exponent as it is written reads back. -/
theorem exponent?_exponentText (e : Int) {rest : List Char} (hrest : NoDigit rest) :
    exponent? ('e' :: (Binary64.exponentText e ++ rest)) = some (e, rest) := by
  obtain ⟨digits, htext, hne, hdigits, hvalue⟩ := exponentText_eq e
  have hread := exponent?_digits (decide (e < 0)) hne hdigits hrest
  simp only [decide_eq_true_eq] at hread
  rw [htext, List.cons_append, hread, hvalue]
  congr 2
  split_ifs <;> omega

/-! ## Numbers -/

/-- The whole part of a number: a zero by itself, or digits that do not start with one. -/
def IsWhole (whole : List Char) : Prop :=
  (∀ c ∈ whole, c.isDigit = true) ∧ whole ≠ [] ∧ (whole.head? = some '0' → whole = ['0'])

theorem isWhole_digitsOf (n : Nat) : IsWhole (digitsOf n) := by
  refine ⟨fun c hc => isDigit_of_mem_digitsOf hc, digitsOf_ne_nil n, fun hzero => ?_⟩
  rcases Nat.eq_zero_or_pos n with rfl | hpos
  · exact Nat.toDigits_zero 10
  · exact absurd hzero (head_digitsOf_ne_zero hpos)

theorem number_eq (negative : Bool) {whole rest : List Char} (hwhole : IsWhole whole)
    (hrest : NoDigit rest) :
    number negative (whole ++ rest) =
      match (fraction rest).1, exponent? (fraction rest).2 with
      | [], none =>
        if whole.length > maxIntegerDigits then .error .integerTooLong
        else .ok (.int (if negative then -(natOfDigits whole : Int) else natOfDigits whole),
          (fraction rest).2)
      | places, found =>
        .ok (.float (Binary64.ofDecimal negative (natOfDigits (whole ++ places))
          ((found.getD (0, (fraction rest).2)).1 - places.length)),
          (found.getD (0, (fraction rest).2)).2) := by
  obtain ⟨hdigits, hne, hzero⟩ := hwhole
  obtain ⟨d, ds, rfl⟩ := List.exists_cons_of_ne_nil hne
  by_cases hd : d = '0'
  · subst hd
    obtain ⟨-, rfl⟩ := List.cons_eq_cons.mp (hzero rfl)
    rfl
  · have hsplit := splitDigits_append hdigits hrest
    rw [List.cons_append] at hsplit ⊢
    unfold number
    split
    next whole rest' heq =>
      have hparts : (whole, rest') = (d :: ds, rest) := by
        rw [← heq]
        split
        · next heq' => exact absurd (List.cons_eq_cons.mp heq').1 hd
        · exact hsplit
      obtain ⟨rfl, rfl⟩ := Prod.mk.inj hparts
      rfl

/-- A number without fraction and exponent is an integer. -/
theorem number_integer (negative : Bool) {whole rest : List Char} (hwhole : IsWhole whole)
    (hsize : whole.length ≤ maxIntegerDigits) (hrest : EndsNumber rest) :
    number negative (whole ++ rest) =
      .ok (.int (if negative then -(natOfDigits whole : Int) else natOfDigits whole), rest) := by
  rw [number_eq negative hwhole hrest.noDigit, fraction_of_no_point fun c hc => (hrest c hc).2.1,
    exponent?_ends hrest]
  exact if_neg (by omega)

/-- A number with a fraction or an exponent is a floating-point number. -/
theorem number_float (negative : Bool) {whole places rest rest' : List Char}
    {found : Option (Int × List Char)} (hwhole : IsWhole whole) (hrest : NoDigit rest)
    (hplaces : fraction rest = (places, rest')) (hexp : exponent? rest' = found)
    (hsome : places ≠ [] ∨ found ≠ none) :
    number negative (whole ++ rest) =
      .ok (.float (Binary64.ofDecimal negative (natOfDigits (whole ++ places))
        ((found.getD (0, rest')).1 - places.length)), (found.getD (0, rest')).2) := by
  rw [number_eq negative hwhole hrest, hplaces, hexp]
  cases places with
  | nil =>
    cases found with
    | none => simp at hsome
    | some hit => rfl
  | cons d ds => rfl

/-! ## Floating-point numbers -/

theorem number_fraction (negative : Bool) (whole places : List Char) {rest : List Char}
    (hwhole : IsWhole whole) (hne : places ≠ []) (hplaces : ∀ c ∈ places, c.isDigit = true)
    (hrest : EndsNumber rest) :
    number negative (whole ++ '.' :: (places ++ rest)) =
      .ok (.float (Binary64.ofDecimal negative (natOfDigits (whole ++ places)) (-places.length)),
        rest) := by
  rw [number_float negative hwhole (NoDigit.cons rfl) (fraction_point hne hplaces hrest.noDigit)
    (exponent?_ends hrest) (.inl hne), Option.getD_none, Int.zero_sub]

theorem number_exponent (negative : Bool) {whole rest : List Char} (e : Int)
    (hwhole : IsWhole whole) (hrest : EndsNumber rest) :
    number negative (whole ++ 'e' :: (Binary64.exponentText e ++ rest)) =
      .ok (.float (Binary64.ofDecimal negative (natOfDigits whole) e), rest) := by
  have hpoint : ∀ c ∈ ('e' :: (Binary64.exponentText e ++ rest)).head?, c ≠ '.' := by
    intro c hc
    cases hc
    decide
  rw [number_float negative hwhole (NoDigit.cons rfl)
    (fraction_of_no_point hpoint)
    (exponent?_exponentText e hrest.noDigit) (.inr (Option.some_ne_none _)), List.append_nil]
  simp

theorem number_fraction_exponent (negative : Bool) (whole places : List Char) {rest : List Char}
    (e : Int)
    (hwhole : IsWhole whole) (hne : places ≠ []) (hplaces : ∀ c ∈ places, c.isDigit = true)
    (hrest : EndsNumber rest) :
    number negative (whole ++ '.' :: (places ++ 'e' :: (Binary64.exponentText e ++ rest))) =
      .ok (.float (Binary64.ofDecimal negative (natOfDigits (whole ++ places)) (e - places.length)),
        rest) := by
  rw [number_float negative hwhole (NoDigit.cons rfl)
    (fraction_point hne hplaces (NoDigit.cons rfl)) (exponent?_exponentText e hrest.noDigit)
    (.inl hne), Option.getD_some]

/-- A text of digits in which the decimal point stands after `order` of them has the value of the
digits by themselves, as many powers of ten lower as digits follow the point. -/
theorem number_layOut (negative : Bool) {digits rest : List Char} (order : Int)
    (hdigits : ∀ c ∈ digits, c.isDigit = true) (hne : digits ≠ []) (hhead : digits.head? ≠ some '0')
    (hrest : EndsNumber rest) :
    number negative (Binary64.layOut digits order ++ rest) =
      .ok (.float (Binary64.ofDecimal negative (natOfDigits digits) (order - digits.length)), rest)
    := by
  have hwhole : IsWhole digits := ⟨hdigits, hne, fun h => absurd h hhead⟩
  have hzeros (n : Nat) : ∀ c ∈ List.replicate n '0', c.isDigit = true := by
    intro c hc
    rw [List.eq_of_mem_replicate hc]
    rfl
  obtain ⟨d, ds, rfl⟩ := List.exists_cons_of_ne_nil hne
  unfold Binary64.layOut
  by_cases hpos : Binary64.positional order = true
  · rw [if_pos hpos]
    by_cases hsmall : order ≤ 0
    · -- zeros stand between the point and the digits
      have hread := number_fraction negative (digitsOf 0)
        (List.replicate (-order).toNat '0' ++ d :: ds) (isWhole_digitsOf 0) (by simp)
        (List.forall_mem_append.mpr ⟨hzeros _, hdigits⟩) hrest
      have hvalue : natOfDigits (digitsOf 0 ++ (List.replicate (-order).toNat '0' ++ d :: ds)) =
          natOfDigits (d :: ds) := by
        rw [natOfDigits_append, natOfDigits_append, natOfDigits_digitsOf,
          natOfDigits_replicate_zero, Nat.zero_mul, Nat.zero_mul, Nat.zero_add, Nat.zero_add]
      have hexp : -((List.replicate (-order).toNat '0' ++ d :: ds).length : Int) =
          order - (d :: ds).length := by
        rw [List.length_append, List.length_replicate]
        omega
      rw [hvalue, hexp] at hread
      rw [if_pos hsmall]
      exact hread
    · rw [if_neg hsmall]
      by_cases hlong : (d :: ds).length ≤ order.toNat
      · -- zeros stand between the digits and the point
        have hread := number_fraction negative
          (d :: ds ++ List.replicate (order.toNat - (d :: ds).length) '0') ['0']
          ⟨List.forall_mem_append.mpr ⟨hdigits, hzeros _⟩, by simp, fun h => absurd h hhead⟩
          (List.cons_ne_nil '0' []) (List.forall_mem_singleton.mpr rfl) hrest
        have hvalue : natOfDigits
            (d :: ds ++ List.replicate (order.toNat - (d :: ds).length) '0' ++ ['0']) =
            natOfDigits (d :: ds) * 10 ^ (order.toNat - (d :: ds).length + 1) := by
          rw [List.append_assoc, ← List.replicate_succ', natOfDigits_append,
            natOfDigits_replicate_zero, List.length_replicate, Nat.add_zero]
        have hexp : -((['0'] : List Char).length : Int) +
            (order.toNat - (d :: ds).length + 1 : Nat) = order - (d :: ds).length := by
          simp only [List.length_cons, List.length_nil] at hlong ⊢
          omega
        rw [hvalue, Binary64.ofDecimal_mul_pow, hexp] at hread
        simpa only [hlong, if_true, List.append_assoc, List.cons_append, List.nil_append]
          using hread
      · -- the point stands between digits
        have hread := number_fraction negative ((d :: ds).take order.toNat)
          ((d :: ds).drop order.toNat)
          ⟨fun c hc => hdigits c (List.mem_of_mem_take hc), by simp; omega, fun h => ?_⟩
          (by simpa using hlong) (fun c hc => hdigits c (List.mem_of_mem_drop hc)) hrest
        · have hexp : -(((d :: ds).drop order.toNat).length : Int) = order - (d :: ds).length := by
            rw [List.length_drop]
            omega
          rw [List.take_append_drop, hexp] at hread
          simpa only [hlong, if_false, List.append_assoc, List.cons_append] using hread
        · rw [List.head?_take, if_neg (by omega)] at h
          exact absurd h hhead
  · rw [if_neg hpos]
    cases ds with
    | nil =>
      have hread := number_exponent negative (order - 1) hwhole hrest
      simpa using hread
    | cons e es =>
      have hread := number_fraction_exponent negative [d] (e :: es) (order - 1)
        ⟨by simpa using hdigits d (by simp), by simp, by simp⟩ (by simp)
        (fun c hc => hdigits c (List.mem_cons_of_mem _ hc)) hrest
      have hexp : order - 1 - (e :: es).length = order - (d :: e :: es).length := by
        simp only [List.length_cons]
        omega
      rw [hexp] at hread
      simpa using hread

theorem exists_dropTrailingZeros (digits : List Char) :
    ∃ zeros, digits = Binary64.dropTrailingZeros digits ++ List.replicate zeros '0' := by
  refine ⟨(digits.reverse.takeWhile (· == '0')).length, ?_⟩
  have hzeros : digits.reverse.takeWhile (· == '0') =
      List.replicate (digits.reverse.takeWhile (· == '0')).length '0' :=
    List.eq_replicate_of_mem fun c hc => by
      simpa using List.all_eq_true.mp List.all_takeWhile c hc
  calc digits
      = digits.reverse.reverse := (List.reverse_reverse digits).symm
    _ = (digits.reverse.takeWhile (· == '0') ++ digits.reverse.dropWhile (· == '0')).reverse := by
        rw [List.takeWhile_append_dropWhile]
    _ = _ := by
        rw [List.reverse_append, ← Binary64.dropTrailingZeros]
        conv_lhs => rw [hzeros, List.reverse_replicate]

/-- The digits of a number without the zeros at the end. -/
theorem digitsOf_eq_dropTrailingZeros {coefficient : Nat} (hpos : 0 < coefficient) :
    ∃ digits zeros, Binary64.dropTrailingZeros (digitsOf coefficient) = digits ∧
      (digitsOf coefficient).length = digits.length + zeros ∧
      coefficient = natOfDigits digits * 10 ^ zeros ∧
      (∀ c ∈ digits, c.isDigit = true) ∧ digits ≠ [] ∧ digits.head? ≠ some '0' := by
  obtain ⟨zeros, hzeros⟩ := exists_dropTrailingZeros (digitsOf coefficient)
  set digits := Binary64.dropTrailingZeros (digitsOf coefficient)
  have hvalue : coefficient = natOfDigits digits * 10 ^ zeros := by
    have h := congrArg natOfDigits hzeros
    rwa [natOfDigits_digitsOf, natOfDigits_append, natOfDigits_replicate_zero,
      List.length_replicate, Nat.add_zero] at h
  have hne : digits ≠ [] := by
    intro h
    rw [h, show natOfDigits [] = 0 from rfl, Nat.zero_mul] at hvalue
    omega
  refine ⟨digits, zeros, rfl, ?_, hvalue, fun c hc => ?_, hne, ?_⟩
  · have h := congrArg List.length hzeros
    rwa [List.length_append, List.length_replicate] at h
  · have hmem : c ∈ digitsOf coefficient := by
      rw [hzeros]
      exact List.mem_append_left _ hc
    exact isDigit_of_mem_digitsOf hmem
  · have h := head_digitsOf_ne_zero hpos
    rwa [hzeros, List.head?_append_of_ne_nil _ hne] at h

/-- The text of a finite number's size reads back as the number. -/
theorem number_sizeText (x : Binary64.Finite) {rest : List Char} (hrest : EndsNumber rest) :
    number x.negative (x.sizeText ++ rest) = .ok (.float (.finite x), rest) := by
  unfold Binary64.Finite.sizeText
  by_cases hzero : x.significand = 0
  · have hread := number_fraction x.negative (digitsOf 0) ['0'] (isWhole_digitsOf 0)
      (List.cons_ne_nil '0' []) (List.forall_mem_singleton.mpr rfl) hrest
    have hvalue : natOfDigits (digitsOf 0 ++ ['0']) = 0 := rfl
    have hx : Binary64.zero x.negative = .finite x := by
      obtain ⟨negative, significand, shift, hcanonical⟩ := x
      obtain ⟨-, -, hshift⟩ := Binary64.canonical_iff.mp hcanonical
      subst hzero
      obtain rfl : shift = 0 := by omega
      rfl
    rw [hvalue, Binary64.ofDecimal_zero, hx] at hread
    rw [if_pos hzero]
    exact hread
  · have hpos := Binary64.Finite.shortest_pos hzero
    have hback := Binary64.Finite.ofDecimal_shortest hzero
    generalize x.shortest = short at hpos hback ⊢
    obtain ⟨coefficient, exponent⟩ := short
    obtain ⟨digits, zeros, hdigits, hlength, hvalue, hall, hne, hhead⟩ :=
      digitsOf_eq_dropTrailingZeros hpos
    have hread := number_layOut x.negative ((digitsOf coefficient).length + exponent) hall hne
      hhead hrest
    have hexp : ((digitsOf coefficient).length + exponent : Int) - digits.length =
        exponent + zeros := by
      rw [hlength]
      push_cast
      ring
    rw [hexp, ← Binary64.ofDecimal_mul_pow, ← hvalue] at hread
    rw [if_neg hzero]
    simp only [hdigits]
    rw [hread]
    exact congrArg (fun y => Except.ok (Value.float y, rest)) hback

theorem head_layOut {d : Char} (hd : d.isDigit = true) (ds : List Char) (order : Int) :
    ∃ c cs, Binary64.layOut (d :: ds) order = c :: cs ∧ c.isDigit = true := by
  unfold Binary64.layOut
  by_cases hpos : Binary64.positional order = true
  · rw [if_pos hpos]
    by_cases hsmall : order ≤ 0
    · rw [if_pos hsmall]
      exact ⟨'0', _, rfl, rfl⟩
    · rw [if_neg hsmall]
      obtain ⟨n, hn⟩ : ∃ n, order.toNat = n + 1 := ⟨order.toNat - 1, by omega⟩
      rw [hn]
      dsimp only
      split_ifs
      · exact ⟨d, _, rfl, hd⟩
      · exact ⟨d, _, rfl, hd⟩
  · rw [if_neg hpos]
    cases ds with
    | nil => exact ⟨d, _, rfl, hd⟩
    | cons e es => exact ⟨d, _, rfl, hd⟩

/-- The text of a finite number's size starts with a digit. -/
theorem head_sizeText (x : Binary64.Finite) :
    ∃ c cs, x.sizeText = c :: cs ∧ c.isDigit = true := by
  unfold Binary64.Finite.sizeText
  by_cases hzero : x.significand = 0
  · rw [if_pos hzero]
    exact ⟨'0', _, rfl, rfl⟩
  · have hpos := Binary64.Finite.shortest_pos hzero
    generalize x.shortest = short at hpos ⊢
    obtain ⟨coefficient, exponent⟩ := short
    obtain ⟨digits, zeros, hdigits, -, -, hall, hne, -⟩ := digitsOf_eq_dropTrailingZeros hpos
    obtain ⟨d, ds, rfl⟩ := List.exists_cons_of_ne_nil hne
    rw [if_neg hzero]
    simp only [hdigits]
    exact head_layOut (hall d (List.mem_cons_self ..)) ds _

end Json
end SnapshotStore
