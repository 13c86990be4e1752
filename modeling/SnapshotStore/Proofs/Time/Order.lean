import SnapshotStore.Proofs.Time.Reader

/-!
# Written times in order

**Theorem (`DateTime.compare_text`).** The texts of two times with the same offset, or of two times
without one, stand to each other as the times do.

All numbers in a text but the microseconds are of fixed width, and numbers of one width compare as
their digits do (`compare_padded`). The parts stand from the left in the order in which they count,
so texts are compared part by part, as the times are. A fraction is left out when it is zero. What
follows then is the end of the text or the sign of the offset, and both come before a point
(`compare_microsecondText`).
-/

namespace SnapshotStore

/-! ## Texts -/

/-- Texts compare as the lists of their characters. -/
theorem compare_ofList (xs ys : List Char) :
    compare (String.ofList xs) (String.ofList ys) = compare xs ys := by
  have hlists : compare (String.ofList xs) (String.ofList ys) = compareOfLessAndEq xs ys := by
    show compareOfLessAndEq _ _ = _
    simp only [compareOfLessAndEq, String.lt_iff_toList_lt, String.toList_ofList, String.ofList_inj]
  rw [hlists]
  clear hlists
  induction xs generalizing ys with
  | nil => cases ys <;> rfl
  | cons x xs ih =>
    cases ys with
    | nil => rfl
    | cons y ys =>
      rw [List.compare_cons_cons, ← ih ys]
      rcases lt_trichotomy x y with hlt | rfl | hgt
      · rw [compare_lt_iff_lt.mpr hlt, compareOfLessAndEq,
          if_pos (List.cons_lt_cons_iff.mpr (.inl hlt))]
        rfl
      · rw [compare_eq_iff_eq.mpr rfl, Ordering.eq_then]
        simp only [compareOfLessAndEq, List.cons_lt_cons_iff, lt_irrefl, true_and, false_or,
          List.cons.injEq]
      · have hnot : ¬ x :: xs < y :: ys := by
          rw [List.cons_lt_cons_iff]
          rintro (hlt | ⟨rfl, -⟩)
          · exact lt_asymm hlt hgt
          · exact lt_irrefl _ hgt
        have hne : x :: xs ≠ y :: ys := fun heq => hgt.ne' (List.cons.inj heq).1
        rw [compare_gt_iff_gt.mpr hgt, compareOfLessAndEq, if_neg hnot, if_neg hne]
        rfl

section Parts

variable {xs ys : List Char}

theorem compare_cons_self (c : Char) (xs ys : List Char) :
    compare (c :: xs) (c :: ys) = compare xs ys := by
  rw [List.compare_cons_cons, Std.ReflOrd.compare_self, Ordering.eq_then]

/-- A part of fixed width counts before what follows it. -/
theorem compare_append (h : xs.length = ys.length) (rest more : List Char) :
    compare (xs ++ rest) (ys ++ more) = (compare xs ys).then (compare rest more) := by
  induction xs generalizing ys with
  | nil =>
    rw [List.eq_nil_of_length_eq_zero h.symm]
    rfl
  | cons x xs ih =>
    cases ys with
    | nil => cases h
    | cons y ys =>
      rw [List.cons_append, List.cons_append, List.compare_cons_cons, List.compare_cons_cons,
        ih (Nat.succ.inj h), Ordering.then_assoc]

end Parts

/-! ## Numbers of fixed width -/

/-- Numbers compare by their high parts, and then by their low parts. -/
theorem compare_mul_add {k a b : Nat} (ha : a < k) (hb : b < k) (m n : Nat) :
    compare (m * k + a) (n * k + b) = (compare m n).then (compare a b) := by
  rcases Nat.lt_trichotomy m n with hlt | rfl | hgt
  · have hle : (m + 1) * k ≤ n * k := Nat.mul_le_mul_right k hlt
    rw [Nat.succ_mul] at hle
    rw [Nat.compare_eq_lt.mpr hlt]
    exact Nat.compare_eq_lt.mpr (by omega)
  · rw [Nat.compare_eq_eq.mpr rfl, Ordering.eq_then, Nat.compare_eq_ite_lt, Nat.compare_eq_ite_lt]
    simp only [Nat.add_lt_add_iff_left]
  · have hle : (n + 1) * k ≤ m * k := Nat.mul_le_mul_right k hgt
    rw [Nat.succ_mul] at hle
    rw [Nat.compare_eq_gt.mpr hgt]
    exact Nat.compare_eq_gt.mpr (by omega)

/-- Digits compare as the numbers that they are. -/
theorem compare_digit {c d : Char} (hc : c.isDigit = true) (hd : d.isDigit = true) :
    compare c d = compare (natOfDigits [c]) (natOfDigits [d]) := by
  have hvalue (e : Char) : natOfDigits [e] = e.toNat - 48 := by
    simp only [natOfDigits, Nat.ofDigitChars_cons, Nat.ofDigitChars_nil]
    have hzero : '0'.toNat = 48 := rfl
    omega
  simp only [Char.isDigit, Bool.and_eq_true, decide_eq_true_eq] at hc hd
  have hc : 48 ≤ c.toNat := hc.1
  have hd : 48 ≤ d.toNat := hd.1
  rw [hvalue, hvalue]
  rcases Nat.lt_trichotomy c.toNat d.toNat with hlt | heq | hgt
  · rw [Nat.compare_eq_lt.mpr (by omega)]
    exact compare_lt_iff_lt.mpr hlt
  · rw [Char.toNat_inj.mp heq, compare_eq_iff_eq.mpr rfl, compare_eq_iff_eq.mpr rfl]
  · rw [Nat.compare_eq_gt.mpr (by omega)]
    exact compare_gt_iff_gt.mpr hgt

/-- **Digits of one width compare as the numbers they stand for.** -/
theorem compare_digits {xs ys : List Char} (h : xs.length = ys.length)
    (hxs : ∀ c ∈ xs, c.isDigit = true) (hys : ∀ c ∈ ys, c.isDigit = true) :
    compare xs ys = compare (natOfDigits xs) (natOfDigits ys) := by
  induction xs generalizing ys with
  | nil =>
    rw [List.eq_nil_of_length_eq_zero h.symm]
    rfl
  | cons x xs ih =>
    cases ys with
    | nil => cases h
    | cons y ys =>
      rw [List.forall_mem_cons] at hxs hys
      have hlength : xs.length = ys.length := Nat.succ.inj h
      have hlow := natOfDigits_lt hxs.2
      have hlow' := natOfDigits_lt hys.2
      rw [hlength] at hlow
      have hhigh (c : Char) (cs : List Char) :
          natOfDigits (c :: cs) = natOfDigits [c] * 10 ^ cs.length + natOfDigits cs :=
        natOfDigits_append [c] cs
      rw [List.compare_cons_cons, hhigh x xs, hhigh y ys, hlength, compare_mul_add hlow hlow',
        ih hlength hxs.2 hys.2, compare_digit hxs.1 hys.1]

/-- Numbers of fixed width, with more behind them. -/
theorem compare_padded {width m n : Nat} (hwidth : 0 < width) (hm : m < 10 ^ width)
    (hn : n < 10 ^ width) (rest more : List Char) :
    compare (padded width m ++ rest) (padded width n ++ more) =
      (compare m n).then (compare rest more) := by
  have hlength : (padded width m).length = (padded width n).length := by
    rw [length_padded hwidth hm, length_padded hwidth hn]
  rw [compare_append hlength, compare_digits hlength (fun _ => isDigit_of_mem_padded)
    (fun _ => isDigit_of_mem_padded), natOfDigits_padded, natOfDigits_padded]

/-! ## Parts of a text -/

/-- **Written dates compare as the dates,** whatever follows. -/
theorem Date.compare_text (c d : Date) (rest more : List Char) :
    Ord.compare (c.text ++ rest) (d.text ++ more) = (c.compare d).then (Ord.compare rest more) := by
  have htext (e : Date) (cs : List Char) : e.text ++ cs =
      padded 4 e.year ++ '-' :: (padded 2 e.month ++ '-' :: (padded 2 e.day ++ cs)) := by
    simp only [text, List.append_assoc, List.cons_append]
  rw [htext, htext, compare_padded (by decide) c.year_lt d.year_lt, compare_cons_self,
    compare_padded (by decide) c.month_lt d.month_lt, compare_cons_self,
    compare_padded (by decide) c.day_lt d.day_lt, Date.compare_eq, Ordering.then_assoc,
    Ordering.then_assoc]

/-- What follows a time of day comes before a point. -/
def BeforePoint (rest : List Char) : Prop := ∀ c ∈ rest.head?, c < '.'

theorem compare_point {rest : List Char} (h : BeforePoint rest) (more : List Char) :
    compare rest ('.' :: more) = .lt := by
  cases rest with
  | nil => rfl
  | cons c cs =>
    have hlt : c < '.' := h c rfl
    rw [List.compare_cons_cons, compare_lt_iff_lt.mpr hlt]
    rfl

/-- **Written fractions compare as the microseconds,** also if one of them is left out. -/
theorem compare_microsecondText {m n : Nat} (hm : m < 10 ^ 6) (hn : n < 10 ^ 6) {rest : List Char}
    (h : BeforePoint rest) :
    compare (microsecondText m ++ rest) (microsecondText n ++ rest) = compare m n := by
  unfold microsecondText
  split_ifs with hzero hzero' hzero'
  · rw [hzero, hzero', Std.ReflOrd.compare_self, Std.ReflOrd.compare_self]
  · rw [List.nil_append, List.cons_append, compare_point h, hzero]
    exact (Nat.compare_eq_lt.mpr (Nat.pos_of_ne_zero hzero')).symm
  · rw [List.nil_append, List.cons_append, Std.OrientedOrd.eq_swap, compare_point h, hzero']
    exact (Nat.compare_eq_gt.mpr (Nat.pos_of_ne_zero hzero)).symm
  · rw [List.cons_append, List.cons_append, compare_cons_self, compare_padded (by decide) hm hn,
      Std.ReflOrd.compare_self, Ordering.then_eq]

namespace Clock

/-- Times of day are in order by hour, then minute, second and microsecond. -/
theorem compare_micros (c d : Clock) :
    compare c.micros d.micros = (compare c.hour d.hour).then ((compare c.minute d.minute).then
      ((compare c.second d.second).then (compare c.microsecond d.microsecond))) := by
  unfold micros
  rw [compare_mul_add c.microsecond_lt d.microsecond_lt, compare_mul_add c.second_lt d.second_lt,
    compare_mul_add c.minute_lt d.minute_lt, Ordering.then_assoc, Ordering.then_assoc]

/-- **Written times of day compare as the times of day.** -/
theorem compare_text (c d : Clock) {rest : List Char} (h : BeforePoint rest) :
    compare (c.text ++ rest) (d.text ++ rest) = compare c.micros d.micros := by
  have htext (e : Clock) : e.text ++ rest = padded 2 e.hour ++ ':' :: (padded 2 e.minute ++ ':' ::
      (padded 2 e.second ++ (microsecondText e.microsecond ++ rest))) := by
    simp only [text, List.append_assoc, List.cons_append]
  have hsixty : 60 < 10 ^ 2 := by decide
  rw [htext, htext,
    compare_padded (by decide) (c.hour_lt.trans (by decide)) (d.hour_lt.trans (by decide)),
    compare_cons_self,
    compare_padded (by decide) (c.minute_lt.trans hsixty) (d.minute_lt.trans hsixty),
    compare_cons_self,
    compare_padded (by decide) (c.second_lt.trans hsixty) (d.second_lt.trans hsixty),
    compare_microsecondText c.microsecond_lt d.microsecond_lt h, compare_micros]

end Clock

theorem Offset.beforePoint_text (o : Offset) : BeforePoint o.text := by
  intro c hc
  rw [Offset.text, List.head?_cons, Option.mem_some_iff] at hc
  subst hc
  split_ifs <;> decide

/-! ## Times -/

namespace DateTime

/-- With the same offset or none, instants are in order as the times are written. -/
theorem compare_instant {s t : DateTime} (h : s.offset = t.offset) :
    compare s.instant t.instant = compare s.localMicros t.localMicros := by
  have hshift (m n k : Int) : compare (m - k) (n - k) = compare m n := by
    show compareOfLessAndEq _ _ = compareOfLessAndEq _ _
    simp only [compareOfLessAndEq, Int.sub_lt_sub_right_iff, Int.sub_left_inj]
  unfold instant
  rw [h, hshift]

/-- **Written times compare as the times,** if they have the same offset or none. -/
theorem compare_text {s t : DateTime} (h : s.offset = t.offset) :
    compare (String.ofList s.text) (String.ofList t.text) = compare s.instant t.instant := by
  have hparts {rest : List Char} (hrest : BeforePoint rest) :
      compare (s.date.text ++ 'T' :: (s.clock.text ++ rest))
        (t.date.text ++ 'T' :: (t.clock.text ++ rest)) =
      compare s.instant t.instant := by
    rw [Date.compare_text, compare_cons_self, Clock.compare_text _ _ hrest, compare_instant h,
      compare_localMicros]
  rw [compare_ofList, text, text, textWith, textWith, h]
  cases t.offset with
  | none => exact hparts fun c hc => absurd hc (Option.not_mem_none c)
  | some o => exact hparts o.beforePoint_text

end DateTime

end SnapshotStore
