import Mathlib.Algebra.BigOperators.Group.List.Basic
import Mathlib.Order.Monotone.Basic
import SnapshotStore.Time.DateTime

/-!
# The calendar

**Theorem (`Date.compare_eq`).** Dates are in order as their years are, within a year as their
months are, and within a month as their days are. So are times as written, and within a day they are
in order as their times of day are (`DateTime.compare_localMicros`).

Days are counted without a gap: a year begins where the one before it ends (`daysBeforeYear_succ`),
and so does a month (`daysBeforeMonth_succ`). So the days of a month all come before those of the
next (`dayOfYear_lt_of_month`), and the days of a year before those of the next.
-/

namespace SnapshotStore

namespace Date

/-! ## Years and months -/

/-- A year begins where the one before it ends. -/
theorem daysBeforeYear_succ {year : Nat} (h : 1 ≤ year) :
    daysBeforeYear (year + 1) = daysBeforeYear year + daysInYear year := by
  obtain ⟨past, rfl⟩ := Nat.exists_eq_add_of_le' h
  have hleap : isLeapYear (past + 1) = true ↔
      4 ∣ past + 1 ∧ (¬ 100 ∣ past + 1 ∨ 400 ∣ past + 1) := by
    simp [isLeapYear, Nat.dvd_iff_mod_eq_zero]
  have hcentury : 100 ∣ past + 1 → 4 ∣ past + 1 := (Nat.dvd_of_mod_eq_zero rfl).trans
  have hcycle : 400 ∣ past + 1 → 100 ∣ past + 1 := (Nat.dvd_of_mod_eq_zero rfl).trans
  have hle : past / 100 ≤ past / 4 := Nat.div_le_div_left (by decide) (by decide)
  simp only [daysBeforeYear, daysInYear, hleap, Nat.add_sub_cancel, Nat.succ_div]
  split_ifs <;> omega

/-- A month begins where the one before it ends. -/
theorem daysBeforeMonth_succ (year month : Nat) :
    daysBeforeMonth year (month + 1) = daysBeforeMonth year month + daysInMonth year month := by
  have hsum (m : Nat) :
      daysBeforeMonth year m = ((List.range m).map (daysInMonth year)).sum := rfl
  rw [hsum, hsum, List.range_succ, List.map_append, List.sum_append, List.map_singleton,
    List.sum_singleton]

theorem daysBeforeMonth_mono (year : Nat) : Monotone (daysBeforeMonth year) :=
  monotone_nat_of_le_succ fun month => by
    rw [daysBeforeMonth_succ]
    exact Nat.le_add_right ..

theorem daysBeforeYear_mono {year later : Nat} (h : 1 ≤ year) (hlater : year ≤ later) :
    daysBeforeYear year ≤ daysBeforeYear later := by
  induction later, hlater using Nat.le_induction with
  | base => exact le_rfl
  | succ later hle ih =>
    rw [daysBeforeYear_succ (h.trans hle)]
    exact ih.trans (Nat.le_add_right ..)

/-- The months of a year have its days. -/
theorem daysBeforeMonth_thirteen (year : Nat) : daysBeforeMonth year 13 = daysInYear year := by
  simp only [daysBeforeMonth, daysInYear, List.range_succ, List.range_zero, daysInMonth,
    List.map_append, List.map_cons, List.map_nil, List.foldr_append, List.foldr_cons,
    List.foldr_nil]
  split_ifs <;> rfl

theorem daysInMonth_le (year month : Nat) : daysInMonth year month ≤ 31 := by
  unfold daysInMonth
  grind

/-! ## Days -/

/-- The number of the day within its year. -/
def dayOfYear (d : Date) : Nat := daysBeforeMonth d.year d.month + d.day

theorem month_bounds (d : Date) : 1 ≤ d.month ∧ d.month ≤ 12 := by
  have hdays : 0 < daysInMonth d.year d.month := d.day_bounds.1.trans d.day_bounds.2
  unfold daysInMonth at hdays
  split at hdays <;> simp_all

/-- All days of a month come before those of a later month. -/
theorem dayOfYear_le (d : Date) {month : Nat} (h : d.month < month) :
    d.dayOfYear ≤ daysBeforeMonth d.year month := by
  have hnext := daysBeforeMonth_mono d.year (Nat.succ_le_of_lt h)
  rw [Nat.succ_eq_add_one, daysBeforeMonth_succ] at hnext
  have hday := d.day_bounds.2
  unfold dayOfYear
  omega

theorem dayOfYear_bounds (d : Date) : 1 ≤ d.dayOfYear ∧ d.dayOfYear ≤ daysInYear d.year := by
  refine ⟨d.day_bounds.1.trans (Nat.le_add_left ..), ?_⟩
  rw [← daysBeforeMonth_thirteen]
  exact d.dayOfYear_le (Nat.lt_succ_of_le d.month_bounds.2)

theorem ordinal_eq (d : Date) : d.ordinal = daysBeforeYear d.year + d.dayOfYear :=
  Nat.add_assoc ..

variable {c d : Date}

theorem ordinal_lt_of_year (h : c.year < d.year) : c.ordinal < d.ordinal := by
  have hnext := daysBeforeYear_mono (Nat.le_add_left 1 c.year) (Nat.succ_le_of_lt h)
  rw [daysBeforeYear_succ c.year_bounds.1] at hnext
  have hc := c.dayOfYear_bounds.2
  have hd := d.dayOfYear_bounds.1
  rw [ordinal_eq, ordinal_eq]
  omega

theorem ordinal_lt_of_month (hyear : c.year = d.year) (h : c.month < d.month) :
    c.ordinal < d.ordinal := by
  have hc := c.dayOfYear_le h
  have hd := d.day_bounds.1
  rw [ordinal_eq, ordinal_eq, hyear]
  rw [hyear] at hc
  unfold dayOfYear at hc ⊢
  omega

/-- **Dates are in the order of the calendar:** by year, then by month, then by day. -/
theorem compare_eq (c d : Date) : c.compare d =
    (Ord.compare c.year d.year).then ((Ord.compare c.month d.month).then
      (Ord.compare c.day d.day)) := by
  unfold compare
  rcases Nat.lt_trichotomy c.year d.year with hyear | hyear | hyear
  · rw [Nat.compare_eq_lt.mpr hyear, Nat.compare_eq_lt.mpr (ordinal_lt_of_year hyear)]
    rfl
  · rw [Nat.compare_eq_eq.mpr hyear, Ordering.eq_then]
    rcases Nat.lt_trichotomy c.month d.month with hmonth | hmonth | hmonth
    · rw [Nat.compare_eq_lt.mpr hmonth, Nat.compare_eq_lt.mpr (ordinal_lt_of_month hyear hmonth)]
      rfl
    · have hordinal (e : Date) :
          e.ordinal = daysBeforeYear e.year + daysBeforeMonth e.year e.month + e.day := rfl
      rw [Nat.compare_eq_eq.mpr hmonth, Ordering.eq_then, hordinal, hordinal, hyear, hmonth,
        Nat.compare_eq_ite_lt, Nat.compare_eq_ite_lt]
      simp only [Nat.add_lt_add_iff_left]
    · rw [Nat.compare_eq_gt.mpr hmonth,
        Nat.compare_eq_gt.mpr (ordinal_lt_of_month hyear.symm hmonth)]
      rfl
  · rw [Nat.compare_eq_gt.mpr hyear, Nat.compare_eq_gt.mpr (ordinal_lt_of_year hyear)]
    rfl

end Date

/-! ## Times as written -/

theorem Clock.micros_lt (c : Clock) : c.micros < microsPerDay := by
  have hhour := c.hour_lt
  have hminute := c.minute_lt
  have hsecond := c.second_lt
  have hmicrosecond := c.microsecond_lt
  unfold Clock.micros microsPerDay
  omega

/-- **Times as written are in order as their dates are,** and within a date as their clock times. -/
theorem DateTime.compare_localMicros (s t : DateTime) :
    Ord.compare s.localMicros t.localMicros =
      (s.date.compare t.date).then (Ord.compare s.clock.micros t.clock.micros) := by
  have hs := s.clock.micros_lt
  have ht := t.clock.micros_lt
  unfold Date.compare localMicros
  unfold microsPerDay at *
  rcases Nat.lt_trichotomy s.date.ordinal t.date.ordinal with hdate | hdate | hdate
  · rw [Nat.compare_eq_lt.mpr hdate]
    exact compare_lt_iff_lt.mpr (by omega)
  · rw [Nat.compare_eq_eq.mpr hdate, Ordering.eq_then, hdate]
    rcases Nat.lt_trichotomy s.clock.micros t.clock.micros with hclock | hclock | hclock
    · rw [Nat.compare_eq_lt.mpr hclock]
      exact compare_lt_iff_lt.mpr (by omega)
    · rw [Nat.compare_eq_eq.mpr hclock]
      exact compare_eq_iff_eq.mpr (by omega)
    · rw [Nat.compare_eq_gt.mpr hclock]
      exact compare_gt_iff_gt.mpr (by omega)
  · rw [Nat.compare_eq_gt.mpr hdate]
    exact compare_gt_iff_gt.mpr (by omega)

end SnapshotStore
