/-!
# Calendar dates

Dates of the Gregorian calendar, years 1 to 9999, with their day count from the first day of
year 1 (`Date.ordinal`) and the weeks of a year: week 1 is the one that holds the year's first
Thursday, and weeks start on Monday (`Date.ofWeek?`).
-/

namespace SnapshotStore

/-- Every fourth year, except the hundreds that are not four hundreds. -/
def isLeapYear (year : Nat) : Bool :=
  year % 4 == 0 && (year % 100 != 0 || year % 400 == 0)

/-- The days of a month; zero for a number that names no month. -/
def daysInMonth (year : Nat) : Nat → Nat
  | 1 | 3 | 5 | 7 | 8 | 10 | 12 => 31
  | 4 | 6 | 9 | 11 => 30
  | 2 => if isLeapYear year then 29 else 28
  | _ => 0

/-- The days of a year. -/
def daysInYear (year : Nat) : Nat := if isLeapYear year then 366 else 365

/-- A day of the calendar. -/
structure Date where
  year : Nat
  month : Nat
  day : Nat
  year_bounds : 1 ≤ year ∧ year ≤ 9999
  day_bounds : 1 ≤ day ∧ day ≤ daysInMonth year month
deriving DecidableEq

namespace Date

/-- The date with the given numbers, if there is one. -/
def of? (year month day : Nat) : Option Date :=
  if hy : 1 ≤ year ∧ year ≤ 9999 then
    if hd : 1 ≤ day ∧ day ≤ daysInMonth year month then some ⟨year, month, day, hy, hd⟩
    else none
  else none

/-- Days of the years before a year. -/
def daysBeforeYear (year : Nat) : Nat :=
  let past := year - 1
  past * 365 + past / 4 - past / 100 + past / 400

/-- Days of a year's months before a month. -/
def daysBeforeMonth (year month : Nat) : Nat :=
  ((List.range month).map (daysInMonth year)).foldr (· + ·) 0

/-- The number of the day, counted from the first day of year 1, which has number 1. -/
def ordinal (d : Date) : Nat :=
  daysBeforeYear d.year + daysBeforeMonth d.year d.month + d.day

/-- Days since Monday of a year's first day. -/
def firstWeekday (year : Nat) : Nat := (daysBeforeYear year) % 7

/-- The date of a day counted within a year, which must belong to it. -/
def ofDayOfYear? (year day : Nat) : Option Date :=
  (List.range 13).findSome? fun month =>
    let before := daysBeforeMonth year month
    if before < day then of? year month (day - before) else none

/-- The date of a day of a week of a year. A year has 53 weeks when it starts on a Thursday, or
on a Wednesday and is a leap year; days beyond the year belong to its neighbours. -/
def ofWeek? (year week day : Nat) : Option Date :=
  let first := firstWeekday year
  let weeks := if first = 3 ∨ (first = 2 ∧ isLeapYear year) then 53 else 52
  if year = 0 ∨ week = 0 ∨ weeks < week ∨ day = 0 ∨ 7 < day then none
  else
    let monday : Int := if first > 3 then 8 - (first : Int) else 1 - (first : Int)
    let dayOfYear : Int := monday + 7 * (week - 1) + (day - 1)
    if dayOfYear < 1 then ofDayOfYear? (year - 1) (dayOfYear + daysInYear (year - 1)).toNat
    else if dayOfYear > daysInYear year then
      ofDayOfYear? (year + 1) (dayOfYear - daysInYear year).toNat
    else ofDayOfYear? year dayOfYear.toNat

end Date

end SnapshotStore
