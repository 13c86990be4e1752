import SnapshotStore.Time.Date

/-!
# Times

A `DateTime` is a date with a time of day and possibly an offset from universal time. Two times
compare when both have an offset (as instants) or neither has (as written); a time with an offset
and one without neither are equal nor compare.
-/

namespace SnapshotStore

/-- A time of day to the microsecond. -/
structure Clock where
  hour : Nat
  minute : Nat
  second : Nat
  microsecond : Nat
  hour_lt : hour < 24
  minute_lt : minute < 60
  second_lt : second < 60
  microsecond_lt : microsecond < 1000000
deriving DecidableEq

namespace Clock

/-- The start of the day. -/
def midnight : Clock := ⟨0, 0, 0, 0, by decide, by decide, by decide, by decide⟩

/-- The time of day with the given numbers, if there is one. -/
def of? (hour minute second microsecond : Nat) : Option Clock :=
  if h : hour < 24 ∧ minute < 60 ∧ second < 60 ∧ microsecond < 1000000 then
    some ⟨hour, minute, second, microsecond, h.1, h.2.1, h.2.2.1, h.2.2.2⟩
  else none

/-- Microseconds since midnight. -/
def micros (c : Clock) : Nat :=
  ((c.hour * 60 + c.minute) * 60 + c.second) * 1000000 + c.microsecond

end Clock

/-- Microseconds of a day. -/
def microsPerDay : Nat := 86400000000

/-- A distance from universal time of less than a day, in microseconds. -/
structure Offset where
  micros : Int
  bounded : micros.natAbs < microsPerDay
deriving DecidableEq

namespace Offset

/-- Universal time. -/
def zero : Offset := ⟨0, by decide⟩

/-- The offset of so many microseconds, if less than a day. -/
def of? (micros : Int) : Option Offset :=
  if h : micros.natAbs < microsPerDay then some ⟨micros, h⟩ else none

end Offset

/-- A date and time of day, with the offset from universal time if it is known. -/
structure DateTime where
  date : Date
  clock : Clock
  offset : Option Offset
deriving DecidableEq

namespace DateTime

/-- Midnight of a date, with no offset. -/
def ofDate (d : Date) : DateTime := ⟨d, .midnight, none⟩

/-- Microseconds as written, whatever the offset. -/
def localMicros (t : DateTime) : Int := t.date.ordinal * microsPerDay + t.clock.micros

/-- Microseconds in universal time, taking a time without an offset as written. -/
def instant (t : DateTime) : Int :=
  t.localMicros - match t.offset with
    | some o => o.micros
    | none => 0

/-- Both have an offset or neither has. -/
def comparable (s t : DateTime) : Bool := s.offset.isSome == t.offset.isSome

/-- The chronological order of two comparable times. -/
def compare? (s t : DateTime) : Option Ordering :=
  if s.comparable t then some (Ord.compare s.instant t.instant) else none

end DateTime

namespace Date

/-- The chronological order of dates. -/
def compare (c d : Date) : Ordering :=
  Ord.compare c.ordinal d.ordinal

end Date

end SnapshotStore
