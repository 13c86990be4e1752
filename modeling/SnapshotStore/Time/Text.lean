import SnapshotStore.Number.Decimal
import SnapshotStore.Time.DateTime

/-!
# Written times

A date is written `YYYY-MM-DD`, a time of day `HH:MM:SS` with six more digits when it has
microseconds, an offset `+HH:MM` with seconds and microseconds only when it has them.
-/

namespace SnapshotStore

/-- The digits of a number, filled up with zeros to a width. -/
def padded (width n : Nat) : List Char :=
  let digits := digitsOf n
  List.replicate (width - digits.length) '0' ++ digits

/-- A point and six digits, when there are microseconds. -/
def microsecondText (n : Nat) : List Char := if n = 0 then [] else '.' :: padded 6 n

/-- A date in ISO 8601 form. -/
def Date.text (d : Date) : List Char :=
  padded 4 d.year ++ '-' :: (padded 2 d.month ++ '-' :: padded 2 d.day)

/-- A time of day in ISO 8601 form. -/
def Clock.text (c : Clock) : List Char :=
  padded 2 c.hour ++ ':' :: (padded 2 c.minute ++ ':' :: (padded 2 c.second ++
    microsecondText c.microsecond))

/-- An offset in ISO 8601 form. -/
def Offset.text (o : Offset) : List Char :=
  let size := o.micros.natAbs
  let seconds := size / 1000000
  let fraction := size % 1000000
  (if o.micros < 0 then '-' else '+') :: (padded 2 (seconds / 3600) ++ ':' ::
    (padded 2 (seconds / 60 % 60) ++
      if seconds % 60 = 0 ∧ fraction = 0 then []
      else ':' :: (padded 2 (seconds % 60) ++ microsecondText fraction)))

/-- A date and time in ISO 8601 form, with the given character between the two. -/
def DateTime.textWith (separator : Char) (t : DateTime) : List Char :=
  t.date.text ++ separator :: (t.clock.text ++ match t.offset with
    | some o => o.text
    | none => [])

/-- A date and time in ISO 8601 form. -/
def DateTime.text (t : DateTime) : List Char := t.textWith 'T'

end SnapshotStore
