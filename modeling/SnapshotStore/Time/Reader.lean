import SnapshotStore.Time.Text

/-!
# Reading times

A time is read from a date, any one separating character and a time of day. The date is
`YYYY-MM-DD`, `YYYYMMDD`, `YYYY-Www`, `YYYYWww` or a week with a day, `YYYY-Www-D`, `YYYYWwwD`.
The time of day is `HH`, `HH:MM`, `HH:MM:SS` or the same without colons, and a fraction, of which
six digits count; it ends in nothing, `Z` or a signed offset written like a time of day. Where a
time of day or an offset may end, a NUL ends the text.
-/

namespace SnapshotStore

/-- Read exactly so many digits. -/
def digits? (count : Nat) (cs : List Char) : Option (Nat × List Char) :=
  let found := cs.take count
  if found.length = count ∧ found.all Char.isDigit then some (natOfDigits found, cs.drop count)
  else none

namespace Date

/-- Read the day of a week, which may be left out for Monday. -/
def weekday? (dashed : Bool) : List Char → Option Nat
  | [] => some 1
  | c :: cs =>
    if dashed then if c = '-' then (digits? 1 cs).map (·.1) else none
    else (digits? 1 (c :: cs)).map (·.1)

/-- Read a date from the start of a text; what follows a complete date is not looked at. -/
def read? (cs : List Char) : Option Date := do
  let (year, cs) ← digits? 4 cs
  let dashed := cs.head? == some '-'
  let cs := if dashed then cs.tail else cs
  match cs with
  | 'W' :: cs =>
    let (week, cs) ← digits? 2 cs
    let day ← weekday? dashed cs
    ofWeek? year week day
  | cs =>
    let (month, cs) ← digits? 2 cs
    let cs ← if dashed then (if cs.head? == some '-' then some cs.tail else none) else some cs
    let (day, _) ← digits? 2 cs
    of? year month day

/-- Read a date from a text of a date's length, counted in bytes of UTF-8. -/
def ofText? (cs : List Char) : Option Date :=
  let size := (String.ofList cs).utf8ByteSize
  if size = 7 ∨ size = 8 ∨ size = 10 then read? cs else none

end Date

/-! ## Times of day -/

/-- Whether anything is left over. A NUL counts as the end of the text. -/
def isLeftover : List Char → Bool
  | [] => false
  | c :: _ => c != '\x00'

/-- The numbers of a written time of day, not yet held to their ranges, and whether a character
after them was left over. -/
structure ClockNumbers where
  hour : Nat := 0
  minute : Nat := 0
  second : Nat := 0
  microsecond : Nat := 0
  leftover : Bool := false

namespace ClockNumbers

/-- Put a number in its place: hour, minute, second. -/
def put (t : ClockNumbers) (place value : Nat) : ClockNumbers :=
  match place with
  | 0 => { t with hour := value }
  | 1 => { t with minute := value }
  | _ => { t with second := value }

/-- Read a fraction of a second: up to six digits count and further ones are passed over. -/
def fraction? (t : ClockNumbers) (cs : List Char) : Option ClockNumbers := do
  let count := min cs.length 6
  let (value, rest) ← digits? count cs
  let rest := rest.dropWhile Char.isDigit
  some { t with
    microsecond := value * Nat.pow 10 (6 - count)
    leftover := isLeftover rest }

/-- Read the numbers from a place on. Colons stand between all of them or none, as the first gap
decides; a point or comma starts the fraction, and so does anything after the seconds. A single
ASCII character left at the end is only noted. -/
def read? (t : ClockNumbers) : (place left : Nat) → (colons : Bool) → List Char →
    Option ClockNumbers
  | _, 0, _, cs => t.fraction? cs
  | place, left + 1, colons, cs => do
    let (value, cs) ← digits? 2 cs
    let t := t.put place value
    match cs with
    | [] => some t
    | c :: rest =>
      if rest.isEmpty && c.utf8Size == 1 then some { t with leftover := isLeftover [c] }
      else
        let colons := if place = 0 then c == ':' else colons
        if colons && c == ':' then read? t (place + 1) left colons rest
        else if c == '.' || c == ',' then t.fraction? rest
        else if !colons then read? t (place + 1) left colons (c :: rest)
        else none

end ClockNumbers

/-- Read an offset: `Z`, or a sign and a time of day. An offset of no whole second is universal
time. -/
def Offset.ofText? : List Char → Option Offset
  | 'Z' :: rest => if isLeftover rest then none else some .zero
  | sign :: cs =>
    if sign = '+' ∨ sign = '-' then do
      let t ← ClockNumbers.read? {} 0 3 true cs
      if t.leftover then none
      else
        let seconds := t.hour * 3600 + t.minute * 60 + t.second
        if seconds = 0 then some .zero
        else
          let size : Int := seconds * 1000000 + t.microsecond
          Offset.of? (if sign = '-' then -size else size)
    else none
  | [] => none

/-- Starts an offset. -/
def isOffsetStart (c : Char) : Bool := c == '+' || c == '-' || c == 'Z'

/-- Read a time of day and an offset if one follows; a stray character is let pass only in front
of an offset. -/
def readClock? (cs : List Char) : Option (Clock × Option Offset) := do
  let body := cs.takeWhile (!isOffsetStart ·)
  let zone := cs.dropWhile (!isOffsetStart ·)
  let t ← ClockNumbers.read? {} 0 3 true body
  let offset ← match zone with
    | [] => if t.leftover then none else some none
    | zone => (Offset.ofText? zone).map some
  let clock ← Clock.of? t.hour t.minute t.second t.microsecond
  some (clock, offset)

/-! ## Dates with times -/

namespace DateTime

/-- The length of the date at the start of a text. A week followed by a hyphen and two digits is
taken as a week and an hour; a week followed by digits only, as a week with a day when their
number is odd. -/
def dateLength? (cs : List Char) : Option Nat :=
  let size := cs.length
  if size = 7 then some 7
  else if cs[4]? = some '-' then
    if cs[5]? = some 'W' then
      if size < 8 then none
      else if cs[8]? = some '-' then
        if size = 9 then none
        else if (cs[10]?.map Char.isDigit).getD false then some 8 else some 10
      else some 8
    else some 10
  else if cs[4]? = some 'W' then
    let run := 7 + ((cs.drop 7).takeWhile Char.isDigit).length
    if run < 9 then some run else if run % 2 = 0 then some 7 else some 8
  else some 8

/-- Read a date and time; a date alone is its midnight. -/
def ofText? (cs : List Char) : Option DateTime := do
  let size ← dateLength? cs
  let date ← Date.read? (cs.take size)
  match cs.drop size with
  | [] => some (.ofDate date)
  | _ :: rest =>
    let (clock, offset) ← readClock? rest
    some ⟨date, clock, offset⟩

end DateTime

end SnapshotStore
