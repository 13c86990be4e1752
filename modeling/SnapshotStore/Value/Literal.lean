import SnapshotStore.Text.Quoted
import SnapshotStore.Value

/-!
# Values in messages and keys

`Value.literal` writes a value so that its kind shows: texts are quoted, lists stand in brackets,
objects in braces. `Value.display` is the form used for keys and inside messages: a text or time
taken by itself is written plainly, everything else as a literal.
-/

namespace SnapshotStore

/-- Join texts with a comma and a space. -/
def commaSeparated : List (List Char) → List Char
  | [] => []
  | [text] => text
  | text :: texts => text ++ ',' :: ' ' :: commaSeparated texts

/-- Numbers as arguments, separated by commas. -/
def argumentText (numbers : List Nat) : List Char :=
  commaSeparated (numbers.map digitsOf)

/-- An offset as a literal, in days, seconds and microseconds, the last two never negative. -/
def Offset.literal (o : Offset) : List Char :=
  if o.micros = 0 then "datetime.timezone.utc".toList
  else
    let days := o.micros.fdiv microsPerDay
    let rest := (o.micros - days * microsPerDay).toNat
    let part (name : String) (n : Int) : List (List Char) :=
      if n = 0 then [] else [name.toList ++ integerText n]
    let parts := part "days=" days ++ part "seconds=" (rest / 1000000 : Nat) ++
      part "microseconds=" (rest % 1000000 : Nat)
    "datetime.timezone(datetime.timedelta(".toList ++ commaSeparated parts ++ [')', ')']

/-- A date as a literal. -/
def Date.literal (d : Date) : List Char :=
  "datetime.date(".toList ++ argumentText [d.year, d.month, d.day] ++ [')']

/-- A time as a literal: seconds and microseconds are left out from the end while zero. -/
def DateTime.literal (t : DateTime) : List Char :=
  let c := t.clock
  let fine := if c.microsecond ≠ 0 then [c.second, c.microsecond]
    else if c.second ≠ 0 then [c.second] else []
  let zone := match t.offset with
    | some o => ", tzinfo=".toList ++ o.literal
    | none => []
  "datetime.datetime(".toList ++
    argumentText ([t.date.year, t.date.month, t.date.day, c.hour, c.minute] ++ fine) ++
    zone ++ [')']

namespace Value

mutual

/-- A value written so that its kind shows. -/
def literal : Value → List Char
  | .null => "None".toList
  | .bool b => if b then "True".toList else "False".toList
  | .int n => integerText n
  | .float x => x.text
  | .str s => quoted s.toList
  | .list items => '[' :: (commaSeparated (literals items) ++ [']'])
  | .tuple [item] => '(' :: (literal item ++ [',', ')'])
  | .tuple items => '(' :: (commaSeparated (literals items) ++ [')'])
  | .set [] => "set()".toList
  | .set members => '{' :: (commaSeparated (literals members) ++ ['}'])
  | .bytes data => quotedBytes data
  | .datetime t => t.literal
  | .date d => d.literal
  | .object fields => '{' :: (commaSeparated (fieldLiterals fields) ++ ['}'])

/-- The literals of several values. -/
def literals : List Value → List (List Char)
  | [] => []
  | v :: vs => literal v :: literals vs

/-- The fields of an object, each key and value with a colon between them. -/
def fieldLiterals : Fields → List (List Char)
  | [] => []
  | (k, v) :: fields => (literal k ++ ':' :: ' ' :: literal v) :: fieldLiterals fields

end

/-- A value by itself in a message, or as the key of a document. -/
def displayText : Value → List Char
  | .str s => s.toList
  | .datetime t => t.textWith ' '
  | .date d => d.text
  | v => v.literal

/-- A value by itself in a message, or as the key of a document. -/
def display (v : Value) : String := String.ofList v.displayText

end Value

end SnapshotStore
