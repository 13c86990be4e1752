import SnapshotStore.Sort
import SnapshotStore.Text.Quoted
import SnapshotStore.Value.Order

/-!
# Writing JSON

A `Style` says how a value is laid out and which values have a text at all. Tuples are written as
lists; times and dates as text where the style allows it; sets and byte strings never. Keys are
texts, and numbers, booleans and null are turned into text. Two keys may thus become the same
text, and then both are written.

Errors come in the order of the document: the first value or key without a text decides.
-/

namespace SnapshotStore

/-- Why a value has no JSON text. -/
inductive EncodeError where
  | unsupported (kind : String)
  | badKey (kind : String)
  | notFinite
  | integerTooLong
  | indentOutOfRange
  | keysDoNotCompare (left right : Value)

namespace Json

/-- How values are written. -/
structure Style where
  /-- Spaces for each level, on lines of their own; everything on one line if absent. -/
  indent : Option Nat := none
  /-- Times and dates are written as text. -/
  times : Bool := false
  /-- Infinite and undefined numbers are refused. -/
  finite : Bool := false
  /-- Fields are put in the order of their keys. -/
  sorted : Bool := false

namespace Style

/-- Between a bracket and what it holds, or between two members after their comma. -/
def newline (style : Style) (depth : Nat) : List Char :=
  match style.indent with
  | some width => '\n' :: List.replicate (width * depth) ' '
  | none => []

/-- Between two members. -/
def separator (style : Style) (depth : Nat) : List Char :=
  match style.indent with
  | some _ => ',' :: style.newline depth
  | none => [',', ' ']

/-- A bracketed text: an opening and a closing bracket, and members with their separators; empty
brackets stay together. -/
def bracket (style : Style) (depth : Nat) (opening closing : Char) (members : List (List Char)) :
    List Char :=
  match members with
  | [] => [opening, closing]
  | text :: texts =>
    opening :: (style.newline (depth + 1) ++ text ++
      texts.flatMap (style.separator (depth + 1) ++ ·) ++ style.newline depth ++ [closing])

end Style

/-! ## Scalars -/

/-- A character inside quotes. Only the quote, the backslash and control characters are escaped. -/
def escapedChar (c : Char) : List Char :=
  if c = '"' then ['\\', '"']
  else if c = '\\' then ['\\', '\\']
  else if c = '\n' then ['\\', 'n']
  else if c = '\r' then ['\\', 'r']
  else if c = '\t' then ['\\', 't']
  else if c.toNat = 8 then ['\\', 'b']
  else if c.toNat = 12 then ['\\', 'f']
  else if c.toNat < 32 then '\\' :: 'u' :: hexPadded 4 c.toNat
  else [c]

/-- A text in quotes. -/
def stringText (cs : List Char) : List Char :=
  '"' :: (cs.flatMap escapedChar ++ ['"'])

/-- The first natural number with more digits than an integer may have. -/
def integerBound : Nat := Nat.pow 10 maxIntegerDigits

/-- An integer, if it is not too long. -/
def integer (n : Int) : Except EncodeError (List Char) :=
  if n.natAbs < integerBound then .ok (integerText n) else .error .integerTooLong

/-- A floating-point number; infinite and undefined ones have names of their own. -/
def float (style : Style) : Binary64 → Except EncodeError (List Char)
  | .finite x => .ok (Binary64.finite x).text
  | .infinite negative =>
    if style.finite then .error .notFinite
    else .ok (if negative then "-Infinity".toList else "Infinity".toList)
  | .nan _ => if style.finite then .error .notFinite else .ok "NaN".toList

/-- The text of a boolean. -/
def boolText (b : Bool) : List Char := if b then "true".toList else "false".toList

/-- The text of a key, before quoting. -/
def keyText (style : Style) : Value → Except EncodeError (List Char)
  | .str s => .ok s.toList
  | .float x => float style x
  | .bool b => .ok (boolText b)
  | .null => .ok "null".toList
  | .int n => integer n
  | key =>
    .error (.badKey (if style.indent.isSome then key.kindName else key.qualifiedKindName))

/-! ## The order of keys -/

/-- The first members of two values at which they do not compare. -/
def clash : Value → Value → Value × Value
  | .tuple (x :: xs), .tuple (y :: ys) =>
    if x.alike y then clash (.tuple xs) (.tuple ys) else clash x y
  | a, b => (a, b)

/-- A key goes before another. -/
def keyBefore (a b : Value) : Except EncodeError Bool :=
  match a.relate? b with
  | some r => .ok (r == .less)
  | none => let (x, y) := clash a b; .error (.keysDoNotCompare x y)

/-- Put fields in the order of their keys. -/
def sortFields {α : Type} (fields : List (Value × α)) : Except EncodeError (List (Value × α)) :=
  Sort.sortM (fun a b => keyBefore a.1 b.1) fields

/-! ## Values -/

mutual

/-- A value at a depth of nesting. -/
def write (style : Style) (depth : Nat) : Value → Except EncodeError (List Char)
  | .null => .ok "null".toList
  | .bool b => .ok (boolText b)
  | .int n => integer n
  | .float x => float style x
  | .str s => .ok (stringText s.toList)
  | .list items => do .ok (style.bracket depth '[' ']' (← writeItems style depth items))
  | .tuple items => do .ok (style.bracket depth '[' ']' (← writeItems style depth items))
  | .set _ => .error (.unsupported "set")
  | .bytes _ => .error (.unsupported "bytes")
  | .datetime t => if style.times then .ok (stringText t.text) else .error (.unsupported "datetime")
  | .date d => if style.times then .ok (stringText d.text) else .error (.unsupported "date")
  | .object fields => do
    let parts := writeFields style depth fields
    let parts ← if style.sorted then sortFields parts else .ok parts
    .ok (style.bracket depth '{' '}' (← parts.mapM fun part => part.2))

/-- The members of a list, one text each. -/
def writeItems (style : Style) (depth : Nat) : List Value → Except EncodeError (List (List Char))
  | [] => .ok []
  | v :: vs => do
    let text ← write style (depth + 1) v
    .ok (text :: (← writeItems style depth vs))

/-- The fields of an object, each with its text or what is wrong with it. -/
def writeFields (style : Style) (depth : Nat) :
    Fields → List (Value × Except EncodeError (List Char))
  | [] => []
  | (k, v) :: fields =>
    let text := do
      let key ← keyText style k
      let value ← write style (depth + 1) v
      .ok (stringText key ++ ':' :: ' ' :: value)
    (k, text) :: writeFields style depth fields

end

/-- The JSON text of a value. -/
def render (style : Style) (v : Value) : Except EncodeError String := do
  .ok (String.ofList (← write style 0 v))

end Json

namespace EncodeError

/-- What is wrong, in words. -/
def message : EncodeError → String
  | unsupported kind => "Object of type " ++ kind ++ " is not JSON serializable"
  | badKey kind => "keys must be str, int, float, bool or None, not " ++ kind
  | notFinite => "Out of range float values are not JSON compliant"
  | integerTooLong =>
    "Exceeds the limit (" ++ toString maxIntegerDigits ++
      " digits) for integer string conversion; " ++
      "use sys.set_int_max_str_digits() to increase the limit"
  | indentOutOfRange => "cannot fit 'int' into an index-sized integer"
  | keysDoNotCompare (.datetime _) (.datetime _) =>
    "can't compare offset-naive and offset-aware datetimes"
  | keysDoNotCompare (.datetime _) (.date _) => "can't compare datetime.datetime to datetime.date"
  | keysDoNotCompare (.date _) (.datetime _) => "can't compare datetime.datetime to datetime.date"
  | keysDoNotCompare left right =>
    "'<' not supported between instances of '" ++ left.qualifiedKindName ++ "' and '" ++
      right.qualifiedKindName ++ "'"

end EncodeError

end SnapshotStore
