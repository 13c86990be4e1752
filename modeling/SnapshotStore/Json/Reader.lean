import SnapshotStore.Value.Equality

/-!
# Reading JSON

The reader takes standard JSON and the names `NaN`, `Infinity` and `-Infinity`. A number without
fraction and exponent is an integer, of up to 4300 digits; any other is a floating-point number.
Of several fields with one key the first gives the place and the last the value.

An escape may stand for half of a character. A text as it is modelled here cannot hold that, so the
reader gives up on it, with an error of its own (`JsonError.loneSurrogate`).

Every function takes the text that is left and returns what it read with the rest. The fuel bounds
the nesting of calls. It falls by one with each call, and each call reads at least one character,
so a fuel greater than the length of the text never runs out.
-/

namespace SnapshotStore

/-- Why a text is not read. -/
inductive JsonError where
  | malformed
  | integerTooLong
  /-- An escape stands for half of a character. Nothing is said about such a text. -/
  | loneSurrogate
deriving DecidableEq

namespace Json

/-- White space between tokens. -/
def isWhitespace (c : Char) : Bool := c == ' ' || c == '\t' || c == '\n' || c == '\r'

/-- Pass over white space. -/
def skipSpace (cs : List Char) : List Char := cs.dropWhile isWhitespace

/-! ## Strings -/

/-- The value of a hexadecimal digit. -/
def hexValue? (c : Char) : Option Nat :=
  if '0' ≤ c ∧ c ≤ '9' then some (c.toNat - '0'.toNat)
  else if 'a' ≤ c ∧ c ≤ 'f' then some (c.toNat - 'a'.toNat + 10)
  else if 'A' ≤ c ∧ c ≤ 'F' then some (c.toNat - 'A'.toNat + 10)
  else none

/-- Read four hexadecimal digits. -/
def hexCode? : List Char → Option (Nat × List Char)
  | a :: b :: c :: d :: cs => do
    some (((← hexValue? a) * 16 + (← hexValue? b)) * 256 + (← hexValue? c) * 16 + (← hexValue? d),
      cs)
  | _ => none

/-- Read four hexadecimal digits, which must be there. -/
def hexCode (cs : List Char) : Except JsonError (Nat × List Char) :=
  match hexCode? cs with
  | some found => .ok found
  | none => .error .malformed

/-- Read the code of an escaped character: a plain one, or two halves of one. -/
def codePoint (cs : List Char) : Except JsonError (Char × List Char) := do
  let (code, cs) ← hexCode cs
  if code < 0xd800 ∨ 0xe000 ≤ code then .ok (Char.ofNat code, cs)
  else if code < 0xdc00 then
    match cs with
    | '\\' :: 'u' :: cs =>
      let (low, cs) ← hexCode cs
      if 0xdc00 ≤ low ∧ low < 0xe000 then
        .ok (Char.ofNat (0x10000 + (code - 0xd800) * 0x400 + (low - 0xdc00)), cs)
      else .error .loneSurrogate
    | _ => .error .loneSurrogate
  else .error .loneSurrogate

/-- The character that a short escape stands for. -/
def shortEscape? : Char → Option Char
  | '"' => some '"'
  | '\\' => some '\\'
  | '/' => some '/'
  | 'b' => some (Char.ofNat 8)
  | 'f' => some (Char.ofNat 12)
  | 'n' => some '\n'
  | 'r' => some '\r'
  | 't' => some '\t'
  | _ => none

/-- Read the rest of a string up to the closing quote. -/
def stringTail : (fuel : Nat) → List Char → Except JsonError (List Char × List Char)
  | 0, _ => .error .malformed
  | fuel + 1, cs =>
    match cs with
    | [] => .error .malformed
    | '"' :: rest => .ok ([], rest)
    | '\\' :: 'u' :: rest => do
      let (c, rest) ← codePoint rest
      let (text, rest) ← stringTail fuel rest
      .ok (c :: text, rest)
    | '\\' :: e :: rest =>
      match shortEscape? e with
      | none => .error .malformed
      | some c => do
        let (text, rest) ← stringTail fuel rest
        .ok (c :: text, rest)
    | c :: rest =>
      if c = '\\' ∨ c.toNat < 32 then .error .malformed
      else do
        let (text, rest) ← stringTail fuel rest
        .ok (c :: text, rest)

/-! ## Numbers -/

/-- Take the digits at the start. -/
def splitDigits (cs : List Char) : List Char × List Char := cs.span Char.isDigit

/-- Read the digits of a fraction, if a point and a digit follow. -/
def fraction (cs : List Char) : List Char × List Char :=
  match cs with
  | '.' :: rest =>
    match splitDigits rest with
    | ([], _) => ([], cs)
    | (digits, rest) => (digits, rest)
  | _ => ([], cs)

/-- Read an exponent, if a letter and a digit follow, with or without a sign between. -/
def exponent? (cs : List Char) : Option (Int × List Char) :=
  match cs with
  | e :: rest =>
    if e = 'e' ∨ e = 'E' then
      let (negative, rest) := match rest with
        | '-' :: rest => (true, rest)
        | '+' :: rest => (false, rest)
        | rest => (false, rest)
      match splitDigits rest with
      | ([], _) => none
      | (digits, rest) =>
        let size : Int := natOfDigits digits
        some (if negative then -size else size, rest)
    else none
  | [] => none

/-- Read a number after its sign. -/
def number (negative : Bool) (cs : List Char) : Except JsonError (Value × List Char) :=
  let (whole, rest) := match cs with
    | '0' :: rest => (['0'], rest)
    | cs => splitDigits cs
  if whole.isEmpty then .error .malformed
  else
    let (places, rest) := fraction rest
    match places, exponent? rest with
    | [], none =>
      if whole.length > maxIntegerDigits then .error .integerTooLong
      else
        let size : Int := natOfDigits whole
        .ok (.int (if negative then -size else size), rest)
    | places, found =>
      let (exponent, rest) := found.getD (0, rest)
      .ok (.float (Binary64.ofDecimal negative (natOfDigits (whole ++ places))
        (exponent - places.length)), rest)

/-! ## Values -/

/-- Take a word off the start. -/
def stripWord? : (word : List Char) → List Char → Option (List Char)
  | [], cs => some cs
  | w :: word, c :: cs => if w = c then stripWord? word cs else none
  | _ :: _, [] => none

/-- The words that stand for values. -/
def words : List (List Char × Value) :=
  [("null".toList, .null), ("true".toList, .bool true), ("false".toList, .bool false),
    ("NaN".toList, .float (.nan 0)), ("Infinity".toList, .float (.infinite false)),
    ("-Infinity".toList, .float (.infinite true))]

/-- Read a word or a number. -/
def scalar (cs : List Char) : Except JsonError (Value × List Char) :=
  match words.findSome? fun (word, v) => (stripWord? word cs).map fun rest => (v, rest) with
  | some found => .ok found
  | none =>
    match cs with
    | '-' :: rest => number true rest
    | cs => number false cs

mutual

/-- Read a value, with no white space before it. -/
def readValue : (fuel : Nat) → List Char → Except JsonError (Value × List Char)
  | 0, _ => .error .malformed
  | fuel + 1, cs =>
    match cs with
    | '"' :: rest => do
      let (text, rest) ← stringTail fuel rest
      .ok (.str (String.ofList text), rest)
    | '[' :: rest =>
      match skipSpace rest with
      | ']' :: rest => .ok (.list [], rest)
      | rest => do
        let (items, rest) ← readItems fuel rest
        .ok (.list items, rest)
    | '{' :: rest =>
      match skipSpace rest with
      | '}' :: rest => .ok (.object [], rest)
      | rest => do
        let (pairs, rest) ← readFields fuel rest
        .ok (.object (Fields.ofPairs pairs), rest)
    | cs => scalar cs

/-- Read the members of a list and its closing bracket. -/
def readItems : (fuel : Nat) → List Char → Except JsonError (List Value × List Char)
  | 0, _ => .error .malformed
  | fuel + 1, cs => do
    let (v, rest) ← readValue fuel cs
    match skipSpace rest with
    | ']' :: rest => .ok ([v], rest)
    | ',' :: rest =>
      let (vs, rest) ← readItems fuel (skipSpace rest)
      .ok (v :: vs, rest)
    | _ => .error .malformed

/-- Read the fields of an object and its closing brace. -/
def readFields : (fuel : Nat) → List Char → Except JsonError (Fields × List Char)
  | 0, _ => .error .malformed
  | fuel + 1, cs =>
    match cs with
    | '"' :: rest => do
      let (key, rest) ← stringTail fuel rest
      match skipSpace rest with
      | ':' :: rest =>
        let (v, rest) ← readValue fuel (skipSpace rest)
        match skipSpace rest with
        | '}' :: rest => .ok ([(.str (String.ofList key), v)], rest)
        | ',' :: rest =>
          let (fields, rest) ← readFields fuel (skipSpace rest)
          .ok ((.str (String.ofList key), v) :: fields, rest)
        | _ => .error .malformed
      | _ => .error .malformed
    | _ => .error .malformed

end

/-- Read a whole text as one value. -/
def read (cs : List Char) : Except JsonError Value := do
  let (v, rest) ← readValue (cs.length + 1) (skipSpace cs)
  if (skipSpace rest).isEmpty then .ok v else .error .malformed

/-- Read a whole text as one value. -/
def parse (text : String) : Except JsonError Value := read text.toList

end Json

end SnapshotStore
