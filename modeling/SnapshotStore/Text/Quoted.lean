import SnapshotStore.Text.Printable

/-!
# Quoted text

A quoted text stands between single quotes, or between double quotes when it holds a single quote
and no double one. The quote in use and the backslash are escaped, line breaks and tabs have
short escapes, and every other unprintable character is written by its code point in hexadecimal,
in two, four or eight digits.
-/

namespace SnapshotStore

/-- Hexadecimal digits, filled up with zeros to a width. -/
def hexPadded (width n : Nat) : List Char :=
  let digits := Nat.toDigits 16 n
  List.replicate (width - digits.length) '0' ++ digits

/-- The quote for a text. -/
def quoteFor (cs : List Char) : Char :=
  if cs.contains '\'' && !cs.contains '"' then '"' else '\''

/-- A code point by its number. -/
def escapedCode (n : Nat) : List Char :=
  if n < 0x100 then '\\' :: 'x' :: hexPadded 2 n
  else if n < 0x10000 then '\\' :: 'u' :: hexPadded 4 n
  else '\\' :: 'U' :: hexPadded 8 n

/-- A character between quotes. -/
def quotedChar (quote c : Char) : List Char :=
  if c = quote ∨ c = '\\' then ['\\', c]
  else if c = '\n' then ['\\', 'n']
  else if c = '\r' then ['\\', 'r']
  else if c = '\t' then ['\\', 't']
  else if isPrintable c then [c]
  else escapedCode c.toNat

/-- A text between quotes. -/
def quoted (cs : List Char) : List Char :=
  let quote := quoteFor cs
  quote :: (cs.flatMap (quotedChar quote) ++ [quote])

/-- A byte between quotes: outside ASCII always by its number. -/
def quotedByte (quote : Char) (b : UInt8) : List Char :=
  if b.toNat < 128 then quotedChar quote (Char.ofNat b.toNat) else escapedCode b.toNat

/-- A byte string between quotes, marked by a letter. -/
def quotedBytes (data : List UInt8) : List Char :=
  let quote := quoteFor (data.map fun b => Char.ofNat b.toNat)
  'b' :: quote :: (data.flatMap (quotedByte quote) ++ [quote])

end SnapshotStore
