/-!
# Blank characters

The characters that separate words: the white space of Unicode (`isSpace`) and the four separator
controls as well (`isBlank`).
-/

namespace SnapshotStore

/-- White space. -/
def isSpace (c : Char) : Bool :=
  let n := c.toNat
  (9 ≤ n && n ≤ 13) || n == 32 || n == 0x85 || n == 0xa0 || n == 0x1680 ||
    (0x2000 ≤ n && n ≤ 0x200a) || n == 0x2028 || n == 0x2029 || n == 0x202f || n == 0x205f ||
    n == 0x3000

/-- White space or one of the controls that separate files, groups, records and units. -/
def isBlank (c : Char) : Bool := isSpace c || (28 ≤ c.toNat && c.toNat ≤ 31)

/-- Ends a line. -/
def isLineEnd (c : Char) : Bool := c == '\n'

/-- Separates words within a line. -/
def isInlineBlank (c : Char) : Bool := isBlank c && !isLineEnd c

/-- Drop such characters at both ends. -/
def trim (drop : Char → Bool) (cs : List Char) : List Char :=
  ((cs.dropWhile drop).reverse.dropWhile drop).reverse

end SnapshotStore
