import SnapshotStore.Text.Blank

/-!
# Env files

An env file gives variables line by line, `NAME=value`, with `export` in front or not. A value is
plain up to a comment or the end of the line, or stands in quotes, in which it may run over lines.
Names may stand in single quotes. Lines that do not fit are passed over.

Then `${NAME}` and `${NAME:-default}` inside values are replaced, by variables given earlier in the
file or else by those of the environment.
-/

namespace SnapshotStore.EnvFile

/-- A line's variable, and its value if it gives one. -/
abbrev Binding := String × Option String

/-! ## Values -/

/-- Read up to the closing quote. What follows a backslash never closes. -/
def quotedTail? (quote : Char) : List Char → Option (List Char × List Char)
  | [] => none
  | '\\' :: c :: rest => (quotedTail? quote rest).map fun (text, rest) => ('\\' :: c :: text, rest)
  | c :: rest =>
    if c = quote then some ([], rest)
    else (quotedTail? quote rest).map fun (text, rest) => (c :: text, rest)

/-- What an escape stands for between single quotes. -/
def singleEscape? : Char → Option Char
  | '\\' => some '\\'
  | '\'' => some '\''
  | _ => none

/-- What an escape stands for between double quotes. -/
def doubleEscape? : Char → Option Char
  | '\\' => some '\\'
  | '\'' => some '\''
  | '"' => some '"'
  | 'a' => some (Char.ofNat 7)
  | 'b' => some (Char.ofNat 8)
  | 'f' => some (Char.ofNat 12)
  | 'n' => some '\n'
  | 'r' => some '\r'
  | 't' => some '\t'
  | 'v' => some (Char.ofNat 11)
  | _ => none

/-- Replace escapes; a backslash that starts none stays. -/
def unescape (escape? : Char → Option Char) : List Char → List Char
  | '\\' :: c :: rest => match escape? c with
    | some d => d :: unescape escape? rest
    | none => '\\' :: unescape escape? (c :: rest)
  | c :: rest => c :: unescape escape? rest
  | [] => []

/-- Cut off a comment with the blanks before it. -/
def cutComment : List Char → List Char
  | [] => []
  | c :: rest =>
    if isBlank c && (rest.dropWhile isBlank).head? == some '#' then []
    else c :: cutComment rest

/-- Read a value, with the blanks before it. -/
def value? (cs : List Char) : Option (List Char × List Char) :=
  match cs.dropWhile isInlineBlank with
  | '\'' :: rest => (quotedTail? '\'' rest).map fun (text, rest) =>
    (unescape singleEscape? text, rest)
  | '"' :: rest => (quotedTail? '"' rest).map fun (text, rest) =>
    (unescape doubleEscape? text, rest)
  | _ =>
    let line := cs.takeWhile (!isLineEnd ·)
    some (trim isBlank (cutComment line), cs.dropWhile (!isLineEnd ·))

/-! ## Lines -/

/-- Pass over a word and blanks after it, if both are there. -/
def skipExport (cs : List Char) : List Char :=
  match cs with
  | 'e' :: 'x' :: 'p' :: 'o' :: 'r' :: 't' :: c :: rest =>
    if isInlineBlank c then rest.dropWhile isInlineBlank else cs
  | cs => cs

/-- Part of a name without quotes. -/
def isNameChar (c : Char) : Bool := !(c == '=' || c == '#' || isBlank c)

/-- Read a name; a comment has none. -/
def name? (cs : List Char) : Option (Option (List Char) × List Char) :=
  match cs with
  | '#' :: _ => some (none, cs)
  | '\'' :: rest =>
    let name := rest.takeWhile (· != '\'')
    match rest.dropWhile (· != '\'') with
    | '\'' :: rest => if name.isEmpty then none else some (some name, rest)
    | _ => none
  | cs =>
    let name := cs.takeWhile isNameChar
    if name.isEmpty then none else some (some name, cs.dropWhile isNameChar)

/-- Pass over blanks, a comment and the end of the line, which must follow. -/
def lineEnd? (cs : List Char) : Option (List Char) :=
  let cs := match cs.dropWhile isInlineBlank with
    | '#' :: rest => rest.dropWhile (!isLineEnd ·)
    | rest => rest
  match cs with
  | [] => some []
  | c :: rest => if isLineEnd c then some rest else none

/-- Pass over what is left of a line and its end. -/
def skipLine (cs : List Char) : List Char := (cs.dropWhile (!isLineEnd ·)).drop 1

/-- Read what follows a name: a value after an equals sign, or nothing. Gives the rest also when
it fails. -/
def assignment (cs : List Char) : Option (Option (List Char)) × List Char :=
  match cs with
  | '=' :: rest =>
    match value? rest with
    | some (value, rest) => (some (some value), rest)
    | none => (none, rest)
  | cs => (some none, cs)

/-- Read one line that holds something, passing over it if it does not fit. -/
def line (cs : List Char) : Option Binding × List Char :=
  let start := skipExport cs
  match name? start with
  | none => (none, skipLine start)
  | some (name, rest) =>
    match assignment (rest.dropWhile isInlineBlank) with
    | (none, rest) => (none, skipLine rest)
    | (some value, rest) =>
      match lineEnd? rest with
      | none => (none, skipLine rest)
      | some rest =>
        (name.map fun name => (String.ofList name, value.map String.ofList), rest)

/-- Read all lines. -/
def lines : (fuel : Nat) → List Char → List Binding
  | 0, _ => []
  | fuel + 1, cs =>
    match cs.dropWhile isBlank with
    | [] => []
    | cs =>
      let (found, rest) := line cs
      found.toList ++ lines fuel rest

/-- End all lines alike: a carriage return, with a line feed or not, becomes a line feed. -/
def unifyLineEnds : List Char → List Char
  | [] => []
  | '\r' :: '\n' :: rest => '\n' :: unifyLineEnds rest
  | '\r' :: rest => '\n' :: unifyLineEnds rest
  | c :: rest => c :: unifyLineEnds rest

/-- Take off a byte order mark. -/
def dropMark : List Char → List Char
  | '\ufeff' :: rest => rest
  | cs => cs

/-- The variables of a text, line by line. -/
def bindings (text : String) : List Binding :=
  lines (text.length + 1) (unifyLineEnds (dropMark text.toList))

/-! ## References between variables -/

/-- A reference at the start of a text: the name, the default and the rest. -/
def reference? (cs : List Char) : Option (String × String × List Char) :=
  match cs with
  | '$' :: '\x7b' :: rest =>
    let name := rest.takeWhile fun c => c != '\x7d' && c != ':'
    match rest.dropWhile fun c => c != '\x7d' && c != ':' with
    | '\x7d' :: rest => some (String.ofList name, "", rest)
    | ':' :: '-' :: rest =>
      match rest.dropWhile (· != '\x7d') with
      | '\x7d' :: after =>
        some (String.ofList name, String.ofList (rest.takeWhile (· != '\x7d')), after)
      | _ => none
    | _ => none
  | _ => none

/-- Replace references. -/
def expand (known : List Binding) : (fuel : Nat) → List Char → List Char
  | 0, cs => cs
  | _, [] => []
  | fuel + 1, c :: cs =>
    match reference? (c :: cs) with
    | some (name, default, rest) =>
      let value := match known.lookup name with
        | some value => value.getD ""
        | none => default
      value.toList ++ expand known fuel rest
    | none => c :: expand known fuel cs

/-- Replace references in all values, one after the other. The latest variables come first. -/
def expandAll (known : List Binding) : List Binding → List Binding
  | [] => []
  | (name, value) :: rest =>
    let value := value.map fun text =>
      String.ofList (expand known (text.length + 1) text.toList)
    (name, value) :: expandAll ((name, value) :: known) rest

/-- Give a variable a value: in its place, or at the end. -/
def assign (name : String) (value : Option String) : List Binding → List Binding
  | [] => [(name, value)]
  | binding :: rest =>
    if binding.1 = name then (name, value) :: rest else binding :: assign name value rest

/-- The variables that a text gives in an environment, each once, in the order in which they are
first given, with the value they are last given. -/
def read (environment : List (String × String)) (text : String) : List Binding :=
  let known := environment.reverse.map fun (name, value) => (name, some value)
  (expandAll known (bindings text)).foldl (fun acc (name, value) => assign name value acc) []

end SnapshotStore.EnvFile
