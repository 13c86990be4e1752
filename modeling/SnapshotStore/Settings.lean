import SnapshotStore.Disk
import SnapshotStore.Number.Decimal
import SnapshotStore.Settings.EnvFile
import SnapshotStore.Text.Utf8

/-!
# Settings

Where a store keeps its snapshot and how it works. Settings are read from the environment, and
where it is silent from an env file. Names of variables have a fixed beginning and do not depend
on case.
-/

namespace SnapshotStore

/-- The settings of a store. -/
structure Settings where
  dataDir : FilePath := .ofText "data"
  snapshotFilename : String := "db.json"
  strictQueries : Bool := false
  snapshotIndent : Option Int := some 2

/-- Why a text does not read as an integer. -/
inductive IntegerError where
  | malformed
  | tooLong
deriving DecidableEq

/-- A setting whose text does not read. -/
inductive SettingError where
  | snapshotIndent (cause : IntegerError)
  | strictQueries
deriving DecidableEq

namespace SettingError

/-- What is wrong, in words. -/
def message : SettingError → String
  | snapshotIndent .malformed => "snapshot_indent: int_parsing"
  | snapshotIndent .tooLong => "snapshot_indent: int_parsing_size"
  | strictQueries => "strict_queries: bool_parsing"

/-- What is wrong with several settings, in words. -/
def messages (errors : List SettingError) : String :=
  "; ".intercalate (errors.map message)

end SettingError

/-- Why there are no settings. -/
inductive SettingsError where
  | invalid (settings : List SettingError)
  | envFileNotText (fault : Utf8Fault)
  | envFileUnreadable (cause : DiskError)
deriving DecidableEq

namespace SettingsError

/-- What is wrong, in words. -/
def message : SettingsError → String
  | invalid settings => SettingError.messages settings
  | envFileNotText fault => fault.message
  | envFileUnreadable _ => "env file cannot be read"

end SettingsError

namespace Settings

/-- The path of the snapshot. -/
def snapshotPath (settings : Settings) : FilePath :=
  settings.dataDir.join (.ofText settings.snapshotFilename)

/-- The beginning of the names of all variables, in lower case. -/
def variablePrefix : String := "litedocstore_"

/-- Texts that stand for yes and no, in lower case. -/
def readBool (text : String) : Option Bool :=
  let word := text.toLower
  if ["1", "on", "t", "true", "y", "yes"].contains word then some true
  else if ["0", "off", "f", "false", "n", "no"].contains word then some false
  else none

/-! ## Integers

An integer is read from its plain form, after what may be left out of it is taken off in turn: white
space around it, a sign in front, a fraction of zeros, zeros in front, single underscores. Each of
these looks only at what the one before has left, so a minus sign may also stand behind the zeros
of a text without one, and underscores among zeros in front need not be single.

A text is too long only as it stands: where it needs nothing taken off in front of its digits. One
that turns out to have too many digits later is malformed. -/

/-- The text starts, perhaps behind a minus sign, with a digit other than zero and with more digits
than an integer may have. What comes after these digits does not matter. -/
def startsTooLong (cs : List Char) : Bool :=
  let magnitude := match cs with
    | '-' :: rest => rest
    | cs => cs
  let digits := magnitude.takeWhile Char.isDigit
  digits.head? != some '0' && maxIntegerDigits < digits.length

/-- Take off a plus sign, behind which no minus sign may stand. -/
def dropPlus? : List Char → Option (List Char)
  | '+' :: '-' :: _ => none
  | '+' :: rest => some rest
  | cs => some cs

/-- Take off a fraction of one or more zeros. -/
def dropZeroFraction (cs : List Char) : List Char :=
  match cs.dropWhile (· != '.') with
  | '.' :: '0' :: places => if places.all (· == '0') then cs.takeWhile (· != '.') else cs
  | _ => cs

/-- Take off zeros in front, and underscores among them; of zeros alone the last character stays. -/
def dropLeadingZeros : List Char → List Char
  | '0' :: rest =>
    match rest.dropWhile fun c => c == '0' || c == '_' with
    | [] => [rest.getLastD '0']
    | cs => cs
  | cs => cs

/-- Every underscore stands by itself, and none at an end. -/
def singleUnderscores : List Char → Bool
  | [] => true
  | ['_'] => false
  | '_' :: '_' :: _ => false
  | _ :: cs => singleUnderscores cs

/-- Take out underscores. -/
def dropUnderscores (cs : List Char) : List Char :=
  if cs.head? != some '_' && singleUnderscores cs then cs.filter (· != '_') else cs

/-- Take off what may be left out behind a sign. -/
def plainForm (cs : List Char) : List Char :=
  dropUnderscores (dropLeadingZeros (dropZeroFraction cs))

/-- Read digits that do not start with a zero, or zero itself; no more of them than an integer may
have. -/
def plainNat? : List Char → Option Nat
  | [] => none
  | ['0'] => some 0
  | '0' :: _ => none
  | digits =>
    if digits.all Char.isDigit && digits.length ≤ maxIntegerDigits then some (natOfDigits digits)
    else none

/-- Read digits behind a minus sign. -/
def negative? (digits : List Char) : Option Int := (plainNat? digits).map fun n => -(n : Int)

/-- Read an integer without a sign in front: digits, or a minus sign that stood behind zeros and
digits. -/
def unsigned? (cs : List Char) : Option Int :=
  match plainForm cs with
  | '-' :: digits => negative? digits
  | digits => (plainNat? digits).map fun n => (n : Int)

/-- Read an integer, with or without a sign in front. -/
def signed? (cs : List Char) : Option Int := do
  match ← dropPlus? (trim isSpace cs) with
  | '-' :: cs => negative? (plainForm cs)
  | cs => unsigned? cs

/-- Read an integer. -/
def readInt (text : String) : Except IntegerError Int :=
  if startsTooLong text.toList then .error .tooLong
  else
    match signed? text.toList with
    | some n => .ok n
    | none => .error .malformed

/-! ## Variables -/

/-- The value of a variable, whatever the case of its name; the last one counts, a variable
without a value not at all. -/
def findVariable (bindings : List EnvFile.Binding) (name : String) : Option String :=
  (bindings.reverse.find? fun binding => binding.1.toLower == variablePrefix ++ name).bind (·.2)

/-- Read settings from variables. All settings that do not read are named. -/
def ofVariables (lookup : String → Option String) : Except (List SettingError) Settings :=
  let default : Settings := {}
  let dataDir := ((lookup "data_dir").map FilePath.ofText).getD default.dataDir
  let snapshotFilename := (lookup "snapshot_filename").getD default.snapshotFilename
  let snapshotIndent : Except IntegerError (Option Int) := match lookup "snapshot_indent" with
    | none => .ok default.snapshotIndent
    | some text => (readInt text).map some
  let strictQueries := match lookup "strict_queries" with
    | none => some default.strictQueries
    | some text => readBool text
  match snapshotIndent, strictQueries with
  | .ok snapshotIndent, some strictQueries =>
    .ok { dataDir, snapshotFilename, strictQueries, snapshotIndent }
  | .ok _, none => .error [.strictQueries]
  | .error cause, some _ => .error [.snapshotIndent cause]
  | .error cause, none => .error [.snapshotIndent cause, .strictQueries]

/-- Read settings from an environment and the text of an env file. -/
def load (environment : List (String × String)) (envFile : Option String) :
    Except (List SettingError) Settings :=
  let outer := environment.map fun (name, value) => (name, some value)
  let inner := (envFile.map (EnvFile.read environment)).getD []
  ofVariables fun name => (findVariable outer name).orElse fun _ => findVariable inner name

/-- The env file, if there is one, stands in the working directory. -/
def envFile : FilePath := .ofText ".env"

/-- Read settings from an environment and the env file on a disk. -/
def loadFrom (environment : List (String × String)) (disk : Disk) :
    Except SettingsError Settings :=
  match disk.read envFile with
  | .error .notFound | .error .isADirectory => (load environment none).mapError .invalid
  | .error e => .error (.envFileUnreadable e)
  | .ok content =>
    match Utf8Fault.first? content with
    | some fault => .error (.envFileNotText fault)
    | none => (load environment (String.fromUTF8? content)).mapError .invalid

end Settings

end SnapshotStore
