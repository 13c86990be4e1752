import SnapshotStore.Collections
import SnapshotStore.Disk.Replace
import SnapshotStore.Json.Reader

/-!
# Snapshots

A snapshot is the JSON text of all collections in one file. Reading it checks that every known
collection has its shape, holds keyed documents under their own keys, drops unknown collections
and adds missing ones, so that whatever is read is fit to be a store's data. What was changed on
the way is reported as notices, also when reading fails later on.
-/

namespace SnapshotStore

/-- Why a file gives no value. -/
inductive ReadError where
  | disk (cause : DiskError)
  | notText
  | json (cause : JsonError)
deriving DecidableEq

/-- Why a snapshot is not accepted. -/
inductive SnapshotError where
  | unreadable (path : FilePath) (cause : ReadError)
  | notAnObject
  | notAMap (collection : String)
  | notAList (collection : String)
  | noKey (entry : Value) (collection field : String)
  | duplicateKey (field key collection : String)

/-- What was changed in reading a snapshot. -/
inductive Notice where
  | dropped (collection : Value)
  | rekeyed (old : Value) (new collection : String)

namespace Snapshot

/-- A result with the notices on the way to it. -/
structure Checked (α : Type) where
  notices : List Notice
  outcome : Except SnapshotError α

/-- Put earlier notices in front. -/
def Checked.after {α : Type} (notices : List Notice) (r : Checked α) : Checked α :=
  { r with notices := notices ++ r.notices }

/-! ## Checking -/

/-- Hold documents under their own keys, after those already held. What is read from a text has a
text, so each has a key. -/
def rekey (collection field : String) :
    List (Value × Document) → List (String × Document) → Checked (List (String × Document))
  | [], held => ⟨[], .ok held⟩
  | (old, doc) :: rest, held =>
    match (Fields.getText? doc field).getD .null with
    | .null => ⟨[], .error (.noKey old collection field)⟩
    | id =>
      let key := id.display
      if (held.lookup key).isSome then ⟨[], .error (.duplicateKey field key collection)⟩
      else
        let notices := if (Value.str key).equals old then [] else [.rekeyed old key collection]
        (rekey collection field rest (held ++ [(key, doc)])).after notices

/-- Entries of an object that maps to objects. -/
def entries? : Value → Option (List (Value × Document))
  | .object fields => fields.mapM fun (key, v) => v.fields?.map fun doc => (key, doc)
  | _ => none

/-- Check the contents of a collection. -/
def checkContents (name : String) (kind : Kind) (contents : Value) : Checked Contents :=
  match kind with
  | .keyed field =>
    match entries? contents with
    | none => ⟨[], .error (.notAMap name)⟩
    | some entries =>
      match rekey name field entries [] with
      | ⟨notices, .ok held⟩ => ⟨notices, .ok (.keyed held)⟩
      | ⟨notices, .error e⟩ => ⟨notices, .error e⟩
  | .appendOnly =>
    match contents with
    | .list items => match Value.documents? items with
      | some docs => ⟨[], .ok (.appendOnly docs)⟩
      | none => ⟨[], .error (.notAList name)⟩
    | _ => ⟨[], .error (.notAList name)⟩

/-- The schema's name and kind for a key. -/
def known? : Value → Option (String × Kind)
  | .str name => (kindOf? name).map fun kind => (name, kind)
  | _ => none

/-- Check the collections that an object gives, one after the other. -/
def checkFields : Fields → Collections → Checked Collections
  | [], data => ⟨[], .ok data⟩
  | (key, contents) :: fields, data =>
    match known? key with
    | none => (checkFields fields data).after [.dropped key]
    | some (name, kind) =>
      match checkContents name kind contents with
      | ⟨notices, .ok contents⟩ => (checkFields fields (data.set name contents)).after notices
      | ⟨notices, .error e⟩ => ⟨notices, .error e⟩

/-- Check a value and complete it to a store's data. -/
def check : Value → Checked Collections
  | .object fields => checkFields fields .empty
  | _ => ⟨[], .error .notAnObject⟩

/-! ## Files -/

/-- The value that bytes stand for. -/
def decode (content : ByteArray) : Except ReadError Value :=
  match String.fromUTF8? content with
  | none => .error .notText
  | some text => (Json.parse text).mapError .json

/-- Read a snapshot. A missing file is no error and gives nothing. -/
def load (disk : Disk) (path : FilePath) : Checked (Option Collections) :=
  match disk.read path with
  | .error .notFound => ⟨[], .ok none⟩
  | .error e => ⟨[], .error (.unreadable path (.disk e))⟩
  | .ok content =>
    match decode content with
    | .error e => ⟨[], .error (.unreadable path e)⟩
    | .ok v =>
      match check v with
      | ⟨notices, .ok data⟩ => ⟨notices, .ok (some data)⟩
      | ⟨notices, .error e⟩ => ⟨notices, .error e⟩

/-- How a snapshot is written. A negative indent breaks lines and indents by nothing. -/
def style (indent : Option Int) : Json.Style :=
  { indent := indent.map Int.toNat, times := true, finite := true }

/-- The range of indents: the sizes that a machine word counts. -/
def indentRange : Nat := Nat.pow 2 63

/-- An indent must be in range. A text by itself has no lines to indent. -/
def checkIndent (indent : Option Int) (v : Value) : Except EncodeError Unit :=
  match v, indent with
  | .str _, _ => .ok ()
  | _, none => .ok ()
  | _, some n =>
    if n < -(indentRange : Int) ∨ (indentRange : Int) ≤ n then .error .indentOutOfRange else .ok ()

/-- The text of a snapshot. -/
def dump (indent : Option Int) (v : Value) : Except EncodeError String := do
  checkIndent indent v
  Json.render (style indent) v

/-- Why a snapshot is not written. -/
inductive WriteError where
  | encode (cause : EncodeError)
  | disk (cause : ReplaceError)

/-- Write a snapshot in place of the file at a path. Returns whether it succeeded, and the disk
afterwards. -/
def write (disk : Disk) (path : FilePath) (v : Value) (indent : Option Int)
    (fault : Option ReplaceStep) : Except WriteError Unit × Disk :=
  match dump indent v with
  | .error e => (.error (.encode e), disk)
  | .ok text =>
    let (outcome, disk) := disk.replace path text.toUTF8 fault
    (outcome.mapError .disk, disk)

end Snapshot

end SnapshotStore
