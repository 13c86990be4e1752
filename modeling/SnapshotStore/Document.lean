import SnapshotStore.Json.Writer

/-!
# Clean documents

A stored document is clean: it holds only what JSON holds, and all its keys are texts. Cleaning
turns tuples into lists and keys into texts, and times and dates into texts where the style allows
it; of several fields whose keys become the same text the last gives the value. It fails on the
same values, with the same error, as writing does: what is cleaned is what would be read back from
the written text.
-/

namespace SnapshotStore

namespace Value

mutual

/-- The clean form of a value. -/
def clean (style : Json.Style) : Value → Except EncodeError Value
  | .null => .ok .null
  | .bool b => .ok (.bool b)
  | .int n => do
    let _ ← Json.integer n
    .ok (.int n)
  | .float (.nan tag) => do
    let _ ← Json.float style (.nan tag)
    .ok (.float (.nan 0))
  | .float x => do
    let _ ← Json.float style x
    .ok (.float x)
  | .str s => .ok (.str s)
  | .list items => do .ok (.list (← cleanAll style items))
  | .tuple items => do .ok (.list (← cleanAll style items))
  | .set _ => .error (.unsupported "set")
  | .bytes _ => .error (.unsupported "bytes")
  | .datetime t =>
    if style.times then .ok (.str (String.ofList t.text)) else .error (.unsupported "datetime")
  | .date d =>
    if style.times then .ok (.str (String.ofList d.text)) else .error (.unsupported "date")
  | .object fields => do .ok (.object (Fields.ofPairs (← cleanFields style fields)))

/-- The clean forms of several values. -/
def cleanAll (style : Json.Style) : List Value → Except EncodeError (List Value)
  | [] => .ok []
  | v :: vs => do
    let v ← clean style v
    .ok (v :: (← cleanAll style vs))

/-- The clean forms of fields. -/
def cleanFields (style : Json.Style) : Fields → Except EncodeError Fields
  | [] => .ok []
  | (k, v) :: fields => do
    let key ← Json.keyText style k
    let v ← clean style v
    .ok ((.str (String.ofList key), v) :: (← cleanFields style fields))

end

end Value

/-- Why a document cannot be stored. -/
inductive DocumentError where
  | notAnObject
  | notJson (cause : EncodeError)
  | missingKey (field collection : String)

namespace DocumentError

/-- What is wrong, in words. -/
def message : DocumentError → String
  | notAnObject => "Document must be a dict."
  | notJson cause => "Document is not JSON-compatible: " ++ cause.message
  | missingKey field collection =>
    "Missing key field '" ++ field ++ "' for collection '" ++ collection ++ "'."

end DocumentError

namespace Document

/-- The style of stored documents: times as text, only finite numbers. -/
def storedStyle : Json.Style := { times := true, finite := true }

/-- The style of copies handed out: no times, all numbers. -/
def copyStyle : Json.Style := {}

/-- The fields of an object after cleaning in a style. -/
def cleanFields (style : Json.Style) (doc : Document) : Except EncodeError Document := do
  .ok (Fields.ofPairs (← Value.cleanFields style doc))

/-- The form in which a document is stored. -/
def normalize : Value → Except DocumentError Document
  | .object fields => (cleanFields storedStyle fields).mapError .notJson
  | _ => .error .notAnObject

/-- A copy of a document, to hand out. -/
def copy (doc : Document) : Except EncodeError Document := cleanFields copyStyle doc

/-- Copies of documents, to hand out. -/
def copyAll : List Document → Except EncodeError (List Document)
  | [] => .ok []
  | doc :: docs => do
    let doc ← copy doc
    .ok (doc :: (← copyAll docs))

end Document

end SnapshotStore
