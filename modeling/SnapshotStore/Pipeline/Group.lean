import SnapshotStore.Pipeline.Accumulator
import SnapshotStore.Value.Shape
import SnapshotStore.Value.Spelled

/-!
# Grouping

Documents are grouped by the text of a value: the JSON text with sorted keys, in which an integral
floating-point number is written as the integer it equals. Groups come in the order in which their
first documents come, and each is named by its first document's value.
-/

namespace SnapshotStore

/-- Why documents are not grouped. -/
inductive GroupError where
  | notAnObject
  | notAnAccumulator (field : Value)
  | unknownAccumulator (name : Value)
  | text (cause : EncodeError)
  | key (cause : EncodeError)
  | arithmetic (cause : ArithmeticError)
  | shape (cause : ShapeError)

namespace Group

/-! ## Group keys -/

mutual

/-- Write integral floating-point numbers as integers, in lists and in the values of objects. -/
def canonical : Value → Value
  | .float x => match x.toInt? with
    | some n => .int n
    | none => .float x
  | .list items => .list (canonicalAll items)
  | .object fields => .object (canonicalFields fields)
  | v => v

/-- The canonical forms of several values. -/
def canonicalAll : List Value → List Value
  | [] => []
  | v :: vs => canonical v :: canonicalAll vs

/-- Fields with the canonical forms of their values. -/
def canonicalFields : Fields → Fields
  | [] => []
  | (k, v) :: fields => (k, canonical v) :: canonicalFields fields

end

/-- The text by which a value is grouped. -/
def keyText (v : Value) : Except EncodeError (List Char) :=
  Json.write { sorted := true } 0 (canonical v)

/-! ## Specifications -/

/-- Where a value is taken from: a field of each document, or the same everywhere. -/
inductive Source where
  | field (name : String)
  | constant (v : Value)

namespace Source

/-- A text that starts with a dollar sign names a field. -/
def ofValue : Value → Source
  | .str s => if Value.isDollar s then .field (String.ofList s.toList.tail) else .constant (.str s)
  | v => .constant v

/-- Whether the value is taken from a field. -/
def isField : Source → Bool
  | .field _ => true
  | .constant _ => false

/-- The value for a document, null for a missing field. -/
def valueIn (doc : Document) : Source → Value
  | .field name => (Fields.getText? doc name).getD .null
  | .constant v => v

end Source

/-- A field of the rows: its name, how it is gathered and from where. -/
structure Column where
  field : Value
  accumulator : Accumulator
  source : Source

/-- Whether documents are asked for a field. Counting asks for none. -/
def Column.asks (column : Column) : Bool := column.accumulator != .count && column.source.isField

/-- The field that counts documents when a specification gathers nothing. -/
def defaultCountField : String := "referralsCount"

/-- The accumulator and its argument, if the value is an object of one field. -/
def single? : Value → Option (Value × Value)
  | .object [field] => some field
  | _ => none

/-- Fail with an error that names a value, if the value has a text. -/
def refuse {α : Type} (name : Value) (e : GroupError) : Except GroupError α := do
  let _ ← name.spelled.mapError .text
  .error e

/-- The columns that a specification asks for. What is no accumulator is passed over, or refused
when strict. -/
def columns (strict : Bool) : Fields → Except GroupError (List Column)
  | [] => .ok []
  | (field, spec) :: fields =>
    if field.equals (.str "_id") then columns strict fields
    else match single? spec with
      | none => if strict then refuse field (.notAnAccumulator field) else columns strict fields
      | some (name, argument) => match Accumulator.ofName? name with
        | none => if strict then refuse name (.unknownAccumulator name) else columns strict fields
        | some accumulator => do
          .ok (⟨field, accumulator, .ofValue argument⟩ :: (← columns strict fields))

/-- The columns, a count if there are none. -/
def columnsOrCount (strict : Bool) (spec : Fields) : Except GroupError (List Column) := do
  match ← columns strict spec with
  | [] => .ok [⟨.str defaultCountField, .count, .constant .null⟩]
  | found => .ok found

/-! ## Buckets -/

/-- The documents of one key: the key's text, the first value seen, and what was gathered. -/
structure Bucket where
  text : List Char
  value : Value
  tallies : List Tally

/-- Gather from one more document. -/
def addTo (columns : List Column) (doc : Document) (tallies : List Tally) :
    Except ArithmeticError (List Tally) :=
  (columns.zip tallies).mapM fun (column, tally) => tally.add (column.source.valueIn doc)

/-- Put a document into the bucket of its key, a new one at the end if there is none. -/
def put (columns : List Column) (doc : Document) (text : List Char) (value : Value) :
    List Bucket → Except ArithmeticError (List Bucket)
  | [] => do
    let tallies ← addTo columns doc (columns.map fun column => .start column.accumulator)
    .ok [⟨text, value, tallies⟩]
  | bucket :: buckets =>
    if bucket.text = text then do
      .ok ({ bucket with tallies := ← addTo columns doc bucket.tallies } :: buckets)
    else do .ok (bucket :: (← put columns doc text value buckets))

/-- Put documents into buckets, in order. -/
def fill (columns : List Column) (key : Source) :
    List Document → List Bucket → Except GroupError (List Bucket)
  | [], buckets => .ok buckets
  | doc :: docs, buckets => do
    let value := key.valueIn doc
    let text ← (keyText value).mapError .key
    let buckets ← (put columns doc text value buckets).mapError .arithmetic
    fill columns key docs buckets

/-- The row of a bucket. -/
def row (columns : List Column) (bucket : Bucket) : Except ArithmeticError Document := do
  let fields ← (columns.zip bucket.tallies).mapM fun (column, tally) => do
    .ok (column.field, ← tally.result)
  .ok ((.str "_id", bucket.value) :: fields)

/-- Where the value by which a specification groups is taken from. -/
def keySource (spec : Fields) : Source := .ofValue ((Fields.getText? spec "_id").getD .null)

/-- Group documents as a specification says, one row for each group. -/
def rows (strict : Bool) (spec : Value) (docs : List Document) :
    Except GroupError (List Document) := do
  match spec with
  | .object fields =>
    let columns ← columnsOrCount strict fields
    let buckets ← fill columns (keySource fields) docs []
    (buckets.mapM (row columns)).mapError .arithmetic
  | _ => .error .notAnObject

/-! ## Items of any kind -/

/-- Group the documents at the front of items, up to one that is none and is asked for a field. A
value that is the same for all is written before any field is asked for. -/
def failAt (columns : List Column) (key : Source) (items : List Value) (item : Value) :
    Except GroupError (List Document) := do
  let _ ← fill columns key ((items.takeWhile (·.fields?.isSome)).filterMap Value.fields?) []
  match key with
  | .field _ => .error (.shape (item.lacks "get"))
  | .constant v => do
    let _ ← (keyText v).mapError GroupError.key
    .error (.shape (item.lacks "get"))

/-- Group items. One that is no document has no fields to ask for, but may be counted. -/
def rowsOfItems (strict : Bool) (spec : Value) (items : List Value) :
    Except GroupError (List Document) := do
  match spec with
  | .object fields =>
    let columns ← columnsOrCount strict fields
    let asked := (keySource fields).isField || columns.any Column.asks
    match items.find? fun item => asked && item.fields?.isNone with
    | some item => failAt columns (keySource fields) items item
    | none => rows strict spec (items.map fun item => item.fields?.getD [])
  | _ => .error .notAnObject

end Group

end SnapshotStore
