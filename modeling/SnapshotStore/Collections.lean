import SnapshotStore.Document
import SnapshotStore.Value.Spelled

/-!
# Collections

A store has seven collections. Two are keyed: each document is held under the text of its own key
field, one document for each key. The others are append-only lists.

`Collections` is the data of a store: contents by name, in order. `Collections.empty` is the
baseline, all seven with nothing in them.
-/

namespace SnapshotStore

/-- How a collection holds its documents. -/
inductive Kind where
  | keyed (field : String)
  | appendOnly
deriving DecidableEq

/-- What a collection holds. -/
inductive Contents where
  | keyed (entries : List (String × Document))
  | appendOnly (documents : List Document)

/-- Contents by name of the collection. -/
abbrev Collections := List (String × Contents)

/-- The collections of a store, in order. -/
def schema : List (String × Kind) :=
  [("users", .keyed "id"), ("dailyStates", .keyed "userId"), ("referrals", .appendOnly),
    ("orders", .appendOnly), ("notifications", .appendOnly), ("ambassadorWaitlist", .appendOnly),
    ("activities", .appendOnly)]

/-- How a collection of the schema holds its documents. -/
def kindOf? (name : String) : Option Kind := schema.lookup name

namespace Kind

/-- The name of a kind of collection, as it is shown. -/
def name : Kind → String
  | keyed _ => "KeyedCollection"
  | appendOnly => "AppendOnlyCollection"

/-- Contents with no documents. -/
def noContents : Kind → Contents
  | keyed _ => .keyed []
  | appendOnly => .appendOnly []

end Kind

namespace Contents

/-- The documents, in order. -/
def documents : Contents → List Document
  | keyed entries => entries.map (·.2)
  | appendOnly docs => docs

/-- The contents as a value: an object from keys to documents, or a list. -/
def toValue : Contents → Value
  | keyed entries => .object (entries.map fun (key, doc) => (.str key, .object doc))
  | appendOnly docs => .list (docs.map .object)

/-- The contents that a value stands for. -/
def ofValue? : Value → Option Contents
  | .object fields => do
    let entries ← fields.mapM fun (key, v) => match key, v with
      | .str key, .object doc => some (key, doc)
      | _, _ => none
    some (.keyed entries)
  | .list items => (Value.documents? items).map .appendOnly
  | _ => none

/-- Whether contents are held in the way of a kind of collection. -/
def hasKind : Contents → Kind → Bool
  | keyed _, .keyed _ => true
  | appendOnly _, .appendOnly => true
  | _, _ => false

end Contents

/-- The key under which a document with such a key field is held. -/
def documentKey (id : Value) : Except EncodeError String := id.spelled

/-! ## Entries of a keyed collection -/

namespace Entries

/-- Hold a document under a key: in place of the one held there, or at the end. -/
def insert (key : String) (doc : Document) : List (String × Document) → List (String × Document)
  | [] => [(key, doc)]
  | entry :: entries =>
    if entry.1 = key then (key, doc) :: entries else entry :: insert key doc entries

/-- Hold nothing under a key. -/
def erase (key : String) (entries : List (String × Document)) : List (String × Document) :=
  entries.filter fun entry => entry.1 != key

end Entries

namespace Collections

/-- All collections, with nothing in them. -/
def empty : Collections := schema.map fun (name, kind) => (name, kind.noContents)

/-- Exchange the contents of a collection. -/
def set (data : Collections) (name : String) (contents : Contents) : Collections :=
  data.map fun entry => if entry.1 = name then (name, contents) else entry

/-- The data as an object. -/
def toValue (data : Collections) : Value :=
  .object (data.map fun (name, contents) => (.str name, contents.toValue))

/-- The data that an object stands for, taken as it is. Collections of the schema must be held in
the way of their kind. -/
def ofValue? : Value → Option Collections
  | .object fields => fields.mapM fun (key, v) => match key with
    | .str name => do
      let contents ← Contents.ofValue? v
      if (kindOf? name).all contents.hasKind then some (name, contents) else none
    | _ => none
  | _ => none

end Collections

end SnapshotStore
