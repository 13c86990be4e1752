import SnapshotStore.Store.Inquiry

/-!
# Loose stores

A loose store holds whatever value it was given as its data, also one that is no object, whose
collections are held in another way than their kind, or whose items are no documents. An operation
fails only where it comes upon a value that does not serve (`ShapeError`), so items that nobody asks
for a field are found, counted, written and deleted like any others.

An operation does with fitting data what it does in a `Store`.
-/

namespace SnapshotStore

/-- Data of any shape, kept in a snapshot. -/
structure LooseStore where
  path : FilePath
  strict : Bool
  indent : Option Int
  data : Value

namespace LooseStore

/-! ## Writing through -/

/-- Write the data to the snapshot. -/
def persist (s : LooseStore) (disk : Disk) (fault : Option ReplaceStep := none) :
    Step LooseStore Unit :=
  Store.writeThrough s s.path s.indent s.data disk fault

/-- Exchange what a collection holds and write the data. -/
def commit (s : LooseStore) (disk : Disk) (fault : Option ReplaceStep) (name : String)
    (contents : Value) : Step LooseStore Unit :=
  let fields := Fields.insert (s.data.fields?.getD []) (.str name) contents
  { s with data := .object fields }.persist disk fault

/-! ## Collections -/

/-- What a collection holds. -/
def contents (s : LooseStore) (name : String) : Except Failure Value := do
  let _ ← Store.kind name
  match s.data with
  | .object fields =>
    match Fields.getText? fields name with
    | some contents => .ok contents
    | none => .error (.notHeld name)
  | v => .error (.shape v.indexError)

/-- The items of a collection, in order. -/
def items (s : LooseStore) (name : String) : Except Failure (List Value) := do
  let contents ← s.contents name
  match ← Store.kind name with
  | .keyed _ => contents.held.mapError .shape
  | .appendOnly => contents.elements.mapError .shape

/-- A copy of an item, to hand out. -/
def copy (item : Value) : Except Failure Value :=
  (item.clean Document.copyStyle).mapError .encode

/-- Copies of items, to hand out. -/
def copyAll (items : List Value) : Except Failure Value := do .ok (.list (← items.mapM copy))

/-- A copy of an item that may be absent, or null in its place. -/
def copy? : Option Value → Except Failure Value
  | some item => copy item
  | none => .ok .null

/-! ## Reading -/

/-- The items of a collection that satisfy a query. -/
def select (s : LooseStore) (name : String) (q : Value) : Except Failure (List Value) := do
  (Query.selectItems s.strict q (← s.items name)).mapError .query

/-- What is held under a key, unless it is null. -/
def held? (s : LooseStore) (name key : String) : Except Failure (Option Value) := do
  match ← ((← s.contents name).get? key).mapError .shape with
  | some .null => .ok none
  | found => .ok found

/-- What is held under the key of an id, unless it is null. The id is asked for its key only where
the collection can hold something under one. -/
def find? (s : LooseStore) (name : String) (id : Value) : Except Failure (Option Value) := do
  let _ ← s.held? name ""
  s.held? name (← Store.key id)

/-- The rows that a pipeline gives for a collection, and what was reported on the way. -/
def aggregate (s : LooseStore) (name : String) (pipeline : Value) : Answer :=
  match s.items name with
  | .error e => .plain (.error e)
  | .ok items =>
    let report := Pipeline.runItems s.strict pipeline items
    ⟨report.ignored.map .ignoredStage, do copyAll (← report.outcome.mapError .pipeline)⟩

/-- Ask a loose store. -/
def answer (s : LooseStore) : Inquiry → Answer
  | .find name id => .plain do
    let _ ← Store.keyField "find_by_id" name
    copy? (← s.find? name id)
  | .query name q => .plain do copyAll (← s.select name q)
  | .findOne name q => .plain do
    copy? (← (Query.firstItem? s.strict q (← s.items name)).mapError .query)
  | .count name q => .plain do .ok (.int (← s.select name q).length)
  | .aggregate name pipeline => s.aggregate name pipeline
  | .size name => .plain do .ok (.int (← s.items name).length)
  | .snapshot => .plain (copy s.data)

/-! ## Mutations -/

/-- Hold a document under its key, in place of what is held there. -/
def create (s : LooseStore) (disk : Disk) (name : String) (v : Value)
    (fault : Option ReplaceStep := none) : Step LooseStore Value :=
  let prepared := do
    let (key, doc) ← Store.prepare name v
    .ok (doc, ← ((← s.contents name).assign key (.object doc)).mapError .shape)
  match prepared with
  | .error e => .fail s disk e
  | .ok (doc, contents) => (s.commit disk fault name contents).reply? fun _ => copy (.object doc)

/-- Add a document at the end of an append-only collection. -/
def append (s : LooseStore) (disk : Disk) (name : String) (v : Value)
    (fault : Option ReplaceStep := none) : Step LooseStore Value :=
  let prepared := do
    match ← Store.kind name with
    | .keyed field => .error (.unsupported "append" (.keyed field))
    | .appendOnly =>
      let doc ← (Document.normalize v).mapError .document
      .ok (doc, ← ((← s.contents name).push (.object doc)).mapError .shape)
  match prepared with
  | .error e => .fail s disk e
  | .ok (doc, contents) => (s.commit disk fault name contents).reply? fun _ => copy (.object doc)

/-- An item with a patch laid over it. Only a document takes one. -/
def merge (field : String) (item : Value) (patch : Document) : Except Failure Document :=
  match item with
  | .object doc => Store.merge field doc patch
  | item => .error (.shape item.mapError)

/-- Lay a patch over the document held under the key of an id. Without such a document nothing is
changed. -/
def update (s : LooseStore) (disk : Disk) (name : String) (id patch : Value)
    (fault : Option ReplaceStep := none) : Step LooseStore Value :=
  let prepared := do
    let field ← Store.keyField "update" name
    let patch ← (Document.normalize patch).mapError .document
    let key ← Store.key id
    match ← s.held? name key with
    | none => .ok none
    | some item =>
      let merged : Value := .object (← merge field item patch)
      .ok (some (merged, ← ((← s.contents name).assign key merged).mapError .shape))
  match prepared with
  | .error e => .fail s disk e
  | .ok none => .done s disk .null
  | .ok (some (merged, contents)) => (s.commit disk fault name contents).reply? fun _ => copy merged

/-- Hold nothing under the key of an id. Replies whether there was something. -/
def delete (s : LooseStore) (disk : Disk) (name : String) (id : Value)
    (fault : Option ReplaceStep := none) : Step LooseStore Value :=
  let prepared := do
    let _ ← Store.keyField "delete" name
    let key ← Store.key id
    let contents ← s.contents name
    if ← (contents.holdsKey key).mapError .shape then
      .ok (some (← (contents.discard key).mapError .shape))
    else .ok none
  match prepared with
  | .error e => .fail s disk e
  | .ok none => .done s disk (.bool false)
  | .ok (some contents) => (s.commit disk fault name contents).reply? fun _ => .ok (.bool true)

/-- Run a mutation. -/
def apply (s : LooseStore) (disk : Disk) (fault : Option ReplaceStep := none) :
    Mutation → Step LooseStore Value
  | .create name doc => s.create disk name doc fault
  | .append name doc => s.append disk name doc fault
  | .update name id patch => s.update disk name id patch fault
  | .delete name id => s.delete disk name id fault
  | .persist => (s.persist disk fault).reply? fun _ => .ok .null

end LooseStore

end SnapshotStore
