import SnapshotStore.Settings
import SnapshotStore.Store.Event

/-!
# Stores

A store holds the data of all collections and the path of the snapshot in which it is kept. Every
mutation changes the data first and then writes the whole snapshot, so when the write fails the
data is changed all the same, and the next successful write brings the disk up to date.

An operation is a function of the store and the disk. Each write may be made to fail at a step of
replacing the file (`ReplaceStep`). A `Step` is what comes of an operation: the store and disk
afterwards, what was reported on the way, and the reply or the failure.

`Mutation.apply` runs one mutation and `Mutation.applyAll` several, one after the other.
-/

namespace SnapshotStore

/-- The data of all collections, kept in a snapshot. -/
structure Store where
  path : FilePath
  strict : Bool
  indent : Option Int
  data : Collections

/-- What comes of an operation on a store. -/
structure Step (σ α : Type) where
  store : σ
  disk : Disk
  events : List Event
  reply : Except Failure α

namespace Step

variable {σ τ α β : Type}

/-- Make another reply of a successful one, or fail with it. -/
def reply? (s : Step σ α) (f : α → Except Failure β) : Step σ β :=
  { s with reply := s.reply.bind f }

/-- A failure that changes nothing. -/
def fail (store : σ) (disk : Disk) (e : Failure) : Step σ α := ⟨store, disk, [], .error e⟩

/-- A reply that changes nothing. -/
def done (store : σ) (disk : Disk) (reply : α) : Step σ α := ⟨store, disk, [], .ok reply⟩

/-- Take the store for one of another type. -/
def within (s : Step σ α) (f : σ → τ) : Step τ α := { s with store := f s.store }

end Step

namespace Store

/-! ## Writing through -/

/-- Write the data of a store to its snapshot. -/
def writeThrough {σ : Type} (s : σ) (path : FilePath) (indent : Option Int) (data : Value)
    (disk : Disk) (fault : Option ReplaceStep) : Step σ Unit :=
  match Snapshot.dump indent data with
  | .error e => .fail s disk (.encode e)
  | .ok text =>
    match disk.replace path text.toUTF8 fault with
    | (.ok (), disk) => ⟨s, disk, [.persisted path text.length], .ok ()⟩
    | (.error (.kept .nulInPath), disk) => ⟨s, disk, [], .error (.disk .nulInPath)⟩
    | (.error e, disk) => ⟨s, disk, [.writeFailed path e], .error (.persistence path e)⟩

/-- Write the data to the snapshot. -/
def persist (s : Store) (disk : Disk) (fault : Option ReplaceStep := none) : Step Store Unit :=
  writeThrough s s.path s.indent s.data.toValue disk fault

/-- Exchange the contents of a collection and write the data. -/
def commit (s : Store) (disk : Disk) (fault : Option ReplaceStep) (name : String)
    (contents : Contents) : Step Store Unit :=
  { s with data := s.data.set name contents }.persist disk fault

/-! ## Collections -/

/-- The kind of a collection. -/
def kind (name : String) : Except Failure Kind :=
  match kindOf? name with
  | some kind => .ok kind
  | none => .error (.unknownCollection name)

/-- What a collection holds. -/
def contents (s : Store) (name : String) : Except Failure Contents := do
  let _ ← kind name
  match s.data.lookup name with
  | some contents => .ok contents
  | none => .error (.notHeld name)

/-- The key field of a collection that must be keyed. -/
def keyField (operation name : String) : Except Failure String := do
  match ← kind name with
  | .keyed field => .ok field
  | .appendOnly => .error (.unsupported operation .appendOnly)

/-- The entries of a keyed collection. -/
def entries (s : Store) (name : String) : Except Failure (List (String × Document)) := do
  match ← s.contents name with
  | .keyed entries => .ok entries
  | .appendOnly _ => .error (.notHeld name)

/-- The documents of an append-only collection. -/
def log (s : Store) (name : String) : Except Failure (List Document) := do
  match ← s.contents name with
  | .appendOnly docs => .ok docs
  | .keyed _ => .error (.notHeld name)

/-- The documents of a collection, in order. -/
def documents (s : Store) (name : String) : Except Failure (List Document) :=
  (s.contents name).map Contents.documents

/-- A copy of a document, to hand out. -/
def copy (doc : Document) : Except Failure Document := (Document.copy doc).mapError .encode

/-- Copies of documents, to hand out. -/
def copyAll (docs : List Document) : Except Failure (List Document) :=
  (Document.copyAll docs).mapError .encode

/-! ## Reading -/

/-- The names of all collections. -/
def names : List String := schema.map (·.1)

/-- A collection as it is shown. -/
def describe (name : String) : Except Failure String := do
  let kind ← kind name
  .ok (kind.name ++ "(" ++ String.ofList (quoted name.toList) ++ ")")

/-- How many documents a collection holds. -/
def size (s : Store) (name : String) : Except Failure Nat := do
  .ok (← s.documents name).length

/-- The documents of a collection that satisfy a query. -/
def query (s : Store) (name : String) (q : Value) : Except Failure (List Document) := do
  let docs ← s.documents name
  copyAll (← (Query.select s.strict q docs).mapError .query)

/-- The first document of a collection that satisfies a query. -/
def findOne (s : Store) (name : String) (q : Value) : Except Failure (Option Document) := do
  let docs ← s.documents name
  match ← (Query.first? s.strict q docs).mapError .query with
  | some doc => .ok (some (← copy doc))
  | none => .ok none

/-- How many documents of a collection satisfy a query. -/
def count (s : Store) (name : String) (q : Value) : Except Failure Nat := do
  let docs ← s.documents name
  .ok (← (Query.select s.strict q docs).mapError .query).length

/-- The rows that a pipeline gives for a collection, and what was reported on the way. -/
def aggregate (s : Store) (name : String) (pipeline : Value) :
    List Event × Except Failure (List Document) :=
  match s.documents name with
  | .error e => ([], .error e)
  | .ok docs =>
    let report := Pipeline.run s.strict pipeline docs
    (report.ignored.map .ignoredStage, do copyAll (← report.outcome.mapError .pipeline))

/-- The key of an id. -/
def key (id : Value) : Except Failure String := (documentKey id).mapError .encode

/-- The document held under the key of an id. -/
def find (s : Store) (name : String) (id : Value) : Except Failure (Option Document) := do
  let _ ← keyField "find_by_id" name
  let entries ← s.entries name
  match entries.lookup (← key id) with
  | some doc => .ok (some (← copy doc))
  | none => .ok none

/-- A copy of all data. -/
def snapshot (s : Store) : Except Failure Value :=
  (s.data.toValue.clean Document.copyStyle).mapError .encode

/-! ## Mutations -/

/-- What `create` stores: the document and its key. -/
def prepare (name : String) (v : Value) : Except Failure (String × Document) := do
  let field ← keyField "create" name
  let doc ← (Document.normalize v).mapError .document
  match (Fields.getText? doc field).getD .null with
  | .null => .error (.document (.missingKey field name))
  | id => do .ok (← key id, doc)

/-- Hold a document under its key, in place of any that is held there. -/
def create (s : Store) (disk : Disk) (name : String) (v : Value)
    (fault : Option ReplaceStep := none) : Step Store Document :=
  let prepared := do
    let (key, doc) ← prepare name v
    .ok (key, doc, ← s.entries name)
  match prepared with
  | .error e => .fail s disk e
  | .ok (key, doc, entries) =>
    (s.commit disk fault name (.keyed (Entries.insert key doc entries))).reply? fun _ => copy doc

/-- Add a document at the end of an append-only collection. -/
def append (s : Store) (disk : Disk) (name : String) (v : Value)
    (fault : Option ReplaceStep := none) : Step Store Document :=
  let prepared := do
    match ← kind name with
    | .keyed field => .error (.unsupported "append" (.keyed field))
    | .appendOnly =>
      let doc ← (Document.normalize v).mapError .document
      .ok (doc, ← s.log name)
  match prepared with
  | .error e => .fail s disk e
  | .ok (doc, docs) =>
    (s.commit disk fault name (.appendOnly (docs ++ [doc]))).reply? fun _ => copy doc

/-- A document with a patch laid over it. The key field keeps its value. -/
def merge (field : String) (current patch : Document) : Except Failure Document :=
  match Fields.getText? current field with
  | some id => .ok (Fields.insert (Fields.overlay current patch) (.str field) id)
  | none => .error (.notHeld field)

/-- Lay a patch over the document held under the key of an id. Without such a document nothing is
changed. -/
def update (s : Store) (disk : Disk) (name : String) (id patch : Value)
    (fault : Option ReplaceStep := none) : Step Store (Option Document) :=
  let prepared := do
    let field ← keyField "update" name
    let patch ← (Document.normalize patch).mapError .document
    let key ← key id
    let entries ← s.entries name
    match entries.lookup key with
    | none => .ok none
    | some current => .ok (some (key, ← merge field current patch, entries))
  match prepared with
  | .error e => .fail s disk e
  | .ok none => .done s disk none
  | .ok (some (key, merged, entries)) =>
    (s.commit disk fault name (.keyed (Entries.insert key merged entries))).reply? fun _ =>
      (copy merged).map some

/-- Stop holding a document under the key of an id. Replies whether there was one. -/
def delete (s : Store) (disk : Disk) (name : String) (id : Value)
    (fault : Option ReplaceStep := none) : Step Store Bool :=
  let prepared := do
    let _ ← keyField "delete" name
    let key ← key id
    .ok (key, ← s.entries name)
  match prepared with
  | .error e => .fail s disk e
  | .ok (key, entries) =>
    if (entries.lookup key).isSome then
      (s.commit disk fault name (.keyed (Entries.erase key entries))).reply? fun _ => .ok true
    else .done s disk false

end Store

/-- A change of a store. -/
inductive Mutation where
  | create (collection : String) (doc : Value)
  | append (collection : String) (doc : Value)
  | update (collection : String) (id patch : Value)
  | delete (collection : String) (id : Value)
  | persist

/-- The reply to a mutation. -/
inductive Reply where
  | nothing
  | document (doc : Document)
  | removed (wasHeld : Bool)

namespace Reply

/-- The reply as a value. -/
def toValue : Reply → Value
  | nothing => .null
  | document doc => .object doc
  | removed wasHeld => .bool wasHeld

/-- A document, or nothing. -/
def ofDocument? : Option Document → Reply
  | some doc => .document doc
  | none => .nothing

end Reply

namespace Mutation

/-- Run a mutation. -/
def apply (s : Store) (disk : Disk) (fault : Option ReplaceStep := none) :
    Mutation → Step Store Reply
  | create name doc => (s.create disk name doc fault).reply? fun doc => .ok (.document doc)
  | append name doc => (s.append disk name doc fault).reply? fun doc => .ok (.document doc)
  | update name id patch => (s.update disk name id patch fault).reply? fun doc =>
    .ok (.ofDocument? doc)
  | delete name id => (s.delete disk name id fault).reply? fun wasHeld => .ok (.removed wasHeld)
  | persist => (s.persist disk fault).reply? fun _ => .ok .nothing

/-- Run mutations one after the other, each with the step at which its write fails, if any. -/
def applyAll (s : Store) (disk : Disk) :
    List (Mutation × Option ReplaceStep) → Store × Disk × List Event × List (Except Failure Reply)
  | [] => (s, disk, [], [])
  | (mutation, fault) :: rest =>
    let step := mutation.apply s disk fault
    let (s, disk, events, replies) := applyAll step.store step.disk rest
    (s, disk, step.events ++ events, step.reply :: replies)

end Mutation

/-! ## Opening -/

/-- What comes of opening a store. -/
structure Opened where
  disk : Disk
  events : List Event
  store : Except Failure Store

namespace Store

/-- Faults of the system while a store is opened: whether an unreadable snapshot cannot be moved
aside, and the step at which the first write fails. -/
structure OpenFaults where
  moveAside : Bool := false
  write : Option ReplaceStep := none

/-- Where a snapshot is moved aside to: its name with a mark and a time stamp. -/
def asidePath (path : FilePath) (stamp : String) : FilePath :=
  path.withName (path.name ++ ".corrupt-" ++ stamp)

/-- Move an unreadable snapshot aside. When the system does not let it, that is only reported; a
path without a name, or with a NUL, is a failure. -/
def moveAside (disk : Disk) (path : FilePath) (stamp : String) (fails : Bool) :
    Except Failure (Disk × List Event) :=
  if path.names.isEmpty then .error (.noName path)
  else
    let aside := asidePath path stamp
    match Disk.attempt fails (disk.rename path aside) with
    | .ok disk => .ok (disk, [.keptAside aside])
    | .error .nulInPath => .error (.disk .nulInPath)
    | .error e => .ok (disk, [.notMovedAside path e])

/-- Start with no documents and write that. -/
def bootstrap (disk : Disk) (path : FilePath) (strict : Bool) (indent : Option Int)
    (fault : Option ReplaceStep) : Opened :=
  let step := persist ⟨path, strict, indent, .empty⟩ disk fault
  ⟨step.disk, .bootstrapping path :: step.events, step.reply.map fun _ => step.store⟩

/-- Open the store of a snapshot. A missing snapshot is written with no documents; one that is not
accepted is moved aside first. -/
def openAt (disk : Disk) (path : FilePath) (strict : Bool) (indent : Option Int) (stamp : String)
    (faults : OpenFaults := {}) : Opened :=
  let checked := Snapshot.load disk path
  let notices := checked.notices.map Event.notice
  match checked.outcome with
  | .ok (some data) => ⟨disk, notices ++ [.loaded path], .ok ⟨path, strict, indent, data⟩⟩
  | .ok none =>
    let opened := bootstrap disk path strict indent faults.write
    { opened with events := notices ++ opened.events }
  | .error e =>
    let reported := notices ++ [.resetting e]
    match moveAside disk path stamp faults.moveAside with
    | .error failure => ⟨disk, reported, .error failure⟩
    | .ok (disk, moved) =>
      let opened := bootstrap disk path strict indent faults.write
      { opened with events := reported ++ moved ++ opened.events }

/-- Open the store that the settings name, or the one at a given path; strictness may be given as
well. -/
def openWith (settings : Settings) (disk : Disk) (path : Option FilePath) (strict : Option Bool)
    (stamp : String) (faults : OpenFaults := {}) : Opened :=
  openAt disk (path.getD settings.snapshotPath) (strict.getD settings.strictQueries)
    settings.snapshotIndent stamp faults

/-- A store with given data, or with no documents; nothing is read or written. -/
def new (path : FilePath) (data : Option Collections) (strict : Bool) (indent : Option Int) :
    Store :=
  ⟨path, strict, indent, data.getD .empty⟩

end Store

end SnapshotStore
