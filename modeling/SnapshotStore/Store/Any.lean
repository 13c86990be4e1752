import SnapshotStore.Store.Loose

/-!
# Stores with data of any shape

Data that is handed over makes a `Store` when it has the shape of one, and a `LooseStore` otherwise.
`AnyStore` is either of them, with the operations that they share.
-/

namespace SnapshotStore

/-- A store, whatever the shape of its data. -/
inductive AnyStore where
  | shaped (s : Store)
  | loose (s : LooseStore)

namespace AnyStore

/-- A store with given data; null stands for no documents. Nothing is read or written. -/
def new (path : FilePath) (data : Value) (strict : Bool) (indent : Option Int) : AnyStore :=
  match data, Collections.ofValue? data with
  | .null, _ => .shaped (.new path none strict indent)
  | _, some data => .shaped (.new path (some data) strict indent)
  | data, none => .loose ⟨path, strict, indent, data⟩

/-- Ask a store. -/
def answer (inquiry : Inquiry) : AnyStore → Answer
  | shaped s => inquiry.answer s
  | loose s => s.answer inquiry

/-- Run a mutation. -/
def apply (disk : Disk) (mutation : Mutation) (fault : Option ReplaceStep := none) :
    AnyStore → Step AnyStore Value
  | shaped s => ((mutation.apply s disk fault).reply? fun r => .ok r.toValue).within .shaped
  | loose s => (s.apply disk fault mutation).within .loose

end AnyStore

end SnapshotStore
