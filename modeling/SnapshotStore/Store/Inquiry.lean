import SnapshotStore.Store

/-!
# Inquiries

An inquiry asks a store for something and changes nothing. Its answer is a value, with what was
reported on the way.
-/

namespace SnapshotStore

/-- A question to a store. -/
inductive Inquiry where
  | find (collection : String) (id : Value)
  | query (collection : String) (q : Value)
  | findOne (collection : String) (q : Value)
  | count (collection : String) (q : Value)
  | aggregate (collection : String) (pipeline : Value)
  | size (collection : String)
  | snapshot

/-- The answer to an inquiry, with what was reported on the way. -/
structure Answer where
  events : List Event
  reply : Except Failure Value

namespace Answer

/-- An answer without reports. -/
def plain (reply : Except Failure Value) : Answer := ⟨[], reply⟩

/-- Documents as one value. -/
def documents (docs : List Document) : Value := .list (docs.map .object)

/-- A document, or null. -/
def document? : Option Document → Value
  | some doc => .object doc
  | none => .null

end Answer

namespace Inquiry

/-- Ask a store. -/
def answer (s : Store) : Inquiry → Answer
  | find name id => .plain ((s.find name id).map Answer.document?)
  | query name q => .plain ((s.query name q).map Answer.documents)
  | findOne name q => .plain ((s.findOne name q).map Answer.document?)
  | count name q => .plain ((s.count name q).map fun n => .int n)
  | aggregate name pipeline =>
    let (events, rows) := s.aggregate name pipeline
    ⟨events, rows.map Answer.documents⟩
  | size name => .plain ((s.size name).map fun n => .int n)
  | snapshot => .plain s.snapshot

end Inquiry

end SnapshotStore
