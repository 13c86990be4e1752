import SnapshotStore.Number.Decimal
import SnapshotStore.Time.Text

/-!
# Values

What documents, queries and pipelines are made of. Besides the JSON kinds there are tuples, sets,
byte strings, times and dates, which callers may pass and which a stored document never holds.

An object keeps its fields in order, and a field's key may be any value.
-/

namespace SnapshotStore

/-- A value. -/
inductive Value where
  | null
  | bool (b : Bool)
  | int (n : Int)
  | float (x : Binary64)
  | str (s : String)
  | list (items : List Value)
  | tuple (items : List Value)
  | set (members : List Value)
  | bytes (data : List UInt8)
  | datetime (t : DateTime)
  | date (d : Date)
  | object (fields : List (Value × Value))

instance : Inhabited Value := ⟨.null⟩

/-- The fields of an object, in order. -/
abbrev Fields := List (Value × Value)

/-- A document is an object, given by its fields. -/
abbrev Document := Fields

namespace Value

/-- The fields, if the value is an object. -/
def fields? : Value → Option Fields
  | .object fields => some fields
  | _ => none

/-- The documents of a list of values, if all are objects. -/
def documents? (items : List Value) : Option (List Document) := items.mapM fields?

/-- The members of a list, tuple or set. -/
def members? : Value → Option (List Value)
  | .list items | .tuple items | .set items => some items
  | _ => none

/-- Stands for yes where a condition is wanted: not empty and not zero. -/
def truthy : Value → Bool
  | .null => false
  | .bool b => b
  | .int n => n != 0
  | .float (.finite x) => x.significand != 0
  | .float _ => true
  | .str s => !s.isEmpty
  | .list items | .tuple items | .set items => !items.isEmpty
  | .bytes data => !data.isEmpty
  | .datetime _ | .date _ => true
  | .object fields => !fields.isEmpty

/-- Starts with a dollar sign. -/
def isDollar (s : String) : Bool := s.toList.head? == some '$'

/-- The place of a number or boolean on the number line, booleans counting as 0 and 1. -/
def place? : Value → Option Place
  | .bool b => some (Place.ofInt (if b then 1 else 0))
  | .int n => some (Place.ofInt n)
  | .float x => Place.ofBinary64? x
  | _ => none

/-- The name of a value's kind, as error messages give it. -/
def kindName : Value → String
  | .null => "NoneType"
  | .bool _ => "bool"
  | .int _ => "int"
  | .float _ => "float"
  | .str _ => "str"
  | .list _ => "list"
  | .tuple _ => "tuple"
  | .set _ => "set"
  | .bytes _ => "bytes"
  | .datetime _ => "datetime"
  | .date _ => "date"
  | .object _ => "dict"

/-- The name of a value's kind with the module that times belong to. -/
def qualifiedKindName : Value → String
  | .datetime _ => "datetime.datetime"
  | .date _ => "datetime.date"
  | v => v.kindName

end Value

end SnapshotStore
