import SnapshotStore.Value.Equality

/-!
# Values used as maps and lists

Data that somebody hands over need not have the shape that it is used in. Here a value of any kind
is used as a map from texts (`Value.get?`, `Value.held`, `Value.assign`, `Value.discard`) or as a
list (`Value.elements`, `Value.push`); a `ShapeError` says why it does not serve. Objects serve as
maps and lists as lists; texts, tuples and sets have elements too, and so do objects: their keys.
-/

namespace SnapshotStore

/-- Why a value does not serve as what it is used for. -/
inductive ShapeError where
  | noOperation (kind operation : String)
  | notIndexed (kind : String)
  | indexedByNumber (kind : String)
  | notAssigned (kind : String)
  | notDeleted (kind : String)
  | noElements (kind : String)
  | noMembers (kind : String)
  | notAPair (place : Nat)
  | pairOfLength (place length : Nat)
  | notAKey (kind : String)
deriving DecidableEq

namespace ShapeError

/-- What is wrong, in words. -/
def message : ShapeError → String
  | noOperation kind operation => "'" ++ kind ++ "' object has no attribute '" ++ operation ++ "'"
  | notIndexed kind => "'" ++ kind ++ "' object is not subscriptable"
  | indexedByNumber "str" => "string indices must be integers, not 'str'"
  | indexedByNumber "bytes" => "byte indices must be integers or slices, not str"
  | indexedByNumber kind => kind ++ " indices must be integers or slices, not str"
  | notAssigned kind => "'" ++ kind ++ "' object does not support item assignment"
  | notDeleted kind => "'" ++ kind ++ "' object does not support item deletion"
  | noElements kind => "'" ++ kind ++ "' object is not iterable"
  | noMembers "bytes" => "a bytes-like object is required, not 'str'"
  | noMembers kind => "argument of type '" ++ kind ++ "' is not iterable"
  | notAPair place =>
    "cannot convert dictionary update sequence element #" ++ toString place ++ " to a sequence"
  | pairOfLength place length =>
    "dictionary update sequence element #" ++ toString place ++ " has length " ++ toString length ++
      "; 2 is required"
  | notAKey kind => "unhashable type: '" ++ kind ++ "'"

end ShapeError

namespace Value

/-- That a value lacks an operation. -/
def lacks (v : Value) (operation : String) : ShapeError :=
  .noOperation v.qualifiedKindName operation

/-- That a value has no entry under a text. -/
def indexError : Value → ShapeError
  | .list _ => .indexedByNumber "list"
  | .tuple _ => .indexedByNumber "tuple"
  | .str _ => .indexedByNumber "str"
  | .bytes _ => .indexedByNumber "bytes"
  | v => .notIndexed v.qualifiedKindName

/-! ## As a list -/

/-- The elements of a value: members, characters, bytes, or the keys of an object. -/
def elements : Value → Except ShapeError (List Value)
  | .list items | .tuple items | .set items => .ok items
  | .object fields => .ok (fields.map (·.1))
  | .str s => .ok (s.toList.map fun c => .str (String.ofList [c]))
  | .bytes data => .ok (data.map fun b => .int b.toNat)
  | v => .error (.noElements v.qualifiedKindName)

/-- Add an element at the end of a list. -/
def push (v element : Value) : Except ShapeError Value :=
  match v with
  | .list items => .ok (.list (items ++ [element]))
  | v => .error (v.lacks "append")

/-! ## As a map -/

/-- What a map holds under a key. -/
def get? (v : Value) (key : String) : Except ShapeError (Option Value) :=
  match v with
  | .object fields => .ok (Fields.getText? fields key)
  | v => .error (v.lacks "get")

/-- All that a map holds, in order. -/
def held : Value → Except ShapeError (List Value)
  | .object fields => .ok (fields.map (·.2))
  | v => .error (v.lacks "values")

/-- Hold an entry under a key: in place of the one there, or at the end. -/
def assign (v : Value) (key : String) (entry : Value) : Except ShapeError Value :=
  match v with
  | .object fields => .ok (.object (Fields.insert fields (.str key) entry))
  | .list items => .error (indexError (.list items))
  | v => .error (.notAssigned v.qualifiedKindName)

/-- A text occurs within another. -/
def occursIn (part : List Char) : List Char → Bool
  | [] => part.isEmpty
  | c :: cs => part.isPrefixOf (c :: cs) || occursIn part cs

/-- Whether a key is in a value: as a key of an object, a member of a list, a part of a text. -/
def holdsKey (v : Value) (key : String) : Except ShapeError Bool :=
  match v with
  | .object fields => .ok (Fields.getText? fields key).isSome
  | .list items | .tuple items | .set items => .ok (items.any (alike (.str key)))
  | .str s => .ok (occursIn key.toList s.toList)
  | v => .error (.noMembers v.qualifiedKindName)

/-- Hold nothing under a key. -/
def discard (v : Value) (key : String) : Except ShapeError Value :=
  match v with
  | .object fields => .ok (.object (fields.filter fun field => !alike (.str key) field.1))
  | .list items => .error (indexError (.list items))
  | v => .error (.notDeleted v.qualifiedKindName)

/-! ## As the entries of a map -/

mutual

/-- That a value is no key of a map: lists, sets and objects are none, nor are tuples that hold
one. -/
def keyError? : Value → Option ShapeError
  | .list _ => some (.notAKey "list")
  | .set _ => some (.notAKey "set")
  | .object _ => some (.notAKey "dict")
  | .tuple items => firstKeyError? items
  | _ => none

/-- That one of several values, the first, is no key of a map. -/
def firstKeyError? : List Value → Option ShapeError
  | [] => none
  | v :: vs => (keyError? v).orElse fun _ => firstKeyError? vs

end

/-- The first of several values, counted from a place on, that is no pair of a key and an entry. -/
def pairError? (place : Nat) : List Value → Option ShapeError
  | [] => none
  | v :: vs =>
    match v.elements with
    | .error _ => some (.notAPair place)
    | .ok [key, _] => (keyError? key).orElse fun _ => pairError? (place + 1) vs
    | .ok parts => some (.pairOfLength place parts.length)

/-- Why a value that is no object does not become a map with an entry of its own: it gives no pairs,
or it has no entry under a text. -/
def mapError (v : Value) : ShapeError :=
  match v.elements with
  | .error e => e
  | .ok items => (pairError? 0 items).getD v.indexError

end Value

end SnapshotStore
