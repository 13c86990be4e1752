import SnapshotStore.Value

/-!
# Equality of values

Three relations, from loose to strict about numbers.

* `Value.alike` is what containers go by: numbers of any kind are alike when they have the same
  place on the number line, booleans counting as 0 and 1, and an undefined number is alike only
  to itself. Keys of an object are looked up by it.
* `Value.equals` is the same except that an undefined number, taken by itself, equals nothing.
* `Value.agrees` compares a stored value with an asked one. Booleans agree only with booleans, lists
  and objects agree member by member, and an asked time stands for its text.
-/

namespace SnapshotStore

namespace Value

/-- The numbers that have no place. -/
def undefinedTag? : Value → Option Nat
  | .float (.nan tag) => some tag
  | _ => none

/-- Numbers are alike when they have the same place or are the same undefined number. -/
def alikeNumbers (a b : Value) : Bool :=
  match a.place?, b.place? with
  | some p, some q => p == q
  | none, none => a.undefinedTag?.isSome && a.undefinedTag? == b.undefinedTag?
  | _, _ => false

mutual

/-- Alike as members of a container. -/
def alike : Value → Value → Bool
  | .null, .null => true
  | .str s, .str t => s == t
  | .list xs, .list ys => alikeAll xs ys
  | .tuple xs, .tuple ys => alikeAll xs ys
  | .set xs, .set ys => xs.length == ys.length && alikeWithin xs ys
  | .bytes xs, .bytes ys => xs == ys
  | .datetime s, .datetime t => s.compare? t == some .eq
  | .date c, .date d => c == d
  | .object xs, .object ys => xs.length == ys.length && alikeFields xs ys
  | .null, _ | .str _, _ | .list _, _ | .tuple _, _ | .set _, _ | .bytes _, _
  | .datetime _, _ | .date _, _ | .object _, _ => false
  | .bool a, b => alikeNumbers (.bool a) b
  | .int a, b => alikeNumbers (.int a) b
  | .float a, b => alikeNumbers (.float a) b

/-- Alike place by place. -/
def alikeAll : List Value → List Value → Bool
  | [], [] => true
  | x :: xs, y :: ys => alike x y && alikeAll xs ys
  | _, _ => false

/-- Every member of the first is alike to one of the second. -/
def alikeWithin : List Value → List Value → Bool
  | [], _ => true
  | x :: xs, ys => ys.any (alike x) && alikeWithin xs ys

/-- Every field of the first has an alike field in the second. -/
def alikeFields : Fields → Fields → Bool
  | [], _ => true
  | (k, v) :: fields, others =>
    (match others.find? fun other => alike k other.1 with
      | some (_, w) => alike v w
      | none => false) && alikeFields fields others

end

/-- Equal as values taken by themselves. -/
def equals (a b : Value) : Bool :=
  !a.undefinedTag?.isSome && alike a b

/-- The value that an asked time or date stands for: its text. -/
def asAsked : Value → Value
  | .datetime t => .str (String.ofList t.text)
  | .date d => .str (String.ofList d.text)
  | v => v

end Value

/-! ## Fields -/

namespace Fields

/-- The value of the first field with an alike key. -/
def get? (fields : Fields) (key : Value) : Option Value :=
  (fields.find? fun field => key.alike field.1).map (·.2)

/-- The value of a field with a text key. -/
def getText? (fields : Fields) (name : String) : Option Value := get? fields (.str name)

/-- Put a value in place of a field's or, if there is no such field, at the end. -/
def insert : Fields → Value → Value → Fields
  | [], key, value => [(key, value)]
  | (k, v) :: fields, key, value =>
    if key.alike k then (k, value) :: fields else (k, v) :: insert fields key value

/-- Lay fields over others, one after the other. -/
def overlay (fields others : Fields) : Fields :=
  others.foldl (fun acc field => insert acc field.1 field.2) fields

/-- Keep one field for each key: the first place and the last value. -/
def ofPairs (pairs : List (Value × Value)) : Fields := overlay [] pairs

/-- Both have the same keys. -/
def sameKeys (fields others : Fields) : Bool :=
  fields.length == others.length && fields.all fun field => (get? others field.1).isSome

end Fields

namespace Value

mutual

/-- A stored value agrees with an asked one. -/
def agrees (stored asked : Value) : Bool :=
  match stored, asked.asAsked with
  | .bool a, .bool b => a == b
  | .bool _, _ => false
  | _, .bool _ => false
  | .object fields, .object others => Fields.sameKeys fields others && agreesFields fields others
  | .list xs, .list ys => agreesAll xs ys
  | a, b => equals a b

/-- Agree place by place. -/
def agreesAll : List Value → List Value → Bool
  | [], [] => true
  | x :: xs, y :: ys => agrees x y && agreesAll xs ys
  | _, _ => false

/-- Every field agrees with the other object's field of the same key. -/
def agreesFields : Fields → Fields → Bool
  | [], _ => true
  | (k, v) :: fields, others =>
    (match Fields.get? others k with
      | some w => agrees v w
      | none => false) && agreesFields fields others

end

end Value

end SnapshotStore
