import SnapshotStore.Time.Reader
import SnapshotStore.Value.Order
import SnapshotStore.Value.Shape

/-!
# Queries

A query is an object that gives a condition for each of some fields: a value that the field must
agree with, or an object of operators, all of which must hold. A missing field agrees with
nothing. Null stands for the query that every document satisfies.

Keys that start with a dollar sign are operators. Unknown ones, and operators in place of a field,
are passed over, or refused when the query is strict. Conditions are tried in order, and the first
that fails, or that is refused, decides.

Queries may also be put to items that are no documents (`Query.satisfiedBy`). These satisfy queries
that ask for no field.
-/

namespace SnapshotStore

/-- An operator of a condition. -/
inductive Operator where
  | equal
  | notEqual
  | greater
  | greaterOrEqual
  | less
  | lessOrEqual
  | within
  | notWithin
  | present
deriving DecidableEq

/-- Why a query is refused. -/
inductive QueryError where
  | notAnObject
  | topLevelOperator (name : String)
  | unknownOperator (name : String)
  | notAList (operator : Operator)
  | shape (cause : ShapeError)
deriving DecidableEq

namespace Operator

/-- Every operator. -/
def all : List Operator :=
  [equal, notEqual, greater, greaterOrEqual, less, lessOrEqual, within, notWithin, present]

/-- An operator as queries write it. -/
def name : Operator → String
  | equal => "$eq"
  | notEqual => "$ne"
  | greater => "$gt"
  | greaterOrEqual => "$gte"
  | less => "$lt"
  | lessOrEqual => "$lte"
  | within => "$in"
  | notWithin => "$nin"
  | present => "$exists"

/-- The operator of a name. -/
def ofName? (name : String) : Option Operator := all.find? fun op => op.name == name

/-- A stored text as the kind of time that an argument is, if it reads as one; any other stored
value as it is. A date is read from the first ten characters. -/
def aligned? (stored argument : Value) : Option Value :=
  match stored, argument with
  | .str s, .datetime _ => (DateTime.ofText? s.toList).map .datetime
  | .str s, .date _ => (Date.ofText? (s.toList.take 10)).map .date
  | stored, _ => some stored

/-- How a stored value compares with an argument; null compares with nothing. -/
def relate? (stored : Option Value) (argument : Value) : Option Relation :=
  match stored, argument with
  | none, _ => none
  | some .null, _ => none
  | _, .null => none
  | some v, argument => do (← aligned? v argument).relate? argument

/-- The stored value is a member of the argument. -/
def member (op : Operator) (stored : Option Value) (argument : Value) :
    Except QueryError Bool :=
  match argument.members? with
  | none => .error (.notAList op)
  | some members =>
    match stored with
    | none => .ok false
    | some v => .ok (members.any v.agrees)

/-- Whether the operator holds of a stored value, or of a missing one. -/
def holds (op : Operator) (stored : Option Value) (argument : Value) :
    Except QueryError Bool :=
  let agrees := match stored with
    | some v => v.agrees argument
    | none => false
  let relation := relate? stored argument
  match op with
  | equal => .ok agrees
  | notEqual => .ok !agrees
  | greater => .ok (relation == some .greater)
  | greaterOrEqual => .ok (relation == some .greater || relation == some .equal)
  | less => .ok (relation == some .less)
  | lessOrEqual => .ok (relation == some .less || relation == some .equal)
  | within => op.member stored argument
  | notWithin => (op.member stored argument).map (!·)
  | present => .ok (stored.isSome == argument.truthy)

end Operator

namespace QueryError

/-- What is wrong, in words. -/
def message : QueryError → String
  | notAnObject => "Query must be a dict."
  | topLevelOperator name => "Unsupported top-level operator: " ++ name
  | unknownOperator name => "Unsupported operator: " ++ name
  | notAList op => op.name ++ " requires a list."
  | shape cause => cause.message

end QueryError

/-! ## Conditions -/

namespace Query

/-- A key that starts with a dollar sign. -/
def operatorKey? : Value → Option String
  | .str s => if Value.isDollar s then some s else none
  | _ => none

/-- What a field must fulfil. -/
inductive Condition where
  | value (v : Value)
  | operators (terms : List (String × Value))

/-- The operators of an object that has fields and only operators for keys. -/
def operators? (fields : Fields) : Option (List (String × Value)) :=
  if fields.isEmpty then none
  else fields.mapM fun (k, v) => (operatorKey? k).map fun name => (name, v)

/-- The condition that a value stands for. -/
def Condition.ofValue : Value → Condition
  | .object fields => match operators? fields with
    | some terms => .operators terms
    | none => .value (.object fields)
  | v => .value v

/-- Whether all operators hold. -/
def allHold (strict : Bool) (stored : Option Value) :
    List (String × Value) → Except QueryError Bool
  | [] => .ok true
  | (name, argument) :: terms =>
    match Operator.ofName? name with
    | none => if strict then .error (.unknownOperator name) else allHold strict stored terms
    | some op => do
      if ← op.holds stored argument then allHold strict stored terms else .ok false

/-- Whether a condition holds of a stored value, or of a missing one. -/
def Condition.holds (strict : Bool) (stored : Option Value) : Condition → Except QueryError Bool
  | .value v => .ok (match stored with
    | some w => w.agrees v
    | none => false)
  | .operators terms => allHold strict stored terms

/-- Whether a document fulfils the conditions of all fields. -/
def fieldsHold (strict : Bool) (doc : Document) : Fields → Except QueryError Bool
  | [] => .ok true
  | (key, condition) :: fields =>
    match operatorKey? key with
    | some name => if strict then .error (.topLevelOperator name) else fieldsHold strict doc fields
    | none => do
      if ← (Condition.ofValue condition).holds strict (Fields.get? doc key) then
        fieldsHold strict doc fields
      else .ok false

/-- Whether a document satisfies a query. -/
def satisfied (strict : Bool) (query : Value) (doc : Document) : Except QueryError Bool :=
  match query with
  | .null => .ok true
  | .object fields => fieldsHold strict doc fields
  | _ => .error .notAnObject

/-- The documents that satisfy a query, in order. -/
def select (strict : Bool) (query : Value) : List Document → Except QueryError (List Document)
  | [] => .ok []
  | doc :: docs => do
    if ← satisfied strict query doc then .ok (doc :: (← select strict query docs))
    else select strict query docs

/-- The first document that satisfies a query. -/
def first? (strict : Bool) (query : Value) : List Document → Except QueryError (Option Document)
  | [] => .ok none
  | doc :: docs => do
    if ← satisfied strict query doc then .ok (some doc) else first? strict query docs

/-! ## Items of any kind -/

/-- Whether conditions ask an item that is no document for nothing. -/
def asksNothing (strict : Bool) (item : Value) : Fields → Except QueryError Bool
  | [] => .ok true
  | (key, _) :: fields =>
    match operatorKey? key with
    | some name =>
      if strict then .error (.topLevelOperator name) else asksNothing strict item fields
    | none => .error (.shape (item.lacks "get"))

/-- Whether an item satisfies a query. Only a document has fields to ask for. -/
def satisfiedBy (strict : Bool) (query item : Value) : Except QueryError Bool :=
  match item, query with
  | .object doc, query => satisfied strict query doc
  | _, .null => .ok true
  | item, .object fields => asksNothing strict item fields
  | _, _ => .error .notAnObject

/-- The items that satisfy a query, in order. -/
def selectItems (strict : Bool) (query : Value) (items : List Value) :
    Except QueryError (List Value) :=
  match Value.documents? items with
  | some docs => (select strict query docs).map fun docs => docs.map .object
  | none => items.filterM (satisfiedBy strict query)

/-- The first item that satisfies a query. -/
def firstItem? (strict : Bool) (query : Value) (items : List Value) :
    Except QueryError (Option Value) :=
  items.findM? (satisfiedBy strict query)

end Query

end SnapshotStore
