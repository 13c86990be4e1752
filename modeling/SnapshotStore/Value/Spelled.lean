import SnapshotStore.Json.Writer
import SnapshotStore.Value.Literal

/-!
# Values that have a text

An integer of too many digits is never put into text, so neither is a value with one inside. Such a
value has no key and cannot be named in a message, whatever `Value.display` gives for it.
-/

namespace SnapshotStore

namespace Value

mutual

/-- Whether no integer in a value is too long to be put into text. -/
def isSpelled : Value → Bool
  | .int n => n.natAbs < Json.integerBound
  | .list items | .tuple items | .set items => areSpelled items
  | .object fields => areSpelledFields fields
  | _ => true

/-- The same for all of several values. -/
def areSpelled : List Value → Bool
  | [] => true
  | v :: vs => isSpelled v && areSpelled vs

/-- The same for the keys and values of fields. -/
def areSpelledFields : Fields → Bool
  | [] => true
  | (k, v) :: fields => isSpelled k && isSpelled v && areSpelledFields fields

end

/-- The text of a value by itself, if it has one. -/
def spelled (v : Value) : Except EncodeError String :=
  if v.isSpelled then .ok v.display else .error .integerTooLong

end Value

end SnapshotStore
