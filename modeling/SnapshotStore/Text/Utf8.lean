import SnapshotStore.Text.Quoted

/-!
# Faults in UTF-8

`Utf8Fault.first?` finds where bytes first stop being UTF-8, and in which of three ways: a byte that
starts no character, a byte that does not continue the character before it, or an end in the middle
of a character. The fault covers the bytes of the broken character that are in order.
-/

namespace SnapshotStore

/-- A way in which bytes are no UTF-8. -/
inductive Utf8FaultKind where
  | badStart
  | badContinuation
  | cutShort
deriving DecidableEq

/-- A fault: its kind, the place and value of its first byte, and how many bytes it covers. -/
structure Utf8Fault where
  kind : Utf8FaultKind
  place : Nat
  byte : UInt8
  size : Nat
deriving DecidableEq

namespace Utf8Fault

/-- The ranges of the bytes that must follow a first byte; nothing for one that starts no
character. -/
def following? (first : UInt8) : Option (List (UInt8 × UInt8)) :=
  let any : UInt8 × UInt8 := (0x80, 0xbf)
  if first < 0x80 then some []
  else if first < 0xc2 then none
  else if first < 0xe0 then some [any]
  else if first = 0xe0 then some [(0xa0, 0xbf), any]
  else if first = 0xed then some [(0x80, 0x9f), any]
  else if first < 0xf0 then some [any, any]
  else if first = 0xf0 then some [(0x90, 0xbf), any, any]
  else if first < 0xf4 then some [any, any, any]
  else if first = 0xf4 then some [(0x80, 0x8f), any, any]
  else none

/-- How a character's bytes go wrong after the first one, and how many of them are in order. -/
def continue? : List (UInt8 × UInt8) → List UInt8 → Nat → Option (Utf8FaultKind × Nat)
  | [], _, _ => none
  | _ :: _, [], count => some (.cutShort, count)
  | (low, high) :: ranges, b :: bytes, count =>
    if low ≤ b ∧ b ≤ high then continue? ranges bytes (count + 1)
    else some (.badContinuation, count)

/-- The first fault of bytes, counting places from a given one. Bytes that continue a character are
passed over with it. -/
def firstFrom? (place skip : Nat) : List UInt8 → Option Utf8Fault
  | [] => none
  | b :: bytes =>
    match skip with
    | skip + 1 => firstFrom? (place + 1) skip bytes
    | 0 =>
      match following? b with
      | none => some ⟨.badStart, place, b, 1⟩
      | some ranges =>
        match continue? ranges bytes 1 with
        | some (kind, size) => some ⟨kind, place, b, size⟩
        | none => firstFrom? (place + 1) ranges.length bytes

/-- The first fault of bytes. -/
def first? (bytes : ByteArray) : Option Utf8Fault := firstFrom? 0 0 bytes.data.toList

/-- What is wrong, in words. -/
def message (fault : Utf8Fault) : String :=
  let place :=
    if fault.size = 1 then
      "byte 0x" ++ String.ofList (hexPadded 2 fault.byte.toNat) ++ " in position " ++
        toString fault.place
    else
      "bytes in position " ++ toString fault.place ++ "-" ++ toString (fault.place + fault.size - 1)
  let reason := match fault.kind with
    | .badStart => "invalid start byte"
    | .badContinuation => "invalid continuation byte"
    | .cutShort => "unexpected end of data"
  "'utf-8' codec can't decode " ++ place ++ ": " ++ reason

end Utf8Fault

end SnapshotStore
