import SnapshotStore.Proofs.Document
import SnapshotStore.Proofs.Json.Cleaned

/-!
# What is stored and what is refused

A value is unfit if somewhere inside it there is a set or a byte string, an integer that is too
long, a number that is not finite, or a key that is no text, number, boolean or null
(`Value.Unfit`).

**Theorem (`normalize_iff_fit`).** Exactly the objects that are not unfit are stored. What is stored
is what the text of the object reads as: a JSON object with keys that are texts, without long
integers and without numbers that are not finite. Such an object is stored as it is, in the order
of its fields and with the kinds of its numbers, so storing again changes nothing.

Cleaning fails on a list or an object exactly when it fails on a member, and on a field when it
fails on the key or the value, so it fails exactly on unfit values (`exists_clean_error_iff`).
-/

namespace SnapshotStore

/-! ## Steps that fail -/

/-- One of two steps fails, where it does not depend on what the first gives if the second does. -/
theorem exists_bind_error_iff {ε α β : Type} {x : Except ε α} {f : α → Except ε β} {p : Prop}
    (hf : ∀ a, (∃ e, f a = .error e) ↔ p) :
    (∃ e, x >>= f = .error e) ↔ (∃ e, x = .error e) ∨ p := by
  cases x with
  | error e => simp [bind, Except.bind]
  | ok a => simp [ok_bind, hf a]

theorem exists_bind_ok_error_iff {ε α β : Type} {x : Except ε α} {f : α → β} :
    (∃ e, (x >>= fun a => .ok (f a)) = .error e) ↔ ∃ e, x = .error e := by
  rw [exists_bind_error_iff (p := False) (by simp), or_false]

theorem exists_mapError_error_iff {ε ε' α : Type} {x : Except ε α} {f : ε → ε'} :
    (∃ e, x.mapError f = .error e) ↔ ∃ e, x = .error e := by
  cases x <;> simp [Except.mapError]

namespace Value

/-! ## Unfit values -/

/-- A number that has no text: an integer of too many digits, or one that is not finite. -/
inductive UnfitNumber : Value → Prop where
  | int {n : Int} (h : maxIntegerDigits < (digitsOf n.natAbs).length) : UnfitNumber (.int n)
  | float {x : Binary64} (h : x.isFinite = false) : UnfitNumber (.float x)

/-- A text, a number, a boolean or null. -/
def IsKeyKind : Value → Prop
  | .str _ | .int _ | .float _ | .bool _ | .null => True
  | _ => False

/-- A key that has no text. -/
def UnfitKey (key : Value) : Prop := UnfitNumber key ∨ ¬ key.IsKeyKind

/-- A value with something inside, at any depth, that cannot be stored. -/
inductive Unfit : Value → Prop where
  | number {v : Value} (h : UnfitNumber v) : Unfit v
  | set (members : List Value) : Unfit (.set members)
  | bytes (data : List UInt8) : Unfit (.bytes data)
  | list {items : List Value} {v : Value} (hv : v ∈ items) (h : Unfit v) : Unfit (.list items)
  | tuple {items : List Value} {v : Value} (hv : v ∈ items) (h : Unfit v) : Unfit (.tuple items)
  | key {fields : Fields} {field : Value × Value} (hfield : field ∈ fields)
    (h : UnfitKey field.1) : Unfit (.object fields)
  | value {fields : Fields} {field : Value × Value} (hfield : field ∈ fields)
    (h : Unfit field.2) : Unfit (.object fields)

theorem unfitNumber_int_iff {n : Int} : UnfitNumber (.int n) ↔
    maxIntegerDigits < (digitsOf n.natAbs).length :=
  ⟨fun | .int h => h, .int⟩

theorem unfitNumber_float_iff {x : Binary64} : UnfitNumber (.float x) ↔ x.isFinite = false :=
  ⟨fun | .float h => h, .float⟩

theorem unfit_list_iff {items : List Value} : Unfit (.list items) ↔ ∃ v ∈ items, Unfit v := by
  constructor
  · rintro (⟨⟨⟩⟩ | _ | _ | ⟨hv, h⟩)
    exact ⟨_, hv, h⟩
  · rintro ⟨v, hv, h⟩
    exact .list hv h

theorem unfit_tuple_iff {items : List Value} : Unfit (.tuple items) ↔ ∃ v ∈ items, Unfit v := by
  constructor
  · rintro (⟨⟨⟩⟩ | _ | _ | _ | ⟨hv, h⟩)
    exact ⟨_, hv, h⟩
  · rintro ⟨v, hv, h⟩
    exact .tuple hv h

theorem unfit_object_iff {fields : Fields} :
    Unfit (.object fields) ↔ ∃ field ∈ fields, UnfitKey field.1 ∨ Unfit field.2 := by
  constructor
  · rintro (⟨⟨⟩⟩ | _ | _ | _ | _ | ⟨hfield, h⟩ | ⟨hfield, h⟩)
    · exact ⟨_, hfield, .inl h⟩
    · exact ⟨_, hfield, .inr h⟩
  · rintro ⟨field, hfield, h | h⟩
    · exact .key hfield h
    · exact .value hfield h

/-! ## Where cleaning fails -/

theorem exists_integer_error_iff {n : Int} :
    (∃ e, Json.integer n = .error e) ↔ UnfitNumber (.int n) := by
  have hsize : (digitsOf n.natAbs).length ≤ maxIntegerDigits ↔ n.natAbs < Json.integerBound := by
    rw [Json.integerBound_eq]
    exact Nat.length_toDigits_le_iff (by decide) (by decide)
  rw [unfitNumber_int_iff, ← Nat.not_le, hsize, Json.integer]
  split_ifs with h <;> simp [h]

theorem exists_float_error_iff {x : Binary64} :
    (∃ e, Json.float Document.storedStyle x = .error e) ↔ UnfitNumber (.float x) := by
  rw [unfitNumber_float_iff]
  cases x <;> simp [Json.float, Document.storedStyle, Binary64.isFinite]

theorem exists_keyText_error_iff {key : Value} :
    (∃ e, Json.keyText Document.storedStyle key = .error e) ↔ UnfitKey key := by
  rw [UnfitKey]
  cases key with
  | int n => simp only [Json.keyText, exists_integer_error_iff, IsKeyKind, not_true, or_false]
  | float x => simp only [Json.keyText, exists_float_error_iff, IsKeyKind, not_true, or_false]
  | str s | bool b | null =>
    simp only [Json.keyText, IsKeyKind, not_true, or_false, reduceCtorEq, exists_false, false_iff]
    rintro ⟨⟩
  | _ => simp [Json.keyText, IsKeyKind]

mutual

/-- **Cleaning fails exactly on unfit values.** -/
theorem exists_clean_error_iff : ∀ v : Value,
    (∃ e, v.clean Document.storedStyle = .error e) ↔ Unfit v
  | .null | .bool _ | .str _ => by
    simp only [clean, reduceCtorEq, exists_false, false_iff]
    rintro ⟨⟨⟩⟩
  | .datetime _ | .date _ => by
    simp only [clean, Document.storedStyle, if_true, reduceCtorEq, exists_false, false_iff]
    rintro ⟨⟨⟩⟩
  | .int n => by
    rw [clean, exists_bind_ok_error_iff, exists_integer_error_iff]
    exact ⟨.number, fun | .number h => h⟩
  | .float x => by
    have hclean : (∃ e, clean Document.storedStyle (.float x) = .error e) ↔
        ∃ e, Json.float Document.storedStyle x = .error e := by
      cases x <;> simp only [clean, exists_bind_ok_error_iff]
    rw [hclean, exists_float_error_iff]
    exact ⟨.number, fun | .number h => h⟩
  | .set members => ⟨fun _ => .set members, fun _ => ⟨_, rfl⟩⟩
  | .bytes data => ⟨fun _ => .bytes data, fun _ => ⟨_, rfl⟩⟩
  | .list items => by
    rw [clean, exists_bind_ok_error_iff, unfit_list_iff]
    exact exists_cleanAll_error_iff items
  | .tuple items => by
    rw [clean, exists_bind_ok_error_iff, unfit_tuple_iff]
    exact exists_cleanAll_error_iff items
  | .object fields => by
    rw [clean, exists_bind_ok_error_iff, unfit_object_iff]
    exact exists_cleanFields_error_iff fields

theorem exists_cleanAll_error_iff : ∀ vs : List Value,
    (∃ e, cleanAll Document.storedStyle vs = .error e) ↔ ∃ v ∈ vs, Unfit v
  | [] => by simp [cleanAll]
  | v :: vs => by
    rw [cleanAll, List.exists_mem_cons_iff, ← exists_clean_error_iff v,
      ← exists_cleanAll_error_iff vs]
    exact exists_bind_error_iff fun w => exists_bind_ok_error_iff

theorem exists_cleanFields_error_iff : ∀ fields : Fields,
    (∃ e, cleanFields Document.storedStyle fields = .error e) ↔
      ∃ field ∈ fields, UnfitKey field.1 ∨ Unfit field.2
  | [] => by simp [cleanFields]
  | (k, v) :: fields => by
    rw [cleanFields, List.exists_mem_cons_iff, ← exists_keyText_error_iff,
      ← exists_clean_error_iff v, ← exists_cleanFields_error_iff fields, or_assoc]
    exact exists_bind_error_iff fun key => exists_bind_error_iff fun w => exists_bind_ok_error_iff

end

end Value

namespace Document

theorem exists_normalize_error_iff {v : Value} :
    (∃ e, normalize v = .error e) ↔ (∀ fields, v ≠ .object fields) ∨ v.Unfit := by
  cases v with
  | object fields =>
    have hnot : ¬ ∀ others, Value.object fields ≠ .object others := fun h => h fields rfl
    rw [or_iff_right hnot, Value.unfit_object_iff, ← Value.exists_cleanFields_error_iff]
    exact exists_mapError_error_iff.trans exists_bind_ok_error_iff
  | _ => exact ⟨fun _ => .inl fun fields h => (nomatch h), fun _ => ⟨_, rfl⟩⟩

/-- **Exactly the objects that are fit are stored**, as what their text reads as. This is a JSON
object without long integers and without numbers that are not finite, and such an object is stored
as it is. -/
theorem normalize_iff_fit (v : Value) :
    ((∃ e, normalize v = .error e) ↔ (∀ fields, v ≠ .object fields) ∨ v.Unfit) ∧
    (∀ doc, normalize v = .ok doc →
      (∃ text, Json.render storedStyle v = .ok text ∧ Json.parse text = .ok (.object doc)) ∧
      doc.Stored ∧ doc.Finite ∧ normalize (.object doc) = .ok doc) ∧
    ∀ doc : Document, v = .object doc → doc.Stored → doc.Finite → normalize v = .ok doc := by
  refine ⟨exists_normalize_error_iff, fun doc hdoc => ?_, ?_⟩
  · obtain ⟨fields, rfl, -⟩ := normalize_eq_ok hdoc
    obtain ⟨text, htext, hread⟩ := (normalize_render fields).exists_ok hdoc
    exact ⟨⟨text, mapError_eq_ok.mp htext, hread⟩, stored_normalize hdoc, finite_normalize hdoc,
      normalize_of_isJson (isJson_normalize hdoc)⟩
  · rintro doc rfl hstored hfinite
    exact normalize_of_isJson (Value.isJson_and.mpr ⟨hstored, hfinite⟩)

/-- A document with a tuple, a date, and keys of several kinds, two of them of one text. -/
def givenFields : Fields :=
  [(.int 1, .tuple [.date ⟨2000, 2, 29, by decide, by decide⟩, .float (.ofInt 2)]),
    (.null, .object [(.float (.ofInt 7), .int 3)]), (.str "1", .bool true)]

/-- It is stored, and it is not stored with a set in a list beside the rest. -/
theorem normalize_iff_fit_givenFields :
    ∃ doc, normalize (.object givenFields) = .ok doc ∧
      (∃ text, Json.render storedStyle (.object givenFields) = .ok text ∧
        Json.parse text = .ok (.object doc)) ∧
      doc.Stored ∧ doc.Finite ∧ normalize (.object doc) = .ok doc ∧
      ∃ e, normalize (.object ((.str "bad", .list [.set []]) :: givenFields)) = .error e := by
  obtain ⟨doc, hdoc⟩ : ∃ doc, normalize (.object givenFields) = .ok doc :=
    exists_of_isOk (by decide +kernel)
  obtain ⟨hread, hstored, hfinite, hagain⟩ := (normalize_iff_fit _).2.1 doc hdoc
  have hunfit : Value.Unfit (.object ((.str "bad", .list [.set []]) :: givenFields)) :=
    .value (List.mem_cons_self ..) (.list (List.mem_singleton_self _) (.set []))
  have hrefused := (normalize_iff_fit _).1.mpr (.inr hunfit)
  refine ⟨doc, hdoc, hread, hstored, hfinite, ?_, hrefused⟩
  exact (normalize_iff_fit _).2.2 doc rfl hstored hfinite

end Document

end SnapshotStore
