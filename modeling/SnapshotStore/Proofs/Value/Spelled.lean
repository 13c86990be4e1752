import SnapshotStore.Collections
import SnapshotStore.Proofs.Json.Accepted

/-!
# Which values have a text

**Theorem (`isSpelled_of_isJson`).** JSON values without integers that are too long have a text.

**Theorem (`isSpelled_of_clean`).** What can be stored has a text: writing and cleaning refuse the
same integers as putting a value into text does, and refuse some values besides.
-/

namespace SnapshotStore

namespace Value

theorem spelled_eq_ok {v : Value} {text : String} :
    v.spelled = .ok text ↔ v.isSpelled = true ∧ v.display = text := by
  unfold spelled
  split_ifs with h <;> simp [h]

theorem isSpelled_int {n : Int} : (int n).isSpelled = true ↔ n.natAbs < Json.integerBound := by
  rw [isSpelled, decide_eq_true_eq]

/-- The first integer that is too long. -/
theorem not_isSpelled_integerBound : ¬ (int Json.integerBound).isSpelled = true := by
  rw [isSpelled_int, Int.natAbs_natCast]
  exact lt_irrefl _

theorem areSpelled_iff {items : List Value} :
    areSpelled items = true ↔ ∀ v ∈ items, v.isSpelled = true := by
  induction items with
  | nil => simp [areSpelled]
  | cons v items ih => rw [areSpelled, Bool.and_eq_true, ih, List.forall_mem_cons]

theorem areSpelledFields_iff {fields : Fields} : areSpelledFields fields = true ↔
    ∀ field ∈ fields, field.1.isSpelled = true ∧ field.2.isSpelled = true := by
  induction fields with
  | nil => simp [areSpelledFields]
  | cons field fields ih =>
    rw [areSpelledFields, Bool.and_eq_true, Bool.and_eq_true, ih, List.forall_mem_cons]

theorem isSpelled_of_isJson {v : Value} (h : v.isJson Number.isShort = true) :
    v.isSpelled = true := by
  induction v, h using isJson_induction with
  | null | bool b | float x h | str s => rfl
  | int n h => exact h
  | list items _ ih => exact areSpelled_iff.mpr ih
  | object entries _ _ ih =>
    refine areSpelledFields_iff.mpr fun field hfield => ?_
    obtain ⟨name, hname, hmem⟩ := Fields.mem_ofEntries.mp hfield
    rw [hname]
    exact ⟨rfl, ih _ hmem⟩

theorem natAbs_lt_of_integer {n : Int} {text : List Char} (h : Json.integer n = .ok text) :
    n.natAbs < Json.integerBound := by
  unfold Json.integer at h
  split_ifs at h with hlt
  exact hlt

theorem isSpelled_of_keyText {style : Json.Style} {key : Value} {text : List Char}
    (h : Json.keyText style key = .ok text) : key.isSpelled = true := by
  cases key with
  | int n => exact isSpelled_int.mpr (natAbs_lt_of_integer h)
  | null | bool b | float x | str s => rfl
  | _ => cases h

variable {style : Json.Style}

mutual

/-- **What has a clean form has a text.** -/
theorem isSpelled_of_clean : ∀ (v : Value) {w : Value}, v.clean style = .ok w → v.isSpelled = true
  | .int n, w => by
    intro h
    rw [clean] at h
    obtain ⟨text, htext, -⟩ := bind_eq_ok.mp h
    exact isSpelled_int.mpr (natAbs_lt_of_integer htext)
  | .list items, w | .tuple items, w => by
    intro h
    obtain ⟨_, hitems, -⟩ := bind_eq_ok.mp h
    exact areSpelled_of_cleanAll items hitems
  | .object fields, w => by
    intro h
    obtain ⟨_, hfields, -⟩ := bind_eq_ok.mp h
    exact areSpelledFields_of_cleanFields fields hfields
  | .set _, _ => nofun
  | .null, _ | .bool _, _ | .float _, _ | .str _, _ | .bytes _, _ | .datetime _, _ | .date _, _ =>
    fun _ => rfl

theorem areSpelled_of_cleanAll : ∀ (items : List Value) {cleaned : List Value},
    cleanAll style items = .ok cleaned → areSpelled items = true
  | [], _ => fun _ => rfl
  | v :: items, _ => by
    intro h
    obtain ⟨_, hv, h⟩ := bind_eq_ok.mp h
    obtain ⟨_, hitems, -⟩ := bind_eq_ok.mp h
    exact Bool.and_eq_true_iff.mpr ⟨isSpelled_of_clean v hv, areSpelled_of_cleanAll items hitems⟩

theorem areSpelledFields_of_cleanFields : ∀ (fields : Fields) {cleaned : Fields},
    cleanFields style fields = .ok cleaned → areSpelledFields fields = true
  | [], _ => fun _ => rfl
  | (k, v) :: fields, _ => by
    intro h
    obtain ⟨_, hk, h⟩ := bind_eq_ok.mp h
    obtain ⟨_, hv, h⟩ := bind_eq_ok.mp h
    obtain ⟨_, hfields, -⟩ := bind_eq_ok.mp h
    rw [areSpelledFields, isSpelled_of_keyText hk, isSpelled_of_clean v hv,
      areSpelledFields_of_cleanFields fields hfields]
    rfl

end

end Value

theorem documentKey_eq_ok {id : Value} {key : String} :
    documentKey id = .ok key ↔ id.isSpelled = true ∧ id.display = key :=
  Value.spelled_eq_ok

/-- What is stored as an id has a key. -/
theorem documentKey_of_isJson {id : Value} (h : id.isJson Number.isShort = true) :
    documentKey id = .ok id.display :=
  documentKey_eq_ok.mpr ⟨Value.isSpelled_of_isJson h, rfl⟩

end SnapshotStore
