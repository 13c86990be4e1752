import SnapshotStore.Proofs.Document

/-!
# What a document is given

A caller's document may have keys of several kinds that become the same name when it is stored.
`Document.given?` is the value that counts for a name: that of the last such key.

**Theorem (`exists_getText?_normalize`).** A stored document holds under a name the clean form of
what it was given for it, and nothing under a name for which it was given nothing
(`getText?_normalize_eq_none`).

The fields of the caller are laid down one after the other, and a later one replaces an earlier one
of the same name. So what is held in the end does not depend on what was held before, if a name is
given at all.
-/

namespace SnapshotStore

namespace Document

/-- Whether a key becomes a name when a document is stored. -/
def becomes (key : Value) (name : String) : Bool :=
  match Json.keyText storedStyle key with
  | .ok text => String.ofList text == name
  | .error _ => false

/-- The value that a caller's fields give for a name. -/
def given? : Fields → String → Option Value
  | [], _ => none
  | (key, v) :: fields, name =>
    (given? fields name).or (if becomes key name then some v else none)

variable {fields pairs : Fields} {name : String} {v : Value} {doc : Document}

theorem becomes_of_keyText {key : Value} {text : List Char}
    (h : Json.keyText storedStyle key = .ok text) :
    becomes key name = (String.ofList text == name) := by
  rw [becomes, h]

/-- A name that is not given keeps what was held. -/
theorem getText?_overlay_of_not_given (h : Value.cleanFields storedStyle fields = .ok pairs)
    (hgiven : given? fields name = none) (held : Fields) :
    Fields.getText? (Fields.overlay held pairs) name = Fields.getText? held name := by
  induction fields generalizing pairs held with
  | nil =>
    cases h
    rfl
  | cons field fields ih =>
    obtain ⟨key, v⟩ := field
    obtain ⟨text, htext, h⟩ := bind_eq_ok.mp h
    obtain ⟨w, hw, h⟩ := bind_eq_ok.mp h
    obtain ⟨pairs, hpairs, h⟩ := bind_eq_ok.mp h
    cases h
    rw [given?, Option.or_eq_none_iff, becomes_of_keyText htext] at hgiven
    have hne : String.ofList text ≠ name := by
      rintro rfl
      simp at hgiven
    rw [Fields.overlay, List.foldl_cons]
    exact (ih hpairs hgiven.1 _).trans (Fields.getText?_insert_of_ne hne _ _)

/-- A name that is given holds the clean form of what it is given, whatever was held. -/
theorem exists_getText?_overlay (h : Value.cleanFields storedStyle fields = .ok pairs)
    (hgiven : given? fields name = some v) :
    ∃ w, v.clean storedStyle = .ok w ∧
      ∀ held, Fields.getText? (Fields.overlay held pairs) name = some w := by
  induction fields generalizing pairs with
  | nil => cases hgiven
  | cons field fields ih =>
    obtain ⟨key, u⟩ := field
    obtain ⟨text, htext, h⟩ := bind_eq_ok.mp h
    obtain ⟨w, hw, h⟩ := bind_eq_ok.mp h
    obtain ⟨pairs, hpairs, h⟩ := bind_eq_ok.mp h
    cases h
    rw [given?, becomes_of_keyText htext] at hgiven
    cases hlater : given? fields name with
    | some later =>
      rw [hlater] at hgiven
      cases hgiven
      obtain ⟨w, hw, hheld⟩ := ih hpairs hlater
      exact ⟨w, hw, fun held => hheld _⟩
    | none =>
      rw [hlater, Option.none_or] at hgiven
      split_ifs at hgiven with hname
      obtain rfl := eq_of_beq hname
      cases hgiven
      refine ⟨w, hw, fun held => ?_⟩
      rw [Fields.overlay, List.foldl_cons]
      exact (getText?_overlay_of_not_given hpairs hlater _).trans
        (Fields.getText?_insert_self _ _ _)

theorem cleanFields_of_normalize (h : normalize (.object fields) = .ok doc) :
    ∃ pairs, Value.cleanFields storedStyle fields = .ok pairs ∧ doc = Fields.overlay [] pairs := by
  obtain ⟨pairs, hpairs, h⟩ := bind_eq_ok.mp (mapError_eq_ok.mp h)
  cases h
  exact ⟨pairs, hpairs, rfl⟩

/-- **A stored document holds the clean form of what it is given.** -/
theorem exists_getText?_normalize (h : normalize (.object fields) = .ok doc)
    (hgiven : given? fields name = some v) :
    ∃ w, v.clean storedStyle = .ok w ∧ Fields.getText? doc name = some w := by
  obtain ⟨pairs, hpairs, rfl⟩ := cleanFields_of_normalize h
  obtain ⟨w, hw, hheld⟩ := exists_getText?_overlay hpairs hgiven
  exact ⟨w, hw, hheld []⟩

/-- A stored document holds nothing under a name for which it is given nothing. -/
theorem getText?_normalize_eq_none (h : normalize (.object fields) = .ok doc)
    (hgiven : given? fields name = none) : Fields.getText? doc name = none := by
  obtain ⟨pairs, hpairs, rfl⟩ := cleanFields_of_normalize h
  exact getText?_overlay_of_not_given hpairs hgiven []

end Document

end SnapshotStore
