import SnapshotStore.Proofs.Value.Json
import SnapshotStore.Query

/-!
# Strict queries

A strict query refuses two things that a permissive one passes over: keys that start with a dollar
sign among the fields, and unknown operators. `Query.strip` drops both, and with them the fields
that had nothing but unknown operators.

**Theorem (`satisfied_strip`).** The stripped query, asked strictly, answers or fails as the whole
query does when asked permissively.

**Theorem (`satisfied_of_strict`).** Whatever a strict query answers, the permissive one answers
too.

Conditions are tried in order and the first that fails decides, so both are inductions on the fields
in which the same conditions are tried on both sides.
-/

namespace SnapshotStore

namespace Query

variable {stored : Option Value} {doc : Document}

/-! ## Stripping -/

/-- A field that is keyed by a known operator. -/
def isKnown : Value × Value → Bool
  | (.str name, _) => (Operator.ofName? name).isSome
  | _ => false

/-- A condition without its unknown operators; none is left of one that had no others. -/
def stripCondition : Value → Option Value
  | .object fields =>
    match operators? fields with
    | none => some (.object fields)
    | some _ =>
      match fields.filter isKnown with
      | [] => none
      | known => some (.object known)
  | v => some v

/-- Fields without those that a strict query refuses, and without unknown operators. -/
def stripFields : Fields → Fields
  | [] => []
  | (key, condition) :: fields =>
    match operatorKey? key, stripCondition condition with
    | none, some stripped => (key, stripped) :: stripFields fields
    | _, _ => stripFields fields

/-- A query without what a strict one refuses. -/
def strip : Value → Value
  | .object fields => .object (stripFields fields)
  | v => v

/-! ## Objects of operators -/

theorem operatorKey?_eq_some {key : Value} {name : String} :
    operatorKey? key = some name ↔ key = .str name ∧ Value.isDollar name = true := by
  cases key with
  | str s =>
    simp only [operatorKey?]
    split_ifs with hdollar
    · simp only [Option.some.injEq, Value.str.injEq]
      exact ⟨fun h => ⟨h, h ▸ hdollar⟩, And.left⟩
    · simp only [Value.str.injEq, false_iff]
      rintro ⟨rfl, h⟩
      exact hdollar h
  | _ => simp [operatorKey?]

/-- An object of operators is one that has fields, all with operators for keys. -/
theorem operators?_eq_some {fields : Fields} {terms : List (String × Value)} :
    operators? fields = some terms ↔
      terms ≠ [] ∧ fields = Fields.ofEntries terms ∧
        ∀ term ∈ terms, Value.isDollar term.1 = true := by
  unfold operators?
  split_ifs with hempty
  · obtain rfl := List.isEmpty_iff.mp hempty
    simp only [false_iff]
    rintro ⟨hne, hnil, -⟩
    exact hne (List.map_eq_nil_iff.mp hnil.symm)
  · rw [mapM_eq_some]
    constructor
    · intro h
      have hterms : fields = Fields.ofEntries terms ∧
          ∀ term ∈ terms, Value.isDollar term.1 = true := by
        clear hempty
        induction h with
        | nil => exact ⟨rfl, fun _ hnil => absurd hnil List.not_mem_nil⟩
        | @cons field term _ _ hfield _ ih =>
          obtain ⟨name, hname, rfl⟩ := Option.map_eq_some_iff.mp hfield
          obtain ⟨hkey, hdollar⟩ := operatorKey?_eq_some.mp hname
          refine ⟨?_, List.forall_mem_cons.mpr ⟨hdollar, ih.2⟩⟩
          rw [Fields.ofEntries_cons, ← ih.1, ← hkey]
      refine ⟨?_, hterms⟩
      rintro rfl
      exact hempty (hterms.1 ▸ rfl)
    · rintro ⟨-, rfl, hdollar⟩
      refine List.forall₂_map_left_iff.mpr (List.forall₂_same.mpr fun term hterm => ?_)
      exact Option.map_eq_some_iff.mpr
        ⟨term.1, operatorKey?_eq_some.mpr ⟨rfl, hdollar term hterm⟩, rfl⟩

theorem filter_isKnown (terms : List (String × Value)) :
    (Fields.ofEntries terms).filter isKnown =
      Fields.ofEntries (terms.filter fun term => (Operator.ofName? term.1).isSome) :=
  List.filter_map

/-! ## Dropping what is passed over -/

theorem allHold_filter (terms : List (String × Value)) :
    allHold true stored (terms.filter fun term => (Operator.ofName? term.1).isSome) =
      allHold false stored terms := by
  induction terms with
  | nil => rfl
  | cons term terms ih =>
    obtain ⟨name, argument⟩ := term
    cases hop : Operator.ofName? name with
    | none =>
      rw [List.filter_cons_of_neg (by simp [hop]), ih, allHold, hop]
      rfl
    | some op =>
      rw [List.filter_cons_of_pos (by simp [hop]), allHold, allHold, hop]
      simp only [ih]

/-- What is left of a condition holds as the condition does, and nothing is left of one that holds
of everything. -/
theorem holds_stripCondition (condition : Value) :
    (Condition.ofValue condition).holds false stored =
      match stripCondition condition with
      | none => .ok true
      | some stripped => (Condition.ofValue stripped).holds true stored := by
  cases condition with
  | object fields =>
    cases hterms : operators? fields with
    | none => simp only [stripCondition, Condition.ofValue, hterms, Condition.holds]
    | some terms =>
      obtain ⟨-, rfl, hdollar⟩ := operators?_eq_some.mp hterms
      simp only [stripCondition, Condition.ofValue, hterms, filter_isKnown, Condition.holds]
      rw [← allHold_filter]
      generalize hkept : terms.filter (fun term => (Operator.ofName? term.1).isSome) = kept
      cases kept with
      | nil => rfl
      | cons term kept =>
        have hstripped : operators? (Fields.ofEntries (term :: kept)) = some (term :: kept) := by
          refine operators?_eq_some.mpr ⟨List.cons_ne_nil _ _, rfl, fun other hother => ?_⟩
          rw [← hkept] at hother
          exact hdollar other (List.mem_filter.mp hother).1
        rw [Fields.ofEntries_cons] at hstripped ⊢
        simp only [hstripped]
  | _ => rfl

theorem fieldsHold_stripFields (fields : Fields) :
    fieldsHold true doc (stripFields fields) = fieldsHold false doc fields := by
  induction fields with
  | nil => rfl
  | cons field fields ih =>
    obtain ⟨key, condition⟩ := field
    cases hkey : operatorKey? key with
    | some name =>
      simp only [stripFields, fieldsHold, hkey]
      exact ih
    | none =>
      simp only [stripFields, fieldsHold, hkey, holds_stripCondition]
      cases stripCondition condition with
      | none => exact ih
      | some stripped => simp only [fieldsHold, hkey, ih]

/-- **A permissive query is the strict one that is left** when what it passes over is dropped. -/
theorem satisfied_strip (query : Value) (doc : Document) :
    satisfied true (strip query) doc = satisfied false query doc := by
  cases query with
  | object fields => exact fieldsHold_stripFields fields
  | _ => rfl

theorem select_strip (query : Value) (docs : List Document) :
    select true (strip query) docs = select false query docs := by
  induction docs with
  | nil => rfl
  | cons doc docs ih => simp only [select, satisfied_strip, ih]

/-! ## Answers of strict queries -/

theorem allHold_of_strict {terms : List (String × Value)} {b : Bool}
    (h : allHold true stored terms = .ok b) : allHold false stored terms = .ok b := by
  induction terms with
  | nil => exact h
  | cons term terms ih =>
    obtain ⟨name, argument⟩ := term
    unfold allHold at h ⊢
    split at h
    · cases h
    · next op hop =>
      obtain ⟨holds, hholds, h⟩ := bind_eq_ok.mp h
      refine bind_eq_ok.mpr ⟨holds, hholds, ?_⟩
      cases holds with
      | true => exact ih h
      | false => exact h

theorem Condition.holds_of_strict {condition : Condition} {b : Bool}
    (h : condition.holds true stored = .ok b) : condition.holds false stored = .ok b := by
  cases condition with
  | value v => exact h
  | operators terms => exact allHold_of_strict h

theorem fieldsHold_of_strict {fields : Fields} {b : Bool}
    (h : fieldsHold true doc fields = .ok b) : fieldsHold false doc fields = .ok b := by
  induction fields with
  | nil => exact h
  | cons field fields ih =>
    obtain ⟨key, condition⟩ := field
    unfold fieldsHold at h ⊢
    split at h
    · cases h
    · obtain ⟨holds, hholds, h⟩ := bind_eq_ok.mp h
      refine bind_eq_ok.mpr ⟨holds, Condition.holds_of_strict hholds, ?_⟩
      cases holds with
      | true => exact ih h
      | false => exact h

/-- **Whatever a strict query answers,** the permissive one answers too. -/
theorem satisfied_of_strict {query : Value} {b : Bool}
    (h : satisfied true query doc = .ok b) : satisfied false query doc = .ok b := by
  cases query with
  | object fields => exact fieldsHold_of_strict h
  | _ => exact h

theorem select_of_strict {query : Value} {docs kept : List Document}
    (h : select true query docs = .ok kept) : select false query docs = .ok kept := by
  induction docs generalizing kept with
  | nil => exact h
  | cons doc docs ih =>
    obtain ⟨holds, hholds, h⟩ := bind_eq_ok.mp h
    refine bind_eq_ok.mpr ⟨holds, satisfied_of_strict hholds, ?_⟩
    cases holds with
    | true =>
      obtain ⟨rest, hrest, h⟩ := bind_eq_ok.mp h
      exact bind_eq_ok.mpr ⟨rest, ih hrest, h⟩
    | false => exact ih h

end Query

end SnapshotStore
