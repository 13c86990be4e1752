import Mathlib.Data.String.Basic
import SnapshotStore.Proofs.Json.Accepted
import SnapshotStore.Proofs.Sort

/-!
# Writing fields in the order of their keys

**Theorem (`write_sorted`).** Writing a JSON value with its fields in the order of their keys is
writing the value whose fields are in this order (`Value.ordered`).

Keys that are texts always compare, and distinct ones settle how their fields are put in order, so
sorting fields gives the one arrangement of them in which the keys rise (`sortFields_eq`).
-/

namespace SnapshotStore

/-! ## Entries in order -/

/-- Entries in the order of their keys. -/
def sortEntries {α : Type} (entries : List (String × α)) : List (String × α) :=
  entries.mergeSort fun a b => a.1 ≤ b.1

section

variable {α β : Type} {entries others : List (String × α)}

theorem sortEntries_perm (entries : List (String × α)) : (sortEntries entries).Perm entries :=
  List.mergeSort_perm _ _

theorem sortEntries_map (f : String × α → β) (entries : List (String × α)) :
    sortEntries (entries.map fun entry => (entry.1, f entry)) =
      (sortEntries entries).map fun entry => (entry.1, f entry) := by
  unfold sortEntries
  rw [List.map_mergeSort]
  exact fun _ _ _ _ => rfl

theorem keys_map (f : String × α → β) (entries : List (String × α)) :
    (entries.map fun entry => (entry.1, f entry)).map (·.1) = entries.map (·.1) := by
  rw [List.map_map]
  rfl

theorem nodup_keys_sortEntries :
    ((sortEntries entries).map (·.1)).Nodup ↔ (entries.map (·.1)).Nodup :=
  ((sortEntries_perm entries).map (·.1)).nodup_iff

/-- The keys rise. -/
theorem pairwise_sortEntries (h : (entries.map (·.1)).Nodup) :
    (sortEntries entries).Pairwise fun a b => a.1 < b.1 := by
  have hle : (sortEntries entries).Pairwise fun a b => a.1 ≤ b.1 := by
    refine (List.pairwise_mergeSort ?_ ?_ entries).imp of_decide_eq_true
    · intro a b c hab hbc
      exact decide_eq_true (le_trans (of_decide_eq_true hab) (of_decide_eq_true hbc))
    · intro a b
      simpa using le_total a.1 b.1
  have hne : (sortEntries entries).Pairwise fun a b => a.1 ≠ b.1 :=
    List.pairwise_map.mp (nodup_keys_sortEntries.mpr h)
  exact (hle.and hne).imp fun h => lt_of_le_of_ne h.1 h.2

/-- Entries with keys of their own are put in the same order exactly when they are the same. -/
theorem sortEntries_eq_iff (h : (entries.map (·.1)).Nodup) :
    sortEntries entries = sortEntries others ↔ entries.Perm others := by
  constructor
  · intro heq
    exact (sortEntries_perm entries).symm.trans (heq ▸ sortEntries_perm others)
  · intro hperm
    have hothers := (hperm.map (·.1)).nodup_iff.mp h
    refine List.Perm.eq_of_pairwise ?_ (pairwise_sortEntries h) (pairwise_sortEntries hothers)
      ((sortEntries_perm entries).trans (hperm.trans (sortEntries_perm others).symm))
    exact fun a b _ _ hab hba => absurd hba hab.asymm

end

namespace Json

/-! ## Sorting fields -/

theorem keyBefore_str (s t : String) : keyBefore (.str s) (.str t) = .ok (decide (s < t)) := by
  simp only [keyBefore, Value.relate?]
  rcases lt_trichotomy s t with h | rfl | h
  · rw [compare_lt_iff_lt.mpr h]
    simp [Relation.ofOrdering, h]
  · rw [compare_eq_iff_eq.mpr rfl]
    simp [Relation.ofOrdering]
  · rw [compare_gt_iff_gt.mpr h]
    simp [Relation.ofOrdering, h.asymm]

variable {α : Type}

/-- An entry as a field. -/
def fieldOf (entry : String × α) : Value × α := (.str entry.1, entry.2)

/-- A field with a text as its key goes before another one. -/
def textBefore (a b : Value × α) : Bool :=
  match a.1, b.1 with
  | .str s, .str t => s < t
  | _, _ => false

theorem textBefore_fieldOf (a b : String × α) :
    textBefore (fieldOf a) (fieldOf b) = true ↔ a.1 < b.1 := decide_eq_true_iff

theorem textBefore_iff {a b : Value × α} :
    textBefore a b = true ↔ ∃ s t, a.1 = .str s ∧ b.1 = .str t ∧ s < t := by
  unfold textBefore
  split
  · next s t hs ht => simp [hs, ht]
  · next hne =>
    simp only [Bool.false_eq_true, false_iff, not_exists, not_and]
    exact fun s t hs ht => absurd ht (hne s t hs)

instance : IsTrans (Value × α) (textBefore · ·) where
  trans a b c hab hbc := by
    obtain ⟨s, t, hs, ht, hlt⟩ := textBefore_iff.mp hab
    obtain ⟨t', u, ht', hu, hlt'⟩ := textBefore_iff.mp hbc
    obtain rfl := Value.str.inj (ht.symm.trans ht')
    exact textBefore_iff.mpr ⟨s, u, hs, hu, hlt.trans hlt'⟩

theorem textBefore_asymm {a b : Value × α} (hab : textBefore a b = true)
    (hba : textBefore b a = true) : a = b := by
  obtain ⟨s, t, hs, ht, hlt⟩ := textBefore_iff.mp hab
  obtain ⟨t', s', ht', hs', hlt'⟩ := textBefore_iff.mp hba
  obtain rfl := Value.str.inj (ht.symm.trans ht')
  obtain rfl := Value.str.inj (hs.symm.trans hs')
  exact absurd hlt' hlt.asymm

/-- Fields with distinct texts as keys go before each other one way or the other. -/
theorem settles_fieldOf {a b : String × α} (h : a.1 ≠ b.1) :
    Sort.Settles (fun a b : Value × α => keyBefore a.1 b.1) textBefore (textBefore · ·)
      (fieldOf a) (fieldOf b) := by
  refine ⟨keyBefore_str b.1 a.1, id, fun hnot => ?_⟩
  rw [textBefore_fieldOf]
  have hnot' : ¬b.1 < a.1 := by
    rw [← textBefore_fieldOf]
    simpa using hnot
  exact lt_of_le_of_ne (not_lt.mp hnot') h

/-- **Fields are put in the order of their keys.** -/
theorem sortFields_eq {entries : List (String × α)} (h : (entries.map (·.1)).Nodup) :
    sortFields (entries.map fieldOf) = .ok ((sortEntries entries).map fieldOf) := by
  have hsettles := List.pairwise_map.mpr ((List.pairwise_map.mp h).imp settles_fieldOf)
  obtain ⟨out, hout, hperm, hchain⟩ := Sort.sortM_spec hsettles
  have hsorted : ((sortEntries entries).map fieldOf).Pairwise (textBefore · ·) :=
    List.pairwise_map.mpr ((pairwise_sortEntries h).imp (textBefore_fieldOf _ _).mpr)
  refine hout.trans (congrArg Except.ok ?_)
  exact List.Perm.eq_of_pairwise (fun _ _ _ _ => textBefore_asymm)
    (List.isChain_iff_pairwise.mp hchain) hsorted
    (hperm.trans ((sortEntries_perm entries).map fieldOf).symm)

end Json

/-! ## Values in order -/

namespace Value

mutual

/-- The value with all its fields in the order of their keys. -/
def ordered : Value → Value
  | .list items => .list (orderedAll items)
  | .object fields =>
    .object ((orderedFields fields).mergeSort fun a b => !Json.textBefore b a)
  | v => v

/-- The members with all their fields in order. -/
def orderedAll : List Value → List Value
  | [] => []
  | v :: vs => ordered v :: orderedAll vs

/-- The fields with the fields of their values in order. -/
def orderedFields : Fields → Fields
  | [] => []
  | (k, v) :: fields => (k, ordered v) :: orderedFields fields

end

@[simp] theorem ordered_list (items : List Value) :
    ordered (.list items) = .list (items.map ordered) := by
  rw [ordered]
  congr 1
  induction items with
  | nil => rfl
  | cons v vs ih => rw [orderedAll, ih, List.map_cons]

@[simp] theorem ordered_ofEntries (entries : List (String × Value)) :
    ordered (.object (Fields.ofEntries entries)) =
      .object (Fields.ofEntries (sortEntries
        (entries.map fun entry => (entry.1, ordered entry.2)))) := by
  have hfields : orderedFields (Fields.ofEntries entries) =
      Fields.ofEntries (entries.map fun entry => (entry.1, ordered entry.2)) := by
    induction entries with
    | nil => rfl
    | cons entry entries ih =>
      rw [Fields.ofEntries_cons, orderedFields, ih, List.map_cons, Fields.ofEntries_cons]
  rw [ordered, hfields]
  congr 1
  unfold sortEntries Fields.ofEntries
  refine (List.map_mergeSort fun a _ b _ => ?_).symm
  rw [Bool.eq_iff_iff, Bool.not_eq_true', ← Bool.not_eq_true, decide_eq_true_iff]
  exact not_lt.symm.trans (not_congr (Json.textBefore_fieldOf b a).symm)

variable {number : Number → Bool}

theorem isJson_ordered {v : Value} (h : isJson number v = true) :
    isJson number (ordered v) = true := by
  induction v, h using isJson_induction with
  | null | bool b | str s => rfl
  | int n h | float x h => exact h
  | list items _ ih =>
    rw [ordered_list, isJson_list]
    exact List.forall_mem_map.mpr ih
  | object entries hkeys _ ih =>
    rw [ordered_ofEntries, isJson_ofEntries, nodup_keys_sortEntries, keys_map]
    refine ⟨hkeys, fun entry hentry => ?_⟩
    obtain ⟨old, hold, rfl⟩ := List.mem_map.mp ((sortEntries_perm _).mem_iff.mp hentry)
    exact ih old hold

end Value

namespace Json

variable {style style' : Style} {depth : Nat}

theorem writeItems_congr {vs : List Value} {f : Value → Value}
    (h : ∀ v ∈ vs, write style (depth + 1) v = write style' (depth + 1) (f v)) :
    writeItems style depth vs = writeItems style' depth (vs.map f) := by
  induction vs with
  | nil => rfl
  | cons v vs ih =>
    rw [List.forall_mem_cons] at h
    rw [writeItems, List.map_cons, writeItems, h.1, ih h.2]

/-- The text of a field. -/
def fieldText (style : Style) (depth : Nat) (entry : String × Value) :
    Except EncodeError (List Char) := do
  .ok (stringText entry.1.toList ++ ':' :: ' ' :: (← write style (depth + 1) entry.2))

theorem writeFields_ofEntries (entries : List (String × Value)) :
    writeFields style depth (Fields.ofEntries entries) =
      (entries.map fun entry => (entry.1, fieldText style depth entry)).map fieldOf := by
  induction entries with
  | nil => rfl
  | cons entry entries ih =>
    rw [Fields.ofEntries_cons, writeFields, ih]
    rfl

/-- **Writing fields in order is writing the value that has them in order.** -/
theorem write_sorted {number : Number → Bool} (hstyle : style.sorted = true) {v : Value}
    (hv : v.isJson number = true) :
    ∀ depth, write style depth v = write { style with sorted := false } depth v.ordered := by
  induction v, hv using Value.isJson_induction with
  | null | bool b | str s => exact fun depth => rfl
  | int n h | float x h => exact fun depth => rfl
  | list items _ ih =>
    intro depth
    rw [Value.ordered_list, write, write, writeItems_congr fun v hv => ih v hv (depth + 1)]
    rfl
  | object entries hkeys _ ih =>
    intro depth
    have htexts : ((sortEntries entries).map fun entry => (entry.1, fieldText style depth entry)) =
        ((sortEntries entries).map fun entry => (entry.1, entry.2.ordered)).map fun entry =>
          (entry.1, fieldText { style with sorted := false } depth entry) := by
      rw [List.map_map]
      refine List.map_congr_left fun entry hentry => ?_
      have hvalue := ih entry ((sortEntries_perm entries).mem_iff.mp hentry) (depth + 1)
      simp only [Function.comp_apply, fieldText, hvalue]
    have hparts : sortFields (writeFields style depth (Fields.ofEntries entries)) =
        .ok (writeFields { style with sorted := false } depth (Fields.ofEntries
          (sortEntries (entries.map fun entry => (entry.1, entry.2.ordered))))) := by
      rw [writeFields_ofEntries, writeFields_ofEntries, sortFields_eq (by rwa [keys_map]),
        sortEntries_map, sortEntries_map, htexts]
    rw [Value.ordered_ofEntries, write, write, if_pos hstyle, hparts]
    rfl

end Json

end SnapshotStore
