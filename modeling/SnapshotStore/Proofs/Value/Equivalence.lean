import Mathlib.Data.List.Perm.Basic
import SnapshotStore.Proofs.Pipeline.Key

/-!
# Agreement is an equivalence

Agreement looks at its two sides differently and goes by member on the one hand and by numbers on
the other. Among JSON values without undefined numbers (`DefinedValue`) it is an equivalence all the
same.

**Theorem (`agrees_equivalence`).** Agreement is reflexive, symmetric and transitive. Lists agree
exactly when their members do, one after the other, and objects exactly when their entries do in
some order, so the order of fields does not matter.

All this is read off the normal form, since values agree when their normal forms are the same
(`agrees_iff`): that of a list has the normal forms of its members, and that of an object the
normal forms of its entries in the order of their keys.
-/

namespace SnapshotStore

/-- Lists have the same images, to their order, exactly when the members of the first have the
images of the second's in some order. -/
theorem perm_map_iff_forall₂ {α β : Type} {f : α → β} {as bs : List α} :
    (as.map f).Perm (bs.map f) ↔
      ∃ matched, List.Forall₂ (fun a b => f a = f b) as matched ∧ matched.Perm bs := by
  constructor
  · intro h
    have hsame : List.Forall₂ (fun y b => y = f b) (bs.map f) bs :=
      List.forall₂_map_left_iff.mpr (List.forall₂_same.mpr fun _ _ => rfl)
    obtain ⟨matched, hmatched, hperm⟩ := List.perm_comp_forall₂ h hsame
    exact ⟨matched, List.forall₂_map_left_iff.mp hmatched, hperm⟩
  · rintro ⟨matched, hmatched, hperm⟩
    have heq : as.map f = matched.map f := by
      rw [← List.forall₂_eq_eq_eq, List.forall₂_map_left_iff, List.forall₂_map_right_iff]
      exact hmatched
    rw [heq]
    exact hperm.map f

/-- A JSON value without undefined numbers. -/
structure DefinedValue where
  value : Value
  isDefined : value.isJson Number.isDefined = true

namespace DefinedValue

/-- The list of such values. -/
def list (items : List DefinedValue) : DefinedValue :=
  ⟨.list (items.map value), Value.isJson_list.mpr (List.forall_mem_map.mpr fun v _ => v.isDefined)⟩

/-- The object of such values, each under a key of its own. -/
def object (entries : List (String × DefinedValue)) (hkeys : (entries.map (·.1)).Nodup) :
    DefinedValue :=
  ⟨.object (Fields.ofEntries (entries.map fun entry => (entry.1, entry.2.value))), by
    rw [Value.isJson_ofEntries, List.map_map]
    exact ⟨hkeys, List.forall_mem_map.mpr fun entry _ => entry.2.isDefined⟩⟩

/-- The first agrees, as a stored value, with the second as an asked one. -/
def Agrees (a b : DefinedValue) : Prop := a.value.agrees b.value = true

/-- The normal form. -/
def normal (a : DefinedValue) : Value := Group.normal a.value

/-- An entry with the normal form of its value. -/
def normalEntry (entry : String × DefinedValue) : String × Value := (entry.1, entry.2.normal)

theorem agrees_iff {a b : DefinedValue} : Agrees a b ↔ a.normal = b.normal :=
  Group.agrees_iff_normal a.isDefined b.value b.isDefined

theorem normal_list (items : List DefinedValue) :
    (list items).normal = .list (items.map normal) := by
  rw [normal, list, Group.normal_list, List.map_map]
  rfl

theorem normal_object (entries : List (String × DefinedValue))
    (hkeys : (entries.map (·.1)).Nodup) : (object entries hkeys).normal =
      .object (Fields.ofEntries (sortEntries (entries.map normalEntry))) := by
  rw [normal, object, Group.normal_ofEntries, List.map_map]
  rfl

/-- **Lists agree exactly when their members do.** -/
theorem agrees_list_iff {items others : List DefinedValue} :
    Agrees (list items) (list others) ↔ List.Forall₂ Agrees items others := by
  rw [agrees_iff, normal_list, normal_list, Value.list.injEq, ← List.forall₂_eq_eq_eq,
    List.forall₂_map_left_iff, List.forall₂_map_right_iff]
  exact ⟨.imp fun _ _ => agrees_iff.mpr, .imp fun _ _ => agrees_iff.mp⟩

section Objects

variable {entries others : List (String × DefinedValue)} {hkeys : (entries.map (·.1)).Nodup}
  {hkeys' : (others.map (·.1)).Nodup}

theorem agrees_object_iff_perm : Agrees (object entries hkeys) (object others hkeys') ↔
    (entries.map normalEntry).Perm (others.map normalEntry) := by
  have hnormal : ((entries.map normalEntry).map (·.1)).Nodup := by rwa [List.map_map]
  rw [agrees_iff, normal_object, normal_object, Value.object.injEq, Fields.ofEntries_inj,
    sortEntries_eq_iff hnormal]

/-- **Objects agree exactly when their entries do,** in some order. -/
theorem agrees_object_iff : Agrees (object entries hkeys) (object others hkeys') ↔
    ∃ matched, List.Forall₂ (fun a b => a.1 = b.1 ∧ Agrees a.2 b.2) entries matched ∧
      matched.Perm others := by
  rw [agrees_object_iff_perm, perm_map_iff_forall₂]
  simp only [normalEntry, Prod.mk.injEq, agrees_iff]

end Objects

/-- **Agreement is an equivalence,** it goes with lists and objects, and fields may stand in any
order. -/
theorem agrees_equivalence :
    Equivalence Agrees ∧
    (∀ items others, Agrees (list items) (list others) ↔ List.Forall₂ Agrees items others) ∧
    (∀ entries others hkeys hkeys', Agrees (object entries hkeys) (object others hkeys') ↔
      ∃ matched, List.Forall₂ (fun a b => a.1 = b.1 ∧ Agrees a.2 b.2) entries matched ∧
        matched.Perm others) ∧
    ∀ entries others hkeys hkeys', entries.Perm others →
      Agrees (object entries hkeys) (object others hkeys') := by
  refine ⟨⟨fun a => ?_, fun {a b} h => ?_, fun {a b c} h h' => ?_⟩, fun items others => ?_,
    fun entries others hkeys hkeys' => ?_, fun entries others hkeys hkeys' hperm => ?_⟩
  · exact agrees_iff.mpr rfl
  · exact agrees_iff.mpr (agrees_iff.mp h).symm
  · exact agrees_iff.mpr ((agrees_iff.mp h).trans (agrees_iff.mp h'))
  · exact agrees_list_iff
  · exact agrees_object_iff
  · exact agrees_object_iff_perm.mpr (hperm.map normalEntry)

/-- An integer agrees with the same number as a float, and so do objects with these in a list, also
when their fields stand the other way round. -/
theorem agrees_equivalence_swapped :
    let one : DefinedValue := ⟨.int 1, rfl⟩
    let same : DefinedValue := ⟨.float (.ofInt 1), by decide +kernel⟩
    let yes : DefinedValue := ⟨.bool true, rfl⟩
    Agrees (object [("a", list [one]), ("b", yes)] (by decide))
      (object [("b", yes), ("a", list [same])] (by decide)) := by
  intro one same yes
  obtain ⟨⟨hrefl, -, htrans⟩, hlists, hobjects, horder⟩ := agrees_equivalence
  have hsame : Agrees one same := by
    rw [Agrees]
    decide +kernel
  have hlist : Agrees (list [one]) (list [same]) := (hlists _ _).mpr (.cons hsame .nil)
  have hfield : Agrees (object [("a", list [one]), ("b", yes)] (by decide))
      (object [("a", list [same]), ("b", yes)] (by decide)) :=
    (hobjects _ _ _ _).mpr ⟨[("a", list [same]), ("b", yes)],
      .cons ⟨rfl, hlist⟩ (.cons ⟨rfl, hrefl yes⟩ .nil), .refl _⟩
  exact htrans hfield (horder _ _ _ _ (.swap ..))

end DefinedValue

end SnapshotStore
