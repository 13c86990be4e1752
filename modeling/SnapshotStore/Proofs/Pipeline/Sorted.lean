import SnapshotStore.Pipeline
import SnapshotStore.Proofs.Sort.Stable
import SnapshotStore.Proofs.Value.Order

/-!
# Sorting documents

**Theorem (`sorted_of_sortable`).** Documents whose values under each sort key are all numbers or
all texts are put in the lexicographic order of the keys in their directions, and documents tied on
all keys stay as they were.

`Pipeline.goesBefore` asks twice at each key whether one value is greater, once each way. Where the
two values are comparable that is to ask for the first key at which their order is not a tie
(`goesBefore_eq`), so on such documents it is what `keyOrder` calls less, which is a weak order.
-/

namespace SnapshotStore.Pipeline

/-- What a document has under a sort key. -/
def valueUnder (key : Value) (doc : Document) : Value := (Fields.get? doc key).getD .null

theorem goesBefore_cons (field : Value × Value) (fields : Fields) (a b : Document) :
    goesBefore (field :: fields) a b =
      if (valueUnder field.1 a).isGreater (valueUnder field.1 b) then isDescending field.2
      else if (valueUnder field.1 b).isGreater (valueUnder field.1 a) then !isDescending field.2
      else goesBefore fields a b := rfl

/-- Compare in the direction asked for: turned round for minus one. -/
def inDirection {α : Type} (direction : Value) (cmp : α → α → Ordering) : α → α → Ordering :=
  if direction.equals (.int (-1)) then fun a b => cmp b a else cmp

/-- Documents stand by the first key under which they are not tied. -/
def keyOrder : Fields → Document → Document → Ordering
  | [] => fun _ _ => .eq
  | (key, direction) :: fields =>
    compareLex
      (inDirection direction fun a b => Value.ordering (valueUnder key a) (valueUnder key b))
      (keyOrder fields)

/-- Under each sort key the documents have only numbers that have a place, or only texts. -/
def Sortable (fields : Fields) (docs : List Document) : Prop :=
  ∀ field ∈ fields, (∀ doc ∈ docs, (valueUnder field.1 doc).place?.isSome) ∨
    ∀ doc ∈ docs, (valueUnder field.1 doc).text?.isSome

theorem Sortable.comparable {fields : Fields} {docs : List Document} (h : Sortable fields docs)
    {a b : Document} (ha : a ∈ docs) (hb : b ∈ docs) :
    ∀ field ∈ fields, Value.Comparable (valueUnder field.1 a) (valueUnder field.1 b) :=
  fun field hfield => (h field hfield).imp (fun hall => ⟨hall a ha, hall b hb⟩)
    fun hall => ⟨hall a ha, hall b hb⟩

/-! ## An order up to ties -/

section

variable {α : Type} {cmp : α → α → Ordering} [Std.TransCmp cmp]

instance (direction : Value) : Std.TransCmp (inDirection direction cmp) := by
  unfold inDirection
  split
  · exact Std.TransCmp.opposite
  · infer_instance

theorem inDirection_eq (direction : Value) (a b : α) :
    inDirection direction cmp a b =
      if direction.equals (.int (-1)) then (cmp a b).swap else cmp a b := by
  unfold inDirection
  split
  · exact Std.OrientedCmp.eq_swap
  · rfl

end

instance (key : Value) : Std.TransCmp fun a b : Document =>
    Value.ordering (valueUnder key a) (valueUnder key b) where
  eq_swap {a b} := Std.OrientedCmp.eq_swap (a := valueUnder key a) (b := valueUnder key b)
  isLE_trans {a b c} := Std.TransCmp.isLE_trans (a := valueUnder key a) (b := valueUnder key b)
    (c := valueUnder key c)

instance (fields : Fields) : Std.TransCmp (keyOrder fields) := by
  induction fields with
  | nil => exact { eq_swap := rfl, isLE_trans := fun _ _ => rfl }
  | cons field fields ih =>
    unfold keyOrder
    infer_instance

/-- One document goes before another where the keys put it first. -/
theorem goesBefore_eq {fields : Fields} {a b : Document}
    (h : ∀ field ∈ fields, Value.Comparable (valueUnder field.1 a) (valueUnder field.1 b)) :
    goesBefore fields a b = (keyOrder fields a b == .lt) := by
  induction fields with
  | nil => rfl
  | cons field fields ih =>
    obtain ⟨hfield, hfields⟩ := List.forall_mem_cons.mp h
    rw [goesBefore_cons, Value.isGreater_eq hfield, Value.isGreater_flip hfield, ih hfields]
    simp only [keyOrder, compareLex, inDirection_eq, isDescending]
    cases Value.ordering (valueUnder field.1 a) (valueUnder field.1 b) <;>
      cases field.2.equals (.int (-1)) <;> rfl

/-- **Sorting documents** under keys that they all have comparable values of: the documents stand in
the order of the keys, and those tied on all keys as they were given. -/
theorem sorted_of_sortable (fields : Fields) (docs : List Document) (h : Sortable fields docs) :
    ∃ out, sorted (.object fields) docs = .ok out ∧ out.Perm docs ∧
      out.Pairwise (fun a b => keyOrder fields a b ≠ .gt) ∧
      ∀ doc ∈ docs, out.filter (fun other => keyOrder fields doc other == .eq) =
        docs.filter (fun other => keyOrder fields doc other == .eq) := by
  have hbefore : ∀ a ∈ docs, ∀ b ∈ docs, goesBefore fields a b = (keyOrder fields a b == .lt) :=
    fun a ha b hb => goesBefore_eq (h.comparable ha hb)
  obtain ⟨hperm, hordered, hstable⟩ := Sort.stablySorted_sort (Sort.WeakOrder.of_ordering hbefore)
  have hmem {doc : Document} (hdoc : doc ∈ Sort.sort (goesBefore fields) docs) : doc ∈ docs :=
    hperm.mem_iff.mp hdoc
  have htied : ∀ a ∈ docs, ∀ b ∈ docs,
      Sort.tied (goesBefore fields) a b = (keyOrder fields a b == .eq) := by
    intro a ha b hb
    unfold Sort.tied
    have hswap : keyOrder fields b a = (keyOrder fields a b).swap := Std.OrientedCmp.eq_swap
    rw [hbefore a ha b hb, hbefore b hb a ha, hswap]
    cases keyOrder fields a b <;> rfl
  refine ⟨_, rfl, hperm, ?_, fun doc hdoc => ?_⟩
  · refine hordered.imp_of_mem fun {a b} ha hb hnot => ?_
    rw [hbefore b (hmem hb) a (hmem ha), beq_eq_false_iff_ne] at hnot
    rwa [Ne, Std.OrientedCmp.gt_iff_lt]
  · have hcongr {out : List Document} (hout : ∀ other ∈ out, other ∈ docs) :
        out.filter (fun other => keyOrder fields doc other == .eq) =
          out.filter (Sort.tied (goesBefore fields) doc) :=
      List.filter_congr fun other hother => (htied doc hdoc other (hout other hother)).symm
    rw [hcongr fun _ => hmem, hcongr fun _ => id]
    exact hstable doc hdoc

/-- Numbers of three kinds in descending order, where two are tied by the text of another key. -/
theorem sorted_numbers_then_texts :
    let fields : Fields := [(.str "count", .int (-1)), (.str "name", .int 1)]
    let docs : List Document :=
      [[(.str "name", .str "b"), (.str "count", .bool true)],
        [(.str "count", .int 1), (.str "name", .str "a")],
        [(.str "name", .str "c"), (.str "count", .float (.infinite false))]]
    Sortable fields docs ∧ ∃ out, sorted (.object fields) docs = .ok out ∧ out.Perm docs ∧
      out.Pairwise (fun a b => keyOrder fields a b ≠ .gt) ∧
      ∀ doc ∈ docs, out.filter (fun other => keyOrder fields doc other == .eq) =
        docs.filter (fun other => keyOrder fields doc other == .eq) := by
  intro fields docs
  have hsortable : Sortable fields docs := by
    intro field hfield
    rcases List.mem_pair.mp hfield with rfl | rfl
    · exact .inl (by decide +kernel)
    · exact .inr (by decide +kernel)
  exact ⟨hsortable, sorted_of_sortable fields docs hsortable⟩

end SnapshotStore.Pipeline
