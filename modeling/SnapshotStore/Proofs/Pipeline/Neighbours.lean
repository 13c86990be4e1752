import SnapshotStore.Proofs.Pipeline.Sorted
import SnapshotStore.Proofs.Sort.Neighbours
import SnapshotStore.Proofs.Value.Relate

/-!
# Sorting without an order

Missing values, and values of kinds that do not compare, are tied with everything, so how documents
stand under sort keys is no order: two that are tied with a third need not be tied with each other.
What is left is that of two documents only one can stand behind the other, because of two values
only one can be greater (`standing_swap`).

**Theorem (`sorted_neighbours`).** Whatever JSON values documents have under the sort keys, sorting
gives them back in an order in which no document stands behind its successor, and sorting them once
more changes nothing.
-/

namespace SnapshotStore.Pipeline

/-- How two documents stand: the first sort field in which one has a greater value decides. -/
def standing : Fields → Document → Document → Ordering
  | [], _, _ => .eq
  | (key, direction) :: fields, a, b =>
    if (valueUnder key a).isGreater (valueUnder key b) then
      if isDescending direction then .lt else .gt
    else if (valueUnder key b).isGreater (valueUnder key a) then
      if isDescending direction then .gt else .lt
    else standing fields a b

/-- The sort asks whether one document stands in front of another. -/
theorem goesBefore_eq_standing (fields : Fields) (a b : Document) :
    goesBefore fields a b = (standing fields a b == .lt) := by
  induction fields with
  | nil => rfl
  | cons field fields ih =>
    obtain ⟨key, direction⟩ := field
    rw [goesBefore_cons, standing, ih]
    cases (valueUnder key a).isGreater (valueUnder key b) <;>
      cases (valueUnder key b).isGreater (valueUnder key a) <;>
      cases isDescending direction <;> rfl

variable {a b : Document}

theorem isJson_valueUnder (key : Value) (h : (Value.object a).isJson Number.isDefined = true) :
    (valueUnder key a).isJson Number.isDefined = true := by
  obtain ⟨entries, rfl, -, hall⟩ := Value.isJson_object h
  unfold valueUnder
  cases hget : Fields.get? (Fields.ofEntries entries) key with
  | none => rfl
  | some v =>
    obtain ⟨⟨k, w⟩, hfind, rfl⟩ := Option.map_eq_some_iff.mp hget
    obtain ⟨name, -, hmem⟩ := Fields.mem_ofEntries.mp (List.mem_of_find?_eq_some hfind)
    exact hall (name, w) hmem

/-- **Of two documents, one stands behind the other as the other stands in front of it.** -/
theorem standing_swap (fields : Fields) (ha : (Value.object a).isJson Number.isDefined = true)
    (hb : (Value.object b).isJson Number.isDefined = true) :
    standing fields b a = (standing fields a b).swap := by
  induction fields with
  | nil => rfl
  | cons field fields ih =>
    obtain ⟨key, direction⟩ := field
    have hasymm : (valueUnder key a).isGreater (valueUnder key b) = true →
        (valueUnder key b).isGreater (valueUnder key a) = false :=
      Value.isGreater_asymm (isJson_valueUnder key ha) (isJson_valueUnder key hb)
    rw [standing, standing, ih]
    cases hab : (valueUnder key a).isGreater (valueUnder key b) with
    | true => cases isDescending direction <;> simp [hasymm hab]
    | false =>
      cases hba : (valueUnder key b).isGreater (valueUnder key a) with
      | true => cases isDescending direction <;> simp
      | false => simp

theorem goesBefore_asymm {fields : Fields}
    (ha : (Value.object a).isJson Number.isDefined = true)
    (hb : (Value.object b).isJson Number.isDefined = true) (h : goesBefore fields a b = true) :
    goesBefore fields b a = false := by
  rw [goesBefore_eq_standing, beq_iff_eq] at h
  rw [goesBefore_eq_standing, standing_swap fields ha hb, h]
  rfl

/-- **Sorting documents of any JSON values**: they are all there, no neighbours contradict how they
stand, and sorting them once more changes nothing. -/
theorem sorted_neighbours (fields : Fields) (docs : List Document)
    (h : ∀ doc ∈ docs, (Value.object doc).isJson Number.isDefined = true) :
    ∃ out, sorted (.object fields) docs = .ok out ∧ out.Perm docs ∧
      out.IsChain (fun earlier later =>
        standing fields earlier later ≠ .gt ∧ goesBefore fields later earlier = false) ∧
      sorted (.object fields) out = .ok out := by
  have hasymm : ∀ a ∈ docs, ∀ b ∈ docs, goesBefore fields a b = true →
      goesBefore fields b a = false :=
    fun a ha b hb => goesBefore_asymm (h a ha) (h b hb)
  have hperm : (Sort.sort (goesBefore fields) docs).Perm docs := Sort.sort_perm _ _
  refine ⟨_, rfl, hperm, ?_, congrArg Except.ok (Sort.sort_sort hasymm)⟩
  refine (Sort.sort_isChain hasymm).imp_of_mem_imp fun a b ha hb hnot => ⟨fun hgt => ?_, hnot⟩
  rw [goesBefore_eq_standing, standing_swap fields (h a (hperm.mem_iff.mp ha))
    (h b (hperm.mem_iff.mp hb)), hgt] at hnot
  cases hnot

/-- Numbers, a text, a list, no value and null under a key, and lists under another. -/
theorem sorted_neighbours_mixed :
    let fields : Fields := [(.str "f", .int 1), (.str "g", .int (-1))]
    let docs : List Document :=
      [[(.str "f", .int 2), (.str "g", .list [.bool true, .null])], [],
        [(.str "f", .int 1), (.str "g", .list [.int 1, .str "x"])],
        [(.str "f", .null)], [(.str "f", .str "1")], [(.str "f", .float (.infinite true))],
        [(.str "f", .list [.object [(.str "k", .int 0)]])]]
    (∀ doc ∈ docs, (Value.object doc).isJson Number.isDefined = true) ∧
      ∃ out, sorted (.object fields) docs = .ok out ∧ out.Perm docs ∧
        out.IsChain (fun earlier later =>
          standing fields earlier later ≠ .gt ∧ goesBefore fields later earlier = false) ∧
        sorted (.object fields) out = .ok out := by
  intro fields docs
  have hjson : ∀ doc ∈ docs, (Value.object doc).isJson Number.isDefined = true := by
    decide +kernel
  exact ⟨hjson, sorted_neighbours fields docs hjson⟩

end SnapshotStore.Pipeline
