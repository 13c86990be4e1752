import SnapshotStore.Proofs.Value.Alike
import SnapshotStore.Proofs.Value.Order

/-!
# Comparing the other way round

**Theorem (`relate?_swap`).** Among JSON values without undefined numbers, the second compares with
the first as the first does with the second, turned round; and if they do not compare one way, they
do not the other.

Lists compare at their first members that are not alike, so they do it at the same members both ways
because being alike is symmetric.
-/

namespace SnapshotStore

namespace Relation

/-- The relation seen from the other side. -/
def swap : Relation → Relation
  | less => greater
  | equal => equal
  | greater => less
  | unordered => unordered

@[simp] theorem swap_swap (r : Relation) : r.swap.swap = r := by
  cases r <;> rfl

theorem swap_ofOrdering (o : Ordering) : (ofOrdering o).swap = ofOrdering o.swap := by
  cases o <;> rfl

end Relation

namespace Value

/-! ## Numbers -/

/-- What has no place on the number line is a value of another kind, if it is no undefined
number. -/
theorem kind_of_no_place {v : Value} (h : v.isJson Number.isDefined = true)
    (hplace : v.place? = none) :
    v = .null ∨ (∃ s, v = .str s) ∨ (∃ items, v = .list items) ∨ ∃ fields, v = .object fields := by
  cases v with
  | float x =>
    obtain ⟨p, hp⟩ := exists_place h
    rw [hp] at hplace
    cases hplace
  | _ => simp_all [isJson, place?]

theorem relate?_of_place {v : Value} {p : Place} (hv : v.place? = some p) (w : Value) :
    relate? v w = relateNumbers? v w := by
  cases v <;> simp only [place?, reduceCtorEq] at hv <;> simp only [relate?]

/-- Numbers compare with nothing else. -/
theorem relate?_of_no_place {v w : Value} {p : Place} (hv : v.place? = some p)
    (hw : w.isJson Number.isDefined = true) (hplace : w.place? = none) :
    relate? v w = none ∧ relate? w v = none := by
  have hkind := kind_of_no_place hw hplace
  constructor
  · have htag : w.undefinedTag? = none := by
      rcases hkind with rfl | ⟨s, rfl⟩ | ⟨items, rfl⟩ | ⟨fields, rfl⟩ <;> rfl
    rw [relate?_of_place hv, relateNumbers?, hv, hplace, htag]
    rfl
  · cases v <;> simp only [place?, reduceCtorEq] at hv <;>
      rcases hkind with rfl | ⟨s, rfl⟩ | ⟨items, rfl⟩ | ⟨fields, rfl⟩ <;>
      simp only [relate?]

theorem relate?_swap_of_place {v w : Value} {p : Place} (hv : v.place? = some p)
    (hw : w.isJson Number.isDefined = true) :
    relate? w v = (relate? v w).map Relation.swap := by
  cases hplace : w.place? with
  | some q =>
    have hswap : q.compare p = (p.compare q).swap := Std.OrientedOrd.eq_swap (a := q) (b := p)
    rw [relate?_of_places hv hplace, relate?_of_places hplace hv, Option.map_some,
      Relation.swap_ofOrdering, hswap]
  | none =>
    obtain ⟨hnone, hnone'⟩ := relate?_of_no_place hv hw hplace
    rw [hnone, hnone', Option.map_none]

theorem relate?_swap_of_place_right {v w : Value} {p : Place}
    (hv : v.isJson Number.isDefined = true) (hw : w.place? = some p) :
    relate? w v = (relate? v w).map Relation.swap := by
  have hswap : Relation.swap ∘ Relation.swap = id := funext Relation.swap_swap
  rw [relate?_swap_of_place hw hv, Option.map_map, hswap, Option.map_id, id_eq]

/-! ## Nested values -/

theorem relateAll?_swap {xs ys : List Value}
    (hxs : ∀ x ∈ xs, x.isJson Number.isDefined = true)
    (hys : ∀ y ∈ ys, y.isJson Number.isDefined = true)
    (h : ∀ x ∈ xs, ∀ y ∈ ys, relate? y x = (relate? x y).map Relation.swap) :
    relateAll? ys xs = (relateAll? xs ys).map Relation.swap := by
  induction xs generalizing ys with
  | nil => cases ys <;> simp [relateAll?, Relation.swap]
  | cons x xs ih =>
    cases ys with
    | nil => simp [relateAll?, Relation.swap]
    | cons y ys =>
      rw [List.forall_mem_cons] at hxs hys
      rw [relateAll?, relateAll?, alike_comm hys.1 hxs.1]
      split_ifs
      · exact ih hxs.2 hys.2 fun z hz w hw =>
          h z (List.mem_cons_of_mem _ hz) w (List.mem_cons_of_mem _ hw)
      · exact h x (List.mem_cons_self ..) y (List.mem_cons_self ..)

/-- **The second compares with the first as the first does with the second, turned round.** -/
theorem relate?_swap {a : Value} (ha : a.isJson Number.isDefined = true) :
    ∀ b : Value, b.isJson Number.isDefined = true →
      relate? b a = (relate? a b).map Relation.swap := by
  induction a, ha using isJson_induction with
  | bool x => exact fun b hb => relate?_swap_of_place rfl hb
  | int n h => exact fun b hb => relate?_swap_of_place rfl hb
  | float x h =>
    obtain ⟨p, hp⟩ := exists_place h
    exact fun b hb => relate?_swap_of_place hp hb
  | null =>
    intro b hb
    cases hplace : b.place? with
    | some p => exact relate?_swap_of_place_right rfl hplace
    | none =>
      rcases kind_of_no_place hb hplace with rfl | ⟨s, rfl⟩ | ⟨items, rfl⟩ | ⟨fields, rfl⟩ <;>
        simp [relate?]
  | str s =>
    intro b hb
    cases hplace : b.place? with
    | some p => exact relate?_swap_of_place_right rfl hplace
    | none =>
      rcases kind_of_no_place hb hplace with rfl | ⟨t, rfl⟩ | ⟨items, rfl⟩ | ⟨fields, rfl⟩
      · simp [relate?]
      · have hswap : compare t s = (compare s t).swap := Std.OrientedOrd.eq_swap
        rw [relate?, relate?, Option.map_some, Relation.swap_ofOrdering, hswap]
      · simp [relate?]
      · simp [relate?]
  | list items hall ih =>
    intro b hb
    cases hplace : b.place? with
    | some p => exact relate?_swap_of_place_right (isJson_list.mpr hall) hplace
    | none =>
      rcases kind_of_no_place hb hplace with rfl | ⟨t, rfl⟩ | ⟨others, rfl⟩ | ⟨fields, rfl⟩
      · simp [relate?]
      · simp [relate?]
      · rw [isJson_list] at hb
        rw [relate?, relate?]
        exact relateAll?_swap hall hb fun x hx y hy => ih x hx y (hb y hy)
      · simp [relate?]
  | object entries hkeys hall ih =>
    intro b hb
    cases hplace : b.place? with
    | some p => exact relate?_swap_of_place_right (isJson_ofEntries.mpr ⟨hkeys, hall⟩) hplace
    | none =>
      rcases kind_of_no_place hb hplace with rfl | ⟨t, rfl⟩ | ⟨others, rfl⟩ | ⟨fields, rfl⟩ <;>
        simp [relate?]

theorem isGreater_iff {a b : Value} :
    a.isGreater b = true ↔ a ≠ .null ∧ b ≠ .null ∧ relate? a b = some .greater := by
  unfold isGreater
  split <;> simp_all

/-! ## Null -/

theorem relate?_null_left (v : Value) : relate? .null v = none := by
  cases v <;> simp only [relate?]

theorem relate?_null_right {v : Value} (hv : v.isJson Number.isDefined = true) :
    relate? v .null = none := by
  rw [relate?_swap rfl v hv, relate?_null_left, Option.map_none]

/-- Null need not be told apart, as it compares with nothing. -/
theorem isGreater_iff_relate? {a b : Value} (ha : a.isJson Number.isDefined = true) :
    a.isGreater b = true ↔ relate? a b = some .greater := by
  refine isGreater_iff.trans ⟨fun h => h.2.2, fun h => ⟨?_, ?_, h⟩⟩
  · rintro rfl
    rw [relate?_null_left] at h
    cases h
  · rintro rfl
    rw [relate?_null_right ha] at h
    cases h

/-- Of two values at most one is greater. -/
theorem isGreater_asymm {a b : Value} (ha : a.isJson Number.isDefined = true)
    (hb : b.isJson Number.isDefined = true) (h : a.isGreater b = true) : b.isGreater a = false := by
  obtain ⟨hne, hne', hrelate⟩ := isGreater_iff.mp h
  refine Bool.eq_false_iff.mpr fun hgreater => ?_
  obtain ⟨-, -, hrelate'⟩ := isGreater_iff.mp hgreater
  rw [relate?_swap ha b hb, hrelate] at hrelate'
  cases hrelate'

end Value

end SnapshotStore
