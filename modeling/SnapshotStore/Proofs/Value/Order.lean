import Mathlib.Data.List.Basic
import SnapshotStore.Value.Order

/-!
# When values are in order

Comparing values of any kinds is no order: a number is neither less nor greater than a text, and so
would be tied with all of them. Among numbers that have a place, and among texts, it is one. There
`Value.isGreater` decides by `Value.ordering`, which is a total order of all values up to ties:
texts by their code, everything else in front of them by place.
-/

namespace SnapshotStore

/-! ## Places -/

namespace Place

instance : Ord Place := ⟨compare⟩

instance : Std.TransOrd Place where
  eq_swap {p q} := by
    show p.compare q = (q.compare p).swap
    cases p <;> cases q <;> simp only [compare, Ordering.swap]
    exact Std.OrientedOrd.eq_swap
  isLE_trans {p q r} hpq hqr := by
    change (p.compare q).isLE at hpq
    change (q.compare r).isLE at hqr
    show (p.compare r).isLE
    cases p <;> cases q <;> cases r <;> simp_all only [compare, Ordering.isLE, reduceCtorEq]
    exact Std.TransOrd.isLE_trans hpq hqr

end Place

namespace Value

/-- The text that a value is. -/
def text? : Value → Option String
  | .str s => some s
  | _ => none

/-- Texts stand by code and behind everything else, numbers by place. -/
def ordering : Value → Value → Ordering := compareLex (compareOn text?) (compareOn place?)

instance : Std.TransCmp ordering := inferInstanceAs (Std.TransCmp (compareLex _ _))

/-- Both have a place on the number line, or both are texts. -/
def Comparable (v w : Value) : Prop :=
  (v.place?.isSome ∧ w.place?.isSome) ∨ (v.text?.isSome ∧ w.text?.isSome)

theorem Comparable.symm {v w : Value} (h : Comparable v w) : Comparable w v :=
  Or.imp And.symm And.symm h

theorem relate?_of_places {v w : Value} {p q : Place} (hv : v.place? = some p)
    (hw : w.place? = some q) : relate? v w = some (.ofOrdering (p.compare q)) := by
  have hnumbers : relateNumbers? v w = some (.ofOrdering (p.compare q)) := by
    simp only [relateNumbers?, hv, hw]
  cases v <;> simp only [place?, reduceCtorEq] at hv <;> exact hnumbers

theorem isGreater_of_places {v w : Value} {p q : Place} (hv : v.place? = some p)
    (hw : w.place? = some q) : v.isGreater w = (p.compare q == .gt) := by
  have hgreater : v.isGreater w = (relate? v w == some .greater) := by
    cases v <;> cases w <;> simp only [place?, reduceCtorEq] at hv hw <;> rfl
  rw [hgreater, relate?_of_places hv hw]
  cases p.compare q <;> rfl

theorem isGreater_of_texts (s t : String) :
    (Value.str s).isGreater (.str t) = (compare s t == .gt) := by
  have hgreater : (Value.str s).isGreater (.str t) =
      (some (Relation.ofOrdering (compare s t)) == some .greater) := by
    simp only [isGreater, relate?]
  rw [hgreater]
  cases compare s t <;> rfl

theorem text?_of_place {v : Value} {p : Place} (h : v.place? = some p) : v.text? = none := by
  cases v <;> first | rfl | cases h

theorem Comparable.trans {u v w : Value} (h : Comparable u v) (h' : Comparable v w) :
    Comparable u w := by
  rcases h with ⟨hu, hv⟩ | ⟨hu, hv⟩ <;> rcases h' with ⟨hv', hw⟩ | ⟨hv', hw⟩
  · exact .inl ⟨hu, hw⟩
  · obtain ⟨p, hp⟩ := Option.isSome_iff_exists.mp hv
    rw [text?_of_place hp] at hv'
    cases hv'
  · obtain ⟨p, hp⟩ := Option.isSome_iff_exists.mp hv'
    rw [text?_of_place hp] at hv
    cases hv
  · exact .inr ⟨hu, hw⟩

/-- Comparable values stand to each other as they are ordered. -/
theorem Comparable.relate?_eq {v w : Value} (h : Comparable v w) :
    relate? v w = some (.ofOrdering (ordering v w)) := by
  rcases h with ⟨hv, hw⟩ | ⟨hv, hw⟩
  · obtain ⟨p, hv⟩ := Option.isSome_iff_exists.mp hv
    obtain ⟨q, hw⟩ := Option.isSome_iff_exists.mp hw
    rw [relate?_of_places hv hw]
    simp only [ordering, compareLex, compareOn, text?_of_place hv, text?_of_place hw, hv, hw]
    rfl
  · obtain ⟨s, hv⟩ := Option.isSome_iff_exists.mp hv
    obtain ⟨t, hw⟩ := Option.isSome_iff_exists.mp hw
    cases v <;> cases hv
    cases w <;> cases hw
    show _ = some (Relation.ofOrdering ((compare s t).then .eq))
    rw [Ordering.then_eq, relate?]

theorem Comparable.ne_null {v w : Value} (h : Comparable v w) : v ≠ .null := by
  rintro rfl
  rcases h with ⟨h, -⟩ | ⟨h, -⟩ <;> cases h

/-- Comparable values compare as greater where they stand so. -/
theorem isGreater_eq {v w : Value} (h : Comparable v w) :
    v.isGreater w = (ordering v w == .gt) := by
  have hgreater : v.isGreater w = (relate? v w == some .greater) := by
    cases v <;> cases w <;>
      first | rfl | exact absurd rfl h.ne_null | exact absurd rfl h.symm.ne_null
  rw [hgreater, h.relate?_eq]
  cases ordering v w <;> rfl

/-- Comparable values compare as greater the other way round where they stand in order. -/
theorem isGreater_flip {v w : Value} (h : Comparable v w) :
    w.isGreater v = (ordering v w == .lt) := by
  have hswap : ordering w v = (ordering v w).swap := Std.OrientedCmp.eq_swap
  rw [isGreater_eq h.symm, hswap]
  cases ordering v w <;> rfl

end Value

end SnapshotStore
