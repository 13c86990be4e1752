import SnapshotStore.Proofs.Query.Times
import SnapshotStore.Proofs.Value.Relate

/-!
# Comparing and agreeing

Operators of comparison go by `Value.relate?`, which finds its way through lists by being alike.
The operator of equality goes by agreement.

**Theorem (`compared_as_equal`).** Of two JSON values without booleans and undefined numbers, which
are neither null nor objects themselves, one is less than or equal to the other exactly when it is
less or equal, likewise for greater, and of less, equal and greater at most one holds. If both are
numbers, or both are texts, one of them does.

Agreement keeps booleans apart from numbers, and that is all that it has over being alike, so
without booleans the two are the same. Values that compare as equal are alike, whatever their kinds
(`alike_of_relate?`): lists do so only where no pair of members differs, since a pair that does, by
the induction, does not compare as equal. The other way round, null and objects are alike to
themselves and compare with nothing, but in a list members that are alike are passed over
(`relate?_of_alike`).
-/

namespace SnapshotStore

theorem Relation.ofOrdering_eq_equal {o : Ordering} : ofOrdering o = equal ↔ o = .eq := by
  cases o <;> simp [ofOrdering]

theorem Place.compare_eq_iff {p q : Place} : p.compare q = .eq ↔ p = q := by
  cases p <;> cases q <;> simp [compare]

/-! ## Values without booleans -/

namespace Value

mutual

/-- There is no boolean in the value, neither in lists nor in objects. -/
def booleanFree : Value → Bool
  | .bool _ => false
  | .list items => booleanFreeAll items
  | .object fields => booleanFreeFields fields
  | _ => true

/-- There is no boolean in any of the values. -/
def booleanFreeAll : List Value → Bool
  | [] => true
  | v :: vs => booleanFree v && booleanFreeAll vs

/-- There is no boolean in the value of any field. -/
def booleanFreeFields : Fields → Bool
  | [] => true
  | (_, v) :: fields => booleanFree v && booleanFreeFields fields

end

mutual

theorem numeric_of_booleanFree {v : Value} (h : v.booleanFree = true) : numeric v = v := by
  cases v with
  | bool b => cases h
  | list items => rw [numeric, numericAll_of_booleanFree h]
  | object fields => rw [numeric, numericFields_of_booleanFree h]
  | _ => rfl

theorem numericAll_of_booleanFree : ∀ {vs : List Value}, booleanFreeAll vs = true →
    numericAll vs = vs
  | [], _ => rfl
  | v :: vs, h => by
    rw [booleanFreeAll, Bool.and_eq_true_iff] at h
    rw [numericAll, numeric_of_booleanFree h.1, numericAll_of_booleanFree h.2]

theorem numericFields_of_booleanFree : ∀ {fields : Fields}, booleanFreeFields fields = true →
    numericFields fields = fields
  | [], _ => rfl
  | (k, v) :: fields, h => by
    rw [booleanFreeFields, Bool.and_eq_true_iff] at h
    rw [numericFields, numeric_of_booleanFree h.1, numericFields_of_booleanFree h.2]

end

variable {a b : Value}

/-- **Without booleans, values agree as they are alike.** -/
theorem agrees_eq_alike (ha : a.isJson Number.isDefined = true)
    (hb : b.isJson Number.isDefined = true) (hfree : a.booleanFree = true)
    (hfree' : b.booleanFree = true) : a.agrees b = a.alike b := by
  rw [alike_eq_agrees ha b hb, numeric_of_booleanFree hfree, numeric_of_booleanFree hfree']

/-! ## Comparing as equal -/

theorem relate?_eq_equal_of_places {p q : Place} (ha : a.place? = some p) (hb : b.place? = some q) :
    relate? a b = some .equal ↔ a.alike b = true := by
  rw [relate?_of_places ha hb, Option.some_inj, Relation.ofOrdering_eq_equal, Place.compare_eq_iff,
    alike_eq_alikeNumbers ha, alikeNumbers, ha, hb]
  exact beq_iff_eq.symm

/-- What compares with a number as equal is alike to it. -/
theorem alike_of_relate?_of_place {p : Place} (ha : a.place? = some p)
    (hb : b.isJson Number.isDefined = true) (h : relate? a b = some .equal) :
    a.alike b = true := by
  cases hplace : b.place? with
  | some q => exact (relate?_eq_equal_of_places ha hplace).mp h
  | none =>
    rw [(relate?_of_no_place ha hb hplace).1] at h
    cases h

/-- Lists compare as equal at the members that are alike. -/
theorem relateAll?_eq_equal {xs ys : List Value}
    (h : ∀ x ∈ xs, ∀ y ∈ ys, relate? x y = some .equal → x.alike y = true) :
    relateAll? xs ys = some .equal ↔ alikeAll xs ys = true := by
  induction xs generalizing ys with
  | nil => cases ys <;> simp [relateAll?, alikeAll]
  | cons x xs ih =>
    cases ys with
    | nil => simp [relateAll?, alikeAll]
    | cons y ys =>
      rw [relateAll?, alikeAll, Bool.and_eq_true_iff]
      split_ifs with halike
      · rw [ih fun z hz w hw => h z (List.mem_cons_of_mem _ hz) w (List.mem_cons_of_mem _ hw)]
        exact (and_iff_right halike).symm
      · exact iff_of_false
          (fun hequal => halike (h x List.mem_cons_self y List.mem_cons_self hequal))
          (fun hboth => halike hboth.1)

/-- **Values that compare as equal are alike.** -/
theorem alike_of_relate? (ha : a.isJson Number.isDefined = true) :
    ∀ b : Value, b.isJson Number.isDefined = true → relate? a b = some .equal →
      a.alike b = true := by
  induction a, ha using isJson_induction with
  | bool x => exact fun b hb => alike_of_relate?_of_place rfl hb
  | int n h => exact fun b hb => alike_of_relate?_of_place rfl hb
  | float x h =>
    obtain ⟨p, hp⟩ := exists_place h
    exact fun b hb => alike_of_relate?_of_place hp hb
  | str s =>
    intro b _ hequal
    cases b with
    | str t =>
      rw [relate?, Option.some_inj, Relation.ofOrdering_eq_equal, compare_eq_iff_eq] at hequal
      rw [hequal, alike, beq_self_eq_true]
    | _ => simp [relate?] at hequal
  | list items hall ih =>
    intro b hb hequal
    cases b with
    | list others =>
      rw [isJson_list] at hb
      rw [relate?, relateAll?_eq_equal fun x hx y hy => ih x hx y (hb y hy)] at hequal
      rw [alike, hequal]
    | _ => simp [relate?] at hequal
  | null | object entries =>
    intro b _ hequal
    simp [relate?] at hequal

/-- A JSON value without booleans and undefined numbers that is neither null nor an object, which
compare with nothing. -/
structure Orderable (v : Value) : Prop where
  json : v.isJson Number.isDefined = true
  booleanFree : v.booleanFree = true
  ne_null : v ≠ .null
  ne_object : ∀ fields, v ≠ .object fields

/-- **Values that are alike compare as equal**, if the first is neither null nor an object. -/
theorem relate?_of_alike (ha : a.Orderable) (hb : b.isJson Number.isDefined = true)
    (h : a.alike b = true) : relate? a b = some .equal := by
  cases hplace : a.place? with
  | some p =>
    cases hplace' : b.place? with
    | some q => exact (relate?_eq_equal_of_places hplace hplace').mpr h
    | none =>
      rw [alike_eq_alikeNumbers hplace, alikeNumbers, hplace, hplace'] at h
      cases h
  | none =>
    rcases kind_of_no_place ha.json hplace with rfl | ⟨s, rfl⟩ | ⟨items, rfl⟩ | ⟨fields, rfl⟩
    · exact absurd rfl ha.ne_null
    · cases b with
      | str t =>
        rw [alike, beq_iff_eq] at h
        rw [h, relate?, Std.ReflOrd.compare_self, Relation.ofOrdering]
      | _ => simp [alike] at h
    · cases b with
      | list others =>
        have hmembers := isJson_list.mp ha.json
        rw [isJson_list] at hb
        rw [alike] at h
        have hequal := relateAll?_eq_equal fun x hx y hy =>
          alike_of_relate? (hmembers x hx) y (hb y hy)
        rw [relate?, hequal]
        exact h
      | _ => simp [alike] at h
    · exact absurd rfl (ha.ne_object fields)

/-- **Orderable values agree exactly when they compare as equal.** -/
theorem Orderable.relate?_eq_equal_iff (ha : a.Orderable) (hb : b.Orderable) :
    relate? a b = some .equal ↔ a.agrees b = true := by
  rw [agrees_eq_alike ha.json hb.json ha.booleanFree hb.booleanFree]
  exact ⟨alike_of_relate? ha.json b hb.json, relate?_of_alike ha hb.json⟩

/-- Numbers and texts compare among themselves. -/
theorem Comparable.exists_relate? (h : Comparable a b) :
    ∃ o, relate? a b = some (.ofOrdering o) := by
  rcases h with ⟨ha, hb⟩ | ⟨ha, hb⟩
  · obtain ⟨p, hp⟩ := Option.isSome_iff_exists.mp ha
    obtain ⟨q, hq⟩ := Option.isSome_iff_exists.mp hb
    exact ⟨_, relate?_of_places hp hq⟩
  · obtain ⟨s, hs⟩ := Option.isSome_iff_exists.mp ha
    obtain ⟨t, ht⟩ := Option.isSome_iff_exists.mp hb
    cases a <;> cases hs
    cases b <;> cases ht
    exact ⟨_, by rw [relate?]⟩

end Value

/-! ## Operators -/

/-- JSON values compare as they are. What is missing compares like null: with nothing. -/
theorem Operator.relate?_of_isJson (stored : Option Value) {argument : Value}
    (hs : (stored.getD .null).isJson Number.isDefined = true)
    (ha : argument.isJson Number.isDefined = true) :
    relate? stored argument = (stored.getD .null).relate? argument := by
  cases stored with
  | none => exact (argument.relate?_null_left).symm
  | some v =>
    have haligned : aligned? v argument = some v := by
      cases v <;> cases argument <;> first | rfl | cases ha
    have hnull := Value.relate?_null_right hs
    rw [Option.getD_some] at hnull ⊢
    unfold relate?
    split <;> simp_all [Value.relate?_null_left]

theorem Operator.relate?_of_orderable {stored argument : Value} (hs : stored.Orderable)
    (ha : argument.Orderable) : relate? (some stored) argument = stored.relate? argument :=
  relate?_of_isJson (some stored) hs.json ha.json

namespace Query

/-- The query for one operator of a field. -/
def ofOperator (name : String) (op : Operator) (argument : Value) : Value :=
  .object [(.str name, .object [(.str op.name, argument)])]

variable {doc : Document} {name : String} {stored asked : Value}

/-- **The operators of comparison agree with the operator of equality.** -/
theorem compared_as_equal (hname : Value.isDollar name = false)
    (hheld : Fields.getText? doc name = some stored) (hstored : stored.Orderable)
    (hasked : asked.Orderable) (strict : Bool) :
    ∃ less equal greater : Bool,
      satisfied strict (ofOperator name .less asked) doc = .ok less ∧
      satisfied strict (ofOperator name .equal asked) doc = .ok equal ∧
      satisfied strict (ofOperator name .greater asked) doc = .ok greater ∧
      satisfied strict (ofOperator name .lessOrEqual asked) doc = .ok (less || equal) ∧
      satisfied strict (ofOperator name .greaterOrEqual asked) doc = .ok (greater || equal) ∧
      [less, equal, greater].count true ≤ 1 ∧
      (stored.Comparable asked → [less, equal, greater].count true = 1) := by
  have hholds (op : Operator) : satisfied strict (ofOperator name op asked) doc =
      op.holds (some stored) asked := by
    rw [ofOperator, satisfied_operator hname, hheld]
  have hrelate := Operator.relate?_of_orderable hstored hasked
  have hequal : stored.agrees asked = (stored.relate? asked == some .equal) := by
    rw [Bool.eq_iff_iff, beq_iff_eq, hstored.relate?_eq_equal_iff hasked]
  refine ⟨stored.relate? asked == some .less, stored.relate? asked == some .equal,
    stored.relate? asked == some .greater, ?_, ?_, ?_, ?_, ?_, ?_, fun hcomparable => ?_⟩
  · simp only [hholds, Operator.holds, hrelate]
  · simp only [hholds, Operator.holds, hequal]
  · simp only [hholds, Operator.holds, hrelate]
  · simp only [hholds, Operator.holds, hrelate]
  · simp only [hholds, Operator.holds, hrelate]
  · rcases stored.relate? asked with _ | _ | _ | _ | _ <;> decide
  · obtain ⟨o, ho⟩ := hcomparable.exists_relate?
    rw [ho]
    cases o <;> decide

/-- A list with two numbers, a null and an object in it. -/
def nestedList (first second : Value) : Value :=
  .list [.list [first, .null, .object [(.str "a", second)]], .str "x"]

/-- A list with a negative zero and an integer is less than or equal to the same one with an integer
and a negative zero, and not less: it is equal. -/
theorem compared_as_equal_nestedList :
    let stored := nestedList (.float (.zero true)) (.int 0)
    let asked := nestedList (.int 0) (.float (.zero true))
    stored.Orderable ∧ asked.Orderable ∧
      satisfied true (ofOperator "f" .lessOrEqual asked) [(.str "f", stored)] = .ok true ∧
      satisfied true (ofOperator "f" .less asked) [(.str "f", stored)] = .ok false := by
  intro stored asked
  have hstored : stored.Orderable :=
    ⟨by decide, by decide, by simp [stored, nestedList], by simp [stored, nestedList]⟩
  have hasked : asked.Orderable :=
    ⟨by decide, by decide, by simp [asked, nestedList], by simp [asked, nestedList]⟩
  obtain ⟨less, equal, greater, hless, hequal, -, hlessOrEqual, -, hcount, -⟩ :=
    compared_as_equal (by decide) (Fields.getText?_cons_self "f" stored []) hstored hasked true
  have hagrees : satisfied true (ofOperator "f" .equal asked) [(.str "f", stored)] = .ok true := by
    decide +kernel
  obtain rfl : equal = true := Except.ok.inj (hequal.symm.trans hagrees)
  refine ⟨hstored, hasked, ?_, ?_⟩
  · rw [hlessOrEqual, Bool.or_true]
  · rw [hless]
    cases less <;> cases greater <;> first | rfl | exact absurd hcount (by decide)

end Query

end SnapshotStore
