import SnapshotStore.Proofs.Pipeline.Neighbours
import SnapshotStore.Proofs.Query.Comparison
import SnapshotStore.Proofs.Value.Equivalence
import SnapshotStore.Proofs.Value.Transitive

/-!
# Thresholds

**Theorem (`exceeds_strict_order`).** Among JSON values without undefined numbers, being greater is
a strict order. The operators of comparison go by it, one way and the other, and so does the sort.
Hence what is above a threshold is above every other one that the threshold itself is above or equal
to.

Numbers stand in it by their places and texts by their codes, and lists by the first members that
are not alike (`Value.Leads`). Of two thresholds that are equal, what is above one is above the
other because values that agree are alike (`Value.alike_of_agrees`), and what is alike compares
alike.
-/

namespace SnapshotStore

/-! ## Operators and the sort -/

namespace Operator

variable {argument : Value}

/-- The operator for greater values asks whether what is stored is greater. -/
theorem holds_greater (stored : Option Value)
    (hs : (stored.getD .null).isJson Number.isDefined = true)
    (ha : argument.isJson Number.isDefined = true) :
    greater.holds stored argument = .ok ((stored.getD .null).isGreater argument) := by
  simp only [holds, relate?_of_isJson stored hs ha]
  rw [Except.ok.injEq, Bool.eq_iff_iff, beq_iff_eq, Value.isGreater_iff_relate? hs]

/-- The operator for lesser values asks whether the argument is greater. -/
theorem holds_less (stored : Option Value)
    (hs : (stored.getD .null).isJson Number.isDefined = true)
    (ha : argument.isJson Number.isDefined = true) :
    less.holds stored argument = .ok (argument.isGreater (stored.getD .null)) := by
  simp only [holds, relate?_of_isJson stored hs ha]
  rw [Except.ok.injEq, Bool.eq_iff_iff, beq_iff_eq, Value.isGreater_iff_relate? ha,
    Value.relate?_swap hs argument ha]
  rcases (stored.getD .null).relate? argument with _ | _ | _ | _ | _ <;> decide

end Operator

/-- Under one key, a document goes before another that has a greater value, or a smaller one if the
order is descending. -/
theorem Pipeline.goesBefore_singleton {key : Value} {a b : Document}
    (ha : (valueUnder key a).isJson Number.isDefined = true)
    (hb : (valueUnder key b).isJson Number.isDefined = true) (direction : Value) :
    goesBefore [(key, direction)] a b =
      if isDescending direction then (valueUnder key a).isGreater (valueUnder key b)
      else (valueUnder key b).isGreater (valueUnder key a) := by
  have hasymm := Value.isGreater_asymm ha hb
  rw [goesBefore_cons, goesBefore]
  cases hab : (valueUnder key a).isGreater (valueUnder key b) with
  | true => cases isDescending direction <;> simp [hasymm hab]
  | false =>
    cases (valueUnder key b).isGreater (valueUnder key a) <;> cases isDescending direction <;> rfl

namespace DefinedValue

/-! ## The order -/

/-- The first is greater than the second. -/
def Exceeds (a b : DefinedValue) : Prop := a.value.isGreater b.value = true

theorem exceeds_list_iff (items others : List DefinedValue) :
    Exceeds (list items) (list others) ↔ Value.Leads (items.map value) (others.map value) :=
  Value.isGreater_list_iff (List.forall_mem_map.mpr fun v _ => v.isDefined)
    (List.forall_mem_map.mpr fun v _ => v.isDefined)

theorem exceeds_iff_ordering {a b : DefinedValue} (h : a.value.Comparable b.value) :
    Exceeds a b ↔ a.value.ordering b.value = .gt := by
  rw [Exceeds, Value.isGreater_eq h, beq_iff_eq]

/-- What exceeds a value exceeds all that this value exceeds or agrees with. -/
theorem Exceeds.of_threshold {v a b : DefinedValue} (h : Exceeds v a)
    (hthreshold : Exceeds a b ∨ Agrees a b) : Exceeds v b := by
  rcases hthreshold with hexceeds | hagrees
  · exact Value.isGreater_trans v.isDefined a.value b.value a.isDefined b.isDefined h hexceeds
  · have halike := Value.alike_of_agrees a.isDefined b.value b.isDefined hagrees
    exact Value.isGreater_of_alike_right v.isDefined a.isDefined b.isDefined h halike

instance : IsStrictOrder DefinedValue Exceeds where
  irrefl v := Value.not_isGreater_self v.isDefined
  trans _ _ _ h h' := h.of_threshold (.inl h')

open Query Pipeline

/-- **Being greater is a strict order.** The operators of comparison and the sort go by it, and
thresholds are monotone in it. -/
theorem exceeds_strict_order :
    (IsStrictOrder DefinedValue Exceeds ∧ Std.Asymm Exceeds) ∧
    (∀ a b : DefinedValue, a.value.Comparable b.value →
      (Exceeds a b ↔ a.value.ordering b.value = .gt)) ∧
    (∀ items others, Exceeds (list items) (list others) ↔
      Value.Leads (items.map value) (others.map value)) ∧
    (∀ (name : String) (doc : Document) (stored : DefinedValue), Value.isDollar name = false →
      valueUnder (.str name) doc = stored.value → ∀ strict : Bool,
        (∀ asked : DefinedValue,
          satisfied strict (ofOperator name .greater asked.value) doc =
            .ok (stored.value.isGreater asked.value) ∧
          satisfied strict (ofOperator name .less asked.value) doc =
            .ok (asked.value.isGreater stored.value)) ∧
        ∀ a b : DefinedValue,
          satisfied strict (ofOperator name .greater a.value) doc = .ok true →
          Exceeds a b ∨ Operator.equal.holds (some a.value) b.value = .ok true →
          satisfied strict (ofOperator name .greater b.value) doc = .ok true) ∧
    ∀ (key direction : Value) (first second : Document) (v w : DefinedValue),
      valueUnder key first = v.value → valueUnder key second = w.value →
        goesBefore [(key, direction)] first second =
          if isDescending direction then v.value.isGreater w.value
          else w.value.isGreater v.value := by
  refine ⟨⟨inferInstance, inferInstance⟩, fun a b => exceeds_iff_ordering, exceeds_list_iff,
    fun name doc stored hname hstored strict => ?_,
    fun key direction first second v w hv hw => ?_⟩
  · change (Fields.getText? doc name).getD .null = stored.value at hstored
    have hjson : ((Fields.getText? doc name).getD .null).isJson Number.isDefined = true :=
      hstored ▸ stored.isDefined
    have hgreater (asked : DefinedValue) :
        satisfied strict (ofOperator name .greater asked.value) doc =
          .ok (stored.value.isGreater asked.value) := by
      rw [ofOperator, satisfied_operator hname, Operator.holds_greater _ hjson asked.isDefined,
        hstored]
    refine ⟨fun asked => ⟨hgreater asked, ?_⟩, fun a b h hthreshold => ?_⟩
    · rw [ofOperator, satisfied_operator hname, Operator.holds_less _ hjson asked.isDefined,
        hstored]
    · rw [hgreater, Except.ok.injEq] at h ⊢
      exact Exceeds.of_threshold h (hthreshold.imp_right Except.ok.inj)
  · rw [← hv, ← hw]
    exact goesBefore_singleton (hv ▸ v.isDefined) (hw ▸ w.isDefined) direction

/-- A list of three: a list, an object, and what comes last. -/
def threefold (items : List DefinedValue) (field last : DefinedValue) : DefinedValue :=
  list [list items, object [("a", field), ("b", ⟨.null, rfl⟩)] (by simp), last]

/-- The value is above a threshold that it parts from in an inner list. So it is above the same
threshold with negative zeros for zeros, and above one that parts from the first only at its end.
Documents with these values are sorted so in descending order. -/
theorem exceeds_strict_order_threefold :
    let zero : DefinedValue := ⟨.int 0, rfl⟩
    let negative : DefinedValue := ⟨.float (.zero true), rfl⟩
    let no : DefinedValue := ⟨.bool false, rfl⟩
    let text (s : String) : DefinedValue := ⟨.str s, rfl⟩
    let stored := threefold [no, text "b"] negative no
    let first := threefold [zero, text "a"] zero (text "c")
    let same := threefold [negative, text "a"] negative (text "c")
    let second := threefold [negative, text "a"] no (text "b")
    let doc (v : DefinedValue) : Document := [(.str "f", v.value)]
    satisfied true (ofOperator "f" .greater first.value) (doc stored) = .ok true ∧
      satisfied true (ofOperator "f" .greater same.value) (doc stored) = .ok true ∧
      satisfied true (ofOperator "f" .greater second.value) (doc stored) = .ok true ∧
      satisfied true (ofOperator "f" .less stored.value) (doc second) = .ok true ∧
      goesBefore [(.str "f", .int (-1))] (doc stored) (doc second) = true := by
  intro zero negative no text stored first same second doc
  obtain ⟨⟨horder, -⟩, hcomparable, hlists, hoperators, hsort⟩ := exceeds_strict_order
  have hunder (v : DefinedValue) : valueUnder (.str "f") (doc v) = v.value :=
    congrArg (fun held : Option Value => held.getD .null) (Fields.getText?_cons_self "f" v.value [])
  obtain ⟨hask, habove⟩ := hoperators "f" (doc stored) stored (by decide) (hunder stored) true
  have hfirst : Exceeds stored first := by
    have htexts : Exceeds (text "b") (text "a") :=
      (hcomparable _ _ (.inr ⟨rfl, rfl⟩)).mpr (by decide +kernel)
    have hinner : Exceeds (list [no, text "b"]) (list [zero, text "a"]) :=
      (hlists _ _).mpr (.later (by decide +kernel) (.here [] [] htexts))
    exact (hlists _ _).mpr (.here _ _ hinner)
  have hsecond : Exceeds first second := by
    have htexts : Exceeds (text "c") (text "b") :=
      (hcomparable _ _ (.inr ⟨rfl, rfl⟩)).mpr (by decide +kernel)
    exact (hlists _ _).mpr
      (.later (by decide +kernel) (.later (by decide +kernel) (.here [] [] htexts)))
  have hsame : Operator.equal.holds (some first.value) same.value = .ok true := by
    decide +kernel
  have hthrough : Exceeds stored second := horder.trans _ _ _ hfirst hsecond
  have hasked : satisfied true (ofOperator "f" .greater first.value) (doc stored) = .ok true :=
    (hask first).1.trans (congrArg Except.ok hfirst)
  refine ⟨hasked, habove first same hasked (.inr hsame),
    habove first second hasked (.inl hsecond), ?_, ?_⟩
  · obtain ⟨hask', -⟩ := hoperators "f" (doc second) second (by decide) (hunder second) true
    exact (hask' stored).2.trans (congrArg Except.ok hthrough)
  · rw [hsort _ _ _ _ stored second (hunder stored) (hunder second), if_pos (by decide +kernel)]
    exact hthrough

end DefinedValue

end SnapshotStore
