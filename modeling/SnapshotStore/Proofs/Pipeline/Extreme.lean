import SnapshotStore.Proofs.Pipeline.Chronological

/-!
# Extremes among values of several kinds

**Theorem (`extremes_of_leading_kind`).** Where a group holds nulls, booleans, numbers that are not
undefined, texts and objects in a field, the kind of the first value that is not null decides. The
accumulators of the least and the greatest value give the first of the least, or of the greatest,
among the values of this kind, booleans counting as numbers and values of all other kinds being
passed over. An object that comes first is kept, and where there is nothing but nulls the result is
null.

`Picks` says this of a list of values. One more value changes what is picked just as the accumulator
replaces the value kept (`Picks.concat`): it is compared only with values of its own kind, and there
the order is total. By induction this holds of all values of a group (`picks_foldl`).
-/

namespace SnapshotStore

/-! ## Kinds -/

namespace Value

instance : DecidableRel Comparable := fun v w =>
  inferInstanceAs (Decidable ((v.place?.isSome ∧ w.place?.isSome) ∨
    (v.text?.isSome ∧ w.text?.isSome)))

/-- A boolean, a number that is not undefined, or a text. -/
def IsRanked (v : Value) : Prop := v.place?.isSome ∨ v.text?.isSome

/-- Null, an object, or a value that is ranked. -/
def HasKind (v : Value) : Prop := v = .null ∨ (∃ fields, v = .object fields) ∨ v.IsRanked

theorem IsRanked.comparable_self {v : Value} (h : v.IsRanked) : Comparable v v :=
  h.imp (fun h => ⟨h, h⟩) fun h => ⟨h, h⟩

theorem Comparable.isRanked {v w : Value} (h : Comparable v w) : v.IsRanked :=
  h.imp And.left And.left

theorem IsRanked.ne_null {v : Value} (h : v.IsRanked) : v ≠ .null := h.comparable_self.ne_null

/-- Values of different kinds do not compare. -/
theorem relate?_eq_none {v w : Value} (hv : v.HasKind) (hw : w.HasKind)
    (h : ¬ Comparable v w) : v.relate? w = none := by
  rcases hv with rfl | ⟨fields, rfl⟩ | hplace | htext
  · simp only [relate?]
  · simp only [relate?]
  · have hw' : w.place? = none ∧ w.undefinedTag? = none := by
      rcases hw with rfl | ⟨fields, rfl⟩ | hplace' | htext'
      · exact ⟨rfl, rfl⟩
      · exact ⟨rfl, rfl⟩
      · exact absurd (.inl ⟨hplace, hplace'⟩) h
      · cases w <;> cases htext'
        exact ⟨rfl, rfl⟩
    obtain ⟨p, hp⟩ := Option.isSome_iff_exists.mp hplace
    have hnumbers : relateNumbers? v w = none := by
      simp [relateNumbers?, hp, hw']
    cases v <;> simp only [place?, reduceCtorEq] at hp <;> exact hnumbers
  · cases v <;> cases htext
    cases w with
    | str t => exact absurd (.inr ⟨rfl, rfl⟩) h
    | _ => simp only [relate?]

end Value

namespace Group

/-! ## Extremes of a list -/

/-- The first among the values that stand behind none. -/
def IsFirstLeast (cmp : Value → Value → Ordering) (values : List Value) (best : Value) : Prop :=
  ∃ front back, values = front ++ best :: back ∧ (∀ v ∈ front, cmp best v = .lt) ∧
    ∀ v ∈ back, (cmp best v).isLE = true

/-- What is picked from values by their kind. -/
inductive Picks (cmp : Value → Value → Ordering) : List Value → Value → Prop where
  /-- There is nothing but null. -/
  | null {values : List Value} (hnulls : ∀ v ∈ values, v = .null) : Picks cmp values .null
  /-- The first value that is not null is an object. -/
  | object {nulls rest : List Value} {fields : Fields} (hnulls : ∀ v ∈ nulls, v = .null) :
    Picks cmp (nulls ++ .object fields :: rest) (.object fields)
  /-- The first value that is not null is ranked, and only values of its kind count. -/
  | ranked {nulls rest : List Value} {lead best : Value} (hnulls : ∀ v ∈ nulls, v = .null)
    (hlead : lead.IsRanked)
    (hbest : IsFirstLeast cmp ((lead :: rest).filter fun v => lead.Comparable v) best) :
    Picks cmp (nulls ++ lead :: rest) best

variable {cmp : Value → Value → Ordering} {wanted : Relation} {values : List Value}
  {best v : Value}

theorem isFirstLeast_singleton (v : Value) : IsFirstLeast cmp [v] v :=
  ⟨[], [], rfl, by simp, by simp⟩

theorem IsFirstLeast.mem (h : IsFirstLeast cmp values best) : best ∈ values := by
  obtain ⟨front, back, rfl, -⟩ := h
  simp

/-- One more value is the first of the least if it stands before the one so far. -/
theorem IsFirstLeast.concat [Std.TransCmp cmp] (h : IsFirstLeast cmp values best) (v : Value) :
    IsFirstLeast cmp (values ++ [v]) (if cmp v best = .lt then v else best) := by
  obtain ⟨front, back, rfl, hfront, hback⟩ := h
  split_ifs with hlt
  · refine ⟨front ++ best :: back, [], rfl, ?_, by simp⟩
    refine List.forall_mem_append.mpr ⟨fun w hw => ?_,
      List.forall_mem_cons.mpr ⟨hlt, fun w hw => ?_⟩⟩
    · exact Std.TransCmp.lt_trans hlt (hfront w hw)
    · exact Std.TransCmp.lt_of_lt_of_isLE hlt (hback w hw)
  · refine ⟨front, back ++ [v], by simp, hfront, ?_⟩
    refine List.forall_mem_append.mpr ⟨hback, List.forall_mem_singleton.mpr ?_⟩
    have hswap : cmp best v = (cmp v best).swap := Std.OrientedCmp.eq_swap
    rw [hswap]
    cases hcmp : cmp v best with
    | lt => exact absurd hcmp hlt
    | eq | gt => rfl

/-! ## What accumulators keep -/

/-- The wanted relation is to stand before another value in an order. -/
def WantsLeast (wanted : Relation) (cmp : Value → Value → Ordering) : Prop :=
  ∀ v w : Value, v.Comparable w → (v.relate? w = some wanted ↔ cmp v w = .lt)

theorem wantsLeast_less : WantsLeast .less Value.ordering := by
  intro v w h
  rw [h.relate?_eq]
  cases Value.ordering v w <;> simp [Relation.ofOrdering]

theorem wantsLeast_greater : WantsLeast .greater fun v w => Value.ordering w v := by
  intro v w h
  have hswap : Value.ordering w v = (Value.ordering v w).swap := Std.OrientedCmp.eq_swap
  simp only [h.relate?_eq, hswap]
  cases Value.ordering v w <;> simp [Relation.ofOrdering]

theorem better_null_left (wanted : Relation) (v : Value) : Tally.better wanted .null v = v := by
  cases v <;> rfl

theorem better_null_right (wanted : Relation) (best : Value) :
    Tally.better wanted best .null = best := by
  cases best <;> rfl

theorem better_of_ne_null (hbest : best ≠ .null) (hv : v ≠ .null) :
    Tally.better wanted best v = if v.relate? best = some wanted then v else best := by
  have hbetter : Tally.better wanted best v =
      if v.relate? best == some wanted then v else best := by
    cases best <;> cases v <;> first | rfl | exact absurd rfl ‹_›
  simpa only [beq_iff_eq] using hbetter

/-- A value of another kind is passed over. -/
theorem better_of_not_comparable (hbest : best.HasKind) (hv : v.HasKind)
    (hnull : best ≠ .null) (h : ¬ v.Comparable best) : Tally.better wanted best v = best := by
  by_cases hv' : v = .null
  · rw [hv', better_null_right]
  · rw [better_of_ne_null hnull hv', Value.relate?_eq_none hv hbest h, if_neg (by simp)]

/-- **One more value changes what is picked** as it changes what is kept. -/
theorem Picks.concat [Std.TransCmp cmp] (hwanted : WantsLeast wanted cmp)
    (h : Picks cmp values best) (hv : v.HasKind) :
    Picks cmp (values ++ [v]) (Tally.better wanted best v) := by
  cases h with
  | null hnulls =>
    rw [better_null_left]
    rcases hv with rfl | ⟨fields, rfl⟩ | hranked
    · exact .null (List.forall_mem_append.mpr ⟨hnulls, List.forall_mem_singleton.mpr rfl⟩)
    · exact .object hnulls
    · refine .ranked hnulls hranked ?_
      rw [List.filter_singleton, decide_eq_true hranked.comparable_self]
      exact isFirstLeast_singleton v
  | @object nulls rest fields hnulls =>
    have hcomparable : ¬ v.Comparable (.object fields) := by
      simp [Value.Comparable, Value.place?, Value.text?]
    rw [better_of_not_comparable (.inr (.inl ⟨fields, rfl⟩)) hv (by simp) hcomparable,
      List.append_assoc, List.cons_append]
    exact .object hnulls
  | @ranked nulls rest lead best hnulls hlead hbest =>
    obtain ⟨hmem, hcomparable⟩ := List.mem_filter.mp hbest.mem
    rw [decide_eq_true_iff] at hcomparable
    rw [List.append_assoc, List.cons_append]
    refine .ranked hnulls hlead ?_
    rw [← List.cons_append, List.filter_append, List.filter_singleton]
    by_cases hkind : lead.Comparable v
    · have hsame : v.Comparable best := hkind.symm.trans hcomparable
      rw [better_of_ne_null hsame.symm.ne_null hsame.ne_null,
        decide_eq_true hkind, if_congr (hwanted v best hsame) rfl rfl]
      exact hbest.concat v
    · have hother : ¬ v.Comparable best := fun h => hkind (hcomparable.trans h.symm)
      rw [better_of_not_comparable (.inr (.inr hcomparable.symm.isRanked)) hv
        hcomparable.symm.ne_null hother, decide_eq_false hkind]
      simpa using hbest

/-- **What is kept of values is what is picked from them.** -/
theorem picks_foldl [Std.TransCmp cmp] (hwanted : WantsLeast wanted cmp)
    (hvalues : ∀ v ∈ values, v.HasKind) :
    Picks cmp values (values.foldl (Tally.better wanted) .null) := by
  induction values using List.reverseRecOn with
  | nil => exact .null (by simp)
  | append_singleton values v ih =>
    rw [List.forall_mem_append, List.forall_mem_singleton] at hvalues
    rw [List.foldl_concat]
    exact (ih hvalues.1).concat hwanted hvalues.2

/-! ## Extremes of a group -/

variable {columns : List Column} {column : Column} {key : Source} {group : List Document}

/-- If the column gathers extremes and its values have kinds, the value is picked from them. -/
def Column.PicksFrom (column : Column) (group : List Document) (v : Value) : Prop :=
  (∀ doc ∈ group, (column.source.valueIn doc).HasKind) →
    (column.accumulator = .least →
      Picks Value.ordering (group.map column.source.valueIn) v) ∧
    (column.accumulator = .greatest →
      Picks (fun v w => Value.ordering w v) (group.map column.source.valueIn) v)

theorem Column.picksFrom_of_fold (h : column.fold group = .ok v) : column.PicksFrom group v := by
  intro hkinds
  have hvalues : ∀ w ∈ group.map column.source.valueIn, w.HasKind := List.forall_mem_map.mpr hkinds
  obtain ⟨hleast, hgreatest⟩ := column.source.gather_extremes .null group
  constructor
  · intro hacc
    have hfold : column.fold group =
        .ok ((group.map column.source.valueIn).foldl (Tally.better .less) .null) := by
      rw [fold, gather, hacc, Tally.start, hleast]
      rfl
    obtain rfl := Except.ok.inj (hfold.symm.trans h)
    exact picks_foldl wantsLeast_less hvalues
  · intro hacc
    have hfold : column.fold group =
        .ok ((group.map column.source.valueIn).foldl (Tally.better .greater) .null) := by
      rw [fold, gather, hacc, Tally.start, hgreatest]
      rfl
    obtain rfl := Except.ok.inj (hfold.symm.trans h)
    have : Std.TransCmp fun v w => Value.ordering w v := Std.TransCmp.opposite
    exact picks_foldl wantsLeast_greater hvalues

/-- The row of a group, with the extremes picked from its values. -/
def IsPickedRow (key : Source) (columns : List Column) (group : List Document) (row : Document) :
    Prop :=
  ∃ first rest fields, group = first :: rest ∧ row = (.str "_id", key.valueIn first) :: fields ∧
    List.Forall₂ (fun column field => field.1 = column.field ∧ column.PicksFrom group field.2)
      columns fields

theorem IsRow.isPickedRow {row : Document} (h : IsRow key columns group row) :
    IsPickedRow key columns group row := by
  obtain ⟨first, rest, fields, hgroup, hrow, hfields⟩ := h
  exact ⟨first, rest, fields, hgroup, hrow,
    hfields.imp fun _ _ h => ⟨h.1, Column.picksFrom_of_fold h.2.fold⟩⟩

/-- **The kind of the first value decides.** The accumulators of extremes always have a value, and
so have groupings that add nothing up; in each row the extremes are picked by the kind of the first
value that is not null. -/
theorem extremes_of_leading_kind (strict : Bool) (spec : Fields) (docs : List Document)
    (hcolumns : columnsOrCount strict spec = .ok columns) :
    (∀ (column : Column) (group : List Document),
      column.accumulator = .least ∨ column.accumulator = .greatest →
        ∃ v, column.fold group = .ok v ∧ column.PicksFrom group v) ∧
    ((∀ doc ∈ docs, ∃ text, keyText ((keySource spec).valueIn doc) = .ok text) →
      (∀ column ∈ columns, column.accumulator ≠ .sum ∧ column.accumulator ≠ .mean) →
        ∃ rows, Group.rows strict (.object spec) docs = .ok rows) ∧
    ∀ rows, Group.rows strict (.object spec) docs = .ok rows →
      ∃ texts, RowsByText (keySource spec) docs (IsPickedRow (keySource spec) columns) texts rows
    := by
  refine ⟨fun column group hacc => ?_, fun hkeys hnone => ?_, fun rows hrows => ?_⟩
  · have hsum : column.accumulator ≠ .sum := by rcases hacc with h | h <;> simp [h]
    have hmean : column.accumulator ≠ .mean := by rcases hacc with h | h <;> simp [h]
    obtain ⟨v, hv⟩ := Column.exists_fold hsum hmean group
    exact ⟨v, hv, Column.picksFrom_of_fold hv⟩
  · refine exists_rows_of_fold hcolumns hkeys fun doc _ column hcolumn => ?_
    exact Column.exists_fold (hnone column hcolumn).1 (hnone column hcolumn).2 _
  · obtain ⟨texts, htexts⟩ := rowsByText_of_rows hcolumns hrows
    exact ⟨texts, htexts.distinct, htexts.mem_iff, htexts.made.imp fun _ _ h => h.isPickedRow⟩

/-- Documents with values of all kinds in a field, and with equal numbers of different forms. -/
def kindsDocs : List Document :=
  [[], [(.str "v", .bool true)], [(.str "v", .str "x")], [(.str "v", .int 1)],
    [(.str "v", .object [])], [(.str "v", .float (.ofInt 1))], [(.str "v", .int 0)],
    [(.str "v", .null)]]

/-- All come into one row, with extremes that are picked from the numbers. -/
theorem extremes_of_leading_kind_kindsDocs :
    columnsOrCount true (extremesBy .null "a" "b" "v") =
        .ok [⟨.str "a", .least, .field "v"⟩, ⟨.str "b", .greatest, .field "v"⟩] ∧
      (∃ v, Column.fold ⟨.str "a", .least, .field "v"⟩ kindsDocs = .ok v ∧
        Picks Value.ordering (fieldValues "v" kindsDocs) v) ∧
      ∃ rows texts, Group.rows true (.object (extremesBy .null "a" "b" "v")) kindsDocs = .ok rows ∧
        RowsByText (.constant .null) kindsDocs (IsPickedRow (.constant .null)
          [⟨.str "a", .least, .field "v"⟩, ⟨.str "b", .greatest, .field "v"⟩]) texts rows := by
  have hcolumns := columnsOrCount_extremesBy true .null (by decide : "a" ≠ "_id")
    (by decide : "b" ≠ "_id") "v"
  have hsource : keySource (extremesBy .null "a" "b" "v") = .constant .null :=
    keySource_extremesBy .null "a" "b" "v"
  obtain ⟨hfold, hreturns, hrows⟩ := extremes_of_leading_kind true _ kindsDocs hcolumns
  have hkinds : ∀ doc ∈ kindsDocs, ((Source.field "v").valueIn doc).HasKind := by
    have hone : (Place.ofBinary64? (.ofInt 1)).isSome = true := by decide +kernel
    simp [kindsDocs, Source.valueIn, Value.HasKind, Value.IsRanked, Value.place?, Value.text?, hone]
  obtain ⟨v, hv, hpicks⟩ := hfold ⟨.str "a", .least, .field "v"⟩ kindsDocs (.inl rfl)
  obtain ⟨rows, hgrouped⟩ := hreturns (fun doc _ => ⟨"null".toList, by rw [hsource]; rfl⟩)
    (by simp)
  obtain ⟨texts, htexts⟩ := hrows rows hgrouped
  rw [hsource] at htexts
  exact ⟨hcolumns, ⟨v, hv, (hpicks hkinds).1 rfl⟩, rows, texts, hgrouped, htexts⟩

end Group

end SnapshotStore
