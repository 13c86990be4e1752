import SnapshotStore.Proofs.Pipeline.Extreme

/-!
# Grouping documents in any order

**Theorem (`rows_of_any_order`).** Where documents are grouped by a field in two orders, the rows
correspond one to one by their names. Corresponding rows have the same counts, the same sums and
means of integers, the same extremes of numbers up to their forms, the same collected values in
another order, and the same distinct values up to their forms.

**Counterexample (`not_rows_of_any_order`).** In one of the two orders there may be no rows: sums
that meet floating-point numbers go out of range in one order and stay within it in another. Where
only integers are added up, either both orders have rows or none has.

The documents of a key text are the same in any order, up to their order, so it is enough that
columns give matching values for documents in two orders (`Column.matches_of_perm`). Rows are
matched by their key texts (`RowsByText.oneToOne`), which are those of the documents.
-/

namespace SnapshotStore

namespace Group

/-! ## Lists that correspond -/

/-- The members of two lists correspond one to one. -/
def OneToOne {α : Type} (r : α → α → Prop) (xs ys : List α) : Prop :=
  ∃ matched, List.Forall₂ r xs matched ∧ matched.Perm ys

/-- Lists with the same images in any order correspond. -/
theorem oneToOne_of_perm_map {α β : Type} {f : α → β} {xs ys : List α}
    (h : (xs.map f).Perm (ys.map f)) : OneToOne (fun x y => f x = f y) xs ys := by
  have hys : List.Forall₂ (fun b y => b = f y) (ys.map f) ys :=
    List.forall₂_map_left_iff.mpr (List.forall₂_same.mpr fun _ _ => rfl)
  obtain ⟨matched, hmatched, hperm⟩ := List.perm_comp_forall₂ h hys
  exact ⟨matched, List.forall₂_map_left_iff.mp hmatched, hperm⟩

theorem OneToOne.imp_of_mem {α : Type} {r s : α → α → Prop} {xs ys : List α} (h : OneToOne r xs ys)
    (hrs : ∀ x ∈ xs, ∀ y ∈ ys, r x y → s x y) : OneToOne s xs ys := by
  obtain ⟨matched, hmatched, hperm⟩ := h
  refine ⟨matched, ?_, hperm⟩
  rw [List.forall₂_iff_get] at hmatched ⊢
  refine ⟨hmatched.1, fun i hi hi' => ?_⟩
  exact hrs _ (List.get_mem ..) _ (hperm.mem_iff.mp (List.get_mem ..)) (hmatched.2 i hi hi')

theorem OneToOne.length_eq {α : Type} {r : α → α → Prop} {xs ys : List α} (h : OneToOne r xs ys) :
    xs.length = ys.length := by
  obtain ⟨matched, hmatched, hperm⟩ := h
  exact hmatched.length_eq.trans hperm.length_eq

theorem oneToOne_refl {α : Type} {r : α → α → Prop} (h : ∀ x, r x x) (xs : List α) :
    OneToOne r xs xs :=
  ⟨xs, List.forall₂_same.mpr fun x _ => h x, .refl xs⟩

/-- Two ways to write a value. -/
def SameValue (v w : Value) : Prop := v = w ∨ v.agrees w = true

/-! ## Columns -/

variable {columns : List Column} {column : Column} {source : Source}
  {group group' docs docs' : List Document} {v w : Value}

/-- What a column gives depends on its values. -/
theorem Column.fold_congr (h : group.map column.source.valueIn = group'.map column.source.valueIn) :
    column.fold group = column.fold group' := by
  have hgather (docs : List Document) : column.gather docs =
      (docs.map column.source.valueIn).foldlM (fun tally v => tally.add v)
        (.start column.accumulator) := by
    rw [gather, Source.gather, List.foldlM_map]
  rw [fold, fold, hgather, hgather, h]

theorem Source.numbers_of_ints (h : ∀ doc ∈ docs, ∀ x, source.valueIn doc ≠ .float x) :
    source.numbers docs = (docs.filterMap fun doc => int? (source.valueIn doc)).map .int := by
  rw [numbers, List.map_filterMap]
  refine List.filterMap_congr fun doc hdoc => ?_
  cases hvalue : source.valueIn doc with
  | float x => exact absurd hvalue (h doc hdoc x)
  | _ => rfl

/-- Integers are added up and divided alike in any order. -/
theorem Column.fold_perm_of_ints
    (hacc : column.accumulator = .sum ∨ column.accumulator = .mean)
    (hints : ∀ doc ∈ group, ∀ x, column.source.valueIn doc ≠ .float x)
    (hperm : group.Perm group') : column.fold group = column.fold group' := by
  have hints' : ∀ doc ∈ group', ∀ x, column.source.valueIn doc ≠ .float x :=
    fun doc hdoc => hints doc (hperm.mem_iff.mpr hdoc)
  have hfound := hperm.filterMap fun doc => int? (column.source.valueIn doc)
  rcases hacc with hacc | hacc
  · simp only [fold, gather, hacc, Tally.start, Source.gather_sum_eq, Source.numbers_of_ints hints,
      Source.numbers_of_ints hints', Number.zero, Number.addAll_ints, hfound.sum_eq]
  · simp only [fold, gather, hacc, Tally.start, Source.gather_mean_eq, Source.numbers_of_ints hints,
      Source.numbers_of_ints hints', Number.zero, Number.addAll_ints, hfound.sum_eq,
      List.length_map, hfound.length_eq]

/-- What a column gives for documents in two orders. -/
def Column.Matches (column : Column) (group : List Document) (v w : Value) : Prop :=
  match column.accumulator with
  | .count => v = w
  | .sum | .mean => (∀ doc ∈ group, ∀ x, column.source.valueIn doc ≠ .float x) → v = w
  | .least | .greatest =>
    (∀ doc ∈ group, column.source.valueIn doc = .null ∨
      (Tally.number? (column.source.valueIn doc)).isSome = true) → SameValue v w
  | .collect => ∃ xs ys, v = .list xs ∧ w = .list ys ∧ xs.Perm ys
  | .distinct => ∃ xs ys, v = .list xs ∧ w = .list ys ∧ OneToOne SameValue xs ys

/-! ## Distinct values -/

variable {values values' : List Value}

theorem nodup_firstSeen (h : ∀ v ∈ values, Groupable v) :
    ((firstSeen values).map keyTextOf).Nodup := by
  induction values using List.reverseRecOn with
  | nil => exact .nil
  | append_singleton values u ih =>
    rw [List.forall_mem_append, List.forall_mem_singleton] at h
    obtain ⟨h, hu⟩ := h
    rw [firstSeen_concat]
    split_ifs with hseen
    · exact ih h
    · rw [List.map_append, List.map_singleton, ← List.concat_eq_append]
      refine (ih h).concat fun hmem => hseen ?_
      obtain ⟨w, hw, htext⟩ := List.mem_map.mp hmem
      have hagrees := (hu.agrees_iff (h w (mem_of_firstSeen hw))).mpr htext.symm
      exact List.any_eq_true.mpr ⟨w, hw, hagrees⟩

theorem mem_keyTexts_firstSeen (h : ∀ v ∈ values, Groupable v) (text : List Char) :
    text ∈ (firstSeen values).map keyTextOf ↔ text ∈ values.map keyTextOf := by
  simp only [List.mem_map]
  constructor
  · rintro ⟨v, hv, rfl⟩
    exact ⟨v, mem_of_firstSeen hv, rfl⟩
  · rintro ⟨v, hv, rfl⟩
    obtain ⟨w, hw, hagrees⟩ := exists_firstSeen h hv
    exact ⟨w, hw, (((h v hv).agrees_iff (h w (mem_of_firstSeen hw))).mp hagrees).symm⟩

/-- The values seen for the first time are the same in any order, up to their forms. -/
theorem oneToOne_firstSeen (h : ∀ v ∈ values, Groupable v) (hperm : values.Perm values') :
    OneToOne SameValue (firstSeen values) (firstSeen values') := by
  have h' : ∀ v ∈ values', Groupable v := fun v hv => h v (hperm.mem_iff.mpr hv)
  have htexts : ((firstSeen values).map keyTextOf).Perm ((firstSeen values').map keyTextOf) := by
    refine (List.perm_ext_iff_of_nodup (nodup_firstSeen h) (nodup_firstSeen h')).mpr fun text => ?_
    rw [mem_keyTexts_firstSeen h, mem_keyTexts_firstSeen h', (hperm.map keyTextOf).mem_iff]
  refine (oneToOne_of_perm_map htexts).imp_of_mem fun v hv w hw heq => .inr ?_
  exact ((h v (mem_of_firstSeen hv)).agrees_iff (h' w (mem_of_firstSeen hw))).mpr heq

/-! ## Extremes of numbers -/

/-- What is picked from nulls and numbers: null if there is no number, and otherwise one than which
none is less. -/
theorem Picks.null_or_least {cmp : Value → Value → Ordering} [Std.TransCmp cmp]
    (h : Picks cmp values v) (hnumbers : ∀ u ∈ values, u = .null ∨ u.place?.isSome = true) :
    (v = .null ∧ ∀ u ∈ values, u = .null) ∨
      v ∈ values ∧ v ≠ .null ∧ ∀ u ∈ values, u ≠ .null → (cmp v u).isLE = true := by
  cases h with
  | null hnulls => exact .inl ⟨rfl, hnulls⟩
  | @object nulls rest fields hnulls =>
    have hobject := hnumbers (.object fields) (by simp)
    simp [Value.place?] at hobject
  | @ranked nulls rest lead _ hnulls hlead hbest =>
    obtain ⟨hmem, hcomparable⟩ := List.mem_filter.mp hbest.mem
    rw [decide_eq_true_iff] at hcomparable
    refine .inr ⟨List.mem_append_right _ hmem, hcomparable.symm.ne_null,
      fun u hu hnull => ?_⟩
    have hplace : u.place?.isSome = true := (hnumbers u hu).resolve_left hnull
    have hlead' : lead.place?.isSome = true :=
      (hnumbers lead (by simp)).resolve_left hlead.ne_null
    have hu' : u ∈ (lead :: rest).filter fun w => lead.Comparable w := by
      refine List.mem_filter.mpr ⟨?_, decide_eq_true (.inl ⟨hlead', hplace⟩)⟩
      exact (List.mem_append.mp hu).resolve_left fun hmem => hnull (hnulls u hmem)
    obtain ⟨front, back, heq, hfront, hback⟩ := hbest
    rw [heq, List.mem_append, List.mem_cons] at hu'
    rcases hu' with hu' | rfl | hu'
    · rw [hfront u hu']
      rfl
    · have hself : cmp u u = .eq := Std.ReflCmp.compare_self
      rw [hself]
      rfl
    · exact hback u hu'

theorem exists_place_of_number (hv : Groupable v) (hnumber : (Tally.number? v).isSome = true) :
    ∃ p, v.place? = some p := by
  cases v with
  | int n => exact ⟨_, rfl⟩
  | float x =>
    cases x with
    | nan tag => cases hv
    | finite x | infinite negative => exact ⟨_, rfl⟩
  | _ => cases hnumber

theorem ne_bool_of_number (hnumber : (Tally.number? v).isSome = true) (b : Bool) : v ≠ .bool b := by
  rintro rfl
  cases hnumber

/-- Numbers of the same place agree. -/
theorem agrees_of_ordering (hv : Groupable v) (hw : Groupable w)
    (hnumber : (Tally.number? v).isSome = true) (hnumber' : (Tally.number? w).isSome = true)
    (h : v.ordering w = .eq) : v.agrees w = true := by
  obtain ⟨p, hp⟩ := exists_place_of_number hv hnumber
  obtain ⟨q, hq⟩ := exists_place_of_number hw hnumber'
  have hrelate := Value.Comparable.relate?_eq (v := v) (w := w) (.inl (by simp [hp, hq]))
  rw [h, Value.relate?_of_places hp hq, Option.some_inj, Relation.ofOrdering,
    Relation.ofOrdering_eq_equal, Place.compare_eq_iff] at hrelate
  rw [Value.agrees_of_place hp (ne_bool_of_number hnumber) hw.isDefined
    (ne_bool_of_number hnumber'), Value.alikeNumbers, hp, hq, hrelate]
  exact beq_self_eq_true q

/-- What is picked from nulls and numbers is the same in any order, up to its form. -/
theorem sameValue_of_picks {cmp : Value → Value → Ordering} [Std.TransCmp cmp]
    (hcmp : ∀ v w : Value, cmp v w = .eq → v.ordering w = .eq)
    (hgroupable : ∀ u ∈ values, Groupable u)
    (hnumbers : ∀ u ∈ values, u = .null ∨ (Tally.number? u).isSome = true)
    (hperm : values.Perm values') (hv : Picks cmp values v) (hw : Picks cmp values' w) :
    SameValue v w := by
  have hplaces : ∀ u ∈ values, u = .null ∨ u.place?.isSome = true := by
    refine fun u hu => (hnumbers u hu).imp_right fun hnumber => ?_
    obtain ⟨p, hp⟩ := exists_place_of_number (hgroupable u hu) hnumber
    rw [hp]
    rfl
  have hmem {u : Value} (hu : u ∈ values') : u ∈ values := hperm.mem_iff.mpr hu
  rcases hv.null_or_least hplaces with ⟨rfl, hnull⟩ | ⟨hv, hv', hle⟩ <;>
    rcases hw.null_or_least fun u hu => hplaces u (hmem hu) with ⟨rfl, hnull'⟩ | ⟨hw, hw', hle'⟩
  · exact .inl rfl
  · exact absurd (hnull w (hmem hw)) hw'
  · exact absurd (hnull' v (hperm.mem_iff.mp hv)) hv'
  · have hle := hle w (hmem hw) hw'
    have hle' := hle' v (hperm.mem_iff.mp hv) hv'
    have hswap : cmp w v = (cmp v w).swap := Std.OrientedCmp.eq_swap
    rw [hswap] at hle'
    have heq : cmp v w = .eq := by
      cases hvalue : cmp v w with
      | eq => rfl
      | lt | gt => simp [hvalue] at hle hle'
    exact .inr (agrees_of_ordering (hgroupable v hv) (hgroupable w (hmem hw))
      ((hnumbers v hv).resolve_left hv') ((hnumbers w (hmem hw)).resolve_left hw')
      (hcmp v w heq))

/-! ## Columns in any order -/

theorem Column.exists_fold_distinct (hacc : column.accumulator = .distinct) (docs : List Document) :
    ∃ items, column.fold docs = .ok (.list items) := by
  have hgather (items : List Value) :
      ∃ items', column.source.gather (.distinct items) docs = .ok (.distinct items') := by
    induction docs generalizing items with
    | nil => exact ⟨items, rfl⟩
    | cons doc docs ih =>
      rw [Source.gather_cons, Tally.add.eq_def]
      exact ih _
  obtain ⟨items, hitems⟩ := hgather []
  exact ⟨items, by rw [fold, gather, hacc, Tally.start, hitems]; rfl⟩

/-- Where the values are the same in the same order, columns match. -/
theorem Column.matches_self (h : column.fold group = .ok v) : column.Matches group v v := by
  cases hacc : column.accumulator with
  | count => simp only [Matches, hacc]
  | sum | mean => simp only [Matches, hacc, implies_true]
  | least | greatest =>
    simp only [Matches, hacc]
    exact fun _ => .inl rfl
  | collect =>
    simp only [Matches, hacc]
    exact ⟨_, _, (gives_of_fold h).collect hacc, (gives_of_fold h).collect hacc, .refl _⟩
  | distinct =>
    simp only [Matches, hacc]
    obtain ⟨items, hitems⟩ := exists_fold_distinct hacc group
    obtain rfl := Except.ok.inj (h.symm.trans hitems)
    exact ⟨items, items, rfl, rfl, oneToOne_refl (fun _ => .inl rfl) items⟩

/-- Distinct values are those seen for the first time. -/
theorem Column.fold_distinct (hacc : column.accumulator = .distinct)
    (hgroupable : ∀ u ∈ group.map column.source.valueIn, Groupable u) :
    column.fold group = .ok (.list (firstSeen (group.map column.source.valueIn))) := by
  have hgather : column.source.gather (.distinct []) group =
      .ok (.distinct (firstSeen (group.map column.source.valueIn))) :=
    Source.gather_distinct _ [] hgroupable
  rw [fold, gather, hacc, Tally.start, hgather]
  rfl

theorem Column.hasKind_of_numbers
    (hgroupable : ∀ u ∈ group.map column.source.valueIn, Groupable u)
    (hnumbers : ∀ doc ∈ group, column.source.valueIn doc = .null ∨
      (Tally.number? (column.source.valueIn doc)).isSome = true) :
    ∀ doc ∈ group, (column.source.valueIn doc).HasKind := by
  refine fun doc hdoc => (hnumbers doc hdoc).imp_right fun hnumber => .inr (.inl ?_)
  obtain ⟨p, hp⟩ := exists_place_of_number (hgroupable _ (List.mem_map_of_mem hdoc)) hnumber
  rw [hp]
  rfl

theorem Column.matches_of_groupable
    (hgroupable : ∀ u ∈ group.map column.source.valueIn, Groupable u) (hperm : group.Perm group')
    (hv : column.fold group = .ok v) (hw : column.fold group' = .ok w) :
    column.Matches group v w := by
  have hvalues := hperm.map column.source.valueIn
  have hgroupable' : ∀ u ∈ group'.map column.source.valueIn, Groupable u :=
    fun u hu => hgroupable u (hvalues.mem_iff.mpr hu)
  cases hacc : column.accumulator with
  | count =>
    simp only [Matches, hacc]
    rw [(gives_of_fold hv).count hacc, (gives_of_fold hw).count hacc, hperm.length_eq]
  | sum | mean =>
    simp only [Matches, hacc]
    intro hints
    have heq := fold_perm_of_ints (by simp [hacc]) hints hperm
    exact Except.ok.inj (hv.symm.trans (heq.trans hw))
  | least =>
    simp only [Matches, hacc]
    intro hnumbers
    have hkinds := hasKind_of_numbers hgroupable hnumbers
    have hkinds' : ∀ doc ∈ group', (column.source.valueIn doc).HasKind :=
      fun doc hdoc => hkinds doc (hperm.mem_iff.mpr hdoc)
    exact sameValue_of_picks (fun _ _ h => h) hgroupable (List.forall_mem_map.mpr hnumbers) hvalues
      ((picksFrom_of_fold hv hkinds).1 hacc) ((picksFrom_of_fold hw hkinds').1 hacc)
  | greatest =>
    simp only [Matches, hacc]
    intro hnumbers
    have hkinds := hasKind_of_numbers hgroupable hnumbers
    have hkinds' : ∀ doc ∈ group', (column.source.valueIn doc).HasKind :=
      fun doc hdoc => hkinds doc (hperm.mem_iff.mpr hdoc)
    have : Std.TransCmp fun v w => Value.ordering w v := Std.TransCmp.opposite
    exact sameValue_of_picks (fun _ _ h => Std.OrientedCmp.eq_comm.mp h) hgroupable
      (List.forall_mem_map.mpr hnumbers) hvalues
      ((picksFrom_of_fold hv hkinds).2 hacc) ((picksFrom_of_fold hw hkinds').2 hacc)
  | collect =>
    simp only [Matches, hacc]
    exact ⟨_, _, (gives_of_fold hv).collect hacc, (gives_of_fold hw).collect hacc, hvalues⟩
  | distinct =>
    simp only [Matches, hacc]
    exact ⟨_, _, Except.ok.inj (hv.symm.trans (fold_distinct hacc hgroupable)),
      Except.ok.inj (hw.symm.trans (fold_distinct hacc hgroupable')),
      oneToOne_firstSeen hgroupable hvalues⟩

/-- **A column gives the same for documents in any order,** as far as it goes by their values. -/
theorem Column.matches_of_perm (hgroupable : ∀ doc ∈ group, Groupable (.object doc))
    (hperm : group.Perm group') (hv : column.fold group = .ok v) (hw : column.fold group' = .ok w) :
    column.Matches group v w := by
  cases hsource : column.source with
  | field name =>
    refine matches_of_groupable (List.forall_mem_map.mpr fun doc hdoc => ?_) hperm hv hw
    rw [hsource]
    exact Pipeline.groupable_field (hgroupable doc hdoc) name
  | constant c =>
    have hvalues : group.map column.source.valueIn = group'.map column.source.valueIn := by
      simp [hsource, Source.valueIn, hperm.length_eq]
    obtain rfl := Except.ok.inj (hv.symm.trans ((fold_congr hvalues).trans hw))
    exact matches_self hv

/-! ## Rows in any order -/

/-- The fields that columns give for documents in two orders. -/
inductive MatchingFields (group : List Document) : List Column → Fields → Fields → Prop where
  | nil : MatchingFields group [] [] []
  | cons {column : Column} {columns : List Column} {v w : Value} {fields fields' : Fields}
    (h : column.Matches group v w) (hrest : MatchingFields group columns fields fields') :
    MatchingFields group (column :: columns) ((column.field, v) :: fields)
      ((column.field, w) :: fields')

/-- Rows of one class of documents, with the documents in two orders. -/
def MatchingRows (key : Source) (columns : List Column) (docs : List Document)
    (row row' : Document) : Prop :=
  ∃ doc ∈ docs, ∃ id fields fields', row = (.str "_id", key.valueIn doc) :: fields ∧
    row' = (.str "_id", id) :: fields' ∧ (key.valueIn doc).agrees id = true ∧
    MatchingFields (classOf key docs doc) columns fields fields'

/-- Rows with names that do not agree. -/
def NamedApart (rows : List Document) : Prop :=
  rows.Pairwise fun row other => ∀ v w, Fields.getText? row "_id" = some v →
    Fields.getText? other "_id" = some w → v.agrees w = false

variable {key : Source} {row row' : Document} {rows rows' : List Document}

theorem matchingFields_of_perm {fields fields' : Fields}
    (hgroupable : ∀ doc ∈ group, Groupable (.object doc)) (hperm : group.Perm group')
    (h : List.Forall₂ (fun column field => field.1 = column.field ∧ column.Gives group field.2)
      columns fields)
    (h' : List.Forall₂ (fun column field => field.1 = column.field ∧ column.Gives group' field.2)
      columns fields') : MatchingFields group columns fields fields' := by
  induction h generalizing fields' with
  | nil =>
    cases h'
    exact .nil
  | @cons column field columns fields hfield _ ih =>
    obtain ⟨field', fields', hfield', hfields', rfl⟩ := List.forall₂_cons_left_iff.mp h'
    obtain ⟨k, v⟩ := field
    obtain ⟨k', w⟩ := field'
    obtain ⟨rfl, hv⟩ : k = column.field ∧ _ := hfield
    obtain ⟨rfl, hw⟩ : k' = column.field ∧ _ := hfield'
    exact .cons (column.matches_of_perm hgroupable hperm hv.fold hw.fold) (ih hfields')

/-- A row of the documents of a key text is named by a value of theirs. -/
theorem IsRow.exists_name {text : List Char} (h : IsRow key columns (withText key text docs) row) :
    ∃ doc ∈ docs, textOf key doc = text ∧ Fields.getText? row "_id" = some (key.valueIn doc) := by
  obtain ⟨first, rest, fields, hgroup, rfl, -⟩ := h
  have hmem : first ∈ withText key text docs := hgroup ▸ List.mem_cons_self
  obtain ⟨hfirst, htext⟩ := List.mem_filter.mp hmem
  exact ⟨first, hfirst, of_decide_eq_true htext, Fields.getText?_cons_self ..⟩

section

variable (hkeys : ∀ doc ∈ docs, Groupable (key.valueIn doc))

include hkeys

theorem textOf_eq_iff_agrees {a b : Document} (ha : a ∈ docs) (hb : b ∈ docs) :
    textOf key a = textOf key b ↔ (key.valueIn a).agrees (key.valueIn b) = true :=
  textOf_eq_iff (fun doc hdoc => (hkeys doc hdoc).isShort)
    (fun doc hdoc => (hkeys doc hdoc).isDefined) ha hb

theorem matchingRows_of_perm (hgroupable : ∀ doc ∈ docs, Groupable (.object doc))
    (hperm : docs.Perm docs') {text : List Char}
    (h : IsRow key columns (withText key text docs) row)
    (h' : IsRow key columns (withText key text docs') row') :
    MatchingRows key columns docs row row' := by
  obtain ⟨first, rest, fields, hgroup, rfl, hfields⟩ := h
  obtain ⟨first', rest', fields', hgroup', rfl, hfields'⟩ := h'
  have hmem : first ∈ withText key text docs := hgroup ▸ List.mem_cons_self
  have hmem' : first' ∈ withText key text docs' := hgroup' ▸ List.mem_cons_self
  obtain ⟨hfirst, htext⟩ := List.mem_filter.mp hmem
  obtain ⟨hfirst', htext'⟩ := List.mem_filter.mp hmem'
  rw [decide_eq_true_iff] at htext htext'
  have hagrees := (textOf_eq_iff_agrees hkeys hfirst (hperm.mem_iff.mpr hfirst')).mp
    (htext.trans htext'.symm)
  have hclass : withText key text docs = classOf key docs first := by
    rw [← htext]
    exact withText_textOf (fun doc hdoc => (hkeys doc hdoc).isShort)
      (fun doc hdoc => (hkeys doc hdoc).isDefined) hfirst
  refine ⟨first, hfirst, key.valueIn first', fields, fields', rfl, rfl, hagrees, ?_⟩
  rw [← hclass]
  exact matchingFields_of_perm (fun doc hdoc => hgroupable doc (List.mem_of_mem_filter hdoc))
    (hperm.filter _) hfields hfields'

theorem RowsByText.namedApart {texts : List (List Char)}
    (h : RowsByText key docs (IsRow key columns) texts rows) : NamedApart rows := by
  obtain ⟨hdistinct, -, hmade⟩ := h
  induction hmade with
  | nil => exact .nil
  | @cons text row texts rows hrow hrows ih =>
    rw [List.nodup_cons] at hdistinct
    refine List.pairwise_cons.mpr ⟨fun other hother v w hv hw => ?_, ih hdistinct.2⟩
    obtain ⟨text', htext', hother⟩ := exists_mem_of_forall₂ hrows.flip other hother
    obtain ⟨doc, hdoc, rfl, hname⟩ := hrow.exists_name
    obtain ⟨doc', hdoc', rfl, hname'⟩ := IsRow.exists_name hother
    obtain rfl := Option.some.inj (hv.symm.trans hname)
    obtain rfl := Option.some.inj (hw.symm.trans hname')
    rw [Bool.eq_false_iff]
    intro hagrees
    rw [(textOf_eq_iff_agrees hkeys hdoc hdoc').mpr hagrees] at hdistinct
    exact hdistinct.1 htext'

theorem RowsByText.oneToOne (hgroupable : ∀ doc ∈ docs, Groupable (.object doc))
    (hperm : docs.Perm docs') {texts texts' : List (List Char)}
    (h : RowsByText key docs (IsRow key columns) texts rows)
    (h' : RowsByText key docs' (IsRow key columns) texts' rows') :
    OneToOne (MatchingRows key columns docs) rows rows' := by
  have htexts : texts.Perm texts' := by
    refine (List.perm_ext_iff_of_nodup h.distinct h'.distinct).mpr fun text => ?_
    rw [h.mem_iff, h'.mem_iff]
    exact exists_congr fun doc => and_congr_left fun _ => hperm.mem_iff
  obtain ⟨matched, hmatched, hsame⟩ := List.perm_comp_forall₂ htexts h'.made
  refine ⟨matched, ?_, hsame⟩
  have hrows := h.made
  clear h h' htexts hsame
  induction hrows generalizing matched with
  | nil =>
    cases hmatched
    exact .nil
  | cons hrow _ ih =>
    obtain ⟨row', rest, hrow', hrest, rfl⟩ := List.forall₂_cons_left_iff.mp hmatched
    exact .cons (matchingRows_of_perm hkeys hgroupable hperm hrow hrow') (ih rest hrest)

end

/-! ## Groupings in any order -/

/-- Sums and means are of integers only. -/
def AddsIntegers (columns : List Column) (docs : List Document) : Prop :=
  ∀ column ∈ columns, column.accumulator = .sum ∨ column.accumulator = .mean →
    ∀ doc ∈ docs, ∀ x, column.source.valueIn doc ≠ .float x

section

variable {strict : Bool} {spec : Fields} (hcolumns : columnsOrCount strict spec = .ok columns)
  (hkeys : ∀ doc ∈ docs, ∃ text, keyText ((keySource spec).valueIn doc) = .ok text)
  (hints : AddsIntegers columns docs)

include hcolumns hkeys hints

/-- Where only integers are added up documents are grouped in every order or in none. -/
theorem exists_rows_of_perm (hperm : docs.Perm docs')
    (h : ∃ rows, Group.rows strict (.object spec) docs = .ok rows) :
    ∃ rows, Group.rows strict (.object spec) docs' = .ok rows := by
  rw [exists_rows_iff hcolumns hkeys] at h
  rw [exists_rows_iff hcolumns fun doc hdoc => hkeys doc (hperm.mem_iff.mpr hdoc)]
  intro doc hdoc column hcolumn
  have hdoc := hperm.mem_iff.mpr hdoc
  have hgroup : (withText (keySource spec) (textOf (keySource spec) doc) docs).Perm
      (withText (keySource spec) (textOf (keySource spec) doc) docs') := hperm.filter _
  by_cases hacc : column.accumulator = .sum ∨ column.accumulator = .mean
  · rw [← column.fold_perm_of_ints hacc (fun other hother =>
      hints column hcolumn hacc other (List.mem_of_mem_filter hother)) hgroup]
    exact h doc hdoc column hcolumn
  · rw [not_or] at hacc
    exact Column.exists_fold hacc.1 hacc.2 _

/-- Sums of integers keep no documents from being grouped. -/
theorem exists_rows_of_no_mean (hmean : ∀ column ∈ columns, column.accumulator ≠ .mean) :
    ∃ rows, Group.rows strict (.object spec) docs = .ok rows := by
  refine exists_rows_of_fold hcolumns hkeys fun doc _ column hcolumn => ?_
  rw [column.exists_fold_iff, Column.OutOfRange]
  split
  · next hacc =>
    have hgroup : ∀ other ∈ withText (keySource spec) (textOf (keySource spec) doc) docs,
        ∀ x, column.source.valueIn other ≠ .float x := fun other hother =>
      hints column hcolumn (.inl hacc) other (List.mem_of_mem_filter hother)
    rw [Source.numbers_of_ints hgroup]
    exact Number.not_sumOutOfRange_ints _
  · next hacc => exact absurd hacc (hmean column hcolumn)
  · exact not_false

end

/-- **Documents are grouped alike in any order.** -/
theorem rows_of_any_order {strict : Bool} {spec : Fields} {name : String}
    (hid : Fields.getText? spec "_id" = some (.str ("$" ++ name)))
    (hgroupable : ∀ doc ∈ docs, Groupable (.object doc)) (hperm : docs.Perm docs') :
    (∃ e, ∀ docs, Group.rows strict (.object spec) docs = .error e) ∨
    ∃ columns, columnsOrCount strict spec = .ok columns ∧
      (∀ rows rows', Group.rows strict (.object spec) docs = .ok rows →
        Group.rows strict (.object spec) docs' = .ok rows' → rows.length = rows'.length ∧
          NamedApart rows ∧ NamedApart rows' ∧
          OneToOne (MatchingRows (.field name) columns docs) rows rows') ∧
      ((∃ rows, Group.rows strict (.object spec) docs = .ok rows) ↔
        ¬ SomeOutOfRange columns (.field name) docs) ∧
      ((∃ rows, Group.rows strict (.object spec) docs' = .ok rows) ↔
        ¬ SomeOutOfRange columns (.field name) docs') ∧
      (AddsIntegers columns docs →
        ((∃ rows, Group.rows strict (.object spec) docs = .ok rows) ↔
          ∃ rows, Group.rows strict (.object spec) docs' = .ok rows) ∧
        ((∀ column ∈ columns, column.accumulator ≠ .mean) →
          ∃ rows, Group.rows strict (.object spec) docs = .ok rows)) := by
  have hsource := keySource_field hid
  have hgroupable' : ∀ doc ∈ docs', Groupable (.object doc) :=
    fun doc hdoc => hgroupable doc (hperm.mem_iff.mpr hdoc)
  have hkeys {docs : List Document} (hdocs : ∀ doc ∈ docs, Groupable (.object doc)) :
      ∀ doc ∈ docs, Groupable ((keySource spec).valueIn doc) := by
    intro doc hdoc
    rw [hsource]
    exact Pipeline.groupable_field (hdocs doc hdoc) name
  cases hcolumns : columnsOrCount strict spec with
  | error e =>
    refine .inl ⟨e, fun docs => ?_⟩
    rw [Group.rows, hcolumns]
    rfl
  | ok columns =>
    have hints' (hints : AddsIntegers columns docs) : AddsIntegers columns docs' :=
      fun column hcolumn hacc doc hdoc => hints column hcolumn hacc doc (hperm.mem_iff.mpr hdoc)
    have hreturns {docs : List Document} (hdocs : ∀ doc ∈ docs, Groupable (.object doc)) :=
      exists_rows_iff_inRange hcolumns (hkeys hdocs)
    have htext {docs : List Document} (hdocs : ∀ doc ∈ docs, Groupable (.object doc)) :=
      exists_keyText_of_groupable (hkeys hdocs)
    rw [hsource] at hreturns
    refine .inr ⟨columns, rfl, fun rows rows' hrows hrows' => ?_, hreturns hgroupable,
      hreturns hgroupable', fun hints => ⟨⟨?_, ?_⟩, ?_⟩⟩
    · obtain ⟨texts, htexts⟩ := rowsByText_of_rows hcolumns hrows
      obtain ⟨texts', htexts'⟩ := rowsByText_of_rows hcolumns hrows'
      have hone := htexts.oneToOne (hkeys hgroupable) hgroupable hperm htexts'
      rw [hsource] at hone
      exact ⟨hone.length_eq, htexts.namedApart (hkeys hgroupable),
        htexts'.namedApart (hkeys hgroupable'), hone⟩
    · exact exists_rows_of_perm hcolumns (htext hgroupable) hints hperm
    · exact exists_rows_of_perm hcolumns (htext hgroupable') (hints' hints) hperm.symm
    · exact exists_rows_of_no_mean hcolumns (htext hgroupable) hints

/-- Group by a field, with what there is in another one. -/
def gatheringSpec : Fields :=
  [(.str "_id", .str "$f"), (.str "n", .object [(.str "$count", .object [])]),
    (.str "total", .object [(.str "$sum", .str "$v")]),
    (.str "least", .object [(.str "$min", .str "$v")]),
    (.str "all", .object [(.str "$push", .str "$v")]),
    (.str "each", .object [(.str "$addToSet", .str "$v")])]

/-- Documents with equal numbers of two forms in both fields. -/
def twofoldDocs : List Document :=
  [[(.str "f", .int 1), (.str "v", .int 2)], [(.str "v", .bool true)],
    [(.str "f", .float (.ofInt 1)), (.str "v", .float (.ofInt 2))]]

/-- The same number of rows comes out of them from back to front. -/
theorem rows_of_any_order_twofoldDocs :
    Fields.getText? gatheringSpec "_id" = some (.str ("$" ++ "f")) ∧
      (∀ doc ∈ twofoldDocs, Groupable (.object doc)) ∧ twofoldDocs.Perm twofoldDocs.reverse ∧
      ∃ columns rows rows', Group.rows true (.object gatheringSpec) twofoldDocs = .ok rows ∧
        Group.rows true (.object gatheringSpec) twofoldDocs.reverse = .ok rows' ∧
        rows.length = rows'.length ∧
        OneToOne (MatchingRows (.field "f") columns twofoldDocs) rows rows' := by
  have hid : Fields.getText? gatheringSpec "_id" = some (.str ("$" ++ "f")) :=
    Fields.getText?_cons_self ..
  have hgroupable : ∀ doc ∈ twofoldDocs, Groupable (.object doc) := by
    unfold Groupable
    decide +kernel
  have hperm : twofoldDocs.Perm twofoldDocs.reverse := (List.reverse_perm _).symm
  obtain ⟨rows, hrows⟩ := exists_of_isOk (by decide +kernel :
    (Group.rows true (.object gatheringSpec) twofoldDocs).isOk = true)
  obtain ⟨rows', hrows'⟩ := exists_of_isOk (by decide +kernel :
    (Group.rows true (.object gatheringSpec) twofoldDocs.reverse).isOk = true)
  rcases rows_of_any_order hid hgroupable hperm with ⟨e, he⟩ | ⟨columns, -, hmatch, -⟩
  · cases hrows.symm.trans (he twofoldDocs)
  · obtain ⟨hlength, -, -, hone⟩ := hmatch rows rows' hrows hrows'
    exact ⟨hid, hgroupable, hperm, columns, rows, rows', hrows, hrows', hlength, hone⟩

/-- Group by a field, with the sum of another one. -/
def summingSpec : Fields :=
  [(.str "_id", .str "$f"), (.str "total", .object [(.str "$sum", .str "$v")])]

/-- A half beside two integers that are out of range, and that cancel out. -/
def cancellingDocs : List Document :=
  [[(.str "f", .int 1), (.str "v", .int (10 ^ 400))],
    [(.str "f", .int 1), (.str "v", .int (-10 ^ 400))],
    [(.str "f", .int 1), (.str "v", .float (.ofQuotient 1 2))]]

/-- **In some other order documents are not grouped at all**: the half is in front of integers that
are out of range. -/
theorem not_rows_of_any_order :
    ¬ ∀ (strict : Bool) (spec : Fields) (name : String) (docs docs' rows : List Document),
      Fields.getText? spec "_id" = some (.str ("$" ++ name)) →
      (∀ doc ∈ docs, Groupable (.object doc)) → docs.Perm docs' →
      Group.rows strict (.object spec) docs = .ok rows →
      ∃ rows', Group.rows strict (.object spec) docs' = .ok rows' ∧ rows.length = rows'.length := by
  intro hall
  have hgroupable : ∀ doc ∈ cancellingDocs, Groupable (.object doc) := by
    unfold Groupable
    decide +kernel
  obtain ⟨rows, hrows⟩ := exists_of_isOk (by decide +kernel :
    (Group.rows true (.object summingSpec) cancellingDocs).isOk = true)
  obtain ⟨rows', hrows', -⟩ := hall true summingSpec "f" cancellingDocs cancellingDocs.reverse rows
    (Fields.getText?_cons_self ..) hgroupable (List.reverse_perm _).symm hrows
  have herror : (Group.rows true (.object summingSpec) cancellingDocs.reverse).isOk = false := by
    decide +kernel
  rw [hrows'] at herror
  cases herror

end Group

end SnapshotStore
