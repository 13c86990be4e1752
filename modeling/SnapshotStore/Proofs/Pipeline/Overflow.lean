import SnapshotStore.Proofs.Number.Overflow
import SnapshotStore.Proofs.Pipeline.ByText
import SnapshotStore.Proofs.Pipeline.Counting

/-!
# Groupings out of range

**Theorem (`Column.exists_fold_iff`).** A column has a value for documents unless it adds up their
numbers and the sum or the mean is out of range.

**Theorem (`exists_rows_of_inRange`, `rows_of_outOfRange`).** Documents are grouped unless a column
is out of range for a class of documents whose values agree; then grouping fails with an arithmetic
error.

Documents with one key text are a class of documents whose values agree. So the rows by key texts
are the rows by classes, and there are rows exactly when every column has a value for every class.
-/

namespace SnapshotStore

namespace Group

/-! ## Columns out of range -/

/-- The numbers among the values of documents. -/
def Source.numbers (source : Source) (docs : List Document) : List Number :=
  docs.filterMap fun doc => Tally.number? (source.valueIn doc)

/-- A column that has no value for documents: their numbers have a sum or mean out of range. -/
def Column.OutOfRange (column : Column) (docs : List Document) : Prop :=
  match column.accumulator with
  | .sum => Number.SumOutOfRange (column.source.numbers docs)
  | .mean => Number.MeanOutOfRange (column.source.numbers docs)
  | _ => False

theorem Source.gather_sum_eq (source : Source) (total : Number) (docs : List Document) :
    source.gather (.sum total) docs = (total.addAll (source.numbers docs)).map Tally.sum := by
  induction docs generalizing total with
  | nil => rfl
  | cons doc docs ih =>
    rw [gather_cons, Tally.add.eq_def, numbers, List.filterMap_cons]
    cases Tally.number? (source.valueIn doc) with
    | none => exact ih total
    | some n =>
      simp only [Number.addAll, List.foldlM_cons]
      cases total.add n with
      | error e => rfl
      | ok total => exact ih total

theorem Source.gather_mean_eq (source : Source) (total : Number) (count : Nat)
    (docs : List Document) : source.gather (.mean total count) docs =
      (total.addAll (source.numbers docs)).map fun total =>
        .mean total (count + (source.numbers docs).length) := by
  induction docs generalizing total count with
  | nil => rfl
  | cons doc docs ih =>
    rw [gather_cons, Tally.add.eq_def, numbers, List.filterMap_cons]
    cases Tally.number? (source.valueIn doc) with
    | none => exact ih total count
    | some n =>
      simp only [Number.addAll, List.foldlM_cons, List.length_cons]
      cases total.add n with
      | error e => rfl
      | ok total =>
        rw [← Nat.add_assoc, Nat.add_right_comm]
        exact ih total (count + 1)

theorem Tally.exists_result_mean_iff (total : Number) (count : Nat) :
    (∃ v, (Tally.mean total count).result = .ok v) ↔
      (count ≠ 0 → ∃ x, total.divide count = .ok x) := by
  cases count with
  | zero => exact iff_of_true ⟨.null, rfl⟩ fun h => absurd rfl h
  | succ count =>
    rw [Tally.result]
    · cases total.divide (count + 1) <;> simp [bind, Except.bind]
    · exact fun h => nomatch h

/-- **A column has a value for documents unless it is out of range.** -/
theorem Column.exists_fold_iff (column : Column) (docs : List Document) :
    (∃ v, column.fold docs = .ok v) ↔ ¬ column.OutOfRange docs := by
  cases hacc : column.accumulator with
  | sum =>
    have hrange : column.OutOfRange docs = Number.SumOutOfRange (column.source.numbers docs) := by
      simp only [OutOfRange, hacc]
    rw [hrange, ← Number.exists_addAll_iff, fold, gather, hacc, Tally.start, Source.gather_sum_eq]
    cases Number.addAll .zero (column.source.numbers docs) with
    | error e => simp [Except.map, bind, Except.bind]
    | ok total => cases total <;> simp [Except.map, bind, Except.bind, Tally.result]
  | mean =>
    have hrange : column.OutOfRange docs = Number.MeanOutOfRange (column.source.numbers docs) := by
      simp only [OutOfRange, hacc]
    rw [hrange, ← Number.exists_mean_iff, fold, gather, hacc, Tally.start, Source.gather_mean_eq]
    cases Number.addAll .zero (column.source.numbers docs) with
    | error e => simp [Except.map, bind, Except.bind]
    | ok total =>
      simp only [Except.map, bind, Except.bind, Tally.exists_result_mean_iff, Nat.zero_add, ne_eq,
        List.length_eq_zero_iff, Except.ok.injEq, exists_eq_left']
  | _ =>
    refine iff_of_true (column.exists_fold (by simp [hacc]) (by simp [hacc]) docs) ?_
    simp only [OutOfRange, hacc, not_false_eq_true]

/-! ## Classes -/

variable {columns : List Column} {key : Source} {docs : List Document} {doc : Document}

/-- The documents whose values agree with that of a document. -/
def classOf (key : Source) (docs : List Document) (doc : Document) : List Document :=
  docs.filter fun other => (key.valueIn doc).agrees (key.valueIn other)

/-- Every row is made of a class of documents whose values agree, and every class has a row. -/
structure RowsOfClasses (key : Source) (docs : List Document)
    (made : List Document → Document → Prop) (rows : List Document) : Prop where
  of_row : ∀ row ∈ rows, ∃ doc ∈ docs, made (classOf key docs doc) row
  of_doc : ∀ doc ∈ docs, ∃ row ∈ rows, made (classOf key docs doc) row

/-- A column is out of range for some class of documents whose values agree. -/
def SomeOutOfRange (columns : List Column) (key : Source) (docs : List Document) : Prop :=
  ∃ doc ∈ docs, ∃ column ∈ columns, column.OutOfRange (classOf key docs doc)

section

variable {strict : Bool} {spec : Fields} (hcolumns : columnsOrCount strict spec = .ok columns)
  (hgroupable : ∀ doc ∈ docs, Groupable ((keySource spec).valueIn doc))

include hgroupable

theorem withText_eq_classOf (hdoc : doc ∈ docs) :
    withText (keySource spec) (textOf (keySource spec) doc) docs =
      classOf (keySource spec) docs doc :=
  withText_textOf (fun doc hdoc => (hgroupable doc hdoc).isShort)
    (fun doc hdoc => (hgroupable doc hdoc).isDefined) hdoc

theorem exists_keyText_of_groupable :
    ∀ doc ∈ docs, ∃ text, keyText ((keySource spec).valueIn doc) = .ok text :=
  fun doc hdoc => ⟨_, (hgroupable doc hdoc).keyText_eq⟩

include hcolumns

/-- Documents are grouped unless a column is out of range for a class. -/
theorem exists_rows_iff_inRange :
    (∃ rows, Group.rows strict (.object spec) docs = .ok rows) ↔
      ¬ SomeOutOfRange columns (keySource spec) docs := by
  rw [exists_rows_iff hcolumns (exists_keyText_of_groupable hgroupable), SomeOutOfRange]
  push Not
  refine forall₂_congr fun doc hdoc => forall₂_congr fun column _ => ?_
  rw [withText_eq_classOf hgroupable hdoc, column.exists_fold_iff]

/-- Documents are grouped by classes if no column is out of range for one. -/
theorem exists_rows_of_inRange (h : ¬ SomeOutOfRange columns (keySource spec) docs) :
    ∃ rows, Group.rows strict (.object spec) docs = .ok rows ∧
      RowsOfClasses (keySource spec) docs (IsRow (keySource spec) columns) rows := by
  obtain ⟨rows, hrows⟩ := (exists_rows_iff_inRange hcolumns hgroupable).mpr h
  obtain ⟨texts, htexts⟩ := rowsByText_of_rows hcolumns hrows
  refine ⟨rows, hrows, fun row hrow => ?_, fun doc hdoc => ?_⟩
  · obtain ⟨text, htext, hrow⟩ := exists_mem_of_forall₂ htexts.made.flip row hrow
    obtain ⟨doc, hdoc, rfl⟩ := (htexts.mem_iff text).mp htext
    rw [withText_eq_classOf hgroupable hdoc] at hrow
    exact ⟨doc, hdoc, hrow⟩
  · obtain ⟨row, hrow, hisRow⟩ :=
      exists_mem_of_forall₂ htexts.made _ ((htexts.mem_iff _).mpr ⟨doc, hdoc, rfl⟩)
    rw [withText_eq_classOf hgroupable hdoc] at hisRow
    exact ⟨row, hrow, hisRow⟩

/-- **Nothing else keeps documents from being grouped.** -/
theorem rows_of_outOfRange (h : SomeOutOfRange columns (keySource spec) docs) :
    ∃ cause, Group.rows strict (.object spec) docs = .error (.arithmetic cause) := by
  cases hrows : Group.rows strict (.object spec) docs with
  | error e =>
    obtain ⟨cause, rfl⟩ :=
      arithmetic_of_rows_error hcolumns (exists_keyText_of_groupable hgroupable) hrows
    exact ⟨cause, rfl⟩
  | ok rows => exact absurd h ((exists_rows_iff_inRange hcolumns hgroupable).mp ⟨rows, hrows⟩)

end

end Group

end SnapshotStore
