import Mathlib.Algebra.BigOperators.Group.Finset.Piecewise
import SnapshotStore.Proofs.Pipeline.Key

/-!
# Rows of a grouping

**Theorem (`rows_of_field`).** Grouping by a field gives one row for each class of documents whose
values agree, in the order in which the classes first appear. A row is named by the value of the
first document of its class, and each of its columns is the fold of an accumulator over the
documents of the class, in their order.

`Filled` is the invariant of the buckets: their texts are the different key texts of the documents
seen, in the order of first appearance, and each bucket holds what was gathered from the documents
of its text. A document goes into the bucket of its text (`Filled.put_seen`) or opens one
(`Filled.put_new`), and by induction over the documents all are in buckets (`fill_spec`). Key texts
are the same exactly for values that agree, so the buckets are the classes.
-/

namespace SnapshotStore

namespace Group

/-! ## Folds -/

/-- Gather the values of documents, one after the other. -/
def Source.gather (source : Source) (tally : Tally) (docs : List Document) :
    Except ArithmeticError Tally :=
  docs.foldlM (fun tally doc => tally.add (source.valueIn doc)) tally

theorem Source.gather_cons (source : Source) (tally : Tally) (doc : Document)
    (docs : List Document) : source.gather tally (doc :: docs) =
      tally.add (source.valueIn doc) >>= fun tally => source.gather tally docs :=
  List.foldlM_cons

/-- What a column gathers from documents. -/
def Column.gather (column : Column) (docs : List Document) : Except ArithmeticError Tally :=
  column.source.gather (.start column.accumulator) docs

/-- What a column gives for documents. -/
def Column.fold (column : Column) (docs : List Document) : Except ArithmeticError Value := do
  (← column.gather docs).result

theorem Column.gather_append (column : Column) (docs others : List Document) :
    column.gather (docs ++ others) =
      column.gather docs >>= fun tally => column.source.gather tally others :=
  List.foldlM_append

theorem Column.exists_gather_of_append {column : Column} {docs others : List Document}
    (h : ∃ tally, column.gather (docs ++ others) = .ok tally) :
    ∃ tally, column.gather docs = .ok tally := by
  obtain ⟨tally, h⟩ := h
  rw [column.gather_append] at h
  obtain ⟨tally', h', -⟩ := bind_eq_ok.mp h
  exact ⟨tally', h'⟩

/-! ## What accumulators give -/

/-- An integer, if the value is one; booleans are none. -/
def int? : Value → Option Int
  | .int n => some n
  | _ => none

/-- What a column gives for documents: its fold, which is the number of documents, the exact sum of
the integers among its values as long as there is no other number, or the list of its values. -/
structure Column.Gives (column : Column) (docs : List Document) (v : Value) : Prop where
  fold : column.fold docs = .ok v
  count : column.accumulator = .count → v = .int docs.length
  sum : column.accumulator = .sum → (∀ doc ∈ docs, ∀ x, column.source.valueIn doc ≠ .float x) →
    v = .int (docs.filterMap fun doc => int? (column.source.valueIn doc)).sum
  collect : column.accumulator = .collect → v = .list (docs.map column.source.valueIn)

theorem Source.gather_count (source : Source) (n : Nat) (docs : List Document) :
    source.gather (.count n) docs = .ok (.count (n + docs.length)) := by
  induction docs generalizing n with
  | nil => rfl
  | cons doc docs ih =>
    rw [gather_cons, Tally.add.eq_def, List.length_cons, ← Nat.add_assoc, Nat.add_right_comm]
    exact ih (n + 1)

theorem Source.gather_collect (source : Source) (items : List Value) (docs : List Document) :
    source.gather (.collect items) docs = .ok (.collect (items ++ docs.map source.valueIn)) := by
  induction docs generalizing items with
  | nil => rw [List.map_nil, List.append_nil]; rfl
  | cons doc docs ih =>
    rw [gather_cons, Tally.add.eq_def, List.map_cons, List.append_cons]
    exact ih (items ++ [source.valueIn doc])

theorem Source.gather_sum (source : Source) (n : Int) {docs : List Document}
    (h : ∀ doc ∈ docs, ∀ x, source.valueIn doc ≠ .float x) :
    source.gather (.sum (.int n)) docs =
      .ok (.sum (.int (n + (docs.filterMap fun doc => int? (source.valueIn doc)).sum))) := by
  induction docs generalizing n with
  | nil => rw [List.filterMap_nil, List.sum_nil, Int.add_zero]; rfl
  | cons doc docs ih =>
    rw [List.forall_mem_cons] at h
    rw [gather_cons, List.filterMap_cons]
    cases hvalue : source.valueIn doc with
    | int m =>
      rw [int?, List.sum_cons, ← Int.add_assoc]
      exact ih (n + m) h.2
    | float x => exact absurd hvalue (h.1 x)
    | _ => exact ih n h.2

theorem Column.gives_of_fold {column : Column} {docs : List Document} {v : Value}
    (h : column.fold docs = .ok v) : column.Gives docs v := by
  have hresult {tally : Tally} (hgather : column.gather docs = .ok tally) :
      tally.result = .ok v := by
    rw [fold, hgather] at h
    exact h
  refine ⟨h, fun hcount => ?_, fun hsum hnone => ?_, fun hcollect => ?_⟩
  · have hgather : column.gather docs = .ok (.count docs.length) := by
      rw [gather, hcount, Tally.start, Source.gather_count, Nat.zero_add]
    exact (Except.ok.inj (hresult hgather)).symm
  · have hgather : column.gather docs =
        .ok (.sum (.int (docs.filterMap fun doc => int? (column.source.valueIn doc)).sum)) := by
      rw [gather, hsum, Tally.start, Number.zero, Source.gather_sum _ _ hnone, Int.zero_add]
    exact (Except.ok.inj (hresult hgather)).symm
  · have hgather : column.gather docs = .ok (.collect (docs.map column.source.valueIn)) := by
      rw [gather, hcollect, Tally.start, Source.gather_collect, List.nil_append]
    exact (Except.ok.inj (hresult hgather)).symm

/-- A tally that adds no numbers up. -/
def Tally.AddsNothing : Tally → Prop
  | .sum _ | .mean _ _ => False
  | _ => True

theorem Source.exists_gather (source : Source) (docs : List Document) {tally : Tally}
    (h : Tally.AddsNothing tally) :
    ∃ tally', source.gather tally docs = .ok tally' ∧ Tally.AddsNothing tally' := by
  induction docs generalizing tally with
  | nil => exact ⟨tally, rfl, h⟩
  | cons doc docs ih =>
    have hadd : ∃ tally₁, tally.add (source.valueIn doc) = .ok tally₁ ∧
        Tally.AddsNothing tally₁ := by
      cases tally with
      | sum _ | mean _ _ => exact h.elim
      | _ => exact ⟨_, rfl, trivial⟩
    obtain ⟨tally₁, htally₁, h₁⟩ := hadd
    rw [source.gather_cons, htally₁]
    exact ih h₁

/-- Only sums and means can be out of range. -/
theorem Column.exists_fold {column : Column} (hsum : column.accumulator ≠ .sum)
    (hmean : column.accumulator ≠ .mean) (docs : List Document) :
    ∃ v, column.fold docs = .ok v := by
  have hstart : Tally.AddsNothing (.start column.accumulator) := by
    cases hacc : column.accumulator with
    | sum => exact absurd hacc hsum
    | mean => exact absurd hacc hmean
    | _ => trivial
  obtain ⟨tally, hgather, htally⟩ := column.source.exists_gather docs hstart
  have hresult : ∃ v, tally.result = .ok v := by
    cases tally with
    | sum _ | mean _ _ => exact htally.elim
    | _ => exact ⟨_, rfl⟩
  obtain ⟨v, hv⟩ := hresult
  exact ⟨v, by rw [fold, gather, hgather]; exact hv⟩

/-- What columns have gathered from documents. -/
def Gathered (columns : List Column) (docs : List Document) (tallies : List Tally) : Prop :=
  List.Forall₂ (fun column tally => column.gather docs = .ok tally) columns tallies

theorem gathered_nil (columns : List Column) :
    Gathered columns [] (columns.map fun column => .start column.accumulator) :=
  List.forall₂_map_right_iff.mpr (List.forall₂_same.mpr fun _ _ => rfl)

theorem exists_addTo {columns : List Column} {docs : List Document} {tallies : List Tally}
    {doc : Document} (h : Gathered columns docs tallies)
    (hnext : ∀ column ∈ columns, ∃ tally, column.gather (docs ++ [doc]) = .ok tally) :
    ∃ tallies', addTo columns doc tallies = .ok tallies' ∧
      Gathered columns (docs ++ [doc]) tallies' := by
  induction h with
  | nil => exact ⟨[], rfl, .nil⟩
  | @cons column tally columns tallies hcolumn _ ih =>
    rw [List.forall_mem_cons] at hnext
    obtain ⟨⟨tally', htally'⟩, hnext⟩ := hnext
    obtain ⟨tallies', haddTo, hgathered⟩ := ih hnext
    have hadd : tally.add (column.source.valueIn doc) = .ok tally' := by
      rw [column.gather_append, hcolumn] at htally'
      obtain ⟨tally₀, htally₀, hadd⟩ := bind_eq_ok.mp htally'
      cases htally₀
      simpa [Source.gather] using hadd
    refine ⟨tally' :: tallies', ?_, .cons htally' hgathered⟩
    simp only [addTo] at haddTo
    simp only [addTo, List.zip_cons_cons, List.mapM_cons, hadd, haddTo]
    rfl

/-! ## Buckets -/

/-- The key text of a document. -/
def textOf (key : Source) (doc : Document) : List Char :=
  (keyText (key.valueIn doc)).toOption.getD []

/-- The documents of a key text. -/
def withText (key : Source) (text : List Char) (docs : List Document) : List Document :=
  docs.filter fun doc => textOf key doc = text

/-- A bucket holds what was gathered from documents, and the first one's value. -/
structure Bucket.Holds (columns : List Column) (key : Source) (docs : List Document)
    (bucket : Bucket) : Prop where
  value : docs.head?.map key.valueIn = some bucket.value
  tallies : Gathered columns docs bucket.tallies

/-- The bucket of a document, by its place. -/
def placeIn (key : Source) (buckets : List Bucket) (doc : Document) : Nat :=
  (buckets.map (·.text)).idxOf (textOf key doc)

/-- Buckets hold what was gathered from the documents seen. -/
structure Filled (columns : List Column) (key : Source) (seen : List Document)
    (buckets : List Bucket) : Prop where
  distinct : (buckets.map (·.text)).Nodup
  complete : ∀ doc ∈ seen, textOf key doc ∈ buckets.map (·.text)
  holds : ∀ bucket ∈ buckets, bucket.Holds columns key (withText key bucket.text seen)
  /-- The documents of any front part fill the first buckets. -/
  ordered : ∀ front, front <+: seen →
    ∃ k, ∀ r, (∃ doc ∈ front, placeIn key buckets doc = r) ↔ r < k

variable {columns : List Column} {key : Source} {seen : List Document} {buckets : List Bucket}
  {doc : Document}

theorem Filled.nil : Filled columns key [] [] := by
  refine ⟨.nil, by simp, by simp, fun front hfront => ⟨0, fun r => ?_⟩⟩
  simp [List.prefix_nil.mp hfront]

theorem put_of_mem {before after : List Bucket} {bucket : Bucket} {text : List Char}
    {value : Value} {tallies : List Tally} (hbefore : ∀ b ∈ before, b.text ≠ text)
    (htext : bucket.text = text) (h : addTo columns doc bucket.tallies = .ok tallies) :
    put columns doc text value (before ++ bucket :: after) =
      .ok (before ++ { bucket with tallies } :: after) := by
  induction before with
  | nil =>
    rw [List.nil_append, put, if_pos htext, h]
    rfl
  | cons b before ih =>
    rw [List.forall_mem_cons] at hbefore
    rw [List.cons_append, put, if_neg hbefore.1, ih hbefore.2]
    rfl

theorem put_of_new {text : List Char} {value : Value} {tallies : List Tally}
    (hnew : ∀ b ∈ buckets, b.text ≠ text)
    (h : addTo columns doc (columns.map fun column => .start column.accumulator) = .ok tallies) :
    put columns doc text value buckets = .ok (buckets ++ [⟨text, value, tallies⟩]) := by
  induction buckets with
  | nil =>
    rw [put, h]
    rfl
  | cons b buckets ih =>
    rw [List.forall_mem_cons] at hnew
    rw [put, if_neg hnew.1, ih hnew.2]
    rfl

theorem Bucket.Holds.concat {docs : List Document} {bucket : Bucket} {tallies : List Tally}
    (h : bucket.Holds columns key docs) (htallies : Gathered columns (docs ++ [doc]) tallies) :
    Bucket.Holds columns key (docs ++ [doc]) { bucket with tallies } := by
  obtain ⟨first, hfirst, hvalue⟩ := Option.map_eq_some_iff.mp h.value
  refine ⟨?_, htallies⟩
  rw [List.head?_append, hfirst, Option.some_or, Option.map_some, hvalue]

theorem Bucket.Holds.exists_doc {bucket : Bucket} {text : List Char}
    (h : bucket.Holds columns key (withText key text seen)) :
    ∃ doc ∈ seen, textOf key doc = text := by
  obtain ⟨doc, hdoc, -⟩ := Option.map_eq_some_iff.mp h.value
  obtain ⟨hmem, htext⟩ := List.mem_filter.mp (List.mem_of_mem_head? hdoc)
  exact ⟨doc, hmem, of_decide_eq_true htext⟩

/-- Buckets of distinct texts, in which all documents are and none is empty, are all filled. -/
theorem exists_placeIn_iff (hdistinct : (buckets.map (·.text)).Nodup)
    (hcomplete : ∀ doc ∈ seen, textOf key doc ∈ buckets.map (·.text))
    (hholds : ∀ bucket ∈ buckets,
      bucket.Holds columns key (withText key bucket.text seen)) (r : Nat) :
    (∃ doc ∈ seen, placeIn key buckets doc = r) ↔ r < buckets.length := by
  constructor
  · rintro ⟨doc, hdoc, rfl⟩
    have hlt := List.idxOf_lt_length_of_mem (hcomplete doc hdoc)
    rwa [List.length_map] at hlt
  · intro hr
    obtain ⟨doc, hdoc, htext⟩ := (hholds buckets[r] (List.getElem_mem hr)).exists_doc
    refine ⟨doc, hdoc, ?_⟩
    rw [placeIn, htext]
    have hplace := hdistinct.idxOf_getElem r (by rwa [List.length_map])
    rwa [List.getElem_map] at hplace

/-- One more document, which leaves the places of the others as they are. -/
theorem Filled.extend {buckets' : List Bucket} (h : Filled columns key seen buckets)
    (hdistinct : (buckets'.map (·.text)).Nodup)
    (hcomplete : ∀ other ∈ seen ++ [doc], textOf key other ∈ buckets'.map (·.text))
    (hholds : ∀ bucket ∈ buckets',
      bucket.Holds columns key (withText key bucket.text (seen ++ [doc])))
    (hplaces : ∀ other ∈ seen, placeIn key buckets' other = placeIn key buckets other) :
    Filled columns key (seen ++ [doc]) buckets' := by
  refine ⟨hdistinct, hcomplete, hholds, fun front hfront => ?_⟩
  rcases List.prefix_concat_iff.mp hfront with rfl | hfront
  · exact ⟨buckets'.length, exists_placeIn_iff hdistinct hcomplete hholds⟩
  · obtain ⟨k, hk⟩ := h.ordered front hfront
    refine ⟨k, fun r => Iff.trans ?_ (hk r)⟩
    refine exists_congr fun other => and_congr_right fun hother => ?_
    rw [hplaces other (hfront.subset hother)]

theorem withText_concat_self :
    withText key (textOf key doc) (seen ++ [doc]) =
      withText key (textOf key doc) seen ++ [doc] := by
  simp [withText]

theorem withText_concat_of_ne {text : List Char} (h : text ≠ textOf key doc) :
    withText key text (seen ++ [doc]) = withText key text seen := by
  simp [withText, h.symm]

/-- A document of a key text seen before goes into its bucket. -/
theorem Filled.put_seen {before after : List Bucket} {bucket : Bucket}
    (h : Filled columns key seen (before ++ bucket :: after)) (htext : bucket.text = textOf key doc)
    (hnext : ∀ column ∈ columns, ∃ tally, column.gather
      (withText key (textOf key doc) (seen ++ [doc])) = .ok tally) :
    ∃ buckets', put columns doc (textOf key doc) (key.valueIn doc) (before ++ bucket :: after) =
      .ok buckets' ∧ Filled columns key (seen ++ [doc]) buckets' := by
  have hholds := h.holds bucket (by simp)
  rw [htext] at hholds
  rw [withText_concat_self] at hnext
  obtain ⟨tallies, haddTo, hgathered⟩ := exists_addTo hholds.tallies hnext
  have hdistinct := h.distinct
  rw [List.map_append, List.map_cons, List.nodup_middle, List.nodup_cons, htext,
    ← List.map_append] at hdistinct
  have hne : ∀ b ∈ before ++ after, b.text ≠ textOf key doc := fun b hb heq =>
    hdistinct.1 (heq ▸ List.mem_map_of_mem hb)
  have htexts : (before ++ { bucket with tallies } :: after).map (·.text) =
      (before ++ bucket :: after).map (·.text) := by simp
  refine ⟨_, put_of_mem (fun b hb => hne b (List.mem_append_left _ hb)) htext haddTo, ?_⟩
  refine h.extend (htexts ▸ h.distinct) ?_ ?_ fun other _ => by rw [placeIn, htexts, placeIn]
  · rw [htexts]
    refine List.forall_mem_append.mpr ⟨h.complete, List.forall_mem_singleton.mpr ?_⟩
    rw [← htext]
    exact List.mem_map_of_mem (by simp)
  · have hdocs : withText key bucket.text (seen ++ [doc]) =
        withText key (textOf key doc) seen ++ [doc] := by rw [htext, withText_concat_self]
    intro b hb
    have hold (hb : b ∈ before ++ after) :
        b.Holds columns key (withText key b.text (seen ++ [doc])) := by
      rw [withText_concat_of_ne (hne b hb)]
      exact h.holds b (by simp at hb ⊢; tauto)
    rcases List.mem_append.mp hb with hb | hb
    · exact hold (List.mem_append_left _ hb)
    · rcases List.mem_cons.mp hb with rfl | hb
      · show Bucket.Holds columns key (withText key bucket.text (seen ++ [doc])) _
        rw [hdocs]
        exact hholds.concat hgathered
      · exact hold (List.mem_append_right _ hb)

/-- A document of a new key text opens a bucket. -/
theorem Filled.put_new (h : Filled columns key seen buckets)
    (hnew : textOf key doc ∉ buckets.map (·.text))
    (hnext : ∀ column ∈ columns, ∃ tally, column.gather
      (withText key (textOf key doc) (seen ++ [doc])) = .ok tally) :
    ∃ buckets', put columns doc (textOf key doc) (key.valueIn doc) buckets =
      .ok buckets' ∧ Filled columns key (seen ++ [doc]) buckets' := by
  have hnone : withText key (textOf key doc) seen = [] := by
    refine List.filter_eq_nil_iff.mpr fun other hother heq => hnew ?_
    rw [← of_decide_eq_true heq]
    exact h.complete other hother
  have hsingle : withText key (textOf key doc) (seen ++ [doc]) = [doc] := by
    rw [withText_concat_self, hnone, List.nil_append]
  rw [hsingle] at hnext
  obtain ⟨tallies, haddTo, hgathered⟩ := exists_addTo (gathered_nil columns) hnext
  have hne : ∀ b ∈ buckets, b.text ≠ textOf key doc := fun b hb heq =>
    hnew (heq ▸ List.mem_map_of_mem hb)
  refine ⟨_, put_of_new hne haddTo, h.extend ?_ ?_ ?_ fun other hother => ?_⟩
  · rw [List.map_append, List.map_singleton, ← List.concat_eq_append]
    exact h.distinct.concat hnew
  · rw [List.map_append]
    refine List.forall_mem_append.mpr ⟨fun other hother => ?_, by simp⟩
    exact List.mem_append_left _ (h.complete other hother)
  · refine List.forall_mem_append.mpr ⟨fun b hb => ?_, List.forall_mem_singleton.mpr ?_⟩
    · rw [withText_concat_of_ne (hne b hb)]
      exact h.holds b hb
    · dsimp only
      rw [hsingle]
      exact ⟨rfl, hgathered⟩
  · rw [placeIn, List.map_append, List.idxOf_append_of_mem (h.complete other hother), placeIn]

theorem fill_spec {rest : List Document} (h : Filled columns key seen buckets)
    (hkeys : ∀ doc ∈ rest, ∃ text, keyText (key.valueIn doc) = .ok text)
    (hfold : ∀ doc ∈ rest, ∀ column ∈ columns, ∃ tally,
      column.gather (withText key (textOf key doc) (seen ++ rest)) = .ok tally) :
    ∃ buckets', fill columns key rest buckets = .ok buckets' ∧
      Filled columns key (seen ++ rest) buckets' := by
  induction rest generalizing seen buckets with
  | nil => exact ⟨buckets, rfl, by rwa [List.append_nil]⟩
  | cons doc rest ih =>
    rw [List.forall_mem_cons] at hkeys hfold
    obtain ⟨⟨text, htext⟩, hkeys⟩ := hkeys
    obtain rfl : textOf key doc = text := by rw [textOf, htext]; rfl
    rw [List.append_cons] at hfold ⊢
    have hnext : ∀ column ∈ columns, ∃ tally, column.gather
        (withText key (textOf key doc) (seen ++ [doc])) = .ok tally := by
      intro column hcolumn
      have hall := hfold.1 column hcolumn
      rw [withText, List.filter_append] at hall
      exact Column.exists_gather_of_append hall
    obtain ⟨buckets₁, hput, h₁⟩ : ∃ buckets₁,
        put columns doc (textOf key doc) (key.valueIn doc) buckets = .ok buckets₁ ∧
          Filled columns key (seen ++ [doc]) buckets₁ := by
      by_cases hseen : textOf key doc ∈ buckets.map (·.text)
      · obtain ⟨bucket, hbucket, heq⟩ := List.mem_map.mp hseen
        obtain ⟨before, after, rfl⟩ := List.append_of_mem hbucket
        exact h.put_seen heq hnext
      · exact h.put_new hseen hnext
    obtain ⟨buckets₂, hfill, h₂⟩ := ih h₁ hkeys hfold.2
    refine ⟨buckets₂, ?_, h₂⟩
    simp only [fill, htext, hput, bind, Except.bind, Except.mapError]
    exact hfill

/-! ## Rows -/

/-- A row for documents: the value of the first one, and what each column gives. -/
def IsRow (key : Source) (columns : List Column) (docs : List Document) (row : Document) : Prop :=
  ∃ first rest fields, docs = first :: rest ∧ row = (.str "_id", key.valueIn first) :: fields ∧
    List.Forall₂ (fun column field => field.1 = column.field ∧ column.Gives docs field.2)
      columns fields

theorem exists_fields {docs : List Document} {tallies : List Tally}
    (h : Gathered columns docs tallies)
    (hfold : ∀ column ∈ columns, ∃ v, column.fold docs = .ok v) :
    ∃ fields, ((columns.zip tallies).mapM fun (column, tally) => do
        .ok (column.field, ← tally.result)) = (.ok fields : Except ArithmeticError Document) ∧
      List.Forall₂ (fun column field => field.1 = column.field ∧ column.Gives docs field.2)
        columns fields := by
  induction h with
  | nil => exact ⟨[], rfl, .nil⟩
  | @cons column tally columns tallies hcolumn _ ih =>
    rw [List.forall_mem_cons] at hfold
    obtain ⟨⟨v, hv⟩, hfold⟩ := hfold
    obtain ⟨fields, hfields, hgives⟩ := ih hfold
    have hresult : tally.result = .ok v := by
      rw [Column.fold, hcolumn] at hv
      exact hv
    refine ⟨(column.field, v) :: fields, ?_, .cons ⟨rfl, Column.gives_of_fold hv⟩ hgives⟩
    simp only [List.zip_cons_cons, List.mapM_cons, hfields, hresult]
    rfl

theorem Bucket.Holds.exists_row {docs : List Document} {bucket : Bucket}
    (h : bucket.Holds columns key docs)
    (hfold : ∀ column ∈ columns, ∃ v, column.fold docs = .ok v) :
    ∃ row, Group.row columns bucket = .ok row ∧ IsRow key columns docs row := by
  obtain ⟨first, hfirst, hvalue⟩ := Option.map_eq_some_iff.mp h.value
  obtain ⟨rest, rfl⟩ := List.head?_eq_some_iff.mp hfirst
  obtain ⟨fields, hfields, hgives⟩ := exists_fields h.tallies hfold
  refine ⟨(.str "_id", bucket.value) :: fields, ?_, first, rest, fields, rfl, by rw [hvalue],
    hgives⟩
  rw [Group.row, hfields]
  rfl

theorem exists_rows {key : Source} {docsOf : Bucket → List Document}
    (h : ∀ bucket ∈ buckets, ∃ row, Group.row columns bucket = .ok row ∧
      IsRow key columns (docsOf bucket) row) :
    ∃ rows, buckets.mapM (Group.row columns) = .ok rows ∧
      List.Forall₂ (fun bucket row => IsRow key columns (docsOf bucket) row) buckets rows := by
  induction buckets with
  | nil => exact ⟨[], rfl, .nil⟩
  | cons bucket buckets ih =>
    rw [List.forall_mem_cons] at h
    obtain ⟨⟨row, hrow, hisRow⟩, h⟩ := h
    obtain ⟨rows, hrows, hall⟩ := ih h
    exact ⟨row :: rows, by rw [List.mapM_cons, hrow, hrows]; rfl, .cons hisRow hall⟩

/-! ## Grouping by a field -/

theorem Source.ofValue_field (name : String) : ofValue (.str ("$" ++ name)) = .field name := by
  have htext : ("$" ++ name).toList = '$' :: name.toList := String.toList_append
  simp [ofValue, Value.isDollar, htext]

theorem keySource_field {spec : Fields} {name : String}
    (h : Fields.getText? spec "_id" = some (.str ("$" ++ name))) :
    keySource spec = .field name := by
  rw [keySource, h]
  exact Source.ofValue_field name

/-- Every document is counted in one row. -/
theorem sum_length_filter {place : Document → Nat} {n : Nat} {docs : List Document}
    (h : ∀ doc ∈ docs, place doc < n) :
    ∑ r ∈ Finset.range n, (docs.filter fun doc => place doc = r).length = docs.length := by
  induction docs with
  | nil => simp
  | cons doc docs ih =>
    rw [List.forall_mem_cons] at h
    have hcount : ∀ r, ((doc :: docs).filter fun doc => place doc = r).length =
        (docs.filter fun doc => place doc = r).length + if place doc = r then 1 else 0 := by
      intro r
      rw [List.filter_cons]
      by_cases hr : place doc = r <;> simp [hr]
    simp only [hcount, Finset.sum_add_distrib, ih h.2]
    rw [Finset.sum_ite_eq, if_pos (Finset.mem_range.mpr h.1), List.length_cons]

/-- Rows for the classes of documents whose values agree. Every document has a place among them. -/
structure RowsByAgreement (key : Source) (columns : List Column) (docs rows : List Document)
    (place : Document → Nat) : Prop where
  /-- Two documents land in the same row exactly when their values agree. -/
  together : ∀ a ∈ docs, ∀ b ∈ docs,
    place a = place b ↔ (key.valueIn a).agrees (key.valueIn b) = true
  /-- Rows come in the order of first appearance: any front part of the documents fills the first
  rows and no other. -/
  ordered : ∀ front, front <+: docs → ∃ k, ∀ r, (∃ doc ∈ front, place doc = r) ↔ r < k
  /-- No document is left out. -/
  placed : ∀ doc ∈ docs, place doc < rows.length
  /-- A row holds what the columns give for its documents, in their order. -/
  isRow : ∀ r (hr : r < rows.length),
    IsRow key columns (docs.filter fun doc => place doc = r) rows[r]
  /-- The rows' documents add up to all documents. -/
  counted : ∑ r ∈ Finset.range rows.length, (docs.filter fun doc => place doc = r).length =
    docs.length

theorem Filled.withText_eq (h : Filled columns key seen buckets) {r : Nat}
    (hr : r < buckets.length) :
    withText key buckets[r].text seen = seen.filter fun doc => placeIn key buckets doc = r := by
  refine List.filter_congr fun doc hdoc => decide_eq_decide.mpr ?_
  have hlength : r < (buckets.map (·.text)).length := by rwa [List.length_map]
  have htext : (buckets.map (·.text))[r] = buckets[r].text := List.getElem_map _
  have hplace := h.distinct.idxOf_getElem r hlength
  rw [htext] at hplace
  constructor
  · intro heq
    rw [placeIn, heq, hplace]
  · intro heq
    rw [placeIn, ← hplace] at heq
    exact (List.idxOf_inj (h.complete doc hdoc)).mp heq

section

variable {docs : List Document}
  (hshort : ∀ doc ∈ docs, (key.valueIn doc).isJson Number.isShort = true)
  (hdefined : ∀ doc ∈ docs, (key.valueIn doc).isJson Number.isDefined = true)

include hshort hdefined

theorem textOf_eq_iff {a b : Document} (ha : a ∈ docs) (hb : b ∈ docs) :
    textOf key a = textOf key b ↔ (key.valueIn a).agrees (key.valueIn b) = true := by
  obtain ⟨s, hs⟩ := exists_keyText (hshort a ha)
  obtain ⟨t, ht⟩ := exists_keyText (hshort b hb)
  rw [textOf, textOf, hs, ht]
  exact keyText_eq_iff (hdefined a ha) (hdefined b hb) hs ht

/-- The documents of a key text are those whose values agree. -/
theorem withText_textOf (hdoc : doc ∈ docs) : withText key (textOf key doc) docs =
    docs.filter fun other => (key.valueIn doc).agrees (key.valueIn other) := by
  refine List.filter_congr fun other hother => ?_
  rw [Bool.eq_iff_iff, decide_eq_true_iff, ← textOf_eq_iff hshort hdefined hdoc hother]
  exact eq_comm

end

/-- **Grouping by a field gives a row for each class of documents whose values agree.** -/
theorem rows_of_field {strict : Bool} {spec : Fields} {name : String} {columns : List Column}
    {docs : List Document} (hid : Fields.getText? spec "_id" = some (.str ("$" ++ name)))
    (hcolumns : columnsOrCount strict spec = .ok columns)
    (hshort : ∀ doc ∈ docs, ((Source.field name).valueIn doc).isJson Number.isShort = true)
    (hdefined : ∀ doc ∈ docs, ((Source.field name).valueIn doc).isJson Number.isDefined = true)
    (hfold : ∀ doc ∈ docs, ∀ column ∈ columns, ∃ v, column.fold (docs.filter fun other =>
      ((Source.field name).valueIn doc).agrees ((Source.field name).valueIn other)) = .ok v) :
    ∃ rows, Group.rows strict (.object spec) docs = .ok rows ∧
      ∃ place, RowsByAgreement (.field name) columns docs rows place := by
  have hsource := keySource_field hid
  generalize Source.field name = key at *
  have hfold' : ∀ doc ∈ docs, ∀ column ∈ columns, ∃ v,
      column.fold (withText key (textOf key doc) docs) = .ok v := by
    intro doc hdoc
    rw [withText_textOf hshort hdefined hdoc]
    exact hfold doc hdoc
  have hgather : ∀ doc ∈ docs, ∀ column ∈ columns, ∃ tally,
      column.gather (withText key (textOf key doc) ([] ++ docs)) = .ok tally := by
    intro doc hdoc column hcolumn
    obtain ⟨v, hv⟩ := hfold' doc hdoc column hcolumn
    obtain ⟨tally, htally, -⟩ := bind_eq_ok.mp hv
    exact ⟨tally, htally⟩
  obtain ⟨buckets, hfill, hfilled⟩ :=
    fill_spec Filled.nil (fun doc hdoc => exists_keyText (hshort doc hdoc)) hgather
  rw [List.nil_append] at hfilled
  have hrow : ∀ bucket ∈ buckets, ∃ row, Group.row columns bucket = .ok row ∧
      IsRow key columns (withText key bucket.text docs) row := by
    intro bucket hbucket
    have hholds := hfilled.holds bucket hbucket
    obtain ⟨doc, hdoc, htext⟩ := hholds.exists_doc
    exact hholds.exists_row (htext ▸ hfold' doc hdoc)
  obtain ⟨rows, hrows, hall⟩ := exists_rows hrow
  have hlength := hall.length_eq
  have hplaced : ∀ doc ∈ docs, placeIn key buckets doc < rows.length := by
    intro doc hdoc
    rw [← hlength]
    exact (exists_placeIn_iff hfilled.distinct hfilled.complete hfilled.holds _).mp ⟨doc, hdoc, rfl⟩
  refine ⟨rows, ?_, placeIn key buckets, ?_, hfilled.ordered, hplaced, ?_,
    sum_length_filter hplaced⟩
  · simp only [Group.rows, hcolumns, hsource, hfill, hrows, bind, Except.bind, Except.mapError]
  · intro a ha b hb
    rw [← textOf_eq_iff hshort hdefined ha hb]
    exact List.idxOf_inj (hfilled.complete a ha)
  · intro r hr
    have hr' : r < buckets.length := by rwa [hlength]
    rw [← hfilled.withText_eq hr']
    exact (List.forall₂_iff_get.mp hall).2 r hr' hr

/-- Documents with numbers of both kinds, a boolean and no value in a field. -/
def mixedDocs : List Document :=
  [[(.str "f", .int 1), (.str "g", .int 2)], [(.str "f", .bool true)],
    [(.str "f", .float (.ofInt 1)), (.str "g", .null)], [(.str "g", .str "x")]]

/-- Group by the field, counting documents and collecting the values of another field. -/
def mixedSpec : Fields :=
  [(.str "_id", .str "$f"), (.str "n", .object [(.str "$count", .null)]),
    (.str "all", .object [(.str "$push", .str "$g")])]

/-- The columns of this grouping. -/
def mixedColumns : List Column :=
  [⟨.str "n", .count, .constant .null⟩, ⟨.str "all", .collect, .field "g"⟩]

theorem rows_of_field_mixedDocs :
    columnsOrCount true mixedSpec = .ok mixedColumns ∧
      ∃ rows, Group.rows true (.object mixedSpec) mixedDocs = .ok rows ∧
        ∃ place, RowsByAgreement (.field "f") mixedColumns mixedDocs rows place := by
  have hid : Fields.getText? mixedSpec "_id" = some (.str ("$" ++ "f")) :=
    Fields.getText?_cons_self ..
  have hcolumns : columnsOrCount true mixedSpec = .ok mixedColumns := by
    have hself : (Value.str "_id").equals (.str "_id") = true := by decide +kernel
    have hn : (Value.str "n").equals (.str "_id") = false := by decide +kernel
    have hall : (Value.str "all").equals (.str "_id") = false := by decide +kernel
    simp only [columnsOrCount, mixedSpec, columns, hself, hn, hall, if_true, Bool.false_eq_true,
      if_false]
    rfl
  have hfold : ∀ column ∈ mixedColumns, ∀ docs, ∃ v, column.fold docs = .ok v := by
    intro column hcolumn
    exact Column.exists_fold (by revert column; decide) (by revert column; decide)
  exact ⟨hcolumns, rows_of_field hid hcolumns (by decide +kernel) (by decide +kernel)
    fun doc _ column hcolumn => hfold column hcolumn _⟩

end Group

end SnapshotStore
