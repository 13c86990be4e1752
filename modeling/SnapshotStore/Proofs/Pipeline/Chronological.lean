import SnapshotStore.Proofs.Pipeline.Distinct
import SnapshotStore.Proofs.Pipeline.Failure
import SnapshotStore.Proofs.Pipeline.Sorted
import SnapshotStore.Proofs.Query.AsWritten
import SnapshotStore.Proofs.Query.Comparison
import SnapshotStore.Proofs.Time.Order

/-!
# Stored times in order

Documents hold the texts of the times that they were given. Sorting, and the accumulators of the
least and the greatest value, compare these texts as they are. A query that asks with a time reads
them back.

**Theorem (`ordered_by_instant`).** Where all times have the same offset of whole minutes, or none
has one, all of these go by the instants. Sorting puts documents in order of time, those of one
instant as they were given. The least value of a group is its earliest time, the greatest value its
latest. A document is asked for by an earlier or a later time just where the texts compare so.

The texts stand to each other as the instants do (`DateTime.compare_text`). So a document goes
before another one where its instant does (`Timed.goesBefore_eq`), and an extreme keeps the text of
the lower or the higher instant (`Timed.better_eq`). A text that is read back is the time that was
given, so it is compared by the same instants.
-/

namespace SnapshotStore

open SnapshotStore.Group SnapshotStore.Pipeline

/-! ## Stored times -/

/-- The document was stored with a time in a field. -/
def Document.StoredWith (doc : Document) (name : String) (t : DateTime) : Prop :=
  ∃ fields, Document.normalize (.object fields) = .ok doc ∧
    Document.given? fields name = some (.datetime t)

/-- The text of a time as a value. -/
def DateTime.stored (t : DateTime) : Value := .str (String.ofList t.text)

/-- Of two times with the same offset, or without one, the later one is stored as the greater. -/
theorem DateTime.isGreater_stored {s t : DateTime} (h : s.offset = t.offset) :
    s.stored.isGreater t.stored = decide (t.instant < s.instant) := by
  rw [stored, stored, Value.isGreater_of_texts, compare_text h, Bool.eq_iff_iff, beq_iff_eq,
    decide_eq_true_iff, compare_gt_iff_gt]

/-- The documents were stored with times in a field that all have the same offset, of whole minutes,
or all have none. -/
structure Timed (name : String) (offset : Option Offset) (time : Document → DateTime)
    (docs : List Document) : Prop where
  stored : ∀ doc ∈ docs, doc.StoredWith name (time doc)
  offset_eq : ∀ doc ∈ docs, (time doc).offset = offset
  inMinutes : ∀ o ∈ offset, o.InMinutes

namespace Document.StoredWith

variable {doc : Document} {name : String} {t : DateTime}

theorem getText?_eq (h : doc.StoredWith name t) : Fields.getText? doc name = some t.stored := by
  obtain ⟨fields, hstored, hgiven⟩ := h
  obtain ⟨w, hw, hheld⟩ := Document.exists_getText?_normalize hstored hgiven
  cases hw
  exact hheld

theorem groupable (h : doc.StoredWith name t) : Group.Groupable (.object doc) := by
  obtain ⟨fields, hstored, -⟩ := h
  refine Value.isJson_mono (fun n hn => ?_) (Document.isJson_normalize hstored)
  obtain ⟨hshort, hfinite⟩ := Bool.and_eq_true_iff.mp hn
  exact Bool.and_eq_true_iff.mpr ⟨hshort, Number.isDefined_of_isFinite hfinite⟩

end Document.StoredWith

variable {name : String} {offset : Option Offset} {time : Document → DateTime}
  {docs : List Document} {a b : Document}

namespace Timed

theorem valueUnder_eq (h : Timed name offset time docs) (ha : a ∈ docs) :
    valueUnder (.str name) a = (time a).stored := by
  have hheld := (h.stored a ha).getText?_eq
  rw [Fields.getText?] at hheld
  rw [valueUnder, hheld, Option.getD_some]

/-- A stored time is greater than another one if it is later. -/
theorem isGreater_eq (h : Timed name offset time docs) (ha : a ∈ docs) (hb : b ∈ docs) :
    (time a).stored.isGreater (time b).stored = decide ((time b).instant < (time a).instant) :=
  DateTime.isGreater_stored ((h.offset_eq a ha).trans (h.offset_eq b hb).symm)

/-! ## Sorting -/

theorem goesBefore_eq (h : Timed name offset time docs) (ha : a ∈ docs) (hb : b ∈ docs) :
    goesBefore [(.str name, .int 1)] a b = decide ((time a).instant < (time b).instant) := by
  have hascending : isDescending (.int 1) = false := by decide +kernel
  rw [goesBefore_cons, h.valueUnder_eq ha, h.valueUnder_eq hb, h.isGreater_eq ha hb,
    h.isGreater_eq hb ha, hascending]
  by_cases hlater : (time b).instant < (time a).instant
  · simp [hlater, hlater.le]
  · by_cases hearlier : (time a).instant < (time b).instant <;> simp [hlater, hearlier, goesBefore]

/-- **Sorting puts documents in order of time,** and those of one instant as they were given. -/
theorem exists_sorted (h : Timed name offset time docs) :
    ∃ out, sorted (.object [(.str name, .int 1)]) docs = .ok out ∧ out.Perm docs ∧
      out.Pairwise (fun a b => (time a).instant ≤ (time b).instant) ∧
      ∀ doc ∈ docs, out.filter (fun other => (time other).instant = (time doc).instant) =
        docs.filter fun other => (time other).instant = (time doc).instant := by
  have hbefore : ∀ a ∈ docs, ∀ b ∈ docs, goesBefore [(.str name, .int 1)] a b =
      (compareOn (fun doc => (time doc).instant) a b == .lt) := by
    intro a ha b hb
    rw [h.goesBefore_eq ha hb, Bool.eq_iff_iff, decide_eq_true_iff, beq_iff_eq]
    exact compare_lt_iff_lt.symm
  obtain ⟨hperm, hordered, hstable⟩ :=
    Sort.stablySorted_sort (Sort.WeakOrder.of_ordering hbefore)
  have hmem {doc : Document} (hdoc : doc ∈ Sort.sort (goesBefore [(.str name, .int 1)]) docs) :
      doc ∈ docs := hperm.mem_iff.mp hdoc
  have htied : ∀ doc ∈ docs, ∀ out, out ⊆ docs →
      out.filter (Sort.tied (goesBefore [(.str name, .int 1)]) doc) =
        out.filter fun other => (time other).instant = (time doc).instant := by
    intro doc hdoc out hout
    refine List.filter_congr fun other hother => ?_
    rw [Bool.eq_iff_iff, Sort.tied_iff, h.goesBefore_eq hdoc (hout hother),
      h.goesBefore_eq (hout hother) hdoc, decide_eq_false_iff_not, decide_eq_false_iff_not,
      decide_eq_true_iff]
    omega
  refine ⟨_, rfl, hperm, hordered.imp_of_mem fun ha hb hnot => ?_, fun doc hdoc => ?_⟩
  · rw [h.goesBefore_eq (hmem hb) (hmem ha), decide_eq_false_iff_not] at hnot
    exact not_lt.mp hnot
  · rw [← htied doc hdoc _ fun _ => hmem, ← htied doc hdoc docs (List.Subset.refl _)]
    exact hstable doc hdoc

/-! ## Extremes -/

theorem better_eq (h : Timed name offset time docs) (ha : a ∈ docs) (hb : b ∈ docs) :
    Tally.better .less (time a).stored (time b).stored =
        (if (time b).instant < (time a).instant then (time b).stored else (time a).stored) ∧
      Tally.better .greater (time a).stored (time b).stored =
        if (time a).instant < (time b).instant then (time b).stored else (time a).stored := by
  have hbetter (wanted : Relation) : Tally.better wanted (time a).stored (time b).stored =
      if Relation.ofOrdering (compare (time b).instant (time a).instant) = wanted
      then (time b).stored else (time a).stored := by
    rw [← DateTime.compare_text ((h.offset_eq b hb).trans (h.offset_eq a ha).symm)]
    simp only [DateTime.stored, Tally.better, Value.relate?, beq_iff_eq, Option.some_inj]
  rw [hbetter, hbetter]
  rcases lt_trichotomy (time a).instant (time b).instant with hlt | heq | hgt
  · rw [compare_gt_iff_gt.mpr hlt]
    simp [Relation.ofOrdering, hlt, hlt.le]
  · rw [compare_eq_iff_eq.mpr heq.symm]
    simp [Relation.ofOrdering, heq]
  · rw [compare_lt_iff_lt.mpr hgt]
    simp [Relation.ofOrdering, hgt, hgt.le]

end Timed

/-! ## Extremes of a group -/

namespace Group

theorem Source.gather_extremes (source : Source) (best : Value) (docs : List Document) :
    source.gather (.least best) docs =
        .ok (.least ((docs.map source.valueIn).foldl (Tally.better .less) best)) ∧
      source.gather (.greatest best) docs =
        .ok (.greatest ((docs.map source.valueIn).foldl (Tally.better .greater) best)) := by
  constructor
  all_goals
    induction docs generalizing best with
    | nil => rfl
    | cons doc docs ih =>
      rw [gather_cons, Tally.add.eq_def]
      exact ih _

/-- Where the better of two values is that of lower rank, the best of several is of lowest rank. -/
theorem exists_best (wanted : Relation) {value : Document → Value} (rank : Document → Int)
    {first : Document} {rest : List Document}
    (h : ∀ a ∈ first :: rest, ∀ b ∈ first :: rest, Tally.better wanted (value a) (value b) =
      if rank b < rank a then value b else value a) :
    ∃ best ∈ first :: rest,
      (rest.map value).foldl (Tally.better wanted) (value first) = value best ∧
      ∀ doc ∈ first :: rest, rank best ≤ rank doc := by
  induction rest generalizing first with
  | nil => exact ⟨first, List.mem_cons_self, rfl, by simp⟩
  | cons next rest ih =>
    have hnext : next ∈ first :: next :: rest := List.mem_cons_of_mem _ List.mem_cons_self
    have hstep := h first List.mem_cons_self next hnext
    rw [List.map_cons, List.foldl_cons, hstep]
    split_ifs with hlower
    · obtain ⟨best, hbest, heq, hle⟩ := @ih next fun a ha b hb =>
        h a (List.mem_cons_of_mem _ ha) b (List.mem_cons_of_mem _ hb)
      have hfirst : rank best ≤ rank first := (hle next List.mem_cons_self).trans hlower.le
      exact ⟨best, List.mem_cons_of_mem _ hbest, heq, List.forall_mem_cons.mpr ⟨hfirst, hle⟩⟩
    · have hsub {doc : Document} (hdoc : doc ∈ first :: rest) : doc ∈ first :: next :: rest :=
        List.cons_subset_cons first (List.subset_cons_self next rest) hdoc
      obtain ⟨best, hbest, heq, hle⟩ := @ih first fun a ha b hb =>
        h a (hsub ha) b (hsub hb)
      rw [List.forall_mem_cons] at hle
      have hnext : rank best ≤ rank next := hle.1.trans (not_lt.mp hlower)
      exact ⟨best, hsub hbest, heq,
        List.forall_mem_cons.mpr ⟨hle.1, List.forall_mem_cons.mpr ⟨hnext, hle.2⟩⟩⟩

end Group

/-- The value is the text of the earliest time of a group. -/
def IsEarliest (time : Document → DateTime) (group : List Document) (v : Value) : Prop :=
  ∃ doc ∈ group, v = (time doc).stored ∧
    ∀ other ∈ group, (time doc).instant ≤ (time other).instant

/-- The value is the text of the latest time of a group. -/
def IsLatest (time : Document → DateTime) (group : List Document) (v : Value) : Prop :=
  ∃ doc ∈ group, v = (time doc).stored ∧
    ∀ other ∈ group, (time other).instant ≤ (time doc).instant

namespace Timed

theorem map_valueIn (h : Timed name offset time docs) :
    docs.map (Source.field name).valueIn = docs.map fun doc => (time doc).stored := by
  refine List.map_congr_left fun doc hdoc => ?_
  rw [Source.valueIn, (h.stored doc hdoc).getText?_eq, Option.getD_some]

/-- **The extremes of a group are its earliest and its latest time.** -/
theorem exists_fold (h : Timed name offset time docs) (hdocs : docs ≠ []) (column : Value) :
    (∃ v, Column.fold ⟨column, .least, .field name⟩ docs = .ok v ∧ IsEarliest time docs v) ∧
      ∃ v, Column.fold ⟨column, .greatest, .field name⟩ docs = .ok v ∧ IsLatest time docs v := by
  obtain ⟨first, rest, rfl⟩ := List.exists_cons_of_ne_nil hdocs
  obtain ⟨hleast, hgreatest⟩ := (Source.field name).gather_extremes .null (first :: rest)
  rw [h.map_valueIn, List.map_cons, List.foldl_cons] at hleast hgreatest
  constructor
  · obtain ⟨best, hbest, heq, hle⟩ := exists_best .less (fun doc => (time doc).instant)
      fun a ha b hb => (h.better_eq ha hb).1
    refine ⟨(time best).stored, ?_, best, hbest, rfl, hle⟩
    rw [← heq]
    exact congrArg (· >>= Tally.result) hleast
  · have hlater : ∀ a ∈ first :: rest, ∀ b ∈ first :: rest,
        Tally.better .greater (time a).stored (time b).stored =
          if -(time b).instant < -(time a).instant then (time b).stored else (time a).stored := by
      intro a ha b hb
      rw [(h.better_eq ha hb).2]
      simp only [neg_lt_neg_iff]
    obtain ⟨best, hbest, heq, hle⟩ := exists_best .greater (fun doc => -(time doc).instant) hlater
    refine ⟨(time best).stored, ?_, best, hbest, rfl, fun doc hdoc => ?_⟩
    · rw [← heq]
      exact congrArg (· >>= Tally.result) hgreatest
    · exact neg_le_neg_iff.mp (hle doc hdoc)

end Timed

/-! ## Rows -/

/-- Group by a value, with the extremes of a field in each row. -/
def extremesBy (id : Value) (least greatest field : String) : Fields :=
  [(.str "_id", id), (.str least, .object [(.str "$min", .str ("$" ++ field))]),
    (.str greatest, .object [(.str "$max", .str ("$" ++ field))])]

theorem columnsOrCount_extremesBy (strict : Bool) (id : Value) {least greatest : String}
    (hleast : least ≠ "_id") (hgreatest : greatest ≠ "_id") (field : String) :
    columnsOrCount strict (extremesBy id least greatest field) =
      .ok [⟨.str least, .least, .field field⟩, ⟨.str greatest, .greatest, .field field⟩] := by
  have hid : (Value.str "_id").equals (.str "_id") = true := Value.alike_str_iff.mpr rfl
  have hother {column : String} (hcolumn : column ≠ "_id") :
      (Value.str column).equals (.str "_id") = false :=
    Value.alike_str_eq_false fun h => hcolumn (Value.str.inj h).symm
  have hmin : Accumulator.ofName? (.str "$min") = some .least := Accumulator.ofName?_name .least
  have hmax : Accumulator.ofName? (.str "$max") = some .greatest :=
    Accumulator.ofName?_name .greatest
  have hcolumns : Group.columns strict (extremesBy id least greatest field) =
      .ok [⟨.str least, .least, .field field⟩, ⟨.str greatest, .greatest, .field field⟩] := by
    simp only [extremesBy, columns, hid, hother hleast, hother hgreatest, single?, hmin, hmax,
      Source.ofValue_field, if_true]
    rfl
  rw [columnsOrCount, hcolumns]
  rfl

theorem keySource_extremesBy (id : Value) (least greatest field : String) :
    keySource (extremesBy id least greatest field) = .ofValue id := by
  rw [keySource, extremesBy, Fields.getText?_cons_self, Option.getD_some]

/-- The row of a group: what its first document is grouped by, its earliest time and its latest. -/
def IsSpan (key : Source) (least greatest : String) (time : Document → DateTime)
    (group : List Document) (row : Document) : Prop :=
  ∃ first v w, group.head? = some first ∧
    row = [(.str "_id", key.valueIn first), (.str least, v), (.str greatest, w)] ∧
    IsEarliest time group v ∧ IsLatest time group w

namespace Timed

theorem of_subset (h : Timed name offset time docs) {group : List Document} (hsub : group ⊆ docs) :
    Timed name offset time group :=
  ⟨fun doc hdoc => h.stored doc (hsub hdoc), fun doc hdoc => h.offset_eq doc (hsub hdoc),
    h.inMinutes⟩

theorem isSpan_of_isRow (h : Timed name offset time docs) {key : Source} {least greatest : String}
    {row : Document} (hrow : IsRow key [⟨.str least, .least, .field name⟩,
      ⟨.str greatest, .greatest, .field name⟩] docs row) :
    IsSpan key least greatest time docs row := by
  obtain ⟨first, rest, fields, rfl, rfl, hfields⟩ := hrow
  obtain ⟨⟨v, hv, hearliest⟩, -⟩ := h.exists_fold (List.cons_ne_nil _ _) (.str least)
  obtain ⟨-, w, hw, hlatest⟩ := h.exists_fold (List.cons_ne_nil _ _) (.str greatest)
  obtain ⟨⟨k, v'⟩, others, ⟨hk, hv'⟩, hothers, rfl⟩ := List.forall₂_cons_left_iff.mp hfields
  obtain ⟨⟨l, w'⟩, nothing, ⟨hl, hw'⟩, hnothing, rfl⟩ := List.forall₂_cons_left_iff.mp hothers
  obtain rfl := List.forall₂_nil_left_iff.mp hnothing
  obtain rfl : k = .str least := hk
  obtain rfl : l = .str greatest := hl
  obtain rfl : v = v' := Except.ok.inj (hv.symm.trans hv'.fold)
  obtain rfl : w = w' := Except.ok.inj (hw.symm.trans hw'.fold)
  exact ⟨first, v, w, rfl, rfl, hearliest, hlatest⟩

/-- **Grouping gives the earliest and the latest time of each class.** -/
theorem exists_rows (h : Timed name offset time docs) (strict : Bool) {id : Value}
    {least greatest : String} (hid : Groupable id) (hleast : least ≠ "_id")
    (hgreatest : greatest ≠ "_id") :
    ∃ rows, Group.rows strict (.object (extremesBy id least greatest name)) docs = .ok rows ∧
      RowsOfClasses (.ofValue id) docs (IsSpan (.ofValue id) least greatest time) rows := by
  have hgroupable : ∀ doc ∈ docs,
      Groupable ((keySource (extremesBy id least greatest name)).valueIn doc) := by
    intro doc hdoc
    rw [keySource_extremesBy]
    exact groupable_ofValue hid (h.stored doc hdoc).groupable
  have hrange : ¬ SomeOutOfRange [⟨.str least, .least, .field name⟩,
      ⟨.str greatest, .greatest, .field name⟩]
      (keySource (extremesBy id least greatest name)) docs := by
    rintro ⟨doc, -, column, hcolumn, hrange⟩
    rcases List.mem_pair.mp hcolumn with rfl | rfl <;> exact hrange
  obtain ⟨rows, hrows, hclasses⟩ := exists_rows_of_inRange
    (columnsOrCount_extremesBy strict id hleast hgreatest name) hgroupable hrange
  rw [keySource_extremesBy] at hclasses
  have hspan {doc row : Document} (hrow : IsRow (.ofValue id) [⟨.str least, .least, .field name⟩,
      ⟨.str greatest, .greatest, .field name⟩] (classOf (.ofValue id) docs doc) row) :
      IsSpan (.ofValue id) least greatest time (classOf (.ofValue id) docs doc) row :=
    (h.of_subset List.filter_sublist.subset).isSpan_of_isRow hrow
  refine ⟨rows, hrows, fun row hrow => ?_, fun doc hdoc => ?_⟩
  · obtain ⟨doc, hdoc, hmade⟩ := hclasses.of_row row hrow
    exact ⟨doc, hdoc, hspan hmade⟩
  · obtain ⟨row, hrow, hmade⟩ := hclasses.of_doc doc hdoc
    exact ⟨row, hrow, hspan hmade⟩

/-! ## Asking -/

/-- **A stored time is asked for by its instant,** and so as the texts compare. -/
theorem satisfied_eq (h : Timed name offset time docs) (hname : Value.isDollar name = false)
    (strict : Bool) {doc : Document} (hdoc : doc ∈ docs) {t : DateTime} (ht : t.offset = offset) :
    Query.satisfied strict (Query.ofOperator name .greater (.datetime t)) doc =
        .ok ((time doc).stored.isGreater t.stored) ∧
      Query.satisfied strict (Query.ofOperator name .less (.datetime t)) doc =
        .ok (t.stored.isGreater (time doc).stored) := by
  have hoffset : (time doc).offset = t.offset := (h.offset_eq doc hdoc).trans ht.symm
  have hminutes : (Moment.time (time doc)).WholeMinutes := by
    intro o ho
    have ho : o ∈ (time doc).offset := ho
    rw [h.offset_eq doc hdoc] at ho
    exact h.inMinutes o ho
  have horder : (Moment.time (time doc)).order? (.time t) =
      some (compare (time doc).instant t.instant) := by
    show Moment.compareTimes? (time doc) t = _
    rw [Moment.compareTimes?_eq, DateTime.compare?, DateTime.comparable, hoffset,
      beq_self_eq_true, if_pos rfl]
  have hrelate := Moment.relate?_text hminutes (.time t)
  rw [horder] at hrelate
  have hholds (op : Operator) {accepts : Ordering → Bool} (haccepts : op.accepts? = some accepts) :
      Query.satisfied strict (Query.ofOperator name op (.datetime t)) doc =
        .ok (accepts (compare (time doc).instant t.instant)) := by
    rw [Query.ofOperator, Query.satisfied_operator hname, (h.stored doc hdoc).getText?_eq]
    exact Operator.holds_of_accepts haccepts hrelate
  rw [hholds .greater rfl, hholds .less rfl, DateTime.isGreater_stored hoffset,
    DateTime.isGreater_stored hoffset.symm]
  rcases lt_trichotomy (time doc).instant t.instant with hlt | heq | hgt
  · simp [compare_lt_iff_lt.mpr hlt, hlt, hlt.le]
  · simp [heq]
  · simp [compare_gt_iff_gt.mpr hgt, hgt, hgt.le]

end Timed

namespace Pipeline

/-- **Stored times are in order as the instants are,** for sorting, for the extremes of groups, and
for queries that ask with a time. -/
theorem ordered_by_instant (h : Timed name offset time docs) (strict : Bool) :
    (∃ out, (run strict (.list [.object [(.str "$sort", .object [(.str name, .int 1)])]])
        docs).outcome = .ok out ∧ out.Perm docs ∧
      out.Pairwise (fun a b => (time a).instant ≤ (time b).instant) ∧
      ∀ doc ∈ docs, out.filter (fun other => (time other).instant = (time doc).instant) =
        docs.filter fun other => (time other).instant = (time doc).instant) ∧
    (∀ id least greatest, Groupable id → least ≠ "_id" → greatest ≠ "_id" →
      ∃ rows, (run strict (.list [.object [(.str "$group",
          .object (extremesBy id least greatest name))]]) docs).outcome = .ok rows ∧
        RowsOfClasses (.ofValue id) docs (IsSpan (.ofValue id) least greatest time) rows) ∧
    (Value.isDollar name = false → ∀ doc ∈ docs, ∀ t : DateTime, t.offset = offset →
      Query.satisfied strict (Query.ofOperator name .greater (.datetime t)) doc =
          .ok ((valueUnder (.str name) doc).isGreater t.stored) ∧
        Query.satisfied strict (Query.ofOperator name .less (.datetime t)) doc =
          .ok (t.stored.isGreater (valueUnder (.str name) doc))) := by
  refine ⟨?_, fun id least greatest hid hleast hgreatest => ?_, fun hname doc hdoc t ht => ?_⟩
  · obtain ⟨out, hout, hsorted⟩ := h.exists_sorted
    exact ⟨out, (run_stage .sort _ docs).trans hout, hsorted⟩
  · obtain ⟨rows, hrows, hclasses⟩ := h.exists_rows strict hid hleast hgreatest
    refine ⟨rows, (run_stage .group _ docs).trans ?_, hclasses⟩
    rw [applyStage, hrows]
    rfl
  · rw [h.valueUnder_eq hdoc]
    exact h.satisfied_eq hname strict hdoc ht

/-- The last second of the evening, without a fraction. -/
def lastSecond : DateTime :=
  { Query.lateEvening with
    clock :=
      { Query.lateEvening.clock with
        microsecond := Clock.midnight.microsecond
        microsecond_lt := Clock.midnight.microsecond_lt } }

/-- A document with the last moment of the evening, and another one with the last second. -/
def eveningDocs : List Document :=
  [[(.str "at", Query.lateEvening.stored)], [(.str "n", .null), (.str "at", lastSecond.stored)]]

/-- The time that each of them was stored with. -/
def eveningTime (doc : Document) : DateTime :=
  if doc.length = 1 then Query.lateEvening else lastSecond

/-- The whole second comes first, also as the earliest time of all documents and in a query. -/
theorem ordered_by_instant_eveningDocs :
    Timed "at" Query.lateEvening.offset eveningTime eveningDocs ∧
      (∃ out, (run true (.list [.object [(.str "$sort", .object [(.str "at", .int 1)])]])
          eveningDocs).outcome = .ok out ∧ out.Perm eveningDocs ∧
        out.Pairwise (fun a b => (eveningTime a).instant ≤ (eveningTime b).instant)) ∧
      (∃ rows, (run true (.list [.object [(.str "$group",
          .object (extremesBy .null "first" "last" "at"))]]) eveningDocs).outcome = .ok rows ∧
        RowsOfClasses (.ofValue .null) eveningDocs
          (IsSpan (.ofValue .null) "first" "last" eveningTime) rows) ∧
      Query.satisfied true (Query.ofOperator "at" .less (.datetime Query.lateEvening))
        [(.str "n", .null), (.str "at", lastSecond.stored)] = .ok true := by
  have htimed : Timed "at" Query.lateEvening.offset eveningTime eveningDocs := by
    refine ⟨?_, ?_, ?_⟩
    · have hstored {fields : Fields} {doc : Document}
          (hdated : (Value.object fields).timesWritten = .object doc)
          (hjson : (Value.object doc).isJson Document.storedStyle.admits = true) :
          Document.normalize (.object fields) = .ok doc := by
        rw [Document.normalize_object_iff, ← Value.clean_timesWritten, hdated]
        exact Value.clean_stored_of_isJson hjson
      intro doc hdoc
      rcases List.mem_pair.mp hdoc with rfl | rfl
      · exact ⟨[(.str "at", .datetime Query.lateEvening)], hstored rfl (by decide +kernel), rfl⟩
      · exact ⟨[(.str "n", .null), (.str "at", .datetime lastSecond)],
          hstored rfl (by decide +kernel), rfl⟩
    · intro doc hdoc
      rcases List.mem_pair.mp hdoc with rfl | rfl <;> rfl
    · intro o ho
      cases ho
      rfl
  obtain ⟨⟨out, hout, hperm, hordered, -⟩, hgrouped, hasked⟩ := ordered_by_instant htimed true
  have hsecond : [(.str "n", .null), (.str "at", lastSecond.stored)] ∈ eveningDocs :=
    List.mem_cons_of_mem _ List.mem_cons_self
  have hless := (hasked (by decide) _ hsecond Query.lateEvening rfl).2
  have hoffset : Query.lateEvening.offset = lastSecond.offset := rfl
  have hearlier : Query.lateEvening.stored.isGreater lastSecond.stored = true := by
    rw [DateTime.isGreater_stored hoffset]
    decide +kernel
  rw [htimed.valueUnder_eq hsecond] at hless
  exact ⟨htimed, ⟨out, hout, hperm, hordered⟩,
    hgrouped .null "first" "last" rfl (by decide) (by decide),
    hless.trans (congrArg Except.ok hearlier)⟩

end Pipeline

end SnapshotStore
