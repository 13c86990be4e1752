import SnapshotStore.Proofs.Pipeline.Counting

/-!
# Two ways to list the values of a field

Gathering all documents into one row with the accumulator of distinct values lists the values of
a field, and so do the names of the rows when documents are grouped by the field.

**Theorem (`distinct_agree`).** Both lists are the same: the values that agree with none before
them, among the values that the accumulator of all values gathers, in their order.

The accumulator compares a value with every one kept (`Source.gather_distinct`), the grouping goes
by key texts (`rows_of_counting`). What they share is that for these values agreement is an
equivalence and the key text tells its classes apart. All documents come into one row when they are
grouped by something that is the same for all (`rows_of_constant`).
-/

namespace SnapshotStore

theorem Accumulator.ofName?_name (accumulator : Accumulator) :
    ofName? (.str accumulator.name) = some accumulator := by
  cases accumulator <;> decide +kernel

namespace Group

variable {docs : List Document} {columns : List Column} {v : Value}

/-! ## One row -/

theorem textOf_constant (v : Value) (doc : Document) : textOf (.constant v) doc = keyTextOf v := rfl

theorem withText_constant (v : Value) (docs : List Document) :
    withText (.constant v) (keyTextOf v) docs = docs := by
  simp [withText, textOf_constant]

/-- Buckets of documents that all have the same key text are a single one. -/
theorem Filled.exists_eq_singleton {buckets : List Bucket}
    (h : Filled columns (.constant v) docs buckets) (hdocs : docs ≠ []) :
    ∃ bucket, buckets = [bucket] ∧ bucket.Holds columns (.constant v) docs := by
  have htext : ∀ bucket ∈ buckets, bucket.text = keyTextOf v := by
    intro bucket hbucket
    obtain ⟨doc, -, hdoc⟩ := (h.holds bucket hbucket).exists_doc
    rw [← hdoc, textOf_constant]
  have htexts : buckets.map (·.text) = List.replicate buckets.length (keyTextOf v) :=
    List.eq_replicate_iff.mpr ⟨List.length_map _, List.forall_mem_map.mpr htext⟩
  have hone : buckets.length ≤ 1 := List.nodup_replicate.mp (htexts ▸ h.distinct)
  obtain ⟨first, hfirst⟩ := List.exists_mem_of_ne_nil docs hdocs
  have hpos := List.length_pos_of_mem (h.complete first hfirst)
  rw [List.length_map] at hpos
  obtain ⟨bucket, rfl⟩ := List.length_eq_one_iff.mp (Nat.le_antisymm hone hpos)
  have hholds := h.holds bucket (List.mem_singleton_self _)
  rw [htext bucket (List.mem_singleton_self _), withText_constant] at hholds
  exact ⟨bucket, rfl, hholds⟩

/-- **Documents grouped by something that is the same for all come into one row.** -/
theorem rows_of_constant {strict : Bool} {spec : Fields} (hsource : keySource spec = .constant v)
    (hcolumns : columnsOrCount strict spec = .ok columns)
    (hkey : v.isJson Number.isShort = true) (hdocs : docs ≠ [])
    (hfold : ∀ column ∈ columns, ∃ w, column.fold docs = .ok w) :
    ∃ row, rows strict (.object spec) docs = .ok [row] ∧
      IsRow (.constant v) columns docs row := by
  have htext : ∀ doc ∈ docs, ∃ text, keyText ((Source.constant v).valueIn doc) = .ok text :=
    fun _ _ => exists_keyText hkey
  have hgather : ∀ doc ∈ docs, ∀ column ∈ columns, ∃ tally, column.gather
      (withText (.constant v) (textOf (.constant v) doc) ([] ++ docs)) = .ok tally := by
    intro doc _ column hcolumn
    rw [textOf_constant, withText_constant, List.nil_append]
    obtain ⟨w, hw⟩ := hfold column hcolumn
    obtain ⟨tally, htally, -⟩ := bind_eq_ok.mp hw
    exact ⟨tally, htally⟩
  obtain ⟨buckets, hfill, hfilled⟩ := fill_spec Filled.nil htext hgather
  rw [List.nil_append] at hfilled
  obtain ⟨bucket, rfl, hholds⟩ := hfilled.exists_eq_singleton hdocs
  obtain ⟨row, hrow, hisRow⟩ := hholds.exists_row hfold
  refine ⟨row, ?_, hisRow⟩
  have hrows : [bucket].mapM (Group.row columns) = .ok [row] := by
    rw [List.mapM_cons, hrow]
    rfl
  simp only [Group.rows, hcolumns, hsource, hfill, hrows, bind, Except.bind, Except.mapError]

/-! ## Accumulating values -/

theorem agrees_comm_of_groupable {a b : Value} (ha : Groupable a) (hb : Groupable b) :
    a.agrees b = b.agrees a := by
  rw [Bool.eq_iff_iff, ha.agrees_iff hb, hb.agrees_iff ha]
  exact eq_comm

theorem any_agrees_comm {values : List Value} (h : ∀ w ∈ values, Groupable w) (hv : Groupable v) :
    values.any (·.agrees v) = values.any v.agrees := by
  rw [Bool.eq_iff_iff, List.any_eq_true, List.any_eq_true]
  exact exists_congr fun w => and_congr_right fun hw => by
    rw [agrees_comm_of_groupable (h w hw) hv]

/-- The values seen for the first time are kept, one document after the other. -/
theorem Source.gather_distinct (source : Source) (seen : List Value)
    (h : ∀ v ∈ seen ++ docs.map source.valueIn, Groupable v) :
    source.gather (.distinct (firstSeen seen)) docs =
      .ok (.distinct (firstSeen (seen ++ docs.map source.valueIn))) := by
  induction docs generalizing seen with
  | nil => rw [List.map_nil, List.append_nil]; rfl
  | cons doc docs ih =>
    rw [List.map_cons, List.append_cons] at h ⊢
    rw [← ih _ h, gather_cons, Tally.add.eq_def, firstSeen_concat]
    rw [List.forall_mem_append, List.forall_mem_append, List.forall_mem_singleton] at h
    have hany := any_agrees_comm (fun w hw => h.1.1 w (mem_of_firstSeen hw)) h.1.2
    simp only [hany]
    rfl

/-! ## Listing values -/

/-- All documents in one row, in which an accumulator gathers the values of a field. -/
def gathering (accumulator column field : String) : Fields :=
  [(.str "_id", .null), (.str column, .object [(.str accumulator, .str ("$" ++ field))])]

/-- A row for each group of documents, and nothing but its name asked for. -/
def naming (field : String) : Fields := [(.str "_id", .str ("$" ++ field))]

theorem columnsOrCount_gathering (strict : Bool) (accumulator : Accumulator) {column : String}
    (hcolumn : column ≠ "_id") (field : String) :
    columnsOrCount strict (gathering accumulator.name column field) =
      .ok [⟨.str column, accumulator, .field field⟩] := by
  have hid : (Value.str "_id").equals (.str "_id") = true := Value.alike_str_iff.mpr rfl
  have hother : (Value.str column).equals (.str "_id") = false :=
    Value.alike_str_eq_false fun h => hcolumn (Value.str.inj h).symm
  have hcolumns : Group.columns strict (gathering accumulator.name column field) =
      .ok [⟨.str column, accumulator, .field field⟩] := by
    simp only [gathering, columns, hid, hother, single?, Accumulator.ofName?_name,
      Source.ofValue_field, if_true]
    rfl
  rw [columnsOrCount, hcolumns]
  rfl

/-- The single row of an accumulator has no name, and what the accumulator gives. -/
theorem rows_gathering (strict : Bool) {accumulator : Accumulator} {column field : String}
    {w : Value} (hcolumn : column ≠ "_id") (hdocs : docs ≠ [])
    (hfold : Column.fold ⟨.str column, accumulator, .field field⟩ docs = .ok w) :
    rows strict (.object (gathering accumulator.name column field)) docs =
      .ok [[(.str "_id", .null), (.str column, w)]] := by
  have hsource : keySource (gathering accumulator.name column field) = .constant .null := by
    rw [keySource, gathering, Fields.getText?_cons_self]
    rfl
  obtain ⟨row, hrows, first, rest, fields, -, rfl, hfields⟩ :=
    rows_of_constant hsource (columnsOrCount_gathering strict accumulator hcolumn field) rfl hdocs
      (List.forall_mem_singleton.mpr ⟨w, hfold⟩)
  obtain ⟨⟨k, u⟩, others, ⟨hname, hgives⟩, hothers, rfl⟩ := List.forall₂_cons_left_iff.mp hfields
  obtain rfl := List.forall₂_nil_left_iff.mp hothers
  obtain rfl : k = .str column := hname
  obtain rfl : w = u := Except.ok.inj (hfold.symm.trans hgives.fold)
  exact hrows

/-- **The values that an accumulator lists are the names of the groups.** -/
theorem distinct_agree (strict : Bool) (field column : String) (docs : List Document)
    (hdocs : docs ≠ []) (hcolumn : column ≠ "_id")
    (h : ∀ v ∈ fieldValues field docs, Groupable v) :
    ∃ (listed pushed : List Value) (named : List Document),
      rows strict (.object (gathering "$addToSet" column field)) docs =
        .ok [[(.str "_id", .null), (.str column, .list listed)]] ∧
      rows strict (.object (gathering "$push" column field)) docs =
        .ok [[(.str "_id", .null), (.str column, .list pushed)]] ∧
      rows strict (.object (naming field)) docs = .ok named ∧
      named.map (Fields.getText? · "_id") = listed.map some ∧
      pushed = fieldValues field docs ∧ listed = firstSeen pushed := by
  have hlisted : Column.fold ⟨.str column, .distinct, .field field⟩ docs =
      .ok (.list (firstSeen (fieldValues field docs))) := by
    have hgather : (Source.field field).gather (.distinct []) docs =
        .ok (.distinct (firstSeen (fieldValues field docs))) := Source.gather_distinct _ [] h
    exact congrArg (· >>= Tally.result) hgather
  have hpushed : Column.fold ⟨.str column, .collect, .field field⟩ docs =
      .ok (.list (fieldValues field docs)) :=
    congrArg (· >>= Tally.result) (Source.gather_collect (.field field) [] docs)
  have hnames : ((firstSeen (fieldValues field docs)).map (countRow (fieldValues field docs))).map
      (Fields.getText? · "_id") = (firstSeen (fieldValues field docs)).map some := by
    rw [List.map_map]
    exact List.map_congr_left fun v _ => Fields.getText?_cons_self ..
  have hdistinct := rows_gathering strict hcolumn hdocs hlisted
  have hcollect := rows_gathering strict hcolumn hdocs hpushed
  exact ⟨_, _, _, hdistinct, hcollect, rows_of_counting strict field docs h, hnames, rfl, rfl⟩

/-- Documents in which a number, a missing value and an object come in two forms each. -/
def formsDocs : List Document :=
  [[(.str "f", .int 1)], [], [(.str "f", .bool true)], [(.str "f", .float (.ofInt 1))],
    [(.str "f", .null)], [(.str "f", .object [(.str "a", .list [.float (.ofInt 2)]),
      (.str "b", .null)])],
    [(.str "f", .object [(.str "b", .null), (.str "a", .list [.int 2])])], [(.str "f", .str "1")]]

theorem distinct_agree_formsDocs :
    formsDocs ≠ [] ∧ "s" ≠ "_id" ∧ (∀ v ∈ fieldValues "f" formsDocs, Groupable v) ∧
      ∃ (listed pushed : List Value) (named : List Document),
        rows true (.object (gathering "$addToSet" "s" "f")) formsDocs =
          .ok [[(.str "_id", .null), (.str "s", .list listed)]] ∧
        rows true (.object (gathering "$push" "s" "f")) formsDocs =
          .ok [[(.str "_id", .null), (.str "s", .list pushed)]] ∧
        rows true (.object (naming "f")) formsDocs = .ok named ∧
        named.map (Fields.getText? · "_id") = listed.map some ∧
        pushed = fieldValues "f" formsDocs ∧ listed = firstSeen pushed := by
  have hdocs : formsDocs ≠ [] := by simp [formsDocs]
  have hcolumn : "s" ≠ "_id" := by decide
  have hgroupable : ∀ v ∈ fieldValues "f" formsDocs, Groupable v := by
    unfold Groupable
    decide +kernel
  exact ⟨hdocs, hcolumn, hgroupable, distinct_agree true "f" "s" formsDocs hdocs hcolumn hgroupable⟩

end Group

end SnapshotStore
