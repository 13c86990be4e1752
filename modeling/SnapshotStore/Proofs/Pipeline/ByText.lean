import SnapshotStore.Proofs.Pipeline.Group

/-!
# Groups by key text

**Theorem (`rowsByText_of_rows`).** Where documents are grouped there is one row for each key text,
made of the documents that have it, in their order.

**Theorem (`exists_rows_iff`).** Documents that have key texts are grouped exactly when every column
has a value for every group.

One way goes by `fill_spec`: what can be gathered from every group is gathered into buckets. For the
other way the invariant is read backwards. Buckets that could be filled are filled
(`filled_of_fill`), so a row has a value for every column of its group.
-/

namespace SnapshotStore

namespace Group

variable {columns : List Column} {column : Column} {key : Source} {seen docs : List Document}
  {buckets buckets' : List Bucket} {doc : Document}

/-! ## Buckets -/

theorem exists_of_mapM {ε α β : Type} {f : α → Except ε β} {xs : List α} {ys : List β}
    (h : xs.mapM f = .ok ys) : ∀ x ∈ xs, ∃ y, f x = .ok y := by
  induction xs generalizing ys with
  | nil => exact fun _ hx => absurd hx List.not_mem_nil
  | cons x xs ih =>
    rw [List.mapM_cons] at h
    obtain ⟨y, hy, h⟩ := bind_eq_ok.mp h
    obtain ⟨ys, hys, -⟩ := bind_eq_ok.mp h
    exact List.forall_mem_cons.mpr ⟨⟨y, hy⟩, ih hys⟩

theorem exists_mem_of_forall₂ {α β : Type} {r : α → β → Prop} {xs : List α} {ys : List β}
    (h : List.Forall₂ r xs ys) : ∀ x ∈ xs, ∃ y ∈ ys, r x y := by
  induction h with
  | nil => exact fun _ hx => absurd hx List.not_mem_nil
  | @cons x y xs ys hxy _ ih =>
    refine List.forall_mem_cons.mpr ⟨⟨y, List.mem_cons_self, hxy⟩, fun z hz => ?_⟩
    obtain ⟨w, hw, hzw⟩ := ih z hz
    exact ⟨w, List.mem_cons_of_mem _ hw, hzw⟩

/-- What a column has gathered stands beside it. -/
theorem Gathered.exists_mem_zip {tallies : List Tally} (h : Gathered columns docs tallies)
    (hcolumn : column ∈ columns) :
    ∃ tally, (column, tally) ∈ columns.zip tallies ∧ column.gather docs = .ok tally := by
  induction h with
  | nil => cases hcolumn
  | @cons first tally columns tallies hfirst _ ih =>
    rcases List.mem_cons.mp hcolumn with rfl | hcolumn
    · exact ⟨tally, List.mem_cons_self .., hfirst⟩
    · obtain ⟨tally', hmem, hgather⟩ := ih hcolumn
      exact ⟨tally', List.mem_cons_of_mem _ hmem, hgather⟩

/-- Where a document is added each column can gather it. -/
theorem exists_gather_of_addTo {tallies tallies' : List Tally} (h : Gathered columns docs tallies)
    (haddTo : addTo columns doc tallies = .ok tallies') (hcolumn : column ∈ columns) :
    ∃ tally, column.gather (docs ++ [doc]) = .ok tally := by
  obtain ⟨tally, hmem, hgather⟩ := h.exists_mem_zip hcolumn
  obtain ⟨tally', htally'⟩ := exists_of_mapM haddTo _ hmem
  refine ⟨tally', ?_⟩
  rw [column.gather_append, hgather, ok_bind]
  simpa [Source.gather] using htally'

/-- A document is put into the bucket of its text, or into a new one. -/
theorem put_cases {text : List Char} {value : Value}
    (h : put columns doc text value buckets = .ok buckets') :
    (∃ bucket ∈ buckets, bucket.text = text ∧
        ∃ tallies, addTo columns doc bucket.tallies = .ok tallies) ∨
      text ∉ buckets.map (·.text) ∧
        ∃ tallies, addTo columns doc (columns.map fun column => .start column.accumulator) =
          .ok tallies := by
  induction buckets generalizing buckets' with
  | nil =>
    obtain ⟨tallies, htallies, -⟩ := bind_eq_ok.mp h
    exact .inr ⟨List.not_mem_nil, tallies, htallies⟩
  | cons bucket buckets ih =>
    rw [put] at h
    split_ifs at h with htext
    · obtain ⟨tallies, htallies, -⟩ := bind_eq_ok.mp h
      exact .inl ⟨bucket, List.mem_cons_self .., htext, tallies, htallies⟩
    · obtain ⟨buckets', hbuckets', -⟩ := bind_eq_ok.mp h
      refine (ih hbuckets').imp ?_ ?_
      · rintro ⟨other, hother, hrest⟩
        exact ⟨other, List.mem_cons_of_mem _ hother, hrest⟩
      · rintro ⟨hnew, htallies⟩
        refine ⟨?_, htallies⟩
        rw [List.map_cons, List.mem_cons, not_or]
        exact ⟨Ne.symm htext, hnew⟩

/-- Where a document is put into buckets each column can gather it. -/
theorem Filled.exists_gather_of_put (h : Filled columns key seen buckets)
    (hput : put columns doc (textOf key doc) (key.valueIn doc) buckets = .ok buckets')
    (hcolumn : column ∈ columns) :
    ∃ tally, column.gather (withText key (textOf key doc) (seen ++ [doc])) = .ok tally := by
  rw [withText_concat_self]
  rcases put_cases hput with ⟨bucket, hbucket, htext, tallies, haddTo⟩ | ⟨hnew, tallies, haddTo⟩
  · have hholds := h.holds bucket hbucket
    rw [htext] at hholds
    exact exists_gather_of_addTo hholds.tallies haddTo hcolumn
  · have hnone : withText key (textOf key doc) seen = [] := by
      refine List.filter_eq_nil_iff.mpr fun other hother heq => hnew ?_
      rw [← of_decide_eq_true heq]
      exact h.complete other hother
    rw [hnone]
    exact exists_gather_of_addTo (gathered_nil columns) haddTo hcolumn

theorem Filled.of_put (h : Filled columns key seen buckets)
    (hput : put columns doc (textOf key doc) (key.valueIn doc) buckets = .ok buckets') :
    Filled columns key (seen ++ [doc]) buckets' := by
  have hnext := fun column (hcolumn : column ∈ columns) => h.exists_gather_of_put hput hcolumn
  by_cases hseen : textOf key doc ∈ buckets.map (·.text)
  · obtain ⟨bucket, hbucket, heq⟩ := List.mem_map.mp hseen
    obtain ⟨before, after, rfl⟩ := List.append_of_mem hbucket
    obtain ⟨buckets₁, hput₁, hfilled⟩ := h.put_seen heq hnext
    cases hput.symm.trans hput₁
    exact hfilled
  · obtain ⟨buckets₁, hput₁, hfilled⟩ := h.put_new hseen hnext
    cases hput.symm.trans hput₁
    exact hfilled

/-- **Buckets that could be filled are filled.** -/
theorem filled_of_fill {rest : List Document} (h : Filled columns key seen buckets)
    (hkeys : ∀ doc ∈ rest, ∃ text, keyText (key.valueIn doc) = .ok text)
    (hfill : fill columns key rest buckets = .ok buckets') :
    Filled columns key (seen ++ rest) buckets' := by
  induction rest generalizing seen buckets with
  | nil =>
    cases hfill
    rwa [List.append_nil]
  | cons doc rest ih =>
    rw [List.forall_mem_cons] at hkeys
    obtain ⟨⟨text, htext⟩, hkeys⟩ := hkeys
    obtain rfl : textOf key doc = text := by rw [textOf, htext]; rfl
    obtain ⟨text, htext', hfill⟩ := bind_eq_ok.mp hfill
    cases htext.symm.trans (mapError_eq_ok.mp htext')
    obtain ⟨buckets₁, hput, hfill⟩ := bind_eq_ok.mp hfill
    rw [List.append_cons]
    exact ih (h.of_put (mapError_eq_ok.mp hput)) hkeys hfill

theorem fill_error {rest : List Document} {e : GroupError}
    (hkeys : ∀ doc ∈ rest, ∃ text, keyText (key.valueIn doc) = .ok text)
    (hfill : fill columns key rest buckets = .error e) : ∃ cause, e = .arithmetic cause := by
  induction rest generalizing buckets with
  | nil => cases hfill
  | cons doc rest ih =>
    rw [List.forall_mem_cons] at hkeys
    obtain ⟨⟨text, htext⟩, hkeys⟩ := hkeys
    simp only [fill, htext, bind, Except.bind, Except.mapError] at hfill
    cases hput : put columns doc text (key.valueIn doc) buckets with
    | error cause =>
      rw [hput] at hfill
      cases hfill
      exact ⟨cause, rfl⟩
    | ok buckets₁ =>
      rw [hput] at hfill
      exact ih hkeys hfill

/-- Documents that could be filled into buckets have key texts. -/
theorem exists_keyText_of_fill {rest : List Document}
    (hfill : fill columns key rest buckets = .ok buckets') :
    ∀ doc ∈ rest, ∃ text, keyText (key.valueIn doc) = .ok text := by
  induction rest generalizing buckets with
  | nil => exact fun _ hdoc => absurd hdoc List.not_mem_nil
  | cons doc rest ih =>
    obtain ⟨text, htext, hfill⟩ := bind_eq_ok.mp hfill
    obtain ⟨buckets₁, -, hfill⟩ := bind_eq_ok.mp hfill
    exact List.forall_mem_cons.mpr ⟨⟨text, mapError_eq_ok.mp htext⟩, ih hfill⟩

/-! ## Rows -/

/-- Where there is a row each column has a value. -/
theorem Bucket.Holds.exists_fold_of_row {bucket : Bucket} {row : Document}
    (h : bucket.Holds columns key docs) (hrow : Group.row columns bucket = .ok row)
    (hcolumn : column ∈ columns) : ∃ v, column.fold docs = .ok v := by
  obtain ⟨tally, hmem, hgather⟩ := h.tallies.exists_mem_zip hcolumn
  obtain ⟨fields, hfields, -⟩ := bind_eq_ok.mp hrow
  obtain ⟨field, hfield⟩ := exists_of_mapM hfields _ hmem
  obtain ⟨v, hv, -⟩ := bind_eq_ok.mp hfield
  exact ⟨v, bind_eq_ok.mpr ⟨tally, hgather, hv⟩⟩

/-- The rows are made of the groups of documents with one key text each. -/
structure RowsByText (key : Source) (docs : List Document) (made : List Document → Document → Prop)
    (texts : List (List Char)) (rows : List Document) : Prop where
  distinct : texts.Nodup
  mem_iff : ∀ text, text ∈ texts ↔ ∃ doc ∈ docs, textOf key doc = text
  made : List.Forall₂ (fun text row => made (withText key text docs) row) texts rows

section

variable {strict : Bool} {spec : Fields} {rows : List Document}
  (hcolumns : columnsOrCount strict spec = .ok columns)

include hcolumns

/-- **There is one row for each key text.** -/
theorem rowsByText_of_rows (h : Group.rows strict (.object spec) docs = .ok rows) :
    ∃ texts, RowsByText (keySource spec) docs (IsRow (keySource spec) columns) texts rows := by
  simp only [Group.rows, hcolumns, ok_bind] at h
  obtain ⟨buckets, hfill, h⟩ := bind_eq_ok.mp h
  have hrows := mapError_eq_ok.mp h
  have hfilled := filled_of_fill Filled.nil (exists_keyText_of_fill hfill) hfill
  rw [List.nil_append] at hfilled
  have hrow : ∀ bucket ∈ buckets, ∃ row, Group.row columns bucket = .ok row ∧
      IsRow (keySource spec) columns (withText (keySource spec) bucket.text docs) row := by
    intro bucket hbucket
    obtain ⟨row, hrow⟩ := exists_of_mapM hrows bucket hbucket
    have hholds := hfilled.holds bucket hbucket
    exact hholds.exists_row fun column hcolumn => hholds.exists_fold_of_row hrow hcolumn
  obtain ⟨rows', hrows', hall⟩ := exists_rows hrow
  cases hrows.symm.trans hrows'
  refine ⟨buckets.map (·.text), hfilled.distinct, fun text => ?_,
    List.forall₂_map_left_iff.mpr hall⟩
  constructor
  · intro htext
    obtain ⟨bucket, hbucket, rfl⟩ := List.mem_map.mp htext
    exact (hfilled.holds bucket hbucket).exists_doc
  · rintro ⟨doc, hdoc, rfl⟩
    exact hfilled.complete doc hdoc

theorem exists_rows_of_fold
    (hkeys : ∀ doc ∈ docs, ∃ text, keyText ((keySource spec).valueIn doc) = .ok text)
    (hfold : ∀ doc ∈ docs, ∀ column ∈ columns, ∃ v,
      column.fold (withText (keySource spec) (textOf (keySource spec) doc) docs) = .ok v) :
    ∃ rows, Group.rows strict (.object spec) docs = .ok rows := by
  have hgather : ∀ doc ∈ docs, ∀ column ∈ columns, ∃ tally,
      column.gather (withText (keySource spec) (textOf (keySource spec) doc) docs) =
        .ok tally := by
    intro doc hdoc column hcolumn
    obtain ⟨v, hv⟩ := hfold doc hdoc column hcolumn
    obtain ⟨tally, htally, -⟩ := bind_eq_ok.mp hv
    exact ⟨tally, htally⟩
  obtain ⟨buckets, hfill, hfilled⟩ := fill_spec Filled.nil hkeys hgather
  rw [List.nil_append] at hfilled
  have hrow : ∀ bucket ∈ buckets, ∃ row, Group.row columns bucket = .ok row ∧
      IsRow (keySource spec) columns (withText (keySource spec) bucket.text docs) row := by
    intro bucket hbucket
    have hholds := hfilled.holds bucket hbucket
    obtain ⟨doc, hdoc, htext⟩ := hholds.exists_doc
    exact hholds.exists_row (htext ▸ hfold doc hdoc)
  obtain ⟨rows, hrows, -⟩ := exists_rows hrow
  exact ⟨rows, by
    simp only [Group.rows, hcolumns, hfill, hrows, bind, Except.bind, Except.mapError]⟩

/-- **Documents with key texts are grouped exactly when every column has a value for every
group.** -/
theorem exists_rows_iff
    (hkeys : ∀ doc ∈ docs, ∃ text, keyText ((keySource spec).valueIn doc) = .ok text) :
    (∃ rows, Group.rows strict (.object spec) docs = .ok rows) ↔
      ∀ doc ∈ docs, ∀ column ∈ columns, ∃ v,
        column.fold (withText (keySource spec) (textOf (keySource spec) doc) docs) = .ok v := by
  refine ⟨fun ⟨rows, hrows⟩ doc hdoc column hcolumn => ?_, exists_rows_of_fold hcolumns hkeys⟩
  obtain ⟨texts, htexts⟩ := rowsByText_of_rows hcolumns hrows
  obtain ⟨row, -, first, rest, fields, -, -, hfields⟩ :=
    exists_mem_of_forall₂ htexts.made _ ((htexts.mem_iff _).mpr ⟨doc, hdoc, rfl⟩)
  obtain ⟨field, -, -, hgives⟩ := exists_mem_of_forall₂ hfields column hcolumn
  exact ⟨field.2, hgives.fold⟩

/-- Where documents with key texts are not grouped it is for an arithmetic error. -/
theorem arithmetic_of_rows_error
    (hkeys : ∀ doc ∈ docs, ∃ text, keyText ((keySource spec).valueIn doc) = .ok text)
    {e : GroupError} (h : Group.rows strict (.object spec) docs = .error e) :
    ∃ cause, e = .arithmetic cause := by
  simp only [Group.rows, hcolumns, ok_bind] at h
  rcases bind_eq_error.mp h with hfill | ⟨buckets, -, h⟩
  · exact fill_error hkeys hfill
  · obtain ⟨cause, -, rfl⟩ := mapError_eq_error.mp h
    exact ⟨cause, rfl⟩

end

end Group

end SnapshotStore
