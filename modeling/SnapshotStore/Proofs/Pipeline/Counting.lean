import SnapshotStore.Proofs.Pipeline.Group

/-!
# Counting values

**Theorem (`rows_of_counting`).** Grouping by a field and gathering nothing else gives one row for
each value that agrees with no value before it, in the order of first appearance, with the number of
documents whose values agree with it.

Buckets are known by a text and a value (`Bucket.label`). Putting a document into buckets keeps the
labels or adds one at the end (`labels_put`), just as one more value is added to those seen for the
first time or not (`firstSeen_concat`), so after any documents the labels are those of the values
seen for the first time (`labels_fill`). What the buckets count is in `Filled`.
-/

namespace SnapshotStore

namespace Group

/-- Made of what JSON holds, without integers that are too long and without undefined numbers. -/
def Groupable (v : Value) : Prop := v.isJson (fun n => n.isShort && n.isDefined) = true

/-- The text by which a value is grouped, if it has one. -/
def keyTextOf (v : Value) : List Char := (keyText v).toOption.getD []

namespace Groupable

variable {a b : Value}

theorem isShort (h : Groupable a) : a.isJson Number.isShort = true := (Value.isJson_and.mp h).1

theorem isDefined (h : Groupable a) : a.isJson Number.isDefined = true := (Value.isJson_and.mp h).2

theorem keyText_eq (h : Groupable a) : keyText a = .ok (keyTextOf a) := by
  obtain ⟨text, htext⟩ := exists_keyText h.isShort
  rw [keyTextOf, htext]
  rfl

theorem agrees_iff (ha : Groupable a) (hb : Groupable b) :
    a.agrees b = true ↔ keyTextOf a = keyTextOf b :=
  (keyText_eq_iff ha.isDefined hb.isDefined ha.keyText_eq hb.keyText_eq).symm

end Groupable

/-! ## First appearances -/

/-- The values that agree with none before them, in order. -/
def firstSeen (values : List Value) : List Value := values.eraseDupsBy Value.agrees

/-- The first place at which a value agrees with the given one. -/
def firstPlace (values : List Value) (v : Value) : Nat := values.findIdx (·.agrees v)

theorem eraseDupsBy_loop_append {α : Type} (r : α → α → Bool) (xs ys acc : List α) :
    List.eraseDupsBy.loop r (xs ++ ys) acc =
      List.eraseDupsBy.loop r ys (List.eraseDupsBy.loop r xs acc).reverse := by
  induction xs generalizing acc with
  | nil => simp [List.eraseDupsBy.loop]
  | cons x xs ih =>
    rw [List.cons_append, List.eraseDupsBy.loop, List.eraseDupsBy.loop]
    split <;> exact ih _

theorem firstSeen_concat (values : List Value) (v : Value) :
    firstSeen (values ++ [v]) =
      if (firstSeen values).any v.agrees then firstSeen values else firstSeen values ++ [v] := by
  unfold firstSeen List.eraseDupsBy
  rw [eraseDupsBy_loop_append]
  generalize List.eraseDupsBy.loop Value.agrees values [] = kept
  rw [List.eraseDupsBy.loop, List.any_reverse]
  cases kept.any v.agrees <;> simp [List.eraseDupsBy.loop]

section

variable {values : List Value} {v : Value}

theorem mem_of_firstSeen (h : v ∈ firstSeen values) : v ∈ values := by
  induction values using List.reverseRecOn with
  | nil => exact h
  | append_singleton values u ih =>
    rw [firstSeen_concat] at h
    split_ifs at h with hseen
    · exact List.mem_append_left _ (ih h)
    · rcases List.mem_append.mp h with h | h
      · exact List.mem_append_left _ (ih h)
      · exact List.mem_append_right _ h

/-- Every value agrees with one seen for the first time. -/
theorem exists_firstSeen (h : ∀ v ∈ values, Groupable v) (hv : v ∈ values) :
    ∃ w ∈ firstSeen values, v.agrees w = true := by
  induction values using List.reverseRecOn with
  | nil => cases hv
  | append_singleton values u ih =>
    rw [List.forall_mem_append] at h
    rw [firstSeen_concat]
    rcases List.mem_append.mp hv with hv | hv
    · obtain ⟨w, hw, hagrees⟩ := ih h.1 hv
      refine ⟨w, ?_, hagrees⟩
      split_ifs
      · exact hw
      · exact List.mem_append_left _ hw
    · obtain rfl := List.mem_singleton.mp hv
      split_ifs with hseen
      · exact List.any_eq_true.mp hseen
      · have hgroupable := h.2 v (List.mem_singleton_self v)
        exact ⟨v, List.mem_append_right _ (List.mem_singleton_self v),
          (hgroupable.agrees_iff hgroupable).mpr rfl⟩

theorem firstPlace_lt (h : ∀ v ∈ values, Groupable v) (hv : v ∈ values) :
    firstPlace values v < values.length :=
  List.findIdx_lt_length_of_exists ⟨v, hv, ((h v hv).agrees_iff (h v hv)).mpr rfl⟩

/-- One more value leaves the first places of those before it as they are. -/
theorem firstPlace_concat (h : ∀ v ∈ values, Groupable v) (hv : v ∈ values) (u : Value) :
    firstPlace (values ++ [u]) v = firstPlace values v := by
  have hself : ∃ w ∈ values, w.agrees v = true :=
    ⟨v, hv, ((h v hv).agrees_iff (h v hv)).mpr rfl⟩
  simp only [firstPlace, List.findIdx_append, List.findIdx_lt_length, hself, if_true]

/-- A value that agrees with none before it has its own place. -/
theorem firstPlace_concat_new {u : Value} (h : ∀ v ∈ values, Groupable v) (hu : Groupable u)
    (hnew : (firstSeen values).any u.agrees = false) :
    values.length ≤ firstPlace (values ++ [u]) u := by
  have hnone : ¬ ∃ w ∈ values, w.agrees u = true := by
    rintro ⟨w, hw, hagrees⟩
    obtain ⟨x, hx, hwx⟩ := exists_firstSeen h hw
    have hgroupable := h x (mem_of_firstSeen hx)
    rw [(h w hw).agrees_iff hu] at hagrees
    rw [(h w hw).agrees_iff hgroupable] at hwx
    have hux : u.agrees x = true := (hu.agrees_iff hgroupable).mpr (hagrees.symm.trans hwx)
    rw [List.any_eq_false] at hnew
    exact hnew x hx hux
  simp only [firstPlace, List.findIdx_append, List.findIdx_lt_length, hnone, if_false]
  exact Nat.le_add_left ..

/-- Values seen for the first time come in the order of first appearance. -/
theorem firstSeen_pairwise (h : ∀ v ∈ values, Groupable v) :
    (firstSeen values).Pairwise fun v w => firstPlace values v < firstPlace values w := by
  induction values using List.reverseRecOn with
  | nil => exact .nil
  | append_singleton values u ih =>
    rw [List.forall_mem_append, List.forall_mem_singleton] at h
    obtain ⟨h, hu⟩ := h
    have hold : (firstSeen values).Pairwise fun v w =>
        firstPlace (values ++ [u]) v < firstPlace (values ++ [u]) w := by
      refine (ih h).imp_of_mem fun hv hw hlt => ?_
      rwa [firstPlace_concat h (mem_of_firstSeen hv), firstPlace_concat h (mem_of_firstSeen hw)]
    rw [firstSeen_concat]
    split_ifs with hseen
    · exact hold
    · refine List.pairwise_append.mpr ⟨hold, List.pairwise_singleton .., fun v hv w hw => ?_⟩
      obtain rfl := List.mem_singleton.mp hw
      rw [firstPlace_concat h (mem_of_firstSeen hv)]
      exact (firstPlace_lt h (mem_of_firstSeen hv)).trans_le
        (firstPlace_concat_new h hu (by simpa using hseen))

end

/-! ## Labels -/

/-- What a bucket is known by. -/
def Bucket.label (bucket : Bucket) : List Char × Value := (bucket.text, bucket.value)

/-- What the bucket of a value is known by, if the value is its first. -/
def labelOf (v : Value) : List Char × Value := (keyTextOf v, v)

variable {columns : List Column} {key : Source} {seen : List Document}
  {buckets buckets' : List Bucket} {doc : Document}

theorem labels_put {text : List Char} {value : Value}
    (h : put columns doc text value buckets = .ok buckets') :
    buckets'.map Bucket.label =
      if text ∈ buckets.map (·.text) then buckets.map Bucket.label
      else buckets.map Bucket.label ++ [(text, value)] := by
  induction buckets generalizing buckets' with
  | nil =>
    obtain ⟨tallies, -, h⟩ := bind_eq_ok.mp h
    cases h
    rfl
  | cons bucket buckets ih =>
    rw [put] at h
    split_ifs at h with htext
    · obtain ⟨tallies, -, h⟩ := bind_eq_ok.mp h
      cases h
      simp [htext, Bucket.label]
    · obtain ⟨rest, hrest, h⟩ := bind_eq_ok.mp h
      cases h
      have hne : text ≠ bucket.text := Ne.symm htext
      simp only [List.map_cons, ih hrest, List.mem_cons, hne, false_or]
      split_ifs <;> rfl

/-- The buckets' texts are those of the values that they are labelled with. -/
theorem mem_texts_iff {values : List Value} {v : Value} (h : ∀ v ∈ values, Groupable v)
    (hv : Groupable v) (hlabels : buckets.map Bucket.label = (firstSeen values).map labelOf) :
    keyTextOf v ∈ buckets.map (·.text) ↔ (firstSeen values).any v.agrees = true := by
  have htexts : buckets.map (·.text) = (firstSeen values).map keyTextOf := by
    have hfst := congrArg (List.map Prod.fst) hlabels
    rwa [List.map_map, List.map_map] at hfst
  rw [htexts, List.mem_map, List.any_eq_true]
  refine exists_congr fun w => and_congr_right fun hw => ?_
  rw [hv.agrees_iff (h w (mem_of_firstSeen hw))]
  exact eq_comm

theorem labels_fill {rest : List Document}
    (hgroupable : ∀ v ∈ (seen ++ rest).map key.valueIn, Groupable v)
    (hlabels : buckets.map Bucket.label = (firstSeen (seen.map key.valueIn)).map labelOf)
    (h : fill columns key rest buckets = .ok buckets') :
    buckets'.map Bucket.label = (firstSeen ((seen ++ rest).map key.valueIn)).map labelOf := by
  induction rest generalizing seen buckets with
  | nil =>
    cases h
    rwa [List.append_nil]
  | cons doc rest ih =>
    obtain ⟨text, htext, h⟩ := bind_eq_ok.mp h
    obtain ⟨buckets₁, hput, h⟩ := bind_eq_ok.mp h
    rw [mapError_eq_ok] at htext hput
    rw [List.append_cons] at hgroupable ⊢
    refine ih hgroupable ?_ h
    rw [List.map_append, List.map_append, List.map_singleton, List.forall_mem_append,
      List.forall_mem_append, List.forall_mem_singleton] at hgroupable
    obtain ⟨⟨hseen, hdoc⟩, -⟩ := hgroupable
    obtain rfl : keyTextOf (key.valueIn doc) = text := by rw [keyTextOf, htext]; rfl
    rw [labels_put hput, List.map_append, List.map_singleton, firstSeen_concat, hlabels]
    simp only [mem_texts_iff hseen hdoc hlabels]
    split_ifs
    · rfl
    · rw [List.map_append]
      rfl

/-! ## Counts -/

/-- How many values agree with the given one. -/
def tally (values : List Value) (v : Value) : Nat := values.countP (·.agrees v)

/-- A row that names a value and says how many values agree with it. -/
def countRow (values : List Value) (v : Value) : Document :=
  [(.str "_id", v), (.str defaultCountField, .int (tally values v))]

/-- The column of a grouping that gathers nothing. -/
def countColumn : Column := ⟨.str defaultCountField, .count, .constant .null⟩

theorem columnsOrCount_id (strict : Bool) (key : Value) :
    columnsOrCount strict [(.str "_id", key)] = .ok [countColumn] := by
  have hid : (Value.str "_id").equals (.str "_id") = true := by decide +kernel
  simp only [columnsOrCount, columns, hid, if_true]
  rfl

theorem exists_countColumn_fold (docs : List Document) :
    ∀ column ∈ [countColumn], ∃ v, column.fold docs = .ok v :=
  List.forall_mem_singleton.mpr (Column.exists_fold (by decide) (by decide) docs)

theorem exists_countColumn_gather (docs : List Document) :
    ∀ column ∈ [countColumn], ∃ tally, column.gather docs = .ok tally := by
  intro column hcolumn
  obtain ⟨v, hv⟩ := exists_countColumn_fold docs column hcolumn
  obtain ⟨tally, htally, -⟩ := bind_eq_ok.mp hv
  exact ⟨tally, htally⟩

/-- The documents of a bucket are those whose values agree with its value. -/
theorem length_withText {docs : List Document} {first : Document}
    (h : ∀ v ∈ docs.map key.valueIn, Groupable v) (hfirst : first ∈ docs) :
    (withText key (textOf key first) docs).length =
      tally (docs.map key.valueIn) (key.valueIn first) := by
  rw [tally, List.countP_map, List.countP_eq_length_filter, withText]
  rw [List.forall_mem_map] at h
  refine congrArg List.length (List.filter_congr fun doc hdoc => ?_)
  rw [Bool.eq_iff_iff, decide_eq_true_iff]
  exact ((h doc hdoc).agrees_iff (h first hfirst)).symm

theorem mapM_of_ok {ε α β : Type} {f : α → Except ε β} {g : α → β} {xs : List α}
    (h : ∀ x ∈ xs, f x = .ok (g x)) : xs.mapM f = .ok (xs.map g) := by
  induction xs with
  | nil => rfl
  | cons x xs ih =>
    rw [List.forall_mem_cons] at h
    rw [List.mapM_cons, h.1, ih h.2]
    rfl

theorem row_of_holds {docs : List Document} {bucket : Bucket}
    (hgroupable : ∀ v ∈ docs.map key.valueIn, Groupable v)
    (h : bucket.Holds [countColumn] key (withText key bucket.text docs)) :
    row [countColumn] bucket = .ok (countRow (docs.map key.valueIn) bucket.value) := by
  obtain ⟨row, hrow, first, rest, fields, hdocs, rfl, hfields⟩ :=
    h.exists_row (exists_countColumn_fold _)
  have hvalue := h.value
  have hmem : first ∈ withText key bucket.text docs := by rw [hdocs]; exact List.mem_cons_self ..
  obtain ⟨hfirst, htext⟩ := List.mem_filter.mp hmem
  rw [decide_eq_true_iff] at htext
  rw [hdocs] at hvalue
  have hname : key.valueIn first = bucket.value := Option.some.inj hvalue
  obtain ⟨⟨k, v⟩, others, ⟨hfield, hgives⟩, hothers, rfl⟩ := List.forall₂_cons_left_iff.mp hfields
  obtain rfl := List.forall₂_nil_left_iff.mp hothers
  obtain rfl : k = .str defaultCountField := hfield
  obtain rfl : v = .int _ := hgives.count rfl
  rw [hrow, ← htext, length_withText hgroupable hfirst, hname]
  rfl

/-- The values of a field, null for documents without it. -/
def fieldValues (field : String) (docs : List Document) : List Value :=
  docs.map fun doc => (Fields.getText? doc field).getD .null

/-- **Grouping by a field without gathering anything counts values.** -/
theorem rows_of_counting (strict : Bool) (field : String) (docs : List Document)
    (h : ∀ v ∈ fieldValues field docs, Groupable v) :
    rows strict (.object [(.str "_id", .str ("$" ++ field))]) docs =
      .ok ((firstSeen (fieldValues field docs)).map (countRow (fieldValues field docs))) := by
  have hvalues : fieldValues field docs = docs.map (Source.field field).valueIn := rfl
  have hsource : keySource [(.str "_id", .str ("$" ++ field))] = .field field :=
    keySource_field (Fields.getText?_cons_self ..)
  have hcolumns := columnsOrCount_id strict (.str ("$" ++ field))
  rw [hvalues] at h ⊢
  generalize Source.field field = key at *
  obtain ⟨buckets, hfill, hfilled⟩ := fill_spec Filled.nil
    (fun doc hdoc => exists_keyText (h _ (List.mem_map_of_mem hdoc)).isShort)
    fun _ _ => exists_countColumn_gather _
  have hlabels : buckets.map Bucket.label = (firstSeen (docs.map key.valueIn)).map labelOf := by
    have hnone : [].map Bucket.label = (firstSeen ([].map key.valueIn)).map labelOf := rfl
    exact labels_fill (by rwa [List.nil_append]) hnone hfill
  rw [List.nil_append] at hfilled
  have hseen : buckets.map (·.value) = firstSeen (docs.map key.valueIn) := by
    have hsnd := congrArg (List.map Prod.snd) hlabels
    rw [List.map_map, List.map_map] at hsnd
    exact hsnd.trans (List.map_id _)
  have hrows : buckets.mapM (row [countColumn]) =
      .ok (buckets.map fun bucket => countRow (docs.map key.valueIn) bucket.value) :=
    mapM_of_ok fun bucket hbucket => row_of_holds h (hfilled.holds bucket hbucket)
  simp only [rows, hcolumns, hsource, hfill, hrows, bind, Except.bind, Except.mapError]
  rw [← hseen, List.map_map]
  rfl

end Group

end SnapshotStore
