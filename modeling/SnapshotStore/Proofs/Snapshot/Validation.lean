import SnapshotStore.Proofs.Store.UniqueIds

/-!
# What the check of a snapshot accepts

A value gives documents to a collection (`Gives`): to a keyed one as the values of an object, to an
append-only one as the items of a list. A collection may hold documents together (`HeldTogether`)
unless it is keyed and a key field is null, or two are displayed alike.

**Theorem (`check_iff_sound`).** A JSON value passes the check exactly when it is an object that
gives every collection of the schema it names documents which that collection may hold together.
The collections of the schema then hold exactly these documents in their order, keyed ones under
their own keys whatever keys they came with. Names that are not of the schema are reported once
each. The data passes the check again, as it is and with no reports.

The keys under which documents came play no part in `rekey_of_ids`: it looks only at those already
put in place, so documents may exchange keys.
-/

namespace SnapshotStore

/-- The collection that was dropped. -/
def Notice.dropped? : Notice → Option Value
  | dropped collection => some collection
  | rekeyed .. => none

namespace Snapshot

/-- A value gives a collection these documents, in order. -/
def Gives : Kind → Value → List Document → Prop
  | .keyed _, .object fields, docs => fields.map (·.2) = docs.map .object
  | .appendOnly, .list items, docs => items = docs.map .object
  | _, _, _ => False

/-- A collection may hold the documents together. In a keyed one none has a null key field, or
none at all, and no two have key fields of the same text. -/
def HeldTogether : Kind → List Document → Prop
  | .keyed field, docs => (∀ doc ∈ docs, doc.idIn field ≠ .null) ∧
      (docs.map fun doc => (doc.idIn field).display).Nodup
  | .appendOnly, _ => True

/-- A document under the text of its own key field. -/
def filed (field : String) (doc : Document) : String × Document :=
  ((doc.idIn field).display, doc)

/-- Documents held in the way of a kind of collection, in order. -/
def file : Kind → List Document → Contents
  | .keyed field, docs => .keyed (docs.map (filed field))
  | .appendOnly, docs => .appendOnly docs

/-- An object that gives every collection of the schema it names documents which that collection
may hold together. -/
def Sound (raw : Value) : Prop :=
  ∃ fields, raw = .object fields ∧ ∀ name kind v, kindOf? name = some kind →
    Fields.getText? fields name = some v → ∃ docs, Gives kind v docs ∧ HeldTogether kind docs

/-- Data that holds exactly what an object gives: all collections of the schema in order, each with
the documents it is given, or with none. -/
structure ReadsAs (fields : Fields) (data : Collections) : Prop where
  names : data.map (·.1) = schema.map (·.1)
  absent : ∀ name kind, kindOf? name = some kind → Fields.getText? fields name = none →
    data.lookup name = some kind.noContents
  present : ∀ name kind v, kindOf? name = some kind → Fields.getText? fields name = some v →
    ∃ docs, Gives kind v docs ∧ data.lookup name = some (file kind docs)

/-- What is reported of a document that came under a key. -/
def reportEntry (name field : String) (entry : Value × Document) : List Notice :=
  if (Value.str (filed field entry.2).1).equals entry.1 then []
  else [.rekeyed entry.1 (filed field entry.2).1 name]

/-- What is reported of the contents of a collection. -/
def reportContents (name : String) : Kind → Value → List Notice
  | .keyed field, v => ((entries? v).getD []).flatMap (reportEntry name field)
  | .appendOnly, _ => []

/-- What is reported of a field of a snapshot. -/
def report (entry : Value × Value) : List Notice :=
  match known? entry.1 with
  | none => [.dropped entry.1]
  | some (name, kind) => reportContents name kind entry.2

/-! ## Documents under their own keys -/

section Rekey

variable {collection field : String} {entries : List (Value × Document)}
  {held result : List (String × Document)}

theorem rekey_cons (old : Value) {doc : Document} (hid : doc.idIn field ≠ .null) :
    rekey collection field ((old, doc) :: entries) held =
      if (filed field doc).1 ∈ held.map (·.1) then
        ⟨[], .error (.duplicateKey field (filed field doc).1 collection)⟩
      else (rekey collection field entries (held ++ [filed field doc])).after
        (reportEntry collection field (old, doc)) := by
  have hmem : (filed field doc).1 ∈ held.map (·.1) ↔
      (held.lookup (doc.idIn field).display).isSome := by
    simp only [List.mem_map, List.lookup_isSome_iff, beq_iff_eq, filed]
    exact exists_congr fun entry => and_congr_right fun _ => eq_comm
  rw [rekey]
  split
  · next hnull => exact absurd hnull hid
  · simp only [hmem]
    rfl

theorem rekey_null {old : Value} {doc : Document} (hid : doc.idIn field = .null) :
    (rekey collection field ((old, doc) :: entries) held).outcome =
      .error (.noKey old collection field) := by
  rw [Document.idIn] at hid
  rw [rekey, hid]

/-- Documents with keys of their own are held under these, after those already held. -/
theorem rekey_of_ids (hids : ∀ entry ∈ entries, entry.2.idIn field ≠ .null)
    (hkeys : ((held ++ entries.map fun entry => filed field entry.2).map (·.1)).Nodup) :
    rekey collection field entries held = ⟨entries.flatMap (reportEntry collection field),
      .ok (held ++ entries.map fun entry => filed field entry.2)⟩ := by
  induction entries generalizing held with
  | nil => simp [rekey]
  | cons entry entries ih =>
    obtain ⟨old, doc⟩ := entry
    rw [List.forall_mem_cons] at hids
    have hnew : (filed field doc).1 ∉ held.map (·.1) := by
      rw [List.map_append, List.nodup_append] at hkeys
      exact fun hmem => hkeys.2.2 _ hmem _ (List.mem_cons_self ..) rfl
    rw [List.map_cons, List.append_cons] at hkeys ⊢
    rw [rekey_cons old hids.1, if_neg hnew, ih hids.2 hkeys, List.flatMap_cons]
    rfl

theorem ids_of_rekey (hheld : (held.map (·.1)).Nodup)
    (h : (rekey collection field entries held).outcome = .ok result) :
    (∀ entry ∈ entries, entry.2.idIn field ≠ .null) ∧
      ((held ++ entries.map fun entry => filed field entry.2).map (·.1)).Nodup := by
  induction entries generalizing held with
  | nil => simpa using hheld
  | cons entry entries ih =>
    obtain ⟨old, doc⟩ := entry
    have hid : doc.idIn field ≠ .null := fun hnull => by
      rw [rekey_null hnull] at h
      cases h
    rw [rekey_cons old hid] at h
    split_ifs at h with hmem
    rw [Checked.after_outcome] at h
    have hheld' : ((held ++ [filed field doc]).map (·.1)).Nodup := by
      rw [List.map_append, List.map_singleton, ← List.concat_eq_append]
      exact hheld.concat hmem
    obtain ⟨hids, hkeys⟩ := ih hheld' h
    rw [List.map_cons, List.append_cons, List.forall_mem_cons]
    exact ⟨⟨hid, hids⟩, hkeys⟩

end Rekey

/-! ## One collection -/

theorem entries?_eq_some {v : Value} {entries : List (Value × Document)} :
    entries? v = some entries ↔
      v = .object (entries.map fun entry => (entry.1, .object entry.2)) := by
  constructor
  · intro h
    cases v with
    | object fields =>
      replace h := mapM_eq_some.mp h
      refine congrArg _ ?_
      induction h with
      | nil => rfl
      | cons hfield _ ih =>
        obtain ⟨doc, hdoc, rfl⟩ := Option.map_eq_some_iff.mp hfield
        rw [List.map_cons, ← ih, ← fields?_eq_some.mp hdoc]
    | _ => cases h
  · rintro rfl
    refine mapM_eq_some.mpr ?_
    rw [List.forall₂_map_left_iff]
    exact List.forall₂_same.mpr fun _ _ => rfl

/-- The documents that an object gives are those of its entries. -/
theorem gives_keyed {field : String} {v : Value} {docs : List Document} :
    Gives (.keyed field) v docs ↔
      ∃ entries, entries? v = some entries ∧ entries.map (·.2) = docs := by
  simp only [entries?_eq_some]
  constructor
  · intro h
    cases v with
    | object fields =>
      replace h : fields.map (·.2) = docs.map .object := h
      induction fields generalizing docs with
      | nil => exact ⟨[], rfl, (List.map_eq_nil_iff.mp h.symm).symm⟩
      | cons pair fields ih =>
        obtain ⟨old, w⟩ := pair
        cases docs with
        | nil => cases h
        | cons doc docs =>
          obtain ⟨rfl, hrest⟩ := List.cons_eq_cons.mp h
          obtain ⟨entries, hentries, rfl⟩ := ih hrest
          exact ⟨(old, doc) :: entries, by rw [Value.object.inj hentries]; rfl, rfl⟩
    | _ => cases h
  · rintro ⟨entries, rfl, rfl⟩
    simp [Gives]

theorem gives_appendOnly {v : Value} {docs : List Document} :
    Gives .appendOnly v docs ↔ v = .list (docs.map .object) := by
  cases v <;> simp [Gives]

variable {name : String} {kind : Kind} {v : Value} {docs : List Document}

theorem checkContents_of_gives (hgives : Gives kind v docs) (hdocs : HeldTogether kind docs) :
    checkContents name kind v = ⟨reportContents name kind v, .ok (file kind docs)⟩ := by
  cases kind with
  | keyed field =>
    obtain ⟨entries, hentries, rfl⟩ := gives_keyed.mp hgives
    obtain ⟨hids, hkeys⟩ := hdocs
    rw [List.forall_mem_map] at hids
    rw [List.map_map] at hkeys
    have hrekey : rekey name field entries [] = _ :=
      rekey_of_ids hids (by simpa [Function.comp_def, filed] using hkeys)
    simp only [checkContents, hentries, hrekey, reportContents, Option.getD_some]
    simp [file]
  | appendOnly =>
    obtain rfl := gives_appendOnly.mp hgives
    simp only [checkContents, documents?_eq_some.mpr rfl, reportContents, file]

theorem gives_of_checkContents {contents : Contents}
    (h : (checkContents name kind v).outcome = .ok contents) :
    ∃ docs, Gives kind v docs ∧ HeldTogether kind docs := by
  cases kind with
  | keyed field =>
    simp only [checkContents] at h
    split at h
    · cases h
    · next entries hentries =>
      split at h
      · next notices held hrekey =>
        have houtcome : (rekey name field entries []).outcome = .ok held := by rw [hrekey]
        obtain ⟨hids, hkeys⟩ := ids_of_rekey (by simp) houtcome
        refine ⟨entries.map (·.2), gives_keyed.mpr ⟨entries, hentries, rfl⟩, ?_, ?_⟩
        · exact List.forall_mem_map.mpr hids
        · simpa [Function.comp_def, filed] using hkeys
      · cases h
  | appendOnly =>
    simp only [checkContents] at h
    split at h
    · split at h
      · next docs hdocs => exact ⟨docs, documents?_eq_some.mp hdocs, trivial⟩
      · cases h
    · cases h

/-! ## All collections -/

theorem known?_str (name : String) :
    known? (.str name) = (kindOf? name).map fun kind => (name, kind) := rfl

/-- Every known collection among the entries is given documents which it may hold together. -/
def AllServed (entries : List (String × Value)) : Prop :=
  ∀ entry ∈ entries, ∀ kind, kindOf? entry.1 = some kind →
    ∃ docs, Gives kind entry.2 docs ∧ HeldTogether kind docs

/-- The collections that are given contents hold these documents, and the others what they held. -/
def Filled (entries : List (String × Value)) (data result : Collections) : Prop :=
  ∀ name kind, kindOf? name = some kind →
    (entries.lookup name = none → result.lookup name = data.lookup name) ∧
    ∀ v, entries.lookup name = some v →
      ∃ docs, Gives kind v docs ∧ result.lookup name = some (file kind docs)

variable {entries : List (String × Value)} {data result : Collections}

theorem map_fst_set (data : Collections) (name : String) (contents : Contents) :
    (data.set name contents).map (·.1) = data.map (·.1) := by
  unfold Collections.set
  rw [List.map_map]
  refine List.map_congr_left fun entry _ => ?_
  by_cases h : entry.1 = name <;> simp [h]

/-- Contents for one collection more. -/
theorem Filled.cons {contents : Value} (hkind : kindOf? name = some kind)
    (hgives : Gives kind contents docs) (hnew : name ∉ entries.map (·.1))
    (hthere : (data.lookup name).isSome)
    (h : Filled entries (data.set name (file kind docs)) result) :
    Filled ((name, contents) :: entries) data result := by
  intro other kind' hkind'
  obtain ⟨habsent, hpresent⟩ := h other kind' hkind'
  by_cases hname : other = name
  · subst hname
    cases hkind.symm.trans hkind'
    have hnone : entries.lookup other = none := by
      rwa [← Fields.getText?_ofEntries, Fields.getText?_ofEntries_eq_none]
    rw [List.lookup_cons_self]
    refine ⟨nofun, ?_⟩
    rintro v ⟨⟩
    exact ⟨docs, hgives, (habsent hnone).trans (Collections.lookup_set_self hthere _)⟩
  · rw [List.lookup_cons, beq_false_of_ne hname]
    rw [Collections.lookup_set_of_ne hname] at habsent
    exact ⟨habsent, hpresent⟩

/-- An unknown name fills nothing. -/
theorem Filled.cons_unknown {contents : Value} (hkind : kindOf? name = none)
    (h : Filled entries data result) : Filled ((name, contents) :: entries) data result := by
  intro other kind' hkind'
  have hname : other ≠ name := by
    rintro rfl
    cases hkind.symm.trans hkind'
  rw [List.lookup_cons, beq_false_of_ne hname]
  exact h other kind' hkind'

theorem isSome_lookup_of_names (hnames : data.map (·.1) = schema.map (·.1))
    (hkind : kindOf? name = some kind) : (data.lookup name).isSome := by
  have hmem : name ∈ data.map (·.1) := hnames ▸ List.mem_map_of_mem (mem_schema_of_kindOf? hkind)
  obtain ⟨entry, hentry, hname⟩ := List.mem_map.mp hmem
  exact List.lookup_isSome_iff.mpr ⟨entry, hentry, beq_iff_eq.mpr hname.symm⟩

/-- Entries with all known collections served pass the check, one after the other. -/
theorem checkFields_of_allServed (hkeys : (entries.map (·.1)).Nodup) (hall : AllServed entries)
    (hnames : data.map (·.1) = schema.map (·.1)) :
    ∃ result, checkFields (Fields.ofEntries entries) data =
        ⟨(Fields.ofEntries entries).flatMap report, .ok result⟩ ∧
      result.map (·.1) = schema.map (·.1) ∧ Filled entries data result := by
  induction entries generalizing data with
  | nil => exact ⟨data, rfl, hnames, fun name kind _ => ⟨fun _ => rfl, nofun⟩⟩
  | cons entry entries ih =>
    obtain ⟨name, contents⟩ := entry
    rw [List.map_cons, List.nodup_cons] at hkeys
    obtain ⟨hserved, hall⟩ := List.forall_mem_cons.mp hall
    cases hkind : kindOf? name with
    | none =>
      obtain ⟨result, hcheck, hresult, hfilled⟩ := ih hkeys.2 hall hnames
      refine ⟨result, ?_, hresult, hfilled.cons_unknown hkind⟩
      rw [Fields.ofEntries_cons, checkFields, known?_str, hkind, List.flatMap_cons, report,
        known?_str, hkind]
      simp only [Option.map_none, hcheck]
      rfl
    | some kind =>
      obtain ⟨docs, hgives, hdocs⟩ := hserved kind hkind
      obtain ⟨result, hcheck, hresult, hfilled⟩ := ih hkeys.2 hall
        ((map_fst_set data name (file kind docs)).trans hnames)
      refine ⟨result, ?_, hresult,
        hfilled.cons hkind hgives hkeys.1 (isSome_lookup_of_names hnames hkind)⟩
      rw [Fields.ofEntries_cons, checkFields, known?_str, hkind, List.flatMap_cons, report,
        known?_str, hkind]
      simp only [Option.map_some, checkContents_of_gives hgives hdocs, hcheck]
      rfl

theorem allServed_of_checkFields
    (h : (checkFields (Fields.ofEntries entries) data).outcome = .ok result) :
    AllServed entries := by
  induction entries generalizing data with
  | nil => exact fun _ hentry => absurd hentry List.not_mem_nil
  | cons entry entries ih =>
    obtain ⟨name, contents⟩ := entry
    rw [Fields.ofEntries_cons, checkFields, known?_str] at h
    refine List.forall_mem_cons.mpr ⟨fun kind hkind => ?_, ?_⟩
    · rw [show kindOf? name = some kind from hkind] at h
      dsimp only [Option.map_some] at h
      split at h
      · next notices held hcheck =>
        have houtcome : (checkContents name kind contents).outcome = .ok held := by rw [hcheck]
        exact gives_of_checkContents houtcome
      · cases h
    · split at h
      · exact ih h
      · split at h
        · exact ih h
        · cases h

theorem sound_ofEntries (hkeys : (entries.map (·.1)).Nodup) :
    Sound (.object (Fields.ofEntries entries)) ↔ AllServed entries := by
  constructor
  · rintro ⟨fields, hfields, h⟩ ⟨name, v⟩ hentry kind hkind
    obtain rfl := Value.object.inj hfields
    exact h name kind v hkind ((Fields.getText?_ofEntries_eq_some hkeys).mpr hentry)
  · intro h
    refine ⟨_, rfl, fun name kind v hkind hv => h (name, v) ?_ kind hkind⟩
    exact (Fields.getText?_ofEntries_eq_some hkeys).mp hv

theorem lookup_empty (hkind : kindOf? name = some kind) :
    Collections.empty.lookup name = some kind.noContents := by
  have hall : ∀ collection ∈ schema,
      Collections.empty.lookup collection.1 = some collection.2.noContents := by
    simp [schema, Collections.empty, List.lookup_cons]
  exact hall _ (mem_schema_of_kindOf? hkind)

/-! ## Reports -/

theorem dropped_report (entry : Value × Value) :
    (report entry).filterMap Notice.dropped? =
      if (known? entry.1).isNone then [entry.1] else [] := by
  unfold report
  cases known? entry.1 with
  | none => rfl
  | some collection =>
    obtain ⟨name, kind⟩ := collection
    cases kind with
    | keyed field =>
      refine List.filterMap_eq_nil_iff.mpr fun notice hnotice => ?_
      obtain ⟨entry, -, hentry⟩ := List.mem_flatMap.mp hnotice
      unfold reportEntry at hentry
      split_ifs at hentry
      · cases hentry
      · rw [List.mem_singleton.mp hentry, Notice.dropped?]
    | appendOnly => rfl

theorem dropped_reports (fields : Fields) :
    (fields.flatMap report).filterMap Notice.dropped? =
      (fields.map (·.1)).filter fun key => (known? key).isNone := by
  induction fields with
  | nil => rfl
  | cons entry fields ih =>
    rw [List.flatMap_cons, List.filterMap_append, ih, dropped_report, List.map_cons,
      List.filter_cons]
    split_ifs <;> rfl

theorem readsAs_of_filled (hnames : result.map (·.1) = schema.map (·.1))
    (h : Filled entries .empty result) : ReadsAs (Fields.ofEntries entries) result := by
  refine ⟨hnames, fun name kind hkind habsent => ?_, fun name kind v hkind hpresent => ?_⟩
  · rw [Fields.getText?_ofEntries] at habsent
    rw [(h name kind hkind).1 habsent, lookup_empty hkind]
  · rw [Fields.getText?_ofEntries] at hpresent
    exact (h name kind hkind).2 v hpresent

/-- A sound value passes the check. -/
theorem check_of_allServed (hkeys : (entries.map (·.1)).Nodup) (hall : AllServed entries) :
    ∃ data, check (.object (Fields.ofEntries entries)) =
        ⟨(Fields.ofEntries entries).flatMap report, .ok data⟩ ∧
      ReadsAs (Fields.ofEntries entries) data := by
  obtain ⟨data, hcheck, hnames, hfilled⟩ :=
    checkFields_of_allServed hkeys hall Collections.WellFormed.empty.names
  exact ⟨data, hcheck, readsAs_of_filled hnames hfilled⟩

theorem exists_check_iff_sound {raw : Value} (hraw : raw.isJson Number.isShort = true) :
    (∃ data, (check raw).outcome = .ok data) ↔ Sound raw := by
  constructor
  · rintro ⟨data, hdata⟩
    cases raw with
    | object fields =>
      obtain ⟨entries, rfl, hkeys, -⟩ := Value.isJson_object hraw
      exact (sound_ofEntries hkeys).mpr (allServed_of_checkFields hdata)
    | _ => cases hdata
  · rintro hsound
    obtain ⟨fields, rfl, -⟩ := id hsound
    obtain ⟨entries, rfl, hkeys, -⟩ := Value.isJson_object hraw
    obtain ⟨data, hcheck, -⟩ := check_of_allServed hkeys ((sound_ofEntries hkeys).mp hsound)
    exact ⟨data, by rw [hcheck]⟩

/-- **The check accepts exactly the sound values, and loses nothing of them.** Whatever is read from
a text is such a JSON value (`Json.isJson_read`). -/
theorem check_iff_sound {raw : Value} (hraw : raw.isJson Number.isShort = true) :
    ((∃ data, (check raw).outcome = .ok data) ↔ Sound raw) ∧
    (¬ Sound raw → ∃ e, (check raw).outcome = .error e) ∧
    ∀ fields data, raw = .object fields → (check raw).outcome = .ok data →
      ReadsAs fields data ∧
      (check raw).notices = fields.flatMap report ∧
      (check raw).notices.filterMap Notice.dropped? =
        (fields.map (·.1)).filter (fun key => (known? key).isNone) ∧
      (fields.map (·.1)).Nodup ∧
      check data.toValue = ⟨[], .ok data⟩ := by
  have hiff := exists_check_iff_sound hraw
  refine ⟨hiff, fun hunsound => ?_, ?_⟩
  · cases houtcome : (check raw).outcome with
    | error e => exact ⟨e, rfl⟩
    | ok data => exact absurd (hiff.mp ⟨data, houtcome⟩) hunsound
  · rintro fields data rfl hdata
    have hagain := check_toValue (wellFormed_check hraw hdata)
    obtain ⟨entries, rfl, hkeys, -⟩ := Value.isJson_object hraw
    obtain ⟨data', hcheck, hreads⟩ :=
      check_of_allServed hkeys ((sound_ofEntries hkeys).mp (hiff.mp ⟨data, hdata⟩))
    rw [hcheck] at hdata ⊢
    cases hdata
    have hdistinct : ((Fields.ofEntries entries).map (·.1)).Nodup := by
      have hnames : (Fields.ofEntries entries).map (·.1) = (entries.map (·.1)).map .str := by
        simp [Fields.ofEntries]
      rw [hnames]
      exact hkeys.map fun _ _ => Value.str.inj
    exact ⟨hreads, rfl, dropped_reports _, hdistinct, hagain⟩

/-- Two documents, each under the key of the other, and a name that is not of the schema. -/
def exchanged : List (String × Value) :=
  [("users", .object (Fields.ofEntries [("a", .object (Store.numbered (.str "b"))),
      ("b", .object (Store.numbered (.str "a")))])),
    ("extra", .null)]

theorem isJson_exchanged :
    (Value.object (Fields.ofEntries exchanged)).isJson Number.isShort = true := by
  simp [exchanged, Store.numbered, Value.isJson, Value.areJsonFields, Fields.getText?_cons_of_ne]

theorem display_str (id : String) : (Value.str id).display = id := by
  simp only [Value.display, Value.displayText, String.ofList_toList]

theorem allServed_exchanged : AllServed exchanged := by
  refine List.forall_mem_cons.mpr ⟨?_, List.forall_mem_singleton.mpr nofun⟩
  rintro kind ⟨⟩
  refine ⟨[Store.numbered (.str "b"), Store.numbered (.str "a")], rfl, ?_, ?_⟩
  · simp [Store.idIn_numbered]
  · simp [Store.idIn_numbered, display_str]

theorem check_iff_sound_exchanged :
    ∃ data, (check (.object (Fields.ofEntries exchanged))).outcome = .ok data ∧
      data.lookup "users" = some (.keyed
        [("b", Store.numbered (.str "b")), ("a", Store.numbered (.str "a"))]) ∧
      (check (.object (Fields.ofEntries exchanged))).notices.filterMap Notice.dropped? =
        [.str "extra"] := by
  obtain ⟨hiff, -, hread⟩ := check_iff_sound isJson_exchanged
  obtain ⟨data, hdata⟩ := hiff.mpr ((sound_ofEntries (by decide)).mpr allServed_exchanged)
  obtain ⟨hreads, -, hdropped, -⟩ := hread _ data rfl hdata
  refine ⟨data, hdata, ?_, hdropped.trans rfl⟩
  obtain ⟨docs, hgives, hlookup⟩ := hreads.present "users" (.keyed "id") _ rfl
    (Fields.getText?_ofEntries exchanged "users")
  replace hgives : [Store.numbered (.str "b"), Store.numbered (.str "a")].map Value.object =
      docs.map Value.object := hgives
  obtain rfl := List.map_injective_iff.mpr (fun _ _ => Value.object.inj) hgives
  rw [hlookup]
  simp [file, filed, Store.idIn_numbered, display_str]

end Snapshot

end SnapshotStore
