import SnapshotStore.Proofs.Collections
import SnapshotStore.Snapshot

/-!
# Reading snapshots

**Theorem (`wellFormed_load`).** Data that is loaded is well-formed.

**Theorem (`check_toValue`).** Well-formed data passes the check as it is, and nothing is reported.

**Theorem (`load_dump`).** Once a file holds the text of well-formed data, exactly that data is
loaded from it.
-/

namespace SnapshotStore

namespace Snapshot

/-! ## What the check accepts is well-formed -/

theorem Checked.after_outcome {α : Type} (notices : List Notice) (r : Checked α) :
    (r.after notices).outcome = r.outcome := rfl

@[simp] theorem Checked.after_nil {α : Type} (r : Checked α) : r.after [] = r := rfl

theorem filed_of_key {field : String} {doc : Document} {id : Value} (hdoc : doc.Stored)
    (hid : (Fields.getText? doc field).getD .null = id) (hnull : id ≠ .null) :
    Filed field (id.display, doc) := by
  refine ⟨hdoc, id, ?_, hnull, rfl⟩
  cases hget : Fields.getText? doc field with
  | none =>
    rw [hget] at hid
    exact absurd hid.symm hnull
  | some v =>
    rw [hget] at hid
    exact congrArg some hid

/-- Documents are held under their own keys, one under each. -/
theorem fits_rekey {collection field : String} {entries : List (Value × Document)}
    {held result : List (String × Document)}
    (hentries : ∀ entry ∈ entries, Document.Stored entry.2)
    (hheld : (Contents.keyed held).Fits (.keyed field))
    (h : (rekey collection field entries held).outcome = .ok result) :
    (Contents.keyed result).Fits (.keyed field) := by
  induction entries generalizing held with
  | nil =>
    obtain rfl : held = result := Except.ok.inj h
    exact hheld
  | cons entry entries ih =>
    obtain ⟨old, doc⟩ := entry
    rw [List.forall_mem_cons] at hentries
    unfold rekey at h
    generalize hid : (Fields.getText? doc field).getD .null = id at h
    split at h
    · cases h
    · next hnull =>
      dsimp only at h
      split at h
      · cases h
      · next hfree =>
        rw [Checked.after_outcome] at h
        refine ih hentries.2 ⟨?_, ?_⟩ h
        · rw [List.map_append, List.map_singleton, ← List.concat_eq_append]
          refine hheld.1.concat fun hmem => hfree ?_
          obtain ⟨entry, hentry, hkey⟩ := List.mem_map.mp hmem
          exact List.lookup_isSome_iff.mpr ⟨entry, hentry, by simpa using hkey.symm⟩
        · exact List.forall_mem_append.mpr
            ⟨hheld.2, List.forall_mem_singleton.mpr (filed_of_key hentries.1 hid hnull)⟩

theorem stored_of_fields {fields : Fields} {v : Value} {number : Number → Bool}
    (h : (Value.object fields).isJson number = true) {k : Value} (hmem : (k, v) ∈ fields) :
    v.isJson number = true := by
  obtain ⟨entries, rfl, -, hall⟩ := Value.isJson_object h
  obtain ⟨key, -, hentry⟩ := Fields.mem_ofEntries.mp hmem
  exact hall _ hentry

theorem fields?_eq_some {v : Value} {fields : Fields} :
    v.fields? = some fields ↔ v = .object fields := by
  cases v <;> simp [Value.fields?]

theorem stored_of_entries? {v : Value} {entries : List (Value × Document)}
    (hv : v.isJson Number.isShort = true) (h : entries? v = some entries) :
    ∀ entry ∈ entries, Document.Stored entry.2 := by
  cases v with
  | object fields =>
    have hall : ∀ field ∈ fields, field.2.isJson Number.isShort = true :=
      fun field hmem => stored_of_fields hv hmem
    replace h := mapM_eq_some.mp h
    clear hv
    induction h with
    | nil => exact fun entry hentry => absurd hentry List.not_mem_nil
    | @cons field entry fields entries hfield _ ih =>
      rw [List.forall_mem_cons] at hall
      obtain ⟨doc, hdoc, rfl⟩ := Option.map_eq_some_iff.mp hfield
      refine List.forall_mem_cons.mpr ⟨?_, ih hall.2⟩
      have hvalue := hall.1
      rwa [fields?_eq_some.mp hdoc] at hvalue
  | _ => cases h

theorem documents?_eq_some {items : List Value} {docs : List Document} :
    Value.documents? items = some docs ↔ items = docs.map .object := by
  unfold Value.documents?
  rw [mapM_eq_some]
  constructor
  · intro h
    induction h with
    | nil => rfl
    | cons hitem _ ih => rw [fields?_eq_some.mp hitem, ih, List.map_cons]
  · rintro rfl
    exact List.forall₂_map_left_iff.mpr (List.forall₂_same.mpr fun _ _ => rfl)

theorem stored_of_documents? {items : List Value} {docs : List Document}
    (hv : ∀ v ∈ items, v.isJson Number.isShort = true) (h : Value.documents? items = some docs) :
    ∀ doc ∈ docs, Document.Stored doc := by
  obtain rfl := documents?_eq_some.mp h
  exact fun doc hdoc => hv (.object doc) (List.mem_map_of_mem hdoc)

theorem fits_checkContents {name : String} {kind : Kind} {v : Value} {contents : Contents}
    (hv : v.isJson Number.isShort = true)
    (h : (checkContents name kind v).outcome = .ok contents) : contents.Fits kind := by
  cases kind with
  | keyed field =>
    simp only [checkContents] at h
    split at h
    · cases h
    · next entries hentries =>
      split at h
      · next notices held hrekey =>
        cases h
        exact fits_rekey (stored_of_entries? hv hentries) (Contents.fits_noContents (.keyed field))
          (by rw [hrekey])
      · cases h
  | appendOnly =>
    simp only [checkContents] at h
    split at h
    · split at h
      · next docs hdocs =>
        cases h
        exact stored_of_documents? (Value.isJson_list.mp hv) hdocs
      · cases h
    · cases h

theorem wellFormed_checkFields {fields : Fields} {data result : Collections}
    (hfields : ∀ k v, (k, v) ∈ fields → v.isJson Number.isShort = true) (hdata : data.WellFormed)
    (h : (checkFields fields data).outcome = .ok result) : result.WellFormed := by
  induction fields generalizing data with
  | nil =>
    obtain rfl : data = result := Except.ok.inj h
    exact hdata
  | cons field fields ih =>
    obtain ⟨key, contents⟩ := field
    have hrest : ∀ k v, (k, v) ∈ fields → v.isJson Number.isShort = true := fun k v hmem =>
      hfields k v (List.mem_cons_of_mem _ hmem)
    unfold checkFields at h
    split at h
    · exact ih hrest hdata h
    · next name kind hknown =>
      have hkind : kindOf? name = some kind := by
        cases key with
        | str name' =>
          obtain ⟨kind', hkind, hpair⟩ := Option.map_eq_some_iff.mp hknown
          cases hpair
          exact hkind
        | _ => cases hknown
      split at h
      · next notices held hcheck =>
        rw [Checked.after_outcome] at h
        exact ih hrest (hdata.set hkind (fits_checkContents
          (hfields key contents (List.mem_cons_self ..)) (by rw [hcheck]))) h
      · cases h

/-- A JSON value that passes the check gives well-formed data. -/
theorem wellFormed_check {v : Value} {data : Collections} (hv : v.isJson Number.isShort = true)
    (h : (check v).outcome = .ok data) : data.WellFormed := by
  cases v with
  | object fields =>
    exact wellFormed_checkFields (fun k v hmem => stored_of_fields hv hmem)
      Collections.WellFormed.empty h
  | _ => cases h

/-! ## Well-formed data passes the check -/

theorem rekey_filed {collection field : String} (held : List (String × Document))
    {entries : List (String × Document)}
    (h : (Contents.keyed (held ++ entries)).Fits (.keyed field)) :
    rekey collection field (entries.map fun entry => (.str entry.1, entry.2)) held =
      ⟨[], .ok (held ++ entries)⟩ := by
  induction entries generalizing held with
  | nil => rw [List.append_nil]; rfl
  | cons entry entries ih =>
    obtain ⟨key, doc⟩ := entry
    obtain ⟨id, hget, hnull, hkey⟩ := (h.2 (key, doc) (by simp)).key
    have hid : (Fields.getText? doc field).getD .null = id := by
      rw [hget]
      rfl
    have hfree : (held.lookup id.display).isSome = false := by
      have hnodup := h.1
      rw [List.map_append, List.nodup_append] at hnodup
      refine Bool.eq_false_iff.mpr fun hmem => ?_
      obtain ⟨entry, hentry, heq⟩ := List.lookup_isSome_iff.mp hmem
      refine hnodup.2.2 entry.1 (List.mem_map_of_mem hentry) key (List.mem_cons_self ..) ?_
      exact ((beq_iff_eq.mp heq).symm.trans hkey.symm)
    have hsame : (Value.str id.display).equals (.str key) = true := by
      rw [← hkey]
      exact Value.alike_str_iff.mpr rfl
    rw [List.append_cons] at h ⊢
    rw [List.map_cons, rekey, hid]
    split
    · exact absurd rfl hnull
    · simp only [hfree, hsame, if_true, Bool.false_eq_true, if_false, Checked.after_nil]
      rw [← hkey]
      exact ih _ h

theorem entries?_toValue (entries : List (String × Document)) :
    entries? (Contents.keyed entries).toValue =
      some (entries.map fun entry => (.str entry.1, entry.2)) := by
  refine mapM_eq_some.mpr ?_
  rw [List.forall₂_map_left_iff, List.forall₂_map_right_iff]
  exact List.forall₂_same.mpr fun _ _ => rfl

/-- Contents that fit a kind pass the check of that kind as they are. -/
theorem checkContents_toValue {contents : Contents} {kind : Kind} (h : contents.Fits kind)
    (name : String) : checkContents name kind contents.toValue = ⟨[], .ok contents⟩ := by
  cases contents with
  | keyed entries =>
    cases kind with
    | keyed field =>
      simp only [checkContents, entries?_toValue]
      rw [rekey_filed [] h]
      rfl
    | appendOnly => exact h.elim
  | appendOnly docs =>
    cases kind with
    | keyed field => exact h.elim
    | appendOnly => simp only [checkContents, Contents.toValue, documents?_eq_some.mpr rfl]

theorem checkFields_toValue (data : Collections) {todo : Collections}
    (h : ∀ entry ∈ todo, ∃ kind, kindOf? entry.1 = some kind ∧ entry.2.Fits kind) :
    checkFields (todo.map fun entry => (.str entry.1, entry.2.toValue)) data =
      ⟨[], .ok (todo.foldl (fun data entry => data.set entry.1 entry.2) data)⟩ := by
  induction todo generalizing data with
  | nil => rfl
  | cons entry todo ih =>
    obtain ⟨name, contents⟩ := entry
    rw [List.forall_mem_cons] at h
    obtain ⟨⟨kind, hkind, hfits⟩, htodo⟩ := h
    have hknown : known? (.str name) = some (name, kind) := by
      rw [known?, hkind]
      rfl
    rw [List.map_cons, checkFields, hknown]
    simp only [checkContents_toValue hfits, Checked.after_nil]
    rw [ih _ htodo, List.foldl_cons]

/-- **Well-formed data passes the check** as it is, and nothing is reported. -/
theorem check_toValue {data : Collections} (h : data.WellFormed) :
    check data.toValue = ⟨[], .ok data⟩ := by
  have hnames : Collections.empty.map (·.1) = data.map (·.1) := by
    rw [Collections.WellFormed.empty.names, h.names]
  have hnodup : (([] ++ data : Collections).map (·.1)).Nodup := by
    rw [List.nil_append, h.names]
    exact nodup_schema
  have hcheck := checkFields_toValue .empty fun entry hentry => h.meets_of_mem hentry
  rw [← List.nil_append Collections.empty, Collections.foldl_set hnames hnodup] at hcheck
  exact hcheck

/-! ## Files -/

theorem fromUTF8?_toUTF8 (text : String) : String.fromUTF8? text.toUTF8 = some text := by
  unfold String.fromUTF8?
  rw [String.toUTF8_eq_toByteArray, dif_pos text.isValidUTF8]
  rfl

theorem decode_toUTF8 {text : String} {v : Value} (h : Json.parse text = .ok v) :
    decode text.toUTF8 = .ok v := by
  unfold decode
  rw [fromUTF8?_toUTF8]
  exact mapError_eq_ok.mpr h

theorem dump_eq_ok {indent : Option Int} {v : Value} {text : String} :
    dump indent v = .ok text ↔
      checkIndent indent v = .ok () ∧ Json.render (style indent) v = .ok text := by
  unfold dump
  rw [bind_eq_ok]
  exact ⟨fun ⟨_, hindent, htext⟩ => ⟨hindent, htext⟩, fun ⟨hindent, htext⟩ => ⟨(), hindent, htext⟩⟩

/-- A JSON value has a text in a snapshot exactly when the indent is in range, no integer is too
long and all numbers are finite. -/
theorem exists_dump_iff {indent : Option Int} {v : Value} (hv : v.isJson Number.isShort = true) :
    (∃ text, dump indent v = .ok text) ↔
      checkIndent indent v = .ok () ∧ v.isJson Number.isFinite = true := by
  have hadmits : (style indent).admits = fun n => n.isShort && n.isFinite := by
    funext n
    simp [Json.Style.admits, style]
  have hstyle : (style indent).sorted = false := rfl
  have hwrite := Json.exists_write_iff hstyle (Value.isJson_mono (fun _ _ => rfl) hv) 0
  rw [hadmits, Value.isJson_and, and_iff_right hv] at hwrite
  rw [← hwrite]
  constructor
  · rintro ⟨text, h⟩
    obtain ⟨hindent, htext⟩ := dump_eq_ok.mp h
    obtain ⟨cs, hcs, -⟩ := bind_eq_ok.mp htext
    exact ⟨hindent, cs, hcs⟩
  · rintro ⟨hindent, cs, hcs⟩
    exact ⟨String.ofList cs, dump_eq_ok.mpr ⟨hindent, by rw [Json.render, hcs]; rfl⟩⟩

/-- A text in a snapshot reads back as the value. -/
theorem decode_dump {indent : Option Int} {v : Value} {text : String}
    (hv : v.isJson Number.isShort = true) (h : dump indent v = .ok text) :
    decode text.toUTF8 = .ok v := by
  have hfinite := ((exists_dump_iff hv).mp ⟨text, h⟩).2
  have hstyle : (style indent).sorted = false := rfl
  have hparse := Json.parse_render hstyle
    (Value.isJson_mono (fun _ => Number.isDefined_of_isFinite) hfinite) (dump_eq_ok.mp h).2
  exact decode_toUTF8 hparse

/-- A file that holds a value which passes the check is loaded as the data that the check gives. -/
theorem load_eq_ok {disk : Disk} {path : FilePath} {data : Collections} :
    (load disk path).outcome = .ok (some data) ↔
      ∃ content v, disk.read path = .ok content ∧ decode content = .ok v ∧
        (check v).outcome = .ok data := by
  constructor
  · intro h
    unfold load at h
    split at h
    · cases h
    · cases h
    · next content hread =>
      split at h
      · cases h
      · next v hdecode =>
        refine ⟨content, v, hread, hdecode, ?_⟩
        split at h
        · next notices data' hcheck =>
          cases h
          rw [hcheck]
        · cases h
  · rintro ⟨content, v, hread, hdecode, hcheck⟩
    generalize hresult : check v = result at hcheck
    obtain ⟨notices, outcome⟩ := result
    obtain rfl : outcome = .ok data := hcheck
    simp only [load, hread, hdecode, hresult]

/-- **Once a file holds the text of well-formed data, exactly that data is loaded.** -/
theorem load_dump {disk : Disk} {path : FilePath} {indent : Option Int} {data : Collections}
    {text : String} (hdata : data.WellFormed) (htext : dump indent data.toValue = .ok text)
    (hread : disk.read path = .ok text.toUTF8) : load disk path = ⟨[], .ok (some data)⟩ := by
  unfold load
  rw [hread]
  simp only [decode_dump hdata.isJson_toValue htext, check_toValue hdata]

/-- **Data that is loaded is well-formed.** -/
theorem wellFormed_load {disk : Disk} {path : FilePath} {data : Collections}
    (h : (load disk path).outcome = .ok (some data)) : data.WellFormed := by
  obtain ⟨content, v, -, hv, hcheck⟩ := load_eq_ok.mp h
  unfold decode at hv
  split at hv
  · cases hv
  · exact wellFormed_check (Json.isJson_read (mapError_eq_ok.mp hv)) hcheck

end Snapshot

end SnapshotStore
