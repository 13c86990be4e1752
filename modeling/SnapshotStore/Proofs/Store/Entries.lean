import SnapshotStore.Proofs.Store.Faults

/-!
# What keyed collections hold

**Theorem (`changes_remember`).** A mutation changes the entries of a keyed collection in one of
four ways (`Changes`): a document created in it is held under its key, a document held in it is
merged with a patch, or no longer held, and anything else leaves the entries as they are.

Each is read off the plan of the mutation. What else it plans is for other collections, and the
contents of one are exchanged without those of another (`lookup_set_of_ne`).
-/

namespace SnapshotStore

/-! ## Entries -/

namespace Entries

variable {key other : String} {doc : Document} {entries : List (String × Document)}

@[simp] theorem lookup_insert_self (key : String) (doc : Document)
    (entries : List (String × Document)) : (insert key doc entries).lookup key = some doc := by
  induction entries with
  | nil => simp [insert]
  | cons entry entries ih =>
    unfold insert
    split_ifs with hkey
    · simp
    · rw [List.lookup_cons, beq_false_of_ne (Ne.symm hkey), ih]

theorem lookup_insert_of_ne (h : other ≠ key) (doc : Document)
    (entries : List (String × Document)) :
    (insert key doc entries).lookup other = entries.lookup other := by
  induction entries with
  | nil => simp [insert, List.lookup_cons, beq_false_of_ne h]
  | cons entry entries ih =>
    unfold insert
    split_ifs with hkey
    · rw [List.lookup_cons, List.lookup_cons, hkey]
      simp [beq_false_of_ne h]
    · rw [List.lookup_cons, List.lookup_cons, ih]

@[simp] theorem lookup_erase_self (key : String) (entries : List (String × Document)) :
    (erase key entries).lookup key = none := by
  refine Option.eq_none_iff_forall_not_mem.mpr fun doc hdoc => ?_
  simpa using (List.mem_filter.mp (mem_of_lookup hdoc)).2

theorem mem_insert_self (key : String) (doc : Document) (entries : List (String × Document)) :
    (key, doc) ∈ insert key doc entries :=
  mem_of_lookup (lookup_insert_self key doc entries)

theorem mem_insert_of_ne {entry : String × Document} (hentry : entry ∈ entries)
    (hne : entry.1 ≠ key) (doc : Document) : entry ∈ insert key doc entries := by
  induction entries with
  | nil => cases hentry
  | cons first entries ih =>
    unfold insert
    split_ifs with hkey
    · rcases List.mem_cons.mp hentry with rfl | hmem
      · exact absurd hkey hne
      · exact List.mem_cons_of_mem _ hmem
    · rcases List.mem_cons.mp hentry with rfl | hmem
      · exact List.mem_cons_self ..
      · exact List.mem_cons_of_mem _ (ih hmem)

/-- What is held after an insertion is what was inserted, or was held before under another key. -/
theorem mem_insert_iff (h : (entries.map (·.1)).Nodup) {entry : String × Document} :
    entry ∈ insert key doc entries ↔ entry = (key, doc) ∨ entry ∈ entries ∧ entry.1 ≠ key := by
  constructor
  · intro hentry
    by_cases hkey : entry.1 = key
    · exact .inl (List.inj_on_of_nodup_map (nodup_insert h) hentry (mem_insert_self ..) hkey)
    · refine .inr ⟨(mem_insert hentry).resolve_left ?_, hkey⟩
      rintro rfl
      exact hkey rfl
  · rintro (rfl | ⟨hmem, hne⟩)
    · exact mem_insert_self ..
    · exact mem_insert_of_ne hmem hne doc

end Entries

/-! ## Collections -/

namespace Collections

variable {data : Collections} {name other : String}

theorem lookup_set_self (h : (data.lookup name).isSome) (contents : Contents) :
    (data.set name contents).lookup name = some contents := by
  unfold Collections.set
  induction data with
  | nil => cases h
  | cons entry data ih =>
    rw [List.map_cons]
    split_ifs with hname
    · simp
    · rw [List.lookup_cons, beq_false_of_ne (Ne.symm hname)] at h ⊢
      exact ih h

theorem lookup_set_of_ne (h : other ≠ name) (contents : Contents) :
    (data.set name contents).lookup other = data.lookup other := by
  unfold Collections.set
  induction data with
  | nil => rfl
  | cons entry data ih =>
    rw [List.map_cons, List.lookup_cons, List.lookup_cons, ih]
    split_ifs with hname
    · rw [hname, beq_false_of_ne h]
    · rfl

end Collections

/-! ## Stores -/

namespace Store

variable {s : Store} {name field : String} {held : List (String × Document)}

theorem entries_of_lookup (hkind : kindOf? name = some (.keyed field))
    (h : s.data.lookup name = some (.keyed held)) : s.entries name = .ok held := by
  rw [entries, contents, kind_eq_ok.mpr hkind, h]
  rfl

/-- A keyed collection has entries, and they fit. -/
theorem exists_entries (hdata : s.data.WellFormed) (hkind : kindOf? name = some (.keyed field)) :
    ∃ held, s.entries name = .ok held ∧ (Contents.keyed held).Fits (.keyed field) := by
  obtain ⟨contents, hlookup, hfits⟩ := hdata.exists_lookup hkind
  cases contents with
  | keyed held => exact ⟨held, entries_of_lookup hkind hlookup, hfits⟩
  | appendOnly docs => exact hfits.elim

theorem fits_of_entries (hdata : s.data.WellFormed) (hkind : kindOf? name = some (.keyed field))
    (hheld : s.entries name = .ok held) : (Contents.keyed held).Fits (.keyed field) :=
  hdata.fits_of_lookup (lookup_of_entries hheld) hkind

/-- The entries of a collection whose contents are exchanged. -/
theorem entries_set_self (hkind : kindOf? name = some (.keyed field))
    (hheld : s.entries name = .ok held) (held' : List (String × Document)) :
    entries { s with data := s.data.set name (.keyed held') } name = .ok held' := by
  have hlookup := lookup_of_entries hheld
  refine entries_of_lookup hkind (Collections.lookup_set_self ?_ _)
  rw [hlookup]
  rfl

/-- The entries of another collection. -/
theorem entries_set_of_ne {other : String} (h : name ≠ other) (contents : Contents) :
    entries { s with data := s.data.set other contents } name = s.entries name := by
  simp only [entries, Store.contents, Collections.lookup_set_of_ne h]

/-- A document that can be stored as it is is prepared as it is. -/
theorem prepare_of_isJson {doc : Document} {id : Value} (hkind : kindOf? name = some (.keyed field))
    (hjson : (Value.object doc).isJson Document.storedStyle.admits = true)
    (hid : Fields.getText? doc field = some id) (hnull : id ≠ .null) :
    prepare name (.object doc) = .ok (id.display, doc) := by
  have hdoc : Document.normalize (.object doc) = .ok doc := Document.normalize_of_isJson hjson
  have hkey : Store.key id = .ok id.display := key_of_stored (Document.stored_normalize hdoc) hid
  unfold prepare
  rw [keyField_eq_ok.mpr hkind, hdoc]
  simp only [Except.mapError, bind, Except.bind, hid, Option.getD_some, hkey]

end Store

/-! ## Mutations -/

namespace Mutation

open Store

/-- What a mutation makes of the entries of a keyed collection. -/
inductive Changes (name field : String) (held : List (String × Document)) :
    Mutation → List (String × Document) → Prop
  | insert {v : Value} {key : String} {doc : Document}
    (hprepare : prepare name v = .ok (key, doc)) :
    Changes name field held (.create name v) (Entries.insert key doc held)
  | merge {id patch : Value} {key : String} {laid current merged : Document}
    (hpatch : Document.normalize patch = .ok laid) (hkey : documentKey id = .ok key)
    (hcurrent : held.lookup key = some current)
    (hmerged : Store.merge field current laid = .ok merged) :
    Changes name field held (.update name id patch) (Entries.insert key merged held)
  | erase {id : Value} {key : String} (hkey : documentKey id = .ok key) :
    Changes name field held (.delete name id) (Entries.erase key held)
  | keep {m : Mutation}
    (hcreate : ∀ v key doc, m = .create name v → prepare name v ≠ .ok (key, doc)) :
    Changes name field held m held

variable {s : Store} {name field : String} {held : List (String × Document)}

/-- Contents that are exchanged are of one collection. -/
theorem remember_of_write {m : Mutation} {other : String} {contents : Contents}
    {reply : Except Failure Reply}
    (hplan : m.plan s = .ok (.write (s.data.set other contents) reply)) :
    m.remember s = { s with data := s.data.set other contents } := by
  rw [remember, hplan]

theorem remember_of_leave {m : Mutation} {reply : Reply} (hplan : m.plan s = .ok (.leave reply)) :
    m.remember s = s := by
  rw [remember, hplan]

theorem remember_of_error {m : Mutation} {e : Failure} (hplan : m.plan s = .error e) :
    m.remember s = s := by
  rw [remember, hplan]

/-- What a mutation that writes makes of the entries. -/
theorem changes_of_write (hkind : kindOf? name = some (.keyed field))
    (hheld : s.entries name = .ok held) {m : Mutation} {data : Collections}
    {reply : Except Failure Reply} (hplan : m.plan s = .ok (.write data reply)) :
    ∃ held', (m.remember s).entries name = .ok held' ∧ Changes name field held m held' := by
  have hkeep {other : String} {contents : Contents} (hne : name ≠ other)
      (hm : ∀ v, m ≠ .create name v)
      (hplan : m.plan s = .ok (.write (s.data.set other contents) reply)) :
      ∃ held', (m.remember s).entries name = .ok held' ∧ Changes name field held m held' := by
    rw [remember_of_write hplan, entries_set_of_ne hne]
    exact ⟨held, hheld, .keep fun v _ _ h => absurd h (hm v)⟩
  cases writes_of_plan hplan with
  | @create other key v doc held' hprepare hheld' =>
    by_cases hname : name = other
    · subst hname
      cases hheld.symm.trans hheld'
      rw [remember_of_write hplan, entries_set_self hkind hheld]
      exact ⟨_, rfl, .insert hprepare⟩
    · exact hkeep hname (by rintro _ ⟨⟩; exact hname rfl) hplan
  | append hkind' =>
    refine hkeep ?_ (by rintro _ ⟨⟩) hplan
    rintro rfl
    cases hkind'.symm.trans hkind
  | @update other field' key id patch laid current merged held' hkind' hpatch hkey hheld' hcurrent
      hmerged =>
    by_cases hname : name = other
    · subst hname
      cases hheld.symm.trans hheld'
      cases hkind'.symm.trans hkind
      rw [remember_of_write hplan, entries_set_self hkind hheld]
      exact ⟨_, rfl, .merge hpatch hkey hcurrent hmerged⟩
    · exact hkeep hname (by rintro _ ⟨⟩) hplan
  | @delete other field' key id held' _ hkey hheld' =>
    by_cases hname : name = other
    · subst hname
      cases hheld.symm.trans hheld'
      rw [remember_of_write hplan, entries_set_self hkind hheld]
      exact ⟨_, rfl, .erase hkey⟩
    · exact hkeep hname (by rintro _ ⟨⟩) hplan
  | persist =>
    rw [remember, hplan]
    exact ⟨held, hheld, .keep (by rintro _ _ _ ⟨⟩)⟩

/-- **What a mutation makes of the entries** of a keyed collection. -/
theorem changes_remember (hkind : kindOf? name = some (.keyed field))
    (hheld : s.entries name = .ok held) (m : Mutation) :
    ∃ held', (m.remember s).entries name = .ok held' ∧ Changes name field held m held' := by
  have hkeep (hplan : ∀ data reply, m.plan s ≠ .ok (.write data reply)) :
      Changes name field held m held := by
    refine .keep ?_
    rintro v key doc rfl hprepare
    simp [plan, hprepare, hheld, bind, Except.bind] at hplan
  cases hplan : m.plan s with
  | error e =>
    rw [remember_of_error hplan]
    exact ⟨held, hheld, hkeep (by simp [hplan])⟩
  | ok plan =>
    cases plan with
    | leave reply =>
      rw [remember_of_leave hplan]
      exact ⟨held, hheld, hkeep (by simp [hplan])⟩
    | write data reply => exact changes_of_write hkind hheld hplan

/-- A document that is created is held under its key. -/
theorem entries_create (hkind : kindOf? name = some (.keyed field))
    (hheld : s.entries name = .ok held) {v : Value} {key : String} {doc : Document}
    (hprepare : prepare name v = .ok (key, doc)) :
    ((create name v).remember s).entries name = .ok (Entries.insert key doc held) := by
  obtain ⟨held', hheld', hchanges⟩ := changes_remember hkind hheld (.create name v)
  cases hchanges with
  | insert hprepare' =>
    cases hprepare.symm.trans hprepare'
    exact hheld'
  | keep hcreate => exact absurd hprepare (hcreate v key doc rfl)

end Mutation

end SnapshotStore
