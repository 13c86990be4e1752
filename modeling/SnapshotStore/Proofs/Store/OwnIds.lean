import SnapshotStore.Proofs.Document.Given
import SnapshotStore.Proofs.Store.UniqueIds
import SnapshotStore.Proofs.Store.WriteBack
import SnapshotStore.Proofs.Value.Display

/-!
# Ids as they are given

A document is held under the display of the id that is stored, and looked for under the display of
the id that is asked for. The id that is stored is the clean form of the one that was given, and it
may be displayed otherwise: a tuple is stored as a list, a time as a text with a letter in it.

**Theorem (`created_by_given_id`).** A document that was created is found, updated and deleted by
the id it was given, if that id is displayed as it is stored (`IsSteady`). By any other id it is out
of reach: what is found by it is what was found before, and neither an update nor a deletion touches
the document.
-/

namespace SnapshotStore

/-- An id that is displayed as it is stored: a JSON value, or a date. -/
def Value.IsSteady (id : Value) : Prop :=
  id.isJson Document.storedStyle.admits = true ∨ ∃ d, id = .date d

/-! ## Entries -/

namespace Entries

theorem lookup_erase_of_ne {key other : String} (h : other ≠ key)
    (entries : List (String × Document)) :
    (erase key entries).lookup other = entries.lookup other := by
  induction entries with
  | nil => rfl
  | cons entry entries ih =>
    unfold erase at ih ⊢
    by_cases hkey : entry.1 = key
    · rw [List.filter_cons_of_neg (by simp [hkey]), ih, List.lookup_cons, hkey, beq_false_of_ne h]
    · rw [List.filter_cons_of_pos (by simp [hkey]), List.lookup_cons, List.lookup_cons, ih]

end Entries

/-! ## Operations by an id -/

namespace Store

variable {s : Store} {name field key : String} {held : List (String × Document)} {id : Value}
  {doc : Document}

theorem find_eq (hkind : kindOf? name = some (.keyed field)) (hheld : s.entries name = .ok held)
    (id : Value) :
    s.find name id = Store.key id >>= fun key => match held.lookup key with
      | some doc => (copy doc).map some
      | none => .ok none := by
  unfold find
  rw [keyField_eq_ok.mpr hkind, hheld]
  simp only [bind, Except.bind]
  cases Store.key id with
  | error e => rfl
  | ok key =>
    dsimp only
    cases held.lookup key with
    | none => rfl
    | some doc => cases copy doc <;> rfl

/-- A document that can be stored as it is is handed out as it is. -/
theorem copy_of_isJson (h : (Value.object doc).isJson Document.storedStyle.admits = true) :
    copy doc = .ok doc :=
  copy_normalize (Document.normalize_of_isJson h)

theorem find_of_lookup (hkind : kindOf? name = some (.keyed field))
    (hheld : s.entries name = .ok held)
    (hjson : (Value.object doc).isJson Document.storedStyle.admits = true)
    (hkey : documentKey id = .ok key) (hdoc : held.lookup key = some doc) :
    s.find name id = .ok (some doc) := by
  rw [find_eq hkind hheld, key_eq_ok.mpr hkey, ok_bind, hdoc]
  simp only [copy_of_isJson hjson, Except.map]

section Writing

variable (disk : Disk) (fault : Option ReplaceStep)

/-- A reply that only waits for the data to be written. -/
theorem commit_reply? {α : Type} (s : Store) (name : String) (contents : Contents) (reply : α) :
    let step := (s.commit disk fault name contents).reply? fun _ => .ok reply
    step.store = { s with data := s.data.set name contents } ∧
      step.reply = (step.store.persist disk fault).reply.map fun _ => reply := by
  intro step
  have hstore : step.store = { s with data := s.data.set name contents } := persist_store ..
  refine ⟨hstore, ?_⟩
  rw [hstore]
  change Except.bind (persist _ disk fault).reply _ = _
  cases (persist { s with data := s.data.set name contents } disk fault).reply <;> rfl

/-- A document held under the key of an id is merged with a patch. -/
theorem update_of_lookup (hkind : kindOf? name = some (.keyed field))
    (hheld : s.entries name = .ok held)
    (hjson : (Value.object doc).isJson Document.storedStyle.admits = true)
    (hid : ∃ own, Fields.getText? doc field = some own) (hkey : documentKey id = .ok key)
    (hdoc : held.lookup key = some doc) {patch : Value} {laid : Document}
    (hlaid : Document.normalize patch = .ok laid) :
    ∃ merged, merge field doc laid = .ok merged ∧
      let step := s.update disk name id patch fault
      step.store.find name id = .ok (some merged) ∧
        step.reply = (step.store.persist disk fault).reply.map fun _ => some merged := by
  obtain ⟨own, hown⟩ := hid
  obtain ⟨merged, hmerged⟩ : ∃ merged, merge field doc laid = .ok merged := by
    rw [merge, hown]
    exact ⟨_, rfl⟩
  have hmergedJson := isJson_merge hjson (Document.isJson_normalize hlaid) hmerged
  have hupdate : s.update disk name id patch fault =
      (s.commit disk fault name (.keyed (Entries.insert key merged held))).reply?
        fun _ => .ok (some merged) := by
    simp only [update, keyField_eq_ok.mpr hkind, mapError_eq_ok.mpr hlaid, key_eq_ok.mpr hkey,
      hheld, hdoc, hmerged, bind, Except.bind, copy_of_isJson hmergedJson, Except.map]
  obtain ⟨hstore, hreply⟩ := commit_reply? disk fault s name
    (.keyed (Entries.insert key merged held)) (some merged)
  rw [hupdate]
  refine ⟨merged, hmerged, ?_, hreply⟩
  rw [hstore]
  exact find_of_lookup hkind (entries_set_self hkind hheld _) hmergedJson hkey
    (Entries.lookup_insert_self ..)

/-- A document held under the key of an id is deleted. -/
theorem delete_of_lookup (hkind : kindOf? name = some (.keyed field))
    (hheld : s.entries name = .ok held) (hkey : documentKey id = .ok key)
    (hdoc : held.lookup key = some doc) :
    let step := s.delete disk name id fault
    step.store.find name id = .ok none ∧
      step.reply = (step.store.persist disk fault).reply.map fun _ => true := by
  have hdelete : s.delete disk name id fault = (s.commit disk fault name
      (.keyed (Entries.erase key held))).reply? fun _ => .ok true := by
    simp only [delete, keyField_eq_ok.mpr hkind, key_eq_ok.mpr hkey, hheld, bind, Except.bind, hdoc,
      Option.isSome_some, if_true]
  obtain ⟨hstore, hreply⟩ := commit_reply? disk fault s name
    (.keyed (Entries.erase key held)) true
  rw [hdelete]
  refine ⟨?_, hreply⟩
  rw [hstore, find_eq hkind (entries_set_self hkind hheld _), key_eq_ok.mpr hkey, ok_bind,
    Entries.lookup_erase_self]

end Writing

end Store

/-! ## Documents that are out of reach -/

/-- A change by an id leaves what is held under other keys. -/
theorem Mutation.lookup_of_changes {name field key : String} {held held' : List (String × Document)}
    {m : Mutation} (hchanges : m.Changes name field held held')
    (hcreate : ∀ v, m ≠ .create name v)
    (hupdate : ∀ id patch, m = .update name id patch → key ≠ id.display)
    (hdelete : ∀ id, m = .delete name id → key ≠ id.display) :
    held'.lookup key = held.lookup key := by
  cases hchanges with
  | insert _ => exact absurd rfl (hcreate _)
  | merge _ hkey _ _ =>
    obtain ⟨-, rfl⟩ := documentKey_eq_ok.mp hkey
    exact Entries.lookup_insert_of_ne (hupdate _ _ rfl) _ _
  | erase hkey =>
    obtain ⟨-, rfl⟩ := documentKey_eq_ok.mp hkey
    exact Entries.lookup_erase_of_ne (hdelete _ rfl) _
  | keep _ => rfl

namespace Store

variable {s : Store} {name field key : String} {held : List (String × Document)} {id : Value}
  {doc : Document}

/-- A document that can be created is given an id, and that is displayed as the key of the document
exactly if it is displayed as it is stored. -/
theorem exists_given_of_prepare (hkind : kindOf? name = some (.keyed field)) {fields : Fields}
    (hprepare : prepare name (.object fields) = .ok (key, doc)) :
    ∃ id, Document.given? fields field = some id ∧ id.isSpelled = true ∧
      (id.display = key ↔ id.IsSteady) := by
  obtain ⟨field', hkind', hdoc, hfiled⟩ := prepare_eq_ok hprepare
  cases hkind.symm.trans hkind'
  obtain ⟨own, hown, -, hkey⟩ := hfiled.key
  cases hgiven : Document.given? fields field with
  | none =>
    rw [Document.getText?_normalize_eq_none hdoc hgiven] at hown
    cases hown
  | some id =>
    obtain ⟨w, hclean, hw⟩ := Document.exists_getText?_normalize hdoc hgiven
    cases hown.symm.trans hw
    refine ⟨id, rfl, Value.isSpelled_of_clean id hclean, ?_⟩
    rw [show key = own.display from hkey]
    exact Value.display_clean_iff hclean

/-- A document is found by its own id after a change by an id that is displayed otherwise. -/
theorem find_idIn_of_changes (hkind : kindOf? name = some (.keyed field))
    (hheld : s.entries name = .ok held) (hfiled : Filed field (key, doc))
    (hjson : (Value.object doc).isJson Document.storedStyle.admits = true)
    (hdoc : held.lookup key = some doc) (hne : key ≠ id.display) (disk : Disk)
    (fault : Option ReplaceStep) {m : Mutation} (hcreate : ∀ v, m ≠ .create name v)
    (hupdate : ∀ id' patch, m = .update name id' patch → id' = id)
    (hdelete : ∀ id', m = .delete name id' → id' = id) :
    (m.apply s disk fault).store.find name (doc.idIn field) = .ok (some doc) := by
  obtain ⟨held', hheld', hchanges⟩ := Mutation.changes_remember hkind hheld m
  rw [Mutation.apply_store]
  refine find_of_lookup hkind hheld' hjson hfiled.documentKey_idIn ?_
  rw [Mutation.lookup_of_changes hchanges hcreate
    (fun id' patch hm => hupdate id' patch hm ▸ hne) (fun id' hm => hdelete id' hm ▸ hne), hdoc]

section Opened

variable (settings : Settings) (disk : Disk) (path : Option FilePath) (strict : Option Bool)
  (stamp : String) (faults : OpenFaults) (actions : List (Mutation × Option ReplaceStep))

/-- **A created document is reached by the id it was given** if that id is displayed as it is
stored, and otherwise it is not. -/
theorem created_by_given_id (disk' : Disk) {s : Store}
    (hopen : (openWith settings disk path strict stamp faults).store = .ok s) {name field : String}
    (hkind : kindOf? name = some (.keyed field)) {fields : Fields} {key : String} {doc : Document}
    (hprepare : prepare name (.object fields) = .ok (key, doc)) :
    let run := (Mutation.applyAll s disk' actions).1
    ∃ id, Document.given? fields field = some id ∧ ∀ disk fault,
      let created := (run.create disk name (.object fields) fault).store
      (id.IsSteady →
        created.find name id = .ok (some doc) ∧
        (∀ patch laid disk fault, Document.normalize patch = .ok laid →
          ∃ merged, merge field doc laid = .ok merged ∧
            let step := created.update disk name id patch fault
            step.store.find name id = .ok (some merged) ∧
              step.reply = (step.store.persist disk fault).reply.map fun _ => some merged) ∧
        ∀ disk fault,
          let step := created.delete disk name id fault
          step.store.find name id = .ok none ∧
            step.reply = (step.store.persist disk fault).reply.map fun _ => true) ∧
      (¬ id.IsSteady →
        created.find name id = run.find name id ∧
        ∀ disk fault,
          (∀ patch, (created.update disk name id patch fault).store.find name (doc.idIn field) =
            .ok (some doc)) ∧
          (created.delete disk name id fault).store.find name (doc.idIn field) =
            .ok (some doc)) := by
  intro run
  have hdata : run.data.WellFormed := Mutation.wellFormed_applyAll disk' actions
    (wellFormed_openAt hopen)
  obtain ⟨held, hheld, -⟩ := exists_entries hdata hkind
  obtain ⟨field', hkind', hdoc, hfiled⟩ := prepare_eq_ok hprepare
  cases hkind.symm.trans hkind'
  have hjson := Document.isJson_normalize hdoc
  obtain ⟨own, hown, -, -⟩ := hfiled.key
  obtain ⟨id, hgiven, hspelled, hsteady⟩ := exists_given_of_prepare hkind hprepare
  refine ⟨id, hgiven, fun disk fault => ?_⟩
  intro created
  have hcreated : created.entries name = .ok (Entries.insert key doc held) := by
    have hentries := Mutation.entries_create hkind hheld hprepare
    rw [← Mutation.apply_store _ _ disk fault] at hentries
    exact hentries
  constructor
  · intro h
    have hkey : documentKey id = .ok key := documentKey_eq_ok.mpr ⟨hspelled, hsteady.mpr h⟩
    have hlookup := Entries.lookup_insert_self key doc held
    refine ⟨find_of_lookup hkind hcreated hjson hkey hlookup, ?_, ?_⟩
    · exact fun patch laid disk fault hlaid =>
        update_of_lookup disk fault hkind hcreated hjson ⟨own, hown⟩ hkey hlookup hlaid
    · exact fun disk fault => delete_of_lookup disk fault hkind hcreated hkey hlookup
  · intro h
    have hne : key ≠ id.display := fun heq => h (hsteady.mp heq.symm)
    have hlookup := Entries.lookup_insert_self key doc held
    refine ⟨?_, fun disk fault => ⟨fun patch => ?_, ?_⟩⟩
    · have hkey : Store.key id = .ok id.display :=
        key_eq_ok.mpr (documentKey_eq_ok.mpr ⟨hspelled, rfl⟩)
      rw [find_eq hkind hcreated, find_eq hkind hheld, hkey, ok_bind, ok_bind,
        Entries.lookup_insert_of_ne hne.symm]
    · exact find_idIn_of_changes hkind hcreated hfiled hjson hlookup hne disk fault
        (m := .update name id patch) (by rintro _ ⟨⟩) (by rintro _ _ ⟨⟩; rfl) (by rintro _ ⟨⟩)
    · exact find_idIn_of_changes hkind hcreated hfiled hjson hlookup hne disk fault
        (m := .delete name id) (by rintro _ ⟨⟩) (by rintro _ _ ⟨⟩) (by rintro _ ⟨⟩; rfl)

end Opened

theorem prepare_numbered_of_clean {id w : Value} (hclean : id.clean Document.storedStyle = .ok w)
    (hnull : w ≠ .null) :
    prepare "users" (.object (numbered id)) = .ok (w.display, numbered w) := by
  have hdoc : Document.normalize (.object (numbered id)) = .ok (numbered w) := by
    simp only [Document.normalize, Document.cleanFields, numbered, Value.cleanFields, Json.keyText,
      hclean, bind, Except.bind, String.ofList_toList]
    rfl
  have hw : (Fields.getText? (numbered w) "id").getD .null = w := by
    rw [numbered, Fields.getText?_cons_self, Option.getD_some]
  have hfield : keyField "create" "users" = .ok "id" := keyField_eq_ok.mpr rfl
  have hkey : Store.key w = .ok w.display :=
    key_of_stored (Document.stored_normalize hdoc) (Fields.getText?_cons_self ..)
  unfold prepare
  rw [hfield, hdoc]
  simp only [Except.mapError, bind, Except.bind, hw, hkey]

/-- New Year's Day. -/
def newYear : Date := ⟨2024, 1, 1, by decide, by decide⟩

theorem created_by_given_id_date :
    ∃ doc, prepare "users" (.object (numbered (.date newYear))) = .ok doc ∧
      let created := (create ⟨barePath, false, some 2, .empty⟩ .empty "users"
        (.object (numbered (.date newYear))) none).store
      created.find "users" (.date newYear) = .ok (some doc.2) := by
  have hprepare := prepare_numbered_of_clean (Value.clean_date newYear) (by simp)
  obtain ⟨id, hid, hreached⟩ := created_by_given_id {} bareDisk (some barePath) none "" {} []
    .empty openWith_bareDisk kindOf?_users hprepare
  refine ⟨_, hprepare, ?_⟩
  obtain rfl : .date newYear = id := Option.some.inj hid
  exact ((hreached .empty none).1 (.inr ⟨newYear, rfl⟩)).1

/-- Its first moment. -/
def newYearMidnight : DateTime := ⟨newYear, .midnight, none⟩

/-- A document that is created with a time for its id is neither found nor deleted by it. -/
theorem not_created_by_given_id_time :
    let id := Value.datetime newYearMidnight
    ∃ key doc, prepare "users" (.object (numbered id)) = .ok (key, doc) ∧
      ∃ s, (openWith {} bareDisk (some barePath) none "" {}).store = .ok s ∧
        let created := (create s .empty "users" (.object (numbered id)) none).store
        created.find "users" (.str key) = .ok (some doc) ∧ created.find "users" id = .ok none ∧
          (created.delete .empty "users" id none).reply = .ok false := by
  intro id
  have hclean := Value.clean_datetime newYearMidnight
  generalize String.ofList newYearMidnight.text = text at hclean
  have hprepare := prepare_numbered_of_clean hclean (by simp)
  refine ⟨_, _, hprepare, _, openWith_bareDisk, ?_⟩
  intro created
  have hcreated : created.entries "users" =
      .ok [((Value.str text).display, numbered (.str text))] := by
    have hentries := Mutation.entries_create kindOf?_users entries_bareStore hprepare
    rw [← Mutation.apply_store _ _ .empty none] at hentries
    exact hentries
  have hjson := Document.isJson_normalize (prepare_eq_ok hprepare).choose_spec.2.1
  have hkey : documentKey (.str (Value.str text).display) = .ok (Value.str text).display :=
    documentKey_eq_ok.mpr
      ⟨rfl, by simp only [Value.display, Value.displayText, String.ofList_toList]⟩
  have hother : id.display ≠ (Value.str text).display := fun h => by
    rcases (Value.display_clean_iff hclean).mp h with h | ⟨d, h⟩ <;> cases h
  have hnone :
      [((Value.str text).display, numbered (.str text))].lookup id.display = none := by
    rw [List.lookup_cons, beq_false_of_ne hother]
    rfl
  have hid : Store.key id = .ok id.display := key_eq_ok.mpr (documentKey_eq_ok.mpr ⟨rfl, rfl⟩)
  refine ⟨find_of_lookup kindOf?_users hcreated hjson hkey List.lookup_cons_self, ?_, ?_⟩
  · rw [find_eq kindOf?_users hcreated, hid, ok_bind, hnone]
  · simp only [delete, keyField_eq_ok.mpr kindOf?_users, hid, hcreated, bind, Except.bind, hnone]
    rfl

end Store

end SnapshotStore
