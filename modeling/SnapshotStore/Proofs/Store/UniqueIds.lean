import SnapshotStore.Proofs.Query.Refusal
import SnapshotStore.Proofs.Store.Entries
import SnapshotStore.Proofs.Value.Agrees

/-!
# Ids as values and as keys

A keyed collection holds no two documents under one key, which is the text of an id. A query does
not ask for texts but for values, and equal values may have different texts: `1` and `1.0` have. So
ids need not be unique as values (`not_uniqueIds_twins`).

**Theorem (`uniqueIds_of_opened_run`).** All along a run of an opened store, ids are unique as
values (`UniqueIds`) exactly when equal ids have the same text, as they have when all are in normal
form. While they are unique, a query for an id finds at most one document, and only one kind of
mutation changes that: to create a document whose id is equal to one held under another key
(`MakesTwin`).

The step is `uniqueIds_of_changes`: a document that is merged with a patch keeps its id, and what is
no longer held takes its id with it.
-/

namespace SnapshotStore

/-- The id of a document, null if it has none. -/
def Document.idIn (field : String) (doc : Document) : Value :=
  (Fields.getText? doc field).getD .null

/-- Entries with equal ids are the same. -/
def UniqueIds (field : String) (held : List (String × Document)) : Prop :=
  ∀ a ∈ held, ∀ b ∈ held, (a.2.idIn field).agrees (b.2.idIn field) = true → a = b

/-- The mutation creates a document whose id is equal to one that is held under another key. -/
def Mutation.MakesTwin (name field : String) (held : List (String × Document)) : Mutation → Prop
  | .create other v => other = name ∧ ∃ key doc, Store.prepare name v = .ok (key, doc) ∧
      ∃ entry ∈ held, entry.1 ≠ key ∧ (entry.2.idIn field).agrees (doc.idIn field) = true
  | _ => False

variable {name field : String} {held held' : List (String × Document)}

/-! ## Ids and their keys -/

theorem Document.Stored.isJson_idIn {doc : Document} (h : doc.Stored) :
    (doc.idIn field).isJson Number.isShort = true := by
  unfold Document.idIn
  cases hid : Fields.getText? doc field with
  | none => rfl
  | some id => exact Snapshot.stored_of_fields h (Fields.mem_of_getText? hid)

namespace Filed

variable {entry : String × Document}

theorem idIn_eq {id : Value} (h : Fields.getText? entry.2 field = some id) :
    entry.2.idIn field = id := by
  rw [Document.idIn, h, Option.getD_some]

theorem isJson_idIn (h : Filed field entry) :
    (entry.2.idIn field).isJson Number.isShort = true :=
  h.stored.isJson_idIn

theorem key_eq (h : Filed field entry) : entry.1 = (entry.2.idIn field).display := by
  obtain ⟨id, hid, -, hkey⟩ := h.key
  rw [idIn_eq hid, hkey]

theorem documentKey_idIn (h : Filed field entry) :
    documentKey (entry.2.idIn field) = .ok entry.1 := by
  rw [h.key_eq]
  exact documentKey_of_isJson h.isJson_idIn

end Filed

section Fits

variable (hfits : (Contents.keyed held).Fits (.keyed field))
include hfits

/-- Ids are unique exactly when equal ids have the same text. -/
theorem uniqueIds_iff :
    UniqueIds field held ↔ ∀ a ∈ held, ∀ b ∈ held,
      (a.2.idIn field).agrees (b.2.idIn field) = true →
        (a.2.idIn field).display = (b.2.idIn field).display := by
  refine forall₂_congr fun a ha => forall₂_congr fun b hb => forall_congr' fun _ => ?_
  rw [← (hfits.2 a ha).key_eq, ← (hfits.2 b hb).key_eq]
  exact ⟨congrArg Prod.fst, List.inj_on_of_nodup_map hfits.1 ha hb⟩

/-- Ids in normal form are unique. -/
theorem uniqueIds_of_normal
    (hnormal : ∀ entry ∈ held, Group.normal (entry.2.idIn field) = entry.2.idIn field) :
    UniqueIds field held := by
  refine (uniqueIds_iff hfits).mpr fun a ha b hb hagrees => ?_
  obtain ⟨-, -, heq⟩ :=
    (Value.agrees_iff_defined (hfits.2 a ha).isJson_idIn (hfits.2 b hb).isJson_idIn).mp hagrees
  rw [← hnormal a ha, ← hnormal b hb, heq]

/-! ## Mutations -/

/-- A new document leaves ids unique exactly when it is no twin. -/
theorem uniqueIds_insert_iff (hunique : UniqueIds field held) {key : String} {doc : Document}
    (hdoc : Filed field (key, doc)) :
    UniqueIds field (Entries.insert key doc held) ↔
      ¬∃ entry ∈ held, entry.1 ≠ key ∧ (entry.2.idIn field).agrees (doc.idIn field) = true := by
  constructor
  · rintro h ⟨entry, hentry, hne, hagrees⟩
    have hsame := h entry (Entries.mem_insert_of_ne hentry hne doc) (key, doc)
      (Entries.mem_insert_self ..) hagrees
    exact hne (congrArg Prod.fst hsame)
  · intro h a ha b hb hagrees
    rw [Entries.mem_insert_iff hfits.1] at ha hb
    rcases ha with rfl | ⟨ha, hne⟩
    · rcases hb with rfl | ⟨hb, hne'⟩
      · rfl
      · exact absurd ⟨b, hb, hne', Value.agrees_symm hdoc.isJson_idIn (hfits.2 b hb).isJson_idIn
          hagrees⟩ h
    · rcases hb with rfl | ⟨hb, hne'⟩
      · exact absurd ⟨a, ha, hne, hagrees⟩ h
      · exact hunique a ha b hb hagrees

/-- A document merged with a patch keeps its id. -/
theorem uniqueIds_merge (hunique : UniqueIds field held) {key : String}
    {current laid merged : Document} (hcurrent : held.lookup key = some current)
    (hmerged : Store.merge field current laid = .ok merged) :
    UniqueIds field (Entries.insert key merged held) := by
  have hid : merged.idIn field = current.idIn field := by
    unfold Store.merge at hmerged
    split at hmerged
    · next id hid =>
      obtain rfl := Except.ok.inj hmerged
      rw [Document.idIn, Fields.getText?_insert_self, Document.idIn, hid]
    · cases hmerged
  -- each entry has one of before with its key and its id
  have hbefore (entry) (hentry : entry ∈ Entries.insert key merged held) :
      ∃ old ∈ held, old.1 = entry.1 ∧ old.2.idIn field = entry.2.idIn field := by
    rcases Entries.mem_insert hentry with rfl | hmem
    · exact ⟨(key, current), Entries.mem_of_lookup hcurrent, rfl, hid.symm⟩
    · exact ⟨entry, hmem, rfl, rfl⟩
  intro a ha b hb hagrees
  obtain ⟨old, hold, hkey, hid⟩ := hbefore a ha
  obtain ⟨old', hold', hkey', hid'⟩ := hbefore b hb
  rw [← hid, ← hid'] at hagrees
  have hsame := congrArg Prod.fst (hunique old hold old' hold' hagrees)
  rw [hkey, hkey'] at hsame
  exact List.inj_on_of_nodup_map (Entries.nodup_insert hfits.1) ha hb hsame

/-- **Only a twin makes ids that are not unique.** -/
theorem uniqueIds_of_changes (hunique : UniqueIds field held)
    (hkind : kindOf? name = some (.keyed field)) {m : Mutation}
    (hchanges : m.Changes name field held held') :
    UniqueIds field held' ↔ ¬ m.MakesTwin name field held := by
  cases hchanges with
  | @insert v key doc hprepare =>
    obtain ⟨field', hkind', -, hfiled⟩ := Store.prepare_eq_ok hprepare
    cases hkind.symm.trans hkind'
    rw [uniqueIds_insert_iff hfits hunique hfiled]
    refine not_congr ⟨fun h => ⟨rfl, key, doc, hprepare, h⟩, ?_⟩
    rintro ⟨-, key', doc', hprepare', h⟩
    cases hprepare.symm.trans hprepare'
    exact h
  | merge _ _ hcurrent hmerged =>
    exact iff_of_true (uniqueIds_merge hfits hunique hcurrent hmerged) fun h => h
  | erase =>
    refine iff_of_true (fun a ha b hb => ?_) fun h => h
    exact hunique a (List.mem_filter.mp ha).1 b (List.mem_filter.mp hb).1
  | keep hcreate =>
    refine iff_of_true hunique ?_
    cases m with
    | create other v =>
      rintro ⟨rfl, key, doc, hprepare, -⟩
      exact hcreate v key doc rfl hprepare
    | _ => exact fun h => h

end Fits

/-! ## Queries -/

/-- A value that a query asks for as it is: no object of operators. -/
def Value.IsOperand (v : Value) : Prop :=
  ∀ fields, v = .object fields → Query.operators? fields = none

namespace Query

variable {key v : Value}

theorem ofValue_of_isOperand (h : v.IsOperand) : Condition.ofValue v = .value v := by
  cases v with
  | object fields => rw [Condition.ofValue, h fields rfl]
  | _ => rfl

/-- A query for a value of one field selects the documents whose field agrees with it. -/
theorem select_value (hkey : operatorKey? key = none) (hv : v.IsOperand) (strict : Bool)
    (docs : List Document) :
    select strict (.object [(key, v)]) docs =
      .ok (docs.filter fun doc => (Fields.get? doc key).any (·.agrees v)) := by
  have hsatisfied (doc : Document) : satisfied strict (.object [(key, v)]) doc =
      .ok ((Fields.get? doc key).any (·.agrees v)) := by
    simp only [satisfied, fieldsHold, hkey, ofValue_of_isOperand hv, Condition.holds]
    cases Fields.get? doc key with
    | none => rfl
    | some w => cases hagrees : w.agrees v <;> simp [hagrees, bind, Except.bind]
  induction docs with
  | nil => rfl
  | cons doc docs ih =>
    rw [select, hsatisfied, ih]
    cases hany : (Fields.get? doc key).any (·.agrees v) <;> simp [hany, bind, Except.bind]

end Query

theorem operatorKey?_of_keyed (hkind : kindOf? name = some (.keyed field)) :
    Query.operatorKey? (.str field) = none := by
  have hall : ∀ collection ∈ schema, ∀ field, collection.2 = .keyed field →
      Query.operatorKey? (.str field) = none := by
    simp [schema, Query.operatorKey?, Value.isDollar]
  exact hall _ (mem_schema_of_kindOf? hkind) field rfl

/-- A query for an id finds the documents whose id agrees with it. -/
theorem exists_query_of_operand {s : Store} (hkind : kindOf? name = some (.keyed field))
    (hheld : s.entries name = .ok held) (hfits : (Contents.keyed held).Fits (.keyed field))
    {v : Value} (hoperand : v.IsOperand) :
    ∃ docs, s.query name (.object [(.str field, v)]) = .ok docs ∧
      docs.length = (held.filter fun entry => (entry.2.idIn field).agrees v).length := by
  have hdocs : s.documents name = .ok (held.map Prod.snd) := by
    rw [Store.documents, Store.contents, Store.kind_eq_ok.mpr hkind, Store.lookup_of_entries hheld]
    rfl
  have hselect := Query.select_value (operatorKey?_of_keyed hkind) hoperand s.strict
    (held.map Prod.snd)
  have hfound :
      held.filter ((fun doc => (Fields.get? doc (.str field)).any (·.agrees v)) ∘ Prod.snd) =
        held.filter fun entry => (entry.2.idIn field).agrees v := by
    refine List.filter_congr fun entry hentry => ?_
    obtain ⟨id, hid, -, -⟩ := (hfits.2 entry hentry).key
    rw [Filed.idIn_eq hid]
    exact congrArg (Option.any (·.agrees v)) hid
  rw [List.filter_map, hfound] at hselect
  obtain ⟨copies, hcopies, hlength⟩ := Document.exists_copyAll (List.forall_mem_map.mpr
    fun entry hentry => (hfits.2 entry (List.mem_filter.mp hentry).1).stored)
  refine ⟨copies, ?_, hlength.trans (List.length_map _)⟩
  rw [Store.query, hdocs]
  refine bind_eq_ok.mpr ⟨_, rfl, bind_eq_ok.mpr ⟨_, mapError_eq_ok.mpr hselect, ?_⟩⟩
  exact mapError_eq_ok.mpr hcopies

theorem length_le_one_of_nodup {α : Type} {xs : List α} (hnodup : xs.Nodup)
    (hsame : ∀ a ∈ xs, ∀ b ∈ xs, a = b) : xs.length ≤ 1 := by
  match xs with
  | [] => exact Nat.zero_le 1
  | [_] => exact Nat.le_refl 1
  | a :: b :: rest =>
    have heq := hsame a (by simp) b (by simp)
    simp [heq] at hnodup

/-- **While ids are unique, at most one document is found for an id.** -/
theorem exists_query_of_uniqueIds {s : Store} (hkind : kindOf? name = some (.keyed field))
    (hheld : s.entries name = .ok held) (hfits : (Contents.keyed held).Fits (.keyed field))
    (hunique : UniqueIds field held) {v : Value} (hv : v.isJson (fun _ => true) = true)
    (hoperand : v.IsOperand) :
    ∃ docs, s.query name (.object [(.str field, v)]) = .ok docs ∧ docs.length ≤ 1 := by
  obtain ⟨docs, hquery, hlength⟩ := exists_query_of_operand hkind hheld hfits hoperand
  refine ⟨docs, hquery, hlength.trans_le ?_⟩
  have hsame : ∀ a ∈ held.filter fun entry => (entry.2.idIn field).agrees v,
      ∀ b ∈ held.filter fun entry => (entry.2.idIn field).agrees v, a = b := by
    intro a ha b hb
    obtain ⟨ha, hagrees⟩ := List.mem_filter.mp ha
    obtain ⟨hb, hagrees'⟩ := List.mem_filter.mp hb
    have hjson {entry} (hentry : entry ∈ held) :=
      Value.isJson_mono (q := fun _ => true) (fun _ _ => rfl) (hfits.2 entry hentry).isJson_idIn
    exact hunique a ha b hb (Value.agrees_of_common (hjson ha) (hjson hb) hv hagrees hagrees')
  have hnodup : (held.filter fun entry => (entry.2.idIn field).agrees v).Nodup :=
    (List.Nodup.of_map _ hfits.1).filter _
  exact length_le_one_of_nodup hnodup hsame

/-! ## Runs -/

namespace Store

section Opened

variable (settings : Settings) (disk : Disk) (path : Option FilePath) (strict : Option Bool)
  (stamp : String) (faults : OpenFaults) (actions : List (Mutation × Option ReplaceStep))

/-- **When ids are unique as values,** all along a run of an opened store. -/
theorem uniqueIds_of_opened_run (disk' : Disk) {s : Store}
    (hopen : (openWith settings disk path strict stamp faults).store = .ok s) {name field : String}
    (hkind : kindOf? name = some (.keyed field)) :
    let run := (Mutation.applyAll s disk' actions).1
    ∃ held, run.entries name = .ok held ∧
      (UniqueIds field held ↔ ∀ a ∈ held, ∀ b ∈ held,
        (a.2.idIn field).agrees (b.2.idIn field) = true →
          (a.2.idIn field).display = (b.2.idIn field).display) ∧
      ((∀ entry ∈ held, Group.normal (entry.2.idIn field) = entry.2.idIn field) →
        UniqueIds field held) ∧
      (UniqueIds field held →
        (∀ v : Value, v.isJson (fun _ => true) = true → v.IsOperand →
          ∃ docs, run.query name (.object [(.str field, v)]) = .ok docs ∧ docs.length ≤ 1) ∧
        ∀ m disk fault, ∃ held',
          (Mutation.apply run disk fault m).store.entries name = .ok held' ∧
            (UniqueIds field held' ↔ ¬ m.MakesTwin name field held)) := by
  intro run
  have hdata : run.data.WellFormed := Mutation.wellFormed_applyAll disk' actions
    (wellFormed_openAt hopen)
  obtain ⟨held, hheld, hfits⟩ := exists_entries hdata hkind
  refine ⟨held, hheld, uniqueIds_iff hfits, uniqueIds_of_normal hfits, fun hunique => ⟨?_, ?_⟩⟩
  · exact fun v hv hoperand => exists_query_of_uniqueIds hkind hheld hfits hunique hv hoperand
  · intro m disk fault
    obtain ⟨held', hheld', hchanges⟩ := Mutation.changes_remember hkind hheld m
    rw [Mutation.apply_store]
    exact ⟨held', hheld', uniqueIds_of_changes hfits hunique hkind hchanges⟩

end Opened

/-- A document with an id and nothing else. -/
def numbered (id : Value) : Document := [(.str "id", id)]

/-- One, as a floating-point number. -/
def floatOne : Binary64 := .finite ⟨false, Nat.pow 2 52, 1022, by decide⟩

theorem idIn_numbered (id : Value) : (numbered id).idIn "id" = id := by
  rw [Document.idIn, numbered, Fields.getText?_cons_self, Option.getD_some]

theorem prepare_numbered (id : Value) (hid : id.isJson Document.storedStyle.admits = true)
    (hnull : id ≠ .null) :
    prepare "users" (.object (numbered id)) = .ok (id.display, numbered id) := by
  have hjson : (Value.object (Fields.ofEntries [("id", id)])).isJson
      Document.storedStyle.admits = true :=
    Value.isJson_ofEntries.mpr ⟨List.nodup_singleton _, List.forall_mem_singleton.mpr hid⟩
  exact prepare_of_isJson rfl hjson (Fields.getText?_cons_self ..) hnull

/-- Two users with different ids. -/
theorem uniqueIds_of_opened_run_bareDisk :
    let create (id : String) := Mutation.create "users" (.object (numbered (.str id)))
    ∃ s, (openWith {} bareDisk (some barePath) none "" {}).store = .ok s ∧
      let run := (Mutation.applyAll s .empty [(create "u1", none), (create "u2", some .rename)]).1
      ∃ held, run.entries "users" = .ok held ∧ held.length = 2 ∧ UniqueIds "id" held ∧
        ∃ docs, run.query "users" (.object [(.str "id", .str "u2")]) = .ok docs ∧
          docs.length ≤ 1 := by
  intro create
  refine ⟨_, openWith_bareDisk, ?_⟩
  intro run
  obtain ⟨held, hheld, -, hnormal, hqueries⟩ := uniqueIds_of_opened_run {} bareDisk
    (some barePath) none "" {} [(create "u1", none), (create "u2", some .rename)] .empty
    openWith_bareDisk kindOf?_users
  have hfirst := Mutation.entries_create kindOf?_users entries_bareStore
    (prepare_numbered (.str "u1") rfl (by simp))
  have hsecond := Mutation.entries_create kindOf?_users hfirst
    (prepare_numbered (.str "u2") rfl (by simp))
  have hboth : run.entries "users" = _ :=
    (congrArg (Store.entries · "users") (Mutation.applyAll_store ..)).trans hsecond
  cases hheld.symm.trans hboth
  have hunique := hnormal fun entry hentry => by
    rcases List.mem_pair.mp hentry with rfl | rfl <;> rw [idIn_numbered, Group.normal_str]
  exact ⟨_, hboth, rfl, hunique, (hqueries hunique).1 (.str "u2") rfl fun _ h => nomatch h⟩

/-- Two users with equal ids. -/
theorem not_uniqueIds_twins :
    let create (id : Value) := Mutation.create "users" (.object (numbered id))
    ∃ s, (openWith {} bareDisk (some barePath) none "" {}).store = .ok s ∧
      let run := (Mutation.applyAll s .empty
        [(create (.int 1), none), (create (.float floatOne), none)]).1
      ∃ held, run.entries "users" = .ok held ∧ ¬ UniqueIds "id" held ∧
        ∃ docs, run.query "users" (.object [(.str "id", .int 1)]) = .ok docs ∧ docs.length = 2 := by
  intro create
  refine ⟨_, openWith_bareDisk, ?_⟩
  intro run
  have hint := prepare_numbered (.int 1) (by decide +kernel) (by simp)
  have hfloat := prepare_numbered (.float floatOne) (by decide +kernel) (by simp)
  have hheld : run.entries "users" =
      .ok [("1", numbered (.int 1)), ("1.0", numbered (.float floatOne))] := by
    have hkey : (Value.int 1).display = "1" := by decide +kernel
    have hkey' : (Value.float floatOne).display = "1.0" := by decide +kernel
    have hfirst := Mutation.entries_create kindOf?_users entries_bareStore hint
    have hsecond := Mutation.entries_create rfl hfirst hfloat
    rw [hkey, hkey'] at hsecond
    exact (congrArg (Store.entries · "users") (Mutation.applyAll_store ..)).trans hsecond
  have hone : (Value.int 1).agrees (.int 1) = true := by decide +kernel
  have hequal : (Value.int 1).agrees (.float floatOne) = true := by decide +kernel
  have hequal' : (Value.float floatOne).agrees (.int 1) = true := by decide +kernel
  have hdata : run.data.WellFormed :=
    Mutation.wellFormed_applyAll .empty _ (wellFormed_openAt openWith_bareDisk)
  refine ⟨_, hheld, fun hunique => ?_, ?_⟩
  · have hsame := hunique _ (List.mem_cons_self ..) _
      (List.mem_cons_of_mem _ (List.mem_cons_self ..))
      (by rw [idIn_numbered, idIn_numbered, hequal])
    exact absurd (congrArg Prod.fst hsame) (by decide)
  · obtain ⟨docs, hquery, hlength⟩ := exists_query_of_operand rfl hheld
      (fits_of_entries hdata rfl hheld) (v := .int 1) (fun _ h => nomatch h)
    refine ⟨docs, hquery, ?_⟩
    rw [hlength]
    simp [idIn_numbered, hone, hequal']

end Store

end SnapshotStore
