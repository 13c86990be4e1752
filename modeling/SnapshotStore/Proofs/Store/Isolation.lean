import SnapshotStore.Proofs.Store.OwnIds

/-!
# Mutations do not meddle

A mutation of a keyed collection is addressed to one key (`Mutation.key?`), a mutation of an
append-only collection to its end.

**Theorem (`isolated_of_opened_run`).** What is found by an id after a run of an opened store is
found too after a run from which mutations are left out that are not addressed to its key. An
append-only collection holds what it held at first, and behind it what was appended to it. A single
mutation leaves the documents under other keys as they are, and the order of the keys too, but for a
new key at the end and for a key that goes.

What a mutation makes of the document under its key depends on nothing else that is held
(`Mutation.makes`), so it is an alteration of the entries at one key (`entries_remember_of_some`).
By induction over a run each key has the history of its own mutations (`exists_entries_run`), and
each append-only collection that of what was appended (`log_run`).
-/

namespace SnapshotStore

/-! ## Alterations -/

namespace Entries

variable {key other : String} {doc : Document} {entries : List (String × Document)}
  {f : Option Document → Option Document}

/-- Make something else of what is held under a key. -/
def alter (key : String) (f : Option Document → Option Document)
    (entries : List (String × Document)) : List (String × Document) :=
  match f (entries.lookup key) with
  | some doc => insert key doc entries
  | none => erase key entries

theorem lookup_alter_self (key : String) (f : Option Document → Option Document)
    (entries : List (String × Document)) :
    (alter key f entries).lookup key = f (entries.lookup key) := by
  unfold alter
  cases f (entries.lookup key) with
  | some doc => exact lookup_insert_self key doc entries
  | none => exact lookup_erase_self key entries

theorem lookup_alter_of_ne (h : other ≠ key) (f : Option Document → Option Document)
    (entries : List (String × Document)) :
    (alter key f entries).lookup other = entries.lookup other := by
  unfold alter
  cases f (entries.lookup key) with
  | some doc => exact lookup_insert_of_ne h doc entries
  | none => exact lookup_erase_of_ne h entries

theorem insert_of_lookup (h : entries.lookup key = some doc) :
    insert key doc entries = entries := by
  induction entries with
  | nil => cases h
  | cons entry entries ih =>
    rw [List.lookup_cons] at h
    unfold insert
    split_ifs with hkey
    · rw [hkey, beq_self_eq_true] at h
      rw [← hkey, ← Option.some.inj h]
    · rw [beq_false_of_ne (Ne.symm hkey)] at h
      rw [ih h]

theorem erase_of_lookup (h : entries.lookup key = none) : erase key entries = entries := by
  rw [List.lookup_eq_none_iff] at h
  refine List.filter_eq_self.mpr fun entry hentry => bne_iff_ne.mpr (Ne.symm ?_)
  simpa using h entry hentry

/-- Nothing is altered where what is held is kept. -/
theorem alter_of_eq (h : f (entries.lookup key) = entries.lookup key) :
    alter key f entries = entries := by
  unfold alter
  rw [h]
  cases hheld : entries.lookup key with
  | some doc => exact insert_of_lookup hheld
  | none => exact erase_of_lookup hheld

/-- The entries differ only under a key, and their order only by it: it is new and comes last, or it
goes. -/
structure DifferAt (key : String) (before after : List (String × Document)) : Prop where
  others : after.filter (·.1 != key) = before.filter (·.1 != key)
  order : after.map (·.1) = before.map (·.1) ∨
    (key ∉ before.map (·.1) ∧ after.map (·.1) = before.map (·.1) ++ [key]) ∨
    after.map (·.1) = (before.map (·.1)).filter (· != key)

theorem filter_insert (key : String) (doc : Document) (entries : List (String × Document)) :
    (insert key doc entries).filter (·.1 != key) = entries.filter (·.1 != key) := by
  induction entries with
  | nil => simp [insert]
  | cons entry entries ih =>
    unfold insert
    split_ifs with hkey
    · simp [hkey]
    · have hother : (entry.1 != key) = true := bne_iff_ne.mpr hkey
      simp only [List.filter_cons, hother, if_true, ih]

theorem keys_insert (key : String) (doc : Document) (entries : List (String × Document)) :
    (insert key doc entries).map (·.1) =
      if key ∈ entries.map (·.1) then entries.map (·.1) else entries.map (·.1) ++ [key] := by
  induction entries with
  | nil => simp [insert]
  | cons entry entries ih =>
    unfold insert
    split_ifs with hkey hmem hmem
    · simp [hkey]
    · simp [hkey] at hmem
    · rw [List.map_cons, List.mem_cons] at hmem
      rw [List.map_cons, ih, if_pos (hmem.resolve_left (Ne.symm hkey)), List.map_cons]
    · rw [List.map_cons, List.mem_cons, not_or] at hmem
      rw [List.map_cons, ih, if_neg hmem.2, List.map_cons, List.cons_append]

theorem differAt_alter (key : String) (f : Option Document → Option Document)
    (entries : List (String × Document)) : DifferAt key entries (alter key f entries) := by
  unfold alter
  cases f (entries.lookup key) with
  | some doc =>
    refine ⟨filter_insert key doc entries, ?_⟩
    rw [keys_insert]
    split_ifs with hmem
    · exact .inl rfl
    · exact .inr (.inl ⟨hmem, rfl⟩)
  | none =>
    refine ⟨?_, .inr (.inr ?_)⟩
    · rw [erase, List.filter_filter]
      simp only [Bool.and_self]
    · rw [erase, List.filter_map]
      rfl

end Entries

/-! ## What mutations alter -/

namespace Mutation

open Store

/-- The key of a keyed collection that a mutation is addressed to: that of the document it creates,
or of the id it is given, if that has one. -/
def key? (name : String) : Mutation → Option String
  | create other v => if other = name then (prepare name v).toOption.map (·.1) else none
  | update other id _ | delete other id =>
    if other = name then (documentKey id).toOption else none
  | append _ _ | persist => none

/-- What a mutation makes of what is held under its key. -/
def makes (field : String) (m : Mutation) (current : Option Document) : Option Document :=
  match m with
  | create name v => match prepare name v with
    | .ok (_, doc) => some doc
    | .error _ => current
  | update _ _ patch => match Document.normalize patch, current with
    | .ok laid, some doc => (merge field doc laid).toOption.or (some doc)
    | _, current => current
  | delete _ _ => none
  | append _ _ | persist => current

/-- The document that a mutation adds to an append-only collection. -/
def appended? (name : String) : Mutation → Option Document
  | append other v => if other = name then (Document.normalize v).toOption else none
  | _ => none

variable {s : Store} {name field : String} {held : List (String × Document)} {docs : List Document}
  {m : Mutation}

/-- A mutation that is addressed to no key of a collection leaves its entries. -/
theorem entries_remember_of_none (hkind : kindOf? name = some (.keyed field))
    (hheld : s.entries name = .ok held) (hkey : m.key? name = none) :
    (m.remember s).entries name = .ok held := by
  obtain ⟨held', hheld', hchanges⟩ := changes_remember hkind hheld m
  cases hchanges with
  | insert hprepare => simp [key?, hprepare, Except.toOption] at hkey
  | merge _ hid => simp [key?, hid, Except.toOption] at hkey
  | erase hid => simp [key?, hid, Except.toOption] at hkey
  | keep => exact hheld'

theorem entries_update (hkind : kindOf? name = some (.keyed field))
    (hheld : s.entries name = .ok held) {id : Value} {key : String} (hid : documentKey id = .ok key)
    (patch : Value) :
    ((update name id patch).remember s).entries name =
      .ok (Entries.alter key (makes field (update name id patch)) held) := by
  have hkeep (hremember : (update name id patch).remember s = s)
      (hmakes : makes field (update name id patch) (held.lookup key) = held.lookup key) :
      ((update name id patch).remember s).entries name =
        .ok (Entries.alter key (makes field (update name id patch)) held) := by
    rw [hremember, hheld, Entries.alter_of_eq hmakes]
  cases hlaid : Document.normalize patch with
  | error e =>
    refine hkeep (remember_of_error (plan_update_of_refused hkind hlaid)) ?_
    simp only [makes, hlaid]
  | ok laid =>
    cases hcurrent : held.lookup key with
    | none =>
      refine hkeep (remember_of_leave (plan_update_of_none hkind hlaid hheld hid hcurrent)) ?_
      simp only [makes, hlaid, hcurrent]
    | some current =>
      cases hmerged : merge field current laid with
      | error e =>
        have hplan := plan_update_of_some hkind hlaid hheld hid hcurrent
        rw [hmerged] at hplan
        refine hkeep (remember_of_error hplan) ?_
        simp only [makes, hlaid, hcurrent, hmerged]
        rfl
      | ok merged =>
        have hplan := plan_update_of_merged hkind hlaid hheld hid hcurrent hmerged
        rw [remember_of_write hplan, entries_set_self hkind hheld]
        simp only [Entries.alter, makes, hlaid, hcurrent, hmerged]
        rfl

theorem entries_delete (hkind : kindOf? name = some (.keyed field))
    (hheld : s.entries name = .ok held) {id : Value} {key : String}
    (hid : documentKey id = .ok key) :
    ((delete name id).remember s).entries name =
      .ok (Entries.alter key (makes field (delete name id)) held) := by
  have hplan := plan_delete hkind hheld hid
  cases hcurrent : held.lookup key with
  | none =>
    rw [hcurrent] at hplan
    rw [remember_of_leave hplan, hheld, Entries.alter, makes, Entries.erase_of_lookup hcurrent]
  | some current =>
    rw [hcurrent] at hplan
    rw [remember_of_write hplan, entries_set_self hkind hheld, Entries.alter, makes]

/-- **A mutation alters the entries of a keyed collection at its key.** -/
theorem entries_remember_of_some (hkind : kindOf? name = some (.keyed field))
    (hheld : s.entries name = .ok held) {key : String} (hkey : m.key? name = some key) :
    (m.remember s).entries name = .ok (Entries.alter key (m.makes field) held) := by
  cases m with
  | create other v =>
    rw [key?] at hkey
    split_ifs at hkey with hname
    subst hname
    cases hprepare : prepare other v with
    | error e => simp [hprepare, Except.toOption] at hkey
    | ok prepared =>
      rw [hprepare] at hkey
      cases hkey
      rw [entries_create hkind hheld hprepare]
      simp only [Entries.alter, makes, hprepare]
  | update other id patch =>
    rw [key?] at hkey
    split_ifs at hkey with hname
    exact hname ▸ entries_update (hname ▸ hkind) (hname ▸ hheld) (toOption_eq_some.mp hkey) patch
  | delete other id =>
    rw [key?] at hkey
    split_ifs at hkey with hname
    exact hname ▸ entries_delete (hname ▸ hkind) (hname ▸ hheld) (toOption_eq_some.mp hkey)
  | append | persist => cases hkey

end Mutation

/-! ## Append-only collections -/

namespace Store

variable {s : Store} {name : String} {docs : List Document}

theorem log_of_lookup (hkind : kindOf? name = some .appendOnly)
    (h : s.data.lookup name = some (.appendOnly docs)) : s.log name = .ok docs := by
  rw [log, contents, kind_eq_ok.mpr hkind, h]
  rfl

theorem exists_log (hdata : s.data.WellFormed) (hkind : kindOf? name = some .appendOnly) :
    ∃ docs, s.log name = .ok docs := by
  obtain ⟨contents, hlookup, hfits⟩ := hdata.exists_lookup hkind
  cases contents with
  | keyed held => exact hfits.elim
  | appendOnly docs => exact ⟨docs, log_of_lookup hkind hlookup⟩

theorem log_set_self (hkind : kindOf? name = some .appendOnly) (hdocs : s.log name = .ok docs)
    (docs' : List Document) :
    log { s with data := s.data.set name (.appendOnly docs') } name = .ok docs' := by
  have hlookup := lookup_of_log hdocs
  refine log_of_lookup hkind (Collections.lookup_set_self ?_ _)
  rw [hlookup]
  rfl

theorem log_set_of_ne {other : String} (h : name ≠ other) (contents : Contents) :
    log { s with data := s.data.set other contents } name = s.log name := by
  simp only [log, Store.contents, Collections.lookup_set_of_ne h]

end Store

namespace Mutation

open Store

variable {s : Store} {name : String} {docs : List Document}

/-- Documents are held in a collection that is keyed, so not in an append-only one. -/
theorem ne_of_keyed {other field : String} (hkind : kindOf? name = some .appendOnly)
    (hother : kindOf? other = some (.keyed field)) : name ≠ other := by
  rintro rfl
  cases hkind.symm.trans hother

/-- Nothing but to append to it changes an append-only collection. -/
theorem log_of_plan (hkind : kindOf? name = some .appendOnly) {m : Mutation}
    (hother : ∀ v, m ≠ append name v) {data : Collections} {reply : Except Failure Reply}
    (hplan : m.plan s = .ok (.write data reply)) : log { s with data } name = s.log name := by
  cases writes_of_plan hplan with
  | create hprepare =>
    obtain ⟨field, hkeyed, -⟩ := prepare_eq_ok hprepare
    exact log_set_of_ne (ne_of_keyed hkind hkeyed) _
  | @append other v =>
    refine log_set_of_ne ?_ _
    rintro rfl
    exact hother v rfl
  | update hkeyed => exact log_set_of_ne (ne_of_keyed hkind hkeyed) _
  | delete hkeyed => exact log_set_of_ne (ne_of_keyed hkind hkeyed) _
  | persist => rfl

/-- **A mutation adds at most one document to an append-only collection,** at its end. -/
theorem log_remember (hkind : kindOf? name = some .appendOnly) (hdocs : s.log name = .ok docs)
    (m : Mutation) : (m.remember s).log name = .ok (docs ++ (m.appended? name).toList) := by
  by_cases happend : ∃ v, m = append name v
  · obtain ⟨v, rfl⟩ := happend
    have hplan : (append name v).plan s = (do
        let doc ← (Document.normalize v).mapError .document
        .ok (.write (s.data.set name (.appendOnly (docs ++ [doc])))
          (do .ok (.document (← copy doc))))) := by
      simp only [plan, kind_eq_ok.mpr hkind, hdocs, ok_bind]
    rw [appended?, if_pos rfl]
    cases hdoc : Document.normalize v with
    | error e =>
      rw [hdoc] at hplan
      rw [remember_of_error hplan, hdocs, Except.toOption, Option.toList_none, List.append_nil]
    | ok doc =>
      rw [hdoc, Except.mapError, ok_bind] at hplan
      rw [remember_of_write hplan, log_set_self hkind hdocs]
      rfl
  · have hother : ∀ v, m ≠ append name v := not_exists.mp happend
    have hnone : m.appended? name = none := by
      cases m with
      | append other v => exact if_neg fun hname => hother v (congrArg (append · v) hname)
      | _ => rfl
    rw [hnone, Option.toList_none, List.append_nil, ← hdocs]
    cases hplan : m.plan s with
    | error e => rw [remember_of_error hplan]
    | ok plan =>
      cases plan with
      | leave reply => rw [remember_of_leave hplan]
      | write data reply =>
        rw [remember, hplan]
        exact log_of_plan hkind hother hplan

/-! ## Runs -/

/-- What mutations, one after the other, make of what is held under a key. Those that are not
addressed to it have no say. -/
def makesAll (name field key : String) (ms : List Mutation) (current : Option Document) :
    Option Document :=
  (ms.filter fun m => m.key? name = some key).foldl (fun current m => m.makes field current) current

theorem makesAll_cons (name field key : String) (m : Mutation) (ms : List Mutation)
    (current : Option Document) :
    makesAll name field key (m :: ms) current = makesAll name field key ms
      (if m.key? name = some key then m.makes field current else current) := by
  unfold makesAll
  by_cases hkey : m.key? name = some key
  · rw [if_pos hkey, List.filter_cons_of_pos (by simpa using hkey), List.foldl_cons]
  · rw [if_neg hkey, List.filter_cons_of_neg (by simpa using hkey)]

theorem makesAll_filter {name field key : String} {actions : List (Mutation × Option ReplaceStep)}
    {keep : Mutation × Option ReplaceStep → Bool}
    (hkeep : ∀ action ∈ actions, action.1.key? name = some key → keep action = true) :
    makesAll name field key ((actions.filter keep).map Prod.fst) =
      makesAll name field key (actions.map Prod.fst) := by
  funext current
  unfold makesAll
  rw [List.filter_map, List.filter_map, List.filter_filter]
  congr 2
  refine List.filter_congr fun action haction => ?_
  by_cases hkey : action.1.key? name = some key
  · simp [hkey, hkeep action haction hkey]
  · simp [hkey]

variable {field : String} {held : List (String × Document)}

theorem exists_entries_remember (hkind : kindOf? name = some (.keyed field))
    (hheld : s.entries name = .ok held) (m : Mutation) :
    ∃ held', (m.remember s).entries name = .ok held' ∧ ∀ key, held'.lookup key =
      if m.key? name = some key then m.makes field (held.lookup key) else held.lookup key := by
  cases hkey : m.key? name with
  | none => exact ⟨held, entries_remember_of_none hkind hheld hkey, fun key => (if_neg nofun).symm⟩
  | some own =>
    refine ⟨_, entries_remember_of_some hkind hheld hkey, fun key => ?_⟩
    split_ifs with hown
    · obtain rfl := Option.some.inj hown
      exact Entries.lookup_alter_self ..
    · exact Entries.lookup_alter_of_ne (fun h => hown (congrArg some h.symm)) ..

/-- **Each key has the history of its own mutations.** -/
theorem exists_entries_run (hkind : kindOf? name = some (.keyed field))
    (hheld : s.entries name = .ok held) (ms : List Mutation) :
    ∃ held', (ms.foldl (fun s m => m.remember s) s).entries name = .ok held' ∧
      ∀ key, held'.lookup key = makesAll name field key ms (held.lookup key) := by
  induction ms generalizing s held with
  | nil => exact ⟨held, hheld, fun key => rfl⟩
  | cons m ms ih =>
    obtain ⟨held₁, hheld₁, hlookup₁⟩ := exists_entries_remember hkind hheld m
    obtain ⟨held', hheld', hlookup⟩ := ih hheld₁
    refine ⟨held', hheld', fun key => ?_⟩
    rw [hlookup, hlookup₁, makesAll_cons]

/-- **An append-only collection has the history of what was appended to it.** -/
theorem log_run (hkind : kindOf? name = some .appendOnly) (hdocs : s.log name = .ok docs)
    (ms : List Mutation) :
    (ms.foldl (fun s m => m.remember s) s).log name =
      .ok (docs ++ ms.filterMap (·.appended? name)) := by
  induction ms generalizing s docs with
  | nil => rw [List.filterMap_nil, List.append_nil, List.foldl_nil, hdocs]
  | cons m ms ih =>
    rw [List.foldl_cons, ih (log_remember hkind hdocs m), List.append_assoc, List.filterMap_cons]
    cases m.appended? name <;> rfl

end Mutation

namespace Store

variable {s : Store} {name field key : String} {id : Value}

/-- To look for a document never fails where the id has a key. -/
theorem exists_find (hdata : s.data.WellFormed) (hkind : kindOf? name = some (.keyed field))
    (hid : documentKey id = .ok key) : ∃ found, s.find name id = .ok found := by
  obtain ⟨held, hheld, hfits⟩ := exists_entries hdata hkind
  rw [find_eq hkind hheld, key_eq_ok.mpr hid, ok_bind]
  cases hlookup : held.lookup key with
  | none => exact ⟨none, rfl⟩
  | some doc =>
    obtain ⟨copied, hcopied⟩ :=
      Document.exists_copy (hfits.2 _ (Entries.mem_of_lookup hlookup)).stored
    exact ⟨some copied, congrArg (Except.map some) (mapError_eq_ok.mpr hcopied)⟩

/-- Mutations that are not addressed to the key of an id can be left out when it is looked for. If
the id has no key, looking for it fails whatever is held. -/
theorem find_applyAll_filter (hdata : s.data.WellFormed)
    (hkind : kindOf? name = some (.keyed field))
    {actions : List (Mutation × Option ReplaceStep)} {keep : Mutation × Option ReplaceStep → Bool}
    (hkeep : ∀ key, documentKey id = .ok key →
      ∀ action ∈ actions, action.1.key? name = some key → keep action = true)
    (start start' : Disk) :
    (Mutation.applyAll s start' (actions.filter keep)).1.find name id =
      (Mutation.applyAll s start actions).1.find name id := by
  obtain ⟨held, hheld, -⟩ := exists_entries hdata hkind
  obtain ⟨run, hrun, hlookup⟩ := Mutation.exists_entries_run hkind hheld (actions.map Prod.fst)
  obtain ⟨kept, hkept, hlookup'⟩ :=
    Mutation.exists_entries_run hkind hheld ((actions.filter keep).map Prod.fst)
  rw [Mutation.applyAll_store, Mutation.applyAll_store, find_eq hkind hkept, find_eq hkind hrun]
  cases hid : Store.key id with
  | error e => rfl
  | ok key =>
    have hsame : kept.lookup key = run.lookup key := by
      rw [hlookup, hlookup', Mutation.makesAll_filter (hkeep key (key_eq_ok.mp hid))]
    rw [ok_bind, ok_bind, hsame]

/-- A mutation alters the entries of a keyed collection under its key, if it has one. -/
theorem exists_differAt (hdata : s.data.WellFormed) (hkind : kindOf? name = some (.keyed field))
    (m : Mutation) :
    ∃ held held', s.entries name = .ok held ∧ (m.remember s).entries name = .ok held' ∧
      (m.key? name = none → held' = held) ∧
      ∀ key, m.key? name = some key → Entries.DifferAt key held held' := by
  obtain ⟨held, hheld, -⟩ := exists_entries hdata hkind
  refine ⟨held, ?_⟩
  cases hkey : m.key? name with
  | none =>
    exact ⟨held, hheld, Mutation.entries_remember_of_none hkind hheld hkey, fun _ => rfl, nofun⟩
  | some key =>
    refine ⟨_, hheld, Mutation.entries_remember_of_some hkind hheld hkey, nofun, ?_⟩
    rintro _ ⟨⟩
    exact Entries.differAt_alter ..

section Opened

variable (settings : Settings) (disk : Disk) (path : Option FilePath) (strict : Option Bool)
  (stamp : String) (faults : OpenFaults) (actions : List (Mutation × Option ReplaceStep))

/-- **Mutations of an opened store do not meddle,** whichever of them fail, and whatever the disk
does. What is found by an id after a run is found too if mutations that are not addressed to its key
are left out. An append-only collection grows by what is appended to it. A further mutation leaves
the entries of a keyed collection as they are but for the one under its key. -/
theorem isolated_of_opened_run (start : Disk) {s : Store}
    (hopen : (openWith settings disk path strict stamp faults).store = .ok s) :
    let run := (Mutation.applyAll s start actions).1
    (∀ name field, kindOf? name = some (.keyed field) →
      (∀ id keep start', (∀ key, documentKey id = .ok key →
          ∀ action ∈ actions, action.1.key? name = some key → keep action = true) →
        (Mutation.applyAll s start' (actions.filter keep)).1.find name id = run.find name id ∧
          ∀ key, documentKey id = .ok key → ∃ found, run.find name id = .ok found) ∧
      ∀ m disk fault, ∃ held held', run.entries name = .ok held ∧
        (Mutation.apply run disk fault m).store.entries name = .ok held' ∧
        (m.key? name = none → held' = held) ∧
        ∀ key, m.key? name = some key → Entries.DifferAt key held held') ∧
    ∀ name, kindOf? name = some .appendOnly → ∃ docs, s.log name = .ok docs ∧
      run.log name = .ok (docs ++ (actions.map Prod.fst).filterMap (·.appended? name)) := by
  intro run
  have hopened : s.data.WellFormed := wellFormed_openAt hopen
  have hdata : run.data.WellFormed := Mutation.wellFormed_applyAll start actions hopened
  refine ⟨fun name field hkind => ⟨fun id keep start' hkeep => ?_, fun m disk fault => ?_⟩,
    fun name hkind => ?_⟩
  · exact ⟨find_applyAll_filter hopened hkind hkeep start start',
      fun key hid => exists_find hdata hkind hid⟩
  · rw [Mutation.apply_store]
    exact exists_differAt hdata hkind m
  · obtain ⟨docs, hdocs⟩ := exists_log hopened hkind
    refine ⟨docs, hdocs, ?_⟩
    rw [← Mutation.log_run hkind hdocs, ← Mutation.applyAll_store]

end Opened

/-- A user that is created in spite of a failed write is found as if no other were created, and what
is appended elsewhere is held there. -/
theorem isolated_of_opened_run_twoUsers :
    let create id := Mutation.create "users" (.object (numbered (.str id)))
    ∃ s, (openWith {} bareDisk (some barePath) none "" {}).store = .ok s ∧
      let run := (Mutation.applyAll s .empty [(create "u1", some .write), (create "u2", none),
        (.append "orders" (.object []), none)]).1
      (∃ found, run.find "users" (.str "u1") = .ok found ∧
        (Mutation.applyAll s .empty [(create "u1", some .write)]).1.find "users" (.str "u1") =
          .ok found) ∧
      run.log "orders" = .ok [[]] := by
  intro create
  refine ⟨_, openWith_bareDisk, ?_⟩
  intro run
  obtain ⟨hkeyed, hlogs⟩ := isolated_of_opened_run {} bareDisk (some barePath) none "" {}
    [(create "u1", some .write), (create "u2", none), (.append "orders" (.object []), none)]
    .empty openWith_bareDisk
  have hkey (id : String) : (create id).key? "users" = some (Value.str id).display := by
    rw [Mutation.key?, if_pos rfl, prepare_numbered (.str id) rfl (by simp)]
    rfl
  have hne : some (Value.str "u2").display ≠ some (Value.str "u1").display := by decide
  let keep (action : Mutation × Option ReplaceStep) : Bool :=
    action.1.key? "users" = some (Value.str "u1").display
  have hkept : [(create "u1", some .write), (create "u2", none),
      (.append "orders" (.object []), none)].filter keep = [(create "u1", some .write)] := by
    have hfirst : keep (create "u1", some .write) = true := decide_eq_true (hkey "u1")
    have hsecond : ¬ keep (create "u2", none) = true := by
      rw [decide_eq_true_iff, hkey]
      exact hne
    rw [List.filter_cons_of_pos hfirst, List.filter_cons_of_neg hsecond]
    rfl
  constructor
  · have hid : documentKey (.str "u1") = .ok (Value.str "u1").display :=
      documentKey_eq_ok.mpr ⟨rfl, rfl⟩
    obtain ⟨hsame, hfound⟩ := (hkeyed "users" "id" kindOf?_users).1 (.str "u1") keep .empty
      fun key hkey action _ h => by
        obtain rfl := Except.ok.inj (hid.symm.trans hkey)
        exact decide_eq_true h
    obtain ⟨found, hfound⟩ := hfound _ hid
    rw [hkept] at hsame
    exact ⟨found, hfound, hsame.trans hfound⟩
  · obtain ⟨docs, hdocs, hlog⟩ := hlogs "orders" rfl
    obtain rfl : [] = docs := Except.ok.inj hdocs
    exact hlog

end Store

end SnapshotStore
