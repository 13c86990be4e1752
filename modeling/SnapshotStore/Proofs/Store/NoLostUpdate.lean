import SnapshotStore.Proofs.Store.Merge
import SnapshotStore.Proofs.Store.Together

/-!
# No update is lost

Updates are apart when no two of their patches have a field in common, but for the key field
(`Mutation.Apart`).

**Theorem (`no_update_lost_of_opened_run`).** Let updates of one document be apart. In whatever
order they run, one after the other or as tasks that are started together, and whichever of them
fail to write, the document has in the end each patched field as it was patched, and each other
field, the key field too, as it was (`Laid`). None of the updates finds the document missing, and
nothing else in the store changes.

The induction is over the updates that are still to come: what these leave alone stays as the first
one left it (`Laid.cons`).
-/

namespace SnapshotStore

namespace Mutation

/-- The form in which the patch of an update is laid over a document. -/
def laid : Mutation → Document
  | update _ _ patch => (Document.normalize patch).toOption.getD []
  | _ => []

/-- An update of the document under a key, with a patch that is valid. -/
def Updates (name key : String) (m : Mutation) : Prop :=
  ∃ id patch, m = update name id patch ∧ documentKey id = .ok key ∧
    Document.normalize patch = .ok m.laid

/-- No field but the key field is in both patches. -/
def Apart (field : String) (m m' : Mutation) : Prop :=
  ∀ name ≠ field, Fields.getText? m.laid name = none ∨ Fields.getText? m'.laid name = none

end Mutation

/-- A document has each patched field as it was patched, and each other field, the key field among
them, as another document has it. -/
structure Laid (field : String) (ms : List Mutation) (current doc : Document) : Prop where
  patched : ∀ m ∈ ms, ∀ name ≠ field, ∀ v, Fields.getText? m.laid name = some v →
    Fields.getText? doc name = some v
  kept : ∀ name, (name = field ∨ ∀ m ∈ ms, Fields.getText? m.laid name = none) →
    Fields.getText? doc name = Fields.getText? current name

/-- The document under a key is patched, and that is all that changed. -/
structure Patched (name field key : String) (ms : List Mutation) (before after : Store) :
    Prop where
  document : ∃ held held' current doc, before.entries name = .ok held ∧
    after.entries name = .ok held' ∧ held.lookup key = some current ∧
    held'.lookup key = some doc ∧ Laid field ms current doc ∧
    held'.map (·.1) = held.map (·.1) ∧ ∀ other ≠ key, held'.lookup other = held.lookup other
  others : ∀ other ≠ name, after.data.lookup other = before.data.lookup other

/-! ## One document -/

namespace Laid

variable {field : String} {m : Mutation} {ms ms' : List Mutation}
  {current merged doc doc' : Document}

theorem nil (field : String) (doc : Document) : Laid field [] doc doc := ⟨nofun, fun _ _ => rfl⟩

/-- One patch first, which the others leave alone. -/
theorem cons (hkeys : ∃ entries, m.laid = Fields.ofEntries entries ∧ (entries.map (·.1)).Nodup)
    (hmerged : Store.merge field current m.laid = .ok merged)
    (hapart : ∀ m' ∈ ms, m.Apart field m') (h : Laid field ms merged doc) :
    Laid field (m :: ms) current doc := by
  obtain ⟨entries, hentries, hkeys⟩ := hkeys
  rw [hentries] at hmerged
  have hmerge := Store.getText?_merge hkeys hmerged
  simp only [← Fields.getText?_ofEntries, ← hentries] at hmerge
  constructor
  · intro m' hm' name hname v hv
    rcases List.mem_cons.mp hm' with rfl | hm'
    · have hother : ∀ other ∈ ms, Fields.getText? other.laid name = none := fun other hother =>
        (hapart other hother name hname).resolve_left (by simp [hv])
      rw [h.kept name (.inr hother), hmerge, if_neg hname, hv, Option.some_or]
    · exact h.patched m' hm' name hname v hv
  · rintro name hname
    have hrest : name = field ∨ ∀ m' ∈ ms, Fields.getText? m'.laid name = none :=
      hname.imp_right fun hnone m' hm' => hnone m' (List.mem_cons_of_mem _ hm')
    rw [h.kept name hrest, hmerge]
    split_ifs with hfield
    · rw [hfield]
    · rw [(hname.resolve_left hfield) m (List.mem_cons_self ..), Option.none_or]

/-- The order of the patches does not matter. -/
theorem perm (hperm : ms.Perm ms') (h : Laid field ms current doc) : Laid field ms' current doc :=
  ⟨fun m hm => h.patched m (hperm.mem_iff.mpr hm), fun name hname =>
    h.kept name (hname.imp_right fun hnone m hm => hnone m (hperm.mem_iff.mp hm))⟩

/-- As a mapping there is only one such document. -/
theorem unique (h : Laid field ms current doc) (h' : Laid field ms current doc') (name : String) :
    Fields.getText? doc name = Fields.getText? doc' name := by
  by_cases hname : name = field ∨ ∀ m ∈ ms, Fields.getText? m.laid name = none
  · rw [h.kept name hname, h'.kept name hname]
  · push Not at hname
    obtain ⟨hfield, m, hm, hsome⟩ := hname
    obtain ⟨v, hv⟩ := Option.ne_none_iff_exists'.mp hsome
    rw [h.patched m hm name hfield v hv, h'.patched m hm name hfield v hv]

end Laid

theorem Patched.perm {name field key : String} {ms ms' : List Mutation} {before after : Store}
    (hperm : ms.Perm ms') (h : Patched name field key ms before after) :
    Patched name field key ms' before after := by
  obtain ⟨⟨held, held', current, doc, hheld, hheld', hcurrent, hdoc, hlaid, hrest⟩, hothers⟩ := h
  exact ⟨⟨held, held', current, doc, hheld, hheld', hcurrent, hdoc, hlaid.perm hperm, hrest⟩,
    hothers⟩

/-! ## One update after the other -/

namespace Mutation

open Store

variable {s : Store} {name field key : String} {held : List (String × Document)}
  {current : Document} {m : Mutation}

theorem Updates.exists_entries (h : m.Updates name key) :
    ∃ entries, m.laid = Fields.ofEntries entries ∧ (entries.map (·.1)).Nodup := by
  obtain ⟨id, patch, -, -, hlaid⟩ := h
  obtain ⟨entries, hentries, hkeys, -⟩ := Value.isJson_object (Document.isJson_normalize hlaid)
  exact ⟨entries, hentries, hkeys⟩

/-- An update of a document that is held merges it with the patch, and is about to reply with what
comes of that. -/
theorem Updates.plan (h : m.Updates name key) (hdata : s.data.WellFormed)
    (hkind : kindOf? name = some (.keyed field)) (hheld : s.entries name = .ok held)
    (hcurrent : held.lookup key = some current) :
    ∃ merged, merge field current m.laid = .ok merged ∧
      m.plan s = .ok (.write (s.data.set name (.keyed (Entries.insert key merged held)))
        (do .ok (.document (← copy merged)))) := by
  obtain ⟨id, patch, rfl, hid, hlaid⟩ := h
  obtain ⟨merged, hmerged⟩ := exists_merge
    ((fits_of_entries hdata hkind hheld).2 _ (Entries.mem_of_lookup hcurrent)) _
  exact ⟨merged, hmerged, plan_update_of_merged hkind hlaid hheld hid hcurrent hmerged⟩

/-- **Updates that are apart all have their effect.** -/
theorem patched_foldl {ms : List Mutation} (hms : ∀ m ∈ ms, m.Updates name key)
    (hapart : ms.Pairwise (Apart field)) (hdata : s.data.WellFormed)
    (hkind : kindOf? name = some (.keyed field)) (hheld : s.entries name = .ok held)
    (hcurrent : held.lookup key = some current) :
    Patched name field key ms s (ms.foldl (fun s m => m.remember s) s) := by
  induction ms generalizing s held current with
  | nil =>
    exact ⟨⟨held, held, current, current, hheld, hheld, hcurrent, hcurrent, .nil field current, rfl,
      fun _ _ => rfl⟩, fun _ _ => rfl⟩
  | cons m ms ih =>
    rw [List.forall_mem_cons] at hms
    rw [List.pairwise_cons] at hapart
    obtain ⟨merged, hmerged, hplan⟩ := hms.1.plan hdata hkind hheld hcurrent
    have hstep := remember_of_write hplan
    have hdata' : (m.remember s).data.WellFormed := by
      rw [hstep]
      exact wellFormed_of_plan hdata hplan
    have hheld' : (m.remember s).entries name = .ok (Entries.insert key merged held) := by
      rw [hstep]
      exact entries_set_self hkind hheld _
    obtain ⟨⟨between, held', doc₁, doc, hbetween, hafter, hdoc₁, hdoc, hlaid, hkeys, hsame⟩,
      hothers⟩ := ih hms.2 hapart.2 hdata' hheld' (Entries.lookup_insert_self ..)
    obtain rfl := Except.ok.inj (hheld'.symm.trans hbetween)
    obtain rfl := Option.some.inj ((Entries.lookup_insert_self ..).symm.trans hdoc₁)
    refine ⟨⟨held, held', current, doc, hheld, hafter, hcurrent, hdoc,
      .cons hms.1.exists_entries hmerged hapart.1 hlaid, ?_, fun other hne => ?_⟩,
      fun other hne => ?_⟩
    · rw [hkeys, Entries.keys_insert,
        if_pos (List.mem_map_of_mem (Entries.mem_of_lookup hcurrent))]
    · rw [hsame other hne, Entries.lookup_insert_of_ne hne]
    · rw [List.foldl_cons, hothers other hne, hstep, Collections.lookup_set_of_ne hne]

/-- **No update finds the document missing.** What one returns is a document. -/
theorem document_of_reply {tasks : List Task} (htasks : ∀ task ∈ tasks, task.1.Updates name key)
    (hdata : s.data.WellFormed) (hkind : kindOf? name = some (.keyed field))
    (hheld : s.entries name = .ok held) (hcurrent : held.lookup key = some current) (disk : Disk)
    {made : Reply} (hmade : .ok made ∈ (applyAll s disk tasks).2.2.2) :
    ∃ doc, made = .document doc := by
  induction tasks generalizing s disk held current with
  | nil => cases hmade
  | cons task tasks ih =>
    rw [List.forall_mem_cons] at htasks
    obtain ⟨merged, -, hplan⟩ := htasks.1.plan hdata hkind hheld hcurrent
    rcases List.mem_cons.mp hmade with hfirst | hrest
    · rw [apply_eq_carryOut, hplan] at hfirst
      obtain ⟨-, -, hreply⟩ := bind_eq_ok.mp hfirst.symm
      obtain ⟨doc, -, hdoc⟩ := bind_eq_ok.mp hreply
      exact ⟨doc, (Except.ok.inj hdoc).symm⟩
    · have hstore : (task.1.apply s disk task.2).store = _ :=
        (apply_store ..).trans (remember_of_write hplan)
      refine ih htasks.2 ?_ ?_ (Entries.lookup_insert_self key merged held) _ hrest
      · exact wellFormed_apply task.1 hdata
      · rw [hstore]
        exact entries_set_self hkind hheld _

end Mutation

/-! ## Stores that were opened -/

namespace Store

theorem patched_applyAll {s : Store} {name field key : String} {held : List (String × Document)}
    {current : Document} {tasks order : List Task} (hperm : order.Perm tasks)
    (htasks : ∀ task ∈ tasks, task.1.Updates name key)
    (hapart : tasks.Pairwise fun task task' => Mutation.Apart field task.1 task'.1)
    (hdata : s.data.WellFormed) (hkind : kindOf? name = some (.keyed field))
    (hheld : s.entries name = .ok held) (hcurrent : held.lookup key = some current)
    (disk : Disk) :
    Patched name field key (tasks.map (·.1)) s (Mutation.applyAll s disk order).1 ∧
      ∀ made, .ok made ∈ (Mutation.applyAll s disk order).2.2.2 → ∃ doc, made = .document doc := by
  have horder : ∀ task ∈ order, task.1.Updates name key := fun task htask =>
    htasks task (hperm.mem_iff.mp htask)
  have hapart' : (order.map (·.1)).Pairwise (Mutation.Apart field) :=
    List.pairwise_map.mpr (hapart.perm hperm.symm fun h other hother => (h other hother).symm)
  refine ⟨?_, fun made hmade =>
    Mutation.document_of_reply horder hdata hkind hheld hcurrent disk hmade⟩
  have hpatched := Mutation.patched_foldl (List.forall_mem_map.mpr horder) hapart' hdata hkind hheld
    hcurrent
  rw [← Mutation.applyAll_store s disk order] at hpatched
  exact hpatched.perm (hperm.map _)

section Opened

variable (settings : Settings) (disk : Disk) (path : Option FilePath) (strict : Option Bool)
  (stamp : String) (faults : OpenFaults) (actions : List (Mutation × Option ReplaceStep))

/-- **No update is lost,** whatever the order. -/
theorem no_update_lost_of_opened_run (start : Disk) {s : Store}
    (hopen : (openWith settings disk path strict stamp faults).store = .ok s)
    {name field key : String} (hkind : kindOf? name = some (.keyed field))
    {held : List (String × Document)} {current : Document}
    (hheld : (Mutation.applyAll s start actions).1.entries name = .ok held)
    (hcurrent : held.lookup key = some current) {tasks : List Task}
    (htasks : ∀ task ∈ tasks, task.1.Updates name key)
    (hapart : tasks.Pairwise fun task task' => Mutation.Apart field task.1 task'.1) :
    let run := (Mutation.applyAll s start actions).1
    (∀ order disk, order.Perm tasks →
      let result := Mutation.applyAll run disk order
      Patched name field key (tasks.map (·.1)) run result.1 ∧
        ∀ made, .ok made ∈ result.2.2.2 → ∃ doc, made = .document doc) ∧
    ∀ disk t, Relation.ReflTransGen Tasks.Step (.start run disk tasks) t →
      (∀ t', ¬ Tasks.Step t t') →
      Patched name field key (tasks.map (·.1)) run t.store ∧ (t.replied.map (·.1)).Perm tasks ∧
        ∀ task made, (task, .ok made) ∈ t.replied → ∃ doc, made = .document doc := by
  intro run
  have hdata : run.data.WellFormed := Mutation.wellFormed_applyAll start actions
    (wellFormed_openAt hopen)
  have hall {order : List Task} (hperm : order.Perm tasks) (disk : Disk) :=
    patched_applyAll hperm htasks hapart hdata hkind hheld hcurrent disk
  refine ⟨fun order disk hperm => hall hperm disk, fun disk t hsteps hstuck => ?_⟩
  obtain ⟨done, hperm, hreplied, hstore, -, hreplies⟩ := Tasks.serial_of_stuck hsteps hstuck
  obtain ⟨hpatched, hdocument⟩ := hall hperm disk
  rw [hstore] at hpatched
  refine ⟨hpatched, (hreplied.symm.map _).trans hperm, fun task made hmade => hdocument made ?_⟩
  rw [hreplies]
  exact List.mem_map_of_mem (f := (·.2)) (hreplied.mem_iff.mpr hmade)

end Opened

theorem laid_update {id patch : Value} {doc : Document} (name : String)
    (h : Document.normalize patch = .ok doc) : (Mutation.update name id patch).laid = doc := by
  rw [Mutation.laid, h]
  rfl

/-- A patch of one field of the first user. -/
def patchUser (name : String) : Mutation :=
  .update "users" (.str "u1") (.object [(.str name, .bool true)])

theorem normalize_oneField (name : String) :
    Document.normalize (.object [(.str name, .bool true)]) = .ok [(.str name, .bool true)] :=
  Document.normalize_of_isJson (by simp [Value.isJson, Value.areJsonFields])

theorem laid_patchUser (name : String) : (patchUser name).laid = [(.str name, .bool true)] :=
  laid_update "users" (normalize_oneField name)

/-- Two patches in the other order than that in which they are given, one of which fails to be
written. -/
theorem no_update_lost_of_opened_run_twoPatches :
    let run := (Mutation.applyAll ⟨barePath, false, some 2, .empty⟩ bareDisk
      [(.create "users" (.object (numbered (.str "u1"))), none)]).1
    let result := Mutation.applyAll run bareDisk
      [(patchUser "b", some .rename), (patchUser "a", none)]
    ∃ held doc, result.1.entries "users" = .ok held ∧
      held.lookup (Value.str "u1").display = some doc ∧
      Fields.getText? doc "a" = some (.bool true) ∧ Fields.getText? doc "b" = some (.bool true) ∧
      Fields.getText? doc "id" = some (.str "u1") := by
  have hheld : (Mutation.applyAll ⟨barePath, false, some 2, .empty⟩ bareDisk
      [(.create "users" (.object (numbered (.str "u1"))), none)]).1.entries "users" =
        .ok [((Value.str "u1").display, numbered (.str "u1"))] := by
    rw [Mutation.applyAll_store]
    exact Mutation.entries_create kindOf?_users entries_bareStore
      (prepare_numbered (.str "u1") rfl (by simp))
  have hupdates (name : String) : (patchUser name).Updates "users" (Value.str "u1").display :=
    ⟨.str "u1", _, rfl, documentKey_eq_ok.mpr ⟨rfl, rfl⟩, by
      rw [laid_patchUser, normalize_oneField]⟩
  have hapart : Mutation.Apart "id" (patchUser "a") (patchUser "b") := by
    intro name _
    rw [laid_patchUser, laid_patchUser]
    by_cases hname : name = "a"
    · exact .inr (by simp [hname, Fields.getText?_cons_of_ne])
    · exact .inl (Fields.getText?_cons_of_ne (fun h => hname (Value.str.inj h).symm) ..)
  have htasks : ∀ task ∈ [(patchUser "a", none), (patchUser "b", some ReplaceStep.rename)],
      task.1.Updates "users" (Value.str "u1").display := by
    simp [hupdates]
  obtain ⟨hordered, -⟩ := no_update_lost_of_opened_run {} bareDisk (some barePath) none "" {}
    [(.create "users" (.object (numbered (.str "u1"))), none)] bareDisk openWith_bareDisk
    kindOf?_users hheld (List.lookup_cons_self ..) htasks (by simp [hapart])
  obtain ⟨⟨⟨held, held', current, doc, hbefore, hafter, hcurrent, hdoc, hlaid, -⟩, -⟩, -⟩ :=
    hordered [(patchUser "b", some .rename), (patchUser "a", none)] bareDisk (.swap _ _ _)
  have hfield (name : String) (hmem : patchUser name ∈ [patchUser "a", patchUser "b"])
      (hname : name ≠ "id") : Fields.getText? doc name = some (.bool true) :=
    hlaid.patched _ hmem name hname _ (by rw [laid_patchUser, Fields.getText?_cons_self])
  obtain rfl := Except.ok.inj (hheld.symm.trans hbefore)
  obtain rfl : numbered (.str "u1") = current :=
    Option.some.inj ((List.lookup_cons_self ..).symm.trans hcurrent)
  refine ⟨held', doc, hafter, hdoc, hfield "a" (by simp) (by decide),
    hfield "b" (by simp) (by decide), ?_⟩
  rw [hlaid.kept "id" (.inl rfl), numbered, Fields.getText?_cons_self]

end Store

end SnapshotStore
