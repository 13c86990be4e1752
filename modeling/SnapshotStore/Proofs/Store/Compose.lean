import SnapshotStore.Proofs.Store.Merge

/-!
# Two updates in one

**Theorem (`update_update_of_opened_run`).** To update a document twice is to update it once, with
the second patch laid over the first: the store is the same afterwards, to the order of fields and
documents, and when the disk accepts what is written, so are the reply and the snapshot.

The second update plans what the single one plans (`planAs_update`), so what remains is the disk.
There the first of the two updates may fail to write where the single one does not: a number that is
not finite may be gone only with the second patch. The converse is not possible, since no mutation
brings such a number in.
-/

namespace SnapshotStore

/-! ## Exchanging a file twice -/

namespace Disk

variable {disk disk₁ disk₂ disk₃ : Disk} {path : FilePath} {first second : ByteArray}
  {fault fault₁ fault₂ : Option ReplaceStep}

/-- To exchange a file twice leaves what exchanging it once leaves, the mode too. -/
theorem node_exchange_exchange (hfirst : disk.exchange path first fault = (.ok (), disk₁))
    (hsecond : disk₁.exchange path second fault₁ = (.ok (), disk₂))
    (honce : disk.exchange path second fault₂ = (.ok (), disk₃)) :
    disk₂.node path = disk₃.node path := by
  obtain ⟨content, hnode⟩ : disk₂.HasMode path
      ((disk.makeDirectories path.parent).2.modeFor path) := by
    have hmode : disk₁.HasMode path ((disk.makeDirectories path.parent).2.modeFor path) :=
      ⟨first, node_exchange_ok hfirst⟩
    have hkept := hmode.exchange second fault₁
    rwa [hsecond] at hkept
  have hcontent := hnode.symm.trans (node_exchange_ok hsecond)
  obtain ⟨rfl, -⟩ := Node.file.inj (Except.ok.inj hcontent)
  rw [hnode, node_exchange_ok honce]

end Disk

/-! ## Plans that agree -/

namespace Mutation

open Store

/-- Two mutations, one after the other, plan what a third one plans: all fail alike, or all leave
the data and make one reply, or the first and the third write, and the second finds what it needs to
write the same as the third. -/
inductive PlanAs (s : Store) (first second once : Mutation) : Prop
  | fail (e : Failure) (hfirst : first.plan s = .error e) (hsecond : second.plan s = .error e)
    (honce : once.plan s = .error e)
  | leave (reply : Reply) (hfirst : first.plan s = .ok (.leave reply))
    (hsecond : second.plan s = .ok (.leave reply)) (honce : once.plan s = .ok (.leave reply))
  | write (between data : Collections) (made reply : Except Failure Reply)
    (hfirst : first.plan s = .ok (.write between made))
    (hsecond : second.plan { s with data := between } = .ok (.write data reply))
    (honce : once.plan s = .ok (.write data reply))

/-- **A second update plans what a single one plans,** with the second patch laid over the first. -/
theorem planAs_update {s : Store} (hdata : s.data.WellFormed) {name field : String}
    (hkind : kindOf? name = some (.keyed field)) (id : Value) {p q : Document}
    (hp : (Value.object p).isJson Document.storedStyle.admits = true)
    (hq : (Value.object q).isJson Document.storedStyle.admits = true) :
    PlanAs s (update name id (.object p)) (update name id (.object q))
      (update name id (.object (Fields.overlay p q))) := by
  obtain ⟨laid, rfl, hkeys, -⟩ := Value.isJson_object hp
  obtain ⟨others, rfl, -, hall⟩ := Value.isJson_object hq
  have hboth := Document.normalize_of_isJson (Value.isJson_overlay laid hp hall)
  have hfirst := Document.normalize_of_isJson hp
  have hsecond := Document.normalize_of_isJson hq
  obtain ⟨held, hheld, hfits⟩ := exists_entries hdata hkind
  cases hid : documentKey id with
  | error e =>
    exact .fail (.encode e) (plan_update_of_error hkind hfirst hid)
      (plan_update_of_error hkind hsecond hid) (plan_update_of_error hkind hboth hid)
  | ok key =>
  cases hcurrent : held.lookup key with
  | none =>
    exact .leave .nothing (plan_update_of_none hkind hfirst hheld hid hcurrent)
      (plan_update_of_none hkind hsecond hheld hid hcurrent)
      (plan_update_of_none hkind hboth hheld hid hcurrent)
  | some current =>
    have hfiled := hfits.2 _ (Entries.mem_of_lookup hcurrent)
    obtain ⟨merged, hmerged⟩ := exists_merge hfiled (Fields.ofEntries laid)
    have htwice := merge_merge hkeys hmerged others
    obtain ⟨result, hresult⟩ := exists_merge hfiled
      (Fields.overlay (Fields.ofEntries laid) (Fields.ofEntries others))
    rw [hresult] at htwice
    have hbetween := entries_set_self hkind hheld (Entries.insert key merged held)
    have hthen :=
      plan_update_of_merged hkind hsecond hbetween hid (Entries.lookup_insert_self ..) htwice
    rw [Entries.insert_insert, Collections.set_set] at hthen
    exact .write _ _ _ _ (plan_update_of_merged hkind hfirst hheld hid hcurrent hmerged) hthen
      (plan_update_of_merged hkind hboth hheld hid hcurrent hresult)

theorem PlanAs.remember {s : Store} {first second once : Mutation}
    (h : PlanAs s first second once) : second.remember (first.remember s) = once.remember s := by
  cases h with
  | fail e hfirst hsecond honce =>
    rw [remember_of_error hfirst, remember_of_error hsecond, remember_of_error honce]
  | leave reply hfirst hsecond honce =>
    rw [remember_of_leave hfirst, remember_of_leave hsecond, remember_of_leave honce]
  | write between data made reply hfirst hsecond honce =>
    have hbetween : first.remember s = { s with data := between } := by
      rw [Mutation.remember, hfirst]
    rw [hbetween, Mutation.remember, hsecond, Mutation.remember, honce]

end Mutation

namespace Store

variable {s : Store} {disk : Disk}

/-- Persisting on a disk that accepts the file fails on the data, or replaces the file. -/
theorem persist_of_accepts (haccepts : disk.Accepts s.path) :
    (∃ e, Snapshot.dump s.indent s.data.toValue = .error e ∧ (s.persist disk).disk = disk) ∨
    ∃ text, Snapshot.dump s.indent s.data.toValue = .ok text ∧ (s.persist disk).reply = .ok () ∧
      disk.exchange s.path text.toUTF8 none = (.ok (), (s.persist disk).disk) := by
  cases hdump : Snapshot.dump s.indent s.data.toValue with
  | error e =>
    refine .inl ⟨e, rfl, ?_⟩
    unfold persist writeThrough
    rw [hdump]
    rfl
  | ok text =>
    have hreply : (s.persist disk).reply = .ok () := by
      have hok := haccepts text.toUTF8
      unfold persist writeThrough
      rw [hdump]
      dsimp only
      generalize disk.replace s.path text.toUTF8 none = result at hok ⊢
      obtain ⟨outcome, replaced⟩ := result
      obtain rfl : outcome = .ok () := hok
      rfl
    obtain ⟨-, text', htext', hexchange⟩ := persist_eq_ok hreply
    rw [hdump] at htext'
    cases htext'
    exact .inr ⟨text, rfl, hreply, hexchange⟩

/-- What was persisted in between is not seen, unless it can be written and what comes after it
cannot. -/
theorem persist_persist {between data : Collections}
    (hdumps : (∃ text, Snapshot.dump s.indent between.toValue = .ok text) →
      ∃ text, Snapshot.dump s.indent data.toValue = .ok text)
    (haccepts : disk.Accepts s.path)
    (hthen : (persist { s with data := between } disk).disk.Accepts s.path) :
    let after := (persist { s with data := between } disk).disk
    (persist { s with data } after).reply = (persist { s with data } disk).reply ∧
      (persist { s with data } after).disk.node s.path =
        (persist { s with data } disk).disk.node s.path := by
  intro after
  rcases persist_of_accepts (s := { s with data := between }) haccepts with
    ⟨e, -, hdisk⟩ | ⟨text, htext, -, hfirst⟩
  · rw [show after = disk from hdisk]
    exact ⟨rfl, rfl⟩
  obtain ⟨text', htext'⟩ := hdumps ⟨text, htext⟩
  rcases persist_of_accepts (s := { s with data }) haccepts with
    ⟨e, herror, -⟩ | ⟨once, htext', hreply, honce⟩
  · cases herror.symm.trans htext'
  rcases persist_of_accepts (s := { s with data }) hthen with
    ⟨e, herror, -⟩ | ⟨twice, htwice, hreply', hsecond⟩
  · cases herror.symm.trans htext'
  obtain rfl := Except.ok.inj (htext'.symm.trans htwice)
  exact ⟨hreply'.trans hreply.symm, Disk.node_exchange_exchange hfirst hsecond honce⟩

end Store

namespace Mutation

open Store

/-- **Mutations that plan as one** leave the same on a disk that accepts what they write. -/
theorem PlanAs.apply {s : Store} (hdata : s.data.WellFormed) {first second once : Mutation}
    (h : PlanAs s first second once) {disk : Disk} (haccepts : disk.Accepts s.path)
    (hthen : (first.apply s disk).disk.Accepts s.path) :
    let before := first.apply s disk
    let twice := second.apply before.store before.disk
    twice.reply = (once.apply s disk).reply ∧
      twice.disk.node s.path = (once.apply s disk).disk.node s.path := by
  dsimp only
  cases h with
  | fail e hfirst hsecond honce =>
    simp only [apply_eq_carryOut, hfirst, honce, Plan.carryOut, Step.fail, hsecond, and_self]
  | leave reply hfirst hsecond honce =>
    simp only [apply_eq_carryOut, hfirst, honce, Plan.carryOut, Step.done, hsecond, and_self]
  | write between data made reply hfirst hsecond honce =>
    have hstore : (first.apply s disk).store = { s with data := between } := by
      rw [first.apply_store, Mutation.remember, hfirst]
    have hdisk : (first.apply s disk).disk =
        (Store.persist { s with data := between } disk).disk := by
      rw [apply_eq_carryOut, hfirst]
      rfl
    have hbetween := wellFormed_of_plan hdata hfirst
    have hafter := wellFormed_of_plan (s := { s with data := between }) hbetween hsecond
    have hdumps : (∃ text, Snapshot.dump s.indent between.toValue = .ok text) →
        ∃ text, Snapshot.dump s.indent data.toValue = .ok text := by
      rw [Snapshot.exists_dump_toValue_iff hbetween, Snapshot.exists_dump_toValue_iff hafter,
        hbetween.finite_iff, hafter.finite_iff]
      exact And.imp_right fun hfinite =>
        finite_of_plan (s := { s with data := between }) hfinite hsecond
    rw [hdisk] at hthen
    obtain ⟨hreply, hnode⟩ := persist_persist hdumps haccepts hthen
    rw [hstore, hdisk, apply_eq_carryOut, hsecond, apply_eq_carryOut, honce]
    exact ⟨congrArg (Except.bind · fun _ => reply) hreply, hnode⟩

end Mutation

/-! ## Stores that were opened -/

namespace Store

section Opened

variable (settings : Settings) (disk : Disk) (path : Option FilePath) (strict : Option Bool)
  (stamp : String) (faults : OpenFaults) (actions : List (Mutation × Option ReplaceStep))

/-- **Two updates are one,** with the second patch laid over the first, whether there is a document
under the key or not, and whatever the patches say of the key field. The store is the same
afterwards, whatever the disk does. When the disk accepts what is written, so are the reply and what
stands where the snapshot is kept. -/
theorem update_update_of_opened_run (start : Disk) {s : Store}
    (hopen : (openWith settings disk path strict stamp faults).store = .ok s) {name field : String}
    (hkind : kindOf? name = some (.keyed field)) (id : Value) {p q : Document}
    (hp : (Value.object p).isJson Document.storedStyle.admits = true)
    (hq : (Value.object q).isJson Document.storedStyle.admits = true) :
    let run := (Mutation.applyAll s start actions).1
    let first := Mutation.update name id (.object p)
    let second := Mutation.update name id (.object q)
    let once := Mutation.update name id (.object (Fields.overlay p q))
    (∀ disk disk₁ disk₂ fault fault₁ fault₂,
      (second.apply (first.apply run disk fault).store disk₁ fault₁).store =
        (once.apply run disk₂ fault₂).store) ∧
    ∀ disk, let before := first.apply run disk
      disk.Accepts run.path → before.disk.Accepts run.path →
        let twice := second.apply before.store before.disk
        twice.reply = (once.apply run disk).reply ∧
          twice.disk.node run.path = (once.apply run disk).disk.node run.path := by
  intro run first second once
  have hdata : run.data.WellFormed := Mutation.wellFormed_applyAll start actions
    (wellFormed_openAt hopen)
  have hplans : Mutation.PlanAs run first second once := Mutation.planAs_update hdata hkind id hp hq
  constructor
  · intro disk disk₁ disk₂ fault fault₁ fault₂
    rw [Mutation.apply_store, Mutation.apply_store, Mutation.apply_store, hplans.remember]
  · exact fun disk haccepts hthen => hplans.apply hdata haccepts hthen

end Opened

/-- A snapshot in the working directory can be replaced, whatever is in it. -/
theorem accepts_barePath (content : ByteArray) :
    Disk.Accepts ⟨[(["db.json"], .file content fileMode)]⟩ barePath := by
  have hname : Disk.temporaryName ⟨[(["db.json"], .file content fileMode)]⟩ barePath =
      ".db.json.00000000.tmp" := rfl
  intro new
  refine Disk.replace_of_writable rfl ⟨⟨directoryMode, rfl⟩, rfl, rfl, rfl⟩ ?_ rfl rfl ?_ ?_ new
  · rintro mode ⟨⟩
  · rw [hname]
    rfl
  · rw [hname]
    decide

/-- So can the one on `bareDisk` after a mutation. -/
theorem accepts_apply_bareDisk {s : Store} (hpath : s.path = barePath) (m : Mutation) :
    (m.apply s bareDisk).disk.Accepts barePath := by
  rw [Mutation.apply_eq_carryOut]
  match m.plan s with
  | .error _ => exact accepts_barePath _
  | .ok (.leave _) => exact accepts_barePath _
  | .ok (.write data _) =>
    change (persist { s with data } bareDisk).disk.Accepts barePath
    rcases disk_persist { s with data } bareDisk none with hdisk | ⟨content, hdisk⟩
    · rw [hdisk]
      exact accepts_barePath _
    · have hsame : ({ s with data } : Store).path = barePath := hpath
      have hexchanged : (bareDisk.exchange barePath content none).2 =
          ⟨[(["db.json"], .file content fileMode)]⟩ := rfl
      rw [hdisk, hsame, hexchanged]
      exact accepts_barePath content

/-- The first of two patches would take the id away, and the second replaces what it adds. -/
theorem update_update_of_opened_run_nullId :
    let update patch := Mutation.update "users" (.str "u1") (.object patch)
    let run := (Mutation.applyAll ⟨barePath, false, some 2, .empty⟩ bareDisk
      [(.create "users" (.object (numbered (.str "u1"))), none)]).1
    let before := (update [(.str "id", .null), (.str "name", .str "a")]).apply run bareDisk
    let twice := (update [(.str "name", .str "b")]).apply before.store before.disk
    let once := (update [(.str "id", .null), (.str "name", .str "b")]).apply run bareDisk
    twice.store = once.store ∧ twice.reply = once.reply ∧
      twice.disk.node barePath = once.disk.node barePath := by
  have hp : (Value.object [(.str "id", .null), (.str "name", .str "a")]).isJson
      Document.storedStyle.admits = true := by
    simp [Value.isJson, Value.areJsonFields, Fields.getText?_cons_of_ne]
  have hq : (Value.object [(.str "name", .str "b")]).isJson Document.storedStyle.admits = true := by
    simp [Value.isJson, Value.areJsonFields]
  have hboth : Fields.overlay [(.str "id", .null), (.str "name", .str "a")]
      [(.str "name", .str "b")] = [(.str "id", .null), (.str "name", .str "b")] := by
    simp [Fields.insert, Value.alike]
  have hall := update_update_of_opened_run {} bareDisk (some barePath) none "" {}
    [(.create "users" (.object (numbered (.str "u1"))), none)] bareDisk openWith_bareDisk
    kindOf?_users (.str "u1") hp hq
  have hpath := (Mutation.applyAll_settings ⟨barePath, false, some 2, .empty⟩ bareDisk
    [(.create "users" (.object (numbered (.str "u1"))), none)]).1
  rw [hboth] at hall
  dsimp only at hall ⊢
  generalize (Mutation.applyAll ⟨barePath, false, some 2, .empty⟩ bareDisk
    [(.create "users" (.object (numbered (.str "u1"))), none)]).1 = run at hall hpath ⊢
  obtain ⟨hstore, hdisk⟩ := hall
  replace hpath : run.path = barePath := hpath
  rw [hpath] at hdisk
  obtain ⟨hreply, hnode⟩ := hdisk bareDisk (accepts_barePath _) (accepts_apply_bareDisk hpath _)
  exact ⟨hstore _ _ _ _ _ _, hreply, hnode⟩

end Store

end SnapshotStore
