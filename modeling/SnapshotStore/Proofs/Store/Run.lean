import SnapshotStore.Proofs.Disk.Replace
import SnapshotStore.Proofs.Store.Plan

/-!
# Runs of a store

A store is opened and then changed by mutations, one after the other, any of which may fail, and any
of whose writes may. Two invariants hold all along.

**Theorem (`wellFormed_of_opened_run`).** The data is well-formed.

**Theorem (`Mutation.load_applyAll`).** The snapshot loads as the data right after the last step
that put it in place (`Mutation.lastWritten`). A step that only fails to sync the directory has put
its snapshot in place (`Step.wrote`).

For each there is a lemma about one mutation, by its plan, and one about a run, by induction.
-/

namespace SnapshotStore

/-! ## Writing -/

/-- Whether a step put a new snapshot in place, also if it failed to sync the directory. -/
def Step.wrote {σ α : Type} (step : Step σ α) : Bool :=
  step.events.any fun
    | .persisted _ _ | .writeFailed _ (.unsynced _) => true
    | _ => false

/-- A write failed only to sync the directory: its snapshot is in place. -/
def Failure.Unsynced (failure : Failure) : Prop :=
  ∃ path cause, failure = .persistence path (.unsynced cause)

namespace Store

variable {s : Store} {disk : Disk} {fault : Option ReplaceStep}

@[simp] theorem persist_store : (s.persist disk fault).store = s := by
  unfold persist writeThrough
  split
  · rfl
  · split <;> rfl

/-- Persisting puts the text of the data in place, and returns unless it fails to sync; or it fails
and wrote nothing. -/
theorem persist_cases (s : Store) (disk : Disk) (fault : Option ReplaceStep) :
    ((s.persist disk fault).wrote = true ∧
      ((s.persist disk fault).reply = .ok () ∨
        ∃ failure, (s.persist disk fault).reply = .error failure ∧ failure.Unsynced) ∧
      ∃ text, Snapshot.dump s.indent s.data.toValue = .ok text ∧
        disk.exchange s.path text.toUTF8 fault = (.ok (), (s.persist disk fault).disk)) ∨
    ((s.persist disk fault).wrote = false ∧
      (∃ failure, (s.persist disk fault).reply = .error failure ∧ ¬ failure.Unsynced) ∧
      ((s.persist disk fault).disk = disk ∨ ∃ content cause,
        disk.exchange s.path content fault = (.error cause, (s.persist disk fault).disk))) := by
  unfold persist writeThrough
  cases htext : Snapshot.dump s.indent s.data.toValue with
  | error e => exact .inr ⟨rfl, ⟨_, rfl, by simp [Failure.Unsynced]⟩, .inl rfl⟩
  | ok text =>
    have hcases := disk.replace_cases s.path text.toUTF8 fault
    dsimp only
    generalize disk.replace s.path text.toUTF8 fault = result at hcases ⊢
    obtain ⟨outcome, disk'⟩ := result
    rcases hcases with ⟨cause, houtcome, hfailed⟩ | ⟨houtcome | ⟨cause, houtcome⟩, hexchanged⟩
    · obtain rfl : outcome = .error (.kept cause) := houtcome
      cases cause with
      | nulInPath =>
        exact .inr ⟨rfl, ⟨_, rfl, by simp [Failure.Unsynced]⟩, .inr ⟨_, _, hfailed⟩⟩
      | _ => exact .inr ⟨rfl, ⟨_, rfl, by simp [Failure.Unsynced]⟩, .inr ⟨_, _, hfailed⟩⟩
    · obtain rfl : outcome = .ok () := houtcome
      exact .inl ⟨rfl, .inl rfl, text, rfl, hexchanged⟩
    · obtain rfl : outcome = .error (.unsynced cause) := houtcome
      exact .inl ⟨rfl, .inr ⟨_, rfl, _, cause, rfl⟩, text, rfl, hexchanged⟩

/-- A write that puts its snapshot in place makes it load as the data. -/
theorem load_persist_of_wrote (hdata : s.data.WellFormed) (hreadable : disk.Readable s.path)
    (h : (s.persist disk fault).wrote = true) :
    (Snapshot.load (s.persist disk fault).disk s.path).outcome = .ok (some s.data) := by
  rcases s.persist_cases disk fault with ⟨-, -, text, htext, hreplace⟩ | ⟨hwrote, -⟩
  · rw [Snapshot.load_dump hdata htext (Disk.read_exchange hreadable hreplace)]
  · rw [h] at hwrote
    cases hwrote

/-- A write that does not leaves a snapshot that loads as it is. -/
theorem load_persist_of_not_wrote {written : Collections}
    (hload : (Snapshot.load disk s.path).outcome = .ok (some written))
    (h : (s.persist disk fault).wrote = false) :
    (Snapshot.load (s.persist disk fault).disk s.path).outcome = .ok (some written) := by
  obtain ⟨content, v, hread, hv, hcheck⟩ := Snapshot.load_eq_ok.mp hload
  rcases s.persist_cases disk fault with ⟨hwrote, -⟩ | ⟨-, -, hdisk | ⟨_, _, hreplace⟩⟩
  · rw [h] at hwrote
    cases hwrote
  · rwa [hdisk]
  · exact Snapshot.load_eq_ok.mpr
      ⟨content, v, Disk.read_exchange_error hread hreplace, hv, hcheck⟩

end Store

/-! ## One mutation -/

theorem Plan.carryOut_write_store (s : Store) (disk : Disk) (fault : Option ReplaceStep)
    (data : Collections) (reply : Except Failure Reply) :
    (carryOut s disk fault (.ok (.write data reply))).store = { s with data } :=
  Store.persist_store

namespace Mutation

/-- A mutation was to change a document that is not held. -/
def FoundNothing : Mutation → Reply → Prop
  | .update _ _ _, .nothing => True
  | .delete _ _, .removed false => True
  | _, _ => False

variable {s : Store} {disk : Disk} {fault : Option ReplaceStep}

theorem foundNothing_of_plan {m : Mutation} {reply : Reply} (h : m.plan s = .ok (.leave reply)) :
    m.FoundNothing reply := by
  cases m with
  | create name v =>
    obtain ⟨_, -, h⟩ := bind_eq_ok.mp h
    obtain ⟨_, -, h⟩ := bind_eq_ok.mp h
    cases h
  | append name v =>
    obtain ⟨k, -, h⟩ := bind_eq_ok.mp h
    cases k with
    | keyed field => cases h
    | appendOnly =>
      obtain ⟨_, -, h⟩ := bind_eq_ok.mp h
      obtain ⟨_, -, h⟩ := bind_eq_ok.mp h
      cases h
  | update name id patch =>
    obtain ⟨_, -, h⟩ := bind_eq_ok.mp h
    obtain ⟨_, -, h⟩ := bind_eq_ok.mp h
    obtain ⟨_, -, h⟩ := bind_eq_ok.mp h
    obtain ⟨_, -, h⟩ := bind_eq_ok.mp h
    split at h
    · cases h
      trivial
    · obtain ⟨_, -, h⟩ := bind_eq_ok.mp h
      cases h
  | delete name id =>
    obtain ⟨_, -, h⟩ := bind_eq_ok.mp h
    obtain ⟨_, -, h⟩ := bind_eq_ok.mp h
    obtain ⟨_, -, h⟩ := bind_eq_ok.mp h
    split at h
    · cases h
    · cases h
      trivial
  | persist => cases h

/-- What is written was not found missing. -/
theorem not_foundNothing_of_write {m : Mutation} {data : Collections} {reply : Reply}
    (hplan : m.plan s = .ok (.write data (.ok reply))) : ¬ m.FoundNothing reply := by
  have hwrites := writes_of_plan hplan
  generalize hmade : Except.ok reply = made at hwrites
  cases hwrites with
  | update =>
    obtain ⟨copied, -, hcopied⟩ := bind_eq_ok.mp hmade.symm
    cases hcopied
    exact id
  | delete =>
    cases hmade
    exact id
  | _ => exact id

/-- A mutation changes the data only. -/
theorem apply_settings (m : Mutation) (s : Store) (disk : Disk) (fault : Option ReplaceStep) :
    (m.apply s disk fault).store.path = s.path ∧
      (m.apply s disk fault).store.indent = s.indent := by
  rw [apply_eq_carryOut]
  match m.plan s with
  | .error _ => exact ⟨rfl, rfl⟩
  | .ok (.leave _) => exact ⟨rfl, rfl⟩
  | .ok (.write data _) =>
    rw [Plan.carryOut_write_store]
    exact ⟨rfl, rfl⟩

/-- **A mutation keeps data well-formed,** also when it fails. -/
theorem wellFormed_apply (m : Mutation) (hdata : s.data.WellFormed) :
    (m.apply s disk fault).store.data.WellFormed := by
  rw [apply_eq_carryOut]
  match hplan : m.plan s with
  | .error _ => exact hdata
  | .ok (.leave _) => exact hdata
  | .ok (.write data _) =>
    rw [Plan.carryOut_write_store]
    exact wellFormed_of_plan hdata hplan

/-- **The snapshot follows the data** at each mutation that writes it, and at no other. -/
theorem load_apply (m : Mutation) (fault : Option ReplaceStep) {written : Collections}
    (hdata : s.data.WellFormed)
    (hload : (Snapshot.load disk s.path).outcome = .ok (some written)) :
    (Snapshot.load (m.apply s disk fault).disk s.path).outcome =
      .ok (some (if (m.apply s disk fault).wrote then (m.apply s disk fault).store.data
        else written)) := by
  rw [apply_eq_carryOut]
  match hplan : m.plan s with
  | .error _ => exact hload
  | .ok (.leave _) => exact hload
  | .ok (.write data reply) =>
    have hnew := wellFormed_of_plan hdata hplan
    obtain ⟨content, -, hread, -⟩ := Snapshot.load_eq_ok.mp hload
    rw [Plan.carryOut_write_store]
    change (Snapshot.load (Store.persist { s with data } disk fault).disk s.path).outcome =
      .ok (some (if (Store.persist { s with data } disk fault).wrote then data else written))
    cases hwrote : (Store.persist { s with data } disk fault).wrote with
    | true => exact Store.load_persist_of_wrote hnew (Disk.readable_of_read hread) hwrote
    | false => exact Store.load_persist_of_not_wrote (s := { s with data }) hload hwrote

/-! ## Runs -/

/-- The data that the snapshot holds after mutations, when it held some before: that right after the
last mutation which wrote it. -/
def lastWritten (s : Store) (disk : Disk) (written : Collections) :
    List (Mutation × Option ReplaceStep) → Collections
  | [] => written
  | (m, fault) :: rest =>
    let step := m.apply s disk fault
    lastWritten step.store step.disk (if step.wrote then step.store.data else written) rest

theorem wellFormed_applyAll (disk : Disk) (actions : List (Mutation × Option ReplaceStep))
    (hdata : s.data.WellFormed) :
    (applyAll s disk actions).1.data.WellFormed := by
  induction actions generalizing s disk with
  | nil => exact hdata
  | cons action actions ih => exact ih _ (wellFormed_apply action.1 hdata)

theorem applyAll_settings (s : Store) (disk : Disk)
    (actions : List (Mutation × Option ReplaceStep)) :
    (applyAll s disk actions).1.path = s.path ∧ (applyAll s disk actions).1.indent = s.indent := by
  induction actions generalizing s disk with
  | nil => exact ⟨rfl, rfl⟩
  | cons action actions ih =>
    obtain ⟨hpath, hindent⟩ := apply_settings action.1 s disk action.2
    exact ⟨(ih _ _).1.trans hpath, (ih _ _).2.trans hindent⟩

theorem load_applyAll (actions : List (Mutation × Option ReplaceStep)) {written : Collections}
    (hdata : s.data.WellFormed)
    (hload : (Snapshot.load disk s.path).outcome = .ok (some written)) :
    (Snapshot.load (applyAll s disk actions).2.1 s.path).outcome =
      .ok (some (lastWritten s disk written actions)) := by
  induction actions generalizing s disk written with
  | nil => exact hload
  | cons action actions ih =>
    obtain ⟨m, fault⟩ := action
    have hpath := (m.apply_settings s disk fault).1
    have hstep := m.load_apply fault hdata hload
    rw [← hpath] at hstep ⊢
    exact ih (m.wellFormed_apply hdata) hstep

end Mutation

/-! ## Opening -/

namespace Store

variable {disk : Disk} {path : FilePath} {strict : Bool} {indent : Option Int} {stamp : String}
  {faults : OpenFaults} {s : Store}

/-- A store starts with no documents if they are written, unless the directory is not synced. -/
theorem bootstrap_cases (disk : Disk) (path : FilePath) (strict : Bool) (indent : Option Int)
    (fault : Option ReplaceStep) :
    ((persist ⟨path, strict, indent, .empty⟩ disk fault).wrote = true ∧
      ((bootstrap disk path strict indent fault).store = .ok ⟨path, strict, indent, .empty⟩ ∨
        ∃ failure, (bootstrap disk path strict indent fault).store = .error failure ∧
          failure.Unsynced)) ∨
    ((persist ⟨path, strict, indent, .empty⟩ disk fault).wrote = false ∧
      ∃ failure, (bootstrap disk path strict indent fault).store = .error failure ∧
        ¬ failure.Unsynced) := by
  unfold bootstrap
  dsimp only
  rw [persist_store]
  rcases persist_cases ⟨path, strict, indent, .empty⟩ disk fault with
    ⟨hwrote, hreply | ⟨failure, hreply, hsync⟩, -⟩ | ⟨hwrote, ⟨failure, hreply, hsync⟩, -⟩
  · exact .inl ⟨hwrote, .inl (by rw [hreply]; rfl)⟩
  · exact .inl ⟨hwrote, .inr ⟨failure, by rw [hreply]; rfl, hsync⟩⟩
  · exact .inr ⟨hwrote, failure, by rw [hreply]; rfl, hsync⟩

theorem bootstrap_eq_ok {fault : Option ReplaceStep}
    (h : (bootstrap disk path strict indent fault).store = .ok s) :
    s = ⟨path, strict, indent, .empty⟩ := by
  rcases bootstrap_cases disk path strict indent fault with
    ⟨-, hstore | ⟨failure, hstore, -⟩⟩ | ⟨-, failure, hstore, -⟩
  · exact Except.ok.inj (h.symm.trans hstore)
  · cases h.symm.trans hstore
  · cases h.symm.trans hstore

/-- A snapshot that is accepted is left as it is. -/
theorem openAt_of_load {data : Collections}
    (h : (Snapshot.load disk path).outcome = .ok (some data)) :
    openAt disk path strict indent stamp faults =
      ⟨disk, (Snapshot.load disk path).notices.map .notice ++ [.loaded path],
        .ok ⟨path, strict, indent, data⟩⟩ := by
  unfold openAt
  dsimp only
  rw [h]

/-- The data of an opened store is well-formed. -/
theorem wellFormed_openAt (h : (openAt disk path strict indent stamp faults).store = .ok s) :
    s.data.WellFormed := by
  unfold openAt at h
  dsimp only at h
  split at h
  · next data hload =>
    cases h
    exact Snapshot.wellFormed_load hload
  · rw [bootstrap_eq_ok h]
    exact Collections.WellFormed.empty
  · split at h
    · cases h
    · rw [bootstrap_eq_ok h]
      exact Collections.WellFormed.empty

theorem path_of_openAt (h : (openAt disk path strict indent stamp faults).store = .ok s) :
    s.path = path ∧ s.indent = indent := by
  unfold openAt at h
  dsimp only at h
  split at h
  · cases h
    exact ⟨rfl, rfl⟩
  · rw [bootstrap_eq_ok h]
    exact ⟨rfl, rfl⟩
  · split at h
    · cases h
    · rw [bootstrap_eq_ok h]
      exact ⟨rfl, rfl⟩

/-! ## Runs of opened stores -/

section Opened

variable (settings : Settings) (disk : Disk) (path : Option FilePath) (strict : Option Bool)
  (stamp : String) (faults : OpenFaults) (actions : List (Mutation × Option ReplaceStep))

/-- **All along a run of an opened store the data is well-formed,** whatever the mutations,
whichever of them fail, and whatever the disk does. So it passes the check of snapshots as it is. -/
theorem wellFormed_of_opened_run (disk' : Disk) {s : Store}
    (hopen : (openWith settings disk path strict stamp faults).store = .ok s) :
    (Mutation.applyAll s disk' actions).1.data.WellFormed ∧
      Snapshot.check (Mutation.applyAll s disk' actions).1.data.toValue =
        ⟨[], .ok (Mutation.applyAll s disk' actions).1.data⟩ := by
  have hdata : (Mutation.applyAll s disk' actions).1.data.WellFormed :=
    Mutation.wellFormed_applyAll disk' actions (wellFormed_openAt hopen)
  exact ⟨hdata, Snapshot.check_toValue hdata⟩

end Opened

/-- A disk whose working directory holds a snapshot without collections. -/
def bareDisk : Disk := ⟨[(["db.json"], .file "\x7b\x7d".toUTF8 fileMode)]⟩

/-- The path of that snapshot. -/
def barePath : FilePath := ⟨"", ["db.json"]⟩

theorem load_bareDisk : (Snapshot.load bareDisk barePath).outcome = .ok (some .empty) := by
  have hparse : Json.parse "\x7b\x7d" = .ok (.object []) := by
    simp only [Json.parse, String.reduceToList]
    rfl
  exact Snapshot.load_eq_ok.mpr ⟨_, _, by rfl, Snapshot.decode_toUTF8 hparse, by rfl⟩

theorem openWith_bareDisk :
    (openWith {} bareDisk (some barePath) none "" {}).store =
      .ok ⟨barePath, false, some 2, .empty⟩ :=
  congrArg Opened.store (openAt_of_load load_bareDisk)

theorem kindOf?_users : kindOf? "users" = some (.keyed "id") := rfl

theorem entries_bareStore :
    Store.entries ⟨barePath, false, some 2, .empty⟩ "users" = .ok [] := rfl

/-- A user without a name. -/
def namelessUser : Document := [(.str "id", .str "u1")]

/-- The same user with a name. -/
def namedUser : Document := [(.str "id", .str "u1"), (.str "name", .str "a")]

/-- Data with one user and nothing else. -/
def oneUser (user : Document) : Collections := Collections.empty.set "users" (.keyed [("u1", user)])

theorem plan_createUser : ∃ reply,
    (Mutation.create "users" (.object namelessUser)).plan ⟨barePath, false, some 2, .empty⟩ =
      .ok (.write (oneUser namelessUser) reply) := by
  have hid : Fields.getText? namelessUser "id" = some (.str "u1") := Fields.getText?_cons_self ..
  have hprepare : prepare "users" (.object namelessUser) = .ok ("u1", namelessUser) := by
    have hdoc : Document.normalize (.object namelessUser) = .ok namelessUser := rfl
    rw [prepare, keyField_eq_ok.mpr kindOf?_users, ok_bind, hdoc, Except.mapError, ok_bind, hid]
    rfl
  exact ⟨_, Mutation.plan_create hprepare entries_bareStore⟩

theorem plan_nameUser : ∃ reply,
    (Mutation.update "users" (.str "u1") (.object [(.str "name", .str "a")])).plan
        ⟨barePath, false, some 2, oneUser namelessUser⟩ =
      .ok (.write (oneUser namedUser) reply) := by
  have hpatch : Document.normalize (.object [(.str "name", .str "a")]) =
      .ok [(.str "name", .str "a")] := rfl
  have hid : Fields.getText? namelessUser "id" = some (.str "u1") := Fields.getText?_cons_self ..
  have hmerged : merge "id" namelessUser [(.str "name", .str "a")] = .ok namedUser := by
    rw [merge, hid]
    simp [namelessUser, namedUser, Fields.overlay, Fields.insert, Value.alike]
  have hheld : Store.entries ⟨barePath, false, some 2, oneUser namelessUser⟩ "users" =
      .ok [("u1", namelessUser)] := rfl
  have hkey : documentKey (.str "u1") = .ok "u1" := documentKey_eq_ok.mpr ⟨rfl, rfl⟩
  exact ⟨_, Mutation.plan_update_of_merged kindOf?_users hpatch hheld hkey rfl hmerged⟩

/-- A user who is created and then given a name, where the last write fails. -/
theorem wellFormed_of_opened_run_bareDisk :
    let s : Store := ⟨barePath, false, some 2, .empty⟩
    let run := (Mutation.applyAll s .empty
      [(.create "users" (.object namelessUser), none),
        (.update "users" (.str "u1") (.object [(.str "name", .str "a")]), some .write)]).1
    (openWith {} bareDisk (some barePath) none "" {}).store = .ok s ∧
      run.data = oneUser namedUser ∧ (oneUser namedUser).WellFormed ∧
      Snapshot.check (oneUser namedUser).toValue = ⟨[], .ok (oneUser namedUser)⟩ := by
  intro s run
  have hrun : run.data = oneUser namedUser := by
    obtain ⟨_, hcreate⟩ := plan_createUser
    obtain ⟨_, hname⟩ := plan_nameUser
    simp only [run, s, Mutation.applyAll, Mutation.apply_eq_carryOut, hcreate, hname,
      Plan.carryOut_write_store]
  have hwell := wellFormed_of_opened_run {} bareDisk (some barePath) none "" {}
    [(.create "users" (.object namelessUser), none),
      (.update "users" (.str "u1") (.object [(.str "name", .str "a")]), some .write)] .empty
    openWith_bareDisk
  rw [show (Mutation.applyAll _ _ _).1.data = _ from hrun] at hwell
  exact ⟨openWith_bareDisk, hrun, hwell⟩

end Store

end SnapshotStore
