import SnapshotStore.Proofs.Store.Faults

/-!
# Written snapshots

**Theorem (`load_of_opened_run`).** All along a run of an opened store the snapshot loads as the
data right after the last step that put it in place, or as the data the store was opened with if
none did, exactly if opening left a snapshot that may be read. Opening does, if the snapshot could
be read before or was moved aside.

**Theorem (`Mutation.wrote_iff`).** A step put its snapshot in place exactly when it returned, and
found something to change, or failed only to sync the directory.

A plan is made without the disk, so it does not fail on writing (`Mutation.WithoutWriting`). As to
what opening leaves, a file that could not be read, nor moved aside, keeps its mode when it is
replaced (`not_load_of_opened_run`).
-/

namespace SnapshotStore

namespace Mutation

open Store

variable {s : Store} {disk : Disk} {fault : Option ReplaceStep}

/-! ## Steps that wrote -/

/-- What does not fail on syncing a directory, since nothing is written yet. -/
def WithoutWriting {α : Type} (outcome : Except Failure α) : Prop :=
  ∀ failure, outcome = .error failure → ¬ failure.Unsynced

section WithoutWriting

variable {α β ε : Type} {outcome : Except Failure α}

theorem WithoutWriting.ok (a : α) : WithoutWriting (.ok a) := nofun

theorem WithoutWriting.error {failure : Failure} (h : ¬ failure.Unsynced) :
    WithoutWriting (.error failure : Except Failure α) := by
  rintro _ ⟨⟩
  exact h

theorem WithoutWriting.bind {f : α → Except Failure β} (h : WithoutWriting outcome)
    (hf : ∀ a, WithoutWriting (f a)) : WithoutWriting (outcome >>= f) := by
  intro failure hfailure
  rcases bind_eq_error.mp hfailure with herror | ⟨a, -, herror⟩
  · exact h failure herror
  · exact hf a failure herror

theorem WithoutWriting.mapError {f : ε → Failure} (hf : ∀ e, ¬ (f e).Unsynced)
    (computed : Except ε α) : WithoutWriting (computed.mapError f) := by
  cases computed with
  | ok a => exact .ok a
  | error e => exact .error (hf e)

end WithoutWriting

theorem withoutWriting_kind (name : String) : WithoutWriting (kind name) := by
  unfold kind
  split
  · exact .ok _
  · exact .error (by simp [Failure.Unsynced])

theorem withoutWriting_keyField (operation name : String) :
    WithoutWriting (keyField operation name) := by
  refine (withoutWriting_kind name).bind fun kind => ?_
  cases kind with
  | keyed field => exact .ok field
  | appendOnly => exact .error (by simp [Failure.Unsynced])

theorem withoutWriting_contents (s : Store) (name : String) : WithoutWriting (s.contents name) := by
  refine (withoutWriting_kind name).bind fun _ => ?_
  split
  · exact .ok _
  · exact .error (by simp [Failure.Unsynced])

theorem withoutWriting_entries (s : Store) (name : String) : WithoutWriting (s.entries name) := by
  refine (withoutWriting_contents s name).bind fun contents => ?_
  cases contents with
  | keyed entries => exact .ok entries
  | appendOnly docs => exact .error (by simp [Failure.Unsynced])

theorem withoutWriting_log (s : Store) (name : String) : WithoutWriting (s.log name) := by
  refine (withoutWriting_contents s name).bind fun contents => ?_
  cases contents with
  | keyed entries => exact .error (by simp [Failure.Unsynced])
  | appendOnly docs => exact .ok docs

theorem withoutWriting_normalize (v : Value) :
    WithoutWriting ((Document.normalize v).mapError .document) :=
  .mapError (fun _ => by simp [Failure.Unsynced]) _

theorem withoutWriting_key (id : Value) : WithoutWriting (Store.key id) :=
  .mapError (fun _ => by simp [Failure.Unsynced]) _

theorem withoutWriting_prepare (name : String) (v : Value) : WithoutWriting (prepare name v) := by
  refine (withoutWriting_keyField _ _).bind fun field => ?_
  refine (withoutWriting_normalize v).bind fun doc => ?_
  split
  · exact .error (by simp [Failure.Unsynced])
  · exact (withoutWriting_key _).bind fun _ => .ok _

theorem withoutWriting_merge (field : String) (current patch : Document) :
    WithoutWriting (merge field current patch) := by
  unfold merge
  split
  · exact .ok _
  · exact .error (by simp [Failure.Unsynced])

/-- **No plan fails on writing.** -/
theorem withoutWriting_plan (m : Mutation) (s : Store) : WithoutWriting (m.plan s) := by
  cases m with
  | create name v =>
    refine (withoutWriting_prepare name v).bind fun _ => ?_
    exact (withoutWriting_entries s name).bind fun _ => .ok _
  | append name v =>
    refine (withoutWriting_kind name).bind fun kind => ?_
    cases kind with
    | keyed field => exact .error (by simp [Failure.Unsynced])
    | appendOnly =>
      refine (withoutWriting_normalize v).bind fun _ => ?_
      exact (withoutWriting_log s name).bind fun _ => .ok _
  | update name id patch =>
    refine (withoutWriting_keyField _ _).bind fun field => ?_
    refine (withoutWriting_normalize patch).bind fun _ => ?_
    refine (withoutWriting_key id).bind fun key => ?_
    refine (withoutWriting_entries s name).bind fun entries => ?_
    cases entries.lookup key with
    | none => exact .ok _
    | some current => exact (withoutWriting_merge _ current _).bind fun _ => .ok _
  | delete name id =>
    refine (withoutWriting_keyField _ _).bind fun _ => ?_
    refine (withoutWriting_key id).bind fun key => ?_
    refine (withoutWriting_entries s name).bind fun entries => ?_
    split_ifs
    · exact .ok _
    · exact .ok _
  | persist => exact .ok _

/-- **A mutation wrote exactly when it returned,** and found something to change, or failed only to
sync the directory. -/
theorem wrote_iff (m : Mutation) (hdata : s.data.WellFormed) :
    (m.apply s disk fault).wrote = true ↔
      (∃ reply, (m.apply s disk fault).reply = .ok reply ∧ ¬ m.FoundNothing reply) ∨
        ∃ failure, (m.apply s disk fault).reply = .error failure ∧ failure.Unsynced := by
  rw [apply_eq_carryOut]
  match hplan : m.plan s with
  | .error failure =>
    have hnot := withoutWriting_plan m s failure hplan
    simp [Plan.carryOut, Step.fail, Step.wrote, hnot]
  | .ok (.leave reply) =>
    have hfound := foundNothing_of_plan hplan
    simp [Plan.carryOut, Step.done, Step.wrote, hfound]
  | .ok (.write data reply) =>
    obtain ⟨made, rfl⟩ := exists_reply_of_plan hdata hplan
    have hfound := not_foundNothing_of_write hplan
    change (Store.persist { s with data } disk fault).wrote = true ↔
      (∃ reply, ((Store.persist { s with data } disk fault).reply.bind fun _ => .ok made) =
          .ok reply ∧ ¬ m.FoundNothing reply) ∨
        ∃ failure, ((Store.persist { s with data } disk fault).reply.bind fun _ => .ok made) =
          .error failure ∧ failure.Unsynced
    rcases persist_cases { s with data } disk fault with
      ⟨hwrote, hreply | ⟨failure, hreply, hsync⟩, -⟩ | ⟨hwrote, ⟨failure, hreply, hsync⟩, -⟩
    · simp [hwrote, hreply, Except.bind, hfound]
    · simp [hwrote, hreply, Except.bind, hsync]
    · simp [hwrote, hreply, Except.bind, hsync]

end Mutation

/-! ## Snapshots that may be read -/

namespace Store

variable {s : Store} {disk : Disk}

/-- Opening leaves a snapshot that may be read, if it could be read before or was moved aside. -/
theorem readable_openAt {path : FilePath} {strict : Bool} {indent : Option Int} {stamp : String}
    {faults : OpenFaults} (hopen : (openAt disk path strict indent stamp faults).store = .ok s)
    (h : disk.Readable path ∨ ∃ e moved, (Snapshot.load disk path).outcome = .error e ∧
      Disk.attempt faults.moveAside (disk.rename path (asidePath path stamp)) = .ok moved) :
    (openAt disk path strict indent stamp faults).disk.Readable path := by
  cases hload : (Snapshot.load disk path).outcome with
  | ok loaded =>
    cases loaded with
    | some data =>
      obtain ⟨content, -, hread, -⟩ := Snapshot.load_eq_ok.mp hload
      rw [openAt_of_load hload]
      exact Disk.readable_of_read hread
    | none =>
      rw [openAt_of_missing hload] at hopen ⊢
      rcases h with hreadable | ⟨e, -, herror, -⟩
      · exact readable_bootstrap hreadable hopen
      · cases hload.symm.trans herror
  | error e =>
    cases hmoved : Disk.attempt faults.moveAside (disk.rename path (asidePath path stamp)) with
    | ok moved =>
      rw [openAt_of_reset hload (moveAside_of_rename hmoved)] at hopen ⊢
      exact readable_bootstrap (readable_of_movedAside (Disk.attempt_eq_ok.mp hmoved).2) hopen
    | error cause =>
      have hreadable : disk.Readable path := by
        rcases h with hreadable | ⟨-, moved, -, hsome⟩
        · exact hreadable
        · cases hmoved.symm.trans hsome
      rcases moveAside_of_rename_error hmoved with ⟨failure, hmove, -⟩ | hmove
      · rw [openAt_of_failure hload hmove] at hopen
        cases hopen
      · rw [openAt_of_reset hload hmove] at hopen ⊢
        exact readable_bootstrap hreadable hopen

/-- What loads may be read. -/
theorem readable_of_load {path : FilePath} {data : Collections}
    (h : (Snapshot.load disk path).outcome = .ok (some data)) : disk.Readable path := by
  obtain ⟨content, -, hread, -⟩ := Snapshot.load_eq_ok.mp h
  exact Disk.readable_of_read hread

/-! ## Runs of opened stores -/

section Opened

variable (settings : Settings) (disk : Disk) (path : Option FilePath) (strict : Option Bool)
  (stamp : String) (faults : OpenFaults) (actions : List (Mutation × Option ReplaceStep))

/-- **All along a run of an opened store the snapshot loads as what was last put in place,** if
opening left a snapshot that may be read: one that could be read before, or a new one where the old
one was moved aside. So it loads as the current data after each mutation that returns, unless that
found nothing to change, and after each that fails only to sync the directory. -/
theorem load_of_opened_run {s : Store}
    (hopen : (openWith settings disk path strict stamp faults).store = .ok s) :
    let opened := openWith settings disk path strict stamp faults
    let run := Mutation.applyAll s opened.disk actions
    ((disk.Readable s.path ∨ ∃ e moved, (Snapshot.load disk s.path).outcome = .error e ∧
        Disk.attempt faults.moveAside (disk.rename s.path (asidePath s.path stamp)) = .ok moved) →
      opened.disk.Readable s.path) ∧
    ((Snapshot.load run.2.1 s.path).outcome =
        .ok (some (Mutation.lastWritten s opened.disk s.data actions)) ↔
      opened.disk.Readable s.path) ∧
    ∀ (m : Mutation) (fault : Option ReplaceStep), let step := m.apply run.1 run.2.1 fault
      (step.wrote = true ↔ (∃ reply, step.reply = .ok reply ∧ ¬ m.FoundNothing reply) ∨
        ∃ failure, step.reply = .error failure ∧ failure.Unsynced) ∧
      (step.wrote = true →
        ((Snapshot.load step.disk s.path).outcome = .ok (some step.store.data) ↔
          opened.disk.Readable s.path)) := by
  intro opened run
  have hdata : s.data.WellFormed := wellFormed_openAt hopen
  have hpath : s.path = path.getD settings.snapshotPath := (path_of_openAt hopen).1
  obtain ⟨content, mode, hnode⟩ := hasFile_openAt hopen
  have hmode : opened.disk.HasMode s.path mode := ⟨content, hnode⟩
  have hload (hreadable : opened.disk.Readable s.path) :
      (Snapshot.load run.2.1 s.path).outcome =
        .ok (some (Mutation.lastWritten s opened.disk s.data actions)) := by
    refine Mutation.load_applyAll actions hdata ?_
    rw [hpath] at hreadable ⊢
    exact load_openAt hopen hreadable
  have hmodeRun : run.2.1.HasMode s.path mode := Mutation.hasMode_applyAll actions hmode
  have hsame : run.1.path = s.path := (Mutation.applyAll_settings s opened.disk actions).1
  have hrun : run.1.data.WellFormed := Mutation.wellFormed_applyAll opened.disk actions hdata
  refine ⟨fun h => ?_, ⟨fun h => ?_, hload⟩, fun m fault => ?_⟩
  · rw [hpath] at h ⊢
    exact readable_openAt hopen h
  · rw [hmode.readable_iff, ← hmodeRun.readable_iff]
    exact readable_of_load h
  · refine ⟨m.wrote_iff hrun, fun hwrote => ⟨fun h => ?_, fun hreadable => ?_⟩⟩
    · have hmodeStep : (m.apply run.1 run.2.1 fault).disk.HasMode s.path mode :=
        hsame ▸ m.hasMode_apply (hsame.symm ▸ hmodeRun) fault
      rw [hmode.readable_iff, ← hmodeStep.readable_iff]
      exact readable_of_load h
    · have hstep := m.load_apply fault hrun (hsame.symm ▸ hload hreadable)
      rwa [hwrote, if_pos rfl, hsame] at hstep

end Opened

/-- An order without anything in it. -/
def emptyOrder : Mutation := .append "orders" (.object [])

/-- The data with one such order. -/
def oneOrder : Collections := Collections.empty.set "orders" (.appendOnly [[]])

theorem adds_emptyOrder : emptyOrder.Adds := ⟨rfl, [], rfl⟩

/-- An empty order is added wherever the disk accepts the file. -/
theorem reply_emptyOrder {s : Store} {disk : Disk} (hdata : s.data.WellFormed)
    (hindent : Snapshot.IndentFits s.indent) (hfinite : s.data.Finite)
    (haccepts : disk.Accepts s.path) : ∃ reply, (emptyOrder.apply s disk).reply = .ok reply :=
  (Mutation.reply_apply_iff adds_emptyOrder hdata haccepts).mpr
    ⟨hindent, Mutation.finite_apply _ hdata hfinite⟩

theorem oneOrder_fine : oneOrder.WellFormed ∧ oneOrder.Finite := by
  have hdata : Collections.empty.WellFormed := .empty
  have hstore : (emptyOrder.apply ⟨barePath, false, some 2, .empty⟩ bareDisk).store.data =
      oneOrder := by
    rw [Mutation.apply_store]
    rfl
  rw [← hstore]
  exact ⟨Mutation.wellFormed_apply emptyOrder hdata,
    Mutation.finite_apply emptyOrder hdata finite_empty⟩

/-- An order that fails to be written is written with the next one. -/
theorem load_of_opened_run_bareDisk :
    let s : Store := ⟨barePath, false, some 2, .empty⟩
    let opened := openWith {} bareDisk (some barePath) none "" {}
    let run := Mutation.applyAll s bareDisk [(emptyOrder, some .rename)]
    let step := emptyOrder.apply run.1 run.2.1
    (opened.store = .ok s ∧ opened.disk = bareDisk) ∧
      (run.1.data.lookup "orders" = some (.appendOnly [[]]) ∧
        (Snapshot.load run.2.1 barePath).outcome = .ok (some .empty)) ∧
      step.store.data.lookup "orders" = some (.appendOnly [[], []]) ∧
        (Snapshot.load step.disk barePath).outcome = .ok (some step.store.data) := by
  intro s opened run step
  have hdisk : opened.disk = bareDisk := congrArg Opened.disk (openAt_of_load load_bareDisk)
  obtain ⟨hopened, hload, hsteps⟩ := load_of_opened_run {} bareDisk (some barePath) none "" {}
    [(emptyOrder, some .rename)] openWith_bareDisk
  have hreadable := hopened (.inl (readable_of_load load_bareDisk))
  rw [show (openWith {} bareDisk (some barePath) none "" {}).disk = bareDisk from hdisk]
    at hload hsteps hreadable
  have hlast : Mutation.lastWritten ⟨barePath, false, some 2, .empty⟩ bareDisk .empty
      [(emptyOrder, some .rename)] = .empty := by
    rfl
  have hstore : (Mutation.applyAll ⟨barePath, false, some 2, .empty⟩ bareDisk
      [(emptyOrder, some .rename)]).1 = ⟨barePath, false, some 2, oneOrder⟩ := by
    rfl
  have hafter : (Mutation.applyAll ⟨barePath, false, some 2, .empty⟩ bareDisk
      [(emptyOrder, some .rename)]).2.1 = bareDisk := by
    rfl
  replace hload := (hload.mpr hreadable).trans (congrArg (Except.ok ∘ some) hlast)
  obtain ⟨hwrote, hcurrent⟩ := hsteps emptyOrder none
  have hnext : step = emptyOrder.apply ⟨barePath, false, some 2, oneOrder⟩ bareDisk := by
    change emptyOrder.apply (Mutation.applyAll ⟨barePath, false, some 2, .empty⟩ bareDisk
      [(emptyOrder, some .rename)]).1 _ = _
    rw [hstore, hafter]
  rw [hstore, hafter, ← hnext] at hwrote hcurrent
  have hreply : ∃ reply, step.reply = .ok reply := by
    rw [hnext]
    exact reply_emptyOrder oneOrder_fine.1 indentFits_default oneOrder_fine.2 fun _ => rfl
  obtain ⟨reply, hreply⟩ := hreply
  refine ⟨⟨openWith_bareDisk, hdisk⟩, ⟨?_, hload⟩, ?_,
    (hcurrent (hwrote.mpr (.inl ⟨reply, hreply, id⟩))).mpr hreadable⟩
  · rw [show run.1 = _ from hstore]
    rfl
  · rw [hnext, Mutation.apply_store]
    rfl

/-- A disk whose working directory holds a directory that may be written but not listed, and in it a
snapshot without collections. -/
def shutDisk : Disk :=
  ⟨[(["d"], .directory 0o300), (["d", "db.json"], .file "\x7b\x7d".toUTF8 fileMode)]⟩

/-- The path of that snapshot. -/
def shutPath : FilePath := ⟨"", ["d", "db.json"]⟩

theorem load_shutDisk : (Snapshot.load shutDisk shutPath).outcome = .ok (some .empty) := by
  obtain ⟨_, v, hread, hdecode, hcheck⟩ := Snapshot.load_eq_ok.mp load_bareDisk
  exact Snapshot.load_eq_ok.mpr ⟨_, v, hread, hdecode, hcheck⟩

/-- There a file is exchanged, and its directory is not synced. -/
theorem replace_shutDisk (content : ByteArray) :
    (shutDisk.replace shutPath content none).1 = .error (.unsynced .denied) :=
  rfl

theorem reply_shutDisk :
    (emptyOrder.apply ⟨shutPath, false, some 2, .empty⟩ shutDisk).reply =
      .error (.persistence shutPath (.unsynced .denied)) := by
  have hplan : emptyOrder.plan ⟨shutPath, false, some 2, .empty⟩ =
      .ok (.write oneOrder (.ok (.document []))) := rfl
  obtain ⟨text, htext⟩ := (Snapshot.exists_dump_toValue_iff oneOrder_fine.1).mpr
    ⟨indentFits_default, oneOrder_fine.2⟩
  have hreplace := replace_shutDisk text.toUTF8
  have hpersist : (persist ⟨shutPath, false, some 2, oneOrder⟩ shutDisk).reply =
      .error (.persistence shutPath (.unsynced .denied)) := by
    unfold persist writeThrough
    rw [show Snapshot.dump _ _ = _ from htext]
    dsimp only
    generalize shutDisk.replace shutPath text.toUTF8 none = result at hreplace ⊢
    obtain ⟨outcome, replaced⟩ := result
    obtain rfl : outcome = _ := hreplace
    rfl
  rw [Mutation.apply_eq_carryOut, hplan]
  exact congrArg (Except.bind · fun _ => .ok (.document [])) hpersist

/-- Where a snapshot may not be read and cannot be moved aside, a mutation returns and the snapshot
does not load. Where its directory cannot be listed, a mutation fails to write, and the snapshot
loads as what it was to write. -/
theorem not_load_of_opened_run :
    (∃ opened, openWith {} lockedDisk (some longPath) none "20260101000000" = opened ∧
      opened.store = .ok lockedStore ∧ let step := emptyOrder.apply lockedStore opened.disk
        (∃ reply, step.reply = .ok reply) ∧
          (Snapshot.load step.disk longPath).outcome ≠ .ok (some step.store.data)) ∧
    let s : Store := ⟨shutPath, false, some 2, .empty⟩
    let opened := openWith {} shutDisk (some shutPath) none ""
    opened.store = .ok s ∧
      let step := emptyOrder.apply s opened.disk
      step.reply = .error (.persistence shutPath (.unsynced .denied)) ∧
        (Snapshot.load step.disk shutPath).outcome = .ok (some oneOrder) := by
  constructor
  · obtain ⟨hstore, hdisk⟩ := openWith_lockedDisk
    refine ⟨_, rfl, hstore, ?_⟩
    rw [hdisk]
    have hmode : (lockedStore.persist lockedDisk).disk.HasMode lockedStore.path 0 :=
      hasMode_persist (s := lockedStore) hasMode_lockedDisk none
    have haccepts : (lockedStore.persist lockedDisk).disk.Accepts lockedStore.path :=
      accepts_longPath_persist lockedStore rfl writable_lockedDisk (by decide) hasMode_lockedDisk
    refine ⟨reply_emptyOrder .empty indentFits_default finite_empty haccepts, fun hload => ?_⟩
    have hbit := (emptyOrder.hasMode_apply hmode none).readable_iff.mp (readable_of_load hload)
    exact absurd hbit (by decide)
  · intro s opened
    have hopen : opened = _ := openAt_of_load load_shutDisk
    have hdisk : opened.disk = shutDisk := congrArg Opened.disk hopen
    refine ⟨congrArg Opened.store hopen, ?_⟩
    rw [hdisk]
    have hdata : s.data.WellFormed := .empty
    have hload := emptyOrder.load_apply (s := s) none hdata load_shutDisk
    rw [(emptyOrder.wrote_iff hdata).mpr (.inr ⟨_, reply_shutDisk, _, _, rfl⟩), if_pos rfl,
      Mutation.apply_store] at hload
    exact ⟨reply_shutDisk, hload⟩

end Store

end SnapshotStore
