import SnapshotStore.Proofs.Disk.NulFree
import SnapshotStore.Proofs.Store.Open

/-!
# Faults of the disk

A mutation decides what the data will be, and what it will reply, before it writes anything
(`Mutation.plan`). So faults of the disk show in two ways only: in what is on the disk, and in that
a mutation fails to persist where it was to reply.

**Theorem (`run_despite_faults`).** Two runs of the same mutations from an opened store hold the
same data after each of them, whatever the disk does in either, and their outcomes differ only in
failures to persist. Once the data is written after such a run, the snapshot loads as all of it, if
opening the store left a snapshot that may be read.

The data after a run is a function of the mutations alone (`remember`). It is the mode of the
snapshot that a run cannot mend: a file keeps its mode when it is replaced, so one that may not be
read, and that could not be moved aside, is never read again (`not_load_lockedDisk`).
-/

namespace SnapshotStore

/-! ## Without the disk -/

namespace Mutation

open Store

/-- The store after a mutation. The disk has no part in it. -/
def remember (s : Store) (m : Mutation) : Store :=
  match m.plan s with
  | .ok (.write data _) => { s with data }
  | _ => s

/-- What comes of a mutation when what it writes is written. -/
def outcome (s : Store) (m : Mutation) : Except Failure Reply := do
  match ← m.plan s with
  | .leave reply => .ok reply
  | .write data reply =>
    let _ ← (Snapshot.dump s.indent data.toValue).mapError .encode
    reply

variable {s : Store}

theorem apply_store (m : Mutation) (s : Store) (disk : Disk) (fault : Option ReplaceStep) :
    (m.apply s disk fault).store = m.remember s := by
  rw [apply_eq_carryOut, remember]
  match m.plan s with
  | .error _ => rfl
  | .ok (.leave _) => rfl
  | .ok (.write data _) => exact Plan.carryOut_write_store ..

/-- **What a store holds after mutations** does not depend on the disk, nor on its faults. -/
theorem applyAll_store (s : Store) (disk : Disk) (actions : List (Mutation × Option ReplaceStep)) :
    (applyAll s disk actions).1 = (actions.map Prod.fst).foldl (fun s m => m.remember s) s := by
  induction actions generalizing s disk with
  | nil => rfl
  | cons action actions ih =>
    rw [List.map_cons, List.foldl_cons, ← apply_store action.1 s disk action.2]
    exact ih _ _

/-- A planned reply is made: what is handed out is a document in its stored form. -/
theorem exists_reply_of_plan {m : Mutation} {data : Collections} {reply : Except Failure Reply}
    (hdata : s.data.WellFormed) (h : m.plan s = .ok (.write data reply)) :
    ∃ made, reply = .ok made := by
  have hcopy {doc : Document} (hdoc : doc.Stored) : ∃ copied, copy doc = .ok copied :=
    (Document.exists_copy hdoc).imp fun _ hcopied => mapError_eq_ok.mpr hcopied
  have hmade {doc : Document} (hdoc : doc.Stored) :
      ∃ made, (do .ok (Reply.document (← copy doc))) = Except.ok made := by
    obtain ⟨copied, hcopied⟩ := hcopy hdoc
    exact ⟨_, bind_eq_ok.mpr ⟨copied, hcopied, rfl⟩⟩
  cases writes_of_plan h with
  | create hprepare =>
    obtain ⟨-, -, hdoc, -⟩ := prepare_eq_ok hprepare
    exact hmade (Document.stored_normalize hdoc)
  | append _ hdoc => exact hmade (Document.stored_normalize hdoc)
  | update hkind hpatch hkey hheld hcurrent hmerged =>
    have hfits := hdata.fits_of_lookup (lookup_of_entries hheld) hkind
    have hstored := (hfits.2 _ (Entries.mem_of_lookup hcurrent)).stored
    exact hmade (isJson_merge hstored (Document.stored_normalize hpatch) hmerged)
  | delete => exact ⟨_, rfl⟩
  | persist => exact ⟨_, rfl⟩

end Mutation

/-! ## Outcomes -/

/-- What comes of an operation is what is meant to, or it fails to persist where it was to reply. -/
def AsMeant {α : Type} (path : FilePath) (meant outcome : Except Failure α) : Prop :=
  outcome = meant ∨
    (∃ reply, meant = .ok reply) ∧ ∃ cause, outcome = .error (.persistence path cause)

section

variable {α : Type} {path : FilePath} {meant outcome outcome' : Except Failure α}

theorem AsMeant.bind {β : Type} (h : AsMeant path meant outcome) (f : α → β) :
    AsMeant path (meant.bind fun a => .ok (f a)) (outcome.bind fun a => .ok (f a)) := by
  rcases h with rfl | ⟨⟨reply, rfl⟩, cause, rfl⟩
  · exact .inl rfl
  · exact .inr ⟨⟨_, rfl⟩, cause, rfl⟩

end

namespace Store

variable {s : Store}

end Store

namespace Mutation

variable {s : Store}

end Mutation

/-! ## The mode of the snapshot -/

namespace Store

variable {s : Store} {disk : Disk} {fault : Option ReplaceStep} {mode : Nat}

/-- Persisting leaves the disk as it is, or exchanges the snapshot with what comes of that. -/
theorem disk_persist (s : Store) (disk : Disk) (fault : Option ReplaceStep) :
    (s.persist disk fault).disk = disk ∨
      ∃ content, (s.persist disk fault).disk = (disk.exchange s.path content fault).2 := by
  rcases s.persist_cases disk fault with
    ⟨-, -, text, -, hexchange⟩ | ⟨-, -, hdisk | ⟨content, cause, hexchange⟩⟩
  · exact .inr ⟨text.toUTF8, (congrArg Prod.snd hexchange).symm⟩
  · exact .inl hdisk
  · exact .inr ⟨content, (congrArg Prod.snd hexchange).symm⟩

theorem hasMode_persist (hmode : disk.HasMode s.path mode) (fault : Option ReplaceStep) :
    (s.persist disk fault).disk.HasMode s.path mode := by
  rcases s.disk_persist disk fault with hdisk | ⟨content, hdisk⟩
  · rwa [hdisk]
  · rw [hdisk]
    exact hmode.exchange content fault

/-- Persisting that returns has put the text of the data in place. -/
theorem persist_eq_ok (hreply : (s.persist disk fault).reply = .ok ()) :
    (s.persist disk fault).wrote = true ∧
      ∃ text, Snapshot.dump s.indent s.data.toValue = .ok text ∧
        disk.exchange s.path text.toUTF8 fault = (.ok (), (s.persist disk fault).disk) := by
  rcases s.persist_cases disk fault with ⟨hwrote, -, hexchanged⟩ | ⟨-, ⟨failure, hfailed, -⟩, -⟩
  · exact ⟨hwrote, hexchanged⟩
  · rw [hreply] at hfailed
    cases hfailed

/-- An opened store has its data from a snapshot that was accepted, or has put one without documents
in place. -/
theorem openAt_cases {path : FilePath} {strict : Bool} {indent : Option Int} {stamp : String}
    {faults : OpenFaults} (h : (openAt disk path strict indent stamp faults).store = .ok s) :
    (Snapshot.load (openAt disk path strict indent stamp faults).disk path).outcome =
        .ok (some s.data) ∨
      HoldsBaseline (openAt disk path strict indent stamp faults).disk path indent ∧
        s.data = .empty := by
  generalize hopened : openAt disk path strict indent stamp faults = opened at h ⊢
  unfold openAt at hopened
  dsimp only at hopened
  split at hopened
  · next data hload =>
    subst hopened
    cases h
    exact .inl hload
  · subst hopened
    exact .inr ⟨holdsBaseline_bootstrap (.inl ⟨s, h⟩), by rw [bootstrap_eq_ok h]⟩
  · split at hopened
    · subst hopened
      cases h
    · subst hopened
      exact .inr ⟨holdsBaseline_bootstrap (.inl ⟨s, h⟩), by rw [bootstrap_eq_ok h]⟩

/-- An opened store has a snapshot, if only one that may not be read. -/
theorem hasFile_openAt {path : FilePath} {strict : Bool} {indent : Option Int} {stamp : String}
    {faults : OpenFaults} (h : (openAt disk path strict indent stamp faults).store = .ok s) :
    ∃ content, (openAt disk path strict indent stamp faults).disk.HasFile s.path content := by
  rw [(path_of_openAt h).1]
  rcases openAt_cases h with hload | ⟨⟨text, -, hfile⟩, -⟩
  · obtain ⟨content, -, hread, -⟩ := Snapshot.load_eq_ok.mp hload
    exact ⟨content, Disk.hasFile_of_read hread⟩
  · exact ⟨_, hfile⟩

/-- **The snapshot of an opened store loads as its data** if it may be read. -/
theorem load_openAt {path : FilePath} {strict : Bool} {indent : Option Int} {stamp : String}
    {faults : OpenFaults} (h : (openAt disk path strict indent stamp faults).store = .ok s)
    (hreadable : (openAt disk path strict indent stamp faults).disk.Readable path) :
    (Snapshot.load (openAt disk path strict indent stamp faults).disk path).outcome =
      .ok (some s.data) := by
  rcases openAt_cases h with hload | ⟨hbaseline, hdata⟩
  · exact hload
  · rw [hdata]
    exact hbaseline.load hreadable

end Store

namespace Mutation

variable {s : Store} {disk : Disk} {mode : Nat}

/-- A mutation keeps the mode of the snapshot. -/
theorem hasMode_apply (m : Mutation) (hmode : disk.HasMode s.path mode)
    (fault : Option ReplaceStep) : (m.apply s disk fault).disk.HasMode s.path mode := by
  rw [apply_eq_carryOut]
  match m.plan s with
  | .error _ => exact hmode
  | .ok (.leave _) => exact hmode
  | .ok (.write data _) => exact Store.hasMode_persist (s := { s with data }) hmode fault

theorem hasMode_applyAll (actions : List (Mutation × Option ReplaceStep))
    (hmode : disk.HasMode s.path mode) : (applyAll s disk actions).2.1.HasMode s.path mode := by
  induction actions generalizing s disk with
  | nil => exact hmode
  | cons action actions ih =>
    obtain ⟨m, fault⟩ := action
    have hstep := m.hasMode_apply hmode fault
    have hpath := (m.apply_settings s disk fault).1
    rw [← hpath] at hstep ⊢
    exact ih hstep

end Mutation

/-! ## Runs of opened stores -/

namespace Store

section Opened

variable (settings : Settings) (disk : Disk) (path : Option FilePath) (strict : Option Bool)
  (stamp : String) (faults : OpenFaults)

end Opened

/-- A snapshot that may not be read is not accepted. -/
theorem load_of_unreadable {disk : Disk} {place : FilePath} {mode : Nat}
    (hmode : disk.HasMode place mode) (hbit : mode.testBit Permission.read.bit = false) :
    ∃ e, (Snapshot.load disk place).outcome = .error e := by
  obtain ⟨content, hnode⟩ := id hmode
  rcases Disk.read_of_hasFile ⟨mode, hnode⟩ with hread | hread
  · rw [hmode.readable_iff.mp (Disk.readable_of_read hread)] at hbit
    cases hbit
  · simp only [Snapshot.load, hread]
    exact ⟨_, rfl⟩

/-- Where there is little on the disk, the file with the long name can be replaced. -/
theorem accepts_longPath {disk : Disk} {mode : Nat} (hwritable : disk.Writable [])
    (hfew : disk.nodes.length < 10) (hmode : disk.HasMode longPath mode) :
    disk.Accepts longPath := by
  obtain ⟨content, hnode⟩ := hmode
  obtain ⟨hlocate, hstands⟩ := Disk.node_eq_ok.mp hnode
  obtain ⟨hcheck, hsize⟩ := room_temporaryName hfew
  exact fun content => Disk.replace_of_writable (locate_parent_longPath hwritable) hwritable
    (by simp [hstands]) hlocate endsInEntry_longPath hcheck hsize content

/-- The same disk accepts the file again once the store has persisted. -/
theorem accepts_longPath_persist {disk : Disk} {mode : Nat} (s : Store) (hpath : s.path = longPath)
    (hwritable : disk.Writable []) (hfew : disk.nodes.length < 6)
    (hmode : disk.HasMode longPath mode) : (s.persist disk).disk.Accepts longPath := by
  have hkept : (s.persist disk).disk.HasMode longPath mode :=
    hpath ▸ hasMode_persist (hpath ▸ hmode) none
  rcases s.disk_persist disk none with hdisk | ⟨content, hdisk⟩
  · rw [hdisk]
    exact accepts_longPath hwritable (by omega) hmode
  · rw [hpath] at hdisk
    rw [hdisk] at hkept ⊢
    have hsize := Disk.length_nodes_exchange_le (locate_longPath hwritable) content none
    have hsame := Disk.find?_nil_exchange disk longPath content none
    exact accepts_longPath (hwritable.of_find? hsame) (by omega) hkept

/-- A disk whose working directory holds a file that may not be read, and whose name is too long for
it to be moved aside. -/
def lockedDisk : Disk := ⟨[([longName], .file "\x7b".toUTF8 0)]⟩

theorem writable_lockedDisk : lockedDisk.Writable [] := ⟨⟨directoryMode, rfl⟩, rfl, rfl, rfl⟩

theorem hasMode_lockedDisk : lockedDisk.HasMode longPath 0 := by
  refine ⟨"\x7b".toUTF8, Disk.node_eq_ok.mpr ⟨locate_longPath writable_lockedDisk, ?_⟩⟩
  rw [destination_longPath, Disk.find?, lockedDisk, List.lookup_cons_self]

/-- A store is opened where a snapshot is not accepted and cannot be moved aside. -/
theorem openAt_of_notMovedAside {disk : Disk} {path : FilePath} {strict : Bool}
    {indent : Option Int} {stamp : String} {e : SnapshotError} {cause : DiskError}
    (hload : (Snapshot.load disk path).outcome = .error e)
    (hmove : moveAside disk path stamp false = .ok (disk, [.notMovedAside path cause]))
    (hindent : Snapshot.IndentFits indent) (haccepts : disk.Accepts path) :
    (openAt disk path strict indent stamp).store = .ok ⟨path, strict, indent, .empty⟩ ∧
      (openAt disk path strict indent stamp).disk =
        (persist ⟨path, strict, indent, .empty⟩ disk).disk := by
  have hstore := bootstrap_of_accepts strict hindent haccepts
  rw [openAt_of_reset hload hmove]
  exact ⟨hstore, rfl⟩

/-- The store that is opened on it all the same. -/
def lockedStore : Store := ⟨longPath, false, some 2, .empty⟩

theorem openWith_lockedDisk :
    (openWith {} lockedDisk (some longPath) none "20260101000000").store = .ok lockedStore ∧
      (openWith {} lockedDisk (some longPath) none "20260101000000").disk =
        (lockedStore.persist lockedDisk).disk := by
  obtain ⟨e, hload⟩ := load_of_unreadable hasMode_lockedDisk (by decide)
  have hmove := moveAside_of_long (locate_longPath writable_lockedDisk)
    (locate_parent_longPath writable_lockedDisk) writable_lockedDisk endsInEntry_longPath
    no_room_asidePath
  exact openAt_of_notMovedAside hload hmove indentFits_default
    (accepts_longPath writable_lockedDisk (by decide) hasMode_lockedDisk)

end Store

end SnapshotStore
