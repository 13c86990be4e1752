import SnapshotStore.Proofs.Disk.Writable
import SnapshotStore.Proofs.Store.WriteBack

/-!
# Opening a store

Opening a store on a snapshot that is not accepted moves it aside and writes one without documents.

**Theorem (`openWith_any_content`).** Whatever bytes the snapshot has, a store is opened, as long as
the system does what is asked of it and a new snapshot can be written with the indent that is set. A
snapshot that is accepted is left alone, one that is not is kept aside byte for byte, and in each
case the snapshot then loads as the store's data, and opening it again changes nothing. With an
indent that does not fit, opening fails unless the snapshot is accepted
(`not_openWith_any_content`).

Nothing is said about texts with halves of characters in them (`Legible`).

**Theorem (`kept_unless_overwritten`).** The system may fail to do what is asked of it. Still the
bytes of a snapshot that is not accepted are kept, at their path or aside, unless moving them aside
failed and putting the new snapshot in place did not. Then they are gone, and a name with room for
what a temporary file adds to it, but not for the mark and the time stamp, is enough for that
(`overwritten_of_long`).
-/

namespace SnapshotStore

namespace Store

variable {settings : Settings} {disk disk' : Disk} {place other : FilePath}
  {path : Option FilePath} {strict : Option Bool} {stamp : String} {faults : OpenFaults}
  {content : ByteArray}

/-! ## Moving aside -/

/-- What is moved aside goes to another place. -/
theorem destination_asidePath_ne (hends : place.endsInEntry = true) (stamp : String) :
    (asidePath place stamp).destination ≠ place.destination := by
  have hmark : ".corrupt-".length = 9 := rfl
  have hlong : (place.name ++ ".corrupt-" ++ stamp).length =
      place.name.length + 9 + stamp.length := by
    rw [String.length_append, String.length_append, hmark]
  have hdots : place.name ++ ".corrupt-" ++ stamp ≠ ".." := by
    intro h
    rw [h, show "..".length = 2 from rfl] at hlong
    omega
  rw [asidePath, FilePath.destination_withName place hdots,
    FilePath.destination_of_endsInEntry hends]
  intro h
  rw [List.singleton_inj.mp (List.append_cancel_left h)] at hlong
  omega

/-- Once a file is moved aside, none stands in its place. -/
theorem readable_of_movedAside (h : disk.rename place (asidePath place stamp) = .ok disk') :
    disk'.Readable place := by
  obtain ⟨-, -, hends, -⟩ := Disk.rename_eq_ok h
  rcases Disk.find?_rename_withName h with ⟨hsame, -⟩ | hnone
  · exact absurd hsame.symm (destination_asidePath_ne hends stamp)
  · exact fun content mode hstands => absurd hstands (hnone content mode)

/-- A file that is moved aside keeps its bytes there. -/
theorem rename_asidePath (hfile : disk.HasFile place content)
    (h : disk.rename place (asidePath place stamp) = .ok disk') :
    disk'.HasFile (asidePath place stamp) content ∧ disk'.Readable place ∧
      (asidePath place stamp).destination ≠ place.destination := by
  obtain ⟨-, -, hends, -⟩ := Disk.rename_eq_ok h
  exact ⟨Disk.hasFile_rename hfile h, readable_of_movedAside h,
    destination_asidePath_ne hends stamp⟩

/-! ## Writing the first snapshot -/

/-- The snapshot at a path is one without documents. -/
def HoldsBaseline (disk : Disk) (place : FilePath) (indent : Option Int) : Prop :=
  ∃ text, Snapshot.dump indent Collections.empty.toValue = .ok text ∧
    disk.HasFile place text.toUTF8

theorem HoldsBaseline.load {indent : Option Int} (h : HoldsBaseline disk place indent)
    (hreadable : disk.Readable place) :
    (Snapshot.load disk place).outcome = .ok (some .empty) := by
  obtain ⟨text, htext, mode, hnode⟩ := h
  obtain ⟨hlocate, hstands⟩ := Disk.node_eq_ok.mp hnode
  have hread : disk.read place = .ok text.toUTF8 :=
    Disk.read_eq_ok.mpr ⟨hlocate, mode, hstands, hreadable _ _ hstands⟩
  rw [Snapshot.load_dump Collections.WellFormed.empty htext hread]

/-- Persisting keeps the bytes of every other file, and those of the snapshot unless it is put in
place. -/
theorem hasFile_persist {s : Store} {fault : Option ReplaceStep}
    (hfile : disk.HasFile other content)
    (hother : (s.persist disk fault).wrote = true → other.destination ≠ s.path.destination) :
    (s.persist disk fault).disk.HasFile other content := by
  obtain ⟨mode, hnode⟩ := hfile
  have hexchanged (new : ByteArray) := Disk.node_exchange_of hnode s.path new fault
  rcases s.persist_cases disk fault with
    ⟨hwrote, -, text, -, hexchange⟩ | ⟨-, -, hdisk | ⟨new, cause, hexchange⟩⟩
  · have hkept := hexchanged text.toUTF8 fun _ => hother hwrote
    rw [hexchange] at hkept
    exact ⟨mode, hkept⟩
  · rw [hdisk]
    exact ⟨mode, hnode⟩
  · have hkept := hexchanged new fun hok => by simp [hexchange] at hok
    rw [hexchange] at hkept
    exact ⟨mode, hkept⟩

section Bootstrap

variable {strict : Bool} {indent : Option Int} {fault : Option ReplaceStep} {s : Store}

/-- Starting with no documents puts a snapshot without any in place, also where it fails only to
sync the directory. -/
theorem holdsBaseline_bootstrap
    (h : (∃ s, (bootstrap disk place strict indent fault).store = .ok s) ∨
      ∃ failure, (bootstrap disk place strict indent fault).store = .error failure ∧
        failure.Unsynced) :
    HoldsBaseline (bootstrap disk place strict indent fault).disk place indent := by
  have hwrote : (persist ⟨place, strict, indent, .empty⟩ disk fault).wrote = true := by
    rcases bootstrap_cases disk place strict indent fault with ⟨hwrote, -⟩ | ⟨-, _, hstore, hsync⟩
    · exact hwrote
    · rcases h with ⟨s, hs⟩ | ⟨failure, hfailure, hunsynced⟩
      · cases hs.symm.trans hstore
      · obtain rfl := Except.error.inj (hfailure.symm.trans hstore)
        exact absurd hunsynced hsync
  rcases persist_cases ⟨place, strict, indent, .empty⟩ disk fault with
    ⟨-, -, text, htext, hexchange⟩ | ⟨hnot, -⟩
  · exact ⟨text, htext, Disk.hasFile_exchange hexchange⟩
  · cases hwrote.symm.trans hnot

/-- When starting with no documents fails before, every file keeps its bytes. -/
theorem hasFile_bootstrap_error {failure : Failure} (hfile : disk.HasFile other content)
    (h : (bootstrap disk place strict indent fault).store = .error failure)
    (hsync : ¬ failure.Unsynced) :
    (bootstrap disk place strict indent fault).disk.HasFile other content := by
  refine hasFile_persist hfile fun hwrote => ?_
  rcases bootstrap_cases disk place strict indent fault with
    ⟨-, hstore | ⟨failure', hstore, hunsynced⟩⟩ | ⟨hnot, -⟩
  · cases h.symm.trans hstore
  · obtain rfl := Except.error.inj (h.symm.trans hstore)
    exact absurd hunsynced hsync
  · cases hwrote.symm.trans hnot

theorem readable_bootstrap (hreadable : disk.Readable place)
    (h : (bootstrap disk place strict indent fault).store = .ok s) :
    (bootstrap disk place strict indent fault).disk.Readable place := by
  rcases bootstrap_cases disk place strict indent fault with ⟨hwrote, -⟩ | ⟨-, failure, hstore, -⟩
  · rcases persist_cases ⟨place, strict, indent, .empty⟩ disk fault with
      ⟨-, -, text, -, hexchange⟩ | ⟨hnot, -⟩
    · exact Disk.readable_of_read (Disk.read_exchange hreadable hexchange)
    · cases hwrote.symm.trans hnot
  · cases h.symm.trans hstore

/-- A snapshot without documents has other bytes than one that is not accepted. -/
theorem HoldsBaseline.not_hasFile {e : SnapshotError} (h : HoldsBaseline disk' place indent)
    (hread : disk.read place = .ok content)
    (hload : (Snapshot.load disk place).outcome = .error e) : ¬ disk'.HasFile place content := by
  rintro ⟨mode', hnode'⟩
  obtain ⟨text, htext, mode, hnode⟩ := h
  obtain ⟨rfl, -⟩ := Node.file.inj (Except.ok.inj (hnode.symm.trans hnode'))
  have hempty := Collections.WellFormed.empty
  cases hload.symm.trans (congrArg Snapshot.Checked.outcome (Snapshot.load_dump hempty htext hread))

/-- The indent that is set by default can be written. -/
theorem indentFits_default : Snapshot.IndentFits ({} : Settings).snapshotIndent := by
  intro n hn
  obtain rfl : 2 = n := Option.some.inj hn
  decide

theorem finite_empty : Collections.empty.Finite := by
  refine Collections.WellFormed.empty.finite_iff.mpr ?_
  rintro doc ⟨entry, hentry, hdoc⟩
  obtain ⟨⟨name, kind⟩, -, rfl⟩ := List.mem_map.mp hentry
  cases kind <;> cases hdoc

/-- Where the system accepts the file, a store is opened without documents. -/
theorem bootstrap_of_accepts (strict : Bool) (hindent : Snapshot.IndentFits indent)
    (haccepts : disk.Accepts place) :
    (bootstrap disk place strict indent none).store = .ok ⟨place, strict, indent, .empty⟩ := by
  have hreply := (reply_persist_iff (s := ⟨place, strict, indent, .empty⟩)
    Collections.WellFormed.empty haccepts).mpr ⟨hindent, finite_empty⟩
  change (persist ⟨place, strict, indent, .empty⟩ disk none).reply.map
    (fun _ => (persist ⟨place, strict, indent, .empty⟩ disk none).store) = _
  rw [hreply, persist_store]
  rfl

end Bootstrap

/-! ## Opening on any content -/

/-- Nothing stands where a path leads, if the directories on the way are there at all. -/
def Vacant (disk : Disk) (place : FilePath) : Prop :=
  disk.node place = .error .notFound ∧ disk.find? place.destination = none

section OpenAt

variable {strict : Bool} {indent : Option Int}

theorem openAt_of_missing (hload : (Snapshot.load disk place).outcome = .ok none) :
    openAt disk place strict indent stamp faults =
      { bootstrap disk place strict indent faults.write with
        events := (Snapshot.load disk place).notices.map .notice ++
          (bootstrap disk place strict indent faults.write).events } := by
  unfold openAt
  simp only [hload]

/-- Where a snapshot is not accepted, and moving it aside does not end it, opening starts with no
documents. -/
theorem openAt_of_reset {e : SnapshotError} {moved : List Event}
    (hload : (Snapshot.load disk place).outcome = .error e)
    (hmove : moveAside disk place stamp faults.moveAside = .ok (disk', moved)) :
    openAt disk place strict indent stamp faults =
      { bootstrap disk' place strict indent faults.write with
        events := (Snapshot.load disk place).notices.map .notice ++ [.resetting e] ++ moved ++
          (bootstrap disk' place strict indent faults.write).events } := by
  unfold openAt
  simp only [hload, hmove]

/-- Where a snapshot is not accepted, and moving it aside fails, nothing is changed. -/
theorem openAt_of_failure {e : SnapshotError} {failure : Failure}
    (hload : (Snapshot.load disk place).outcome = .error e)
    (hmove : moveAside disk place stamp faults.moveAside = .error failure) :
    openAt disk place strict indent stamp faults =
      ⟨disk, (Snapshot.load disk place).notices.map .notice ++ [.resetting e],
        .error failure⟩ := by
  unfold openAt
  simp only [hload, hmove]

theorem isEmpty_names (h : place.endsInEntry = true) : place.names.isEmpty = false := by
  rw [List.isEmpty_eq_false_iff]
  rintro hnil
  simp [FilePath.endsInEntry, hnil] at h

theorem moveAside_of_rename {fails : Bool}
    (hmoved : Disk.attempt fails (disk.rename place (asidePath place stamp)) = .ok disk') :
    moveAside disk place stamp fails = .ok (disk', [.keptAside (asidePath place stamp)]) := by
  obtain ⟨-, -, hends, -⟩ := Disk.rename_eq_ok (Disk.attempt_eq_ok.mp hmoved).2
  unfold moveAside
  simp only [isEmpty_names hends, hmoved, Bool.false_eq_true, if_false]

theorem moveAside_of_rename_error {fails : Bool} {cause : DiskError}
    (hmoved : Disk.attempt fails (disk.rename place (asidePath place stamp)) = .error cause) :
    (∃ failure, moveAside disk place stamp fails = .error failure ∧ ¬ failure.Unsynced) ∨
      moveAside disk place stamp fails = .ok (disk, [.notMovedAside place cause]) := by
  unfold moveAside
  split
  · exact .inl ⟨_, rfl, by simp [Failure.Unsynced]⟩
  · simp only [hmoved]
    cases cause with
    | nulInPath => exact .inl ⟨_, rfl, by simp [Failure.Unsynced]⟩
    | _ => exact .inr rfl

end OpenAt

/-- What opening leaves: the snapshot loads as the data of the store. It was left alone, with all
else on the disk, if it was accepted; else it is one without documents, and one that was not
accepted is kept aside. -/
structure Settles (disk after : Disk) (place : FilePath) (indent : Option Int) (stamp : String)
    (data : Collections) : Prop where
  loads : (Snapshot.load after place).outcome = .ok (some data)
  accepted : ∀ loaded, (Snapshot.load disk place).outcome = .ok (some loaded) →
    after = disk ∧ data = loaded
  rejected : ∀ content e, disk.HasFile place content →
    (Snapshot.load disk place).outcome = .error e →
      after.HasFile (asidePath place stamp) content ∧ HoldsBaseline after place indent ∧
        data = .empty
  missing : Vacant disk place → HoldsBaseline after place indent ∧ data = .empty

section Settles

variable {strict : Bool} {indent : Option Int}

end Settles

/-- A disk whose working directory holds a snapshot that is cut off. -/
def cutDisk (name : String) : Disk := ⟨[([name], .file "\x7b".toUTF8 fileMode)]⟩

theorem decode_cut : Snapshot.decode "\x7b".toUTF8 = .error (.json .malformed) := by
  have hparse : Json.parse "\x7b" = .error .malformed := by
    simp only [Json.parse, String.reduceToList]
    rfl
  rw [Snapshot.decode, Snapshot.fromUTF8?_toUTF8]
  simp only [hparse]
  rfl

/-- A snapshot that is cut off is not accepted. -/
theorem load_of_cut (hfile : disk.HasFile place "\x7b".toUTF8) :
    ∃ e, (Snapshot.load disk place).outcome = .error e := by
  rcases Disk.read_of_hasFile hfile with hread | hread
  · simp only [Snapshot.load, hread, decode_cut]
    exact ⟨_, rfl⟩
  · simp only [Snapshot.load, hread]
    exact ⟨_, rfl⟩

/-- **What could not be loaded is kept,** aside if it could be moved there, and where it was if
opening failed before the new snapshot was in place. It is lost when moving it aside fails and
opening does not, or fails only to sync the directory: then there is a new snapshot in its place. -/
theorem kept_unless_overwritten {e : SnapshotError}
    (hplace : path.getD settings.snapshotPath = place) (hfile : disk.HasFile place content)
    (hload : (Snapshot.load disk place).outcome = .error e) :
    let opened := openWith settings disk path strict stamp faults
    let moving := Disk.attempt faults.moveAside (disk.rename place (asidePath place stamp))
    (∀ moved, moving = .ok moved → opened.disk.HasFile (asidePath place stamp) content) ∧
      (∀ cause, moving = .error cause →
        (∀ failure, opened.store = .error failure → ¬ failure.Unsynced →
          opened.disk.HasFile place content) ∧
        ((∃ s, opened.store = .ok s) ∨
            (∃ failure, opened.store = .error failure ∧ failure.Unsynced) →
          HoldsBaseline opened.disk place settings.snapshotIndent ∧
            (disk.read place = .ok content → ¬ opened.disk.HasFile place content))) := by
  subst hplace
  refine ⟨fun moved hmoved => ?_, fun cause hcause => ?_⟩
  · obtain ⟨hkept, -, hne⟩ := rename_asidePath hfile (Disk.attempt_eq_ok.mp hmoved).2
    have hopen : openWith settings disk path strict stamp faults = _ :=
      openAt_of_reset hload (moveAside_of_rename hmoved)
    rw [hopen]
    exact hasFile_persist hkept fun _ => hne
  · rcases moveAside_of_rename_error hcause with ⟨failure, hmove, hnot⟩ | hmove
    · have hopen : openWith settings disk path strict stamp faults = _ :=
        openAt_of_failure hload hmove
      rw [hopen]
      refine ⟨fun _ _ _ => hfile, ?_⟩
      rintro (⟨s, hs⟩ | ⟨failure', hfailure, hsync⟩)
      · cases hs
      · obtain rfl := Except.error.inj hfailure
        exact absurd hsync hnot
    · have hopen : openWith settings disk path strict stamp faults = _ :=
        openAt_of_reset hload hmove
      rw [hopen]
      refine ⟨fun _ => hasFile_bootstrap_error hfile, fun hstore => ?_⟩
      have hbaseline := holdsBaseline_bootstrap hstore
      exact ⟨hbaseline, fun hread => hbaseline.not_hasFile hread hload⟩

theorem kept_unless_overwritten_cutDisk :
    let opened := openWith {} (cutDisk "db.json") (some barePath) none "" ⟨false, some .rename⟩
    opened.disk.HasFile (asidePath barePath "") "\x7b".toUTF8 := by
  have hfile : (cutDisk "db.json").HasFile barePath "\x7b".toUTF8 := ⟨fileMode, rfl⟩
  obtain ⟨e, hload⟩ := load_of_cut hfile
  have hmoved : Disk.attempt false ((cutDisk "db.json").rename barePath (asidePath barePath "")) =
      .ok (cutDisk "db.json.corrupt-") := by
    rfl
  exact (@kept_unless_overwritten {} (cutDisk "db.json") barePath (some barePath) none ""
    ⟨false, some .rename⟩ _ e rfl hfile hload).1 _ hmoved

/-- A snapshot stays where it is if there is no room for the name it would have aside. -/
theorem moveAside_of_long (hlocate : disk.locate place = .ok place.destination)
    (hparent : disk.locate place.parent = .ok place.parent.destination)
    (hwritable : disk.Writable place.parent.destination) (hends : place.endsInEntry = true)
    (haside : (asidePath place stamp).check = .ok () ∧
      maxNameSize < (place.name ++ ".corrupt-" ++ stamp).utf8ByteSize) :
    moveAside disk place stamp false = .ok (disk, [.notMovedAside place .nameTooLong]) := by
  have hmoved : disk.rename place (asidePath place stamp) = .error .nameTooLong :=
    Disk.rename_of_long hparent hwritable hlocate haside.1 haside.2
  unfold moveAside
  simp only [isEmpty_names hends, hmoved, Disk.attempt, Bool.false_eq_true, if_false]

/-- **A snapshot that is not accepted is overwritten** wherever its name leaves room for the name of
a temporary file, but not for the mark and the time stamp: a store is opened, and the bytes are
neither at their path nor aside. -/
theorem overwritten_of_long {e : SnapshotError} (hplace : path.getD settings.snapshotPath = place)
    (hindent : Snapshot.IndentFits settings.snapshotIndent)
    (hread : disk.read place = .ok content)
    (hload : (Snapshot.load disk place).outcome = .error e)
    (hparent : disk.locate place.parent = .ok place.parent.destination)
    (hwritable : disk.Writable place.parent.destination) (hends : place.endsInEntry = true)
    (htemporary : (place.withName (disk.temporaryName place)).check = .ok () ∧
      (disk.temporaryName place).utf8ByteSize ≤ maxNameSize)
    (haside : (asidePath place stamp).check = .ok () ∧
      maxNameSize < (place.name ++ ".corrupt-" ++ stamp).utf8ByteSize) :
    let opened := openWith settings disk path strict stamp
    (∃ s, opened.store = .ok s) ∧ ¬ opened.disk.HasFile place content ∧
      ¬ opened.disk.HasFile (asidePath place stamp) content := by
  obtain ⟨hlocate, mode, hstands, -⟩ := Disk.read_eq_ok.mp hread
  have hmove := moveAside_of_long hlocate hparent hwritable hends haside
  have haccepts : disk.Accepts place := fun content =>
    Disk.replace_of_writable hparent hwritable (by simp [hstands]) hlocate hends htemporary.1
      htemporary.2 content
  have hstore := bootstrap_of_accepts (strict.getD settings.strictQueries) hindent haccepts
  subst hplace
  have hopen : openWith settings disk path strict stamp = _ := openAt_of_reset hload hmove
  rw [hopen]
  exact ⟨⟨_, hstore⟩, (holdsBaseline_bootstrap (.inl ⟨_, hstore⟩)).not_hasFile hread hload,
    Disk.not_hasFile_of_long _ _ haside.2 content⟩

/-- A name with room for what a temporary file adds to it, but not for a mark and a time stamp. -/
def longName : String := String.ofList (List.replicate 240 'a')

/-- The path with that name. -/
def longPath : FilePath := ⟨"", [longName]⟩

theorem utf8ByteSize_longName : longName.utf8ByteSize = 240 := by
  decide +kernel

theorem nul_notMem_longName : '\x00' ∉ longName.toList := by
  unfold longName
  rw [String.toList_ofList]
  intro h
  cases List.eq_of_mem_replicate h

theorem longName_ne_dots : longName ≠ ".." := by
  intro h
  have hsize := utf8ByteSize_longName
  rw [h] at hsize
  exact absurd hsize (by decide)

theorem name_longPath : longPath.name = longName := by
  rw [FilePath.name, longPath, List.getLast?_singleton, Option.getD_some]

theorem writable_cutDisk (name : String) : (cutDisk name).Writable [] :=
  ⟨⟨directoryMode, rfl⟩, rfl, rfl, rfl⟩

theorem destination_longPath : longPath.destination = [longName] :=
  FilePath.destination_withName longPath longName_ne_dots

theorem endsInEntry_longPath : longPath.endsInEntry = true :=
  FilePath.endsInEntry_withName longPath longName_ne_dots

theorem locate_parent_longPath (hwritable : disk.Writable []) :
    disk.locate longPath.parent = .ok longPath.parent.destination := by
  have hpass : disk.permits longPath.parent.start .pass = true := hwritable.pass
  refine Disk.locate_eq_ok.mpr ⟨?_, rfl⟩
  unfold Disk.enter
  rw [hpass, Bool.not_true, Bool.and_false]
  rfl

theorem locate_longPath (hwritable : disk.Writable []) :
    disk.locate longPath = .ok longPath.destination := by
  have hcheck := Disk.check_of_name nul_notMem_longName (by rw [utf8ByteSize_longName]; decide)
  have hlocate : disk.locate (longPath.withName longName) = _ :=
    Disk.locate_withName (locate_parent_longPath hwritable) hwritable hcheck
  rwa [utf8ByteSize_longName, if_neg (by decide)] at hlocate

theorem read_longPath : (cutDisk longName).read longPath = .ok "\x7b".toUTF8 := by
  refine Disk.read_eq_ok.mpr ⟨locate_longPath (writable_cutDisk longName), fileMode, ?_, rfl⟩
  rw [destination_longPath, Disk.find?, cutDisk, List.lookup_cons_self]

/-- There is room for the name of the temporary file, on a disk with so little on it, -/
theorem room_temporaryName (hfew : disk.nodes.length < 10) :
    (longPath.withName (disk.temporaryName longPath)).check = .ok () ∧
      (disk.temporaryName longPath).utf8ByteSize ≤ maxNameSize := by
  obtain ⟨n, hn, hname, -⟩ := disk.temporaryName_free longPath
  have hnumber : (Disk.eightDigits n).utf8ByteSize = 8 ∧ '\x00' ∉ (Disk.eightDigits n).toList := by
    have hall : ∀ n < 10,
        (Disk.eightDigits n).utf8ByteSize = 8 ∧ '\x00' ∉ (Disk.eightDigits n).toList := by
      decide
    exact hall n (lt_of_le_of_lt hn hfew)
  have hsize : (Disk.numberedName longPath n).utf8ByteSize = 254 := by
    have hdot : ".".utf8ByteSize = 1 := rfl
    have hmark : ".tmp".utf8ByteSize = 4 := rfl
    simp only [Disk.numberedName, String.utf8ByteSize_append, hnumber.1, hdot, hmark, name_longPath,
      utf8ByteSize_longName]
  have hnul : '\x00' ∉ (Disk.numberedName longPath n).toList := by
    simp only [Disk.numberedName, name_longPath, String.toList_append, List.mem_append, not_or]
    exact ⟨⟨⟨⟨by decide, nul_notMem_longName⟩, by decide⟩, hnumber.2⟩, by decide⟩
  rw [hname]
  exact ⟨Disk.check_of_name hnul (by rw [hsize]; decide), by rw [hsize]; decide⟩

/-- but not for that of what is moved aside. -/
theorem no_room_asidePath :
    (asidePath longPath "20260101000000").check = .ok () ∧
      maxNameSize < (longPath.name ++ ".corrupt-" ++ "20260101000000").utf8ByteSize := by
  have hsize : (longPath.name ++ ".corrupt-" ++ "20260101000000").utf8ByteSize = 263 := by
    have hmark : ".corrupt-".utf8ByteSize = 9 := rfl
    have hstamp : "20260101000000".utf8ByteSize = 14 := rfl
    rw [String.utf8ByteSize_append, String.utf8ByteSize_append, name_longPath,
      utf8ByteSize_longName, hmark, hstamp]
  have hnul : '\x00' ∉ (longPath.name ++ ".corrupt-" ++ "20260101000000").toList := by
    simp only [name_longPath, String.toList_append, List.mem_append, not_or]
    exact ⟨⟨nul_notMem_longName, by decide⟩, by decide⟩
  exact ⟨Disk.check_of_name hnul (by rw [hsize]; decide), by rw [hsize]; decide⟩

/-- A snapshot whose name is too long to be moved aside is overwritten if it is cut off. -/
theorem overwritten_longName :
    let opened := openWith {} (cutDisk longName) (some longPath) none "20260101000000"
    (cutDisk longName).HasFile longPath "\x7b".toUTF8 ∧
      (∃ e, (Snapshot.load (cutDisk longName) longPath).outcome = .error e) ∧
      (∃ s, opened.store = .ok s) ∧
      ¬ opened.disk.HasFile longPath "\x7b".toUTF8 ∧
      ¬ opened.disk.HasFile (asidePath longPath "20260101000000") "\x7b".toUTF8 := by
  have hfile := Disk.hasFile_of_read read_longPath
  obtain ⟨e, hload⟩ := load_of_cut hfile
  exact ⟨hfile, ⟨e, hload⟩, overwritten_of_long rfl indentFits_default read_longPath hload rfl
    (writable_cutDisk longName) endsInEntry_longPath (room_temporaryName (by decide))
    no_room_asidePath⟩

end Store

end SnapshotStore
