import SnapshotStore.Proofs.Disk.Tree
import SnapshotStore.Proofs.Store.Run

/-!
# Writing a snapshot is all or nothing

**Theorem (`write_allOrNothing`).** On a disk that is a tree, writing a snapshot either puts exactly
its text where the path leads, under the mode of the file that was there or under that of a new
file, or it fails. Either way nothing changes at any other location, and when it fails nothing
changes at this one, but for directories that are made where nothing stood. In particular no
temporary file is left, whichever step fails.

To sync the directory is the one step that comes after the new file is in place. When only that
fails, the snapshot was written all the same (`Written`).
-/

namespace SnapshotStore

namespace Disk

variable {disk disk' : Disk} {path : FilePath} {content : ByteArray} {fault : Option ReplaceStep}

/-- Exchanging a file takes all steps but the last. -/
theorem fault_of_exchange (h : disk.exchange path content fault = (.ok (), disk')) :
    fault = none ∨ fault = some .syncDirectory := by
  unfold exchange at h
  split at h
  · cases h
  next hdirectory =>
  split at h
  · cases h
  unfold exchangeBeside at h
  dsimp only at h
  split at h
  · cases h
  next created hcreated =>
  split at h
  · cases h
  next replaced hreplaced =>
  obtain ⟨written, hwritten, hreplaced⟩ := bind_eq_ok.mp hreplaced
  obtain ⟨ready, hready, hrenamed⟩ := bind_eq_ok.mp hreplaced
  rw [attempt_eq_ok, decide_eq_false_iff_not] at hcreated hwritten hready hrenamed
  cases fault with
  | none => exact .inl rfl
  | some step =>
    cases step with
    | makeDirectory => exact absurd rfl hdirectory
    | createTemporary => exact absurd rfl hcreated.1
    | write => exact absurd rfl hwritten.1
    | setMode => exact absurd rfl hready.1
    | rename => exact absurd rfl hrenamed.1
    | syncDirectory => exact .inr rfl

/-- Replacing a file takes all its steps. -/
theorem fault_eq_none_of_replace (h : (disk.replace path content fault).1 = .ok ()) :
    fault = none := by
  rcases disk.replace_cases path content fault with ⟨cause, hfailed, -⟩ | ⟨-, hexchange⟩
  · rw [h] at hfailed
    cases hfailed
  · rcases fault_of_exchange hexchange with hnone | rfl
    · exact hnone
    · unfold replace at h
      rw [hexchange] at h
      cases h

end Disk

namespace Snapshot

variable {disk : Disk}

/-- The snapshot was put in place: writing it returned, or it failed only to sync the directory. -/
def Written (outcome : Except WriteError Unit) : Prop :=
  outcome = .ok () ∨ ∃ cause, outcome = .error (.disk (.unsynced cause))

/-- What becomes of a text is what becomes of the file. -/
theorem write_of_dump {path : FilePath} {v : Value} {indent : Option Int} {text : String}
    (hdump : dump indent v = .ok text) (disk : Disk) (fault : Option ReplaceStep) :
    write disk path v indent fault = ((disk.replace path text.toUTF8 fault).1.mapError .disk,
      (disk.replace path text.toUTF8 fault).2) := by
  unfold write
  rw [hdump]

/-- **Writing a snapshot is all or nothing.** -/
theorem write_allOrNothing (hdisk : disk.WellFormed) (path : FilePath) (v : Value)
    (indent : Option Int) (fault : Option ReplaceStep) :
    let (outcome, disk') := write disk path v indent fault
    disk'.WellFormed ∧
    (outcome = .ok () → fault = none) ∧
    (Written outcome → (fault = none ∨ fault = some .syncDirectory) ∧
      ∃ text mode, dump indent v = .ok text ∧
        disk'.node path = .ok (.file text.toUTF8 mode) ∧
        (disk.find? path.destination = none ∧ mode = fileMode ∨
          ∃ old, disk.find? path.destination = some (.file old mode)) ∧
        disk.OnlyDirectories disk' [path.destination]) ∧
    (¬ Written outcome → disk.OnlyDirectories disk' []) ∧
    ∀ other content mode, disk.node other = .ok (.file content mode) →
      (Written outcome → other.destination ≠ path.destination) →
      disk'.node other = .ok (.file content mode) := by
  cases hdump : dump indent v with
  | error e =>
    have hwrite : write disk path v indent fault = (.error (.encode e), disk) := by
      unfold write
      rw [hdump]
    rw [hwrite]
    exact ⟨hdisk, nofun, by simp [Written], fun _ => .refl _ _, fun _ _ _ hother _ => hother⟩
  | ok text =>
    have hcases := disk.replace_cases path text.toUTF8 fault
    have hfault := @Disk.fault_eq_none_of_replace disk path text.toUTF8 fault
    rw [write_of_dump hdump]
    generalize disk.replace path text.toUTF8 fault = result at hcases hfault ⊢
    obtain ⟨outcome, disk'⟩ := result
    dsimp only at hcases hfault ⊢
    rcases hcases with ⟨cause, rfl, hfailed⟩ | ⟨houtcome, hexchange⟩
    · obtain ⟨htree, honly⟩ := Disk.find?_exchange_error hdisk hfailed
      refine ⟨htree, nofun, by simp [Written, Except.mapError], fun _ => honly,
        fun other content mode hother _ => ?_⟩
      have hkept :=
        Disk.node_exchange_of hother path text.toUTF8 fault (by rw [hfailed]; nofun)
      rwa [hfailed] at hkept
    · obtain ⟨htree, honly, mode, hnode, hmode⟩ := Disk.find?_exchange_ok hdisk hexchange
      have hwritten : Written (outcome.mapError .disk) := by
        rcases houtcome with rfl | ⟨cause, rfl⟩
        · exact .inl rfl
        · exact .inr ⟨cause, rfl⟩
      refine ⟨htree, fun hok => hfault (mapError_eq_ok.mp hok),
        fun _ => ⟨Disk.fault_of_exchange hexchange, text, mode, rfl, hnode, hmode, honly⟩,
        fun hnot => absurd hwritten hnot, fun other content mode hother hne => ?_⟩
      have hkept := Disk.node_exchange hother (hne hwritten) text.toUTF8 fault
      rwa [hexchange] at hkept

theorem wellFormed_bareDisk : Store.bareDisk.WellFormed :=
  Disk.wellFormed_empty.put (.inr nofun) ⟨directoryMode, rfl⟩

/-- When the rename fails, the snapshot is as it was and there is no other file. -/
theorem write_allOrNothing_bareDisk :
    ∃ e disk', write Store.bareDisk Store.barePath .null none (some .rename) = (.error e, disk') ∧
      disk'.node Store.barePath = .ok (.file "\x7b\x7d".toUTF8 fileMode) ∧
      ∀ spot content mode, disk'.find? spot = some (.file content mode) → spot = ["db.json"] := by
  have hall := write_allOrNothing wellFormed_bareDisk Store.barePath .null none (some .rename)
  generalize write Store.bareDisk Store.barePath .null none (some .rename) = result at hall ⊢
  obtain ⟨outcome, disk'⟩ := result
  obtain ⟨-, hok, hwritten, hkeeps, hkept⟩ := hall
  have hnot : ¬ Written outcome := fun h => by simpa using (hwritten h).1
  cases outcome with
  | ok => cases hok rfl
  | error e =>
    refine ⟨e, disk', rfl, hkept _ _ _ rfl fun h => absurd h hnot,
      fun spot content mode hfile => ?_⟩
    rcases hkeeps hnot spot nofun with hsame | ⟨-, mode', hdirectory⟩
    · rw [hfile] at hsame
      obtain ⟨before, after, hnodes, -⟩ :=
        List.lookup_eq_some_iff.mp (Disk.lookup_of_find?_file hsame.symm)
      have hmem : (spot, Node.file content mode) ∈ Store.bareDisk.nodes := by
        rw [hnodes]
        simp
      exact congrArg Prod.fst (List.mem_singleton.mp hmem)
    · rw [hfile] at hdirectory
      cases hdirectory

end Snapshot

end SnapshotStore
