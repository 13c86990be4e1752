import SnapshotStore.Proofs.Disk.Replace

/-!
# Other files

**Theorem (`node_exchange`).** Exchanging a file leaves every other file as it is, bytes and mode,
whether it succeeds or fails, at whichever step.

**Theorem (`node_exchange_error`).** When it fails, the file that was to be exchanged is as it was,
too.

**Theorem (`HasMode.exchange`).** Either way that file keeps its mode.

Each change is at a place that no path to a file can have passed: a missing directory, the
temporary file, where nothing stood before, and the file that is exchanged, which is no directory.
So the paths to other files lead where they led, and nothing changed there (`node_of_agreeOff`).
-/

namespace SnapshotStore

namespace Disk

variable {disk disk' : Disk} {path other : FilePath} {content : ByteArray} {mode : Nat}
  {fault : Option ReplaceStep}

/-- A change at places that are no directories keeps what stands elsewhere. -/
theorem node_of_agreeOff {places : List Location} {node : Node}
    (hagree : AgreeOff disk disk' places) (hplaces : disk.NotOnTheWay places)
    (helsewhere : path.destination ∉ places) (h : disk.node path = .ok node) :
    disk'.node path = .ok node := by
  obtain ⟨hlocate, hstands⟩ := node_eq_ok.mp h
  obtain ⟨hlocate', hbelow⟩ := locate_of_agreeOff hagree hplaces hlocate
  refine node_eq_ok.mpr ⟨hlocate', ?_⟩
  rw [hagree _ fun place hplace hprefix => helsewhere (hbelow place hplace hprefix ▸ hplace),
    hstands]

/-! ## Missing directories -/

/-- The working directory is always there. -/
theorem ne_nil_of_find? {spot : Location} (h : disk.find? spot = none) : spot ≠ [] := by
  rintro rfl
  unfold find? at h
  split at h
  · cases h
  · cases h

theorem notOnTheWay_free {spot : Location} (h : disk.find? spot = none) :
    disk.NotOnTheWay [spot] :=
  notOnTheWay_cons.mpr ⟨⟨ne_nil_of_find? h, fun _ => by simp [h]⟩,
    fun _ hnil => absurd hnil List.not_mem_nil⟩

/-- To make directories is to put things where nothing stands, one after the other. -/
theorem makeWay_induction {P : Disk → Prop} {here : Location} {names : List String}
    (hput : ∀ disk spot node, P disk → disk.find? spot = none → P (disk.put spot node))
    (h : P disk) : P (disk.makeWay here names).2 := by
  induction names generalizing disk here with
  | nil => exact h
  | cons name names ih =>
    unfold makeWay
    split
    · exact h
    split
    · exact h
    dsimp only
    split
    · exact ih h
    · exact h
    · next hfree =>
      split
      · exact ih (hput _ _ _ h hfree)
      · exact h

/-- Making directories keeps what is there. -/
theorem node_makeDirectories {node : Node} (directory : FilePath) (h : disk.node path = .ok node) :
    (disk.makeDirectories directory).2.node path = .ok node := by
  unfold makeDirectories
  split
  · exact h
  · refine makeWay_induction (P := fun disk => disk.node path = .ok node) ?_ h
    intro disk spot new h hfree
    refine node_of_agreeOff (agreeOff_put _ _ _) (notOnTheWay_free hfree) ?_ h
    rw [List.mem_singleton]
    rintro rfl
    rw [(node_eq_ok.mp h).2] at hfree
    cases hfree

theorem enter_makeDirectories {directory : FilePath} {made : Disk}
    (h : disk.makeDirectories directory = (.ok (), made)) :
    made.enter directory = .ok directory.start := by
  unfold makeDirectories at h
  split at h
  · cases h
  · next here henter =>
    obtain rfl : directory.start = here := start_of_enter henter
    have hmade := congrArg Prod.snd h
    subst hmade
    refine makeWay_induction (P := fun disk => disk.enter directory = .ok directory.start) ?_ henter
    intro disk spot new h hfree
    rw [enter_of_agreeOff (agreeOff_put _ _ _) (notOnTheWay_free hfree), h]

/-! ## The file and its temporary file -/

theorem AgreeOff.mono {places more : List Location} (h : AgreeOff disk disk' places)
    (hsubset : places ⊆ more) : AgreeOff disk disk' more :=
  fun spot hspot => h spot fun place hplace => hspot place (hsubset hplace)

theorem agreeOff_rename {source target : FilePath} (h : disk.rename source target = .ok disk') :
    AgreeOff disk disk' [source.destination, target.destination] := by
  obtain ⟨-, -, -, -, ⟨-, rfl⟩ | ⟨rfl, -⟩⟩ := rename_eq_ok h
  · exact AgreeOff.refl _ _
  · exact agreeOff_carry

/-- A new temporary file is the one change, and it takes no directory's place. -/
theorem agreeOff_createTemporary {temporary : FilePath} {fails : Bool}
    (h : attempt fails (do (← disk.write temporary .empty).setMode temporary temporaryMode) =
      .ok disk') :
    disk.locate temporary = .ok temporary.destination ∧
      AgreeOff disk disk' [temporary.destination] ∧
      ∀ spot, (∀ mode, disk'.find? spot ≠ some (.directory mode)) →
        ∀ mode, disk.find? spot ≠ some (.directory mode) := by
  obtain ⟨written, hwritten, h⟩ := bind_eq_ok.mp (attempt_eq_ok.mp h).2
  obtain ⟨hlocate, hfree, _, rfl⟩ := write_eq_ok hwritten
  obtain ⟨_, -, rfl⟩ := setMode_eq_ok h
  refine ⟨hlocate, (agreeOff_put _ _ _).trans (agreeOff_put _ _ _), fun spot hspot => ?_⟩
  exact find?_ne_directory_of_put hfree (find?_ne_directory_of_put (by simp) hspot)

theorem agreeOff_fillAndRename {temporary : FilePath}
    (h : disk.fillAndRename temporary path content mode fault = .ok disk') :
    AgreeOff disk disk' [temporary.destination, path.destination] ∧
      path.destination ≠ [] := by
  obtain ⟨written, hwritten, h⟩ := bind_eq_ok.mp h
  obtain ⟨ready, hready, h⟩ := bind_eq_ok.mp h
  obtain ⟨-, -, _, rfl⟩ := write_eq_ok (attempt_eq_ok.mp hwritten).2
  obtain ⟨_, -, rfl⟩ := setMode_eq_ok (attempt_eq_ok.mp hready).2
  have hrename := (attempt_eq_ok.mp h).2
  have hsubset : [temporary.destination] ⊆ [temporary.destination, path.destination] :=
    List.cons_subset_cons _ (List.nil_subset _)
  obtain ⟨-, -, -, hends, -⟩ := rename_eq_ok hrename
  exact ⟨(((agreeOff_put _ _ _).trans (agreeOff_put _ _ _)).mono hsubset).trans
    (agreeOff_rename hrename), FilePath.destination_ne_nil hends⟩

/-- Exchanging a file changes nothing but the temporary file, where nothing stood, and the file
itself if it succeeds; then the file is no directory. -/
theorem agreeOff_exchangeBeside {parent : Location} (henter : disk.enter path.parent = .ok parent)
    (content : ByteArray) (fault : Option ReplaceStep) :
    ∃ places, AgreeOff disk (disk.exchangeBeside path content fault).2 places ∧
      disk.NotOnTheWay places ∧
      ∀ spot ∈ places, disk.find? spot = none ∨
        spot = path.destination ∧ (disk.exchangeBeside path content fault).1 = .ok () := by
  generalize htemporary : path.withName (disk.temporaryName path) = temporary
  unfold exchangeBeside
  dsimp only
  rw [htemporary]
  split
  · exact ⟨[], AgreeOff.refl _ _, fun _ hnil => absurd hnil List.not_mem_nil,
      fun _ hnil => absurd hnil List.not_mem_nil⟩
  next created hcreated =>
  obtain ⟨hlocate, hagree, hback⟩ := agreeOff_createTemporary hcreated
  have hnone : disk.find? temporary.destination = none := by
    subst htemporary
    exact (find?_temporary henter hlocate).2
  split
  · exact ⟨[temporary.destination], agreeOff_discard hagree rfl, notOnTheWay_free hnone,
      List.forall_mem_singleton.mpr (.inl hnone)⟩
  next replaced hreplaced =>
  obtain ⟨hagree', hne⟩ := agreeOff_fillAndRename hreplaced
  obtain ⟨-, -, hdirectory⟩ := fillAndRename_eq_ok hreplaced
  have hplaces : disk.NotOnTheWay [temporary.destination, path.destination] :=
    notOnTheWay_cons.mpr ⟨notOnTheWay_free hnone _ (List.mem_singleton_self _),
      notOnTheWay_cons.mpr ⟨⟨hne, hback _ hdirectory⟩, fun _ hnil => absurd hnil List.not_mem_nil⟩⟩
  exact ⟨[temporary.destination, path.destination],
    (hagree.mono (List.cons_subset_cons _ (List.nil_subset _))).trans hagree', hplaces,
    List.forall_mem_cons.mpr ⟨.inl hnone, List.forall_mem_singleton.mpr (.inr ⟨rfl, rfl⟩)⟩⟩

/-- A file keeps its bytes and mode while another one is exchanged, and when it fails to be
exchanged itself. -/
theorem node_exchange_of (h : disk.node other = .ok (.file content mode)) (path : FilePath)
    (new : ByteArray) (fault : Option ReplaceStep)
    (hother : (disk.exchange path new fault).1 = .ok () → other.destination ≠ path.destination) :
    (disk.exchange path new fault).2.node other = .ok (.file content mode) := by
  revert hother
  unfold exchange
  split
  · exact fun _ => h
  have hmade := node_makeDirectories path.parent h
  generalize hresult : disk.makeDirectories path.parent = result at hmade
  obtain ⟨outcome, made⟩ := result
  cases outcome with
  | error e => exact fun _ => hmade
  | ok =>
    intro hother
    obtain ⟨places, hagree, hplaces, hwhich⟩ :=
      agreeOff_exchangeBeside (enter_makeDirectories hresult) new fault
    refine node_of_agreeOff hagree hplaces (fun hmem => ?_) hmade
    rcases hwhich _ hmem with hnone | ⟨hsame, hok⟩
    · rw [(node_eq_ok.mp hmade).2] at hnone
      cases hnone
    · exact hother hok hsame

/-- **Exchanging a file leaves every other file as it is,** whether it succeeds or not. -/
theorem node_exchange (h : disk.node other = .ok (.file content mode))
    (hother : other.destination ≠ path.destination) (new : ByteArray)
    (fault : Option ReplaceStep) :
    (disk.exchange path new fault).2.node other = .ok (.file content mode) :=
  node_exchange_of h path new fault fun _ => hother

/-- **When exchanging a file fails,** the file is as it was. -/
theorem node_exchange_error (h : disk.node path = .ok (.file content mode)) {new : ByteArray}
    {e : DiskError} (herror : (disk.exchange path new fault).1 = .error e) :
    (disk.exchange path new fault).2.node path = .ok (.file content mode) :=
  node_exchange_of h path new fault fun hok => absurd (hok.symm.trans herror) (by simp)

/-! ## The bytes of a file -/

/-- There is a file with these bytes where a path leads. It need not be one that may be read. -/
def HasFile (disk : Disk) (path : FilePath) (content : ByteArray) : Prop :=
  ∃ mode, disk.node path = .ok (.file content mode)

/-- A file is read as its bytes, or it may not be read. -/
theorem read_of_hasFile (h : disk.HasFile path content) :
    disk.read path = .ok content ∨ disk.read path = .error .denied := by
  obtain ⟨mode, hnode⟩ := h
  unfold read
  rw [hnode]
  by_cases hmode : (Node.file content mode).permits .read = true
  · exact .inl (if_pos hmode)
  · exact .inr (if_neg hmode)

theorem hasFile_of_read (h : disk.read path = .ok content) : disk.HasFile path content := by
  obtain ⟨hlocate, mode, hstands, -⟩ := read_eq_ok.mp h
  exact ⟨mode, node_eq_ok.mpr ⟨hlocate, hstands⟩⟩

theorem node_exchange_ok (h : disk.exchange path content fault = (.ok (), disk')) :
    disk'.node path =
      .ok (.file content ((disk.makeDirectories path.parent).2.modeFor path)) := by
  unfold exchange at h
  split at h
  · cases h
  split at h
  · cases h
  next made hmade =>
  rw [hmade]
  unfold exchangeBeside at h
  dsimp only at h
  split at h
  · cases h
  split at h
  · cases h
  next replaced hreplaced =>
  cases h
  obtain ⟨hlocate, hstands, -⟩ := fillAndRename_eq_ok hreplaced
  exact node_eq_ok.mpr ⟨hlocate, hstands⟩

/-- Once a file is exchanged, it has the new bytes. -/
theorem hasFile_exchange (h : disk.exchange path content fault = (.ok (), disk')) :
    disk'.HasFile path content :=
  ⟨_, node_exchange_ok h⟩

/-- A file that is renamed has its bytes under the new name. -/
theorem hasFile_rename {source target : FilePath} (h : disk.HasFile source content)
    (hrename : disk.rename source target = .ok disk') : disk'.HasFile target content := by
  obtain ⟨mode, hnode⟩ := h
  obtain ⟨hlocate, -, hstands⟩ := rename_file (node_eq_ok.mp hnode).2 hrename
  exact ⟨mode, node_eq_ok.mpr ⟨hlocate, hstands⟩⟩

/-! ## The mode of a file -/

/-- There is a file with this mode where a path leads. -/
def HasMode (disk : Disk) (path : FilePath) (mode : Nat) : Prop :=
  ∃ content, disk.node path = .ok (.file content mode)

/-- Whether a file may be read depends on its mode. -/
theorem HasMode.readable_iff (h : disk.HasMode path mode) :
    disk.Readable path ↔ mode.testBit Permission.read.bit = true := by
  obtain ⟨content, hnode⟩ := h
  have hstands := (node_eq_ok.mp hnode).2
  constructor
  · exact fun hreadable => hreadable content mode hstands
  · intro hmode content' mode' hstands'
    obtain ⟨rfl, rfl⟩ := Node.file.inj (Option.some.inj (hstands.symm.trans hstands'))
    exact hmode

/-- **A file keeps its mode** when it is exchanged, and when that fails. -/
theorem HasMode.exchange (h : disk.HasMode path mode) (new : ByteArray)
    (fault : Option ReplaceStep) : (disk.exchange path new fault).2.HasMode path mode := by
  obtain ⟨content, hnode⟩ := h
  generalize hresult : disk.exchange path new fault = result
  obtain ⟨outcome, disk'⟩ := result
  cases outcome with
  | error e =>
    have hkept := node_exchange_error hnode (congrArg Prod.fst hresult)
    rw [hresult] at hkept
    exact ⟨content, hkept⟩
  | ok =>
    have hmode : (disk.makeDirectories path.parent).2.modeFor path = mode := by
      unfold modeFor
      rw [node_makeDirectories path.parent hnode]
      rfl
    exact ⟨new, hmode ▸ node_exchange_ok hresult⟩

end Disk

end SnapshotStore
