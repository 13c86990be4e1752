import SnapshotStore.Proofs.Disk.Elsewhere

/-!
# Writable directories

**Theorem (`replace_of_writable`).** Where a directory may be written, a file in it can be replaced,
if no directory stands in its place and there is room for the name of the temporary file.

**Theorem (`rename_of_long`).** Where there is no room for a name, nothing is renamed to it. So a
file may be one that can be replaced, but not moved aside.

How long the name of a temporary file gets depends on how much there is on the disk, and replacing a
file adds little to that (`length_nodes_exchange_le`).
-/

namespace SnapshotStore

theorem FilePath.endsInEntry_withName (path : FilePath) {name : String} (h : name ≠ "..") :
    (path.withName name).endsInEntry = true := by
  unfold endsInEntry withName
  rw [List.getLast?_concat]
  exact bne_iff_ne.mpr h

namespace Disk

variable {disk disk' : Disk} {path : FilePath} {directory : Location} {name : String}
  {content : ByteArray} {mode : Nat}

/-- A directory that may be listed, and in which files may be made and renamed. -/
structure Writable (disk : Disk) (directory : Location) : Prop where
  stands : ∃ mode, disk.find? directory = some (.directory mode)
  pass : disk.permits directory .pass = true
  write : disk.permits directory .write = true
  read : disk.permits directory .read = true

theorem Writable.of_find? (h : disk.Writable directory)
    (hsame : disk'.find? directory = disk.find? directory) : disk'.Writable directory where
  stands := hsame ▸ h.stands
  pass := (permits_of_find? hsame _).trans h.pass
  write := (permits_of_find? hsame _).trans h.write
  read := (permits_of_find? hsame _).trans h.read

/-! ## Names beside a path -/

theorem enter_of_check (hcheck : path.check = .ok ()) (hnames : path.names ≠ []) :
    disk.enter path = .ok path.start := by
  have hsome : path.names.isEmpty = false := List.isEmpty_eq_false_iff.mpr hnames
  unfold enter
  rw [hcheck]
  simp only [hsome, bind, Except.bind, Bool.and_false, Bool.false_and, Bool.false_eq_true, if_false]

/-- Names are followed from where the names before them lead. -/
theorem walk_append_of_ok {here between : Location} {names : List String}
    (h : disk.walk here names = .ok between) (rest : List String) :
    disk.walk here (names ++ rest) = disk.walk between rest := by
  induction names generalizing here with
  | nil => rw [List.nil_append, Except.ok.inj h]
  | cons name names ih =>
    obtain ⟨⟨mode, hstands⟩, hpass, hsize, h⟩ := walk_cons_eq_ok.mp h
    rw [List.cons_append, walk, hstands]
    simp only [hpass, Bool.not_true, Bool.false_eq_true, if_false, Nat.not_lt.mpr hsize]
    exact ih h

section Beside

variable (hparent : disk.locate path.parent = .ok directory) (hwritable : disk.Writable directory)
include hparent hwritable

theorem locate_withName (hcheck : (path.withName name).check = .ok ()) :
    disk.locate (path.withName name) =
      if maxNameSize < name.utf8ByteSize then .error .nameTooLong
      else .ok (path.withName name).destination := by
  obtain ⟨-, hwalk⟩ := locate_eq_ok.mp hparent
  obtain ⟨mode, hstands⟩ := hwritable.stands
  have henter : disk.enter (path.withName name) = .ok path.start :=
    enter_of_check hcheck (List.append_ne_nil_of_right_ne_nil _ (List.cons_ne_nil _ _))
  have hlocate : disk.locate (path.withName name) =
      if maxNameSize < name.utf8ByteSize then .error .nameTooLong
      else .ok (directory.step name) := by
    have hnames : (path.withName name).names = path.parent.names ++ [name] := rfl
    unfold locate
    rw [henter, hnames]
    change disk.walk path.parent.start (path.parent.names ++ [name]) = _
    rw [walk_append_of_ok hwalk, walk, hstands]
    simp only [hwritable.pass, Bool.not_true, Bool.false_eq_true, if_false, gt_iff_lt]
    rfl
  split_ifs at hlocate ⊢
  · exact hlocate
  · rw [hlocate, locate_eq_destination hlocate]

/-- **Nothing is renamed to a name for which there is no room.** -/
theorem rename_of_long {spot : Location} (hlocate : disk.locate path = .ok spot)
    (hcheck : (path.withName name).check = .ok ()) (hlong : maxNameSize < name.utf8ByteSize) :
    disk.rename path (path.withName name) = .error .nameTooLong := by
  have hlocate' := locate_withName hparent hwritable hcheck
  rw [if_pos hlong] at hlocate'
  unfold rename
  rw [hlocate, hlocate']
  rfl

end Beside

/-- There is no file under a name for which there is no room. -/
theorem not_hasFile_of_long (disk : Disk) (path : FilePath)
    (hlong : maxNameSize < name.utf8ByteSize) (content : ByteArray) :
    ¬ disk.HasFile (path.withName name) content := by
  rintro ⟨mode, hnode⟩
  obtain ⟨between, -, hwalk⟩ :=
    walk_append_eq_ok.mp (locate_eq_ok.mp (node_eq_ok.mp hnode).1).2
  exact Nat.not_lt.mpr (walk_cons_eq_ok.mp hwalk).2.2.1 hlong

/-- A name in the working directory is a path, if it has no NUL and is not too long. -/
theorem check_of_name (hname : '\x00' ∉ name.toList) (hsize : name.utf8ByteSize ≤ maxPathSize) :
    (⟨"", [name]⟩ : FilePath).check = .ok () := by
  have htext : (⟨"", [name]⟩ : FilePath).text = name := by
    simp [FilePath.text]
  unfold FilePath.check
  rw [htext, if_neg (by simpa using hname), if_neg (Nat.not_lt.mpr hsize)]

/-! ## Operations that succeed -/

theorem write_of_free (hlocate : disk.locate path = .ok path.destination)
    (hfree : disk.find? path.destination = none)
    (hpermits : disk.permits path.destination.dropLast .write = true) :
    disk.write path content = .ok (disk.put path.destination (.file content fileMode)) := by
  unfold write
  rw [hlocate]
  simp only [bind, Except.bind, hfree, hpermits, if_true]

theorem write_of_file {old : ByteArray} (hlocate : disk.locate path = .ok path.destination)
    (hfile : disk.find? path.destination = some (.file old mode))
    (hpermits : disk.permits path.destination .write = true) :
    disk.write path content =
      .ok (disk.put path.destination (.file content (writtenMode mode))) := by
  unfold write
  rw [hlocate]
  simp only [bind, Except.bind, hfile, hpermits, if_true]

theorem setMode_of_node {node : Node} (h : disk.node path = .ok node)
    (hroot : path.destination ≠ Location.root) :
    disk.setMode path mode = .ok (disk.put path.destination (node.withMode mode)) := by
  unfold setMode
  rw [(node_eq_ok.mp h).1, h]
  simp only [bind, Except.bind, hroot, if_false]

theorem rename_of_file {source target : FilePath}
    (hfile : disk.node source = .ok (.file content mode))
    (htarget : disk.locate target = .ok target.destination)
    (hends : source.endsInEntry = true ∧ target.endsInEntry = true)
    (hparents : disk.permits source.destination.dropLast .write = true ∧
      disk.permits target.destination.dropLast .write = true)
    (hapart : ¬ source.destination <+: target.destination)
    (hdirectory : ∀ mode, disk.find? target.destination ≠ some (.directory mode)) :
    ∃ renamed, disk.rename source target = .ok renamed := by
  have hne : source.destination ≠ target.destination := by
    rintro heq
    exact hapart (heq ▸ List.prefix_rfl)
  have hbelow : source.destination.isPrefixOf target.destination = false := by
    rwa [← Bool.not_eq_true, List.isPrefixOf_iff_prefix]
  unfold rename
  rw [(node_eq_ok.mp hfile).1, htarget, hfile]
  simp only [bind, Except.bind, hends, hparents, hne, hbelow, Bool.not_true, Bool.or_self,
    Bool.false_eq_true, if_false]
  cases hstands : disk.find? target.destination with
  | none => exact ⟨_, rfl⟩
  | some node =>
    cases node with
    | file content mode => exact ⟨_, rfl⟩
    | directory mode => exact absurd hstands (hdirectory mode)

/-! ## Replacing a file -/

/-- A temporary file goes into the directory of another file, and not where that one is. -/
structure Beside (temporary path : FilePath) : Prop where
  ends : temporary.endsInEntry = true ∧ path.endsInEntry = true
  parents : temporary.destination.dropLast = path.parent.destination ∧
    path.destination.dropLast = path.parent.destination
  apart : ¬ temporary.destination <+: path.destination
  notRoot : temporary.destination ≠ Location.root

theorem numberedName_ne_name (path : FilePath) (n : Nat) : numberedName path n ≠ path.name := by
  intro h
  have hlength := congrArg String.length h
  have hdot : ".".length = 1 := rfl
  simp only [numberedName, String.length_append, hdot] at hlength
  omega

theorem beside_temporaryName (disk : Disk) (hends : path.endsInEntry = true) :
    Beside (path.withName (disk.temporaryName path)) path := by
  obtain ⟨n, -, hname, -⟩ := disk.temporaryName_free path
  have hdots : numberedName path n ≠ ".." := numberedName_ne path n (by decide)
  have hspot := FilePath.destination_withName path hdots
  have hpath := FilePath.destination_of_endsInEntry hends
  rw [hname]
  refine ⟨⟨FilePath.endsInEntry_withName path hdots, hends⟩, ⟨?_, ?_⟩, ?_, fun hroot => ?_⟩
  · rw [hspot, List.dropLast_concat]
  · rw [hpath, List.dropLast_concat]
  · rw [hspot, hpath, List.prefix_append_right_inj, List.cons_prefix_cons]
    exact fun h => numberedName_ne_name path n h.1
  · have hnever := alwaysStands_append_numberedName path.parent.destination path n
    rw [← hspot, hroot] at hnever
    cases hnever

theorem Beside.find?_path {temporary : FilePath} (h : Beside temporary path)
    (hagree : AgreeOff disk disk' [temporary.destination]) :
    disk'.find? path.destination = disk.find? path.destination :=
  hagree _ (List.forall_mem_singleton.mpr h.apart)

/-- A change at a place in a directory leaves the directory writable. -/
theorem Writable.of_agreeOff {spot : Location} (h : disk.Writable directory)
    (hspot : spot.dropLast = directory) (hne : spot ≠ []) (hagree : AgreeOff disk disk' [spot]) :
    disk'.Writable directory := by
  refine h.of_find? (hagree _ (List.forall_mem_singleton.mpr fun hprefix => ?_))
  have hlength := hprefix.length_le
  have hpos := List.length_pos_of_ne_nil hne
  rw [← hspot, List.length_dropLast] at hlength
  omega

theorem permits_temporary {spot : Location} {old : ByteArray}
    (hfile : disk.find? spot = some (.file old temporaryMode)) (hroot : spot ≠ Location.root) :
    disk.permits spot .write = true := by
  have hmode : (Node.file old temporaryMode).permits .write = true := by
    change temporaryMode.testBit Permission.write.bit = true
    decide
  unfold permits
  simp only [hfile, hmode, beq_eq_false_iff_ne.mpr hroot, Bool.false_and, Bool.not_false,
    Bool.and_self]

section Temporary

variable {temporary : FilePath} (hbeside : Beside temporary path)
  (hwritable : disk.Writable path.parent.destination)
include hbeside hwritable

/-- A new temporary file can be made. -/
theorem createTemporary_of_writable (htemporary : disk.locate temporary = .ok temporary.destination)
    (hfree : disk.find? temporary.destination = none) :
    ∃ created, (do (← disk.write temporary .empty).setMode temporary temporaryMode) = .ok created ∧
      AgreeOff disk created [temporary.destination] ∧
      created.node temporary = .ok (.file .empty temporaryMode) := by
  let written := disk.put temporary.destination (.file .empty fileMode)
  let created := written.put temporary.destination (.file .empty temporaryMode)
  have hplaces := notOnTheWay_free hfree
  have hwritten : AgreeOff disk written [temporary.destination] := agreeOff_put _ _ _
  have hcreated : AgreeOff disk created [temporary.destination] :=
    hwritten.trans (agreeOff_put _ _ _)
  have hwrite : disk.write temporary .empty = .ok written :=
    write_of_free htemporary hfree (hbeside.parents.1.symm ▸ hwritable.write)
  have hset : written.setMode temporary temporaryMode = .ok created :=
    setMode_of_node (node_eq_ok.mpr
      ⟨(locate_of_agreeOff hwritten hplaces htemporary).1, find?_put_self _ _ _⟩) hbeside.notRoot
  refine ⟨created, ?_, hcreated, node_eq_ok.mpr
    ⟨(locate_of_agreeOff hcreated hplaces htemporary).1, find?_put_self _ _ _⟩⟩
  rw [hwrite]
  exact hset

variable (hlocate : disk.locate path = .ok path.destination)
  (hdirectory : ∀ mode, disk.find? path.destination ≠ some (.directory mode))
include hlocate hdirectory

/-- Filling the temporary file and renaming it succeeds. -/
theorem fillAndRename_of_writable {old : ByteArray}
    (htemporary : disk.node temporary = .ok (.file old temporaryMode)) :
    ∃ replaced, disk.fillAndRename temporary path content mode none = .ok replaced := by
  obtain ⟨hfrom, hfile⟩ := node_eq_ok.mp htemporary
  have hne := FilePath.destination_ne_nil hbeside.ends.1
  have hplaces : disk.NotOnTheWay [temporary.destination] :=
    notOnTheWay_cons.mpr ⟨⟨hne, by simp [hfile]⟩, fun _ hnil => absurd hnil List.not_mem_nil⟩
  -- up to the rename the temporary file is all that changes
  let written := disk.put temporary.destination (.file content (writtenMode temporaryMode))
  let ready := written.put temporary.destination (.file content mode)
  have hwritten : AgreeOff disk written [temporary.destination] := agreeOff_put _ _ _
  have hready : AgreeOff disk ready [temporary.destination] := hwritten.trans (agreeOff_put _ _ _)
  have hwrite : disk.write temporary content = .ok written :=
    write_of_file hfrom hfile (permits_temporary hfile hbeside.notRoot)
  have hset : written.setMode temporary mode = .ok ready :=
    setMode_of_node (node_eq_ok.mpr
      ⟨(locate_of_agreeOff hwritten hplaces hfrom).1, find?_put_self _ _ _⟩) hbeside.notRoot
  have hwrite' := (hwritable.of_agreeOff hbeside.parents.1 hne hready).write
  obtain ⟨renamed, hrename⟩ := rename_of_file
    (node_eq_ok.mpr ⟨(locate_of_agreeOff hready hplaces hfrom).1, find?_put_self _ _ _⟩)
    (locate_of_agreeOff hready hplaces hlocate).1 hbeside.ends
    ⟨hbeside.parents.1.symm ▸ hwrite', hbeside.parents.2.symm ▸ hwrite'⟩ hbeside.apart
    (hbeside.find?_path hready ▸ hdirectory)
  refine ⟨renamed, ?_⟩
  unfold fillAndRename attempt
  simp only [bind, Except.bind, hwrite, hset, hrename, reduceCtorEq, decide_false,
    Bool.false_eq_true, if_false]

theorem exchangeBeside_of_writable (hname : path.withName (disk.temporaryName path) = temporary)
    (htemporary : disk.locate temporary = .ok temporary.destination)
    (hfree : disk.find? temporary.destination = none) (content : ByteArray) :
    (disk.exchangeBeside path content none).1 = .ok () := by
  obtain ⟨created, hcreate, hagree, hnode⟩ :=
    createTemporary_of_writable hbeside hwritable htemporary hfree
  obtain ⟨replaced, hfill⟩ : ∃ replaced,
      created.fillAndRename temporary path content (disk.modeFor path) none = .ok replaced :=
    fillAndRename_of_writable hbeside
      (hwritable.of_agreeOff hbeside.parents.1 (ne_nil_of_find? hfree) hagree)
      (locate_of_agreeOff hagree (notOnTheWay_free hfree) hlocate).1
      (hbeside.find?_path hagree ▸ hdirectory) hnode
  unfold exchangeBeside
  simp only [hname, hcreate, hfill, attempt, reduceCtorEq, decide_false, Bool.false_eq_true,
    if_false]

end Temporary

section Replace

variable (hparent : disk.locate path.parent = .ok path.parent.destination)
  (hwritable : disk.Writable path.parent.destination)
  (hdirectory : ∀ mode, disk.find? path.destination ≠ some (.directory mode))
include hparent hwritable

theorem exchange_eq_exchangeBeside (content : ByteArray) :
    disk.exchange path content none = disk.exchangeBeside path content none := by
  obtain ⟨henter, hwalk⟩ := locate_eq_ok.mp hparent
  have hmade : disk.makeDirectories path.parent = (.ok (), disk) := by
    unfold makeDirectories
    rw [henter]
    exact makeWay_of_walk hwalk hwritable.stands
  unfold exchange
  rw [if_neg (by simp), hmade]

/-- A directory can be opened to sync it if it may be listed. -/
theorem syncDirectory_of_writable : disk.syncDirectory path none = .ok () := by
  obtain ⟨mode, hstands⟩ := hwritable.stands
  have hnode : disk.node path.parent = .ok (.directory mode) := node_eq_ok.mpr ⟨hparent, hstands⟩
  have hlist : disk.list path.parent = .ok (disk.children path.parent.destination) := by
    unfold list
    rw [hparent, hnode]
    simp only [bind, Except.bind, hwritable.read, if_true]
  unfold syncDirectory attempt
  rw [hlist]
  rfl

include hdirectory

/-- Exchanging a file leaves its directory as it is. -/
theorem writable_exchange (content : ByteArray) :
    (disk.exchange path content none).2.locate path.parent = .ok path.parent.destination ∧
      (disk.exchange path content none).2.Writable path.parent.destination := by
  have henter : disk.enter path.parent = .ok path.parent.start := (locate_eq_ok.mp hparent).1
  obtain ⟨places, hagree, hplaces, hwhich⟩ := agreeOff_exchangeBeside henter content none
  rw [exchange_eq_exchangeBeside hparent hwritable]
  obtain ⟨hlocate, hbelow⟩ := locate_of_agreeOff hagree hplaces hparent
  refine ⟨hlocate, hwritable.of_find? (hagree _ fun place hplace hprefix => ?_)⟩
  obtain ⟨mode, hstands⟩ := hwritable.stands
  rw [← hbelow place hplace hprefix] at hstands
  rcases hwhich place hplace with hnone | ⟨rfl, -⟩
  · rw [hnone] at hstands
    cases hstands
  · exact hdirectory mode hstands

/-- **In a directory that may be written a file can be replaced,** if no directory stands in its
place and there is room for the name of the temporary file. -/
theorem replace_of_writable (hlocate : disk.locate path = .ok path.destination)
    (hends : path.endsInEntry = true)
    (hcheck : (path.withName (disk.temporaryName path)).check = .ok ())
    (hsize : (disk.temporaryName path).utf8ByteSize ≤ maxNameSize) (content : ByteArray) :
    (disk.replace path content none).1 = .ok () := by
  have henter : disk.enter path.parent = .ok path.parent.start := (locate_eq_ok.mp hparent).1
  have htemporary := locate_withName hparent hwritable hcheck
  rw [if_neg (Nat.not_lt.mpr hsize)] at htemporary
  have hexchanged : (disk.exchange path content none).1 = .ok () := by
    rw [exchange_eq_exchangeBeside hparent hwritable]
    exact exchangeBeside_of_writable (disk.beside_temporaryName hends) hwritable hlocate hdirectory
      rfl htemporary (find?_temporary henter htemporary).2 content
  obtain ⟨hparent', hwritable'⟩ := writable_exchange hparent hwritable hdirectory content
  generalize hresult : disk.exchange path content none = result at hexchanged hparent' hwritable'
  obtain ⟨outcome, replaced⟩ := result
  obtain rfl : outcome = .ok () := hexchanged
  unfold replace
  rw [hresult]
  dsimp only
  rw [syncDirectory_of_writable hparent' hwritable']
  rfl

end Replace

/-! ## After a file was replaced -/

theorem length_nodes_put_le (disk : Disk) (spot : Location) (node : Node) :
    (disk.put spot node).nodes.length ≤ disk.nodes.length + 1 := by
  have hkept := List.length_filter_le (fun entry => entry.1 != spot) disk.nodes
  rw [put, List.length_append, List.length_singleton]
  omega

theorem length_nodes_write_le (h : disk.write path content = .ok disk') :
    disk'.nodes.length ≤ disk.nodes.length + 1 := by
  obtain ⟨-, -, _, rfl⟩ := write_eq_ok h
  exact length_nodes_put_le _ _ _

theorem length_nodes_setMode_le (h : disk.setMode path mode = .ok disk') :
    disk'.nodes.length ≤ disk.nodes.length + 1 := by
  obtain ⟨_, -, rfl⟩ := setMode_eq_ok h
  exact length_nodes_put_le _ _ _

theorem length_nodes_erase_le (disk : Disk) (spot : Location) :
    (disk.erase spot).nodes.length ≤ disk.nodes.length :=
  List.length_filter_le _ _

theorem length_nodes_discard_le (disk : Disk) (path : FilePath) :
    (disk.discard path).nodes.length ≤ disk.nodes.length := by
  unfold discard
  split
  · exact length_nodes_erase_le _ _
  · exact le_rfl

theorem length_nodes_rename_le {source target : FilePath}
    (h : disk.rename source target = .ok disk') : disk'.nodes.length ≤ disk.nodes.length := by
  obtain ⟨-, -, -, -, ⟨-, rfl⟩ | ⟨rfl, -⟩⟩ := rename_eq_ok h
  · exact le_rfl
  · rw [carry, List.length_map]
    exact length_nodes_erase_le disk _

/-- Each of the four steps up to the rename puts one thing in place. -/
theorem length_nodes_exchangeBeside_le (disk : Disk) (path : FilePath) (content : ByteArray)
    (fault : Option ReplaceStep) :
    (disk.exchangeBeside path content fault).2.nodes.length ≤ disk.nodes.length + 4 := by
  unfold exchangeBeside
  dsimp only
  split
  · exact Nat.le_add_right _ _
  next created hcreated =>
  obtain ⟨empty, hempty, hset⟩ := bind_eq_ok.mp (attempt_eq_ok.mp hcreated).2
  have hcreate : created.nodes.length ≤ disk.nodes.length + 2 :=
    (length_nodes_setMode_le hset).trans (Nat.succ_le_succ (length_nodes_write_le hempty))
  split
  · have hdiscard := created.length_nodes_discard_le (path.withName (disk.temporaryName path))
    exact hdiscard.trans (hcreate.trans (Nat.add_le_add_left (by decide) _))
  · next replaced hreplaced =>
    obtain ⟨written, hwritten, hreplaced⟩ := bind_eq_ok.mp hreplaced
    obtain ⟨ready, hready, hrenamed⟩ := bind_eq_ok.mp hreplaced
    calc replaced.nodes.length
        ≤ ready.nodes.length := length_nodes_rename_le (attempt_eq_ok.mp hrenamed).2
      _ ≤ written.nodes.length + 1 := length_nodes_setMode_le (attempt_eq_ok.mp hready).2
      _ ≤ created.nodes.length + 2 :=
        Nat.succ_le_succ (length_nodes_write_le (attempt_eq_ok.mp hwritten).2)
      _ ≤ disk.nodes.length + 4 := Nat.add_le_add_right hcreate 2

/-- A disk that has the directory of a file stays small when the file is replaced. -/
theorem length_nodes_exchange_le (hlocate : disk.locate path = .ok path.destination)
    (content : ByteArray) (fault : Option ReplaceStep) :
    (disk.exchange path content fault).2.nodes.length ≤ disk.nodes.length + 4 := by
  have hmade := makeDirectories_parent hlocate
  unfold exchange
  split
  · exact Nat.le_add_right _ _
  split
  · next e made hresult =>
    rw [hresult] at hmade
    obtain rfl : made = disk := hmade
    exact Nat.le_add_right _ _
  · next made hresult =>
    rw [hresult] at hmade
    obtain rfl : made = disk := hmade
    exact length_nodes_exchangeBeside_le _ _ _ _

/-- The working directory is left as it is. -/
theorem find?_nil_exchange (disk : Disk) (path : FilePath) (content : ByteArray)
    (fault : Option ReplaceStep) :
    (disk.exchange path content fault).2.find? [] = disk.find? [] := by
  have hmade : (disk.makeDirectories path.parent).2.find? [] = disk.find? [] := by
    unfold makeDirectories
    split
    · rfl
    · refine makeWay_induction (P := fun made => made.find? [] = disk.find? []) ?_ rfl
      intro made spot node hmade hfree
      rw [find?_put_of_ne made (ne_nil_of_find? hfree).symm, hmade]
  unfold exchange
  split
  · rfl
  split
  · next e made hresult => rwa [hresult] at hmade
  · next made hresult =>
    obtain ⟨places, hagree, hplaces, -⟩ :=
      agreeOff_exchangeBeside (enter_makeDirectories hresult) content fault
    rw [hresult] at hmade
    refine (hagree [] fun place hplace hprefix => ?_).trans hmade
    exact (hplaces place hplace).1 (List.prefix_nil.mp hprefix)

end Disk

end SnapshotStore
