import SnapshotStore.Proofs.Disk.Writable

/-!
# Disks that are trees

A disk may list anything at any location. It is well-formed (`Disk.WellFormed`) when it is a tree:
what stands somewhere stands in a directory, and what stands on every disk is a directory.

**Theorem (`find?_exchange_error`, `find?_exchange_ok`).** On a well-formed disk exchanging a file
changes nothing at any location, whether it succeeds or at whichever step it fails, but for
directories that are made where nothing stood (`OnlyDirectories`) and, when it succeeds, for the
file itself. So no temporary file is left.

Nothing stands below a location that is no directory (`WellFormed.find?_below`). Thus what a removal
or a rename of a file does to all that is below it, it does to the file alone.
-/

namespace SnapshotStore

namespace Disk

/-- What stands on a disk stands in a directory. The locations that are always there are
directories. -/
structure WellFormed (disk : Disk) : Prop where
  parent : ∀ spot node, disk.find? spot = some node →
    ∃ mode, disk.find? spot.dropLast = some (.directory mode)
  standing : ∀ spot, Location.alwaysStands spot = true →
    ∃ mode, disk.find? spot = some (.directory mode)

/-- Off some locations the disks hold the same, but for directories where nothing stood. -/
def OnlyDirectories (disk disk' : Disk) (apart : List Location) : Prop :=
  ∀ spot ∉ apart, disk'.find? spot = disk.find? spot ∨
    disk.find? spot = none ∧ ∃ mode, disk'.find? spot = some (.directory mode)

variable {disk disk' : Disk} {spot here : Location} {path : FilePath} {content : ByteArray}
  {mode : Nat} {fault : Option ReplaceStep}

theorem wellFormed_empty : Disk.empty.WellFormed := by
  have hfind (spot : Location) : Disk.empty.find? spot =
      if spot.alwaysStands then some (.directory directoryMode) else none := rfl
  refine ⟨fun spot node hnode => ⟨directoryMode, ?_⟩, fun spot hspot => ⟨directoryMode, ?_⟩⟩
  · rw [hfind] at hnode ⊢
    split_ifs at hnode with hspot
    rw [if_pos]
    simp only [Location.alwaysStands, Bool.or_eq_true, beq_iff_eq, List.all_eq_true] at hspot ⊢
    rcases hspot with hdots | rfl
    · exact .inl fun name hname => hdots name (List.dropLast_subset _ hname)
    · exact .inl fun _ hname => absurd hname List.not_mem_nil
  · rw [hfind, if_pos hspot]

namespace OnlyDirectories

theorem refl (disk : Disk) (apart : List Location) : OnlyDirectories disk disk apart :=
  fun _ _ => .inl rfl

theorem trans {disk'' : Disk} {apart : List Location} (h : OnlyDirectories disk disk' apart)
    (h' : OnlyDirectories disk' disk'' apart) : OnlyDirectories disk disk'' apart := by
  intro spot hspot
  rcases h' spot hspot with hsame | ⟨hfree, hmade⟩
  · rw [hsame]
    exact h spot hspot
  · rcases h spot hspot with hsame | ⟨-, mode, hmode⟩
    · exact .inr ⟨hsame ▸ hfree, hmade⟩
    · rw [hfree] at hmode
      cases hmode

theorem mono {apart more : List Location} (h : OnlyDirectories disk disk' apart)
    (hsubset : apart ⊆ more) : OnlyDirectories disk disk' more :=
  fun spot hspot => h spot fun hmem => hspot (hsubset hmem)

theorem of_find? {apart : List Location} (h : ∀ spot ∉ apart, disk'.find? spot = disk.find? spot) :
    OnlyDirectories disk disk' apart := fun spot hspot => .inl (h spot hspot)

end OnlyDirectories

namespace WellFormed

/-- Whether a disk is well-formed depends on what stands where. -/
theorem of_find? (h : disk.WellFormed) (hsame : ∀ spot, disk'.find? spot = disk.find? spot) :
    disk'.WellFormed := by
  refine ⟨fun spot node hnode => ?_, fun spot hspot => ?_⟩
  · rw [hsame] at hnode ⊢
    exact h.parent spot node hnode
  · rw [hsame]
    exact h.standing spot hspot

/-- Something in a directory, and in the place of no directory unless it is one. -/
theorem of_find?_of_ne (h : disk.WellFormed) {node : Node}
    (hsame : ∀ other ≠ spot, disk'.find? other = disk.find? other)
    (hnode : disk'.find? spot = some node)
    (hplace : (∃ mode, node = .directory mode) ∨ ∀ mode, disk.find? spot ≠ some (.directory mode))
    (hparent : ∃ mode, disk.find? spot.dropLast = some (.directory mode)) : disk'.WellFormed := by
  -- directories stay directories
  have hkept {other : Location} (hother : ∃ mode, disk.find? other = some (.directory mode)) :
      ∃ mode, disk'.find? other = some (.directory mode) := by
    rcases eq_or_ne other spot with rfl | hne
    · rcases hplace with ⟨mode, rfl⟩ | hfree
      · exact ⟨mode, hnode⟩
      · exact absurd hother.choose_spec (hfree _)
    · rwa [hsame other hne]
  refine ⟨fun other node' hstands => ?_, fun other hother => hkept (h.standing other hother)⟩
  rcases eq_or_ne other spot with rfl | hne
  · exact hkept hparent
  · rw [hsame other hne] at hstands
    exact hkept (h.parent other node' hstands)

theorem put (h : disk.WellFormed) {node : Node}
    (hplace : (∃ mode, node = .directory mode) ∨ ∀ mode, disk.find? spot ≠ some (.directory mode))
    (hparent : ∃ mode, disk.find? spot.dropLast = some (.directory mode)) :
    (disk.put spot node).WellFormed :=
  h.of_find?_of_ne (fun _ hne => find?_put_of_ne disk hne node) (find?_put_self _ _ _) hplace
    hparent

/-- Nothing stands below what is no directory. -/
theorem find?_below (h : disk.WellFormed)
    (hspot : ∀ mode, disk.find? spot ≠ some (.directory mode)) {other : Location}
    (hbelow : spot <+: other) (hne : other ≠ spot) : disk.find? other = none := by
  obtain ⟨rest, rfl⟩ := hbelow
  have hrest : rest ≠ [] := by
    rintro rfl
    exact hne (List.append_nil spot)
  induction rest using List.reverseRecOn with
  | nil => exact absurd rfl hrest
  | append_singleton rest name ih =>
    refine Option.eq_none_iff_forall_ne_some.mpr fun node hnode => ?_
    obtain ⟨mode, hmode⟩ := h.parent _ node hnode
    rw [← List.append_assoc, List.dropLast_concat] at hmode
    by_cases hnil : rest = []
    · subst hnil
      rw [List.append_nil] at hmode
      exact hspot mode hmode
    · rw [ih (fun heq => hnil (List.append_right_eq_self.mp heq)) hnil] at hmode
      cases hmode

theorem not_alwaysStands (h : disk.WellFormed)
    (hspot : ∀ mode, disk.find? spot ≠ some (.directory mode)) :
    Location.alwaysStands spot = false :=
  Bool.eq_false_iff.mpr fun hstands => hspot _ (h.standing spot hstands).choose_spec

end WellFormed

/-! ## Removing and renaming files -/

theorem find?_of_lookup_eq_none (hlookup : disk.nodes.lookup spot = none)
    (hspot : Location.alwaysStands spot = false) : disk.find? spot = none := by
  unfold find?
  rw [hlookup, hspot]
  rfl

theorem find?_ne_none_of_mem {entry : Location × Node} (h : entry ∈ disk.nodes) :
    disk.find? entry.1 ≠ none := by
  have hsome : (disk.nodes.lookup entry.1).isSome :=
    List.lookup_isSome_iff.mpr ⟨entry, h, beq_self_eq_true _⟩
  obtain ⟨node, hnode⟩ := Option.isSome_iff_exists.mp hsome
  unfold find?
  rw [hnode]
  exact Option.some_ne_none node

/-- To remove what is no directory is to remove nothing else. -/
theorem find?_erase (h : disk.WellFormed)
    (hspot : ∀ mode, disk.find? spot ≠ some (.directory mode)) (other : Location) :
    (disk.erase spot).find? other = if other = spot then none else disk.find? other := by
  by_cases hbelow : spot <+: other
  · have hother : Location.alwaysStands other = false := by
      rcases eq_or_ne other spot with rfl | hne
      · exact h.not_alwaysStands hspot
      · exact h.not_alwaysStands (by simp [h.find?_below hspot hbelow hne])
    have hlookup : (disk.erase spot).nodes.lookup other = none := by
      refine List.lookup_eq_none_iff.mpr fun entry hentry => bne_iff_ne.mpr ?_
      rintro rfl
      exact not_isPrefix_of_mem_erase hentry hbelow
    rw [find?_of_lookup_eq_none hlookup hother]
    split_ifs with hne
    · rfl
    · exact (h.find?_below hspot hbelow hne).symm
  · have hne : other ≠ spot := by
      rintro rfl
      exact hbelow List.prefix_rfl
    rw [if_neg hne, agreeOff_erase disk spot other (List.forall_mem_singleton.mpr hbelow)]

/-- To carry a file to another place is to carry nothing else. -/
theorem find?_carry (h : disk.WellFormed) {source target : Location}
    (hfile : disk.find? source = some (.file content mode))
    (htarget : ∀ mode, disk.find? target ≠ some (.directory mode))
    (hapart : ¬ target <+: source ∧ ¬ source <+: target) (spot : Location) :
    ((disk.erase target).carry source target).find? spot =
      if spot = target then some (.file content mode)
      else if spot = source then none else disk.find? spot := by
  have hsource : ∀ mode, disk.find? source ≠ some (.directory mode) := by simp [hfile]
  rcases eq_or_ne spot target with rfl | htop
  · rw [if_pos rfl, find?_carry_target hapart.1 hfile]
  rw [if_neg htop]
  by_cases hbelow : source <+: spot ∨ target <+: spot
  · have hnone (hne : spot ≠ source) : disk.find? spot = none := by
      rcases hbelow with hbelow | hbelow
      · exact h.find?_below hsource hbelow hne
      · exact h.find?_below htarget hbelow htop
    have hspot : Location.alwaysStands spot = false := by
      rcases eq_or_ne spot source with rfl | hne
      · exact h.not_alwaysStands hsource
      · exact h.not_alwaysStands (by simp [hnone hne])
    have hlookup : ((disk.erase target).carry source target).nodes.lookup spot = none := by
      rw [carry_nodes, List.lookup_eq_none_iff]
      refine List.forall_mem_map.mpr fun entry hentry => bne_iff_ne.mpr fun heq => ?_
      unfold carried at heq
      split_ifs at heq with hcarried
      · -- it would have stood below the file
        have hentry' : entry ∈ disk.nodes := (List.mem_filter.mp hentry).1
        refine find?_ne_none_of_mem hentry'
          (h.find?_below hsource (List.isPrefixOf_iff_prefix.mp hcarried) fun hsame => htop ?_)
        rw [heq, hsame, List.drop_length, List.append_nil]
      · rcases hbelow with hbelow | hbelow
        · exact hcarried (List.isPrefixOf_iff_prefix.mpr (heq ▸ hbelow))
        · exact not_isPrefix_of_mem_erase hentry (heq ▸ hbelow)
    rw [find?_of_lookup_eq_none hlookup hspot]
    split_ifs with hne
    · rfl
    · exact (hnone hne).symm
  · rw [not_or] at hbelow
    have hne : spot ≠ source := by
      rintro rfl
      exact hbelow.1 List.prefix_rfl
    rw [if_neg hne]
    exact agreeOff_carry spot
      (List.forall_mem_cons.mpr ⟨hbelow.1, List.forall_mem_singleton.mpr hbelow.2⟩)

/-! ## Making directories -/

/-- One name further, to where nothing stands, is one name deeper. -/
theorem WellFormed.dropLast_step (h : disk.WellFormed) {name : String}
    (hhere : ∃ mode, disk.find? here = some (.directory mode))
    (hfree : disk.find? (here.step name) = none) : (here.step name).dropLast = here := by
  obtain ⟨mode, hmode⟩ := hhere
  unfold Location.step at hfree ⊢
  split_ifs at hfree ⊢ with hname
  · split at hfree
    · next hlast =>
      rw [List.getLast?_eq_none_iff.mp hlast]
      rfl
    · exact List.dropLast_concat
    · rw [hfree] at hmode
      cases hmode
    · obtain ⟨mode', hmode'⟩ := h.parent here _ hmode
      rw [hfree] at hmode'
      cases hmode'
  · exact List.dropLast_concat

theorem exists_newDirectory (disk : Disk) (parent : Location) :
    ∃ mode, disk.newDirectory parent = .directory mode := by
  unfold newDirectory
  split
  · exact ⟨_, rfl⟩
  · exact ⟨_, rfl⟩

theorem wellFormed_makeWay {names : List String} (h : disk.WellFormed)
    (hhere : ∃ mode, disk.find? here = some (.directory mode)) :
    (disk.makeWay here names).2.WellFormed ∧
      OnlyDirectories disk (disk.makeWay here names).2 [] := by
  induction names generalizing disk here with
  | nil => exact ⟨h, .refl _ _⟩
  | cons name names ih =>
    unfold makeWay
    split
    · exact ⟨h, .refl _ _⟩
    split
    · exact ⟨h, .refl _ _⟩
    dsimp only
    split
    · next mode hmode => exact ih h ⟨mode, hmode⟩
    · exact ⟨h, .refl _ _⟩
    · next hfree =>
      split
      · obtain ⟨mode, hnew⟩ := disk.exists_newDirectory here
        have hparent := h.dropLast_step hhere hfree
        rw [hnew]
        have hput : (disk.put (here.step name) (.directory mode)).WellFormed :=
          h.put (.inl ⟨mode, rfl⟩) (hparent.symm ▸ hhere)
        have honly : OnlyDirectories disk (disk.put (here.step name) (.directory mode)) [] := by
          intro spot _
          rcases eq_or_ne spot (here.step name) with rfl | hne
          · exact .inr ⟨hfree, mode, find?_put_self _ _ _⟩
          · exact .inl (find?_put_of_ne disk hne _)
        obtain ⟨hmade, honly'⟩ := ih hput ⟨mode, find?_put_self _ _ _⟩
        exact ⟨hmade, honly.trans honly'⟩
      · exact ⟨h, .refl _ _⟩

theorem wellFormed_makeDirectories (h : disk.WellFormed) (path : FilePath) :
    (disk.makeDirectories path).2.WellFormed ∧
      OnlyDirectories disk (disk.makeDirectories path).2 [] := by
  unfold makeDirectories
  split
  · exact ⟨h, .refl _ _⟩
  · next here henter =>
    refine wellFormed_makeWay h (h.standing here ?_)
    rw [← start_of_enter henter, FilePath.start]
    split_ifs
    · rfl
    · rfl

/-! ## The file and its temporary file -/

/-- What is put at a location is all that changes. -/
def OnlyAt (disk disk' : Disk) (spot : Location) (node : Node) : Prop :=
  disk'.find? spot = some node ∧ ∀ other ≠ spot, disk'.find? other = disk.find? other

namespace OnlyAt

variable {node : Node}

theorem put (disk : Disk) (spot : Location) (node : Node) :
    OnlyAt disk (disk.put spot node) spot node :=
  ⟨find?_put_self _ _ _, fun _ hne => find?_put_of_ne disk hne node⟩

theorem trans {disk'' : Disk} {node' : Node} (h : OnlyAt disk disk' spot node)
    (h' : OnlyAt disk' disk'' spot node') : OnlyAt disk disk'' spot node' :=
  ⟨h'.1, fun other hne => (h'.2 other hne).trans (h.2 other hne)⟩

theorem agreeOff (h : OnlyAt disk disk' spot node) : AgreeOff disk disk' [spot] := by
  refine fun other hother => h.2 other ?_
  rintro rfl
  exact hother other (List.mem_singleton_self _) List.prefix_rfl

theorem agreeOff_symm (h : OnlyAt disk disk' spot node) : AgreeOff disk' disk [spot] :=
  fun other hother => (h.agreeOff other hother).symm

end OnlyAt

theorem onlyAt_createTemporary {temporary : FilePath} {fails : Bool}
    (h : attempt fails (do (← disk.write temporary .empty).setMode temporary temporaryMode) =
      .ok disk') :
    disk.locate temporary = .ok temporary.destination ∧
      OnlyAt disk disk' temporary.destination (.file .empty temporaryMode) := by
  obtain ⟨written, hwritten, h⟩ := bind_eq_ok.mp (attempt_eq_ok.mp h).2
  obtain ⟨hlocate, -, mode, rfl⟩ := write_eq_ok hwritten
  obtain ⟨node, hnode, rfl⟩ := setMode_eq_ok h
  obtain rfl := Option.some.inj ((find?_put_self _ _ _).symm.trans hnode)
  exact ⟨hlocate, (OnlyAt.put _ _ _).trans (OnlyAt.put _ _ _)⟩

theorem exists_ready_of_fillAndRename {temporary : FilePath}
    (h : disk.fillAndRename temporary path content mode fault = .ok disk') :
    ∃ ready, OnlyAt disk ready temporary.destination (.file content mode) ∧
      ready.rename temporary path = .ok disk' := by
  obtain ⟨written, hwritten, h⟩ := bind_eq_ok.mp h
  obtain ⟨ready, hready, h⟩ := bind_eq_ok.mp h
  obtain ⟨-, -, mode', rfl⟩ := write_eq_ok (attempt_eq_ok.mp hwritten).2
  obtain ⟨node, hnode, rfl⟩ := setMode_eq_ok (attempt_eq_ok.mp hready).2
  obtain rfl := Option.some.inj ((find?_put_self _ _ _).symm.trans hnode)
  exact ⟨_, (OnlyAt.put _ _ _).trans (OnlyAt.put _ _ _), (attempt_eq_ok.mp h).2⟩

/-- A name is looked up in a directory. -/
theorem directory_of_locate_withName {name : String}
    (h : disk.locate (path.withName name) = .ok spot) :
    ∃ mode, disk.find? path.parent.destination = some (.directory mode) := by
  obtain ⟨between, hwalk, hlast⟩ := walk_append_eq_ok.mp (locate_eq_ok.mp h).2
  obtain rfl : between = path.parent.destination := walk_eq_foldl hwalk
  exact (walk_cons_eq_ok.mp hlast).1

theorem Beside.not_isPrefix {temporary : FilePath} (h : Beside temporary path) :
    ¬ path.destination <+: temporary.destination := by
  intro hbelow
  have hne := FilePath.destination_ne_nil h.ends.1
  have hne' := FilePath.destination_ne_nil h.ends.2
  have hlength : path.destination.length = temporary.destination.length := by
    have hdrop := congrArg List.length (h.parents.2.trans h.parents.1.symm)
    rw [List.length_dropLast, List.length_dropLast] at hdrop
    have hpos := List.length_pos_of_ne_nil hne
    have hpos' := List.length_pos_of_ne_nil hne'
    omega
  exact h.apart (hbelow.eq_of_length hlength ▸ List.prefix_rfl)

section ExchangeBeside

variable (hdisk : disk.WellFormed) {parent : Location}
  (henter : disk.enter path.parent = .ok parent)
include hdisk henter

/-- A disk with a new temporary file is a tree with one file more. -/
theorem wellFormed_of_onlyAt_temporary {node : Node}
    (hlocate : disk.locate (path.withName (disk.temporaryName path)) =
      .ok (path.withName (disk.temporaryName path)).destination)
    (h : OnlyAt disk disk' (path.withName (disk.temporaryName path)).destination node) :
    disk'.WellFormed := by
  obtain ⟨-, hfree⟩ := find?_temporary henter hlocate
  obtain ⟨n, -, hname, -⟩ := disk.temporaryName_free path
  have hdots : disk.temporaryName path ≠ ".." := hname ▸ numberedName_ne path n (by decide)
  refine hdisk.of_find?_of_ne h.2 h.1 (.inr (by simp [hfree])) ?_
  rw [FilePath.destination_withName path hdots, List.dropLast_concat]
  exact directory_of_locate_withName hlocate

/-- When exchanging a file fails, the temporary file is taken away and that is all. -/
theorem find?_exchangeBeside_error {e : DiskError}
    (h : disk.exchangeBeside path content fault = (.error e, disk')) (spot : Location) :
    disk'.find? spot = disk.find? spot := by
  unfold exchangeBeside at h
  dsimp only at h
  split at h
  · cases h
    rfl
  next created hcreated =>
  obtain ⟨hlocate, honly⟩ := onlyAt_createTemporary hcreated
  obtain ⟨-, hfree⟩ := find?_temporary henter hlocate
  have htree := wellFormed_of_onlyAt_temporary hdisk henter hlocate honly
  have hlocate' := (locate_of_agreeOff honly.agreeOff (notOnTheWay_free hfree) hlocate).1
  split at h
  · cases h
    rw [discard, hlocate']
    dsimp only
    rw [find?_erase htree (by simp [honly.1])]
    split_ifs with htemporary
    · rw [htemporary, hfree]
    · exact honly.2 spot htemporary
  · cases h

/-- When exchanging a file succeeds, it is where no directory stood, and nothing else changed. -/
theorem find?_exchangeBeside_ok (h : disk.exchangeBeside path content fault = (.ok (), disk')) :
    disk.locate path = .ok path.destination ∧
      (∀ mode, disk.find? path.destination ≠ some (.directory mode)) ∧
      (∃ mode, disk.find? path.destination.dropLast = some (.directory mode)) ∧
      ∀ spot ≠ path.destination, disk'.find? spot = disk.find? spot := by
  unfold exchangeBeside at h
  dsimp only at h
  split at h
  · cases h
  next created hcreated =>
  split at h
  · cases h
  next replaced hreplaced =>
  cases h
  obtain ⟨hlocate, hcreated⟩ := onlyAt_createTemporary hcreated
  obtain ⟨-, hfree⟩ := find?_temporary henter hlocate
  obtain ⟨ready, hready, hrename⟩ := exists_ready_of_fillAndRename hreplaced
  have honly := hcreated.trans hready
  have htree := wellFormed_of_onlyAt_temporary hdisk henter hlocate honly
  obtain ⟨-, hto, -, hends, hcarry⟩ := rename_eq_ok hrename
  have hbeside := disk.beside_temporaryName hends
  rcases hcarry with ⟨hsame, -⟩ | ⟨rfl, hne, hdirectory⟩
  · exact absurd (hsame ▸ List.prefix_rfl) hbeside.apart
  have hdirectory := hdirectory _ _ honly.1
  have hplaces : ready.NotOnTheWay [(path.withName (disk.temporaryName path)).destination] :=
    notOnTheWay_cons.mpr ⟨⟨FilePath.destination_ne_nil hbeside.ends.1, by simp [honly.1]⟩, nofun⟩
  refine ⟨(locate_of_agreeOff honly.agreeOff_symm hplaces hto).1, ?_, ?_, fun spot hspot => ?_⟩
  · rwa [← honly.2 _ hne.symm]
  · rw [hbeside.parents.2]
    exact directory_of_locate_withName hlocate
  · rw [find?_carry htree honly.1 hdirectory ⟨hbeside.not_isPrefix, hbeside.apart⟩, if_neg hspot]
    split_ifs with htemporary
    · rw [htemporary, hfree]
    · exact honly.2 spot htemporary

end ExchangeBeside

/-! ## Exchanging a file -/

theorem modeFor_of_locate (hlocate : disk.locate path = .ok path.destination)
    (hdirectory : ∀ mode, disk.find? path.destination ≠ some (.directory mode)) :
    disk.find? path.destination = none ∧ disk.modeFor path = fileMode ∨
      ∃ old, disk.find? path.destination = some (.file old (disk.modeFor path)) := by
  unfold modeFor Disk.node
  rw [hlocate]
  cases hstands : disk.find? path.destination with
  | none => exact .inl ⟨rfl, by simp [bind, Except.bind, hstands]⟩
  | some node =>
    cases node with
    | directory mode => exact absurd hstands (hdirectory mode)
    | file old mode => exact .inr ⟨old, by simp [bind, Except.bind, hstands, Node.mode]⟩

/-- **When exchanging a file fails,** nothing changes at any location, but for directories that are
made where nothing stood. -/
theorem find?_exchange_error (h : disk.WellFormed) {e : DiskError}
    (hexchange : disk.exchange path content fault = (.error e, disk')) :
    disk'.WellFormed ∧ OnlyDirectories disk disk' [] := by
  unfold exchange at hexchange
  split at hexchange
  · cases hexchange
    exact ⟨h, .refl _ _⟩
  obtain ⟨hmade, honly⟩ := wellFormed_makeDirectories h path.parent
  generalize hresult : disk.makeDirectories path.parent = result at hexchange hmade honly
  obtain ⟨outcome, made⟩ := result
  cases outcome with
  | error cause =>
    cases hexchange
    exact ⟨hmade, honly⟩
  | ok =>
    have hsame := find?_exchangeBeside_error hmade (enter_makeDirectories hresult) hexchange
    exact ⟨hmade.of_find? hsame, honly.trans (.of_find? fun spot _ => hsame spot)⟩

/-- **When exchanging a file succeeds,** it has the mode it had, or that of a new file, and nothing
changes at any other location, but for directories that are made where nothing stood. -/
theorem find?_exchange_ok (h : disk.WellFormed)
    (hexchange : disk.exchange path content fault = (.ok (), disk')) :
    disk'.WellFormed ∧ OnlyDirectories disk disk' [path.destination] ∧
      ∃ mode, disk'.node path = .ok (.file content mode) ∧
        (disk.find? path.destination = none ∧ mode = fileMode ∨
          ∃ old, disk.find? path.destination = some (.file old mode)) := by
  have hnode := node_exchange_ok hexchange
  obtain ⟨hmade, honly⟩ := wellFormed_makeDirectories h path.parent
  unfold exchange at hexchange
  split at hexchange
  · cases hexchange
  generalize hresult : disk.makeDirectories path.parent = result at hexchange hmade honly hnode
  obtain ⟨outcome, made⟩ := result
  cases outcome with
  | error cause => cases hexchange
  | ok =>
    obtain ⟨hlocate, hdirectory, hparent, hsame⟩ :=
      find?_exchangeBeside_ok hmade (enter_makeDirectories hresult) hexchange
    refine ⟨hmade.of_find?_of_ne hsame (node_eq_ok.mp hnode).2 (.inr hdirectory) hparent,
      (honly.mono (List.nil_subset _)).trans (.of_find? fun spot hspot => hsame spot ?_), _, hnode,
      ?_⟩
    · exact fun heq => hspot (heq ▸ List.mem_singleton_self _)
    · -- no directory was made there
      have hbefore : made.find? path.destination = disk.find? path.destination := by
        rcases honly path.destination nofun with hkept | ⟨-, mode, hmode⟩
        · exact hkept
        · exact absurd hmode (hdirectory mode)
      rw [← hbefore]
      exact modeFor_of_locate hlocate hdirectory

end Disk

end SnapshotStore
