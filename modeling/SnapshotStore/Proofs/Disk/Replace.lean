import SnapshotStore.Disk.Replace
import SnapshotStore.Proofs.Disk.Path
import SnapshotStore.Proofs.Number.Rounding

/-!
# Replacing a file

**Theorem (`read_exchange`).** When a file is exchanged, it holds the new bytes.

**Theorem (`read_exchange_error`).** When that fails, at whichever step, a file that could be read
before holds what it held.

Replacing a file is exchanging it, and failing to sync its directory changes nothing any more
(`replace_cases`).

The temporary file goes where there is nothing (`find?_temporary`), so writing and removing it
touches nothing else, and the rename is the one step at which the file changes.
-/

namespace SnapshotStore

namespace Disk

variable {disk disk' : Disk} {path : FilePath} {content : ByteArray} {mode : Nat}

/-! ## Single changes -/

theorem write_eq_ok (h : disk.write path content = .ok disk') :
    disk.locate path = .ok path.destination ∧
      (∀ mode, disk.find? path.destination ≠ some (.directory mode)) ∧
      ∃ mode, disk' = disk.put path.destination (.file content mode) := by
  obtain ⟨spot, hlocate, h⟩ := bind_eq_ok.mp h
  obtain rfl := locate_eq_destination hlocate
  refine ⟨hlocate, ?_⟩
  split at h
  · cases h
  · next hstands =>
    split_ifs at h
    rw [hstands]
    exact ⟨fun _ => by simp, _, (Except.ok.inj h).symm⟩
  · next hstands =>
    split_ifs at h
    rw [hstands]
    exact ⟨fun _ => by simp, _, (Except.ok.inj h).symm⟩

theorem setMode_eq_ok (h : disk.setMode path mode = .ok disk') :
    ∃ node, disk.find? path.destination = some node ∧
      disk' = disk.put path.destination (node.withMode mode) := by
  obtain ⟨spot, hlocate, h⟩ := bind_eq_ok.mp h
  obtain ⟨node, hnode, h⟩ := bind_eq_ok.mp h
  obtain rfl := locate_eq_destination hlocate
  split_ifs at h
  exact ⟨node, (node_eq_ok.mp hnode).2, (Except.ok.inj h).symm⟩

theorem lookup_of_find?_file {spot : Location} (h : disk.find? spot = some (.file content mode)) :
    disk.nodes.lookup spot = some (.file content mode) := by
  unfold find? at h
  split at h
  · next hlookup => rw [hlookup, h]
  · split_ifs at h
    cases h

/-- Where something goes when what stands at a location, and below it, is carried to another. -/
def carried (source target spot : Location) : Location :=
  if source.isPrefixOf spot then target ++ spot.drop source.length else spot

theorem carry_nodes (source target : Location) :
    (disk.carry source target).nodes =
      disk.nodes.map fun entry => (carried source target entry.1, entry.2) := by
  refine List.map_congr_left fun entry _ => ?_
  unfold carried
  split_ifs <;> rfl

section Carry

variable {source target : Location}

theorem carried_eq_target {spot : Location} (hspot : ¬ target <+: spot) :
    carried source target spot = target ↔ spot = source := by
  unfold carried
  split_ifs with hsource
  · obtain ⟨rest, rfl⟩ := List.isPrefixOf_iff_prefix.mp hsource
    rw [List.drop_left, List.append_right_eq_self, List.append_right_eq_self]
  · constructor
    · rintro rfl
      exact absurd List.prefix_rfl hspot
    · rintro rfl
      exact absurd (List.isPrefixOf_iff_prefix.mpr List.prefix_rfl) hsource

theorem carried_eq_self {spot other : Location} (hsource : ¬ source <+: other)
    (htarget : ¬ target <+: other) : carried source target spot = other ↔ spot = other := by
  unfold carried
  split_ifs with hspot
  · constructor
    · rintro rfl
      exact absurd (List.prefix_append _ _) htarget
    · rintro rfl
      exact absurd (List.isPrefixOf_iff_prefix.mp hspot) hsource
  · exact Iff.rfl

theorem not_isPrefix_of_mem_erase {entry : Location × Node}
    (h : entry ∈ (disk.erase target).nodes) : ¬ target <+: entry.1 := by
  have hnot := (List.mem_filter.mp h).2
  rwa [Bool.not_eq_true', ← Bool.not_eq_true, List.isPrefixOf_iff_prefix] at hnot

theorem find?_carry_target (hsource : ¬ target <+: source)
    (h : disk.find? source = some (.file content mode)) :
    ((disk.erase target).carry source target).find? target = some (.file content mode) := by
  have hlookup : ((disk.erase target).carry source target).nodes.lookup target =
      some (.file content mode) := by
    rw [carry_nodes, lookup_map fun entry hentry =>
      carried_eq_target (not_isPrefix_of_mem_erase hentry), lookup_erase hsource]
    exact lookup_of_find?_file h
  unfold find?
  rw [hlookup]

theorem agreeOff_carry :
    AgreeOff disk ((disk.erase target).carry source target) [source, target] := by
  intro spot hspot
  have hsource := hspot source (by simp)
  have htarget := hspot target (by simp)
  refine find?_of_lookup ?_
  rw [carry_nodes, lookup_map fun _ _ => carried_eq_self hsource htarget, lookup_erase htarget]

end Carry

/-- A rename changes nothing, or carries what stands at one place to the other. -/
theorem rename_eq_ok {source target : FilePath} (h : disk.rename source target = .ok disk') :
    disk.locate source = .ok source.destination ∧ disk.locate target = .ok target.destination ∧
      source.endsInEntry = true ∧ target.endsInEntry = true ∧
      (source.destination = target.destination ∧ disk' = disk ∨
        disk' = (disk.erase target.destination).carry source.destination target.destination ∧
          source.destination ≠ target.destination ∧
          (∀ content mode, disk.find? source.destination = some (.file content mode) →
            ∀ mode, disk.find? target.destination ≠ some (.directory mode))) := by
  obtain ⟨old, hold, h⟩ := bind_eq_ok.mp h
  obtain ⟨new, hnew, h⟩ := bind_eq_ok.mp h
  obtain ⟨node, hnode, h⟩ := bind_eq_ok.mp h
  obtain rfl := locate_eq_destination hold
  obtain rfl := locate_eq_destination hnew
  split at h
  · cases h
  next hends =>
  split at h
  · cases h
  rw [Bool.or_eq_true, Bool.not_eq_true', Bool.not_eq_true', not_or, Bool.not_eq_false,
    Bool.not_eq_false] at hends
  refine ⟨hold, hnew, hends.1, hends.2, ?_⟩
  split at h
  · next hsame => exact .inl ⟨hsame, (Except.ok.inj h).symm⟩
  next hsame =>
  split at h
  · cases h
  refine .inr ⟨?_, hsame, ?_⟩
  · split at h
    · cases h
    · cases h
    · split_ifs at h
      exact (Except.ok.inj h).symm
    · exact (Except.ok.inj h).symm
  · intro content mode hfile mode' hdirectory
    obtain rfl := Option.some.inj (hfile.symm.trans (node_eq_ok.mp hnode).2)
    rw [hdirectory] at h
    cases h

/-- Renaming a file puts it, as it is, where the other path leads. -/
theorem rename_file {source target : FilePath}
    (hfile : disk.find? source.destination = some (.file content mode))
    (h : disk.rename source target = .ok disk') :
    disk'.locate target = .ok target.destination ∧
      (∀ mode, disk.find? target.destination ≠ some (.directory mode)) ∧
      disk'.find? target.destination = some (.file content mode) := by
  obtain ⟨hold, hnew, hsource, htarget, ⟨hsame, rfl⟩ | ⟨rfl, hsame, hfree⟩⟩ := rename_eq_ok h
  · rw [← hsame]
    exact ⟨hsame ▸ hnew, by simp [hfile], hfile⟩
  · have hdirectory := hfree content mode hfile
    -- nothing on the way to either of them is one of them: neither is a directory
    have hplaces : disk.NotOnTheWay [source.destination, target.destination] :=
      notOnTheWay_cons.mpr ⟨⟨FilePath.destination_ne_nil hsource, by simp [hfile]⟩,
        notOnTheWay_cons.mpr ⟨⟨FilePath.destination_ne_nil htarget, hdirectory⟩,
          fun _ hnil => absurd hnil List.not_mem_nil⟩⟩
    have hbelow := (locate_of_agreeOff (AgreeOff.refl _ _) hplaces hold).2 target.destination
      (by simp)
    refine ⟨(locate_of_agreeOff agreeOff_carry hplaces hnew).1, hdirectory, ?_⟩
    exact find?_carry_target (fun hprefix => hsame (hbelow hprefix).symm) hfile

/-- Once a file has another name, none stands under the old one. -/
theorem find?_rename_withName {name : String}
    (h : disk.rename path (path.withName name) = .ok disk') :
    path.destination = (path.withName name).destination ∧ disk' = disk ∨
      ∀ content mode, disk'.find? path.destination ≠ some (.file content mode) := by
  obtain ⟨-, -, hsource, htarget, hunchanged | ⟨rfl, hsame, -⟩⟩ := rename_eq_ok h
  · exact .inl hunchanged
  · refine .inr fun content mode hstands => ?_
    have hlookup := lookup_of_find?_file hstands
    obtain ⟨before, after, hnodes, -⟩ := List.lookup_eq_some_iff.mp hlookup
    have hmem : (path.destination, Node.file content mode) ∈
        ((disk.erase (path.withName name).destination).carry path.destination
          (path.withName name).destination).nodes := by
      rw [hnodes]
      simp
    rw [carry_nodes] at hmem
    obtain ⟨entry, -, hentry⟩ := List.mem_map.mp hmem
    have hspot : carried path.destination (path.withName name).destination entry.1 =
        path.destination := congrArg Prod.fst hentry
    unfold carried at hspot
    split_ifs at hspot with hprefix
    · -- both end in an entry of the same directory
      have hname : name ≠ ".." := by
        rintro rfl
        simp [FilePath.endsInEntry, FilePath.withName] at htarget
      rw [FilePath.destination_withName path hname, FilePath.destination_of_endsInEntry hsource]
        at hspot hsame
      rw [List.append_assoc] at hspot
      have hcons := List.append_cancel_left hspot
      rw [List.singleton_append, List.cons_eq_cons] at hcons
      exact hsame (by rw [hcons.1])
    · exact hprefix (List.isPrefixOf_iff_prefix.mpr (hspot ▸ List.prefix_rfl))

/-! ## The name of the temporary file -/

theorem eightDigits_injective : Function.Injective eightDigits := by
  intro m n h
  have hread : ∀ n, natOfDigits (eightDigits n).toList = n := by
    intro n
    unfold eightDigits
    rw [String.toList_ofList, natOfDigits_append, natOfDigits_replicate_zero, Nat.zero_mul,
      Nat.zero_add]
    exact natOfDigits_digitsOf n
  rw [← hread m, h, hread n]

/-- The name of a temporary file beside a file, with a number. -/
def numberedName (path : FilePath) (n : Nat) : String :=
  "." ++ path.name ++ "." ++ eightDigits n ++ ".tmp"

theorem numberedName_injective (path : FilePath) : Function.Injective (numberedName path) := by
  intro m n h
  refine eightDigits_injective (String.toList_inj.mp ?_)
  have htext := congrArg String.toList h
  simpa [numberedName] using htext

theorem numberedName_ne (path : FilePath) (n : Nat) {name : String} (h : name.length < 6) :
    numberedName path n ≠ name := by
  rintro rfl
  simp only [numberedName, String.length_append] at h
  have hdot : ".".length = 1 := rfl
  have htmp : ".tmp".length = 4 := rfl
  omega

theorem alwaysStands_append_numberedName (directory : Location) (path : FilePath) (n : Nat) :
    Location.alwaysStands (directory ++ [numberedName path n]) = false := by
  have hdots : numberedName path n ≠ ".." := numberedName_ne path n (by decide)
  have hslash : numberedName path n ≠ "/" := numberedName_ne path n (by decide)
  have hroot : directory ++ [numberedName path n] ≠ Location.root := fun h =>
    hslash (List.singleton_inj.mp (@List.append_inj_right' _ directory _ [] _ h rfl))
  simp [Location.alwaysStands, hdots, hroot]

/-- Of as many numbers as are tried, one is free. -/
theorem exists_free_number (disk : Disk) (path : FilePath) (directory : Location) :
    ∃ n < disk.nodes.length + 1, disk.find? (directory ++ [numberedName path n]) = none := by
  by_contra htaken
  push Not at htaken
  let spot (n : Nat) : Location := directory ++ [numberedName path n]
  have hnodup : ((List.range (disk.nodes.length + 1)).map spot).Nodup :=
    List.nodup_range.map fun m n h =>
      numberedName_injective path (List.singleton_inj.mp (List.append_cancel_left h))
  have hsubset : (List.range (disk.nodes.length + 1)).map spot ⊆ disk.nodes.map (·.1) := by
    intro other hother
    obtain ⟨n, hn, rfl⟩ := List.mem_map.mp hother
    obtain ⟨node, hnode⟩ := Option.ne_none_iff_exists'.mp (htaken n (List.mem_range.mp hn))
    unfold find? at hnode
    split at hnode
    · next hlookup =>
      obtain ⟨before, after, hnodes, -⟩ := List.lookup_eq_some_iff.mp hlookup
      rw [hnodes]
      simp [spot]
    · rw [alwaysStands_append_numberedName] at hnode
      cases hnode
  have hlength := (List.subperm_of_subset hnodup hsubset).length_le
  rw [List.length_map, List.length_map, List.length_range] at hlength
  omega

/-- **The name of the temporary file is not in use,** and its number is small. -/
theorem temporaryName_free (disk : Disk) (path : FilePath) :
    ∃ n ≤ disk.nodes.length, disk.temporaryName path = numberedName path n ∧
      disk.find? ((disk.locate path.parent).toOption.getD [] ++ [numberedName path n]) = none := by
  generalize hdirectory : (disk.locate path.parent).toOption.getD [] = directory
  obtain ⟨n, hn, hfree⟩ := disk.exists_free_number path directory
  have hsome : (((List.range (disk.nodes.length + 1)).map (numberedName path)).find?
      fun name => (disk.find? (directory ++ [name])).isNone).isSome := by
    rw [List.find?_isSome]
    exact ⟨_, List.mem_map_of_mem (List.mem_range.mpr hn), Option.isNone_iff_eq_none.mpr hfree⟩
  obtain ⟨name, hname⟩ := Option.isSome_iff_exists.mp hsome
  obtain ⟨m, hm, rfl⟩ := List.mem_map.mp (List.mem_of_find?_eq_some hname)
  have hnone := List.find?_some hname
  refine ⟨m, Nat.le_of_lt_succ (List.mem_range.mp hm), ?_, Option.isNone_iff_eq_none.mp hnone⟩
  unfold temporaryName
  rw [hdirectory]
  exact congrArg (Option.getD · "") hname

/-! ## The steps -/

@[simp] theorem attempt_eq_ok {α : Type} {fails : Bool} {operation : Except DiskError α} {a : α} :
    attempt fails operation = .ok a ↔ fails = false ∧ operation = .ok a := by
  cases fails <;> simp [attempt]

/-- A file that stands where a path leads may be read. -/
def Readable (disk : Disk) (path : FilePath) : Prop :=
  ∀ content mode, disk.find? path.destination = some (.file content mode) →
    (Node.file content mode).permits .read = true

theorem find?_ne_directory_of_put {spot other : Location} {node : Node}
    (hspot : ∀ mode, disk.find? spot ≠ some (.directory mode))
    (h : ∀ mode, (disk.put spot node).find? other ≠ some (.directory mode)) :
    ∀ mode, disk.find? other ≠ some (.directory mode) := by
  intro mode
  rcases eq_or_ne other spot with rfl | hne
  · exact hspot mode
  · rw [← find?_put_of_ne disk hne node]
    exact h mode

/-- Filling the temporary file and renaming it puts the bytes in place, unless there is a
directory. -/
theorem fillAndRename_eq_ok {temporary : FilePath} {fault : Option ReplaceStep}
    (h : disk.fillAndRename temporary path content mode fault = .ok disk') :
    disk'.locate path = .ok path.destination ∧
      disk'.find? path.destination = some (.file content mode) ∧
      ∀ mode, disk.find? path.destination ≠ some (.directory mode) := by
  obtain ⟨written, hwritten, h⟩ := bind_eq_ok.mp h
  obtain ⟨ready, hready, h⟩ := bind_eq_ok.mp h
  obtain ⟨-, hfree, mode', rfl⟩ := write_eq_ok (attempt_eq_ok.mp hwritten).2
  obtain ⟨node, hnode, rfl⟩ := setMode_eq_ok (attempt_eq_ok.mp hready).2
  obtain rfl := Option.some.inj ((find?_put_self _ _ _).symm.trans hnode)
  obtain ⟨hlocate, hdirectory, hstands⟩ := rename_file (find?_put_self _ _ _)
    (attempt_eq_ok.mp h).2
  exact ⟨hlocate, hstands, find?_ne_directory_of_put hfree
    (find?_ne_directory_of_put (by simp) hdirectory)⟩

theorem permits_modeFor (hreadable : disk.Readable path)
    (h : ∀ mode, disk.find? path.destination ≠ some (.directory mode)) (content : ByteArray) :
    (Node.file content (disk.modeFor path)).permits .read = true := by
  unfold modeFor
  split
  · next node hnode =>
    obtain ⟨-, hstands⟩ := node_eq_ok.mp hnode
    cases node with
    | directory mode => exact absurd hstands (h mode)
    | file content mode => exact hreadable content mode hstands
  · change fileMode.testBit Permission.read.bit = true
    decide

/-- Making directories puts nothing but directories. -/
theorem find?_file_of_makeWay {here spot : Location} {names : List String}
    (h : (disk.makeWay here names).2.find? spot = some (.file content mode)) :
    disk.find? spot = some (.file content mode) := by
  induction names generalizing disk here with
  | nil => exact h
  | cons name names ih =>
    unfold makeWay at h
    split at h
    · exact h
    split at h
    · exact h
    dsimp only at h
    split at h
    · exact ih h
    · exact h
    · split at h
      · have hput := ih h
        rcases eq_or_ne spot (here.step name) with rfl | hne
        · rw [find?_put_self, newDirectory] at hput
          split at hput <;> cases hput
        · rwa [find?_put_of_ne _ hne] at hput
      · exact h

theorem readable_makeDirectories (other : FilePath) (h : disk.Readable path) :
    (disk.makeDirectories other).2.Readable path := by
  unfold makeDirectories
  split
  · exact h
  · exact fun content mode hstands => h content mode (find?_file_of_makeWay hstands)

/-- **When a file is exchanged,** it holds the new bytes. -/
theorem read_exchange {fault : Option ReplaceStep} (hreadable : disk.Readable path)
    (h : disk.exchange path content fault = (.ok (), disk')) : disk'.read path = .ok content := by
  unfold exchange at h
  split at h
  · cases h
  have hmade := readable_makeDirectories path.parent hreadable
  generalize disk.makeDirectories path.parent = result at h hmade
  obtain ⟨outcome, made⟩ := result
  dsimp only at h hmade
  split at h
  · cases h
  · next heq =>
    cases heq
    unfold exchangeBeside at h
    dsimp only at h
    split at h
    · cases h
    · next created hcreated =>
      split at h
      · cases h
      · next replaced hreplaced =>
        cases h
        obtain ⟨written, hwritten, hcreated⟩ := bind_eq_ok.mp (attempt_eq_ok.mp hcreated).2
        obtain ⟨-, hfree, mode, rfl⟩ := write_eq_ok hwritten
        obtain ⟨node, hnode, rfl⟩ := setMode_eq_ok hcreated
        obtain rfl := Option.some.inj ((find?_put_self _ _ _).symm.trans hnode)
        obtain ⟨hlocate, hstands, hdirectory⟩ := fillAndRename_eq_ok hreplaced
        refine read_eq_ok.mpr ⟨hlocate, _, hstands, permits_modeFor hmade ?_ content⟩
        exact find?_ne_directory_of_put hfree (find?_ne_directory_of_put (by simp) hdirectory)

theorem readable_of_read (h : disk.read path = .ok content) : disk.Readable path := by
  obtain ⟨-, mode, hstands, hmode⟩ := read_eq_ok.mp h
  intro content' mode' hstands'
  obtain ⟨rfl, rfl⟩ := Node.file.inj (Option.some.inj (hstands'.symm.trans hstands))
  exact hmode

/-! ## Failure -/

/-- Directories that are there are not made again. -/
theorem makeWay_of_walk {here directory : Location} {names : List String}
    (h : disk.walk here names = .ok directory)
    (hdirectory : ∃ mode, disk.find? directory = some (.directory mode)) :
    disk.makeWay here names = (.ok (), disk) := by
  induction names generalizing here with
  | nil => rfl
  | cons name names ih =>
    obtain ⟨-, hpass, hsize, h⟩ := walk_cons_eq_ok.mp h
    have hnext : ∃ mode, disk.find? (here.step name) = some (.directory mode) := by
      cases names with
      | nil => exact Except.ok.inj h ▸ hdirectory
      | cons _ _ => exact (walk_cons_eq_ok.mp h).1
    obtain ⟨mode, hnext⟩ := hnext
    unfold makeWay
    simp only [hpass, Bool.not_true, Bool.false_eq_true, if_false]
    rw [if_neg (Nat.not_lt.mpr hsize), hnext]
    exact ih h

theorem makeDirectories_parent (hlocate : disk.locate path = .ok path.destination) :
    (disk.makeDirectories path.parent).2 = disk := by
  have hwalk := (locate_eq_ok.mp hlocate).2
  unfold makeDirectories
  split
  · rfl
  · next here henter =>
    obtain rfl : here = path.start := (start_of_enter henter).symm
    rcases List.eq_nil_or_concat path.names with hnil | ⟨names, name, hnames⟩
    · rw [FilePath.parent, hnil]
      rfl
    · rw [hnames, List.concat_eq_append] at hwalk
      obtain ⟨directory, hwalk, hlast⟩ := walk_append_eq_ok.mp hwalk
      rw [FilePath.parent, hnames, List.concat_eq_append, List.dropLast_concat,
        makeWay_of_walk hwalk (walk_cons_eq_ok.mp hlast).1]

/-- Where the temporary file goes there is nothing. -/
theorem find?_temporary {parent : Location} (henter : disk.enter path.parent = .ok parent)
    (hlocate : disk.locate (path.withName (disk.temporaryName path)) =
      .ok (path.withName (disk.temporaryName path)).destination) :
    (path.withName (disk.temporaryName path)).destination ≠ [] ∧
      disk.find? (path.withName (disk.temporaryName path)).destination = none := by
  obtain ⟨n, -, hname, hfree⟩ := disk.temporaryName_free path
  rw [hname] at hlocate ⊢
  obtain ⟨directory, hwalk, -⟩ := walk_append_eq_ok.mp (locate_eq_ok.mp hlocate).2
  have hparent : disk.locate path.parent = .ok directory :=
    locate_eq_ok.mpr ⟨start_of_enter henter ▸ henter, hwalk⟩
  obtain rfl := locate_eq_destination hparent
  rw [hparent] at hfree
  rw [FilePath.destination_withName path (numberedName_ne path n (by decide))]
  exact ⟨List.append_ne_nil_of_right_ne_nil _ (List.cons_ne_nil _ _), hfree⟩

theorem agreeOff_discard {spot : Location} (hagree : AgreeOff disk disk' [spot])
    (hspot : path.destination = spot) : AgreeOff disk (disk'.discard path) [spot] := by
  unfold discard
  split
  · next other hlocate =>
    obtain rfl := (locate_eq_destination hlocate).trans hspot
    exact hagree.trans (agreeOff_erase _ _)
  · exact hagree

/-- A change at a place where nothing stood keeps what is read elsewhere. -/
theorem read_of_agreeOff {spot : Location} (hagree : AgreeOff disk disk' [spot]) (hspot : spot ≠ [])
    (hfree : disk.find? spot = none) (h : disk.read path = .ok content) :
    disk'.read path = .ok content := by
  obtain ⟨hlocate, mode, hstands, hmode⟩ := read_eq_ok.mp h
  have hplaces : disk.NotOnTheWay [spot] := notOnTheWay_cons.mpr
    ⟨⟨hspot, by simp [hfree]⟩, fun _ hnil => absurd hnil List.not_mem_nil⟩
  obtain ⟨hlocate', hbelow⟩ := locate_of_agreeOff hagree hplaces hlocate
  have hoff : ¬ spot <+: path.destination := by
    intro hprefix
    obtain rfl := hbelow spot (List.mem_singleton_self _) hprefix
    rw [hfree] at hstands
    cases hstands
  refine read_eq_ok.mpr ⟨hlocate', mode, ?_, hmode⟩
  rw [hagree _ (List.forall_mem_singleton.mpr hoff), hstands]

/-- **When exchanging a file fails,** a file that could be read holds what it held. -/
theorem read_exchange_error {fault : Option ReplaceStep} {e : DiskError} {old : ByteArray}
    (hread : disk.read path = .ok old)
    (h : disk.exchange path content fault = (.error e, disk')) : disk'.read path = .ok old := by
  unfold exchange at h
  split at h
  · cases h
    exact hread
  have hmade := makeDirectories_parent (read_eq_ok.mp hread).1
  generalize hresult : disk.makeDirectories path.parent = result at h hmade
  obtain ⟨outcome, made⟩ := result
  obtain rfl : made = disk := hmade
  cases outcome with
  | error cause =>
    cases h
    exact hread
  | ok =>
    have henter : ∃ parent, made.enter path.parent = .ok parent := by
      unfold makeDirectories at hresult
      split at hresult
      · cases hresult
      · exact ⟨_, ‹_›⟩
    obtain ⟨parent, henter⟩ := henter
    dsimp only at h
    unfold exchangeBeside at h
    dsimp only at h
    split at h
    · cases h
      exact hread
    · next created hcreated =>
      split at h
      · obtain ⟨written, hwritten, hcreated⟩ := bind_eq_ok.mp (attempt_eq_ok.mp hcreated).2
        obtain ⟨hlocate, -, mode, rfl⟩ := write_eq_ok hwritten
        obtain ⟨node, -, rfl⟩ := setMode_eq_ok hcreated
        obtain ⟨hspot, hfree⟩ := find?_temporary henter hlocate
        cases h
        refine read_of_agreeOff (agreeOff_discard ?_ rfl) hspot hfree hread
        exact AgreeOff.trans (agreeOff_put _ _ _) (agreeOff_put _ _ _)
      · cases h

/-! ## Syncing -/

/-- **A file is replaced once it is exchanged.** All that can fail after that is to sync its
directory. -/
theorem replace_cases (disk : Disk) (path : FilePath) (content : ByteArray)
    (fault : Option ReplaceStep) :
    (∃ cause, (disk.replace path content fault).1 = .error (.kept cause) ∧
      disk.exchange path content fault = (.error cause, (disk.replace path content fault).2)) ∨
    ((disk.replace path content fault).1 = .ok () ∨
        ∃ cause, (disk.replace path content fault).1 = .error (.unsynced cause)) ∧
      disk.exchange path content fault = (.ok (), (disk.replace path content fault).2) := by
  unfold replace
  generalize disk.exchange path content fault = result
  obtain ⟨outcome, replaced⟩ := result
  cases outcome with
  | error cause => exact .inl ⟨cause, rfl, rfl⟩
  | ok =>
    refine .inr ⟨?_, rfl⟩
    dsimp only
    cases replaced.syncDirectory path fault with
    | ok => exact .inl rfl
    | error cause => exact .inr ⟨cause, rfl⟩

end Disk

end SnapshotStore
