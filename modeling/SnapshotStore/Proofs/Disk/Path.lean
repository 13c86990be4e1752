import Mathlib.Data.List.Basic
import SnapshotStore.Disk
import SnapshotStore.Proofs.Value.Json

/-!
# Following paths

Every change of a disk is local: it touches what stands at some places and below them, and nothing
else (`Disk.AgreeOff`). Following a path asks only for the directories on the way.

**Theorem (`locate_of_agreeOff`).** A path leads to the same location on two disks that agree off
places none of which is a directory.

The way to a location passes through all locations above it, so a path that leads somewhere cannot
have passed below such a place; the induction on the names carries this along.
-/

namespace SnapshotStore

namespace FilePath

variable {path : FilePath}

/-- Where a path leads when nothing on the way is missing. -/
def destination (path : FilePath) : Location := path.names.foldl Location.step path.start

theorem destination_withName (path : FilePath) {name : String} (h : name ≠ "..") :
    (path.withName name).destination = path.parent.destination ++ [name] := by
  unfold destination withName parent
  rw [List.foldl_append, List.foldl_cons, List.foldl_nil, Location.step, if_neg h]
  rfl

theorem destination_of_endsInEntry (h : path.endsInEntry = true) :
    path.destination = path.parent.destination ++ [path.name] := by
  unfold endsInEntry at h
  split at h
  · cases h
  · next name hname =>
    obtain ⟨names, hnames⟩ := List.getLast?_eq_some_iff.mp hname
    have hself : path.withName name = path := by
      unfold withName
      rw [hnames, List.dropLast_concat, ← hnames]
    have hlast : path.name = name := by
      unfold FilePath.name
      rw [hname]
      rfl
    rw [hlast, ← destination_withName path (bne_iff_ne.mp h), hself]

theorem destination_ne_nil (h : path.endsInEntry = true) : path.destination ≠ [] := by
  rw [destination_of_endsInEntry h]
  exact List.append_ne_nil_of_right_ne_nil _ (List.cons_ne_nil _ _)

end FilePath

namespace Disk

variable {disk disk' : Disk} {spot here : Location} {path : FilePath}

/-! ## What stands at a location -/

theorem lookup_filter {p : Location → Bool} (h : p spot = true) (nodes : List (Location × Node)) :
    (nodes.filter fun entry => p entry.1).lookup spot = nodes.lookup spot := by
  induction nodes with
  | nil => rfl
  | cons entry nodes ih =>
    rw [List.filter_cons]
    split_ifs with hentry
    · rw [List.lookup_cons, List.lookup_cons, ih]
    · have hne : (spot == entry.1) = false := by
        rw [beq_eq_false_iff_ne]
        rintro rfl
        exact hentry h
      rw [List.lookup_cons, hne, ih]

/-- What is moved to a location by a change of locations stood where it comes from. -/
theorem lookup_map {move : Location → Location} {source target : Location}
    {nodes : List (Location × Node)}
    (h : ∀ entry ∈ nodes, move entry.1 = target ↔ entry.1 = source) :
    (nodes.map fun entry => (move entry.1, entry.2)).lookup target = nodes.lookup source := by
  induction nodes with
  | nil => rfl
  | cons entry nodes ih =>
    rw [List.forall_mem_cons] at h
    have heq : (target == move entry.1) = (source == entry.1) := by
      rw [Bool.eq_iff_iff, beq_iff_eq, beq_iff_eq, eq_comm, h.1, eq_comm]
    rw [List.map_cons, List.lookup_cons, List.lookup_cons, heq, ih h.2]

theorem find?_of_lookup (h : disk'.nodes.lookup spot = disk.nodes.lookup spot) :
    disk'.find? spot = disk.find? spot := by
  unfold find?
  rw [h]

@[simp] theorem find?_put_self (disk : Disk) (spot : Location) (node : Node) :
    (disk.put spot node).find? spot = some node := by
  have hnone : (disk.nodes.filter fun entry => entry.1 != spot).lookup spot = none := by
    rw [List.lookup_eq_none_iff]
    intro entry hentry
    have hne := (List.mem_filter.mp hentry).2
    rw [bne_iff_ne] at hne ⊢
    exact hne.symm
  unfold find? put
  rw [List.lookup_append, hnone, Option.none_or, List.lookup_cons_self]

theorem find?_put_of_ne (disk : Disk) {other : Location} (h : other ≠ spot) (node : Node) :
    (disk.put spot node).find? other = disk.find? other := by
  have hlookup : [(spot, node)].lookup other = none :=
    List.lookup_eq_none_iff.mpr (List.forall_mem_singleton.mpr (bne_iff_ne.mpr h))
  refine find?_of_lookup ?_
  unfold put
  rw [List.lookup_append, lookup_filter (p := (· != spot)) (bne_iff_ne.mpr h), hlookup,
    Option.or_none]

/-- Permissions depend on what stands at the location. -/
theorem permits_of_find? (h : disk'.find? here = disk.find? here) (permission : Permission) :
    disk'.permits here permission = disk.permits here permission := by
  unfold permits
  rw [h]

/-! ## Changes -/

/-- Two disks differ only at some places and below them. -/
def AgreeOff (disk disk' : Disk) (places : List Location) : Prop :=
  ∀ spot, (∀ place ∈ places, ¬ place <+: spot) → disk'.find? spot = disk.find? spot

theorem AgreeOff.refl (disk : Disk) (places : List Location) : AgreeOff disk disk places :=
  fun _ _ => rfl

theorem AgreeOff.trans {disk'' : Disk} {places : List Location} (h : AgreeOff disk disk' places)
    (h' : AgreeOff disk' disk'' places) : AgreeOff disk disk'' places :=
  fun spot hspot => (h' spot hspot).trans (h spot hspot)

theorem agreeOff_put (disk : Disk) (spot : Location) (node : Node) :
    AgreeOff disk (disk.put spot node) [spot] :=
  fun other hother => by
    refine find?_put_of_ne disk ?_ node
    rintro rfl
    exact hother other (List.mem_singleton_self _) List.prefix_rfl

theorem lookup_erase {other : Location} (h : ¬ spot <+: other) :
    (disk.erase spot).nodes.lookup other = disk.nodes.lookup other := by
  refine lookup_filter (p := fun other => !spot.isPrefixOf other) ?_ _
  rwa [Bool.not_eq_true', ← Bool.not_eq_true, List.isPrefixOf_iff_prefix]

theorem agreeOff_erase (disk : Disk) (spot : Location) : AgreeOff disk (disk.erase spot) [spot] :=
  fun _ hother => find?_of_lookup (lookup_erase (hother spot (List.mem_singleton_self _)))

/-! ## Paths -/

/-- One name further asks for a directory that lets one pass. -/
theorem walk_cons_eq_ok {name : String} {names : List String} :
    disk.walk here (name :: names) = .ok spot ↔
      (∃ mode, disk.find? here = some (.directory mode)) ∧ disk.permits here .pass = true ∧
        name.utf8ByteSize ≤ maxNameSize ∧ disk.walk (here.step name) names = .ok spot := by
  constructor
  · intro h
    unfold walk at h
    split at h
    · next mode hdirectory =>
      split_ifs at h with hpass hsize
      exact ⟨⟨mode, hdirectory⟩, by simpa using hpass, Nat.not_lt.mp hsize, h⟩
    · cases h
    · cases h
  · rintro ⟨⟨mode, hdirectory⟩, hpass, hsize, h⟩
    unfold walk
    rw [hdirectory]
    simp only [hpass, Bool.not_true, Bool.false_eq_true, if_false]
    rwa [if_neg (Nat.not_lt.mpr hsize)]

theorem walk_append_eq_ok {names rest : List String} :
    disk.walk here (names ++ rest) = .ok spot ↔
      ∃ between, disk.walk here names = .ok between ∧ disk.walk between rest = .ok spot := by
  induction names generalizing here with
  | nil =>
    constructor
    · exact fun h => ⟨here, rfl, h⟩
    · rintro ⟨between, hhere, h⟩
      obtain rfl := Except.ok.inj hhere
      exact h
  | cons name names ih =>
    rw [List.cons_append, walk_cons_eq_ok, ih]
    constructor
    · rintro ⟨hdirectory, hpass, hsize, between, h, hrest⟩
      exact ⟨between, walk_cons_eq_ok.mpr ⟨hdirectory, hpass, hsize, h⟩, hrest⟩
    · rintro ⟨between, h, hrest⟩
      obtain ⟨hdirectory, hpass, hsize, h⟩ := walk_cons_eq_ok.mp h
      exact ⟨hdirectory, hpass, hsize, between, h, hrest⟩

/-- No place is a directory, nor the working directory. -/
def NotOnTheWay (disk : Disk) (places : List Location) : Prop :=
  ∀ place ∈ places, place ≠ [] ∧ ∀ mode, disk.find? place ≠ some (.directory mode)

theorem notOnTheWay_cons {place : Location} {places : List Location} :
    disk.NotOnTheWay (place :: places) ↔
      (place ≠ [] ∧ ∀ mode, disk.find? place ≠ some (.directory mode)) ∧
        disk.NotOnTheWay places :=
  List.forall_mem_cons

theorem isPrefix_step {place : Location} {name : String} (hplace : place ≠ [])
    (hhere : ¬ place <+: here) (h : place <+: here.step name) : place = here.step name := by
  unfold Location.step at h ⊢
  split_ifs at h ⊢ with hname
  · split at h
    · rcases List.prefix_cons_iff.mp h with hnil | ⟨rest, rfl, hrest⟩
      · exact absurd hnil hplace
      · rw [List.prefix_nil.mp hrest]
    · rcases List.prefix_concat_iff.mp h with heq | hprefix
      · exact heq
      · exact absurd hprefix hhere
    · exact absurd h hhere
    · exact absurd (h.trans (List.dropLast_prefix _)) hhere
  · rcases List.prefix_concat_iff.mp h with heq | hprefix
    · exact heq
    · exact absurd hprefix hhere

theorem walk_of_agreeOff {places : List Location} {names : List String}
    (hagree : AgreeOff disk disk' places) (hplaces : disk.NotOnTheWay places)
    (hhere : ∀ place ∈ places, place <+: here → place = here)
    (h : disk.walk here names = .ok spot) :
    disk'.walk here names = .ok spot ∧ ∀ place ∈ places, place <+: spot → place = spot := by
  induction names generalizing here with
  | nil =>
    obtain rfl : here = spot := Except.ok.inj h
    exact ⟨rfl, hhere⟩
  | cons name names ih =>
    obtain ⟨⟨mode, hdirectory⟩, hpass, hsize, h⟩ := walk_cons_eq_ok.mp h
    have hoff : ∀ place ∈ places, ¬ place <+: here := by
      intro place hplace hprefix
      obtain rfl := hhere place hplace hprefix
      exact (hplaces place hplace).2 mode hdirectory
    have hsame := hagree here hoff
    obtain ⟨hwalk, hbelow⟩ :=
      ih (fun place hplace => isPrefix_step (hplaces place hplace).1 (hoff place hplace)) h
    rw [← permits_of_find? hsame] at hpass
    rw [← hsame] at hdirectory
    exact ⟨walk_cons_eq_ok.mpr ⟨⟨mode, hdirectory⟩, hpass, hsize, hwalk⟩, hbelow⟩

theorem start_of_isPrefix {place : Location} (hplace : place ≠ []) (h : place <+: path.start) :
    place = path.start := by
  unfold FilePath.start at h ⊢
  split_ifs at h ⊢
  · exact absurd (List.prefix_nil.mp h) hplace
  · rcases List.prefix_cons_iff.mp h with hnil | ⟨rest, rfl, hrest⟩
    · exact absurd hnil hplace
    · rw [List.prefix_nil.mp hrest]
      rfl

theorem enter_of_agreeOff {places : List Location} (hagree : AgreeOff disk disk' places)
    (hplaces : disk.NotOnTheWay places) : disk'.enter path = disk.enter path := by
  have hstart : path.root.isEmpty = true → disk'.find? path.start = disk.find? path.start := by
    intro hroot
    refine hagree _ fun place hplace hprefix => (hplaces place hplace).1 ?_
    rw [FilePath.start, if_pos hroot] at hprefix
    exact List.prefix_nil.mp hprefix
  unfold enter
  cases hroot : path.root.isEmpty with
  | true => rw [permits_of_find? (hstart hroot)]
  | false => rfl

theorem start_of_enter (h : disk.enter path = .ok here) : path.start = here := by
  unfold enter at h
  obtain ⟨-, -, h⟩ := bind_eq_ok.mp h
  split_ifs at h
  exact Except.ok.inj h

theorem locate_eq_ok :
    disk.locate path = .ok spot ↔
      disk.enter path = .ok path.start ∧ disk.walk path.start path.names = .ok spot := by
  unfold locate
  rw [bind_eq_ok]
  constructor
  · rintro ⟨here, henter, hwalk⟩
    obtain rfl := start_of_enter henter
    exact ⟨henter, hwalk⟩
  · rintro ⟨henter, hwalk⟩
    exact ⟨_, henter, hwalk⟩

/-- **A path leads to the same location** on two disks that agree off places which it cannot have
passed. -/
theorem locate_of_agreeOff {places : List Location} (hagree : AgreeOff disk disk' places)
    (hplaces : disk.NotOnTheWay places) (h : disk.locate path = .ok spot) :
    disk'.locate path = .ok spot ∧ ∀ place ∈ places, place <+: spot → place = spot := by
  obtain ⟨henter, hwalk⟩ := locate_eq_ok.mp h
  obtain ⟨hwalk', hbelow⟩ := walk_of_agreeOff hagree hplaces
    (fun place hplace => start_of_isPrefix (hplaces place hplace).1) hwalk
  exact ⟨locate_eq_ok.mpr ⟨(enter_of_agreeOff hagree hplaces).trans henter, hwalk'⟩, hbelow⟩

/-! ## Where paths lead -/

theorem walk_eq_foldl {names : List String} (h : disk.walk here names = .ok spot) :
    spot = names.foldl Location.step here := by
  induction names generalizing here with
  | nil => exact (Except.ok.inj h).symm
  | cons name names ih => exact ih (walk_cons_eq_ok.mp h).2.2.2

theorem locate_eq_destination (h : disk.locate path = .ok spot) : spot = path.destination :=
  walk_eq_foldl (locate_eq_ok.mp h).2

theorem node_eq_ok {node : Node} :
    disk.node path = .ok node ↔
      disk.locate path = .ok path.destination ∧ disk.find? path.destination = some node := by
  unfold Disk.node
  rw [bind_eq_ok]
  constructor
  · rintro ⟨spot, hlocate, hstands⟩
    obtain rfl := locate_eq_destination hlocate
    split at hstands
    · next node' hstands' => exact ⟨hlocate, hstands'.trans (congrArg some (Except.ok.inj hstands))⟩
    · cases hstands
  · rintro ⟨hlocate, hstands⟩
    refine ⟨_, hlocate, ?_⟩
    rw [hstands]

theorem read_eq_ok {content : ByteArray} :
    disk.read path = .ok content ↔
      disk.locate path = .ok path.destination ∧
        ∃ mode, disk.find? path.destination = some (.file content mode) ∧
          (Node.file content mode).permits .read = true := by
  unfold read
  rw [bind_eq_ok]
  constructor
  · rintro ⟨node, hnode, hread⟩
    obtain ⟨hlocate, hstands⟩ := node_eq_ok.mp hnode
    refine ⟨hlocate, ?_⟩
    split at hread
    · next content' mode =>
      split_ifs at hread with hmode
      obtain rfl := Except.ok.inj hread
      exact ⟨mode, hstands, hmode⟩
    · cases hread
  · rintro ⟨hlocate, mode, hstands, hmode⟩
    exact ⟨_, node_eq_ok.mpr ⟨hlocate, hstands⟩, if_pos hmode⟩

end Disk

end SnapshotStore
