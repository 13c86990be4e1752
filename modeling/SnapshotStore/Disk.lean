import SnapshotStore.Disk.Path

/-!
# The disk

A disk holds directories and files, each at a location: the names that lead to it from the working
directory or from the root. A file has bytes and a mode, a directory only a mode. Operations fail as
an operating system makes them fail for someone who owns everything but the root directory, so of
the permission bits only the owner's count (`Permission`).

A path is followed name by name (`Disk.locate`), so everything on the way must be a directory that
is there and lets one pass, also when two dots lead back out of it.
-/

namespace SnapshotStore

/-- What stands at a location. -/
inductive Node where
  | directory (mode : Nat)
  | file (content : ByteArray) (mode : Nat)

/-- The names that lead to a directory or file. Two dots stand only at the start, for the
directories above the working directory; a slash, only at the start as well, for the root. -/
abbrev Location := List String

/-- Why an operation on the disk fails. -/
inductive DiskError where
  | notFound
  | notADirectory
  | isADirectory
  | notEmpty
  | intoItself
  | busy
  | nameTooLong
  | nulInPath
  | denied
  | failed
deriving DecidableEq

/-- Directories and files. -/
structure Disk where
  nodes : List (Location × Node)

/-- What the permission bits let the owner do. To read a directory is to list it, to write it is to
change what it holds, and to pass it is to follow a path on through it. -/
inductive Permission where
  | read
  | write
  | pass
deriving DecidableEq

namespace Permission

/-- The place of the owner's bit in a mode. -/
def bit : Permission → Nat
  | read => 8
  | write => 7
  | pass => 6

end Permission

namespace Node

/-- The permission bits. -/
def mode : Node → Nat
  | .directory mode => mode
  | .file _ mode => mode

/-- Whether the owner may do something. -/
def permits (node : Node) (permission : Permission) : Bool := node.mode.testBit permission.bit

/-- The same with other permission bits. -/
def withMode (mode : Nat) : Node → Node
  | .directory _ => .directory mode
  | .file content _ => .file content mode

end Node

/-- The mode of new files. -/
def fileMode : Nat := 0o644

/-- The mode of new directories. -/
def directoryMode : Nat := 0o755

/-- The place in a mode of the bit by which a file runs as its owner. -/
def userBit : Nat := 11

/-- The place in a mode of the bit by which a file runs as its group, and by which what is made in a
directory belongs to its group. -/
def groupBit : Nat := 10

/-- The place in a mode of the bit that lets the group run a file. -/
def groupRunBit : Nat := 3

/-- The mode of new temporary files. -/
def temporaryMode : Nat := 0o600

/-- A mode without one of its bits. -/
def withoutBit (mode bit : Nat) : Nat := if mode.testBit bit then mode - Nat.pow 2 bit else mode

/-- The mode of a file after it was written: it no longer runs as its owner, nor as its group where
the group may run it. -/
def writtenMode (mode : Nat) : Nat :=
  let mode := withoutBit mode userBit
  if mode.testBit groupRunBit then withoutBit mode groupBit else mode

/-- The most bytes of a name. -/
def maxNameSize : Nat := 255

/-- The most bytes of a path. -/
def maxPathSize : Nat := 4095

namespace Location

/-- The location of the root. -/
def root : Location := ["/"]

/-- One name further; two dots lead back, and stay at the root. -/
def step (spot : Location) (name : String) : Location :=
  if name = ".." then
    match spot.getLast? with
    | none => [".."]
    | some ".." => spot ++ [".."]
    | some "/" => spot
    | some _ => spot.dropLast
  else spot ++ [name]

/-- The working directory, the directories above it and the root stand on every disk. -/
def alwaysStands (spot : Location) : Bool := spot.all (· == "..") || spot == root

end Location

namespace FilePath

/-- Where a path starts. -/
def start (path : FilePath) : Location := if path.root.isEmpty then [] else Location.root

/-- Whether a path ends in a name that a directory entry can have. -/
def endsInEntry (path : FilePath) : Bool :=
  match path.names.getLast? with
  | none => false
  | some name => name != ".."

/-- A path that no operation takes: one that holds a NUL or is too long. -/
def check (path : FilePath) : Except DiskError Unit :=
  if path.text.toList.contains '\x00' then .error .nulInPath
  else if path.text.utf8ByteSize > maxPathSize then .error .nameTooLong
  else .ok ()

end FilePath

namespace Disk

/-- A disk with an empty working directory. -/
def empty : Disk := ⟨[]⟩

/-- What stands at a location. -/
def find? (disk : Disk) (spot : Location) : Option Node :=
  match disk.nodes.lookup spot with
  | some node => some node
  | none => if spot.alwaysStands then some (.directory directoryMode) else none

/-- Whether what stands at a location permits something. The root directory is someone else's, who
lets nobody write in it. -/
def permits (disk : Disk) (spot : Location) (permission : Permission) : Bool :=
  match disk.find? spot with
  | some node => node.permits permission && !(spot == Location.root && permission == .write)
  | none => false

/-- Put something at a location. -/
def put (disk : Disk) (spot : Location) (node : Node) : Disk :=
  ⟨disk.nodes.filter (fun entry => entry.1 != spot) ++ [(spot, node)]⟩

/-- Take what stands at a location, and everything below it, away. -/
def erase (disk : Disk) (spot : Location) : Disk :=
  ⟨disk.nodes.filter fun entry => !spot.isPrefixOf entry.1⟩

/-- The names in a directory, in order. -/
def children (disk : Disk) (spot : Location) : List String :=
  (disk.nodes.filterMap fun entry =>
    if entry.1.dropLast = spot && !entry.1.alwaysStands then entry.1.getLast?
    else none).mergeSort fun a b => !(b < a)

/-- Follow names from a location. All but the place that the last one leads to must be there. -/
def walk (disk : Disk) (here : Location) : List String → Except DiskError Location
  | [] => .ok here
  | name :: names =>
    match disk.find? here with
    | some (.directory _) =>
      if !disk.permits here .pass then .error .denied
      else if name.utf8ByteSize > maxNameSize then .error .nameTooLong
      else walk disk (here.step name) names
    | some (.file _ _) => .error .notADirectory
    | none => .error .notFound

/-- Where a path starts. The path without names is a step from the working directory to itself, so
it must let one pass. -/
def enter (disk : Disk) (path : FilePath) : Except DiskError Location := do
  path.check
  if path.root.isEmpty && path.names.isEmpty && !disk.permits path.start .pass then .error .denied
  else .ok path.start

/-- Where a path leads. -/
def locate (disk : Disk) (path : FilePath) : Except DiskError Location := do
  disk.walk (← disk.enter path) path.names

/-- What a path leads to. -/
def node (disk : Disk) (path : FilePath) : Except DiskError Node := do
  match disk.find? (← disk.locate path) with
  | some node => .ok node
  | none => .error .notFound

/-- The bytes of a file. -/
def read (disk : Disk) (path : FilePath) : Except DiskError ByteArray := do
  match ← disk.node path with
  | .file content mode =>
    if (Node.file content mode).permits .read then .ok content else .error .denied
  | .directory _ => .error .isADirectory

/-- The names in a directory, in order. -/
def list (disk : Disk) (path : FilePath) : Except DiskError (List String) := do
  let spot ← disk.locate path
  match ← disk.node path with
  | .directory _ => if disk.permits spot .read then .ok (disk.children spot) else .error .denied
  | .file _ _ => .error .notADirectory

/-- Set permission bits. -/
def setMode (disk : Disk) (path : FilePath) (mode : Nat) : Except DiskError Disk := do
  let spot ← disk.locate path
  let node ← disk.node path
  if spot = Location.root then .error .denied else .ok (disk.put spot (node.withMode mode))

/-- A new directory in a directory, whose group bit it takes on. -/
def newDirectory (disk : Disk) (parent : Location) : Node :=
  match disk.find? parent with
  | some node =>
    .directory (if node.mode.testBit groupBit then directoryMode + Nat.pow 2 groupBit
      else directoryMode)
  | none => .directory directoryMode

/-- Make the directories that are missing on the way along names. Those made before a failure
stay. -/
def makeWay (disk : Disk) (here : Location) : List String → Except DiskError Unit × Disk
  | [] => (.ok (), disk)
  | name :: names =>
    if !disk.permits here .pass then (.error .denied, disk)
    else if name.utf8ByteSize > maxNameSize then (.error .nameTooLong, disk)
    else
      let next := here.step name
      match disk.find? next with
      | some (.directory _) => makeWay disk next names
      | some (.file _ _) => (.error .notADirectory, disk)
      | none =>
        if disk.permits here .write then
          makeWay (disk.put next (disk.newDirectory here)) next names
        else (.error .denied, disk)

/-- Make a directory and those above it, as far as they are missing. Returns whether it succeeded,
and the disk afterwards. -/
def makeDirectories (disk : Disk) (path : FilePath) : Except DiskError Unit × Disk :=
  match disk.enter path with
  | .error e => (.error e, disk)
  | .ok here => disk.makeWay here path.names

/-- Write a file, keeping the mode it has. -/
def write (disk : Disk) (path : FilePath) (content : ByteArray) : Except DiskError Disk := do
  let spot ← disk.locate path
  match disk.find? spot with
  | some (.directory _) => .error .isADirectory
  | some (.file _ mode) =>
    if disk.permits spot .write then .ok (disk.put spot (.file content (writtenMode mode)))
    else .error .denied
  | none =>
    if disk.permits spot.dropLast .write then .ok (disk.put spot (.file content fileMode))
    else .error .denied

/-- The order in which what stands below a directory is removed: by name, and what a directory holds
before the directory. -/
def removedBefore (a b : Location) : Bool := b.isPrefixOf a || (!a.isPrefixOf b && !List.lex b a)

/-- Whether what stands somewhere below a directory can be removed: all directories on the way may
be listed and passed, the last one written, and if it is a directory itself it may be listed. -/
def removable (disk : Disk) (top spot : Location) : Bool :=
  let way := (List.range (spot.length - top.length)).map fun n => spot.take (top.length + n)
  way.all (fun here => disk.permits here .read && disk.permits here .pass) &&
    disk.permits spot.dropLast .write &&
    match disk.find? spot with
    | some (.directory mode) => (Node.directory mode).permits .read
    | _ => true

/-- Remove what stands below a directory, up to the first thing that cannot be removed. Returns
whether the directory is empty afterwards, and the disk. -/
def clear (disk : Disk) (top : Location) : Bool × Disk :=
  let below := (disk.nodes.map (·.1)).filter fun (spot : Location) =>
    top.isPrefixOf spot && spot != top && !spot.alwaysStands
  let removed := (below.mergeSort removedBefore).takeWhile (disk.removable top)
  (removed.length == below.length,
    ⟨disk.nodes.filter fun entry => !removed.contains entry.1⟩)

/-- Remove a file, or a directory with all it holds, as far as that goes. Returns whether it
succeeded, and the disk afterwards. -/
def remove (disk : Disk) (path : FilePath) : Except DiskError Unit × Disk :=
  match disk.locate path with
  | .error e => (.error e, disk)
  | .ok spot =>
    match disk.find? spot with
    | none => (.error .notFound, disk)
    | some (.file _ _) =>
      if disk.permits spot.dropLast .write then (.ok (), disk.erase spot)
      else (.error .denied, disk)
    | some (.directory mode) =>
      if !(Node.directory mode).permits .read then (.error .denied, disk)
      else
        let (emptied, cleared) := disk.clear spot
        if !emptied then (.error .denied, cleared)
        else if !path.endsInEntry then (.error .busy, cleared)
        else if cleared.permits spot.dropLast .write then (.ok (), cleared.erase spot)
        else (.error .denied, cleared)

/-- Carry what stands at a location, and everything below it, to another location. -/
def carry (disk : Disk) (source target : Location) : Disk :=
  ⟨disk.nodes.map fun entry =>
    if source.isPrefixOf entry.1 then (target ++ entry.1.drop source.length, entry.2) else entry⟩

/-- Rename, replacing a file by a file or an empty directory by a directory. -/
def rename (disk : Disk) (source target : FilePath) : Except DiskError Disk := do
  let old ← disk.locate source
  let new ← disk.locate target
  let node ← disk.node source
  if !source.endsInEntry || !target.endsInEntry then .error .busy
  else if !disk.permits old.dropLast .write || !disk.permits new.dropLast .write then .error .denied
  else if old = new then .ok disk
  else if old.isPrefixOf new then .error .intoItself
  else match node, disk.find? new with
    | .file _ _, some (.directory _) => .error .isADirectory
    | .directory _, some (.file _ _) => .error .notADirectory
    | .directory _, some (.directory _) =>
      if disk.children new = [] then .ok ((disk.erase new).carry old new)
      else .error .notEmpty
    | _, _ => .ok ((disk.erase new).carry old new)

end Disk

end SnapshotStore
