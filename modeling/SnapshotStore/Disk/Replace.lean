import SnapshotStore.Disk

/-!
# Replacing a file

A file is exchanged for another by way of a temporary file beside it, which takes on the old file's
mode and is renamed over it. If any step fails the temporary file is taken away, so the old file is
either exchanged whole or left as it was. Directories that were made on the way stay.

To replace a file is to exchange it and then to sync its directory. When that fails the new file is
in place all the same (`ReplaceError.unsynced`).
-/

namespace SnapshotStore

/-- The steps of replacing a file, each of which the system may let fail. -/
inductive ReplaceStep where
  | makeDirectory
  | createTemporary
  | write
  | setMode
  | rename
  | syncDirectory
deriving DecidableEq

/-- Why replacing a file fails. -/
inductive ReplaceError where
  /-- The old file was kept. -/
  | kept (cause : DiskError)
  /-- The new file is in place, but its directory was not synced. -/
  | unsynced (cause : DiskError)
deriving DecidableEq

/-- What the system has against it. -/
def ReplaceError.cause : ReplaceError → DiskError
  | kept cause => cause
  | unsynced cause => cause

namespace Disk

/-- A number as a text of at least eight digits. -/
def eightDigits (n : Nat) : String :=
  let digits := Nat.toDigits 10 n
  String.ofList (List.replicate (8 - digits.length) '0' ++ digits)

/-- A name for a temporary file beside a file, with a number that is not in use. -/
def temporaryName (disk : Disk) (path : FilePath) : String :=
  let directory := (disk.locate path.parent).toOption.getD []
  let candidates := (List.range (disk.nodes.length + 1)).map fun n =>
    "." ++ path.name ++ "." ++ eightDigits n ++ ".tmp"
  (candidates.find? fun name => (disk.find? (directory ++ [name])).isNone).getD ""

/-- Take a file away, if it is there. -/
def discard (disk : Disk) (path : FilePath) : Disk :=
  match disk.locate path with
  | .ok spot => disk.erase spot
  | .error _ => disk

/-- An operation, if the system does not let it fail. -/
def attempt {α : Type} (fails : Bool) (operation : Except DiskError α) : Except DiskError α :=
  if fails then .error .failed else operation

/-- The mode that a replaced file gets: the one it had, or that of a new file. -/
def modeFor (disk : Disk) (path : FilePath) : Nat :=
  match disk.node path with
  | .ok node => node.mode
  | .error _ => fileMode

/-- Write the temporary file, give it the mode and rename it over the file. -/
def fillAndRename (disk : Disk) (temporary path : FilePath) (content : ByteArray) (mode : Nat)
    (fault : Option ReplaceStep) : Except DiskError Disk := do
  let written ← attempt (fault = some .write) (disk.write temporary content)
  let ready ← attempt (fault = some .setMode) (written.setMode temporary mode)
  attempt (fault = some .rename) (ready.rename temporary path)

/-- Exchange a file that has its directory. Whatever the temporary file holds when a step fails, it
is taken away. -/
def exchangeBeside (disk : Disk) (path : FilePath) (content : ByteArray)
    (fault : Option ReplaceStep) : Except DiskError Unit × Disk :=
  let temporary := path.withName (disk.temporaryName path)
  let created := attempt (fault = some .createTemporary) do
    (← disk.write temporary .empty).setMode temporary temporaryMode
  match created with
  | .error e => (.error e, disk)
  | .ok created =>
    match created.fillAndRename temporary path content (disk.modeFor path) fault with
    | .error e => (.error e, created.discard temporary)
    | .ok replaced => (.ok (), replaced)

/-- Exchange a file, making its directory if need be. Returns whether it succeeded, and the disk
afterwards. -/
def exchange (disk : Disk) (path : FilePath) (content : ByteArray) (fault : Option ReplaceStep) :
    Except DiskError Unit × Disk :=
  if fault = some .makeDirectory then (.error .failed, disk)
  else match disk.makeDirectories path.parent with
    | (.error e, made) => (.error e, made)
    | (.ok (), made) => made.exchangeBeside path content fault

/-- Sync the directory of a file. It is opened for that, which takes what listing it takes. -/
def syncDirectory (disk : Disk) (path : FilePath) (fault : Option ReplaceStep) :
    Except DiskError Unit :=
  attempt (fault = some .syncDirectory) ((disk.list path.parent).map fun _ => ())

/-- Replace a file. Returns whether it succeeded, and the disk afterwards. There is no temporary
file left to take away when only syncing fails. -/
def replace (disk : Disk) (path : FilePath) (content : ByteArray) (fault : Option ReplaceStep) :
    Except ReplaceError Unit × Disk :=
  match disk.exchange path content fault with
  | (.error e, disk) => (.error (.kept e), disk)
  | (.ok (), replaced) => ((replaced.syncDirectory path fault).mapError .unsynced, replaced)

end Disk

end SnapshotStore
