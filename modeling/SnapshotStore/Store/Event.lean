import SnapshotStore.Pipeline
import SnapshotStore.Snapshot

/-!
# Events and failures

What a store reports while it works (`Event`), and why an operation fails (`Failure`). Both are
data; their wording is given by `message`. The words for a system's own errors belong to the
system, so they are a parameter (`Wording`).
-/

namespace SnapshotStore

/-- How the errors of the system are put in words. -/
structure Wording where
  read : ReadError → String
  disk : DiskError → String

/-- Why an operation on a store fails. -/
inductive Failure where
  | query (cause : QueryError)
  | pipeline (cause : PipelineError)
  | document (cause : DocumentError)
  | unknownCollection (name : String)
  | snapshot (cause : SnapshotError)
  | persistence (path : FilePath) (cause : ReplaceError)
  | encode (cause : EncodeError)
  | disk (cause : DiskError)
  | noName (path : FilePath)
  | notHeld (name : String)
  | unsupported (operation : String) (kind : Kind)
  | shape (cause : ShapeError)

/-- What a store reports. -/
inductive Event where
  | notice (cause : Notice)
  | resetting (cause : SnapshotError)
  | keptAside (path : FilePath)
  | notMovedAside (path : FilePath) (cause : DiskError)
  | bootstrapping (path : FilePath)
  | loaded (path : FilePath)
  | persisted (path : FilePath) (characters : Nat)
  | writeFailed (path : FilePath) (cause : ReplaceError)
  | ignoredStage (name : Value)

/-- How much an event matters. -/
inductive Level where
  | debug
  | info
  | warning
  | error
deriving DecidableEq

namespace SnapshotError

/-- What is wrong, in words. -/
def message (wording : Wording) : SnapshotError → String
  | unreadable path cause => "Can't read snapshot " ++ path.text ++ ": " ++ wording.read cause
  | notAnObject => "Snapshot root must be an object."
  | notAMap collection => "Collection '" ++ collection ++ "' must map ids to documents."
  | notAList collection => "Collection '" ++ collection ++ "' must be a list of documents."
  | noKey entry collection field =>
    "Document '" ++ entry.display ++ "' in '" ++ collection ++ "' has no '" ++ field ++ "'."
  | duplicateKey field key collection =>
    "Duplicate " ++ field ++ " '" ++ key ++ "' in '" ++ collection ++ "'."

end SnapshotError

namespace Notice

/-- What was changed, in words. -/
def message : Notice → String
  | dropped collection => "Dropping unknown collection '" ++ collection.display ++ "' from snapshot"
  | rekeyed old new collection =>
    "Re-keying '" ++ old.display ++ "' as '" ++ new ++ "' in collection '" ++ collection ++ "'"

end Notice

/-- That a snapshot could not be written, in words. -/
def writeFailedMessage (wording : Wording) (path : FilePath) (cause : ReplaceError) : String :=
  "Failed to write snapshot " ++ path.text ++ ": " ++ wording.disk cause.cause

namespace Failure

/-- What is wrong, in words. -/
def message (wording : Wording) : Failure → String
  | query cause => cause.message
  | pipeline cause => cause.message
  | document cause => cause.message
  | unknownCollection name => "Unknown collection: " ++ name
  | snapshot cause => cause.message wording
  | persistence path cause => writeFailedMessage wording path cause
  | encode cause => cause.message
  | disk .nulInPath => "embedded null byte"
  | disk cause => wording.disk cause
  | noName path => "PosixPath(" ++ String.ofList (quoted path.text.toList) ++ ") has an empty name"
  | notHeld name => String.ofList (quoted name.toList)
  | unsupported operation kind =>
    ShapeError.message (.noOperation kind.name operation)
  | shape cause => cause.message

end Failure

namespace Level

/-- The name of a level. -/
def name : Level → String
  | debug => "DEBUG"
  | info => "INFO"
  | warning => "WARNING"
  | error => "ERROR"

end Level

namespace Event

/-- How much an event matters. -/
def level : Event → Level
  | notice _ | resetting _ | keptAside _ | notMovedAside _ _ => .warning
  | bootstrapping _ | loaded _ => .info
  | persisted _ _ | ignoredStage _ => .debug
  | writeFailed _ _ => .error

/-- What happened, in words. -/
def message (wording : Wording) : Event → String
  | notice cause => cause.message
  | resetting cause => cause.message wording ++ "; resetting to an empty store"
  | keptAside path => "Corrupt snapshot kept at " ++ path.text
  | notMovedAside path cause =>
    "Could not move corrupt snapshot " ++ path.text ++ " aside: " ++ wording.disk cause
  | bootstrapping path => "Bootstrapping empty store at " ++ path.text
  | loaded path => "Loaded store from " ++ path.text
  | persisted path characters =>
    "Persisted snapshot " ++ path.text ++ " (" ++ toString characters ++ " chars)"
  | writeFailed path cause => writeFailedMessage wording path cause
  | ignoredStage name => "Ignoring aggregation stage " ++ name.display

/-- An event as a line of a log. -/
def line (wording : Wording) (e : Event) : String := e.level.name ++ " " ++ e.message wording

end Event

end SnapshotStore
