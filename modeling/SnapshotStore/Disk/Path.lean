/-!
# File paths

A path is a root, which is empty for a relative path, and the names along the way. Repeated
slashes and names that stand for the same directory are dropped when a path is read.
-/

namespace SnapshotStore

/-- The way to a file. -/
structure FilePath where
  root : String := ""
  names : List String
deriving DecidableEq

namespace FilePath

/-- Split a text at slashes. -/
def splitSlashes : List Char → List (List Char)
  | [] => [[]]
  | '/' :: cs => [] :: splitSlashes cs
  | c :: cs => match splitSlashes cs with
    | [] => [[c]]
    | word :: words => (c :: word) :: words

/-- The root that a text starts with: two slashes are one of their own, three or more are one. -/
def rootOf : List Char → String
  | '/' :: '/' :: '/' :: _ => "/"
  | '/' :: '/' :: _ => "//"
  | '/' :: _ => "/"
  | _ => ""

/-- The path that a text stands for. -/
def ofText (text : String) : FilePath :=
  let names := ((splitSlashes text.toList).map String.ofList).filter fun name =>
    name != "" && name != "."
  ⟨rootOf text.toList, names⟩

/-- A path as text; the empty relative path is a dot. -/
def text (path : FilePath) : String :=
  if path.root.isEmpty && path.names.isEmpty then "."
  else path.root ++ "/".intercalate path.names

/-- A path followed from another one; an absolute path leads away from it. -/
def join (path other : FilePath) : FilePath :=
  if other.root.isEmpty then { path with names := path.names ++ other.names } else other

/-- The last name. -/
def name (path : FilePath) : String := path.names.getLast?.getD ""

/-- The path of the directory that holds the file. -/
def parent (path : FilePath) : FilePath := { path with names := path.names.dropLast }

/-- The path beside this one with another last name. -/
def withName (path : FilePath) (name : String) : FilePath :=
  { path with names := path.names.dropLast ++ [name] }

end FilePath

end SnapshotStore
