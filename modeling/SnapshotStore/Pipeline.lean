import SnapshotStore.Pipeline.Group
import SnapshotStore.Query
import SnapshotStore.Sort

/-!
# Pipelines

A pipeline is a list of objects that give stages. Wherever its stages stand, documents are first
matched, then grouped, then sorted, then limited, and each stage counts once, as first given. What
is no stage is passed over and reported, or refused when the pipeline is strict, and so is a stage
given again.

A pipeline may also be run over items that are no documents (`Pipeline.runItems`), as long as no
stage asks them for a field.
-/

namespace SnapshotStore

/-- A step of a pipeline. -/
inductive Stage where
  | pick
  | group
  | sort
  | limit
deriving DecidableEq

namespace Stage

/-- Every stage, in the order in which they are applied. -/
def all : List Stage := [pick, group, sort, limit]

/-- A stage as pipelines write it. -/
def name : Stage → String
  | pick => "$match"
  | group => "$group"
  | sort => "$sort"
  | limit => "$limit"

/-- The stage of a name. -/
def ofName? : Value → Option Stage
  | .str name => all.find? fun stage => stage.name == name
  | _ => none

end Stage

/-- Why a pipeline fails. -/
inductive PipelineError where
  | notAList
  | stageNotAnObject
  | unknownStage (name : Value)
  | duplicateStage (name : Value)
  | text (cause : EncodeError)
  | query (cause : QueryError)
  | group (cause : GroupError)
  | sortNotAnObject
  | limitNotAnInteger
  | limitNegative
  | shape (cause : ShapeError)

namespace Pipeline

/-! ## Collecting stages -/

/-- The specification of each stage that is given. -/
abbrev Stages := Stage → Option Value

/-- No stages. -/
def Stages.empty : Stages := fun _ => none

/-- Give a stage its specification. -/
def Stages.put (stages : Stages) (stage : Stage) (spec : Value) : Stages :=
  fun other => if other = stage then some spec else stages other

/-- What was passed over on the way to a result. -/
structure Report (α : Type) where
  ignored : List Value
  outcome : Except PipelineError α

/-- Put what was passed over before in front. -/
def Report.after {α : Type} (ignored : List Value) (r : Report α) : Report α :=
  { r with ignored := ignored ++ r.ignored }

/-- Add the stages that an object gives. What is no stage is named in either mode, when it is
refused or when it is reported, so it must have a text. -/
def collectFields (strict : Bool) : Fields → Stages → Report Stages
  | [], stages => ⟨[], .ok stages⟩
  | (name, spec) :: fields, stages =>
    match Stage.ofName? name with
    | none =>
      match name.spelled with
      | .error e => ⟨[], .error (.text e)⟩
      | .ok _ =>
        if strict then ⟨[], .error (.unknownStage name)⟩
        else (collectFields strict fields stages).after [name]
    | some stage =>
      if (stages stage).isSome then
        if strict then ⟨[], .error (.duplicateStage name)⟩ else collectFields strict fields stages
      else collectFields strict fields (stages.put stage spec)

/-- Add the stages that several objects give. -/
def collectAll (strict : Bool) : List Value → Stages → Report Stages
  | [], stages => ⟨[], .ok stages⟩
  | .object fields :: rest, stages =>
    match collectFields strict fields stages with
    | ⟨ignored, .ok stages⟩ => (collectAll strict rest stages).after ignored
    | ⟨ignored, .error e⟩ => ⟨ignored, .error e⟩
  | _ :: _, _ => ⟨[], .error .stageNotAnObject⟩

/-- The stages of a pipeline. -/
def collect (strict : Bool) : Value → Report Stages
  | .list items => collectAll strict items .empty
  | .tuple items => collectAll strict items .empty
  | _ => ⟨[], .error .notAList⟩

/-! ## Applying stages -/

/-- Sorted in descending order is asked for by minus one; anything else asks for ascending. -/
def isDescending (direction : Value) : Bool := direction.equals (.int (-1))

/-- One document goes before another: the first sort field in which their values compare as
greater, one way or the other, decides. -/
def goesBefore : Fields → Document → Document → Bool
  | [], _, _ => false
  | (key, direction) :: fields, a, b =>
    let x := (Fields.get? a key).getD .null
    let y := (Fields.get? b key).getD .null
    if x.isGreater y then isDescending direction
    else if y.isGreater x then !isDescending direction
    else goesBefore fields a b

/-- Sort documents as a specification says. -/
def sorted (spec : Value) (docs : List Document) : Except PipelineError (List Document) :=
  match spec with
  | .object fields => .ok (Sort.sort (goesBefore fields) docs)
  | _ => .error .sortNotAnObject

/-- Keep the first documents, as many as a specification says. -/
def limited {α : Type} (spec : Value) (docs : List α) : Except PipelineError (List α) :=
  match spec with
  | .int n => if n < 0 then .error .limitNegative else .ok (docs.take n.toNat)
  | _ => .error .limitNotAnInteger

/-- Apply one stage. -/
def applyStage (strict : Bool) (stage : Stage) (spec : Value) (docs : List Document) :
    Except PipelineError (List Document) :=
  match stage with
  | .pick => (Query.select strict spec docs).mapError .query
  | .group => (Group.rows strict spec docs).mapError .group
  | .sort => sorted spec docs
  | .limit => limited spec docs

/-- Apply those of several stages that are given. -/
def applyAll (strict : Bool) (stages : Stages) :
    List Stage → List Document → Except PipelineError (List Document)
  | [], docs => .ok docs
  | stage :: rest, docs =>
    match stages stage with
    | none => applyAll strict stages rest docs
    | some spec => do applyAll strict stages rest (← applyStage strict stage spec docs)

/-- Run a pipeline over documents. -/
def run (strict : Bool) (pipeline : Value) (docs : List Document) : Report (List Document) :=
  match collect strict pipeline with
  | ⟨ignored, .ok stages⟩ => ⟨ignored, applyAll strict stages Stage.all docs⟩
  | ⟨ignored, .error e⟩ => ⟨ignored, .error e⟩

/-! ## Items of any kind -/

/-- One item goes before another, as far as both have the fields to tell. -/
def itemGoesBefore (fields : Fields) (a b : Value) : Except PipelineError Bool :=
  match fields, a, b with
  | [], _, _ => .ok false
  | fields, .object a, .object b => .ok (goesBefore fields a b)
  | _, .object _, b => .error (.shape (b.lacks "get"))
  | _, a, _ => .error (.shape (a.lacks "get"))

/-- Apply one stage to items. -/
def applyStageToItems (strict : Bool) (stage : Stage) (spec : Value) (items : List Value) :
    Except PipelineError (List Value) :=
  match stage, spec with
  | .pick, spec => (Query.selectItems strict spec items).mapError .query
  | .group, spec => ((Group.rowsOfItems strict spec items).map fun rows =>
    rows.map Value.object).mapError .group
  | .sort, .object fields => Sort.sortM (itemGoesBefore fields) items
  | .sort, _ => .error .sortNotAnObject
  | .limit, spec => limited spec items

/-- Apply those of several stages that are given to items. -/
def applyAllToItems (strict : Bool) (stages : Stages) :
    List Stage → List Value → Except PipelineError (List Value)
  | [], items => .ok items
  | stage :: rest, items =>
    match stages stage with
    | none => applyAllToItems strict stages rest items
    | some spec => do
      applyAllToItems strict stages rest (← applyStageToItems strict stage spec items)

/-- Run a pipeline over items. -/
def runItems (strict : Bool) (pipeline : Value) (items : List Value) : Report (List Value) :=
  match Value.documents? items, collect strict pipeline with
  | some docs, _ =>
    let report := run strict pipeline docs
    ⟨report.ignored, report.outcome.map fun rows => rows.map .object⟩
  | none, ⟨ignored, .ok stages⟩ => ⟨ignored, applyAllToItems strict stages Stage.all items⟩
  | none, ⟨ignored, .error e⟩ => ⟨ignored, .error e⟩

/-- Run a pipeline over the elements of a value. Its stages are collected first. -/
def runOver (strict : Bool) (pipeline v : Value) : Report (List Value) :=
  match v.elements, collect strict pipeline with
  | .ok items, _ => runItems strict pipeline items
  | .error e, ⟨ignored, .ok _⟩ => ⟨ignored, .error (.shape e)⟩
  | .error _, ⟨ignored, .error e⟩ => ⟨ignored, .error e⟩

end Pipeline

/-! ## Messages -/

namespace GroupError

/-- What is wrong, in words. -/
def message : GroupError → String
  | notAnObject => "$group requires a dict."
  | notAnAccumulator field =>
    "Accumulator for '" ++ field.display ++ "' must be a single-key dict."
  | unknownAccumulator name => "Unsupported group accumulator: " ++ name.display
  | text cause => cause.message
  | key cause => cause.message
  | arithmetic cause => cause.message
  | shape cause => cause.message

end GroupError

namespace PipelineError

/-- What is wrong, in words. -/
def message : PipelineError → String
  | notAList => "Pipeline must be a list of stages."
  | stageNotAnObject => "Each pipeline stage must be a dict."
  | unknownStage name => "Unsupported aggregation stage: " ++ name.display
  | duplicateStage name => "Duplicate aggregation stage: " ++ name.display
  | text cause => cause.message
  | query cause => cause.message
  | group cause => cause.message
  | sortNotAnObject => "$sort requires a dict of field -> 1 / -1."
  | limitNotAnInteger => "$limit requires an integer."
  | limitNegative => "$limit must not be negative."
  | shape cause => cause.message

end PipelineError

end SnapshotStore
