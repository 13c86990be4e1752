import SnapshotStore.Proofs.Pipeline.Stages
import SnapshotStore.Proofs.Query.Strict

/-!
# Strict pipelines

Besides what a strict query refuses, a strict pipeline refuses entries that give no stage, stages
that are given again, and fields of a grouping that ask for no known accumulator. A permissive one
passes over them. `Pipeline.strip` drops them all.

**Theorem (`strict_only_refuses`).** Stripped and run strictly, a pipeline gives the rows or fails
as the whole one does when run permissively, unless that has to pass over something that has no
text. So does a query, without exception. Whatever the whole pipeline or query gives when it is
strict, it gives when it is permissive.

While stages are collected, the strict run of the stripped pipeline holds the stripped
specifications of what the permissive run holds (`collectAll_strip`), and each stage then does the
same with both (`applyStage_strip`).
-/

namespace SnapshotStore

/-! ## Groupings -/

namespace Group

/-- A field that says what to group by, or asks for a known accumulator. -/
def isKnown : Value × Value → Bool
  | (field, spec) => field.equals (.str "_id") ||
      (single? spec).any fun accumulator => (Accumulator.ofName? accumulator.1).isSome

/-- A grouping without the fields that a strict one refuses. -/
def strip : Value → Value
  | .object fields => .object (fields.filter isKnown)
  | v => v

theorem columns_strip (fields : Fields) :
    columns true (fields.filter isKnown) = columns false fields := by
  induction fields with
  | nil => rfl
  | cons entry fields ih =>
    obtain ⟨field, spec⟩ := entry
    by_cases hid : field.equals (.str "_id") = true
    · rw [List.filter_cons_of_pos (by simp [isKnown, hid]), columns, columns, if_pos hid,
        if_pos hid, ih]
    · cases hspec : single? spec with
      | none =>
        rw [List.filter_cons_of_neg (by simp [isKnown, hid, hspec]), columns, if_neg hid, hspec, ih]
        rfl
      | some accumulator =>
        obtain ⟨name, argument⟩ := accumulator
        cases hname : Accumulator.ofName? name with
        | none =>
          rw [List.filter_cons_of_neg (by simp [isKnown, hid, hspec, hname]), columns, if_neg hid,
            hspec, ih]
          simp only [hname]
          rfl
        | some accumulator =>
          rw [List.filter_cons_of_pos (by simp [isKnown, hspec, hname]), columns, columns,
            if_neg hid, if_neg hid, hspec]
          simp only [hname, ih]

/-- What to group by is not dropped. -/
theorem keySource_strip (fields : Fields) :
    keySource (fields.filter isKnown) = keySource fields := by
  have hkept : ∀ entry : Value × Value, (Value.str "_id").alike entry.1 = true →
      isKnown entry = true := by
    rintro ⟨field, spec⟩ hfield
    obtain rfl := Value.alike_str_iff.mp hfield
    have hid : (Value.str "_id").equals (.str "_id") = true := Value.alike_str_iff.mpr rfl
    simp [isKnown, hid]
  have hfind : (fields.filter isKnown).find? (fun entry => (Value.str "_id").alike entry.1) =
      fields.find? fun entry => (Value.str "_id").alike entry.1 := by
    rw [List.find?_filter]
    congr 1
    funext entry
    rw [Bool.decide_and, Bool.decide_eq_true, Bool.decide_eq_true, Bool.and_eq_right_iff_imp]
    exact hkept entry
  unfold keySource Fields.getText? Fields.get?
  rw [hfind]

theorem rows_strip (spec : Value) (docs : List Document) :
    rows true (strip spec) docs = rows false spec docs := by
  cases spec with
  | object fields => simp only [strip, rows, columnsOrCount, columns_strip, keySource_strip]
  | _ => rfl

/-- Nothing is made of what is refused, whether it can be named or not. -/
theorem refuse_ne_ok {α : Type} (name : Value) (e : GroupError) (found : α) :
    refuse name e ≠ .ok found := by
  intro h
  obtain ⟨_, -, h⟩ := bind_eq_ok.mp h
  cases h

theorem columns_of_strict {fields : Fields} {found : List Column}
    (h : columns true fields = .ok found) : columns false fields = .ok found := by
  induction fields generalizing found with
  | nil => exact h
  | cons entry fields ih =>
    obtain ⟨field, spec⟩ := entry
    unfold columns at h ⊢
    by_cases hid : field.equals (.str "_id") = true
    · rw [if_pos hid] at h ⊢
      exact ih h
    · rw [if_neg hid] at h ⊢
      split at h
      · exact absurd h (refuse_ne_ok _ _ _)
      · split at h
        · exact absurd h (refuse_ne_ok _ _ _)
        · obtain ⟨rest, hrest, h⟩ := bind_eq_ok.mp h
          exact bind_eq_ok.mpr ⟨rest, ih hrest, h⟩

theorem rows_of_strict {spec : Value} {docs found : List Document}
    (h : rows true spec docs = .ok found) : rows false spec docs = .ok found := by
  cases spec with
  | object fields =>
    obtain ⟨columns, hcolumns, h⟩ := bind_eq_ok.mp h
    obtain ⟨named, hnamed, hcolumns⟩ := bind_eq_ok.mp hcolumns
    exact bind_eq_ok.mpr ⟨columns, bind_eq_ok.mpr ⟨named, columns_of_strict hnamed, hcolumns⟩, h⟩
  | _ => exact h

end Group

namespace Pipeline

variable {seen : List Stage} {stages : Stages}

/-! ## Stripping -/

/-- The specification of a stage without what a strict stage refuses. -/
def stripSpec : Stage → Value → Value
  | .pick => Query.strip
  | .group => Group.strip
  | .sort | .limit => id

/-- The entries that give a stage which was not given before, with stripped specifications. -/
def stripEntries (seen : List Stage) : Fields → Fields
  | [] => []
  | (name, spec) :: entries =>
    match Stage.ofName? name with
    | none => stripEntries seen entries
    | some stage =>
      if stage ∈ seen then stripEntries seen entries
      else (name, stripSpec stage spec) :: stripEntries (stage :: seen) entries

/-- The stages that entries give. -/
def stagesOf (entries : Fields) : List Stage := entries.filterMap fun entry => Stage.ofName? entry.1

/-- Strip objects one after the other. What is no object stays. -/
def stripItems (seen : List Stage) : List Value → List Value
  | [] => []
  | .object entries :: items =>
    .object (stripEntries seen entries) :: stripItems (stagesOf entries ++ seen) items
  | v :: items => v :: stripItems seen items

/-- A pipeline without what a strict one refuses. -/
def strip : Value → Value
  | .list items => .list (stripItems [] items)
  | .tuple items => .tuple (stripItems [] items)
  | v => v

/-- Stages with stripped specifications. -/
def Stages.strip (stages : Stages) : Stages := fun stage => (stages stage).map (stripSpec stage)

/-! ## Applying stripped stages -/

theorem applyStage_strip (stage : Stage) (spec : Value) (docs : List Document) :
    applyStage true stage (stripSpec stage spec) docs = applyStage false stage spec docs := by
  cases stage with
  | pick => exact congrArg (Except.mapError PipelineError.query) (Query.select_strip spec docs)
  | group => exact congrArg (Except.mapError PipelineError.group) (Group.rows_strip spec docs)
  | sort => rfl
  | limit => rfl

theorem applyAll_strip (stages : Stages) (order : List Stage) (docs : List Document) :
    applyAll true stages.strip order docs = applyAll false stages order docs := by
  induction order generalizing docs with
  | nil => rfl
  | cons stage order ih =>
    have hgiven : applyGiven true stages.strip stage docs = applyGiven false stages stage docs := by
      unfold applyGiven Stages.strip
      cases stages stage with
      | none => rfl
      | some spec => exact applyStage_strip stage spec docs
    rw [applyAll_cons, applyAll_cons, hgiven]
    simp only [ih]

/-! ## Collecting stripped stages -/

theorem Stages.strip_put (stages : Stages) (stage : Stage) (spec : Value) :
    (stages.put stage spec).strip = stages.strip.put stage (stripSpec stage spec) := by
  funext other
  unfold strip put
  split_ifs with hother
  · rw [hother, Option.map_some]
  · rfl

/-- The stages that were seen are those that are held. -/
def Holds (seen : List Stage) (stages : Stages) : Prop :=
  ∀ stage, (stages stage).isSome ↔ stage ∈ seen

theorem Holds.put (h : Holds seen stages) (stage : Stage) (spec : Value) :
    Holds (stage :: seen) (stages.put stage spec) := by
  intro other
  rw [Stages.put, List.mem_cons]
  split_ifs with hother
  · simp [hother]
  · simp [hother, h other]

theorem isSome_firstSpec {entries : Fields} {stage : Stage} :
    (firstSpec entries stage).isSome ↔ stage ∈ stagesOf entries := by
  induction entries with
  | nil => simp [firstSpec, stagesOf]
  | cons entry entries ih =>
    obtain ⟨name, spec⟩ := entry
    rw [firstSpec, stagesOf, List.mem_filterMap]
    split_ifs with hname
    · simp [hname]
    · simp [hname, ih, stagesOf]

theorem Holds.given (h : Holds seen stages) (entries : Fields) :
    Holds (stagesOf entries ++ seen) (stages.given entries) := by
  intro stage
  rw [Stages.given, Option.isSome_or, Bool.or_eq_true, h stage, isSome_firstSpec, List.mem_append,
    or_comm]

theorem collectFields_strip (h : Holds seen stages) (entries : Fields) :
    (collectFields true (stripEntries seen entries) stages.strip).outcome =
      .ok (stages.given entries).strip := by
  induction entries generalizing seen stages with
  | nil => rw [Stages.given_nil]; rfl
  | cons entry entries ih =>
    obtain ⟨name, spec⟩ := entry
    cases hname : Stage.ofName? name with
    | none =>
      rw [Stages.given_cons_of_skipped (by simp [hname])]
      simp only [stripEntries, hname]
      exact ih h
    | some stage =>
      simp only [stripEntries, hname]
      split_ifs with hseen
      · rw [Stages.given_cons_of_skipped (by simpa [hname] using (h stage).mpr hseen)]
        exact ih h
      · have hnew : stages stage = none :=
          Option.not_isSome_iff_eq_none.mp fun hsome => hseen ((h stage).mp hsome)
        rw [Stages.given_cons_of_new hname hnew]
        simp only [collectFields, hname, Stages.strip, hnew, Option.map_none, Option.isSome_none,
          Bool.false_eq_true, if_false]
        exact Stages.strip_put stages stage spec ▸ ih (h.put stage spec)

theorem collectAll_strip (h : Holds seen stages) {items : List Value}
    (hnames : NamesSpelled (leadingEntries items)) :
    (collectAll true (stripItems seen items) stages.strip).outcome =
      (collectAll false items stages).outcome.map Stages.strip := by
  induction items generalizing seen stages with
  | nil => rfl
  | cons item items ih =>
    cases item with
    | object entries =>
      rw [leadingEntries, namesSpelled_append] at hnames
      rw [stripItems, collectAll_object, collectAll_object, collectFields_strip h,
        collectFields_false, if_pos hnames.1]
      exact ih (h.given entries) hnames.2
    | _ => rfl

/-- The entries of a pipeline that are looked at: those of its objects, up to what is none. -/
def entriesOf : Value → Fields
  | .list items | .tuple items => leadingEntries items
  | _ => []

theorem collect_strip {pipeline : Value} (hnames : NamesSpelled (entriesOf pipeline)) :
    (collect true (strip pipeline)).outcome =
      (collect false pipeline).outcome.map Stages.strip := by
  have hempty : Holds [] Stages.empty := fun stage => by simp [Stages.empty]
  cases pipeline with
  | list items => exact collectAll_strip hempty hnames
  | tuple items => exact collectAll_strip hempty hnames
  | _ => rfl

/-- A permissive pipeline is the strict one that is left when what it passes over is dropped. -/
theorem run_strip {pipeline : Value} (hnames : NamesSpelled (entriesOf pipeline))
    (docs : List Document) :
    (run true (strip pipeline) docs).outcome = (run false pipeline docs).outcome := by
  rw [run_outcome, run_outcome, collect_strip hnames]
  cases (collect false pipeline).outcome with
  | error e => rfl
  | ok stages => exact applyAll_strip stages Stage.all docs

/-- What has no text cannot be passed over. -/
theorem run_unspelled {pipeline : Value} (hnames : ¬ NamesSpelled (entriesOf pipeline))
    (docs : List Document) :
    (run false pipeline docs).outcome = .error (.text .integerTooLong) := by
  have hcollect : (collect false pipeline).outcome = .error (.text .integerTooLong) := by
    cases pipeline with
    | list items => exact collectAll_unspelled hnames _
    | tuple items => exact collectAll_unspelled hnames _
    | _ => exact absurd (List.forall_mem_nil _) hnames
  rw [run_outcome, hcollect]
  rfl

/-! ## Results of strict pipelines -/

theorem collectFields_of_strict {entries : Fields} {found : Stages}
    (h : (collectFields true entries stages).outcome = .ok found) :
    (collectFields false entries stages).outcome = .ok found := by
  induction entries generalizing stages with
  | nil => exact h
  | cons entry entries ih =>
    obtain ⟨name, spec⟩ := entry
    unfold collectFields at h ⊢
    split at h
    · split at h <;> cases h
    · next stage hname =>
      by_cases hgiven : (stages stage).isSome = true
      · rw [if_pos hgiven] at h
        cases h
      · rw [if_neg hgiven] at h ⊢
        exact ih h

theorem collectAll_of_strict {items : List Value} {found : Stages}
    (h : (collectAll true items stages).outcome = .ok found) :
    (collectAll false items stages).outcome = .ok found := by
  induction items generalizing stages with
  | nil => exact h
  | cons item items ih =>
    cases item with
    | object entries =>
      rw [collectAll_object] at h ⊢
      obtain ⟨between, hbetween, h⟩ := bind_eq_ok.mp h
      exact bind_eq_ok.mpr ⟨between, collectFields_of_strict hbetween, ih h⟩
    | _ => exact h

theorem applyStage_of_strict {stage : Stage} {spec : Value} {docs found : List Document}
    (h : applyStage true stage spec docs = .ok found) :
    applyStage false stage spec docs = .ok found := by
  cases stage with
  | pick => exact mapError_eq_ok.mpr (Query.select_of_strict (mapError_eq_ok.mp h))
  | group => exact mapError_eq_ok.mpr (Group.rows_of_strict (mapError_eq_ok.mp h))
  | sort => exact h
  | limit => exact h

theorem applyAll_of_strict {order : List Stage} {docs found : List Document}
    (h : applyAll true stages order docs = .ok found) :
    applyAll false stages order docs = .ok found := by
  induction order generalizing docs with
  | nil => exact h
  | cons stage order ih =>
    rw [applyAll_cons] at h ⊢
    obtain ⟨between, hbetween, h⟩ := bind_eq_ok.mp h
    refine bind_eq_ok.mpr ⟨between, ?_, ih h⟩
    unfold applyGiven at hbetween ⊢
    cases hspec : stages stage with
    | none => rwa [hspec] at hbetween
    | some spec =>
      rw [hspec] at hbetween
      exact applyStage_of_strict hbetween

/-- What a strict pipeline gives, the permissive one gives too. -/
theorem run_of_strict {pipeline : Value} {docs found : List Document}
    (h : (run true pipeline docs).outcome = .ok found) :
    (run false pipeline docs).outcome = .ok found := by
  rw [run_outcome] at h ⊢
  obtain ⟨stages, hstages, h⟩ := bind_eq_ok.mp h
  refine bind_eq_ok.mpr ⟨stages, ?_, applyAll_of_strict h⟩
  cases pipeline with
  | list items => exact collectAll_of_strict hstages
  | tuple items => exact collectAll_of_strict hstages
  | _ => exact hstages

/-- **Being strict only refuses.** Permissive queries are, in what they give and in how they fail,
the strict ones that are left when what a strict one refuses is dropped. So are permissive
pipelines, if what they pass over has a text; otherwise they fail on that. What a strict query or
pipeline gives as it stands, the permissive one gives too. -/
theorem strict_only_refuses (query : Value) (doc : Document) (pipeline : Value)
    (docs : List Document) :
    Query.satisfied false query doc = Query.satisfied true (Query.strip query) doc ∧
      (NamesSpelled (entriesOf pipeline) →
        (run false pipeline docs).outcome = (run true (strip pipeline) docs).outcome) ∧
      (¬ NamesSpelled (entriesOf pipeline) →
        (run false pipeline docs).outcome = .error (.text .integerTooLong)) ∧
      (∀ b, Query.satisfied true query doc = .ok b → Query.satisfied false query doc = .ok b) ∧
      ∀ rows, (run true pipeline docs).outcome = .ok rows →
        (run false pipeline docs).outcome = .ok rows :=
  ⟨(Query.satisfied_strip query doc).symm, fun hnames => (run_strip hnames docs).symm,
    fun hnames => run_unspelled hnames docs, fun _ h => Query.satisfied_of_strict h,
    fun _ h => run_of_strict h⟩

/-- A query of a known operator. -/
def plainQuery : Value := .object [(.str "f", .object [(.str "$gt", .int 1)])]

/-- The same with operators that are not known: at the top, beside the known one and by
themselves. -/
def cluttered : Value :=
  .object [(.str "$where", .null),
    (.str "f", .object [(.str "$regex", .str "x"), (.str "$gt", .int 1)]),
    (.str "g", .object [(.str "$regex", .str "x")])]

/-- A pipeline that matches and counts. -/
def plainPipeline : Value :=
  .list [.object [(.str "$match", plainQuery)],
    .object [(.str "$group",
      .object [(.str "_id", .null), (.str "n", .object [(.str "$count", .null)])])]]

/-- The same with a stage that is not known, a stage that is given again and fields that ask for no
known accumulator. -/
def clutteredPipeline : Value :=
  .list [.object [(.str "$match", cluttered), (.str "$skip", .int 1)],
    .object [(.int 7, .null), (.str "$match", .null),
      (.str "$group", .object [(.str "_id", .null), (.str "m", .object [(.str "$median", .null)]),
        (.str "n", .object [(.str "$count", .null)]), (.str "k", .int 1)])]]

theorem strip_clutteredPipeline : strip clutteredPipeline = plainPipeline := by
  have hid : (Value.str "_id").equals (.str "_id") = true := by decide +kernel
  have hmedian : (Value.str "m").equals (.str "_id") = false := by decide +kernel
  have hone : (Value.str "k").equals (.str "_id") = false := by decide +kernel
  have hcount : (Value.str "n").equals (.str "_id") = false := by decide +kernel
  have hgroup : Group.strip (.object [(.str "_id", .null),
      (.str "m", .object [(.str "$median", .null)]), (.str "n", .object [(.str "$count", .null)]),
      (.str "k", .int 1)]) =
      .object [(.str "_id", .null), (.str "n", .object [(.str "$count", .null)])] := by
    simp only [Group.strip, List.filter_cons, List.filter_nil, Group.isKnown, hid, hmedian, hone,
      hcount]
    rfl
  exact congrArg (fun spec => Value.list [.object [(.str "$match", plainQuery)],
    .object [(.str "$group", spec)]]) hgroup

theorem strict_only_refuses_plain :
    let docs : List Document := [[(.str "f", .int 2)], [(.str "f", .int 1)]]
    Query.strip cluttered = plainQuery ∧
      Query.satisfied false cluttered [(.str "f", .int 2)] = .ok true ∧
      Query.satisfied false plainQuery [(.str "f", .int 2)] = .ok true ∧
      NamesSpelled (entriesOf clutteredPipeline) ∧
      (run false clutteredPipeline docs).outcome = (run true plainPipeline docs).outcome ∧
      (run false (.list [.object [(.str "$limit", .int 1)]]) docs).outcome =
        .ok [[(.str "f", .int 2)]] := by
  intro docs
  have hquery : Query.satisfied true plainQuery [(.str "f", .int 2)] = .ok true := by
    decide +kernel
  have hstrip : Query.strip cluttered = plainQuery := by rfl
  have hnames : NamesSpelled (entriesOf clutteredPipeline) := by decide +kernel
  obtain ⟨hstripped, hrows, -⟩ :=
    strict_only_refuses cluttered [(.str "f", .int 2)] clutteredPipeline docs
  obtain ⟨-, -, -, hsatisfied, hlimited⟩ := strict_only_refuses plainQuery [(.str "f", .int 2)]
    (.list [.object [(.str "$limit", .int 1)]]) docs
  refine ⟨hstrip, ?_, hsatisfied _ hquery, hnames, ?_, hlimited _ rfl⟩
  · rw [hstripped, hstrip]
    exact hquery
  · rw [hrows hnames, strip_clutteredPipeline]

/-- A pipeline of nothing but an integer that is too long to be named is no longer what is left of
it: it fails, though stripped and run strictly it gives all documents. -/
theorem not_strict_only_refuses_unspelled :
    let pipeline : Value := .list [.object [(.int Json.integerBound, .null)]]
    (run false pipeline [[(.str "a", .int 1)]]).outcome = .error (.text .integerTooLong) ∧
      (run true (strip pipeline) [[(.str "a", .int 1)]]).outcome = .ok [[(.str "a", .int 1)]] := by
  intro pipeline
  have hnames : ¬ NamesSpelled (entriesOf pipeline) :=
    not_namesSpelled_of_mem Value.not_isSpelled_integerBound (.head _)
  have hstrip (n : Int) : strip (.list [.object [(.int n, .null)]]) = .list [.object []] := rfl
  refine ⟨run_unspelled hnames _, ?_⟩
  rw [hstrip]
  rfl

end Pipeline

end SnapshotStore
