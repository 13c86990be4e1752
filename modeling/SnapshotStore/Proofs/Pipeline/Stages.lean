import Mathlib.Data.List.Perm.Basic
import SnapshotStore.Pipeline
import SnapshotStore.Proofs.Value.Json
import SnapshotStore.Proofs.Value.Spelled

/-!
# Stages of a pipeline

Collecting the stages of a pipeline forgets where they stand. What is left is the first
specification given for each stage (`firstSpec`), among the entries of all objects one after the
other, and the stages are applied in their own order.

**Theorem (`run_of_objects`).** A permissive pipeline matches, groups, sorts and limits by the first
specifications, unless it has to pass over something that has no text: then it fails. When each
stage is given at most once and nothing else is, the same entries in any order, parted into objects
in any way, give the same result, strict or not.

Parting entries into objects shows only in the list of the objects' entries one after the other, so
to reorder, merge and split objects is to permute that list.
-/

namespace SnapshotStore

theorem Stage.ofName?_name (stage : Stage) : ofName? (.str stage.name) = some stage := by
  cases stage <;> decide

namespace Pipeline

variable {strict : Bool} {stage : Stage} {entries others : Fields}

/-! ## First specifications -/

/-- The specification that is given first for a stage. -/
def firstSpec : Fields → Stages
  | [], _ => none
  | (name, spec) :: entries, stage =>
    if Stage.ofName? name = some stage then some spec else firstSpec entries stage

/-- Every entry gives a stage, and no two give the same. -/
structure GivesOnce (entries : Fields) : Prop where
  known : ∀ entry ∈ entries, (Stage.ofName? entry.1).isSome
  distinct : entries.Pairwise fun a b => Stage.ofName? a.1 ≠ Stage.ofName? b.1

theorem GivesOnce.perm (h : GivesOnce entries) (hperm : entries.Perm others) :
    GivesOnce others where
  known entry hentry := h.known entry (hperm.mem_iff.mpr hentry)
  distinct := (hperm.pairwise_iff fun hne => Ne.symm hne).mp h.distinct

theorem firstSpec_append (entries others : Fields) (stage : Stage) :
    firstSpec (entries ++ others) stage =
      (firstSpec entries stage).or (firstSpec others stage) := by
  induction entries with
  | nil => rfl
  | cons entry entries ih =>
    obtain ⟨name, spec⟩ := entry
    rw [List.cons_append, firstSpec, firstSpec]
    split_ifs
    · rfl
    · exact ih

theorem mem_of_firstSpec {spec : Value} (h : firstSpec entries stage = some spec) :
    ∃ name, Stage.ofName? name = some stage ∧ (name, spec) ∈ entries := by
  induction entries with
  | nil => cases h
  | cons entry entries ih =>
    obtain ⟨name, spec'⟩ := entry
    rw [firstSpec] at h
    split_ifs at h with hname
    · cases h
      exact ⟨name, hname, List.mem_cons_self ..⟩
    · obtain ⟨other, hother, hmem⟩ := ih h
      exact ⟨other, hother, List.mem_cons_of_mem _ hmem⟩

/-- Among entries that give each stage once, the first specification is the only one. -/
theorem firstSpec_of_mem {name spec : Value} (hname : Stage.ofName? name = some stage)
    (hdistinct : entries.Pairwise fun a b => Stage.ofName? a.1 ≠ Stage.ofName? b.1)
    (hmem : (name, spec) ∈ entries) : firstSpec entries stage = some spec := by
  induction entries with
  | nil => cases hmem
  | cons entry entries ih =>
    rw [List.pairwise_cons] at hdistinct
    obtain ⟨other, spec'⟩ := entry
    rw [firstSpec]
    rcases List.mem_cons.mp hmem with heq | hmem
    · cases heq
      rw [if_pos hname]
    · have hne : Stage.ofName? other ≠ some stage := hname ▸ hdistinct.1 _ hmem
      rw [if_neg hne, ih hdistinct.2 hmem]

theorem firstSpec_perm (hentries : GivesOnce entries) (hperm : entries.Perm others) :
    firstSpec entries = firstSpec others := by
  have hothers := hentries.perm hperm
  funext stage
  refine Option.ext fun spec => ⟨fun h => ?_, fun h => ?_⟩
  · obtain ⟨name, hname, hmem⟩ := mem_of_firstSpec h
    exact firstSpec_of_mem hname hothers.distinct (hperm.mem_iff.mp hmem)
  · obtain ⟨name, hname, hmem⟩ := mem_of_firstSpec h
    exact firstSpec_of_mem hname hentries.distinct (hperm.mem_iff.mpr hmem)

/-! ## Collecting -/

/-- Stages with those that entries give for the first time. -/
def Stages.given (stages : Stages) (entries : Fields) : Stages :=
  fun stage => (stages stage).or (firstSpec entries stage)

theorem Stages.given_nil (stages : Stages) : stages.given [] = stages :=
  funext fun _ => Option.or_none

theorem Stages.given_append (stages : Stages) (entries others : Fields) :
    stages.given (entries ++ others) = (stages.given entries).given others := by
  funext stage
  rw [given, given, given, firstSpec_append, Option.or_assoc]

theorem Stages.empty_given (entries : Fields) : Stages.empty.given entries = firstSpec entries :=
  funext fun _ => Option.none_or

/-! ## Names without a text -/

/-- What gives no stage among entries has a text, so that it can be named. -/
def NamesSpelled (entries : Fields) : Prop :=
  ∀ entry ∈ entries, Stage.ofName? entry.1 = none → entry.1.isSpelled = true

instance (entries : Fields) : Decidable (NamesSpelled entries) := by
  unfold NamesSpelled
  infer_instance

theorem not_namesSpelled_of_mem {entries : Fields} {n : Int} {v : Value}
    (hn : ¬ (Value.int n).isSpelled = true) (h : (.int n, v) ∈ entries) :
    ¬ NamesSpelled entries := by
  intro hnames
  have hspelled := hnames _ h rfl
  exact hn hspelled

theorem namesSpelled_cons {entry : Value × Value} : NamesSpelled (entry :: entries) ↔
    (Stage.ofName? entry.1 = none → entry.1.isSpelled = true) ∧ NamesSpelled entries :=
  List.forall_mem_cons

theorem namesSpelled_append :
    NamesSpelled (entries ++ others) ↔ NamesSpelled entries ∧ NamesSpelled others :=
  List.forall_mem_append

theorem GivesOnce.namesSpelled (h : GivesOnce entries) : NamesSpelled entries := by
  intro entry hentry hnone
  have hknown := h.known entry hentry
  rw [hnone] at hknown
  cases hknown

/-- The entries of the objects in front of the first item that is none. -/
def leadingEntries : List Value → Fields
  | .object entries :: items => entries ++ leadingEntries items
  | _ => []

theorem leadingEntries_objects (objects : List Fields) :
    leadingEntries (objects.map .object) = objects.flatten := by
  induction objects with
  | nil => rfl
  | cons entries objects ih => rw [List.map_cons, leadingEntries, ih, List.flatten_cons]

/-! ## Collecting one entry after the other -/

/-- An entry that gives no stage, or one that is there, leaves the stages as they are. -/
theorem Stages.given_cons_of_skipped {stages : Stages} {name spec : Value}
    (h : ∀ stage, Stage.ofName? name = some stage → (stages stage).isSome) :
    stages.given ((name, spec) :: entries) = stages.given entries := by
  funext stage
  rw [given, given, firstSpec]
  split_ifs with hname
  · obtain ⟨spec', hspec'⟩ := Option.isSome_iff_exists.mp (h stage hname)
    rw [hspec', Option.some_or, Option.some_or]
  · rfl

/-- An entry that gives a stage for the first time puts it there. -/
theorem Stages.given_cons_of_new {stages : Stages} {name spec : Value}
    (hname : Stage.ofName? name = some stage) (hnew : stages stage = none) :
    stages.given ((name, spec) :: entries) = (stages.put stage spec).given entries := by
  funext other
  rw [given, given, firstSpec, put]
  by_cases hother : other = stage
  · subst hother
    rw [if_pos hname, if_pos rfl, hnew, Option.none_or, Option.some_or]
  · have hne : Stage.ofName? name ≠ some other := fun h =>
      hother (Option.some.inj (h.symm.trans hname))
    rw [if_neg hne, if_neg hother]

/-- Without being strict, nothing is refused that can be named. -/
theorem collectFields_false (entries : Fields) (stages : Stages) :
    (collectFields false entries stages).outcome =
      if NamesSpelled entries then .ok (stages.given entries)
      else .error (.text .integerTooLong) := by
  induction entries generalizing stages with
  | nil => rw [Stages.given_nil]; rfl
  | cons entry entries ih =>
    obtain ⟨name, spec⟩ := entry
    simp only [collectFields, namesSpelled_cons]
    cases hname : Stage.ofName? name with
    | none =>
      rw [Stages.given_cons_of_skipped (by simp [hname]), Value.spelled]
      cases name.isSpelled with
      | false => simp
      | true => simpa [Report.after] using ih stages
    | some stage =>
      simp only [reduceCtorEq, false_implies, true_and, Bool.false_eq_true, if_false]
      split
      · next hgiven =>
        rw [Stages.given_cons_of_skipped (by simpa [hname] using hgiven)]
        exact ih stages
      · next hgiven =>
        rw [Stages.given_cons_of_new hname (Option.not_isSome_iff_eq_none.mp hgiven)]
        exact ih _

/-- Nothing is refused that gives each stage once. -/
theorem collectFields_true {stages : Stages} (hentries : GivesOnce entries)
    (hnew : ∀ entry ∈ entries, ∀ stage, Stage.ofName? entry.1 = some stage →
      stages stage = none) :
    (collectFields true entries stages).outcome = .ok (stages.given entries) := by
  induction entries generalizing stages with
  | nil => rw [Stages.given_nil]; rfl
  | cons entry entries ih =>
    obtain ⟨name, spec⟩ := entry
    obtain ⟨hknown, hdistinct⟩ := hentries
    rw [List.forall_mem_cons] at hknown hnew
    rw [List.pairwise_cons] at hdistinct
    obtain ⟨stage, hname⟩ := Option.isSome_iff_exists.mp hknown.1
    have hfree := hnew.1 stage hname
    rw [Stages.given_cons_of_new hname hfree]
    simp only [collectFields, hname, hfree, Option.isSome_none, Bool.false_eq_true, if_false]
    refine ih ⟨hknown.2, hdistinct.2⟩ fun other hother stage' hstage' => ?_
    have hne : stage' ≠ stage := by
      rintro rfl
      exact hdistinct.1 other hother (hname.trans hstage'.symm)
    rw [Stages.put, if_neg hne]
    exact hnew.2 other hother stage' hstage'

/-- A pipeline that is a list of objects. -/
def IsObjects (pipeline : Value) (objects : List Fields) : Prop :=
  pipeline = .list (objects.map .object) ∨ pipeline = .tuple (objects.map .object)

theorem collectAll_object (fields : Fields) (items : List Value) (stages : Stages) :
    (collectAll strict (.object fields :: items) stages).outcome =
      (collectFields strict fields stages).outcome >>= fun stages =>
        (collectAll strict items stages).outcome := by
  rw [collectAll]
  obtain ⟨ignored, outcome⟩ := collectFields strict fields stages
  cases outcome <;> rfl

theorem collect_of_objects {pipeline : Value} {objects : List Fields}
    (h : IsObjects pipeline objects) :
    collect strict pipeline = collectAll strict (objects.map .object) .empty := by
  rcases h with rfl | rfl <;> rfl

/-- Something is to be passed over that has no text. -/
theorem collectAll_unspelled {items : List Value} (h : ¬ NamesSpelled (leadingEntries items))
    (stages : Stages) :
    (collectAll false items stages).outcome = .error (.text .integerTooLong) := by
  induction items generalizing stages with
  | nil => exact absurd (List.forall_mem_nil _) h
  | cons item items ih =>
    cases item with
    | object entries =>
      rw [leadingEntries, namesSpelled_append, not_and] at h
      rw [collectAll_object, collectFields_false]
      split_ifs with hentries
      · exact ih (h hentries) _
      · rfl
    | _ => exact absurd (List.forall_mem_nil _) h

theorem collectAll_false {objects : List Fields} (h : NamesSpelled objects.flatten)
    (stages : Stages) :
    (collectAll false (objects.map .object) stages).outcome =
      .ok (stages.given objects.flatten) := by
  induction objects generalizing stages with
  | nil => rw [List.flatten_nil, Stages.given_nil]; rfl
  | cons fields objects ih =>
    rw [List.flatten_cons, namesSpelled_append] at h
    rw [List.map_cons, collectAll_object, collectFields_false, if_pos h.1, List.flatten_cons,
      Stages.given_append]
    exact ih h.2 _

theorem collectAll_true {objects : List Fields} {stages : Stages}
    (hentries : GivesOnce objects.flatten)
    (hnew : ∀ entry ∈ objects.flatten, ∀ stage, Stage.ofName? entry.1 = some stage →
      stages stage = none) :
    (collectAll true (objects.map .object) stages).outcome =
      .ok (stages.given objects.flatten) := by
  induction objects generalizing stages with
  | nil => rw [List.flatten_nil, Stages.given_nil]; rfl
  | cons fields objects ih =>
    rw [List.flatten_cons] at hentries hnew
    obtain ⟨hknown, hdistinct⟩ := hentries
    rw [List.forall_mem_append] at hknown hnew
    rw [List.pairwise_append] at hdistinct
    rw [List.map_cons, collectAll_object, collectFields_true ⟨hknown.1, hdistinct.1⟩ hnew.1,
      List.flatten_cons, Stages.given_append]
    refine ih ⟨hknown.2, hdistinct.2.1⟩ fun entry hentry stage hstage => ?_
    rw [Stages.given, hnew.2 entry hentry stage hstage, Option.none_or]
    -- what the first object gives, no other entry gives
    cases hspec : firstSpec fields stage with
    | none => rfl
    | some spec =>
      obtain ⟨name, hname, hmem⟩ := mem_of_firstSpec hspec
      exact absurd (hname.trans hstage.symm) (hdistinct.2.2 _ hmem entry hentry)

theorem collect_false {pipeline : Value} {objects : List Fields}
    (h : IsObjects pipeline objects) (hnames : NamesSpelled objects.flatten) :
    (collect false pipeline).outcome = .ok (firstSpec objects.flatten) := by
  rw [collect_of_objects h, ← Stages.empty_given]
  exact collectAll_false hnames _

theorem collect_unspelled {pipeline : Value} {objects : List Fields}
    (h : IsObjects pipeline objects) (hnames : ¬ NamesSpelled objects.flatten) :
    (collect false pipeline).outcome = .error (.text .integerTooLong) := by
  rw [collect_of_objects h]
  exact collectAll_unspelled (by rwa [leadingEntries_objects]) _

theorem collect_eq_firstSpec {pipeline : Value} {objects : List Fields}
    (h : IsObjects pipeline objects) (hentries : GivesOnce objects.flatten) :
    (collect strict pipeline).outcome = .ok (firstSpec objects.flatten) := by
  cases strict with
  | false => exact collect_false h hentries.namesSpelled
  | true =>
    rw [collect_of_objects h, ← Stages.empty_given]
    exact collectAll_true hentries fun _ _ _ _ => rfl

/-! ## Applying -/

/-- Apply a stage if it is given. -/
def applyGiven (strict : Bool) (stages : Stages) (stage : Stage) (docs : List Document) :
    Except PipelineError (List Document) :=
  (stages stage).elim (.ok docs) fun spec => applyStage strict stage spec docs

theorem applyAll_cons (stages : Stages) (stage : Stage) (rest : List Stage)
    (docs : List Document) :
    applyAll strict stages (stage :: rest) docs = (do
      applyAll strict stages rest (← applyGiven strict stages stage docs)) := by
  rw [applyAll, applyGiven]
  cases stages stage <;> rfl

theorem applyAll_all (stages : Stages) (docs : List Document) :
    applyAll strict stages Stage.all docs = (do
      let picked ← applyGiven strict stages .pick docs
      let grouped ← applyGiven strict stages .group picked
      let ordered ← applyGiven strict stages .sort grouped
      applyGiven strict stages .limit ordered) := by
  have hlast : ∀ docs, applyAll strict stages [.limit] docs =
      applyGiven strict stages .limit docs := by
    intro docs
    rw [applyAll_cons]
    cases applyGiven strict stages .limit docs <;> rfl
  simp only [Stage.all, applyAll_cons _ .pick, applyAll_cons _ .group, applyAll_cons _ .sort, hlast]

theorem run_outcome (pipeline : Value) (docs : List Document) :
    (run strict pipeline docs).outcome =
      (collect strict pipeline).outcome >>= fun stages =>
        applyAll strict stages Stage.all docs := by
  rw [run]
  obtain ⟨ignored, outcome⟩ := collect strict pipeline
  cases outcome <;> rfl

/-- A pipeline of one stage applies it. -/
theorem run_stage (stage : Stage) (spec : Value) (docs : List Document) :
    (run strict (.list [.object [(.str stage.name, spec)]]) docs).outcome =
      applyStage strict stage spec docs := by
  have honce : GivesOnce [(.str stage.name, spec)] := by
    refine ⟨List.forall_mem_singleton.mpr ?_, List.pairwise_singleton _ _⟩
    rw [stage.ofName?_name]
    rfl
  have hcollect : (collect strict (.list [.object [(.str stage.name, spec)]])).outcome =
      .ok (firstSpec [(.str stage.name, spec)]) :=
    @collect_eq_firstSpec _ _ [[(.str stage.name, spec)]] (.inl rfl) honce
  have hspec (other : Stage) : firstSpec [(.str stage.name, spec)] other =
      if stage = other then some spec else none := by
    simp only [firstSpec, stage.ofName?_name, Option.some_inj]
  rw [run_outcome, hcollect, ok_bind, applyAll_all]
  simp only [applyGiven, hspec]
  cases stage <;>
    simp only [reduceCtorEq, if_true, if_false, Option.elim_some, Option.elim_none, ok_bind]
  all_goals exact bind_pure _

/-- **Where stages stand does not matter.** A permissive pipeline matches, groups, sorts and limits
by the first specifications that are given, unless what it passes over has no text. When each stage
is given at most once and nothing else is, its entries may be given in any order and in any objects,
and the result is the same, be it rows or a failure, for permissive and strict pipelines. -/
theorem run_of_objects {pipeline : Value} {objects : List Fields}
    (h : IsObjects pipeline objects) (docs : List Document) :
    (NamesSpelled objects.flatten → (run false pipeline docs).outcome = (do
        let first := firstSpec objects.flatten
        let picked ← (first .pick).elim (.ok docs) fun query =>
          (Query.select false query docs).mapError .query
        let grouped ← (first .group).elim (.ok picked) fun spec =>
          (Group.rows false spec picked).mapError .group
        let ordered ← (first .sort).elim (.ok grouped) fun spec => sorted spec grouped
        (first .limit).elim (.ok ordered) fun spec => limited spec ordered)) ∧
      (¬ NamesSpelled objects.flatten →
        (run false pipeline docs).outcome = .error (.text .integerTooLong)) ∧
      (GivesOnce objects.flatten → ∀ pipeline' objects', IsObjects pipeline' objects' →
        objects.flatten.Perm objects'.flatten → ∀ strict,
          (run strict pipeline docs).outcome = (run strict pipeline' docs).outcome) := by
  refine ⟨fun hnames => ?_, fun hnames => ?_, ?_⟩
  · rw [run_outcome, collect_false h hnames]
    exact applyAll_all _ docs
  · rw [run_outcome, collect_unspelled h hnames]
    rfl
  · intro hentries pipeline' objects' h' hperm strict
    rw [run_outcome, run_outcome, collect_eq_firstSpec h hentries,
      collect_eq_firstSpec h' (hentries.perm hperm), firstSpec_perm hentries hperm]

/-- Stages given in one object, in another order than that in which they are applied. -/
def mergedObjects : List Fields :=
  [[(.str "$limit", .int 1), (.str "$group", .object [(.str "_id", .str "$f")]),
    (.str "$match", .object [(.str "f", .object [(.str "$gt", .int 0)])])]]

/-- The same entries in several objects, one of them empty. -/
def splitObjects : List Fields :=
  [[(.str "$match", .object [(.str "f", .object [(.str "$gt", .int 0)])])], [],
    [(.str "$limit", .int 1)], [(.str "$group", .object [(.str "_id", .str "$f")])]]

/-- A stage, and an entry that gives none but is named by an integer. -/
def numberedObjects (n : Int) : List Fields := [[(.str "$limit", .int 1)], [(.int n, .null)]]

theorem run_of_objects_split :
    GivesOnce mergedObjects.flatten ∧ mergedObjects.flatten.Perm splitObjects.flatten ∧
      (run true (.list (mergedObjects.map .object)) [[(.str "f", .int 1)]]).outcome =
        (run true (.tuple (splitObjects.map .object)) [[(.str "f", .int 1)]]).outcome ∧
      NamesSpelled (numberedObjects 0).flatten ∧
      (run false (.list ((numberedObjects 0).map .object)) [[(.str "f", .int 1)], []]).outcome =
        .ok [[(.str "f", .int 1)]] := by
  have honce : GivesOnce mergedObjects.flatten := ⟨by decide, by decide⟩
  have hperm : mergedObjects.flatten.Perm splitObjects.flatten :=
    List.perm_append_singleton _ [_, _]
  have hnames : NamesSpelled (numberedObjects 0).flatten := by decide +kernel
  exact ⟨honce, hperm, (run_of_objects (.inl rfl) _).2.2 honce _ _ (.inr rfl) hperm true, hnames,
    ((run_of_objects (.inl rfl) _).1 hnames).trans rfl⟩

/-- Two pipelines with the same first specifications, of which only one gives rows: the other has to
pass over an integer that is too long to be named. -/
theorem not_run_of_objects_unspelled :
    firstSpec (numberedObjects Json.integerBound).flatten = firstSpec (numberedObjects 0).flatten ∧
      (run false (.list ((numberedObjects 0).map .object)) [[(.str "f", .int 1)]]).outcome =
        .ok [[(.str "f", .int 1)]] ∧
      (run false (.list ((numberedObjects Json.integerBound).map .object))
        [[(.str "f", .int 1)]]).outcome = .error (.text .integerTooLong) := by
  have hnames : ¬ NamesSpelled (numberedObjects Json.integerBound).flatten :=
    not_namesSpelled_of_mem Value.not_isSpelled_integerBound (.tail _ (.head _))
  have hfirst (n m : Int) :
      firstSpec (numberedObjects n).flatten = firstSpec (numberedObjects m).flatten := rfl
  refine ⟨hfirst _ _, ?_, ?_⟩
  · rw [run_outcome, collect_false (.inl rfl) (by decide +kernel)]
    rfl
  · rw [run_outcome, collect_unspelled (.inl rfl) hnames]
    rfl

end Pipeline

end SnapshotStore
