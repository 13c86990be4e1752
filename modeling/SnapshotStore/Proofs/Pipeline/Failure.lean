import SnapshotStore.Proofs.Pipeline.Leaderboard
import SnapshotStore.Proofs.Pipeline.Overflow
import SnapshotStore.Proofs.Query.Refusal
import SnapshotStore.Proofs.Value.Spelled

/-!
# Why aggregation fails

**Theorem (`fails_only_out_of_range`).** For documents and pipelines made of what JSON holds,
aggregation gives rows, or the pipeline is to blame (`PipelineError.Invalid`), unless it gathers
numbers out of range (`Overflows`): then it fails with an arithmetic error.

All errors but those of grouping are refusals of what the pipeline says (`collect_invalid`,
`applyGiven_invalid`). Grouping refuses a specification as well (`columnsOrCount_invalid`), and it
goes by values of the documents or of the specification, which are groupable (`groupable_valueIn`),
so nothing but arithmetic is left to fail.
-/

namespace SnapshotStore

/-! ## Who is to blame -/

/-- The specification is to blame. -/
def GroupError.Invalid : GroupError → Prop
  | .text _ | .key _ | .arithmetic _ | .shape _ => False
  | _ => True

/-- The pipeline is to blame. -/
def PipelineError.Invalid : PipelineError → Prop
  | .query cause => cause.Invalid
  | .group cause => cause.Invalid
  | .text _ | .shape _ => False
  | _ => True

namespace Group

/-! ## Specifications -/

/-- What can be named is refused as it is meant to be. -/
theorem refuse_of_isSpelled {α : Type} {name : Value} (h : name.isSpelled = true) (e : GroupError) :
    (refuse name e : Except GroupError α) = .error e := by
  rw [refuse, Value.spelled_eq_ok.mpr ⟨h, rfl⟩]
  rfl

theorem isSpelled_of_single? {v name argument : Value} (hv : v.isSpelled = true)
    (h : single? v = some (name, argument)) : name.isSpelled = true := by
  unfold single? at h
  split at h
  · cases h
    exact (Value.areSpelledFields_iff.mp hv _ (List.mem_singleton_self _)).1
  · cases h

theorem columns_invalid {strict : Bool} {spec : Fields} {e : GroupError}
    (hspec : Value.areSpelledFields spec = true) (h : Group.columns strict spec = .error e) :
    e.Invalid := by
  induction spec generalizing e with
  | nil => cases h
  | cons field spec ih =>
    obtain ⟨name, v⟩ := field
    rw [Value.areSpelledFields, Bool.and_eq_true, Bool.and_eq_true] at hspec
    obtain ⟨⟨hname, hv⟩, hspec⟩ := hspec
    replace ih {e : GroupError} := ih (e := e) hspec
    rw [Group.columns] at h
    split at h
    · exact ih h
    · split at h
      · rw [refuse_of_isSpelled hname] at h
        split_ifs at h
        · cases h
          trivial
        · exact ih h
      · next accumulator argument hsingle =>
        rw [refuse_of_isSpelled (isSpelled_of_single? hv hsingle)] at h
        split at h
        · split_ifs at h
          · cases h
            trivial
          · exact ih h
        · rcases bind_eq_error.mp h with h | ⟨_, -, h⟩
          · exact ih h
          · cases h

theorem columnsOrCount_invalid {strict : Bool} {spec : Fields} {e : GroupError}
    (hspec : Value.areSpelledFields spec = true) (h : columnsOrCount strict spec = .error e) :
    e.Invalid := by
  rcases bind_eq_error.mp h with h | ⟨found, -, h⟩
  · exact columns_invalid hspec h
  · split at h <;> cases h

theorem groupable_of_mem {fields : Fields} (h : Groupable (.object fields)) {field : Value × Value}
    (hfield : field ∈ fields) : Groupable field.2 := by
  obtain ⟨entries, rfl, -, hall⟩ := Value.isJson_object h
  obtain ⟨key, -, hmem⟩ := Fields.mem_ofEntries.mp hfield
  exact hall _ hmem

theorem groupable_ofValue {v : Value} {doc : Document} (hv : Groupable v)
    (hdoc : Groupable (.object doc)) : Groupable ((Source.ofValue v).valueIn doc) := by
  unfold Source.ofValue
  split
  · split_ifs
    · exact Pipeline.groupable_field hdoc _
    · exact rfl
  · exact hv

/-- What a groupable document is grouped by is groupable. -/
theorem groupable_valueIn {spec : Fields} {doc : Document} (hspec : Groupable (.object spec))
    (hdoc : Groupable (.object doc)) : Groupable ((keySource spec).valueIn doc) :=
  groupable_ofValue (Pipeline.groupable_field hspec "_id") hdoc

end Group

theorem Query.select_invalid {strict : Bool} {query : Value} {docs : List Document} {e : QueryError}
    (h : Query.select strict query docs = .error e) : e.Invalid := by
  induction docs with
  | nil => cases h
  | cons doc docs ih =>
    rcases bind_eq_error.mp h with h | ⟨holds, -, h⟩
    · unfold satisfied at h
      split at h
      · cases h
      · exact fieldsHold_invalid h
      · cases h
        trivial
    · split_ifs at h
      · rcases bind_eq_error.mp h with h | ⟨_, -, h⟩
        · exact ih h
        · cases h
      · exact ih h

namespace Pipeline

open SnapshotStore.Group

variable {strict : Bool} {pipeline : Value} {stages stages' : Stages} {docs : List Document}
  {e : PipelineError}

/-! ## Collecting -/

theorem collectFields_invalid {fields : Fields} (hfields : Value.areSpelledFields fields = true)
    (h : (collectFields strict fields stages).outcome = .error e) : e.Invalid := by
  induction fields generalizing stages with
  | nil => cases h
  | cons field fields ih =>
    obtain ⟨name, spec⟩ := field
    rw [Value.areSpelledFields, Bool.and_eq_true, Bool.and_eq_true] at hfields
    obtain ⟨⟨hname, -⟩, hfields⟩ := hfields
    rw [collectFields, Value.spelled_eq_ok.mpr ⟨hname, rfl⟩] at h
    split at h
    · dsimp only at h
      split_ifs at h
      · cases h
        trivial
      · exact ih hfields h
    · split_ifs at h
      · cases h
        trivial
      · exact ih hfields h
      · exact ih hfields h

theorem collectAll_invalid {items : List Value} (hitems : Value.areSpelled items = true)
    (h : (collectAll strict items stages).outcome = .error e) : e.Invalid := by
  induction items generalizing stages with
  | nil => cases h
  | cons item items ih =>
    rw [Value.areSpelled, Bool.and_eq_true] at hitems
    cases item with
    | object fields =>
      rw [collectAll_object] at h
      rcases bind_eq_error.mp h with h | ⟨_, -, h⟩
      · exact collectFields_invalid hitems.1 h
      · exact ih hitems.2 h
    | _ =>
      cases h
      trivial

theorem collect_invalid (hpipeline : pipeline.isSpelled = true)
    (h : (collect strict pipeline).outcome = .error e) : e.Invalid := by
  unfold collect at h
  split at h
  · exact collectAll_invalid hpipeline h
  · exact collectAll_invalid hpipeline h
  · cases h
    trivial

/-- All specifications are groupable. -/
def Stages.AllGroupable (stages : Stages) : Prop :=
  ∀ stage spec, stages stage = some spec → Groupable spec

theorem Stages.AllGroupable.put (h : stages.AllGroupable) {spec : Value} (hspec : Groupable spec)
    (stage : Stage) : (stages.put stage spec).AllGroupable := by
  intro other spec' hother
  rw [Stages.put] at hother
  split_ifs at hother
  · cases hother
    exact hspec
  · exact h other spec' hother

theorem allGroupable_collectFields {fields : Fields} (hfields : ∀ field ∈ fields, Groupable field.2)
    (hstages : stages.AllGroupable)
    (h : (collectFields strict fields stages).outcome = .ok stages') : stages'.AllGroupable := by
  induction fields generalizing stages with
  | nil =>
    cases h
    exact hstages
  | cons field fields ih =>
    obtain ⟨name, spec⟩ := field
    rw [List.forall_mem_cons] at hfields
    rw [collectFields] at h
    split at h
    · split at h
      · cases h
      · split_ifs at h
        exact ih hfields.2 hstages h
    · split_ifs at h
      · exact ih hfields.2 hstages h
      · exact ih hfields.2 (hstages.put hfields.1 _) h

theorem allGroupable_collectAll {items : List Value} (hitems : ∀ item ∈ items, Groupable item)
    (hstages : stages.AllGroupable)
    (h : (collectAll strict items stages).outcome = .ok stages') : stages'.AllGroupable := by
  induction items generalizing stages with
  | nil =>
    cases h
    exact hstages
  | cons item items ih =>
    rw [List.forall_mem_cons] at hitems
    cases item with
    | object fields =>
      rw [collectAll_object] at h
      obtain ⟨stages₁, hfields, h⟩ := bind_eq_ok.mp h
      exact ih hitems.2 (allGroupable_collectFields (fun field hfield =>
        groupable_of_mem hitems.1 hfield) hstages hfields) h
    | _ => cases h

/-- The specifications of a groupable pipeline are groupable. -/
theorem allGroupable_collect (hpipeline : Groupable pipeline)
    (h : (collect strict pipeline).outcome = .ok stages) : stages.AllGroupable := by
  have hempty : Stages.empty.AllGroupable := fun _ _ h => nomatch h
  unfold collect at h
  split at h
  · exact allGroupable_collectAll (Value.isJson_list.mp hpipeline) hempty h
  · cases hpipeline
  · cases h

/-! ## Running -/

/-- A pipeline gathers numbers out of range: it groups the documents that it picks by something for
which one class of them has a column that is out of range. -/
def Overflows (strict : Bool) (pipeline : Value) (docs : List Document) : Prop :=
  ∃ stages spec columns picked,
    (collect strict pipeline).outcome = .ok stages ∧
    applyGiven strict stages .pick docs = .ok picked ∧
    stages .group = some (.object spec) ∧
    columnsOrCount strict spec = .ok columns ∧
    SomeOutOfRange columns (keySource spec) picked

theorem applyGiven_subset {picked : List Document}
    (h : applyGiven strict stages .pick docs = .ok picked) : picked ⊆ docs := by
  unfold applyGiven at h
  cases hspec : stages .pick with
  | none =>
    rw [hspec] at h
    cases h
    exact List.Subset.refl _
  | some spec =>
    rw [hspec] at h
    exact mem_of_select (mapError_eq_ok.mp h)

theorem applyGiven_eq (stage : Stage) {spec : Value} (h : stages stage = some spec)
    (docs : List Document) :
    applyGiven strict stages stage docs = applyStage strict stage spec docs := by
  rw [applyGiven, h]
  rfl

/-- A stage that does not group fails only on its specification. -/
theorem applyGiven_invalid {stage : Stage} (hstage : stage ≠ .group)
    (h : applyGiven strict stages stage docs = .error e) : e.Invalid := by
  cases hspec : stages stage with
  | none =>
    rw [applyGiven, hspec] at h
    cases h
  | some spec =>
    rw [applyGiven_eq stage hspec] at h
    cases stage with
    | pick =>
      obtain ⟨cause, hcause, rfl⟩ := mapError_eq_error.mp h
      exact Query.select_invalid hcause
    | group => exact absurd rfl hstage
    | sort =>
      rw [applyStage] at h
      unfold sorted at h
      split at h <;> cases h
      trivial
    | limit =>
      rw [applyStage] at h
      unfold limited at h
      split at h
      · split_ifs at h
        cases h
        trivial
      · cases h
        trivial

section

variable (hpipeline : Groupable pipeline) (hdocs : ∀ doc ∈ docs, Groupable (.object doc))

include hpipeline hdocs

/-- Grouping what was picked fails out of range, or else only on the specification. -/
theorem grouped_cases {picked : List Document}
    (hcollect : (collect strict pipeline).outcome = .ok stages)
    (hpicked : applyGiven strict stages .pick docs = .ok picked) :
    Overflows strict pipeline docs ∧
        (∃ cause, applyGiven strict stages .group picked = .error (.group (.arithmetic cause))) ∨
      ¬ Overflows strict pipeline docs ∧
        ∀ e, applyGiven strict stages .group picked = .error e → e.Invalid := by
  -- the pipeline has only these stages, and they pick only these documents
  have hoverflows : Overflows strict pipeline docs ↔ ∃ spec columns,
      stages .group = some (.object spec) ∧ columnsOrCount strict spec = .ok columns ∧
        SomeOutOfRange columns (keySource spec) picked := by
    constructor
    · rintro ⟨stages', spec, columns, picked', hcollect', hpicked', hgroup, hcolumns, hrange⟩
      cases hcollect.symm.trans hcollect'
      cases hpicked.symm.trans hpicked'
      exact ⟨spec, columns, hgroup, hcolumns, hrange⟩
    · rintro ⟨spec, columns, hgroup, hcolumns, hrange⟩
      exact ⟨stages, spec, columns, picked, hcollect, hpicked, hgroup, hcolumns, hrange⟩
  rw [hoverflows]
  cases hgroup : stages .group with
  | none =>
    refine .inr ⟨by simp, fun e h => ?_⟩
    rw [applyGiven, hgroup] at h
    cases h
  | some v =>
    rw [applyGiven_eq .group hgroup, applyStage]
    by_cases hobject : ∃ spec, v = .object spec
    · obtain ⟨spec, rfl⟩ := hobject
      cases hcolumns : columnsOrCount strict spec with
      | error cause =>
        have hrows : Group.rows strict (.object spec) picked = .error cause := by
          simp only [Group.rows, hcolumns, bind, Except.bind]
        refine .inr ⟨?_, fun e h => ?_⟩
        · rintro ⟨spec', columns, hspec, hcolumns', -⟩
          cases hspec
          cases hcolumns.symm.trans hcolumns'
        · rw [hrows] at h
          cases h
          have hspec := allGroupable_collect hpipeline hcollect _ _ hgroup
          exact columnsOrCount_invalid (Value.isSpelled_of_isJson hspec.isShort) hcolumns
      | ok columns =>
        have hspec := allGroupable_collect hpipeline hcollect _ _ hgroup
        have hgroupable : ∀ doc ∈ picked, Groupable ((keySource spec).valueIn doc) :=
          fun doc hdoc => groupable_valueIn hspec (hdocs doc (applyGiven_subset hpicked hdoc))
        by_cases hrange : SomeOutOfRange columns (keySource spec) picked
        · obtain ⟨cause, hrows⟩ := rows_of_outOfRange hcolumns hgroupable hrange
          exact .inl ⟨⟨spec, columns, rfl, hcolumns, hrange⟩, cause, by rw [hrows]; rfl⟩
        · obtain ⟨rows, hrows, -⟩ := exists_rows_of_inRange hcolumns hgroupable hrange
          refine .inr ⟨?_, fun e h => ?_⟩
          · rintro ⟨spec', columns', hspec, hcolumns', hrange'⟩
            cases hspec
            cases hcolumns.symm.trans hcolumns'
            exact hrange hrange'
          · rw [hrows] at h
            cases h
    · have hrows : Group.rows strict v picked = .error .notAnObject := by
        cases v with
        | object spec => exact absurd ⟨spec, rfl⟩ hobject
        | _ => rfl
      refine .inr ⟨?_, fun e h => ?_⟩
      · rintro ⟨spec, columns, hspec, -⟩
        exact hobject ⟨spec, Option.some.inj hspec⟩
      · rw [hrows] at h
        cases h
        trivial

variable (strict) in
/-- Aggregation fails out of range, or else only on the pipeline. -/
theorem run_cases :
    Overflows strict pipeline docs ∧
        (∃ cause, (run strict pipeline docs).outcome = .error (.group (.arithmetic cause))) ∨
      ¬ Overflows strict pipeline docs ∧
        ∀ e, (run strict pipeline docs).outcome = .error e → e.Invalid := by
  rw [run_outcome]
  cases hcollect : (collect strict pipeline).outcome with
  | error e =>
    refine .inr ⟨?_, fun e' h => ?_⟩
    · rintro ⟨stages, spec, columns, picked, hcollect', -⟩
      cases hcollect.symm.trans hcollect'
    · cases h
      exact collect_invalid (Value.isSpelled_of_isJson hpipeline.isShort) hcollect
  | ok stages =>
    rw [ok_bind, applyAll_all]
    cases hpicked : applyGiven strict stages .pick docs with
    | error e =>
      refine .inr ⟨?_, fun e' h => ?_⟩
      · rintro ⟨stages', spec, columns, picked, hcollect', hpicked', -⟩
        cases hcollect.symm.trans hcollect'
        cases hpicked.symm.trans hpicked'
      · cases h
        exact applyGiven_invalid (by decide) hpicked
    | ok picked =>
      rw [ok_bind]
      refine (grouped_cases hpipeline hdocs hcollect hpicked).imp (And.imp_right ?_)
        (And.imp_right ?_)
      · rintro ⟨cause, hgrouped⟩
        exact ⟨cause, by rw [hgrouped]; rfl⟩
      · intro hinvalid e h
        rcases bind_eq_error.mp h with h | ⟨grouped, -, h⟩
        · exact hinvalid e h
        · rcases bind_eq_error.mp h with h | ⟨ordered, -, h⟩
          · exact applyGiven_invalid (by decide) h
          · exact applyGiven_invalid (by decide) h

end

/-- **Aggregation fails on the pipeline or out of range.** For documents and pipelines made of what
JSON holds it gives rows or fails with an error of its own, unless the pipeline gathers numbers that
are out of range; then it fails with an arithmetic error. -/
theorem fails_only_out_of_range (strict : Bool) {pipeline : Value} {docs : List Document}
    (hpipeline : Groupable pipeline) (hdocs : ∀ doc ∈ docs, Groupable (.object doc)) :
    (¬ Overflows strict pipeline docs →
      (∃ rows, (run strict pipeline docs).outcome = .ok rows) ∨
        ∃ e, (run strict pipeline docs).outcome = .error e ∧ e.Invalid) ∧
    (Overflows strict pipeline docs →
      ∃ cause, (run strict pipeline docs).outcome = .error (.group (.arithmetic cause))) := by
  rcases run_cases strict hpipeline hdocs with
    ⟨hoverflows, hcause⟩ | ⟨hnot, hinvalid⟩
  · exact ⟨fun h => absurd hoverflows h, fun _ => hcause⟩
  · refine ⟨fun _ => ?_, fun h => absurd h hnot⟩
    cases hrun : (run strict pipeline docs).outcome with
    | ok rows => exact .inl ⟨rows, rfl⟩
    | error e => exact .inr ⟨e, rfl, hinvalid e hrun⟩

/-- Group all documents and add up a field. -/
def summing : Fields :=
  [(.str "_id", .null), (.str "total", .object [(.str "$sum", .str "$f")])]

/-- The pipeline that only groups like this. -/
def summingPipeline : Value := .list [.object [(.str "$group", .object summing)]]

/-- A document with an integer that has no floating-point number near it, and one with a half. -/
def hugeDocs : List Document :=
  [[(.str "f", .int (10 ^ 400))], [(.str "f", .float (.ofQuotient 1 2))]]

theorem groupable_summingPipeline : Groupable summingPipeline := by
  unfold Groupable
  decide +kernel

theorem groupable_hugeDocs : ∀ doc ∈ hugeDocs, Groupable (.object doc) := by
  unfold Groupable
  decide +kernel

theorem columnsOrCount_summing :
    columnsOrCount true summing = .ok [⟨.str "total", .sum, .field "f"⟩] := by
  have hself : (Value.str "_id").equals (.str "_id") = true := by decide +kernel
  have htotal : (Value.str "total").equals (.str "_id") = false := by decide +kernel
  simp only [columnsOrCount, summing, columns, hself, htotal, if_true, Bool.false_eq_true,
    if_false]
  rfl

theorem overflows_hugeDocs : Overflows true summingPipeline hugeDocs := by
  have hkey : keySource summing = .constant .null := by
    rw [keySource, summing, Fields.getText?_cons_self]
    rfl
  have hclass (doc : Document) : classOf (keySource summing) hugeDocs doc = hugeDocs := by
    have hnull : Value.null.agrees .null = true := by decide +kernel
    rw [hkey]
    exact List.filter_eq_self.mpr fun _ _ => hnull
  have hnumbers : (Source.field "f").numbers hugeDocs =
      [.int (10 ^ 400), .float (.ofQuotient 1 2)] := by
    simp only [Source.numbers, hugeDocs, Source.valueIn, List.filterMap_cons, List.filterMap_nil,
      Fields.getText?_cons_self, Option.getD_some, Tally.number?]
  refine ⟨_, summing, _, hugeDocs, rfl, rfl, rfl, columnsOrCount_summing, _,
    List.mem_cons_self .., _, List.mem_cons_self .., ?_⟩
  rw [hclass]
  simp only [Column.OutOfRange]
  rw [hnumbers]
  exact ⟨[10 ^ 400], .ofQuotient 1 2, [], rfl, .inl (by decide +kernel)⟩

theorem fails_only_out_of_range_hugeDocs :
    ∃ cause, (run true summingPipeline hugeDocs).outcome = .error (.group (.arithmetic cause)) :=
  (fails_only_out_of_range true groupable_summingPipeline groupable_hugeDocs).2 overflows_hugeDocs

/-- Documents and a pipeline with finite numbers, for which aggregation gives no rows and no error
of its own. -/
theorem not_fails_only_on_pipeline :
    (∀ doc ∈ hugeDocs, (Value.object doc).isJson (fun n => n.isShort && n.isFinite) = true) ∧
      summingPipeline.isJson (fun n => n.isShort && n.isFinite) = true ∧
      ¬ ((∃ rows, (run true summingPipeline hugeDocs).outcome = .ok rows) ∨
        ∃ e, (run true summingPipeline hugeDocs).outcome = .error e ∧ e.Invalid) := by
  refine ⟨by decide +kernel, by decide +kernel, ?_⟩
  rcases run_cases true groupable_summingPipeline groupable_hugeDocs with
    ⟨-, cause, hcause⟩ | ⟨hnot, -⟩
  · rintro (⟨rows, hrows⟩ | ⟨e, he, hinvalid⟩)
    · cases hcause.symm.trans hrows
    · cases hcause.symm.trans he
      exact hinvalid
  · exact absurd overflows_hugeDocs hnot

end Pipeline

end SnapshotStore
