import SnapshotStore.Proofs.Pipeline.Counting
import SnapshotStore.Proofs.Pipeline.Stages
import SnapshotStore.Proofs.Sort.Stable
import SnapshotStore.Proofs.Value.Order

/-!
# Counting, ranking and cutting off

**Theorem (`run_of_ranking`).** A pipeline that matches documents, counts them by a field, sorts by
the counts in descending order and keeps the first rows, shows the values with the greatest counts,
earlier values first where counts are the same.

The rows that are sorted are images of the values they count (`rows_of_counting`), so they are
sorted as the values are by their counts (`sort_map`). The values come in the order of first
appearance, and the sort keeps this among those of the same count (`sort_pairwise`). What is cut off
stands behind what is shown.
-/

namespace SnapshotStore

namespace Pipeline

open SnapshotStore.Group

variable {values : List Value} {v w : Value}

/-! ## Ranks -/

/-- A value has a greater count than another one, or the same and appears earlier. -/
def Outranks (values : List Value) (v w : Value) : Prop :=
  tally values w < tally values v ∨
    tally values v = tally values w ∧ firstPlace values v < firstPlace values w

/-- The values that a ranking of the given length shows. -/
structure Ranking (values : List Value) (n : Nat) (shown : List Value) : Prop where
  length : shown.length = min n (firstSeen values).length
  counted : ∀ v ∈ shown, v ∈ firstSeen values
  distinct : shown.Pairwise fun v w => v.agrees w = false
  ordered : shown.Pairwise (Outranks values)
  cutOff : ∀ v ∈ shown, ∀ w ∈ firstSeen values, w ∉ shown → Outranks values v w

theorem findIdx_congr {α : Type} {p q : α → Bool} {xs : List α} (h : ∀ x ∈ xs, p x = q x) :
    xs.findIdx p = xs.findIdx q := by
  induction xs with
  | nil => rfl
  | cons x xs ih =>
    rw [List.forall_mem_cons] at h
    rw [List.findIdx_cons, List.findIdx_cons, h.1, ih h.2]

/-- Values that agree with one another are not ranked. -/
theorem Outranks.agrees_eq_false (h : ∀ v ∈ values, Groupable v) (hv : v ∈ values) (hw : w ∈ values)
    (hrank : Outranks values v w) : v.agrees w = false := by
  by_contra hagrees
  have hsame : ∀ u ∈ values, u.agrees v = u.agrees w := by
    intro u hu
    have htext := ((h v hv).agrees_iff (h w hw)).mp (by simpa using hagrees)
    rw [Bool.eq_iff_iff, (h u hu).agrees_iff (h v hv), (h u hu).agrees_iff (h w hw), htext]
  have htally : tally values v = tally values w :=
    List.countP_congr fun u hu => by rw [hsame u hu]
  have hplace : firstPlace values v = firstPlace values w := findIdx_congr hsame
  rcases hrank with hlt | ⟨-, hlt⟩ <;> omega

/-- Goes by counts, greater ones first. -/
def countsMore (values : List Value) (v w : Value) : Bool :=
  decide (tally values w < tally values v)

/-- The values seen for the first time, ranked. -/
def ranked (values : List Value) : List Value := Sort.sort (countsMore values) (firstSeen values)

theorem ranked_pairwise (h : ∀ v ∈ values, Groupable v) :
    (ranked values).Pairwise (Outranks values) := by
  have hweak : Sort.WeakOrder (countsMore values) (firstSeen values) := by
    constructor <;> simp only [countsMore, decide_eq_true_eq, decide_eq_false_iff_not] <;>
      intros <;> omega
  refine (Sort.sort_pairwise hweak.consistent (firstSeen_pairwise h)).imp fun {v w} hvw => ?_
  simp only [countsMore, decide_eq_true_eq, decide_eq_false_iff_not] at hvw
  unfold Outranks
  omega

/-- The front of the ranked values is a ranking. -/
theorem ranking_take (h : ∀ v ∈ values, Groupable v) (n : Nat) :
    Ranking values n ((ranked values).take n) := by
  have hperm : (ranked values).Perm (firstSeen values) := Sort.sort_perm _ _
  have hordered := ranked_pairwise h
  have hsplit := List.take_append_drop n (ranked values)
  have hmem {v : Value} (hv : v ∈ (ranked values).take n) : v ∈ firstSeen values :=
    hperm.mem_iff.mp (List.mem_of_mem_take hv)
  refine ⟨?_, fun v => hmem, ?_, hordered.sublist (List.take_sublist ..), fun v hv w hw hout => ?_⟩
  · rw [List.length_take, hperm.length_eq]
  · refine (hordered.sublist (List.take_sublist ..)).imp_of_mem fun hv hw hrank => ?_
    exact hrank.agrees_eq_false h (mem_of_firstSeen (hmem hv)) (mem_of_firstSeen (hmem hw))
  · rw [← hsplit, List.pairwise_append] at hordered
    rw [← hperm.mem_iff, ← hsplit, List.mem_append] at hw
    exact hordered.2.2 v hv w (hw.resolve_left hout)

/-! ## Stages -/

theorem isGreater_int (a b : Int) : (Value.int a).isGreater (.int b) = decide (b < a) := by
  rw [Value.isGreater_of_places (p := .ofInt a) (q := .ofInt b) rfl rfl, Bool.eq_iff_iff,
    beq_iff_eq, decide_eq_true_iff]
  show compare (a * Binary64.unitsPerOne : Int) (b * Binary64.unitsPerOne) = .gt ↔ b < a
  rw [compare_gt_iff_gt, mul_lt_mul_iff_of_pos_right Binary64.unitsPerOne_pos]

theorem goesBefore_countRow (values : List Value) (v w : Value) :
    goesBefore [(.str "referralsCount", .int (-1))] (countRow values v) (countRow values w) =
      countsMore values v w := by
  have hcount (u : Value) : Fields.get? (countRow values u) (.str "referralsCount") =
      some (.int (tally values u)) := by
    have hname : Value.str "_id" ≠ .str "referralsCount" := by simp
    exact (Fields.getText?_cons_of_ne hname ..).trans (Fields.getText?_cons_self ..)
  have hdescending : isDescending (.int (-1)) = true := by decide +kernel
  simp only [goesBefore, hcount, Option.getD_some, isGreater_int, hdescending, countsMore]
  by_cases hlt : tally values w < tally values v <;> simp [hlt]

theorem sorted_countRows (values : List Value) :
    sorted (.object [(.str "referralsCount", .int (-1))])
        ((firstSeen values).map (countRow values)) =
      .ok ((ranked values).map (countRow values)) := by
  rw [sorted, Sort.sort_map]
  simp only [goesBefore_countRow]
  rfl

theorem limited_nat {α : Type} (n : Nat) (items : List α) :
    limited (.int n) items = .ok (items.take n) := by
  rw [limited, if_neg (by omega), Int.toNat_natCast]

/-- The entries of the pipeline. -/
def rankingEntries (query : Value) (field : String) (n : Nat) : Fields :=
  [(.str "$match", query), (.str "$group", .object [(.str "_id", .str ("$" ++ field))]),
    (.str "$sort", .object [(.str "referralsCount", .int (-1))]), (.str "$limit", .int n)]

theorem givesOnce_rankingEntries (query : Value) (field : String) (n : Nat) :
    GivesOnce (rankingEntries query field n) := by
  have hstages : (rankingEntries query field n).map (fun entry => Stage.ofName? entry.1) =
      [some .pick, some .group, some .sort, some .limit] := rfl
  have hknown : ∀ stage ∈ (rankingEntries query field n).map fun entry => Stage.ofName? entry.1,
      stage.isSome = true := by
    rw [hstages]
    decide
  have hdistinct : ((rankingEntries query field n).map fun entry =>
      Stage.ofName? entry.1).Pairwise (· ≠ ·) := by
    rw [hstages]
    decide
  exact ⟨List.forall_mem_map.mp hknown, List.pairwise_map.mp hdistinct⟩

theorem applyAll_rankingEntries (strict : Bool) (query : Value) (field : String) (n : Nat)
    (docs : List Document) :
    applyAll strict (firstSpec (rankingEntries query field n)) Stage.all docs = (do
      let picked ← (Query.select strict query docs).mapError .query
      let grouped ←
        (Group.rows strict (.object [(.str "_id", .str ("$" ++ field))]) picked).mapError .group
      let ordered ← sorted (.object [(.str "referralsCount", .int (-1))]) grouped
      limited (.int n) ordered) := by
  rw [applyAll_all]
  rfl

theorem mem_of_select {strict : Bool} {query : Value} {docs matching : List Document}
    (h : Query.select strict query docs = .ok matching) : matching ⊆ docs := by
  induction docs generalizing matching with
  | nil =>
    cases h
    exact List.Subset.refl _
  | cons doc docs ih =>
    obtain ⟨holds, -, h⟩ := bind_eq_ok.mp h
    cases holds with
    | false => exact List.subset_cons_of_subset doc (ih h)
    | true =>
      obtain ⟨rest, hrest, h⟩ := bind_eq_ok.mp h
      cases h
      exact List.cons_subset_cons doc (ih hrest)

/-- A field of a document that can be grouped by can be grouped by, and so can null. -/
theorem groupable_field {doc : Document} (h : Groupable (.object doc)) (field : String) :
    Groupable ((Fields.getText? doc field).getD .null) := by
  cases hvalue : Fields.getText? doc field with
  | none => exact rfl
  | some v =>
    obtain ⟨entries, rfl, -, hentries⟩ := Value.isJson_object h
    obtain ⟨key, -, hmem⟩ := Fields.mem_ofEntries.mp (Fields.mem_of_getText? hvalue)
    exact hentries _ hmem

/-- **The pipeline shows a ranking** of the values that the matching documents have in the field,
with the exact count of each, wherever its stages stand. -/
theorem run_of_ranking {strict : Bool} {pipeline query : Value} {objects : List Fields}
    {field : String} {n : Nat} {docs matching : List Document}
    (hobjects : IsObjects pipeline objects)
    (hentries : objects.flatten.Perm (rankingEntries query field n))
    (hdocs : ∀ doc ∈ docs, Groupable (.object doc))
    (hmatching : Query.select strict query docs = .ok matching) :
    ∃ shown, Ranking (fieldValues field matching) n shown ∧
      (run strict pipeline docs).outcome =
        .ok (shown.map (countRow (fieldValues field matching))) := by
  have honce := givesOnce_rankingEntries query field n
  have hgroupable : ∀ v ∈ fieldValues field matching, Groupable v :=
    List.forall_mem_map.mpr fun doc hdoc =>
      groupable_field (hdocs doc (mem_of_select hmatching hdoc)) field
  refine ⟨_, ranking_take hgroupable n, ?_⟩
  rw [run_outcome, collect_eq_firstSpec hobjects (honce.perm hentries.symm),
    ← firstSpec_perm honce hentries.symm]
  have hpicked : (Query.select strict query docs).mapError PipelineError.query = .ok matching := by
    rw [hmatching]
    rfl
  have hgrouped : (Group.rows strict (.object [(.str "_id", .str ("$" ++ field))])
      matching).mapError PipelineError.group = .ok
        ((firstSeen (fieldValues field matching)).map (countRow (fieldValues field matching))) := by
    rw [rows_of_counting strict field matching hgroupable]
    rfl
  refine (applyAll_rankingEntries strict query field n docs).trans ?_
  simp only [hpicked, hgrouped, sorted_countRows, limited_nat, List.map_take, bind, Except.bind]

/-- Documents in which two values, one of them in two forms, are counted twice. -/
def referrals : List Document :=
  [[(.str "by", .int 3), (.str "ok", .bool true)], [(.str "ok", .bool true)],
    [(.str "by", .int 1), (.str "ok", .bool true)], [(.str "by", .int 5), (.str "ok", .bool false)],
    [(.str "by", .float (.ofInt 1)), (.str "ok", .bool true)], [(.str "ok", .bool true)]]

/-- A stage in an object of its own, the last ones first. -/
def rankingObjects : List Fields :=
  [[(.str "$limit", .int 2)], [(.str "$sort", .object [(.str "referralsCount", .int (-1))])],
    [(.str "$group", .object [(.str "_id", .str "$by")])],
    [(.str "$match", .object [(.str "ok", .bool true)])]]

theorem run_of_ranking_referrals :
    rankingObjects.flatten.Perm (rankingEntries (.object [(.str "ok", .bool true)]) "by" 2) ∧
      ∃ matching, Query.select true (.object [(.str "ok", .bool true)]) referrals = .ok matching ∧
        ∃ shown, Ranking (fieldValues "by" matching) 2 shown ∧
          (run true (.list (rankingObjects.map .object)) referrals).outcome =
            .ok (shown.map (countRow (fieldValues "by" matching))) := by
  have hentries : rankingObjects.flatten.Perm
      (rankingEntries (.object [(.str "ok", .bool true)]) "by" 2) :=
    List.reverse_perm (rankingEntries (.object [(.str "ok", .bool true)]) "by" 2)
  have hdocs : ∀ doc ∈ referrals, Groupable (.object doc) := by
    unfold Groupable
    decide +kernel
  have hselects :
      (Query.select true (.object [(.str "ok", .bool true)]) referrals).isOk = true := by
    decide +kernel
  cases hmatching : Query.select true (.object [(.str "ok", .bool true)]) referrals with
  | error e =>
    rw [hmatching] at hselects
    cases hselects
  | ok matching =>
    exact ⟨hentries, matching, rfl, run_of_ranking (.inl rfl) hentries hdocs hmatching⟩

end Pipeline

end SnapshotStore
