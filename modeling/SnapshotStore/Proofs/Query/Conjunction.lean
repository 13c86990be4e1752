import SnapshotStore.Proofs.Query.Strict

/-!
# Queries as conjunctions

A query puts one demand after the other to a document: that a field's value agrees with another one,
or that an operator holds of it (`Query.demands`). The first demand that fails, or that is refused,
decides.

**Theorem (`select_conjunction`).** To select by the fields of two queries, one after the other, is
to select by the first query and then, from what is left, by the second. The same holds of two
objects of operators for one field that are joined. In any other order of fields and operators the
same documents are selected, if the query is answered at all.

Joined queries make the demands of the first and then those of the second (`satisfied_of_demands`),
so a document is put to the second query just where it gets past the first. In another order other
demands may be refused. But a document that is answered satisfies a query exactly when it meets all
demands (`allMet_eq_true`), and this is the same in any order (`satisfied_of_perm`).
-/

namespace SnapshotStore

namespace Query

variable {strict : Bool} {doc : Document} {docs kept : List Document} {query : Value}

/-! ## Demands -/

/-- What a query demands of a document at one step. -/
inductive Demand where
  /-- Passed over, or refused for a reason when the query is strict. -/
  | unsupported (reason : QueryError)
  | value (key v : Value)
  | operator (key : Value) (op : Operator) (argument : Value)

/-- Whether a document meets a demand. -/
def Demand.met (strict : Bool) (doc : Document) : Demand → Except QueryError Bool
  | .unsupported reason => if strict then .error reason else .ok true
  | .value key v => (Condition.value v).holds strict (Fields.get? doc key)
  | .operator key op argument => op.holds (Fields.get? doc key) argument

/-- The demand that an operator makes of a field. -/
def demandOf (key : Value) (term : String × Value) : Demand :=
  match Operator.ofName? term.1 with
  | some op => .operator key op term.2
  | none => .unsupported (.unknownOperator term.1)

/-- The demands of a condition for a field. -/
def Condition.demands (key : Value) : Condition → List Demand
  | .value v => [.value key v]
  | .operators terms => terms.map (demandOf key)

/-- The demands of a field of a query. -/
def fieldDemands (field : Value × Value) : List Demand :=
  match operatorKey? field.1 with
  | some name => [.unsupported (.topLevelOperator name)]
  | none => (Condition.ofValue field.2).demands field.1

/-- The demands of a query, in the order in which they are made. -/
def demands (fields : Fields) : List Demand := fields.flatMap fieldDemands

/-- Whether a document meets all demands. The first that it does not meet decides. -/
def allMet (strict : Bool) (doc : Document) : List Demand → Except QueryError Bool
  | [] => .ok true
  | demand :: rest => do if ← demand.met strict doc then allMet strict doc rest else .ok false

theorem allMet_append (first second : List Demand) :
    allMet strict doc (first ++ second) =
      allMet strict doc first >>= fun holds =>
        if holds then allMet strict doc second else .ok false := by
  induction first with
  | nil => rfl
  | cons demand first ih =>
    simp only [List.cons_append, allMet, bind_assoc, ih]
    refine bind_congr fun holds => ?_
    cases holds <;> rfl

theorem allHold_eq_allMet (key : Value) (terms : List (String × Value)) :
    allHold strict (Fields.get? doc key) terms =
      allMet strict doc (terms.map (demandOf key)) := by
  induction terms with
  | nil => rfl
  | cons term terms ih =>
    obtain ⟨name, argument⟩ := term
    cases hop : Operator.ofName? name with
    | none =>
      simp only [allHold, List.map_cons, demandOf, hop, allMet, Demand.met, ih]
      cases strict <;> rfl
    | some op => simp only [allHold, List.map_cons, demandOf, hop, allMet, Demand.met, ih]

theorem Condition.holds_eq_allMet (key : Value) (condition : Condition) :
    condition.holds strict (Fields.get? doc key) = allMet strict doc (condition.demands key) := by
  cases condition with
  | value v =>
    simp only [demands, allMet, Demand.met]
    cases (Condition.value v).holds strict (Fields.get? doc key) with
    | error e => rfl
    | ok holds => cases holds <;> rfl
  | operators terms => exact allHold_eq_allMet key terms

/-- A query is answered by its demands. -/
theorem satisfied_eq_allMet (fields : Fields) :
    satisfied strict (.object fields) doc = allMet strict doc (demands fields) := by
  rw [satisfied]
  induction fields with
  | nil => rfl
  | cons field fields ih =>
    obtain ⟨key, condition⟩ := field
    rw [demands, List.flatMap_cons, allMet_append, ← demands, ← ih, fieldsHold]
    cases hkey : operatorKey? key with
    | some name =>
      simp only [fieldDemands, hkey, allMet, Demand.met]
      cases strict <;> rfl
    | none => simp only [fieldDemands, hkey, Condition.holds_eq_allMet]

/-- A document that is answered satisfies a query exactly when it meets all demands. -/
theorem allMet_eq_true {steps : List Demand} {holds : Bool}
    (h : allMet strict doc steps = .ok holds) :
    holds = true ↔ ∀ demand ∈ steps, demand.met strict doc = .ok true := by
  induction steps with
  | nil =>
    cases h
    simp
  | cons demand steps ih =>
    obtain ⟨first, hfirst, h⟩ := bind_eq_ok.mp h
    rw [List.forall_mem_cons, hfirst]
    cases first with
    | true => simpa using ih h
    | false =>
      cases h
      simp

/-! ## Several queries -/

/-- A query that demands what two others do, one after the other. -/
theorem satisfied_of_demands {fields first second : Fields}
    (h : demands fields = demands first ++ demands second) :
    satisfied strict (.object fields) doc =
      satisfied strict (.object first) doc >>= fun holds =>
        if holds then satisfied strict (.object second) doc else .ok false := by
  rw [satisfied_eq_allMet, h, allMet_append]
  simp only [satisfied_eq_allMet]

/-- A query that demands the same as two others in any order has the same answer, where there
are answers. -/
theorem satisfied_of_perm {fields first second : Fields} {holds holds₁ holds₂ : Bool}
    (h : (demands fields).Perm (demands first ++ demands second))
    (hholds : satisfied strict (.object fields) doc = .ok holds)
    (hholds₁ : satisfied strict (.object first) doc = .ok holds₁)
    (hholds₂ : holds₁ = true → satisfied strict (.object second) doc = .ok holds₂) :
    holds = true ↔ holds₁ = true ∧ holds₂ = true := by
  simp only [satisfied_eq_allMet] at hholds hholds₁ hholds₂
  rw [allMet_eq_true hholds, allMet_eq_true hholds₁]
  simp only [h.mem_iff, List.forall_mem_append]
  refine and_congr_right fun hfirst => ?_
  rw [allMet_eq_true (hholds₂ ((allMet_eq_true hholds₁).mpr hfirst))]

/-! ## Selections -/

/-- The document is answered, and satisfies the query. -/
def selects (strict : Bool) (query : Value) (doc : Document) : Bool :=
  (satisfied strict query doc).toOption.getD false

theorem selects_of_satisfied {holds : Bool} (h : satisfied strict query doc = .ok holds) :
    selects strict query doc = holds := by
  rw [selects, h]
  rfl

/-- **What is selected** are the documents that satisfy the query, in their order, if all are
answered. -/
theorem select_eq_ok_iff : select strict query docs = .ok kept ↔
    (∀ doc ∈ docs, ∃ holds, satisfied strict query doc = .ok holds) ∧
      kept = docs.filter (selects strict query) := by
  induction docs generalizing kept with
  | nil => simp [select, eq_comm]
  | cons doc docs ih =>
    rw [select, List.forall_mem_cons]
    cases hdoc : satisfied strict query doc with
    | error e => simp [bind, Except.bind]
    | ok holds =>
      have hselects := selects_of_satisfied hdoc
      cases holds with
      | true =>
        rw [ok_bind, if_pos rfl, bind_eq_ok, List.filter_cons_of_pos hselects]
        simp only [ih, Except.ok.injEq, exists_eq', true_and, and_assoc, exists_and_left,
          exists_eq_left]
        exact and_congr_right fun _ => eq_comm
      | false =>
        rw [ok_bind, if_neg Bool.false_ne_true, ih, List.filter_cons_of_neg (by simp [hselects])]
        simp

theorem sublist_of_select (h : select strict query docs = .ok kept) : kept.Sublist docs := by
  rw [(select_eq_ok_iff.mp h).2]
  exact List.filter_sublist

/-- **Selecting by one query and then by another** is selecting by the query that makes their
demands one after the other. -/
theorem select_of_demands {fields first second : Fields}
    (h : demands fields = demands first ++ demands second) :
    select strict (.object fields) docs = .ok kept ↔
      ∃ between, select strict (.object first) docs = .ok between ∧
        select strict (.object second) between = .ok kept := by
  have hanswered (doc : Document) :
      (∃ holds, satisfied strict (.object fields) doc = .ok holds) ↔
        (∃ holds, satisfied strict (.object first) doc = .ok holds) ∧
          (selects strict (.object first) doc = true →
            ∃ holds, satisfied strict (.object second) doc = .ok holds) := by
    rw [satisfied_of_demands h, selects]
    rcases satisfied strict (.object first) doc with e | (_ | _) <;>
      simp [bind, Except.bind, Except.toOption]
  have hselects (doc : Document) : selects strict (.object fields) doc =
      (selects strict (.object second) doc && selects strict (.object first) doc) := by
    simp only [selects, satisfied_of_demands h]
    rcases satisfied strict (.object first) doc with e | (_ | _) <;>
      simp [bind, Except.bind, Except.toOption]
  simp only [select_eq_ok_iff, hanswered, and_assoc, exists_and_left, exists_eq_left,
    List.mem_filter, List.filter_filter, ← hselects, forall_and]
  simp only [and_imp]

/-- Selecting by one query and then by another gives the same as selecting by their demands in any
order, where both ways give something. -/
theorem select_of_perm {fields first second : Fields} {between kept' : List Document}
    (h : (demands fields).Perm (demands first ++ demands second))
    (hkept : select strict (.object fields) docs = .ok kept)
    (hbetween : select strict (.object first) docs = .ok between)
    (hkept' : select strict (.object second) between = .ok kept') : kept = kept' := by
  obtain ⟨hanswered, rfl⟩ := select_eq_ok_iff.mp hkept
  obtain ⟨hanswered₁, rfl⟩ := select_eq_ok_iff.mp hbetween
  obtain ⟨hanswered₂, rfl⟩ := select_eq_ok_iff.mp hkept'
  rw [List.filter_filter]
  refine List.filter_congr fun doc hdoc => ?_
  obtain ⟨holds, hholds⟩ := hanswered doc hdoc
  obtain ⟨holds₁, hholds₁⟩ := hanswered₁ doc hdoc
  have hsecond : holds₁ = true → satisfied strict (.object second) doc =
      .ok (selects strict (.object second) doc) := by
    rintro rfl
    obtain ⟨holds₂, hholds₂⟩ := hanswered₂ doc
      (List.mem_filter.mpr ⟨hdoc, selects_of_satisfied hholds₁⟩)
    rw [hholds₂, selects_of_satisfied hholds₂]
  rw [selects_of_satisfied hholds, selects_of_satisfied hholds₁, Bool.eq_iff_iff,
    satisfied_of_perm h hholds hholds₁ hsecond, Bool.and_eq_true]
  exact and_comm

/-! ## Objects of operators -/

/-- The operator and the argument of a field that is keyed by an operator. -/
def termOf (field : Value × Value) : String × Value :=
  ((operatorKey? field.1).getD "", field.2)

/-- An object that has fields, all of them keyed by operators. -/
def IsOperators (object : Fields) : Prop :=
  object ≠ [] ∧ ∀ field ∈ object, (operatorKey? field.1).isSome = true

theorem IsOperators.append {object other : Fields} (h : IsOperators object)
    (hother : IsOperators other) : IsOperators (object ++ other) :=
  ⟨List.append_ne_nil_of_left_ne_nil h.1 other, List.forall_mem_append.mpr ⟨h.2, hother.2⟩⟩

theorem IsOperators.perm {object other : Fields} (h : IsOperators object)
    (hperm : object.Perm other) : IsOperators other :=
  ⟨fun hnil => h.1 (hperm.trans (.of_eq hnil)).eq_nil,
    fun field hfield => h.2 field (hperm.mem_iff.mpr hfield)⟩

theorem IsOperators.ofValue_eq {object : Fields} (h : IsOperators object) :
    Condition.ofValue (.object object) = .operators (object.map termOf) := by
  have hterms : operators? object = some (object.map termOf) := by
    rw [operators?, if_neg (by simpa using h.1), mapM_eq_some, List.forall₂_map_right_iff,
      List.forall₂_same]
    rintro ⟨key, v⟩ hfield
    obtain ⟨name, hname⟩ := Option.isSome_iff_exists.mp (h.2 _ hfield)
    simp only [termOf, hname, Option.map_some, Option.getD_some]
  rw [Condition.ofValue, hterms]

theorem fieldDemands_of_isOperators {key : Value} {object : Fields} (h : IsOperators object)
    (hkey : operatorKey? key = none) :
    fieldDemands (key, .object object) = object.map fun field => demandOf key (termOf field) := by
  simp only [fieldDemands, hkey, h.ofValue_eq, Condition.demands, List.map_map]
  rfl

/-- Objects of operators for one field are joined. -/
theorem demands_join {key : Value} {object other : Fields} (hkey : operatorKey? key = none)
    (h : IsOperators object) (hother : IsOperators other) (fields others : Fields) :
    demands (fields ++ (key, .object (object ++ other)) :: others) =
      demands (fields ++ [(key, .object object)]) ++
        demands ((key, .object other) :: others) := by
  simp only [demands, List.flatMap_append, List.flatMap_cons, List.flatMap_nil, List.append_nil,
    fieldDemands_of_isOperators (h.append hother) hkey, fieldDemands_of_isOperators h hkey,
    fieldDemands_of_isOperators hother hkey, List.map_append, List.append_assoc]

/-! ## Other orders -/

/-- The same field, or with its operators in another order. -/
def SameField (field other : Value × Value) : Prop :=
  field = other ∨ ∃ key object object', field = (key, .object object) ∧
    other = (key, .object object') ∧ IsOperators object ∧ object.Perm object'

/-- The same fields in another order, with the operators of each in another order. -/
def Reordered (fields others : Fields) : Prop :=
  ∃ between, fields.Perm between ∧ List.Forall₂ SameField between others

theorem SameField.demands_perm {field other : Value × Value} (h : SameField field other) :
    (fieldDemands field).Perm (fieldDemands other) := by
  rcases h with rfl | ⟨key, object, object', rfl, rfl, hobject, hperm⟩
  · exact .refl _
  · cases hkey : operatorKey? key with
    | some name => simp only [fieldDemands, hkey, List.Perm.refl]
    | none =>
      rw [fieldDemands_of_isOperators hobject hkey,
        fieldDemands_of_isOperators (hobject.perm hperm) hkey]
      exact hperm.map _

theorem Reordered.demands_perm {fields others : Fields} (h : Reordered fields others) :
    (demands fields).Perm (demands others) := by
  obtain ⟨between, hperm, hsame⟩ := h
  refine (hperm.flatMap_right fieldDemands).trans ?_
  clear hperm
  induction hsame with
  | nil => exact .refl _
  | cons hfield _ ih => exact hfield.demands_perm.append ih

theorem select_nil (docs : List Document) : select strict (.object []) docs = .ok docs := by
  refine select_eq_ok_iff.mpr ⟨fun doc _ => ⟨true, rfl⟩, ?_⟩
  exact (List.filter_eq_self.mpr fun doc _ => rfl).symm

/-- **Queries are conjunctions.** The fields of two queries, one after the other, select what the
second query selects of what the first one does, and so do two queries that end and start with
operators for one field, which are joined. Operators that are joined among other fields, and fields
and operators in any other order, select the same, where both ways are answered. -/
theorem select_conjunction (strict : Bool) (docs : List Document) :
    (∀ fields others kept, select strict (.object (fields ++ others)) docs = .ok kept ↔
      ∃ between, select strict (.object fields) docs = .ok between ∧
        select strict (.object others) between = .ok kept) ∧
    (∀ key, operatorKey? key = none → ∀ object object', IsOperators object → IsOperators object' →
      (∀ fields others kept,
        select strict (.object (fields ++ (key, .object (object ++ object')) :: others)) docs =
            .ok kept ↔
          ∃ between, select strict (.object (fields ++ [(key, .object object)])) docs =
              .ok between ∧
            select strict (.object ((key, .object object') :: others)) between = .ok kept) ∧
      ∀ front front' back back' kept between kept',
        select strict (.object (front ++ (key, .object (object ++ object')) ::
            (back ++ (front' ++ back')))) docs = .ok kept →
          select strict (.object (front ++ (key, .object object) :: back)) docs = .ok between →
          select strict (.object (front' ++ (key, .object object') :: back')) between =
            .ok kept' → kept = kept') ∧
    ∀ query fields others kept kept', Reordered query fields → Reordered query others →
      select strict (.object fields) docs = .ok kept →
      select strict (.object others) docs = .ok kept' → kept = kept' ∧ kept.Sublist docs := by
  refine ⟨fun fields others kept => select_of_demands List.flatMap_append,
    fun key hkey object object' h h' => ⟨fun fields others kept =>
      select_of_demands (demands_join hkey h h' fields others), ?_⟩, ?_⟩
  · intro front front' back back' kept between kept'
    refine select_of_perm ?_
    simp only [demands, List.flatMap_append, List.flatMap_cons,
      fieldDemands_of_isOperators (h.append h') hkey, fieldDemands_of_isOperators h hkey,
      fieldDemands_of_isOperators h' hkey, List.map_append, List.append_assoc]
    refine .append_left _ (.append_left _ ?_)
    -- the second operators move past the rest of both queries
    simpa only [List.append_assoc] using List.perm_append_comm_assoc
      (object'.map fun field => demandOf key (termOf field))
      (back.flatMap fieldDemands ++ front'.flatMap fieldDemands) (back'.flatMap fieldDemands)
  · intro query fields others kept kept' hfields hothers hkept hkept'
    have hperm : (demands fields).Perm (demands others ++ demands []) := by
      rw [show demands [] = [] from rfl, List.append_nil]
      exact hfields.demands_perm.symm.trans hothers.demands_perm
    exact ⟨select_of_perm hperm hkept hkept' (select_nil kept'), sublist_of_select hkept⟩

/-- Documents with numbers in a field, and without it. -/
def agedDocs : List Document :=
  [[(.str "age", .int 5), (.str "ok", .bool true)], [(.str "ok", .bool true)],
    [(.str "age", .float (.ofInt 9)), (.str "ok", .bool true)], [(.str "age", .int 5)]]

/-- A number greater than one. -/
def above : Fields := [(.str "$gt", .int 1)]

/-- A number less than six. -/
def below : Fields := [(.str "$lt", .int 6)]

/-- Both are asked for among the documents that are marked. -/
def markedBetween : Fields := [(.str "ok", .bool true), (.str "age", .object (above ++ below))]

/-- The same query in another order of fields and operators. -/
def betweenMarked : Fields := [(.str "age", .object (below ++ above)), (.str "ok", .bool true)]

theorem select_conjunction_agedDocs :
    operatorKey? (.str "age") = none ∧ IsOperators above ∧ IsOperators below ∧
      Reordered markedBetween markedBetween ∧ Reordered markedBetween betweenMarked ∧
      ∃ between kept, select true (.object markedBetween) agedDocs = .ok kept ∧
        select true (.object [(.str "ok", .bool true), (.str "age", .object above)]) agedDocs =
          .ok between ∧
        select true (.object [(.str "age", .object below)]) between = .ok kept ∧
        select true (.object betweenMarked) agedDocs = .ok kept ∧ kept.Sublist agedDocs := by
  have habove : IsOperators above := ⟨List.cons_ne_nil _ _, by decide⟩
  have hbelow : IsOperators below := ⟨List.cons_ne_nil _ _, by decide⟩
  have hsame : Reordered markedBetween markedBetween :=
    ⟨markedBetween, .refl _, List.forall₂_same.mpr fun _ _ => .inl rfl⟩
  have hswapped : Reordered markedBetween betweenMarked := by
    have hswap : markedBetween.Perm
        [(.str "age", .object (above ++ below)), (.str "ok", .bool true)] := .swap _ _ _
    refine ⟨_, hswap, ?_⟩
    exact .cons (.inr ⟨_, _, _, rfl, rfl, habove.append hbelow, List.perm_append_comm⟩)
      (.cons (.inl rfl) .nil)
  obtain ⟨kept, hkept⟩ := exists_of_isOk
    (by decide +kernel : (select true (.object markedBetween) agedDocs).isOk = true)
  obtain ⟨kept', hkept'⟩ := exists_of_isOk
    (by decide +kernel : (select true (.object betweenMarked) agedDocs).isOk = true)
  obtain ⟨-, hjoined, hordered⟩ := select_conjunction true agedDocs
  obtain ⟨hsplit, -⟩ := hjoined (.str "age") rfl above below habove hbelow
  obtain ⟨between, hbetween, hrest⟩ := (hsplit [(.str "ok", .bool true)] [] kept).mp hkept
  obtain ⟨rfl, hsublist⟩ := hordered _ _ _ kept kept' hsame hswapped hkept hkept'
  exact ⟨rfl, habove, hbelow, hsame, hswapped, between, kept, hkept, hbetween, hrest, hkept',
    hsublist⟩

end Query

end SnapshotStore
