import SnapshotStore.Proofs.Query.Strict

/-!
# What strict queries refuse, and when

A strict query refuses keys that are operators and operators that are unknown, but only where a
document gets to: conditions are tried in order, and one that fails ends the trial of its document.
`Query.front` is the part of a query in front of the first thing to refuse: the fields before it,
and the operators before it in its own object.

**Theorem (`refused_iff_reached`).** A strict query with something to refuse fails exactly when
some document does not fail its front. Otherwise nothing is selected, and nothing is refused.

A document is first put to the front, and what is refused decides the rest: so it is for the
operators of an object (`allHold_takeWhile`), for a field (`fieldsHold_frontOf`) and for all fields
(`fieldsHold_front`). No document is therefore selected, and the first that does not fail the front
ends the query (`select_cases`).
-/

namespace SnapshotStore

/-- The query is to blame, and not an item that is no document. -/
def QueryError.Invalid : QueryError → Prop
  | .shape _ => False
  | _ => True

theorem Operator.member_invalid {op : Operator} {stored : Option Value} {argument : Value}
    {e : QueryError} (h : op.member stored argument = .error e) : e.Invalid := by
  unfold member at h
  split at h
  · cases h
    trivial
  · split at h <;> cases h

theorem Operator.holds_invalid {op : Operator} {stored : Option Value} {argument : Value}
    {e : QueryError} (h : op.holds stored argument = .error e) : e.Invalid := by
  cases op with
  | within => exact member_invalid h
  | notWithin =>
    simp only [holds] at h
    cases hmember : notWithin.member stored argument with
    | error cause =>
      rw [hmember] at h
      cases h
      exact member_invalid hmember
    | ok found =>
      rw [hmember] at h
      cases h
  | _ => cases h

namespace Query

variable {strict : Bool} {stored : Option Value} {doc : Document} {fields : Fields}
  {field : Value × Value} {terms : List (String × Value)} {e : QueryError}

/-! ## Something to refuse -/

/-- A term with a known operator. -/
def hasKnown (term : String × Value) : Bool := (Operator.ofName? term.1).isSome

/-- A field that a strict query does not take: its key is an operator, or its condition has an
unknown one. -/
def Unsupported (field : Value × Value) : Prop :=
  (operatorKey? field.1).isSome ∨
    ∃ terms, Condition.ofValue field.2 = .operators terms ∧ ∃ term ∈ terms, hasKnown term = false

/-- Why a strict query does not take a field. -/
def refusal? (field : Value × Value) : Option QueryError :=
  match operatorKey? field.1, Condition.ofValue field.2 with
  | some name, _ => some (.topLevelOperator name)
  | none, .operators terms =>
    (terms.find? fun term => !hasKnown term).map fun term => .unknownOperator term.1
  | none, .value _ => none

/-- What stands in front of the first unknown operator of a field. -/
def frontOf (field : Value × Value) : Fields :=
  match operatorKey? field.1, Condition.ofValue field.2 with
  | none, .operators terms =>
    match terms.takeWhile hasKnown with
    | [] => []
    | known => [(field.1, .object (Fields.ofEntries known))]
  | _, _ => []

/-- What stands in front of the first thing to refuse of a query. -/
def front : Fields → Fields
  | [] => []
  | field :: fields => if (refusal? field).isSome then frontOf field else field :: front fields

theorem isSome_refusal?_iff : (refusal? field).isSome ↔ Unsupported field := by
  unfold refusal? Unsupported
  cases operatorKey? field.1 with
  | some name => simp
  | none =>
    cases Condition.ofValue field.2 with
    | value v => simp
    | operators terms => simp

theorem isDollar_of_ofValue {condition : Value}
    (h : Condition.ofValue condition = .operators terms) :
    ∀ term ∈ terms, Value.isDollar term.1 = true := by
  cases condition with
  | object fields =>
    cases hterms : operators? fields with
    | none => simp [Condition.ofValue, hterms] at h
    | some found =>
      simp only [Condition.ofValue, hterms, Condition.operators.injEq] at h
      exact h ▸ (operators?_eq_some.mp hterms).2.2
  | _ => cases h

theorem ofValue_ofEntries (hne : terms ≠ [])
    (hdollar : ∀ term ∈ terms, Value.isDollar term.1 = true) :
    Condition.ofValue (.object (Fields.ofEntries terms)) = .operators terms := by
  rw [Condition.ofValue, operators?_eq_some.mpr ⟨hne, rfl, hdollar⟩]

/-- What stands in front of unknown operators: no field, or one with the known operators before
them. -/
theorem frontOf_of_operators (hkey : operatorKey? field.1 = none)
    (hterms : Condition.ofValue field.2 = .operators terms) :
    (terms.takeWhile hasKnown = [] ∧ frontOf field = []) ∨ ∃ condition,
      frontOf field = [(field.1, condition)] ∧
        Condition.ofValue condition = .operators (terms.takeWhile hasKnown) := by
  simp only [frontOf, hkey, hterms]
  cases hknown : terms.takeWhile hasKnown with
  | nil => exact .inl ⟨rfl, rfl⟩
  | cons term known =>
    refine .inr ⟨_, rfl, ofValue_ofEntries (List.cons_ne_nil term known) fun other hother => ?_⟩
    rw [← hknown] at hother
    exact isDollar_of_ofValue hterms other ((List.takeWhile_sublist hasKnown).mem hother)

theorem not_unsupported_of_mem_frontOf {other : Value × Value} (h : other ∈ frontOf field) :
    ¬ Unsupported other := by
  cases hkey : operatorKey? field.1 with
  | some name => simp [frontOf, hkey] at h
  | none =>
    cases hcondition : Condition.ofValue field.2 with
    | value v => simp [frontOf, hkey, hcondition] at h
    | operators terms =>
      rcases frontOf_of_operators hkey hcondition with ⟨-, hfront⟩ | ⟨condition, hfront, hterms⟩
      · simp [hfront] at h
      · obtain rfl := List.mem_singleton.mp (hfront ▸ h)
        rintro (hsome | ⟨others, hothers, term, hterm, hunknown⟩)
        · simp [hkey] at hsome
        · obtain rfl : terms.takeWhile hasKnown = others :=
            Condition.operators.inj (hterms.symm.trans hothers)
          simp [List.all_eq_true.mp List.all_takeWhile term hterm] at hunknown

/-- Nothing in front of the first thing to refuse is refused. -/
theorem not_unsupported_of_mem_front (h : field ∈ front fields) : ¬ Unsupported field := by
  induction fields with
  | nil => cases h
  | cons first fields ih =>
    rw [front] at h
    split_ifs at h with hrefusal
    · exact not_unsupported_of_mem_frontOf h
    · rcases List.mem_cons.mp h with rfl | h
      · rwa [← isSome_refusal?_iff]
      · exact ih h

/-! ## The front decides first -/

/-- Refuse what gets past the front. -/
def refuseIf (e : QueryError) (holds : Bool) : Except QueryError Bool :=
  if holds then .error e else .ok false

theorem allHold_takeWhile {term : String × Value}
    (h : (terms.find? fun term => !hasKnown term) = some term) :
    allHold true stored terms =
      allHold true stored (terms.takeWhile hasKnown) >>= refuseIf (.unknownOperator term.1) := by
  induction terms with
  | nil => cases h
  | cons first terms ih =>
    obtain ⟨name, argument⟩ := first
    cases hop : Operator.ofName? name with
    | none =>
      obtain rfl : (name, argument) = term := by simpa [List.find?_cons, hasKnown, hop] using h
      simp only [allHold, hop, List.takeWhile_cons, hasKnown]
      rfl
    | some op =>
      have hterm : (terms.find? fun term => !hasKnown term) = some term := by
        simpa [List.find?_cons, hasKnown, hop] using h
      rw [List.takeWhile_cons_of_pos (by simp [hasKnown, hop])]
      simp only [allHold, hop, bind_assoc]
      refine bind_congr fun holds => ?_
      cases holds with
      | true => exact ih hterm
      | false => rfl

theorem fieldsHold_frontOf (h : refusal? field = some e) (fields : Fields) :
    fieldsHold true doc (field :: fields) =
      fieldsHold true doc (frontOf field) >>= refuseIf e := by
  cases hkey : operatorKey? field.1 with
  | some name =>
    simp only [refusal?, hkey, Option.some.injEq] at h
    subst h
    simp only [fieldsHold, hkey, frontOf]
    rfl
  | none =>
    cases hcondition : Condition.ofValue field.2 with
    | value v => simp [refusal?, hkey, hcondition] at h
    | operators terms =>
      simp only [refusal?, hkey, hcondition] at h
      obtain ⟨term, hterm, rfl⟩ := Option.map_eq_some_iff.mp h
      have hrefused (holds : Except QueryError Bool) :
          ((holds >>= refuseIf (.unknownOperator term.1)) >>= fun holds =>
            if holds then fieldsHold true doc fields else .ok false) =
            holds >>= refuseIf (.unknownOperator term.1) := by
        rcases holds with _ | (_ | _) <;> rfl
      simp only [fieldsHold, hkey, hcondition, Condition.holds, allHold_takeWhile hterm, hrefused]
      rcases frontOf_of_operators hkey hcondition with ⟨hnone, hfront⟩ | ⟨condition, hfront, hterms⟩
      · rw [hfront, hnone]
        rfl
      · simp only [hfront, fieldsHold, hkey, hterms, Condition.holds]
        rcases allHold true _ (terms.takeWhile hasKnown) with _ | (_ | _) <;> rfl

theorem fieldsHold_front (h : fields.findSome? refusal? = some e) :
    fieldsHold true doc fields = fieldsHold true doc (front fields) >>= refuseIf e := by
  induction fields with
  | nil => cases h
  | cons field fields ih =>
    cases hrefusal : refusal? field with
    | some reason =>
      obtain rfl : reason = e := by simpa [hrefusal] using h
      rw [front, hrefusal, fieldsHold_frontOf hrefusal]
      rfl
    | none =>
      have hrest : fields.findSome? refusal? = some e := by simpa [hrefusal] using h
      cases hkey : operatorKey? field.1 with
      | some name => simp [refusal?, hkey] at hrefusal
      | none =>
        simp only [front, hrefusal, Option.isSome_none, Bool.false_eq_true, if_false, fieldsHold,
          hkey, bind_assoc]
        refine bind_congr fun holds => ?_
        cases holds with
        | true => exact ih hrest
        | false => rfl

/-! ## Errors -/

theorem allHold_invalid (h : allHold strict stored terms = .error e) : e.Invalid := by
  induction terms with
  | nil => cases h
  | cons term terms ih =>
    unfold allHold at h
    split at h
    · split_ifs at h
      · cases h
        trivial
      · exact ih h
    · rcases bind_eq_error.mp h with h | ⟨holds, -, h⟩
      · exact Operator.holds_invalid h
      · split_ifs at h
        exact ih h

theorem fieldsHold_invalid (h : fieldsHold strict doc fields = .error e) : e.Invalid := by
  induction fields with
  | nil => cases h
  | cons field fields ih =>
    unfold fieldsHold at h
    split at h
    · split_ifs at h
      · cases h
        trivial
      · exact ih h
    · rcases bind_eq_error.mp h with h | ⟨holds, -, h⟩
      · cases hcondition : Condition.ofValue field.2 with
        | value v =>
          rw [hcondition] at h
          cases h
        | operators terms =>
          rw [hcondition] at h
          exact allHold_invalid h
      · split_ifs at h
        exact ih h

/-! ## All documents -/

theorem satisfied_cases (h : fields.findSome? refusal? = some e) (doc : Document) :
    (satisfied true (.object (front fields)) doc = .ok false ∧
      satisfied true (.object fields) doc = .ok false) ∨
    (satisfied true (.object (front fields)) doc ≠ .ok false ∧
      ∃ e, satisfied true (.object fields) doc = .error e) := by
  simp only [satisfied, fieldsHold_front h]
  rcases fieldsHold true doc (front fields) with cause | (_ | _)
  · exact .inr ⟨nofun, cause, rfl⟩
  · exact .inl ⟨rfl, rfl⟩
  · exact .inr ⟨nofun, e, rfl⟩

/-- Either all documents fail the front and none is selected, or one does not and the query
fails. -/
theorem select_cases (h : fields.findSome? refusal? = some e) (docs : List Document) :
    ((∀ doc ∈ docs, satisfied true (.object (front fields)) doc = .ok false) ∧
      select true (.object fields) docs = .ok []) ∨
    ((∃ doc ∈ docs, satisfied true (.object (front fields)) doc ≠ .ok false) ∧
      ∃ e, select true (.object fields) docs = .error e ∧ e.Invalid) := by
  induction docs with
  | nil => exact .inl ⟨nofun, rfl⟩
  | cons doc docs ih =>
    rcases satisfied_cases h doc with ⟨hfront, hfails⟩ | ⟨hfront, cause, hcause⟩
    · have hselect : select true (.object fields) (doc :: docs) =
          select true (.object fields) docs := by
        rw [select, hfails]
        rfl
      rw [hselect, List.forall_mem_cons, List.exists_mem_cons_iff]
      exact ih.imp (And.imp_left (.intro hfront)) (And.imp_left .inr)
    · refine .inr ⟨⟨doc, List.mem_cons_self .., hfront⟩, cause, ?_, fieldsHold_invalid hcause⟩
      rw [select, hcause]
      rfl

/-- **A query with something to refuse** is refused exactly when a document gets to it. -/
theorem refused_iff_reached (h : ∃ field ∈ fields, Unsupported field) (docs : List Document) :
    (∀ field ∈ front fields, ¬ Unsupported field) ∧
      ((∃ e, select true (.object fields) docs = .error e ∧ e.Invalid) ↔
        ∃ doc ∈ docs, satisfied true (.object (front fields)) doc ≠ .ok false) ∧
      ((∀ doc ∈ docs, satisfied true (.object (front fields)) doc = .ok false) →
        select true (.object fields) docs = .ok []) := by
  have hsome : (fields.findSome? refusal?).isSome := by
    obtain ⟨field, hfield, hunsupported⟩ := h
    exact List.findSome?_isSome_iff.mpr ⟨field, hfield, isSome_refusal?_iff.mpr hunsupported⟩
  obtain ⟨e, he⟩ := Option.isSome_iff_exists.mp hsome
  refine ⟨fun field => not_unsupported_of_mem_front, ?_⟩
  rcases select_cases he docs with ⟨hfails, hselect⟩ | ⟨⟨doc, hdoc, hreached⟩, hselect⟩
  · refine ⟨⟨?_, ?_⟩, fun _ => hselect⟩
    · rintro ⟨cause, hcause, -⟩
      cases hselect.symm.trans hcause
    · rintro ⟨doc, hdoc, hreached⟩
      exact absurd (hfails doc hdoc) hreached
  · exact ⟨⟨fun _ => ⟨doc, hdoc, hreached⟩, fun _ => hselect⟩,
      fun hfails => absurd (hfails doc hdoc) hreached⟩

/-- A known operator and an unknown one. -/
def guardedTerms : List (String × Value) := [("$ne", .null), ("$regex", .str "x")]

/-- A query with an unknown operator in its second field. -/
def guardedQuery : Fields :=
  [(.str "a", .int 2), (.str "b", .object (Fields.ofEntries guardedTerms))]

theorem unsupported_guardedQuery : ∃ field ∈ guardedQuery, Unsupported field := by
  have hterms : Condition.ofValue (.object (Fields.ofEntries guardedTerms)) =
      .operators guardedTerms := ofValue_ofEntries (by simp [guardedTerms]) (by decide +kernel)
  have hunknown : ∃ term ∈ guardedTerms, hasKnown term = false :=
    ⟨_, List.mem_cons_of_mem _ (List.mem_singleton_self _), by decide +kernel⟩
  exact ⟨_, List.mem_cons_of_mem _ (List.mem_singleton_self _), .inr ⟨_, hterms, hunknown⟩⟩

theorem refused_iff_reached_guardedQuery :
    let docs : List Document := [[(.str "a", .int 1)], [(.str "a", .int 2), (.str "b", .int 3)]]
    (∃ field ∈ guardedQuery, Unsupported field) ∧
      (∀ field ∈ front guardedQuery, ¬ Unsupported field) ∧
      ((∃ e, select true (.object guardedQuery) docs = .error e ∧ e.Invalid) ↔
        ∃ doc ∈ docs, satisfied true (.object (front guardedQuery)) doc ≠ .ok false) ∧
      ((∀ doc ∈ docs, satisfied true (.object (front guardedQuery)) doc = .ok false) →
        select true (.object guardedQuery) docs = .ok []) := by
  intro docs
  exact ⟨unsupported_guardedQuery, refused_iff_reached unsupported_guardedQuery docs⟩

/-- **A query with something to refuse is let through** when no document gets to it. -/
theorem not_refused_unreached :
    ¬ ∀ (fields : Fields) (docs : List Document), (∃ field ∈ fields, Unsupported field) →
      ∃ e, select true (.object fields) docs = .error e ∧ e.Invalid := by
  intro hall
  obtain ⟨e, he, -⟩ := hall guardedQuery [[(.str "a", .int 1)]] unsupported_guardedQuery
  have hselects : (select true (.object guardedQuery) [[(.str "a", .int 1)]]).isOk = true := by
    decide +kernel
  rw [he] at hselects
  cases hselects

end Query

end SnapshotStore
