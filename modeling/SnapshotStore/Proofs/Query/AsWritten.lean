import SnapshotStore.Proofs.Pipeline.Key
import SnapshotStore.Proofs.Query.Times

/-!
# Asking with times and with their texts

A stored document holds the text of a time or date that it was given, and a query may ask with
either. `Value.timesWritten` puts texts in place of times and dates, in lists and objects too, as
cleaning a document does (`clean_timesWritten`).

**Theorem (`asked_as_written`).** A query that does not ask for an order is satisfied by the same
documents before and after its times are written. So a document that can be stored satisfies, once
it is stored, the query that it is itself, if that asks only for values.

Agreement takes an asked time for its text wherever it comes upon one, and it goes into lists and
objects just where `timesWritten` does. So it sees the same texts either way, and this needs nothing
of the two values (`agrees_timesWritten`).
-/

namespace SnapshotStore

namespace Value

mutual

/-- The value with texts for times and dates, in lists and in the values of objects as well. -/
def timesWritten : Value → Value
  | .list items => .list (timesWrittenAll items)
  | .object fields => .object (timesWrittenFields fields)
  | v => v.asAsked

/-- Values with texts for times and dates. -/
def timesWrittenAll : List Value → List Value
  | [] => []
  | v :: vs => timesWritten v :: timesWrittenAll vs

/-- Fields with texts for the times and dates in their values. -/
def timesWrittenFields : Fields → Fields
  | [] => []
  | (k, v) :: fields => (k, timesWritten v) :: timesWrittenFields fields

end

theorem timesWrittenAll_eq_map (items : List Value) :
    timesWrittenAll items = items.map timesWritten := by
  induction items with
  | nil => rfl
  | cons v vs ih => rw [timesWrittenAll, ih, List.map_cons]

theorem timesWrittenFields_eq_map (fields : Fields) :
    timesWrittenFields fields = fields.map fun field => (field.1, field.2.timesWritten) := by
  induction fields with
  | nil => rfl
  | cons field fields ih => rw [timesWrittenFields, ih, List.map_cons]

/-- Made of what JSON holds, of times and of dates. -/
def IsDated (v : Value) : Prop := v.timesWritten.isJson (fun _ => true) = true

/-! ## Agreement -/

theorem get?_timesWritten (fields : Fields) (key : Value) :
    Fields.get? (timesWrittenFields fields) key = (Fields.get? fields key).map timesWritten := by
  rw [timesWrittenFields_eq_map, Fields.get?, Fields.get?, List.find?_map, Option.map_map,
    Option.map_map]
  rfl

theorem sameKeys_timesWritten (fields others : Fields) :
    Fields.sameKeys fields (timesWrittenFields others) = Fields.sameKeys fields others := by
  simp only [Fields.sameKeys, get?_timesWritten, Option.isSome_map]
  rw [timesWrittenFields_eq_map, List.length_map]

/-- A list or an object agrees with nothing of another kind. -/
theorem agrees_eq_false_of_kind {stored asked : Value}
    (hasked : (∃ items, asked = .list items) ∨ ∃ fields, asked = .object fields)
    (hkind : stored.kindName ≠ asked.kindName) : stored.agrees asked = false := by
  have hplace : asked.place? = none ∧ asked.undefinedTag? = none := by
    rcases hasked with ⟨items, rfl⟩ | ⟨fields, rfl⟩ <;> exact ⟨rfl, rfl⟩
  have hnumbers := Group.not_alikeNumbers (a := stored) hplace.1 hplace.2
  rcases hasked with ⟨items, rfl⟩ | ⟨fields, rfl⟩ <;> cases stored <;>
    simp_all [agrees, asAsked, equals, alike, kindName]

mutual

/-- **A value is asked for as its times are written.** -/
theorem agrees_timesWritten (stored asked : Value) :
    stored.agrees asked.timesWritten = stored.agrees asked := by
  cases asked with
  | list ys =>
    rw [timesWritten]
    cases stored with
    | list xs =>
      simp only [agrees, asAsked]
      exact agreesAll_timesWritten xs ys
    | _ => rw [agrees_eq_false_of_kind (.inl ⟨_, rfl⟩) (by simp [kindName]),
        agrees_eq_false_of_kind (.inl ⟨_, rfl⟩) (by simp [kindName])]
  | object others =>
    rw [timesWritten]
    cases stored with
    | object fields =>
      simp only [agrees, asAsked, sameKeys_timesWritten]
      rw [agreesFields_timesWritten fields others]
    | _ => rw [agrees_eq_false_of_kind (.inr ⟨_, rfl⟩) (by simp [kindName]),
        agrees_eq_false_of_kind (.inr ⟨_, rfl⟩) (by simp [kindName])]
  | datetime t | date d =>
    unfold agrees
    rfl
  | _ => rfl

theorem agreesAll_timesWritten : ∀ xs ys : List Value,
    agreesAll xs (timesWrittenAll ys) = agreesAll xs ys
  | [], ys => by
    cases ys <;> rfl
  | x :: xs, [] => rfl
  | x :: xs, y :: ys => by
    rw [timesWrittenAll, agreesAll, agreesAll, agrees_timesWritten x y,
      agreesAll_timesWritten xs ys]

theorem agreesFields_timesWritten : ∀ fields others : Fields,
    agreesFields fields (timesWrittenFields others) = agreesFields fields others
  | [], _ => rfl
  | (k, v) :: fields, others => by
    rw [agreesFields, agreesFields, get?_timesWritten, agreesFields_timesWritten fields others]
    cases Fields.get? others k with
    | none => rfl
    | some w =>
      rw [Option.map_some]
      simp only [agrees_timesWritten v w]

end

theorem truthy_timesWritten (v : Value) : v.timesWritten.truthy = v.truthy := by
  cases v with
  | list items =>
    cases items <;> simp [timesWritten, timesWrittenAll, truthy]
  | object fields =>
    cases fields <;> simp [timesWritten, timesWrittenFields, truthy]
  | datetime t =>
    have htext : t.text ≠ [] := by simp [DateTime.text, DateTime.textWith]
    simp [timesWritten, asAsked, truthy, htext]
  | date d =>
    have htext : d.text ≠ [] := by simp [Date.text]
    simp [timesWritten, asAsked, truthy, htext]
  | _ => rfl

/-! ## Cleaning -/

mutual

/-- **Cleaning writes times** before anything else. -/
theorem clean_timesWritten (v : Value) :
    v.timesWritten.clean Document.storedStyle = v.clean Document.storedStyle := by
  cases v with
  | list items => rw [timesWritten, clean, clean, cleanAll_timesWritten items]
  | object fields => rw [timesWritten, clean, clean, cleanFields_timesWritten fields]
  | _ => rfl

theorem cleanAll_timesWritten : ∀ vs : List Value,
    cleanAll Document.storedStyle (timesWrittenAll vs) = cleanAll Document.storedStyle vs
  | [] => rfl
  | v :: vs => by
    rw [timesWrittenAll, cleanAll, cleanAll, clean_timesWritten v, cleanAll_timesWritten vs]

theorem cleanFields_timesWritten : ∀ fields : Fields,
    Value.cleanFields Document.storedStyle (timesWrittenFields fields) =
      Value.cleanFields Document.storedStyle fields
  | [] => rfl
  | (k, v) :: fields => by
    rw [timesWrittenFields, Value.cleanFields, Value.cleanFields, clean_timesWritten v,
      cleanFields_timesWritten fields]

end

theorem eq_of_cleanAll {vs ws : List Value} (h : cleanAll Document.storedStyle vs = .ok ws)
    (hkept : ∀ v ∈ vs, ∀ w, v.clean Document.storedStyle = .ok w → w = v) : ws = vs := by
  induction vs generalizing ws with
  | nil =>
    cases h
    rfl
  | cons v vs ih =>
    rw [List.forall_mem_cons] at hkept
    obtain ⟨w, hw, h⟩ := bind_eq_ok.mp h
    obtain ⟨ws, hws, h⟩ := bind_eq_ok.mp h
    cases h
    rw [hkept.1 w hw, ih hws hkept.2]

theorem eq_of_cleanFields {entries : List (String × Value)} {fields : Fields}
    (h : Value.cleanFields Document.storedStyle (Fields.ofEntries entries) = .ok fields)
    (hkept : ∀ entry ∈ entries, ∀ w, entry.2.clean Document.storedStyle = .ok w → w = entry.2) :
    fields = Fields.ofEntries entries := by
  induction entries generalizing fields with
  | nil =>
    cases h
    rfl
  | cons entry entries ih =>
    obtain ⟨key, v⟩ := entry
    rw [List.forall_mem_cons] at hkept
    obtain ⟨text, htext, h⟩ := bind_eq_ok.mp h
    obtain ⟨w, hw, h⟩ := bind_eq_ok.mp h
    obtain ⟨fields, hfields, h⟩ := bind_eq_ok.mp h
    cases h
    cases htext
    rw [hkept.1 w hw, ih hfields hkept.2, String.ofList_toList, Fields.ofEntries_cons]

/-- What JSON holds is stored as it is, if it can be stored. -/
theorem eq_of_clean_isJson {v w : Value} (hv : v.isJson (fun _ => true) = true)
    (h : v.clean Document.storedStyle = .ok w) : w = v := by
  induction v, hv using isJson_induction generalizing w with
  | null | bool b | str s =>
    cases h
    rfl
  | int n _ =>
    rw [clean] at h
    obtain ⟨text, -, h⟩ := bind_eq_ok.mp h
    cases h
    rfl
  | float x _ =>
    cases x with
    | nan tag =>
      rw [clean] at h
      obtain ⟨text, htext, h⟩ := bind_eq_ok.mp h
      cases htext
    | finite x | infinite negative =>
      simp only [clean] at h
      obtain ⟨text, -, h⟩ := bind_eq_ok.mp h
      cases h
      rfl
  | list items _ ih =>
    rw [clean] at h
    obtain ⟨ws, hws, h⟩ := bind_eq_ok.mp h
    cases h
    rw [eq_of_cleanAll hws fun v hv w => ih v hv]
  | object entries hkeys _ ih =>
    rw [clean] at h
    obtain ⟨fields, hfields, h⟩ := bind_eq_ok.mp h
    cases h
    rw [eq_of_cleanFields hfields fun entry hentry w => ih entry hentry,
      Fields.ofPairs_ofEntries hkeys]

/-- **What is stored of a dated value** is the value with its times written, if its numbers can be
stored. -/
theorem IsDated.clean_iff {v w : Value} (h : v.IsDated) :
    v.clean Document.storedStyle = .ok w ↔
      w = v.timesWritten ∧ v.timesWritten.isJson Document.storedStyle.admits = true := by
  rw [← clean_timesWritten]
  constructor
  · intro hclean
    obtain rfl := eq_of_clean_isJson h hclean
    exact ⟨rfl, isJson_clean _ _ hclean⟩
  · rintro ⟨rfl, hjson⟩
    exact clean_stored_of_isJson hjson

theorem agrees_self {v : Value} (h : v.isJson Document.storedStyle.admits = true) :
    v.agrees v = true := by
  have hdefined : v.isJson Number.isDefined = true := isJson_mono
    (fun n hn => Number.isDefined_of_isFinite (Bool.and_eq_true_iff.mp hn).2) h
  exact (Group.agrees_iff_normal hdefined v hdefined).mpr rfl

end Value

/-! ## Operators -/

namespace Operator

variable {op : Operator}

theorem member_timesWritten (op : Operator) (stored : Option Value) (argument : Value) :
    op.member stored argument.timesWritten = op.member stored argument := by
  cases argument with
  | list items =>
    have hany (v : Value) : (items.map Value.timesWritten).any v.agrees = items.any v.agrees := by
      rw [List.any_map]
      exact congrArg (items.any ·) (funext fun w => v.agrees_timesWritten w)
    simp only [Value.timesWritten, Value.timesWrittenAll_eq_map, member, Value.members?, hany]
  | _ => rfl

/-- **An operator that asks for no order** holds of the same values when its times are written. -/
theorem holds_timesWritten (h : op.accepts? = none) (stored : Option Value) (argument : Value) :
    op.holds stored argument.timesWritten = op.holds stored argument := by
  cases op with
  | equal | notEqual =>
    cases stored with
    | none => rfl
    | some v => simp only [holds, v.agrees_timesWritten]
  | within | notWithin => simp only [holds, member_timesWritten]
  | present => simp only [holds, Value.truthy_timesWritten]
  | greater | greaterOrEqual | less | lessOrEqual => cases h

end Operator

/-! ## Queries -/

namespace Query

/-- None of the operators in a query asks how two values compare. -/
def AsksNoOrder (query : Value) : Prop :=
  ∀ fields, query = .object fields → ∀ field ∈ fields, ∀ terms,
    Condition.ofValue field.2 = .operators terms → ∀ term ∈ terms, ∀ op,
      Operator.ofName? term.1 = some op → op.accepts? = none

variable {strict : Bool} {doc : Document} {fields : Fields}

theorem allHold_timesWritten {terms : List (String × Value)} {stored : Option Value}
    (h : ∀ term ∈ terms, ∀ op, Operator.ofName? term.1 = some op → op.accepts? = none) :
    allHold strict stored (terms.map fun term => (term.1, term.2.timesWritten)) =
      allHold strict stored terms := by
  induction terms with
  | nil => rfl
  | cons term terms ih =>
    obtain ⟨name, argument⟩ := term
    rw [List.forall_mem_cons] at h
    rw [List.map_cons, allHold, allHold, ih h.2]
    cases hop : Operator.ofName? name with
    | none => rfl
    | some op => simp only [Operator.holds_timesWritten (h.1 op hop)]

theorem mapM_map_of_comm {α β : Type} {f : α → Option β} {before : α → α} {after : β → β}
    (h : ∀ x, f (before x) = (f x).map after) (xs : List α) :
    (xs.map before).mapM f = (xs.mapM f).map (List.map after) := by
  induction xs with
  | nil => rfl
  | cons x xs ih =>
    rw [List.map_cons, List.mapM_cons, List.mapM_cons, ih, h]
    cases f x with
    | none => rfl
    | some y => cases xs.mapM f <;> rfl

/-- Writing times leaves the keys, and so the operators, of an object. -/
theorem operators?_timesWritten (fields : Fields) :
    operators? (Value.timesWrittenFields fields) =
      (operators? fields).map fun terms => terms.map fun term => (term.1, term.2.timesWritten) := by
  rw [Value.timesWrittenFields_eq_map]
  unfold operators?
  rw [List.isEmpty_map]
  split_ifs
  · rfl
  · refine mapM_map_of_comm (fun field => ?_) fields
    dsimp only
    cases operatorKey? field.1 <;> rfl

theorem holds_timesWritten {condition : Value} {stored : Option Value}
    (h : ∀ terms, Condition.ofValue condition = .operators terms → ∀ term ∈ terms, ∀ op,
      Operator.ofName? term.1 = some op → op.accepts? = none) :
    (Condition.ofValue condition.timesWritten).holds strict stored =
      (Condition.ofValue condition).holds strict stored := by
  have hvalue (v : Value) : (Condition.value v.timesWritten).holds strict stored =
      (Condition.value v).holds strict stored := by
    cases stored with
    | none => rfl
    | some w => simp only [Condition.holds, w.agrees_timesWritten]
  cases condition with
  | object fields =>
    cases hterms : operators? fields with
    | none =>
      have hvalue := hvalue (.object fields)
      simp only [Value.timesWritten, Condition.ofValue, operators?_timesWritten, hterms,
        Option.map_none] at hvalue ⊢
      exact hvalue
    | some terms =>
      have hcondition : Condition.ofValue (.object fields) = .operators terms := by
        rw [Condition.ofValue, hterms]
      simp only [Value.timesWritten, Condition.ofValue, operators?_timesWritten, hterms,
        Option.map_some, Condition.holds]
      exact allHold_timesWritten (h terms hcondition)
  | _ => exact hvalue _

theorem fieldsHold_timesWritten
    (h : ∀ field ∈ fields, ∀ terms, Condition.ofValue field.2 = .operators terms →
      ∀ term ∈ terms, ∀ op, Operator.ofName? term.1 = some op → op.accepts? = none) :
    fieldsHold strict doc (Value.timesWrittenFields fields) = fieldsHold strict doc fields := by
  induction fields with
  | nil => rfl
  | cons field fields ih =>
    obtain ⟨key, condition⟩ := field
    rw [List.forall_mem_cons] at h
    simp only [Value.timesWrittenFields, fieldsHold, ih h.2, holds_timesWritten h.1]

/-- **A query that asks for no order** is satisfied by the same documents when its times are
written. -/
theorem satisfied_timesWritten {query : Value} (h : AsksNoOrder query) :
    satisfied strict query.timesWritten doc = satisfied strict query doc := by
  cases query with
  | object fields => exact fieldsHold_timesWritten (h fields rfl)
  | _ => rfl

/-- A query for values is satisfied by a document that holds values which agree with them. -/
theorem fieldsHold_of_agrees (h : ∀ field ∈ fields, operatorKey? field.1 = none ∧
    Condition.ofValue field.2 = .value field.2 ∧
      ∃ v, Fields.get? doc field.1 = some v ∧ v.agrees field.2 = true) :
    fieldsHold strict doc fields = .ok true := by
  induction fields with
  | nil => rfl
  | cons field fields ih =>
    rw [List.forall_mem_cons] at h
    obtain ⟨⟨hkey, hcondition, v, hv, hagrees⟩, hfields⟩ := h
    simp only [fieldsHold, hkey, hcondition, Condition.holds, hv, hagrees, ih hfields]
    rfl

/-- A document that can be stored satisfies, once it is stored, the query that it is itself. -/
theorem satisfied_self
    (hjson : (Value.object fields).timesWritten.isJson Document.storedStyle.admits = true)
    (hvalues : ∀ field ∈ fields, operatorKey? field.1 = none ∧
      Condition.ofValue field.2 = .value field.2) :
    satisfied strict (.object fields) (Value.timesWrittenFields fields) = .ok true := by
  refine fieldsHold_of_agrees fun field hfield => ?_
  obtain ⟨hkey, hcondition⟩ := hvalues field hfield
  have hmem : (field.1, field.2.timesWritten) ∈ Value.timesWrittenFields fields := by
    rw [Value.timesWrittenFields_eq_map]
    exact List.mem_map_of_mem hfield
  rw [Value.timesWritten] at hjson
  obtain ⟨entries, hentries, hkeys, hall⟩ := Value.isJson_object hjson
  rw [hentries] at hmem ⊢
  obtain ⟨key, hname, hentry⟩ := Fields.mem_ofEntries.mp hmem
  refine ⟨hkey, hcondition, field.2.timesWritten, ?_, ?_⟩
  · rw [hname]
    exact (Fields.getText?_ofEntries_eq_some hkeys).mpr hentry
  · rw [← Value.agrees_timesWritten]
    exact Value.agrees_self (hall _ hentry)

end Query

namespace Document

theorem normalize_object_iff {fields : Fields} {doc : Document} :
    normalize (.object fields) = .ok doc ↔
      (Value.object fields).clean storedStyle = .ok (.object doc) := by
  rw [normalize, mapError_eq_ok, cleanFields, Value.clean, bind_eq_ok, bind_eq_ok]
  simp only [Except.ok.injEq, Value.object.injEq]

end Document

namespace Query

/-- **Times are asked for as they are written,** by themselves, within lists and objects, and
by every query that asks for no order. What is stored of a dated document is the document with its
times written, and that satisfies the document as a query if it asks only for values. -/
theorem asked_as_written :
    (∀ stored asked : Value, stored.agrees asked.timesWritten = stored.agrees asked) ∧
    (∀ strict query doc, AsksNoOrder query →
      satisfied strict query.timesWritten doc = satisfied strict query doc) ∧
    ∀ fields : Fields, (Value.object fields).IsDated →
      ((∃ doc, Document.normalize (.object fields) = .ok doc) ↔
        (Value.object fields).timesWritten.isJson Document.storedStyle.admits = true) ∧
      ∀ doc, Document.normalize (.object fields) = .ok doc →
        .object doc = (Value.object fields).timesWritten ∧
        ((∀ field ∈ fields, operatorKey? field.1 = none ∧
            Condition.ofValue field.2 = .value field.2) →
          ∀ strict, satisfied strict (.object fields) doc = .ok true) := by
  refine ⟨Value.agrees_timesWritten, fun _ _ _ => satisfied_timesWritten, fun fields hdated => ?_⟩
  have hwritten :
      (Value.object fields).timesWritten = .object (Value.timesWrittenFields fields) := by
    rw [Value.timesWritten]
  constructor
  · simp only [Document.normalize_object_iff, hdated.clean_iff]
    constructor
    · rintro ⟨doc, -, hjson⟩
      exact hjson
    · exact fun hjson => ⟨_, hwritten.symm, hjson⟩
  · intro doc hdoc
    obtain ⟨heq, hjson⟩ := hdated.clean_iff.mp (Document.normalize_object_iff.mp hdoc)
    obtain rfl := Value.object.inj (heq.trans hwritten)
    exact ⟨heq, fun hvalues strict => satisfied_self hjson hvalues⟩

/-- A document with a time and, in a list, an object with a date. -/
def datedFields : Fields :=
  [(.str "at", .datetime lateEvening),
    (.str "days", .list [.object [(.str "$on", .date lateEvening.date)], .null])]

/-- It is found by itself, and by its times in a query of another form. -/
theorem asked_as_written_datedFields :
    (Value.object datedFields).IsDated ∧
      ∃ doc, Document.normalize (.object datedFields) = .ok doc ∧
        satisfied true (.object datedFields) doc = .ok true ∧
        AsksNoOrder (.object datedFields) ∧
        satisfied true (Value.object datedFields).timesWritten doc = .ok true := by
  have hdated : (Value.object datedFields).IsDated := by
    unfold Value.IsDated
    decide +kernel
  obtain ⟨-, hqueries, hown⟩ := asked_as_written
  obtain ⟨hstored, hself⟩ := hown datedFields hdated
  obtain ⟨doc, hdoc⟩ := hstored.mpr (by decide +kernel)
  have hvalues : ∀ field ∈ datedFields, operatorKey? field.1 = none ∧
      Condition.ofValue field.2 = .value field.2 := by
    intro field hfield
    rcases List.mem_pair.mp hfield with rfl | rfl <;> exact ⟨by decide, rfl⟩
  have horder : AsksNoOrder (.object datedFields) := by
    rintro _ ⟨⟩ field hfield terms hterms
    rw [(hvalues field hfield).2] at hterms
    cases hterms
  have hsatisfied := (hself doc hdoc).2 hvalues true
  exact ⟨hdated, doc, hdoc, hsatisfied, horder, (hqueries true _ doc horder).trans hsatisfied⟩

end Query

end SnapshotStore
