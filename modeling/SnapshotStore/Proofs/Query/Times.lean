import SnapshotStore.Proofs.Document.Given
import SnapshotStore.Proofs.Query.Strict
import SnapshotStore.Proofs.Time.Reader

/-!
# Stored times compare as times

A stored document holds the text of a time or date that a caller gave it (`Moment`). Asked for by
another one, the text is read back as what the asked one is: as a time beside a time, as a date
beside a date.

**Theorem (`satisfied_moment`).** The operators of comparison hold as the two moments stand to each
other (`Moment.order?`): two times as written if neither has an offset, as instants if both have
one, and not at all if one has an offset and the other has none; a date beside a time is its
midnight, and beside a date only dates count. A moment is equal to those with the same text.

An offset is read back if it is a whole number of minutes, so this is asked of the stored moment. It
need not be asked of the other one, whose text is never read.
-/

namespace SnapshotStore

/-! ## Moments -/

/-- A time or a date, as callers give it. -/
inductive Moment where
  | time (t : DateTime)
  | day (d : Date)

namespace Moment

/-- The moment as a value. -/
def value : Moment → Value
  | time t => .datetime t
  | day d => .date d

/-- The moment as it is written. -/
def text : Moment → List Char
  | time t => t.text
  | day d => d.text

/-- The date as it is written. -/
def date : Moment → Date
  | time t => t.date
  | day d => d

/-- The time that a moment is: a date is its midnight. -/
def asTime : Moment → DateTime
  | time t => t
  | day d => .ofDate d

/-- The offset, if there is one, is a whole number of minutes. -/
def WholeMinutes (x : Moment) : Prop := ∀ o ∈ x.asTime.offset, o.InMinutes

/-- Dates by year, then month, then day. -/
def compareDates (c d : Date) : Ordering :=
  (compare c.year d.year).then ((compare c.month d.month).then (compare c.day d.day))

/-- Two times: as written, or as instants. -/
def compareTimes? (s t : DateTime) : Option Ordering :=
  match s.offset, t.offset with
  | none, none => some ((compareDates s.date t.date).then (compare s.clock.micros t.clock.micros))
  | some a, some b => some (compare (s.localMicros - a.micros) (t.localMicros - b.micros))
  | _, _ => none

/-- How a stored moment stands to an asked one. -/
def order? (stored asked : Moment) : Option Ordering :=
  match asked with
  | time t => compareTimes? stored.asTime t
  | day d => some (compareDates stored.date d)

theorem compareDates_eq (c d : Date) : compareDates c d = c.compare d := (c.compare_eq d).symm

theorem compareTimes?_eq (s t : DateTime) : compareTimes? s t = s.compare? t := by
  unfold compareTimes? DateTime.compare? DateTime.comparable
  obtain ⟨date, clock, offset⟩ := s
  obtain ⟨date', clock', offset'⟩ := t
  cases offset with
  | none =>
    cases offset' with
    | none =>
      have hwritten := DateTime.compare_localMicros ⟨date, clock, none⟩ ⟨date', clock', none⟩
      simp only [compareDates_eq, Option.isSome_none, beq_self_eq_true, if_true, DateTime.instant,
        Int.sub_zero, hwritten]
    | some b => rfl
  | some a => cases offset' <;> rfl

end Moment

/-! ## Reading back -/

namespace Moment

variable {x : Moment}

/-- Beside a time, a stored moment is read as a time. -/
theorem ofText?_text (h : x.WholeMinutes) : DateTime.ofText? x.text = some x.asTime :=
  match x with
  | time _ => DateTime.ofText?_text h
  | day d => DateTime.ofText?_dateText d

/-- Beside a date, a stored moment is read as a date. -/
theorem ofText?_take (x : Moment) : Date.ofText? (x.text.take 10) = some x.date :=
  match x with
  | time t => Date.ofText?_take t.date _
  | day d => by
    have hread := Date.ofText?_take d []
    rwa [List.append_nil] at hread

theorem clean_value (x : Moment) :
    x.value.clean Document.storedStyle = .ok (.str (String.ofList x.text)) := by
  cases x <;> rfl

/-- The text of a stored moment compares with an asked one as the moments do. -/
theorem relate?_text (h : x.WholeMinutes) (y : Moment) :
    Operator.relate? (some (.str (String.ofList x.text))) y.value =
      (x.order? y).map .ofOrdering := by
  cases y with
  | time t =>
    simp only [Operator.relate?, value, Operator.aligned?, String.toList_ofList, ofText?_text h,
      Option.map_some, Option.bind_some, bind, order?, compareTimes?_eq, Value.relate?]
  | day d =>
    simp only [Operator.relate?, value, Operator.aligned?, String.toList_ofList, ofText?_take,
      Option.map_some, Option.bind_some, bind, order?, compareDates_eq, Value.relate?]

theorem agrees_text (x y : Moment) :
    (Value.str (String.ofList x.text)).agrees y.value = (x.text == y.text) := by
  have htexts : (String.ofList x.text == String.ofList y.text) = (x.text == y.text) := by
    rw [Bool.eq_iff_iff, beq_iff_eq, beq_iff_eq, String.ofList_inj]
  rw [← htexts]
  cases y <;>
    simp [Value.agrees, value, text, Value.asAsked, Value.equals, Value.undefinedTag?, Value.alike]

end Moment

/-! ## Operators -/

namespace Operator

theorem ofName?_name (op : Operator) : ofName? op.name = some op := by
  cases op <;> decide

theorem isDollar_name (op : Operator) : Value.isDollar op.name = true := by
  cases op <;> decide

/-- The orders that an operator of comparison accepts. -/
def accepts? : Operator → Option (Ordering → Bool)
  | greater => some (·.isGT)
  | greaterOrEqual => some (·.isGE)
  | less => some (·.isLT)
  | lessOrEqual => some (·.isLE)
  | _ => none

theorem holds_of_accepts {op : Operator} {accepts : Ordering → Bool}
    (h : op.accepts? = some accepts)
    {stored : Option Value} {argument : Value} {order : Option Ordering}
    (horder : relate? stored argument = order.map .ofOrdering) :
    op.holds stored argument = .ok (order.any accepts) := by
  cases op <;> cases h <;> simp only [holds, horder] <;> rcases order with _ | _ | _ | _ <;> rfl

end Operator

namespace Query

/-- A query for one operator of one field. -/
theorem satisfied_operator {name : String} (hname : Value.isDollar name = false) (strict : Bool)
    (op : Operator) (argument : Value) (doc : Document) :
    satisfied strict (.object [(.str name, .object [(.str op.name, argument)])]) doc =
      op.holds (Fields.getText? doc name) argument := by
  have hkey : operatorKey? (.str name) = none := by simp only [operatorKey?, hname]; rfl
  have hcondition : Condition.ofValue (.object [(.str op.name, argument)]) =
      .operators [(op.name, argument)] := by
    have hterms : operators? [(.str op.name, argument)] = some [(op.name, argument)] :=
      operators?_eq_some.mpr ⟨List.cons_ne_nil _ _, rfl, by simpa using op.isDollar_name⟩
    rw [Condition.ofValue, hterms]
  simp only [satisfied, fieldsHold, hkey, hcondition, Condition.holds, allHold, op.ofName?_name]
  change _ = op.holds (Fields.get? doc (.str name)) argument
  cases op.holds (Fields.get? doc (.str name)) argument with
  | error e => rfl
  | ok b => cases b <;> rfl

/-- **Stored times compare as times.** -/
theorem satisfied_moment {fields : Fields} {doc : Document} {name : String} {x : Moment}
    (hstored : Document.normalize (.object fields) = .ok doc)
    (hgiven : Document.given? fields name = some x.value) (hminutes : x.WholeMinutes)
    (hname : Value.isDollar name = false) (strict : Bool) (y : Moment) :
    (∀ op accepts, Operator.accepts? op = some accepts →
      satisfied strict (.object [(.str name, .object [(.str op.name, y.value)])]) doc =
        .ok ((x.order? y).any accepts)) ∧
      satisfied strict (.object [(.str name, .object [(.str "$eq", y.value)])]) doc =
        .ok (x.text == y.text) := by
  obtain ⟨w, hw, hheld⟩ := Document.exists_getText?_normalize hstored hgiven
  rw [x.clean_value] at hw
  cases hw
  constructor
  · intro op accepts haccepts
    rw [satisfied_operator hname, hheld]
    exact Operator.holds_of_accepts haccepts (Moment.relate?_text hminutes y)
  · have hequal := satisfied_operator hname strict .equal y.value doc
    rw [hheld] at hequal
    rw [← x.agrees_text]
    exact hequal

/-- The last moment of a January, two hours ahead of universal time. -/
def lateEvening : DateTime :=
  ⟨⟨2023, 1, 31, by decide, by decide⟩,
    ⟨23, 59, 59, 999999, by decide, by decide, by decide, by decide⟩, some ⟨7200000000, by decide⟩⟩

/-- The midnight after it in universal time. -/
def nextMidnight : DateTime := ⟨⟨2023, 2, 1, by decide, by decide⟩, .midnight, some .zero⟩

theorem satisfied_moment_lateEvening :
    ∃ doc, Document.normalize (.object [(.str "at", .datetime lateEvening)]) = .ok doc ∧
      satisfied true (.object [(.str "at", .object [(.str "$lt", .datetime nextMidnight)])]) doc =
        .ok true ∧
      satisfied true (.object [(.str "at", .object [(.str "$eq", .datetime lateEvening)])]) doc =
        .ok true := by
  have hminutes : (Moment.time lateEvening).WholeMinutes := by
    intro o ho
    cases ho
    rfl
  obtain ⟨doc, hstored⟩ :
      ∃ doc, Document.normalize (.object [(.str "at", .datetime lateEvening)]) = .ok doc :=
    ⟨_, rfl⟩
  have hgiven : Document.given? [(.str "at", .datetime lateEvening)] "at" =
      some (Moment.time lateEvening).value := rfl
  have hmoment := satisfied_moment hstored hgiven hminutes rfl true
  refine ⟨doc, hstored, ?_, ?_⟩
  · exact (hmoment (.time nextMidnight)).1 .less _ rfl
  · exact (hmoment (.time lateEvening)).2.trans (by rw [beq_self_eq_true])

end Query

end SnapshotStore
