import SnapshotStore.Proofs.Pipeline.Sorted
import SnapshotStore.Proofs.Sort.Neighbours
import SnapshotStore.Proofs.Value.Json

/-!
# Sorting documents without a value

Documents are sorted by the numbers under one key, and some have none. Such a document is tied with
every other one, so it is a gap: whether documents on its two sides are compared depends on the runs
of the input and on where elements are inserted.

**Theorem (`ranked_where_gaps_separate`).** Neighbours that have numbers are in order. If every gap
of the input separates, so that no number in front of it should stand behind one behind it, then all
numbers come out in order, wherever the gaps are. Documents whose neighbours are in order already
stay as they are, and then the numbers are in order only if every gap separates.

**Theorem (`not_ranked_around_gap`).** So a single gap may keep two numbers out of order.

That gaps separate says that the comparisons are consistent (`consistent_of_gapsSeparate`), which is
all that the sort needs.
-/

namespace SnapshotStore.Pipeline

/-- The number that a document has under a key. -/
def numberUnder? (key : Value) (doc : Document) : Option Place := (valueUnder key doc).place?

/-- The numbers that documents have under a key, as the documents stand. -/
def numbersUnder (key : Value) (docs : List Document) : List Place :=
  docs.filterMap (numberUnder? key)

/-- The first of two numbers may stand in front of the second in a direction. -/
def InOrder (direction : Value) (p q : Place) : Prop :=
  inDirection direction Place.compare p q ≠ .gt

instance (direction : Value) (p q : Place) : Decidable (InOrder direction p q) :=
  inferInstanceAs (Decidable (_ ≠ _))

/-- If two documents both have a number, the numbers are in order. -/
def NumbersInOrder (key direction : Value) (a b : Document) : Prop :=
  ∀ p ∈ numberUnder? key a, ∀ q ∈ numberUnder? key b, InOrder direction p q

/-- A document has a number or nothing under a key. -/
def NumberOrNone (key : Value) (doc : Document) : Prop :=
  valueUnder key doc = .null ∨ (numberUnder? key doc).isSome

/-- Numbers on the two sides of a document without one are in order. -/
def GapsSeparate (key direction : Value) (docs : List Document) : Prop :=
  docs.Triplewise fun a gap b => numberUnder? key gap = none → NumbersInOrder key direction a b

variable {key direction : Value} {a b : Document} {docs : List Document}

instance : Std.TransCmp Place.compare := inferInstanceAs (Std.TransOrd Place)

theorem valueUnder_cons_self (name : String) (v : Value) (fields : Fields) :
    valueUnder (.str name) ((.str name, v) :: fields) = v :=
  congrArg (·.getD .null) (Fields.getText?_cons_self name v fields)

/-- A document without a number compares with none. -/
theorem isGreater_of_gap (ha : NumberOrNone key a) (hb : NumberOrNone key b)
    (hgap : numberUnder? key a = none ∨ numberUnder? key b = none) :
    (valueUnder key a).isGreater (valueUnder key b) = false := by
  rcases hgap with hgap | hgap
  · rw [ha.resolve_right (by simp [hgap])]
    rfl
  · rw [hb.resolve_right (by simp [hgap])]
    cases valueUnder key a <;> rfl

theorem goesBefore_of_gap (ha : NumberOrNone key a) (hb : NumberOrNone key b)
    (hgap : numberUnder? key a = none ∨ numberUnder? key b = none) :
    goesBefore [(key, direction)] a b = false := by
  rw [goesBefore_cons, isGreater_of_gap ha hb hgap, isGreater_of_gap hb ha hgap.symm]
  rfl

theorem goesBefore_of_numbers {p q : Place} (hp : numberUnder? key a = some p)
    (hq : numberUnder? key b = some q) :
    goesBefore [(key, direction)] a b = (inDirection direction Place.compare p q == .lt) := by
  have hswap : q.compare p = (p.compare q).swap := Std.OrientedCmp.eq_swap
  rw [goesBefore_cons, Value.isGreater_of_places hp hq, Value.isGreater_of_places hq hp, hswap,
    inDirection_eq]
  simp only [isDescending]
  cases p.compare q <;> cases direction.equals (.int (-1)) <;> rfl

/-- A document goes before another one where both have numbers and these are strictly in order. -/
theorem goesBefore_iff_numbers (ha : NumberOrNone key a) (hb : NumberOrNone key b) :
    goesBefore [(key, direction)] a b = true ↔
      ∃ p ∈ numberUnder? key a, ∃ q ∈ numberUnder? key b,
        inDirection direction Place.compare p q = .lt := by
  cases hp : numberUnder? key a with
  | none => simp [goesBefore_of_gap ha hb (.inl hp)]
  | some p =>
    cases hq : numberUnder? key b with
    | none => simp [goesBefore_of_gap ha hb (.inr hq)]
    | some q => simp [goesBefore_of_numbers hp hq]

theorem numbersInOrder_iff (ha : NumberOrNone key a) (hb : NumberOrNone key b) :
    NumbersInOrder key direction a b ↔ goesBefore [(key, direction)] b a = false := by
  rw [← Bool.not_eq_true, goesBefore_iff_numbers hb ha]
  simp only [not_exists, not_and, NumbersInOrder, InOrder, Ne, Std.OrientedCmp.gt_iff_lt]
  exact ⟨fun h q hq p hp => h p hp q hq, fun h p hp q hq => h q hq p hp⟩

theorem goesBefore_asymm_of_numbers (ha : NumberOrNone key a) (hb : NumberOrNone key b)
    (h : goesBefore [(key, direction)] a b = true) :
    goesBefore [(key, direction)] b a = false := by
  rw [← numbersInOrder_iff ha hb]
  obtain ⟨p, hp, q, hq, hlt⟩ := (goesBefore_iff_numbers ha hb).mp h
  intro p' hp' q' hq' hgt
  obtain rfl : p = p' := Option.mem_unique hp hp'
  obtain rfl : q = q' := Option.mem_unique hq hq'
  rw [hlt] at hgt
  cases hgt

theorem consistent_of_gapsSeparate (h : ∀ doc ∈ docs, NumberOrNone key doc)
    (hgaps : GapsSeparate key direction docs) :
    Sort.Consistent (goesBefore [(key, direction)]) docs := by
  refine List.triplewise_iff_getElem.mpr fun i j k hij hjk hk => ?_
  have hgap := List.triplewise_iff_getElem.mp hgaps i j k hij hjk hk
  have hx := h docs[i] (List.getElem_mem _)
  have hy := h docs[j] (List.getElem_mem _)
  have hz := h docs[k] (List.getElem_mem _)
  constructor
  · rw [goesBefore_iff_numbers hy hx, goesBefore_iff_numbers hz hy, goesBefore_iff_numbers hz hx]
    rintro ⟨q, hq, p, hp, hqp⟩ ⟨r, hr, q', hq', hrq⟩
    obtain rfl : q = q' := Option.mem_unique hq hq'
    exact ⟨r, hr, p, hp, Std.TransCmp.lt_trans hrq hqp⟩
  · rw [← numbersInOrder_iff hx hy, ← numbersInOrder_iff hy hz, ← numbersInOrder_iff hx hz]
    intro hxy hyz p hp r hr
    cases hq : numberUnder? key docs[j] with
    | none => exact hgap hq p hp r hr
    | some q =>
      have hpq := hxy p hp q hq
      have hqr := hyz q hq r hr
      unfold InOrder at hpq hqr ⊢
      rw [Ne, Ordering.ne_gt_iff_isLE] at hpq hqr ⊢
      exact Std.TransCmp.isLE_trans hpq hqr

theorem pairwise_numbersUnder :
    (numbersUnder key docs).Pairwise (InOrder direction) ↔
      docs.Pairwise (NumbersInOrder key direction) := by
  rw [numbersUnder, List.pairwise_filterMap]
  rfl

theorem gapsSeparate_of_pairwise (h : docs.Pairwise (NumbersInOrder key direction)) :
    GapsSeparate key direction docs :=
  List.triplewise_iff_getElem.mpr fun i _ k hij hjk hk _ =>
    List.pairwise_iff_getElem.mp h i k (by omega) hk (by omega)

/-- **Sorting documents of which some have no number.** -/
theorem ranked_where_gaps_separate (key direction : Value) (docs : List Document)
    (h : ∀ doc ∈ docs, NumberOrNone key doc) :
    ∃ out, sorted (.object [(key, direction)]) docs = .ok out ∧ out.Perm docs ∧
      out.IsChain (NumbersInOrder key direction) ∧
      (GapsSeparate key direction docs →
        (numbersUnder key out).Pairwise (InOrder direction)) ∧
      (docs.IsChain (NumbersInOrder key direction) →
        out = docs ∧ ((numbersUnder key out).Pairwise (InOrder direction) ↔
          GapsSeparate key direction docs)) := by
  have hasymm : ∀ a ∈ docs, ∀ b ∈ docs, goesBefore [(key, direction)] a b = true →
      goesBefore [(key, direction)] b a = false :=
    fun a ha b hb => goesBefore_asymm_of_numbers (h a ha) (h b hb)
  have hperm : (Sort.sort (goesBefore [(key, direction)]) docs).Perm docs := Sort.sort_perm _ _
  have hout : ∀ doc ∈ Sort.sort (goesBefore [(key, direction)]) docs, NumberOrNone key doc :=
    fun doc hdoc => h doc (hperm.mem_iff.mp hdoc)
  have hranked (hgaps : GapsSeparate key direction docs) :
      (numbersUnder key (Sort.sort (goesBefore [(key, direction)]) docs)).Pairwise
        (InOrder direction) := by
    rw [pairwise_numbersUnder]
    refine (Sort.sort_ordered (consistent_of_gapsSeparate h hgaps) hasymm).imp_of_mem
      fun ha hb hnot => ?_
    exact (numbersInOrder_iff (hout _ ha) (hout _ hb)).mpr hnot
  refine ⟨_, rfl, hperm, ?_, hranked, fun hchain => ?_⟩
  · refine (Sort.sort_isChain hasymm).imp_of_mem_imp fun a b ha hb hnot => ?_
    exact (numbersInOrder_iff (hout a ha) (hout b hb)).mpr hnot
  · have hsame : Sort.sort (goesBefore [(key, direction)]) docs = docs := by
      refine Sort.sort_of_isChain (hchain.imp_of_mem_imp fun a b ha hb hinOrder => ?_)
      exact (numbersInOrder_iff (h a ha) (h b hb)).mp hinOrder
    refine ⟨hsame, fun hall => ?_, hranked⟩
    rw [hsame, pairwise_numbersUnder] at hall
    exact gapsSeparate_of_pairwise hall

/-- Two numbers in ascending order, null, and two smaller ones, one of which is a boolean. -/
def separatedDocs : List Document :=
  [[(.str "f", .int 3)], [(.str "f", .float (.infinite false))], [(.str "f", .null)],
    [(.str "f", .bool true)], [(.str "f", .int 2)]]

theorem ranked_where_gaps_separate_descending :
    (∀ doc ∈ separatedDocs, NumberOrNone (.str "f") doc) ∧
      GapsSeparate (.str "f") (.int (-1)) separatedDocs ∧
      ∃ out, sorted (.object [(.str "f", .int (-1))]) separatedDocs = .ok out ∧
        out.Perm separatedDocs ∧ out.IsChain (NumbersInOrder (.str "f") (.int (-1))) ∧
        (GapsSeparate (.str "f") (.int (-1)) separatedDocs →
          (numbersUnder (.str "f") out).Pairwise (InOrder (.int (-1)))) ∧
        (separatedDocs.IsChain (NumbersInOrder (.str "f") (.int (-1))) →
          out = separatedDocs ∧ ((numbersUnder (.str "f") out).Pairwise (InOrder (.int (-1))) ↔
            GapsSeparate (.str "f") (.int (-1)) separatedDocs)) := by
  have hnumbers : ∀ doc ∈ separatedDocs, NumberOrNone (.str "f") doc := by
    simp [separatedDocs, NumberOrNone, numberUnder?, valueUnder_cons_self, Value.place?,
      Place.ofBinary64?]
  have hsides : (InOrder (.int (-1)) (.ofInt 3) (.ofInt 1) ∧
      InOrder (.int (-1)) (.ofInt 3) (.ofInt 2)) ∧
      InOrder (.int (-1)) .above (.ofInt 1) ∧ InOrder (.int (-1)) .above (.ofInt 2) := by
    decide +kernel
  have hgaps : GapsSeparate (.str "f") (.int (-1)) separatedDocs := by
    simpa [GapsSeparate, separatedDocs, List.triplewise_cons, numberUnder?, valueUnder_cons_self,
      Value.place?, Place.ofBinary64?, NumbersInOrder] using hsides
  exact ⟨hnumbers, hgaps, ranked_where_gaps_separate _ _ _ hnumbers⟩

/-- Null between a number and a smaller one. -/
def gapDocs : List Document :=
  [[(.str "f", .int 2)], [(.str "f", .null)], [(.str "f", .int 1)]]

theorem numberOrNone_gapDocs : ∀ doc ∈ gapDocs, NumberOrNone (.str "f") doc := by
  simp [gapDocs, NumberOrNone, numberUnder?, valueUnder_cons_self, Value.place?]

/-- **A gap keeps two numbers out of order.** -/
theorem not_ranked_around_gap :
    ¬ ∀ (key direction : Value) (docs : List Document), (∀ doc ∈ docs, NumberOrNone key doc) →
      ∃ out, sorted (.object [(key, direction)]) docs = .ok out ∧
        (numbersUnder key out).Pairwise (InOrder direction) := by
  intro hall
  obtain ⟨out, hout, hranked⟩ := hall (.str "f") (.int 1) gapDocs numberOrNone_gapDocs
  have hsame : Sort.sort (goesBefore [(.str "f", .int 1)]) gapDocs = gapDocs :=
    Sort.sort_of_isChain (by decide +kernel)
  obtain rfl : gapDocs = out := hsame.symm.trans (Except.ok.inj hout)
  exact absurd hranked (by decide +kernel)

end SnapshotStore.Pipeline
