import SnapshotStore.Proofs.Text.Quoted
import SnapshotStore.Proofs.Value.Display
import SnapshotStore.Proofs.Value.Numerals

/-!
# The literals of JSON values are unambiguous

**Theorem (`eq_of_literal`).** JSON values with the same literal are the same, to the kinds of their
numbers, the signs of their zeros and the order of their fields. One of the two must be free of
undefined numbers, which are all written alike.

The first character tells of which kind a value is (`familyOfHead`). Texts are quoted, and quoted
texts read back, as numbers do; members and fields of the same literal have the same literals
(`literals_inj`, `literalPairs_inj`), so the rest is induction.

**Theorem (`display_eq_iff`).** By itself a text is not quoted. So two values are displayed the same
exactly if they are the same, or one is a text that spells the other (`SpelledAlike`).
-/

namespace SnapshotStore

/-- Lists with the same images are the same where the images tell the members apart. -/
theorem eq_of_map_eq {α β : Type} {f : α → β} {as bs : List α}
    (hinj : ∀ a ∈ as, ∀ b ∈ bs, f a = f b → a = b) (h : as.map f = bs.map f) : as = bs := by
  induction as generalizing bs with
  | nil => exact (List.map_eq_nil_iff.mp h.symm).symm
  | cons a as ih =>
    cases bs with
    | nil => cases h
    | cons b bs =>
      obtain ⟨hhead, htail⟩ := List.cons.inj h
      rw [hinj a (List.mem_cons_self ..) b (List.mem_cons_self ..) hhead, ih (fun a ha b hb => ?_)
        htail]
      exact hinj a (List.mem_cons_of_mem _ ha) b (List.mem_cons_of_mem _ hb)

namespace Value

open SnapshotStore.Group (family)

/-! ## Kinds -/

/-- The kind of a JSON value whose literal starts with a character. -/
def familyOfHead (c : Char) : String :=
  if c = 'N' then "NoneType"
  else if c = 'T' ∨ c = 'F' then "bool"
  else if Role.of c = .quote then "str"
  else if c = '[' then "list"
  else if c = '\x7b' then "dict"
  else "number"

theorem familyOfHead_of_isDigit {c : Char} (hc : c.isDigit = true) :
    familyOfHead c = "number" := by
  have hquote : Role.of c ≠ .quote := by
    rw [role_of_isDigit hc]
    decide
  simp [familyOfHead, ne_of_isDigit hc, hquote]

theorem family_of_startsNumeral {text : List Char} (h : StartsNumeral text) :
    text.head?.map familyOfHead = some "number" := by
  obtain ⟨c, hhead, hc⟩ := h
  rw [hhead, Option.map_some]
  rcases hc with rfl | hc
  · rfl
  · rw [familyOfHead_of_isDigit hc]

theorem family_text (x : Binary64) : x.text.head?.map familyOfHead = some "number" := by
  cases x with
  | finite x => exact family_of_startsNumeral (startsNumeral_finite x)
  | infinite negative => cases negative <;> rfl
  | nan tag => rfl

/-- **The first character of a literal tells the kind of its value.** -/
theorem family_literal {number : Number → Bool} {v : Value} (hv : v.isJson number = true) :
    v.literal.head?.map familyOfHead = some (family v) := by
  cases v with
  | null => simp [literal, familyOfHead, family, kindName]
  | bool b => cases b <;> simp [literal, familyOfHead, family, kindName]
  | int n =>
    rw [literal]
    exact family_of_startsNumeral (startsNumeral_integerText n)
  | float x =>
    rw [literal]
    exact family_text x
  | str s =>
    have hquote := role_quoteFor s.toList
    rw [literal, quoted, List.head?_cons, Option.map_some]
    rcases eq_of_role_quote hquote with h | h <;> rw [h] <;> rfl
  | list items =>
    rw [literal]
    rfl
  | object fields =>
    rw [literal]
    rfl
  | _ => cases hv

theorem family_eq_of_literal {number number' : Number → Bool} {v w : Value}
    (hv : v.isJson number = true) (hw : w.isJson number' = true) (h : v.literal = w.literal) :
    family v = family w := by
  rw [← Option.some_inj, ← family_literal hv, ← family_literal hw, h]

/-! ## Literals -/

/-- **JSON values with the same literal are the same.** -/
theorem eq_of_literal {number : Number → Bool} {v : Value}
    (hv : v.isJson Number.isDefined = true) :
    ∀ w : Value, w.isJson number = true → v.literal = w.literal → v = w := by
  induction v, hv using isJson_induction with
  | null =>
    intro w hw h
    have hv : null.isJson Number.isDefined = true := rfl
    have hfamily := family_eq_of_literal hv hw h
    cases w <;> simp [family, kindName] at hfamily
    rfl
  | bool b =>
    intro w hw h
    have hv : (bool b).isJson Number.isDefined = true := rfl
    have hfamily := family_eq_of_literal hv hw h
    cases w <;> simp [family, kindName] at hfamily
    next b' =>
    cases b <;> cases b' <;> simp [literal] at h ⊢
  | int n hn =>
    intro w hw h
    have hv : (int n).isJson Number.isDefined = true := hn
    have hfamily := family_eq_of_literal hv hw h
    cases w <;> simp [family, kindName] at hfamily
    · next m => exact congrArg Number.toValue (literal_toValue_inj (n := .int m) hn h)
    · next y => exact congrArg Number.toValue (literal_toValue_inj (n := .float y) hn h)
  | float x hx =>
    intro w hw h
    have hv : (float x).isJson Number.isDefined = true := hx
    have hfamily := family_eq_of_literal hv hw h
    cases w <;> simp [family, kindName] at hfamily
    · next m => exact congrArg Number.toValue (literal_toValue_inj (n := .int m) hx h)
    · next y => exact congrArg Number.toValue (literal_toValue_inj (n := .float y) hx h)
  | str s =>
    intro w hw h
    have hv : (str s).isJson Number.isDefined = true := rfl
    have hfamily := family_eq_of_literal hv hw h
    cases w <;> simp [family, kindName] at hfamily
    next t =>
    rw [literal, literal] at h
    rw [String.toList_inj.mp (quoted_inj h)]
  | list items hall ih =>
    intro w hw h
    have hfamily := family_eq_of_literal (isJson_list.mpr hall) hw h
    cases w <;> simp [family, kindName] at hfamily
    next others =>
    rw [literal, literal] at h
    have hsame := literals_inj h
    rw [literals_eq_map, literals_eq_map] at hsame
    rw [eq_of_map_eq (fun v hv w hw' => ih v hv w (isJson_list.mp hw w hw')) hsame]
  | object entries hkeys hall ih =>
    intro w hw h
    have hfamily := family_eq_of_literal (isJson_ofEntries.mpr ⟨hkeys, hall⟩) hw h
    cases w <;> simp [family, kindName] at hfamily
    obtain ⟨others, rfl, -, hall'⟩ := isJson_object hw
    have hsame := literalPairs_inj h
    rw [literalPairs, literalPairs, Fields.ofEntries, Fields.ofEntries, List.map_map,
      List.map_map] at hsame
    rw [eq_of_map_eq (fun entry hentry other hother heq => ?_) hsame]
    obtain ⟨hkey, hvalue⟩ := Prod.mk.inj heq
    simp only [literal] at hkey
    exact Prod.ext (String.toList_inj.mp (quoted_inj hkey))
      (ih entry hentry other.2 (hall' other hother) hvalue)

/-! ## Values by themselves -/

/-- A text is written like a value that is no text. -/
def Spells (s : String) (v : Value) : Prop := (∀ t, v ≠ .str t) ∧ s.toList = v.literal

/-- Two values are the same, or one is a text that spells the other. -/
def SpelledAlike (v w : Value) : Prop :=
  v = w ∨ (∃ s, v = .str s ∧ Spells s w) ∨ ∃ s, w = .str s ∧ Spells s v

theorem displayText_of_isJson {number : Number → Bool} {v : Value} (hv : v.isJson number = true)
    (hstr : ∀ s, v ≠ .str s) : v.displayText = v.literal :=
  displayText_eq_literal hstr (by rintro t rfl; cases hv) (by rintro d rfl; cases hv)

/-- **Values are displayed the same** exactly if they are the same, or one is a text that spells the
other. -/
theorem display_eq_iff {number : Number → Bool} {v w : Value}
    (hv : v.isJson Number.isDefined = true) (hw : w.isJson number = true) :
    v.display = w.display ↔ SpelledAlike v w := by
  have htext : v.display = w.display ↔ v.displayText = w.displayText :=
    ⟨fun h => by simpa only [display, String.toList_ofList] using congrArg String.toList h,
      congrArg String.ofList⟩
  rw [htext]
  constructor
  · intro h
    by_cases hs : ∃ s, v = .str s <;> by_cases ht : ∃ t, w = .str t
    · obtain ⟨s, rfl⟩ := hs
      obtain ⟨t, rfl⟩ := ht
      exact .inl (congrArg str (String.toList_inj.mp h))
    · obtain ⟨s, rfl⟩ := hs
      rw [not_exists] at ht
      rw [displayText_of_isJson hw ht] at h
      exact .inr (.inl ⟨s, rfl, ht, h⟩)
    · obtain ⟨t, rfl⟩ := ht
      rw [not_exists] at hs
      rw [displayText_of_isJson hv hs] at h
      exact .inr (.inr ⟨t, rfl, hs, h.symm⟩)
    · rw [not_exists] at hs ht
      rw [displayText_of_isJson hv hs, displayText_of_isJson hw ht] at h
      exact .inl (eq_of_literal hv w hw h)
  · rintro (rfl | ⟨s, rfl, hno, hs⟩ | ⟨s, rfl, hno, hs⟩)
    · rfl
    · exact hs.trans (displayText_of_isJson hw hno).symm
    · exact (displayText_of_isJson hv hno).trans hs.symm

theorem SpelledAlike.eq {v w : Value} (h : SpelledAlike v w)
    (hkinds : (∃ s, v = .str s) ↔ ∃ t, w = .str t) : v = w := by
  rcases h with h | ⟨s, rfl, hno, -⟩ | ⟨s, rfl, hno, -⟩
  · exact h
  · obtain ⟨t, ht⟩ := hkinds.mp ⟨s, rfl⟩
    exact absurd ht (hno t)
  · obtain ⟨t, ht⟩ := hkinds.mpr ⟨s, rfl⟩
    exact absurd ht (hno t)

end Value

end SnapshotStore
