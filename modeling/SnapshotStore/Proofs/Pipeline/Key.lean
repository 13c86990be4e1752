import SnapshotStore.Pipeline.Group
import SnapshotStore.Proofs.Json.Sorted

/-!
# Group keys

**Theorem (`keyText_eq_iff`).** Two JSON values without undefined numbers have the same key text
exactly when they agree.

A key text is the text of a value's *normal form*: integral floating-point numbers are integers in
it, and fields stand in the order of their keys. It reads back as the normal form, so equal texts
mean equal normal forms, and these are equal exactly for values that agree (`agrees_iff_normal`): a
number's normal form is given by its place on the number line (`canonical_toValue`), and entries
with keys of their own are put in the same order exactly when they are the same
(`sortEntries_eq_iff`).
-/

namespace SnapshotStore

/-! ## Numbers -/

namespace Binary64

theorem unitsPerOne_pos : (0 : Int) < unitsPerOne := by
  rw [unitsPerOne_eq]
  positivity

theorem Finite.natAbs_units (x : Finite) : x.units.natAbs = x.magnitude := by
  unfold Finite.units
  cases x.negative <;> simp

/-- A number other than zero is what its units are rounded to. -/
theorem roundUnits_units {x : Finite} (h : x.units ≠ 0) :
    roundUnits (decide (x.units < 0)) x.units.natAbs 1 = .finite x := by
  have hround := roundUnits_magnitude x (Nat.one_pos)
  rw [Nat.mul_one] at hround
  have hnegative : decide (x.units < 0) = x.negative := by
    unfold Finite.units at h ⊢
    cases x.negative
    · simp
    · simp at h ⊢
      omega
  rw [hnegative, x.natAbs_units, hround]

end Binary64

/-- A number as a value. -/
def Number.toValue : Number → Value
  | int n => .int n
  | float x => .float x

/-- The value that stands for all numbers at a place. -/
def Place.value : Place → Value
  | below => .float (.infinite true)
  | above => .float (.infinite false)
  | .at units =>
    if units % Binary64.unitsPerOne = 0 then .int (units / Binary64.unitsPerOne)
    else .float (Binary64.roundUnits (decide (units < 0)) units.natAbs 1)

theorem Fields.ofEntries_inj {entries others : List (String × Value)} :
    ofEntries entries = ofEntries others ↔ entries = others := by
  refine (List.map_injective_iff.mpr fun a b hab => ?_).eq_iff
  obtain ⟨hkey, hvalue⟩ := Prod.mk.inj hab
  exact Prod.ext (Value.str.inj hkey) hvalue

namespace Group

open Value

/-- A number's canonical form stands for its place, and is at this place. -/
theorem canonical_toValue {n : Number} (h : n.isDefined = true) :
    ∃ p, n.toValue.place? = some p ∧ canonical n.toValue = p.value ∧ p.value.place? = some p := by
  have hpos := Binary64.unitsPerOne_pos
  cases n with
  | int n =>
    have hvalue : (Place.ofInt n).value = .int n := by
      rw [Place.ofInt, Place.value, if_pos (Int.mul_emod_left n _),
        Int.mul_ediv_cancel n hpos.ne']
    exact ⟨Place.ofInt n, rfl, hvalue.symm, by rw [hvalue]; rfl⟩
  | float x =>
    cases x with
    | nan tag => cases h
    | infinite negative =>
      refine ⟨_, rfl, ?_, ?_⟩ <;> cases negative <;> rfl
    | finite x =>
      refine ⟨.at x.units, rfl, ?_⟩
      rw [Number.toValue, canonical, Binary64.toInt?, Place.value]
      by_cases hwhole : x.units % Binary64.unitsPerOne = 0
      · rw [if_pos hwhole, if_pos hwhole]
        refine ⟨rfl, ?_⟩
        rw [place?, Place.ofInt, Int.ediv_mul_cancel (Int.dvd_of_emod_eq_zero hwhole)]
      · have hne : x.units ≠ 0 := by
          intro hzero
          exact hwhole (by rw [hzero, Int.zero_emod])
        rw [if_neg hwhole, if_neg hwhole, Binary64.roundUnits_units hne]
        exact ⟨rfl, rfl⟩

theorem undefinedTag?_toValue {n : Number} (h : n.isDefined = true) :
    n.toValue.undefinedTag? = none := by
  cases n with
  | int n => rfl
  | float x => cases x <;> first | rfl | cases h

theorem agrees_toValue {a b : Number} (ha : a.isDefined = true) (hb : b.isDefined = true) :
    a.toValue.agrees b.toValue = true ↔ canonical a.toValue = canonical b.toValue := by
  obtain ⟨p, hp, hvalue, hback⟩ := canonical_toValue ha
  obtain ⟨q, hq, hvalue', hback'⟩ := canonical_toValue hb
  have hagrees : a.toValue.agrees b.toValue = (p == q) := by
    have hequals : a.toValue.agrees b.toValue = a.toValue.equals b.toValue := by
      cases a <;> cases b <;> simp [Number.toValue, agrees, asAsked]
    have halike : a.toValue.alike b.toValue = a.toValue.alikeNumbers b.toValue := by
      cases a <;> simp [Number.toValue, alike]
    rw [hequals, equals, undefinedTag?_toValue ha, halike, alikeNumbers, hp, hq]
    rfl
  rw [hagrees, hvalue, hvalue', beq_iff_eq]
  constructor
  · exact congrArg Place.value
  · intro h
    rw [h, hback'] at hback
    exact (Option.some.inj hback).symm

/-! ## Normal forms -/

/-- A value as its key text gives it: in canonical form, with fields in order. -/
def normal (v : Value) : Value := (canonical v).ordered

@[simp] theorem canonical_list (items : List Value) :
    canonical (.list items) = .list (items.map canonical) := by
  rw [canonical]
  congr 1
  induction items with
  | nil => rfl
  | cons v vs ih => rw [canonicalAll, ih, List.map_cons]

@[simp] theorem canonical_ofEntries (entries : List (String × Value)) :
    canonical (.object (Fields.ofEntries entries)) =
      .object (Fields.ofEntries (entries.map fun entry => (entry.1, canonical entry.2))) := by
  rw [canonical]
  congr 1
  induction entries with
  | nil => rfl
  | cons entry entries ih =>
    rw [Fields.ofEntries_cons, canonicalFields, ih, List.map_cons, Fields.ofEntries_cons]

@[simp] theorem normal_null : normal .null = .null := rfl

@[simp] theorem normal_bool (b : Bool) : normal (.bool b) = .bool b := rfl

@[simp] theorem normal_str (s : String) : normal (.str s) = .str s := rfl

theorem normal_toValue (n : Number) : normal n.toValue = canonical n.toValue ∧
    ∃ m : Number, canonical n.toValue = m.toValue := by
  cases n with
  | int n => exact ⟨rfl, .int n, rfl⟩
  | float x =>
    rw [normal, Number.toValue, canonical]
    cases x.toInt? with
    | none => exact ⟨rfl, .float x, rfl⟩
    | some n => exact ⟨rfl, .int n, rfl⟩

@[simp] theorem normal_list (items : List Value) :
    normal (.list items) = .list (items.map normal) := by
  rw [normal, canonical_list, ordered_list, List.map_map]
  rfl

@[simp] theorem normal_ofEntries (entries : List (String × Value)) :
    normal (.object (Fields.ofEntries entries)) =
      .object (Fields.ofEntries (sortEntries
        (entries.map fun entry => (entry.1, normal entry.2)))) := by
  rw [normal, canonical_ofEntries, ordered_ofEntries, List.map_map]
  rfl

/-! ## Agreement -/

theorem agreesAll_iff {xs ys : List Value}
    (h : ∀ x ∈ xs, ∀ y ∈ ys, (x.agrees y = true ↔ normal x = normal y)) :
    agreesAll xs ys = true ↔ xs.map normal = ys.map normal := by
  induction xs generalizing ys with
  | nil => cases ys <;> simp [agreesAll]
  | cons x xs ih =>
    cases ys with
    | nil => simp [agreesAll]
    | cons y ys =>
      have hhead := h x (List.mem_cons_self ..) y (List.mem_cons_self ..)
      have htail := ih fun z hz w hw =>
        h z (List.mem_cons_of_mem _ hz) w (List.mem_cons_of_mem _ hw)
      rw [agreesAll, Bool.and_eq_true, hhead, htail, List.map_cons, List.map_cons,
        List.cons.injEq]

variable {entries others : List (String × Value)}

theorem agreesFields_iff (h : (others.map (·.1)).Nodup) :
    agreesFields (Fields.ofEntries entries) (Fields.ofEntries others) = true ↔
      ∀ entry ∈ entries, ∃ w, (entry.1, w) ∈ others ∧ entry.2.agrees w = true := by
  induction entries with
  | nil => simp [agreesFields]
  | cons entry entries ih =>
    obtain ⟨key, v⟩ := entry
    rw [Fields.ofEntries_cons, agreesFields, Bool.and_eq_true, ih, List.forall_mem_cons]
    refine and_congr_left' ?_
    simp only [← Fields.getText?_ofEntries_eq_some h, Fields.getText?]
    cases Fields.get? (Fields.ofEntries others) (.str key) <;> simp

theorem agrees_ofEntries (h : (others.map (·.1)).Nodup) :
    agrees (.object (Fields.ofEntries entries)) (.object (Fields.ofEntries others)) = true ↔
      entries.length = others.length ∧
        ∀ entry ∈ entries, ∃ w, (entry.1, w) ∈ others ∧ entry.2.agrees w = true := by
  have hlength (entries : List (String × Value)) :
      (Fields.ofEntries entries).length = entries.length := List.length_map _
  simp only [agrees, asAsked, Fields.sameKeys, Bool.and_eq_true, beq_iff_eq, hlength,
    agreesFields_iff h, and_assoc]
  refine and_congr_right fun _ => and_iff_right_of_imp fun hall => List.all_eq_true.mpr ?_
  rintro ⟨k, v⟩ hfield
  obtain ⟨key, rfl, hentry⟩ := Fields.mem_ofEntries.mp hfield
  obtain ⟨w, hother, -⟩ := hall (key, v) hentry
  exact Option.isSome_iff_exists.mpr ⟨w, (Fields.getText?_ofEntries_eq_some h).mpr hother⟩

/-- Entries with keys of their own are the same, up to their order, when there are as many of them
and each of the first is among the second. -/
theorem perm_map_iff (f : Value → Value) (hentries : (entries.map (·.1)).Nodup) :
    (entries.map fun entry => (entry.1, f entry.2)).Perm
        (others.map fun entry => (entry.1, f entry.2)) ↔
      entries.length = others.length ∧
        ∀ entry ∈ entries, ∃ w, (entry.1, w) ∈ others ∧ f entry.2 = f w := by
  constructor
  · intro h
    refine ⟨by simpa using h.length_eq, fun entry hentry => ?_⟩
    have hmem := h.mem_iff.mp (List.mem_map.mpr ⟨entry, hentry, rfl⟩)
    obtain ⟨⟨key, w⟩, hother, heq⟩ := List.mem_map.mp hmem
    obtain ⟨rfl, hvalue⟩ := Prod.mk.inj heq
    exact ⟨w, hother, hvalue.symm⟩
  · rintro ⟨hlength, hall⟩
    have hnodup : (entries.map fun entry => (entry.1, f entry.2)).Nodup := by
      refine List.Nodup.of_map (·.1) ?_
      rwa [keys_map]
    refine (List.subperm_of_subset hnodup fun field hfield => ?_).perm_of_length_le
      (by simp [hlength])
    obtain ⟨entry, hentry, rfl⟩ := List.mem_map.mp hfield
    obtain ⟨w, hother, hvalue⟩ := hall entry hentry
    exact List.mem_map.mpr ⟨(entry.1, w), hother, by rw [hvalue]⟩

/-- The name of a value's kind, numbers being of one kind. -/
def family : Value → String
  | .int _ | .float _ => "number"
  | v => v.kindName

theorem family_normal (v : Value) : family (normal v) = family v := by
  cases v with
  | float x =>
    obtain ⟨hnormal, m, hm⟩ := normal_toValue (.float x)
    have hv : normal (.float x) = m.toValue := hnormal.trans hm
    rw [hv]
    cases m <;> rfl
  | _ => rfl

theorem not_alikeNumbers {a b : Value} (hplace : b.place? = none) (htag : b.undefinedTag? = none) :
    ¬a.alikeNumbers b = true := by
  rw [alikeNumbers, hplace, htag]
  cases a.place? with
  | none => cases a.undefinedTag? <;> exact Bool.false_ne_true
  | some p => exact Bool.false_ne_true

theorem family_of_agrees {a b : Value} (ha : a.isJson Number.isDefined = true)
    (hb : b.isJson Number.isDefined = true) (h : a.agrees b = true) : family a = family b := by
  cases a <;> cases b <;>
    simp_all [agrees, asAsked, equals, alike, undefinedTag?, isJson, family, kindName]
  -- Left are numbers against values that are no numbers.
  all_goals first | exact not_alikeNumbers rfl rfl h | exact not_alikeNumbers rfl rfl h.2

/-- Only values of one kind need be compared. -/
theorem agrees_iff_of_family {a b : Value} (ha : a.isJson Number.isDefined = true)
    (hb : b.isJson Number.isDefined = true)
    (h : family a = family b → (a.agrees b = true ↔ normal a = normal b)) :
    a.agrees b = true ↔ normal a = normal b := by
  by_cases hfamily : family a = family b
  · exact h hfamily
  · refine iff_of_false (fun hagrees => hfamily (family_of_agrees ha hb hagrees)) fun hnormal => ?_
    rw [← family_normal a, ← family_normal b, hnormal] at hfamily
    exact hfamily rfl

theorem agrees_number {a b : Number} (ha : a.isDefined = true) (hb : b.isDefined = true) :
    a.toValue.agrees b.toValue = true ↔ normal a.toValue = normal b.toValue := by
  rw [agrees_toValue ha hb, (normal_toValue a).1, (normal_toValue b).1]

/-- **Values agree exactly when they have the same normal form.** -/
theorem agrees_iff_normal {a : Value} (ha : a.isJson Number.isDefined = true) :
    ∀ b : Value, b.isJson Number.isDefined = true → (a.agrees b = true ↔ normal a = normal b) := by
  induction a, ha using isJson_induction with
  | null =>
    intro b hb
    refine agrees_iff_of_family rfl hb fun hfamily => ?_
    cases b <;> simp [family, kindName] at hfamily
    simp [agrees, asAsked, equals, alike, undefinedTag?]
  | bool x =>
    intro b hb
    refine agrees_iff_of_family rfl hb fun hfamily => ?_
    cases b <;> simp [family, kindName] at hfamily
    simp [agrees, asAsked]
  | str s =>
    intro b hb
    refine agrees_iff_of_family rfl hb fun hfamily => ?_
    cases b <;> simp [family, kindName] at hfamily
    simp [agrees, asAsked, equals, alike, undefinedTag?]
  | int n h =>
    intro b hb
    refine agrees_iff_of_family h hb fun hfamily => ?_
    cases b <;> simp [family, kindName] at hfamily
    · next m => exact agrees_number (a := .int n) (b := .int m) h hb
    · next y => exact agrees_number (a := .int n) (b := .float y) h hb
  | float x h =>
    intro b hb
    refine agrees_iff_of_family h hb fun hfamily => ?_
    cases b <;> simp [family, kindName] at hfamily
    · next m => exact agrees_number (a := .float x) (b := .int m) h hb
    · next y => exact agrees_number (a := .float x) (b := .float y) h hb
  | list items hall ih =>
    intro b hb
    refine agrees_iff_of_family (isJson_list.mpr hall) hb fun hfamily => ?_
    cases b <;> simp [family, kindName] at hfamily
    have hitems := agreesAll_iff fun x hx y hy => ih x hx y (isJson_list.mp hb y hy)
    simpa [agrees, asAsked] using hitems
  | object entries hkeys hall ih =>
    intro b hb
    refine agrees_iff_of_family (isJson_ofEntries.mpr ⟨hkeys, hall⟩) hb fun hfamily => ?_
    cases b <;> simp [family, kindName] at hfamily
    obtain ⟨others, rfl, hothers, hall'⟩ := isJson_object hb
    have hkeys' : ((entries.map fun entry => (entry.1, normal entry.2)).map (·.1)).Nodup := by
      rwa [keys_map]
    rw [normal_ofEntries, normal_ofEntries, object.injEq, Fields.ofEntries_inj,
      sortEntries_eq_iff hkeys', perm_map_iff normal hkeys, agrees_ofEntries hothers]
    refine and_congr_right fun _ => forall₂_congr fun entry hentry => ?_
    refine exists_congr fun w => and_congr_right fun hother => ?_
    exact ih entry hentry w (hall' _ hother)

/-! ## Key texts -/

/-- A floating-point number is no integer that is too long. -/
theorem isShort_toInt? {x : Binary64} {n : Int} (h : x.toInt? = some n) :
    (Number.int n).isShort = true := by
  cases x with
  | finite x =>
    simp only [Binary64.toInt?] at h
    split_ifs at h with hwhole
    obtain rfl := Option.some.inj h
    have hunits := congrArg Int.natAbs (Int.ediv_mul_cancel (Int.dvd_of_emod_eq_zero hwhole))
    rw [Int.natAbs_mul, Int.natAbs_natCast, x.natAbs_units] at hunits
    have hlt := x.magnitude_lt
    rw [← hunits] at hlt
    rw [Number.isShort, decide_eq_true_eq]
    have hpow (k : Nat) (hk : k ≤ maxIntegerDigits) : 2 ^ k ≤ Json.integerBound := by
      rw [Json.integerBound_eq]
      exact (Nat.pow_le_pow_left (by decide) k).trans (Nat.pow_le_pow_right (by decide) hk)
    exact (Nat.lt_of_mul_lt_mul_right hlt).trans_le (hpow 1024 (by decide))
  | infinite negative | nan tag => cases h

theorem isJson_canonical {number : Number → Bool}
    (hwhole : ∀ (x : Binary64) n, x.toInt? = some n → number (.int n) = true) {v : Value}
    (hv : v.isJson number = true) : (canonical v).isJson number = true := by
  induction v, hv using isJson_induction with
  | null | bool b | str s => rfl
  | int n h => exact h
  | float x h =>
    rw [canonical]
    cases hint : x.toInt? with
    | none => exact h
    | some n => exact hwhole x n hint
  | list items _ ih =>
    rw [canonical_list, isJson_list]
    exact List.forall_mem_map.mpr ih
  | object entries hkeys _ ih =>
    rw [canonical_ofEntries, isJson_ofEntries, keys_map]
    exact ⟨hkeys, List.forall_mem_map.mpr ih⟩

/-- A key text is the text of the normal form. -/
theorem keyText_eq {number : Number → Bool} {v : Value}
    (hv : (canonical v).isJson number = true) : keyText v = Json.write {} 0 (normal v) :=
  Json.write_sorted rfl hv 0

/-- JSON values without integers that are too long have key texts. -/
theorem exists_keyText {v : Value} (hv : v.isJson Number.isShort = true) :
    ∃ text, keyText v = .ok text := by
  have hcanonical := isJson_canonical (fun x n => isShort_toInt?) hv
  have hnormal : (normal v).isJson Number.isShort = true := isJson_ordered hcanonical
  have hadmits : (Json.Style.admits {}) = Number.isShort := by
    funext n
    simp [Json.Style.admits]
  rw [keyText_eq hcanonical]
  exact (Json.exists_write_iff rfl (isJson_mono (fun _ _ => rfl) hnormal) 0).mpr
    (by rwa [hadmits])

/-- **Key texts are the same exactly for values that agree.** -/
theorem keyText_eq_iff {a b : Value} (ha : a.isJson Number.isDefined = true)
    (hb : b.isJson Number.isDefined = true) {s t : List Char} (hs : keyText a = .ok s)
    (ht : keyText b = .ok t) : s = t ↔ a.agrees b = true := by
  have hcanonical {v : Value} (hv : v.isJson Number.isDefined = true) :
      (canonical v).isJson Number.isDefined = true := isJson_canonical (fun _ _ _ => rfl) hv
  rw [keyText_eq (hcanonical ha)] at hs
  rw [keyText_eq (hcanonical hb)] at ht
  rw [agrees_iff_normal ha b hb]
  constructor
  · rintro rfl
    have hreads := Json.read_write rfl (isJson_ordered (hcanonical ha)) hs
    rw [Json.read_write rfl (isJson_ordered (hcanonical hb)) ht] at hreads
    exact (Except.ok.inj hreads).symm
  · intro h
    rw [h, ht] at hs
    exact (Except.ok.inj hs).symm

end Group

end SnapshotStore
