import SnapshotStore.Proofs.Pipeline.Key

/-!
# Values that are alike

Containers compare their members by `Value.alike`, which counts booleans as the numbers 0 and 1.
Among JSON values without undefined numbers that is the only way in which it differs from agreement:
two values are alike exactly when they agree after their booleans are written as numbers
(`alike_eq_agrees`). So they are alike exactly when they then have the same normal form
(`alike_iff_normal`), and being alike is an equivalence. What agrees as it is agrees all the more
then (`alike_of_agrees`).
-/

namespace SnapshotStore

namespace Value

open SnapshotStore.Group

mutual

/-- A value with numbers in place of booleans. -/
def numeric : Value → Value
  | .bool b => .int (if b then 1 else 0)
  | .list items => .list (numericAll items)
  | .object fields => .object (numericFields fields)
  | v => v

/-- Values with numbers in place of booleans. -/
def numericAll : List Value → List Value
  | [] => []
  | v :: vs => numeric v :: numericAll vs

/-- Fields with numbers in place of booleans in their values. -/
def numericFields : Fields → Fields
  | [] => []
  | (k, v) :: fields => (k, numeric v) :: numericFields fields

end

@[simp] theorem numeric_list (items : List Value) :
    numeric (.list items) = .list (items.map numeric) := by
  rw [numeric]
  congr 1
  induction items with
  | nil => rfl
  | cons v vs ih => rw [numericAll, ih, List.map_cons]

@[simp] theorem numeric_ofEntries (entries : List (String × Value)) :
    numeric (.object (Fields.ofEntries entries)) =
      .object (Fields.ofEntries (entries.map fun entry => (entry.1, numeric entry.2))) := by
  rw [numeric]
  congr 1
  induction entries with
  | nil => rfl
  | cons entry entries ih =>
    rw [Fields.ofEntries_cons, numericFields, ih, List.map_cons, Fields.ofEntries_cons]

theorem isJson_numeric {v : Value} (h : v.isJson Number.isDefined = true) :
    (numeric v).isJson Number.isDefined = true := by
  induction v, h using isJson_induction with
  | null => rfl
  | bool b => rfl
  | int n h => exact h
  | float x h => exact h
  | str s => rfl
  | list items hall ih =>
    rw [numeric_list, isJson_list]
    exact List.forall_mem_map.mpr ih
  | object entries hkeys hall ih =>
    rw [numeric_ofEntries, isJson_ofEntries, keys_map]
    exact ⟨hkeys, List.forall_mem_map.mpr ih⟩

/-! ## Agreement without booleans -/

theorem place?_numeric (v : Value) : (numeric v).place? = v.place? := by
  cases v <;> rfl

theorem undefinedTag?_numeric (v : Value) : (numeric v).undefinedTag? = v.undefinedTag? := by
  cases v <;> rfl

theorem alikeNumbers_numeric (a b : Value) :
    alikeNumbers (numeric a) (numeric b) = alikeNumbers a b := by
  simp only [alikeNumbers, place?_numeric, undefinedTag?_numeric]

theorem undefinedTag?_of_place {v : Value} {p : Place} (h : v.place? = some p) :
    v.undefinedTag? = none := by
  cases v with
  | float x => cases x <;> first | rfl | cases h
  | _ => rfl

/-- Two values that are no booleans agree as they are alike, if the first is a number. -/
theorem agrees_of_place {a b : Value} {p : Place} (ha : a.place? = some p)
    (hnumber : ∀ x, a ≠ .bool x) (hb : b.isJson Number.isDefined = true) (hb' : ∀ x, b ≠ .bool x) :
    a.agrees b = alikeNumbers a b := by
  have htag := undefinedTag?_of_place ha
  cases a <;> simp only [place?, reduceCtorEq] at ha
  · exact absurd rfl (hnumber _)
  · cases b <;> simp_all [isJson, agrees, asAsked, equals, alike]
  · cases b <;> simp_all [isJson, agrees, asAsked, equals, alike]

theorem numeric_ne_bool (v : Value) (x : Bool) : numeric v ≠ .bool x := by
  cases v <;> simp [numeric]

theorem alike_eq_alikeNumbers {a b : Value} {p : Place} (ha : a.place? = some p) :
    a.alike b = alikeNumbers a b := by
  cases a <;> simp only [place?, reduceCtorEq] at ha <;> simp only [alike]

/-- A number or a boolean is alike to what it agrees with once booleans are numbers. -/
theorem alike_eq_agrees_of_place {a b : Value} {p : Place} (ha : a.place? = some p)
    (hb : b.isJson Number.isDefined = true) : a.alike b = (numeric a).agrees (numeric b) := by
  have halike := alike_eq_alikeNumbers (b := b) ha
  rw [← place?_numeric] at ha
  rw [halike, ← alikeNumbers_numeric]
  exact (agrees_of_place ha (numeric_ne_bool a) (isJson_numeric hb) (numeric_ne_bool b)).symm

theorem exists_place {x : Binary64} (h : (Number.float x).isDefined = true) :
    ∃ p, (Value.float x).place? = some p := by
  cases x <;> first | exact ⟨_, rfl⟩ | cases h

theorem alikeAll_eq_agreesAll {xs ys : List Value}
    (h : ∀ x ∈ xs, ∀ y ∈ ys, x.alike y = (numeric x).agrees (numeric y)) :
    alikeAll xs ys = agreesAll (xs.map numeric) (ys.map numeric) := by
  induction xs generalizing ys with
  | nil => cases ys <;> simp [alikeAll, agreesAll]
  | cons x xs ih =>
    cases ys with
    | nil => simp [alikeAll, agreesAll]
    | cons y ys =>
      rw [alikeAll, List.map_cons, List.map_cons, agreesAll,
        h x (List.mem_cons_self ..) y (List.mem_cons_self ..),
        ih fun z hz w hw => h z (List.mem_cons_of_mem _ hz) w (List.mem_cons_of_mem _ hw)]

variable {entries others : List (String × Value)}

theorem alikeFields_iff (h : (others.map (·.1)).Nodup) :
    alikeFields (Fields.ofEntries entries) (Fields.ofEntries others) = true ↔
      ∀ entry ∈ entries, ∃ w, (entry.1, w) ∈ others ∧ entry.2.alike w = true := by
  induction entries with
  | nil => simp [alikeFields]
  | cons entry entries ih =>
    obtain ⟨key, v⟩ := entry
    rw [Fields.ofEntries_cons, alikeFields, Bool.and_eq_true, ih, List.forall_mem_cons]
    refine and_congr_left' ?_
    simp only [← Fields.getText?_ofEntries_eq_some h, Fields.getText?, Fields.get?]
    cases (Fields.ofEntries others).find? fun field => (Value.str key).alike field.1 <;> simp

theorem alike_ofEntries (h : (others.map (·.1)).Nodup) :
    alike (.object (Fields.ofEntries entries)) (.object (Fields.ofEntries others)) = true ↔
      entries.length = others.length ∧
        ∀ entry ∈ entries, ∃ w, (entry.1, w) ∈ others ∧ entry.2.alike w = true := by
  have hlength (entries : List (String × Value)) :
      (Fields.ofEntries entries).length = entries.length := List.length_map _
  rw [alike, Bool.and_eq_true, beq_iff_eq, hlength, hlength, alikeFields_iff h]

/-- **Values are alike exactly when they agree with numbers in place of booleans.** -/
theorem alike_eq_agrees {a : Value} (ha : a.isJson Number.isDefined = true) :
    ∀ b : Value, b.isJson Number.isDefined = true → a.alike b = (numeric a).agrees (numeric b) := by
  induction a, ha using isJson_induction with
  | null =>
    intro b hb
    cases b <;> simp_all [isJson, numeric, alike, agrees, asAsked, equals, undefinedTag?]
  | bool x => exact fun b hb => alike_eq_agrees_of_place rfl hb
  | int n h => exact fun b hb => alike_eq_agrees_of_place rfl hb
  | float x h =>
    obtain ⟨p, hp⟩ := exists_place h
    exact fun b hb => alike_eq_agrees_of_place hp hb
  | str s =>
    intro b hb
    cases b <;> simp_all [isJson, numeric, alike, agrees, asAsked, equals, undefinedTag?]
  | list items hall ih =>
    intro b hb
    cases b with
    | list others =>
      rw [isJson_list] at hb
      rw [numeric_list, numeric_list, alike,
        alikeAll_eq_agreesAll fun x hx y hy => ih x hx y (hb y hy)]
      simp only [agrees, asAsked]
    | _ => simp [numeric, alike, agrees, asAsked, equals, undefinedTag?]
  | object entries hkeys hall ih =>
    intro b hb
    cases b with
    | object fields =>
      obtain ⟨others, rfl, hothers, hall'⟩ := isJson_object hb
      have hothers' : ((others.map fun entry => (entry.1, numeric entry.2)).map (·.1)).Nodup := by
        rwa [keys_map]
      rw [Bool.eq_iff_iff, numeric_ofEntries, numeric_ofEntries, alike_ofEntries hothers,
        agrees_ofEntries hothers', List.length_map, List.length_map, List.forall_mem_map]
      refine and_congr_right fun _ => forall₂_congr fun entry hentry => ?_
      constructor
      · rintro ⟨w, hother, halike⟩
        rw [ih entry hentry w (hall' _ hother)] at halike
        exact ⟨numeric w, List.mem_map.mpr ⟨_, hother, rfl⟩, halike⟩
      · rintro ⟨v, hv, hagrees⟩
        obtain ⟨⟨key, w⟩, hother, heq⟩ := List.mem_map.mp hv
        obtain ⟨rfl, rfl⟩ := Prod.mk.inj heq
        rw [← ih entry hentry w (hall' _ hother)] at hagrees
        exact ⟨w, hother, hagrees⟩
    | _ => simp [numeric, alike, agrees, asAsked, equals, undefinedTag?]

/-- Values are alike exactly when they have the same normal form with numbers in place of
booleans. -/
theorem alike_iff_normal {a b : Value} (ha : a.isJson Number.isDefined = true)
    (hb : b.isJson Number.isDefined = true) :
    a.alike b = true ↔ normal (numeric a) = normal (numeric b) := by
  rw [alike_eq_agrees ha b hb]
  exact agrees_iff_normal (isJson_numeric ha) _ (isJson_numeric hb)

theorem alike_comm {a b : Value} (ha : a.isJson Number.isDefined = true)
    (hb : b.isJson Number.isDefined = true) : a.alike b = b.alike a := by
  rw [Bool.eq_iff_iff, alike_iff_normal ha hb, alike_iff_normal hb ha]
  exact eq_comm

/-- What is alike is alike to the same values. -/
theorem alike_congr_right {a b c : Value} (ha : a.isJson Number.isDefined = true)
    (hb : b.isJson Number.isDefined = true) (hc : c.isJson Number.isDefined = true)
    (h : b.alike c = true) : a.alike b = a.alike c := by
  rw [alike_iff_normal hb hc] at h
  rw [Bool.eq_iff_iff, alike_iff_normal ha hb, alike_iff_normal ha hc, h]

theorem place?_of_alike {a b : Value} {p : Place} (ha : a.place? = some p) (h : a.alike b = true) :
    b.place? = some p := by
  rw [alike_eq_alikeNumbers ha, alikeNumbers, ha] at h
  cases hb : b.place? with
  | some q =>
    rw [hb] at h
    rw [beq_iff_eq.mp h]
  | none =>
    rw [hb] at h
    cases h

/-! ## Agreement keeps more apart -/

theorem alikeAll_of_agreesAll {xs ys : List Value}
    (h : ∀ x ∈ xs, ∀ y ∈ ys, x.agrees y = true → x.alike y = true)
    (hagree : agreesAll xs ys = true) : alikeAll xs ys = true := by
  induction xs generalizing ys with
  | nil => cases ys <;> simp_all [agreesAll, alikeAll]
  | cons x xs ih =>
    cases ys with
    | nil => simp [agreesAll] at hagree
    | cons y ys =>
      rw [agreesAll, Bool.and_eq_true] at hagree
      rw [alikeAll, Bool.and_eq_true]
      have hhead := h x (List.mem_cons_self ..) y (List.mem_cons_self ..) hagree.1
      have htail := ih (fun z hz w hw =>
        h z (List.mem_cons_of_mem _ hz) w (List.mem_cons_of_mem _ hw)) hagree.2
      exact ⟨hhead, htail⟩

theorem alike_of_equals {a b : Value} (h : a.equals b = true) : a.alike b = true :=
  (Bool.and_eq_true_iff.mp h).2

/-- **Values that agree are alike.** -/
theorem alike_of_agrees {a : Value} (ha : a.isJson Number.isDefined = true) :
    ∀ b : Value, b.isJson Number.isDefined = true → a.agrees b = true → a.alike b = true := by
  induction a, ha using isJson_induction with
  | bool x =>
    intro b _ h
    cases b <;> simp_all [isJson, agrees, asAsked, alike, alikeNumbers, place?]
  | null | str s | int n | float x =>
    intro b hb h
    refine alike_of_equals ?_
    cases b <;> simp_all [isJson, agrees, asAsked]
  | list items hall ih =>
    intro b hb h
    cases b with
    | list others =>
      rw [isJson_list] at hb
      simp only [agrees, asAsked] at h
      rw [alike]
      exact alikeAll_of_agreesAll (fun x hx y hy => ih x hx y (hb y hy)) h
    | _ => simp_all [isJson, agrees, asAsked, equals, alike]
  | object entries hkeys hall ih =>
    intro b hb h
    cases b with
    | object fields =>
      obtain ⟨others, rfl, hothers, hall'⟩ := isJson_object hb
      obtain ⟨hlength, hagree⟩ := (agrees_ofEntries hothers).mp h
      refine (alike_ofEntries hothers).mpr ⟨hlength, fun entry hentry => ?_⟩
      obtain ⟨w, hother, hagrees⟩ := hagree entry hentry
      exact ⟨w, hother, ih entry hentry w (hall' _ hother) hagrees⟩
    | _ => simp_all [isJson, agrees, asAsked, equals, alike]

end Value

end SnapshotStore
