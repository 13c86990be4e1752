import SnapshotStore.Proofs.Pipeline.Key

/-!
# Agreement as a relation

**Theorem (`agrees_symm`, `agrees_of_common`).** Among JSON values, agreement goes both ways, and
two values that agree with a third agree with each other.

An undefined number agrees with nothing, so values that agree have none (`isDefined_of_agrees`).
Those without agree when their normal forms are the same.
-/

namespace SnapshotStore

namespace Value

variable {p : Number → Bool}

theorem isDefined_of_agreesAll {xs ys : List Value}
    (h : ∀ x ∈ xs, ∀ y ∈ ys, x.agrees y = true →
      x.isJson Number.isDefined = true ∧ y.isJson Number.isDefined = true)
    (hagrees : agreesAll xs ys = true) :
    (∀ x ∈ xs, x.isJson Number.isDefined = true) ∧ ∀ y ∈ ys, y.isJson Number.isDefined = true := by
  induction xs generalizing ys with
  | nil =>
    cases ys with
    | nil => exact ⟨fun _ hx => absurd hx List.not_mem_nil, fun _ hy => absurd hy List.not_mem_nil⟩
    | cons y ys => simp [agreesAll] at hagrees
  | cons x xs ih =>
    cases ys with
    | nil => simp [agreesAll] at hagrees
    | cons y ys =>
      rw [agreesAll, Bool.and_eq_true] at hagrees
      obtain ⟨hx, hy⟩ := h x (List.mem_cons_self ..) y (List.mem_cons_self ..) hagrees.1
      obtain ⟨hxs, hys⟩ := ih (fun z hz w hw =>
        h z (List.mem_cons_of_mem _ hz) w (List.mem_cons_of_mem _ hw)) hagrees.2
      exact ⟨List.forall_mem_cons.mpr ⟨hx, hxs⟩, List.forall_mem_cons.mpr ⟨hy, hys⟩⟩

theorem isDefined_of_place {v : Value} {q : Place} (h : v.place? = some q) :
    v.isJson Number.isDefined = true := by
  cases v with
  | bool b | int n => rfl
  | float x => cases x <;> first | rfl | cases h
  | _ => cases h

/-- A number that equals something has a place, and so has what it equals. -/
theorem isDefined_of_equals {a b : Value} (halike : a.alike b = a.alikeNumbers b)
    (h : a.equals b = true) :
    a.isJson Number.isDefined = true ∧ b.isJson Number.isDefined = true := by
  rw [equals, halike, Bool.and_eq_true, Bool.not_eq_true'] at h
  obtain ⟨htag, halike⟩ := h
  unfold alikeNumbers at halike
  rw [htag, Bool.false_and] at halike
  split at halike
  · next hp hq => exact ⟨isDefined_of_place hp, isDefined_of_place hq⟩
  · cases halike
  · cases halike

/-- **Values that agree have no undefined numbers.** -/
theorem isDefined_of_agrees {a : Value} (ha : a.isJson p = true) :
    ∀ b : Value, b.isJson p = true → a.agrees b = true →
      a.isJson Number.isDefined = true ∧ b.isJson Number.isDefined = true := by
  induction a, ha using isJson_induction with
  | null =>
    intro b hb h
    cases b <;> simp_all [isJson, agrees, asAsked, equals, alike, undefinedTag?]
  | bool x =>
    intro b hb h
    cases b <;> simp_all [isJson, agrees, asAsked]
  | str s =>
    intro b hb h
    cases b <;> simp_all [isJson, agrees, asAsked, equals, alike, undefinedTag?]
  | int n hn =>
    intro b hb h
    refine isDefined_of_equals (by simp only [alike]) ?_
    cases b <;> simp_all [agrees, asAsked, isJson]
  | float x hx =>
    intro b hb h
    refine isDefined_of_equals (by simp only [alike]) ?_
    cases b <;> simp_all [agrees, asAsked, isJson]
  | list items hall ih =>
    intro b hb h
    cases b with
    | list others =>
      rw [isJson_list] at hb
      simp only [agrees, asAsked] at h
      rw [isJson_list, isJson_list]
      exact isDefined_of_agreesAll (fun x hx y hy => ih x hx y (hb y hy)) h
    | _ => simp_all [isJson, agrees, asAsked, equals, alike, undefinedTag?]
  | object entries hkeys hall ih =>
    intro b hb h
    cases b with
    | object fields =>
      obtain ⟨others, rfl, hothers, hall'⟩ := isJson_object hb
      obtain ⟨hlength, hagree⟩ := (Group.agrees_ofEntries hothers).mp h
      -- every key of the second is one of the first, as there are as many of them
      have hkeys' := ((Group.perm_map_iff (fun _ => .null) hkeys).mpr ⟨hlength, fun entry hentry =>
        (hagree entry hentry).imp fun _ hw => ⟨hw.1, rfl⟩⟩).map Prod.fst
      rw [keys_map, keys_map] at hkeys'
      rw [isJson_ofEntries, isJson_ofEntries]
      refine ⟨⟨hkeys, fun entry hentry => ?_⟩, hothers, fun other hother => ?_⟩
      · obtain ⟨w, hw, hagrees⟩ := hagree entry hentry
        exact (ih entry hentry w (hall' _ hw) hagrees).1
      · obtain ⟨entry, hentry, hkey⟩ :=
          List.mem_map.mp (hkeys'.mem_iff.mpr (List.mem_map_of_mem hother))
        obtain ⟨w, hw, hagrees⟩ := hagree entry hentry
        obtain rfl : (entry.1, w) = other := List.inj_on_of_nodup_map hothers hw hother hkey
        exact (ih entry hentry w (hall' _ hw) hagrees).2
    | _ => simp_all [isJson, agrees, asAsked, equals, alike, undefinedTag?]

variable {a b c : Value}

theorem agrees_iff_defined (ha : a.isJson p = true) (hb : b.isJson p = true) :
    a.agrees b = true ↔ a.isJson Number.isDefined = true ∧ b.isJson Number.isDefined = true ∧
      Group.normal a = Group.normal b := by
  constructor
  · intro h
    obtain ⟨hda, hdb⟩ := isDefined_of_agrees ha b hb h
    exact ⟨hda, hdb, (Group.agrees_iff_normal hda b hdb).mp h⟩
  · rintro ⟨hda, hdb, h⟩
    exact (Group.agrees_iff_normal hda b hdb).mpr h

theorem agrees_symm (ha : a.isJson p = true) (hb : b.isJson p = true) (h : a.agrees b = true) :
    b.agrees a = true := by
  obtain ⟨hda, hdb, h⟩ := (agrees_iff_defined ha hb).mp h
  exact (agrees_iff_defined hb ha).mpr ⟨hdb, hda, h.symm⟩

/-- Values that agree with a third agree with each other. -/
theorem agrees_of_common (ha : a.isJson p = true) (hb : b.isJson p = true) (hc : c.isJson p = true)
    (hac : a.agrees c = true) (hbc : b.agrees c = true) : a.agrees b = true := by
  obtain ⟨hda, -, hac⟩ := (agrees_iff_defined ha hc).mp hac
  obtain ⟨hdb, -, hbc⟩ := (agrees_iff_defined hb hc).mp hbc
  exact (agrees_iff_defined ha hb).mpr ⟨hda, hdb, hac.trans hbc.symm⟩

end Value

end SnapshotStore
