import SnapshotStore.Proofs.Value.Relate

/-!
# Comparing through a third value

**Theorem (`isGreater_trans`).** Among JSON values without undefined numbers, what is greater than a
value is greater than all that this value is greater than.

Numbers and texts are totally ordered, and null and objects compare with nothing, so the matter is
lists. One list is greater than another if it leads it (`Leads`): by a greater member behind members
that are alike, or by going on where the other ends. Of three lists, the first and the second may
part at one place and the second and the third at another. At the earlier place one of the two pairs
is still alike, and what is alike compares alike (`relate?_of_alike_right`); where both pairs part
at once, the members there decide by induction.
-/

namespace SnapshotStore.Value

/-! ## What is alike compares alike -/

variable {a b c : Value} {xs ys zs : List Value} {r : Relation}

theorem relateAll?_of_alike (hxs : ∀ x ∈ xs, x.isJson Number.isDefined = true)
    (hys : ∀ y ∈ ys, y.isJson Number.isDefined = true)
    (hzs : ∀ z ∈ zs, z.isJson Number.isDefined = true)
    (h : ∀ x ∈ xs, ∀ y ∈ ys, ∀ z ∈ zs, relate? x y = some r → y.alike z = true →
      relate? x z = some r)
    (hrelate : relateAll? xs ys = some r) (halike : alikeAll ys zs = true) :
    relateAll? xs zs = some r := by
  induction xs generalizing ys zs with
  | nil => cases ys <;> cases zs <;> simp_all [relateAll?, alikeAll]
  | cons x xs ih =>
    cases ys with
    | nil => cases zs <;> simp_all [relateAll?, alikeAll]
    | cons y ys =>
      cases zs with
      | nil => simp [alikeAll] at halike
      | cons z zs =>
        rw [List.forall_mem_cons] at hxs hys hzs
        rw [alikeAll, Bool.and_eq_true] at halike
        rw [relateAll?, alike_congr_right hxs.1 hys.1 hzs.1 halike.1] at hrelate
        rw [relateAll?]
        split_ifs at hrelate ⊢
        · exact ih hxs.2 hys.2 hzs.2 (fun u hu v hv w hw => h u (List.mem_cons_of_mem _ hu) v
            (List.mem_cons_of_mem _ hv) w (List.mem_cons_of_mem _ hw)) hrelate halike.2
        · exact h x List.mem_cons_self y List.mem_cons_self z List.mem_cons_self hrelate halike.1

theorem relate?_of_alike_of_place {p : Place} (ha : a.place? = some p)
    (hb : b.isJson Number.isDefined = true) (hrelate : relate? a b = some r)
    (halike : b.alike c = true) : relate? a c = some r := by
  cases hplace : b.place? with
  | some q =>
    rw [relate?_of_places ha hplace] at hrelate
    rwa [relate?_of_places ha (place?_of_alike hplace halike)]
  | none =>
    rw [(relate?_of_no_place ha hb hplace).1] at hrelate
    cases hrelate

/-- **What is alike compares alike.** -/
theorem relate?_of_alike_right (ha : a.isJson Number.isDefined = true) :
    ∀ b c : Value, b.isJson Number.isDefined = true → c.isJson Number.isDefined = true →
      relate? a b = some r → b.alike c = true → relate? a c = some r := by
  induction a, ha using isJson_induction with
  | bool x => exact fun b c hb _ => relate?_of_alike_of_place rfl hb
  | int n h => exact fun b c hb _ => relate?_of_alike_of_place rfl hb
  | float x h =>
    obtain ⟨p, hp⟩ := exists_place h
    exact fun b c hb _ => relate?_of_alike_of_place hp hb
  | str s =>
    intro b c _ _ hrelate halike
    cases b with
    | str t => rwa [alike_str_iff.mp halike]
    | _ => simp [relate?] at hrelate
  | list xs hxs ih =>
    intro b c hb hc hrelate halike
    cases b with
    | list ys =>
      cases c with
      | list zs =>
        rw [isJson_list] at hb hc
        rw [relate?] at hrelate ⊢
        rw [alike] at halike
        exact relateAll?_of_alike hxs hb hc
          (fun x hx y hy z hz => ih x hx y z (hb y hy) (hc z hz)) hrelate halike
      | _ => simp [alike] at halike
    | _ => simp [relate?] at hrelate
  | null | object entries =>
    intro b c _ _ hrelate
    simp [relate?] at hrelate

section Defined

variable (ha : a.isJson Number.isDefined = true) (hb : b.isJson Number.isDefined = true)
  (hc : c.isJson Number.isDefined = true)

include ha hb hc

theorem isGreater_of_alike_right (h : a.isGreater b = true) (halike : b.alike c = true) :
    a.isGreater c = true := by
  rw [isGreater_iff_relate? ha] at h ⊢
  exact relate?_of_alike_right ha b c hb hc h halike

/-- The same with the values turned round, which compare the other way round. -/
theorem isGreater_of_alike_left (halike : a.alike b = true) (h : b.isGreater c = true) :
    a.isGreater c = true := by
  rw [isGreater_iff_relate? hb] at h
  rw [alike_comm ha hb] at halike
  have hless : relate? c b = some .less := by
    rw [relate?_swap hb c hc, h]
    rfl
  have hless' : relate? c a = some .less := relate?_of_alike_right hc b a hb ha hless halike
  rw [isGreater_iff_relate? ha, relate?_swap hc a ha, hless']
  rfl

end Defined

theorem not_isGreater_self (ha : a.isJson Number.isDefined = true) : ¬ a.isGreater a = true := by
  intro h
  rw [isGreater_asymm ha ha h] at h
  cases h

theorem not_alike_of_isGreater (ha : a.isJson Number.isDefined = true)
    (hb : b.isJson Number.isDefined = true) (h : a.isGreater b = true) : ¬ a.alike b = true := by
  intro halike
  rw [alike_comm ha hb] at halike
  exact not_isGreater_self ha (isGreater_of_alike_right ha hb ha h halike)

/-! ## Lists -/

/-- One list leads another: it has a greater member behind members that are alike, or goes on where
the other one ends. -/
inductive Leads : List Value → List Value → Prop where
  | longer (x : Value) (xs : List Value) : Leads (x :: xs) []
  | here {x y : Value} (xs ys : List Value) (h : x.isGreater y = true) : Leads (x :: xs) (y :: ys)
  | later {x y : Value} {xs ys : List Value} (halike : x.alike y = true) (h : Leads xs ys) :
    Leads (x :: xs) (y :: ys)

theorem leads_cons_iff {x y : Value} (hx : x.isJson Number.isDefined = true)
    (hy : y.isJson Number.isDefined = true) : Leads (x :: xs) (y :: ys) ↔
      if x.alike y = true then Leads xs ys else x.isGreater y = true := by
  split_ifs with halike
  · refine ⟨fun h => ?_, .later halike⟩
    cases h with
    | here _ _ h => exact absurd halike (not_alike_of_isGreater hx hy h)
    | later _ h => exact h
  · refine ⟨fun h => ?_, .here xs ys⟩
    cases h with
    | here _ _ h => exact h
    | later h _ => exact absurd h halike

theorem relateAll?_eq_greater (hxs : ∀ x ∈ xs, x.isJson Number.isDefined = true)
    (hys : ∀ y ∈ ys, y.isJson Number.isDefined = true) :
    relateAll? xs ys = some .greater ↔ Leads xs ys := by
  induction xs generalizing ys with
  | nil => cases ys <;> simp [relateAll?] <;> rintro ⟨⟩
  | cons x xs ih =>
    cases ys with
    | nil => exact iff_of_true (by rw [relateAll?]) (.longer x xs)
    | cons y ys =>
      rw [List.forall_mem_cons] at hxs hys
      rw [leads_cons_iff hxs.1 hys.1, relateAll?]
      split_ifs
      · exact ih hxs.2 hys.2
      · exact (isGreater_iff_relate? hxs.1).symm

/-- **One list is greater than another if it leads it.** -/
theorem isGreater_list_iff (hxs : ∀ x ∈ xs, x.isJson Number.isDefined = true)
    (hys : ∀ y ∈ ys, y.isJson Number.isDefined = true) :
    (Value.list xs).isGreater (.list ys) = true ↔ Leads xs ys := by
  rw [isGreater_iff_relate? (isJson_list.mpr hxs), relate?, relateAll?_eq_greater hxs hys]

/-- A list leads what is led by a list that it leads, if the members do so. -/
theorem Leads.trans (h : Leads xs ys) (h' : Leads ys zs)
    (hxs : ∀ x ∈ xs, x.isJson Number.isDefined = true)
    (hys : ∀ y ∈ ys, y.isJson Number.isDefined = true)
    (hzs : ∀ z ∈ zs, z.isJson Number.isDefined = true)
    (htrans : ∀ x ∈ xs, ∀ y ∈ ys, ∀ z ∈ zs, x.isGreater y = true → y.isGreater z = true →
      x.isGreater z = true) : Leads xs zs := by
  induction h generalizing zs with
  | longer x xs => cases h'
  | here xs ys h =>
    -- the first two part here, the last two here or later
    cases h' with
    | longer => exact .longer ..
    | here _ zs h' =>
      exact .here xs zs (htrans _ List.mem_cons_self _ List.mem_cons_self _ List.mem_cons_self h h')
    | later halike h' =>
      rw [List.forall_mem_cons] at hxs hys hzs
      exact .here _ _ (isGreater_of_alike_right hxs.1 hys.1 hzs.1 h halike)
  | later halike h ih =>
    -- the first two part later, the last two here or later, or the third ends here
    cases h' with
    | longer => exact .longer ..
    | here _ zs h' =>
      rw [List.forall_mem_cons] at hxs hys hzs
      exact .here _ zs (isGreater_of_alike_left hxs.1 hys.1 hzs.1 halike h')
    | later halike' h' =>
      rw [List.forall_mem_cons] at hxs hys hzs
      refine .later ?_ (ih h' hxs.2 hys.2 hzs.2 fun u hu v hv w hw => htrans u
        (List.mem_cons_of_mem _ hu) v (List.mem_cons_of_mem _ hv) w (List.mem_cons_of_mem _ hw))
      rwa [← alike_congr_right hxs.1 hys.1 hzs.1 halike']

/-! ## Transitivity -/

theorem Comparable.isGreater_trans (hab : Comparable a b) (hbc : Comparable b c)
    (h : a.isGreater b = true) (h' : b.isGreater c = true) : a.isGreater c = true := by
  rw [isGreater_eq hab, beq_iff_eq] at h
  rw [isGreater_eq hbc, beq_iff_eq] at h'
  rw [isGreater_eq (hab.trans hbc), beq_iff_eq]
  exact Std.TransCmp.gt_trans h h'

/-- Numbers are greater only than numbers. -/
theorem exists_place_of_isGreater {p : Place} (hp : a.place? = some p)
    (ha : a.isJson Number.isDefined = true) (hb : b.isJson Number.isDefined = true)
    (h : a.isGreater b = true) : ∃ q, b.place? = some q := by
  cases hplace : b.place? with
  | some q => exact ⟨q, rfl⟩
  | none =>
    rw [isGreater_iff_relate? ha, (relate?_of_no_place hp hb hplace).1] at h
    cases h

theorem isGreater_trans_of_place {p : Place} (hp : a.place? = some p)
    (ha : a.isJson Number.isDefined = true) (hb : b.isJson Number.isDefined = true)
    (hc : c.isJson Number.isDefined = true) (h : a.isGreater b = true)
    (h' : b.isGreater c = true) : a.isGreater c = true := by
  obtain ⟨q, hq⟩ := exists_place_of_isGreater hp ha hb h
  obtain ⟨r, hr⟩ := exists_place_of_isGreater hq hb hc h'
  exact Comparable.isGreater_trans (.inl (by simp [hp, hq])) (.inl (by simp [hq, hr])) h h'

/-- **What is greater than a value is greater than all that this value is greater than.** -/
theorem isGreater_trans (ha : a.isJson Number.isDefined = true) :
    ∀ b c : Value, b.isJson Number.isDefined = true → c.isJson Number.isDefined = true →
      a.isGreater b = true → b.isGreater c = true → a.isGreater c = true := by
  induction a, ha using isJson_induction with
  | bool x => exact fun b c => isGreater_trans_of_place rfl rfl
  | int n h => exact fun b c => isGreater_trans_of_place rfl h
  | float x h =>
    obtain ⟨p, hp⟩ := exists_place h
    exact fun b c => isGreater_trans_of_place hp h
  | str s =>
    intro b c _ _ h h'
    cases b with
    | str t =>
      cases c with
      | str u => exact Comparable.isGreater_trans (.inr ⟨rfl, rfl⟩) (.inr ⟨rfl, rfl⟩) h h'
      | _ => simp [isGreater_iff, relate?] at h'
    | _ => simp [isGreater_iff, relate?] at h
  | list xs hxs ih =>
    intro b c hb hc h h'
    cases b with
    | list ys =>
      cases c with
      | list zs =>
        rw [isJson_list] at hb hc
        rw [isGreater_list_iff hxs hb] at h
        rw [isGreater_list_iff hb hc] at h'
        rw [isGreater_list_iff hxs hc]
        exact h.trans h' hxs hb hc fun x hx y hy z hz => ih x hx y z (hb y hy) (hc z hz)
      | _ => simp [isGreater_iff, relate?] at h'
    | _ => simp [isGreater_iff, relate?] at h
  | null | object entries =>
    intro b c _ _ h
    simp [isGreater_iff, relate?] at h

end SnapshotStore.Value
