import SnapshotStore.Proofs.Value.Json

/-!
# Laying fields over others

Fields that are laid over others go in one after the other, each in the place of the field of its
key or at the end. So the order of the fields matters, and it is kept track of here.

**Theorem (`overlay_overlay`).** To lay fields over others and then more fields over the result is
to lay them all over at once, the later ones first laid over the earlier ones.

**Theorem (`getText?_overlay`).** What is found afterwards is what was laid over, or what was there.

Two insertions under different keys commute when one of the keys is there already (`insert_comm`):
otherwise their order shows.
-/

namespace SnapshotStore

namespace Fields

variable {name other : String} {fields : Fields} {entries held : List (String × Value)}

/-! ## Two insertions -/

theorem insert_insert_self (fields : Fields) (name : String) (v w : Value) :
    insert (insert fields (.str name) v) (.str name) w = insert fields (.str name) w := by
  induction fields with
  | nil => simp [insert, Value.alike_str_iff.mpr]
  | cons field fields ih =>
    obtain ⟨k, u⟩ := field
    by_cases hk : (Value.str name).alike k = true
    · simp [insert, hk]
    · simp [insert, hk, ih]

theorem insert_comm (hne : name ≠ other) (hthere : (getText? fields name).isSome) (v w : Value) :
    insert (insert fields (.str name) v) (.str other) w =
      insert (insert fields (.str other) w) (.str name) v := by
  induction fields with
  | nil => cases hthere
  | cons field fields ih =>
    obtain ⟨k, u⟩ := field
    by_cases hname : k = .str name
    · subst hname
      have hself : (Value.str name).alike (.str name) = true := Value.alike_str_iff.mpr rfl
      have hother : (Value.str other).alike (.str name) = false :=
        Value.alike_str_eq_false fun h => hne (Value.str.inj h)
      simp [insert, hself, hother]
    · have hk : (Value.str name).alike k = false := Value.alike_str_eq_false hname
      rw [getText?_cons_of_ne hname] at hthere
      by_cases hother : (Value.str other).alike k = true
      · simp [insert, hk, hother]
      · simp [insert, hk, hother, ih hthere]

theorem isSome_getText?_insert (h : (getText? fields name).isSome) (other : String) (v : Value) :
    (getText? (insert fields (.str other) v) name).isSome := by
  by_cases hne : other = name
  · rw [hne, getText?_insert_self]
    rfl
  · rwa [getText?_insert_of_ne hne]

/-! ## Overlays -/

@[simp] theorem overlay_nil (fields : Fields) : overlay fields [] = fields := rfl

@[simp] theorem overlay_cons (fields : Fields) (k v : Value) (others : Fields) :
    overlay fields ((k, v) :: others) = overlay (insert fields k v) others := rfl

/-- A value that is laid over something else is not seen afterwards. -/
theorem insert_overlay_insert (hthere : (getText? fields name).isSome) (v w : Value) :
    insert (overlay (insert fields (.str name) v) (ofEntries entries)) (.str name) w =
      insert (overlay fields (ofEntries entries)) (.str name) w := by
  induction entries generalizing fields with
  | nil => exact insert_insert_self fields name v w
  | cons entry entries ih =>
    obtain ⟨key, u⟩ := entry
    rw [ofEntries_cons, overlay_cons, overlay_cons]
    by_cases hkey : name = key
    · rw [hkey, insert_insert_self]
    · rw [insert_comm hkey hthere, ih (isSome_getText?_insert hthere key u)]

/-- A value may go in before others that are of other keys. -/
theorem insert_overlay (hthere : (getText? fields name).isSome) (hnew : name ∉ entries.map (·.1))
    (v : Value) : insert (overlay fields (ofEntries entries)) (.str name) v =
      overlay (insert fields (.str name) v) (ofEntries entries) := by
  induction entries generalizing fields with
  | nil => rfl
  | cons entry entries ih =>
    obtain ⟨key, u⟩ := entry
    rw [List.map_cons, List.mem_cons, not_or] at hnew
    rw [ofEntries_cons, overlay_cons, overlay_cons, insert_comm hnew.1 hthere]
    exact ih (isSome_getText?_insert hthere key u) hnew.2

/-- To lay over fields with one more is to lay over the fields and then the one. -/
theorem overlay_insert (fields : Fields) (hkeys : (entries.map (·.1)).Nodup) (name : String)
    (v : Value) : overlay fields (insert (ofEntries entries) (.str name) v) =
      insert (overlay fields (ofEntries entries)) (.str name) v := by
  induction entries generalizing fields with
  | nil => rfl
  | cons entry entries ih =>
    obtain ⟨key, u⟩ := entry
    rw [List.map_cons, List.nodup_cons] at hkeys
    rw [ofEntries_cons]
    by_cases hkey : name = key
    · subst hkey
      have hthere : (getText? (insert fields (.str name) u) name).isSome := by
        rw [getText?_insert_self]
        rfl
      rw [insert, if_pos (Value.alike_str_iff.mpr rfl), overlay_cons, overlay_cons,
        insert_overlay hthere hkeys.1, insert_insert_self]
    · have hne : (Value.str name).alike (.str key) = false :=
        Value.alike_str_eq_false fun h => hkey (Value.str.inj h).symm
      rw [insert, hne, if_neg Bool.false_ne_true, overlay_cons, overlay_cons, ih _ hkeys.2]

/-- **Fields over fields over others** are fields over others. -/
theorem overlay_overlay (fields : Fields) (hkeys : (held.map (·.1)).Nodup)
    (entries : List (String × Value)) :
    overlay fields (overlay (ofEntries held) (ofEntries entries)) =
      overlay (overlay fields (ofEntries held)) (ofEntries entries) := by
  induction entries generalizing held with
  | nil => rfl
  | cons entry entries ih =>
    obtain ⟨key, v⟩ := entry
    obtain ⟨held', hheld', hkeys', -⟩ := exists_insert_ofEntries held key v
    rw [ofEntries_cons, overlay_cons, hheld', ih (hkeys' hkeys), ← hheld', overlay_insert _ hkeys,
      overlay_cons]

/-- **What is found in an overlay** is what was laid over, or what was there. -/
theorem getText?_overlay (fields : Fields) (hkeys : (entries.map (·.1)).Nodup) (name : String) :
    getText? (overlay fields (ofEntries entries)) name =
      (entries.lookup name).or (getText? fields name) := by
  induction entries generalizing fields with
  | nil => rfl
  | cons entry entries ih =>
    obtain ⟨key, v⟩ := entry
    rw [List.map_cons, List.nodup_cons] at hkeys
    rw [ofEntries_cons, overlay_cons, ih _ hkeys.2, List.lookup_cons]
    by_cases hkey : name = key
    · subst hkey
      rw [List.lookup_eq_none_iff.mpr fun entry hentry => bne_iff_ne.mpr ?_, getText?_insert_self,
        beq_self_eq_true]
      · rfl
      · rintro rfl
        exact hkeys.1 (List.mem_map.mpr ⟨entry, hentry, rfl⟩)
    · rw [getText?_insert_of_ne (Ne.symm hkey), beq_false_of_ne hkey]

end Fields

end SnapshotStore
