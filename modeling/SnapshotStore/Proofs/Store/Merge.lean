import SnapshotStore.Proofs.Store.Isolation
import SnapshotStore.Proofs.Value.Overlay

/-!
# Merging patches

A document that is merged with a patch has the fields of the patch and the other fields it had, but
for its key field, which stays as it was whatever the patch says of it (`getText?_merge`).

**Theorem (`merge_merge`).** To merge two patches one after the other is to merge one patch, the
second laid over the first.
-/

namespace SnapshotStore

/-! ## Contents that are exchanged twice -/

namespace Entries

theorem insert_insert (key : String) (doc doc' : Document) (entries : List (String × Document)) :
    insert key doc' (insert key doc entries) = insert key doc' entries := by
  induction entries with
  | nil => simp [insert]
  | cons entry entries ih =>
    by_cases hkey : entry.1 = key
    · simp [insert, hkey]
    · simp [insert, hkey, ih]

end Entries

namespace Collections

theorem set_set (data : Collections) (name : String) (contents contents' : Contents) :
    (data.set name contents).set name contents' = data.set name contents' := by
  unfold Collections.set
  rw [List.map_map]
  refine List.map_congr_left fun entry _ => ?_
  by_cases hname : entry.1 = name <;> simp [hname]

end Collections

/-! ## Merging -/

namespace Store

variable {field : String} {current patch merged : Document}

theorem merge_eq_ok :
    merge field current patch = .ok merged ↔ ∃ id, Fields.getText? current field = some id ∧
      merged = Fields.insert (Fields.overlay current patch) (.str field) id := by
  unfold merge
  cases Fields.getText? current field with
  | none => simp
  | some id => simp [eq_comm]

section Laid

variable {laid : List (String × Value)} (hkeys : (laid.map (·.1)).Nodup)
include hkeys

/-- **What a merged document has.** -/
theorem getText?_merge (hmerged : merge field current (Fields.ofEntries laid) = .ok merged)
    (name : String) : Fields.getText? merged name =
      if name = field then Fields.getText? current field
      else (laid.lookup name).or (Fields.getText? current name) := by
  obtain ⟨id, hid, rfl⟩ := merge_eq_ok.mp hmerged
  split_ifs with hname
  · rw [hname, Fields.getText?_insert_self, hid]
  · rw [Fields.getText?_insert_of_ne (Ne.symm hname), Fields.getText?_overlay _ hkeys]

/-- **Two patches merged one after the other** are merged at once. -/
theorem merge_merge (hmerged : merge field current (Fields.ofEntries laid) = .ok merged)
    (others : List (String × Value)) : merge field merged (Fields.ofEntries others) =
      merge field current (Fields.overlay (Fields.ofEntries laid) (Fields.ofEntries others)) := by
  obtain ⟨id, hid, rfl⟩ := merge_eq_ok.mp hmerged
  have hthere :
      (Fields.getText? (Fields.overlay current (Fields.ofEntries laid)) field).isSome := by
    rw [Fields.getText?_overlay _ hkeys, hid, Option.isSome_or, Option.isSome_some, Bool.or_true]
  have hboth : merge field current
      (Fields.overlay (Fields.ofEntries laid) (Fields.ofEntries others)) = .ok (Fields.insert
        (Fields.overlay (Fields.overlay current (Fields.ofEntries laid)) (Fields.ofEntries others))
        (.str field) id) :=
    merge_eq_ok.mpr ⟨id, hid, by rw [Fields.overlay_overlay _ hkeys]⟩
  rw [hboth, ← Fields.insert_overlay_insert hthere]
  exact merge_eq_ok.mpr ⟨id, Fields.getText?_insert_self .., rfl⟩

end Laid

/-- A document that is held can be merged with any patch. -/
theorem exists_merge {key : String} (h : Filed field (key, current)) (patch : Document) :
    ∃ merged, merge field current patch = .ok merged := by
  obtain ⟨id, hid, -⟩ := h.key
  exact ⟨_, merge_eq_ok.mpr ⟨id, hid, rfl⟩⟩

end Store

end SnapshotStore
