import SnapshotStore.Collections
import SnapshotStore.Proofs.Document

/-!
# Well-formed data

The data of a store is well-formed when it consists of the collections of the schema, in order, each
held in the way of its kind: an append-only one holds documents, a keyed one holds every document
under the text of its own key field, which is not null, and no two under one key
(`Collections.WellFormed`). Documents are JSON objects, so all keys in them are texts.

**Theorem (`WellFormed.set`).** Exchanging the contents of a collection for others that fit its kind
keeps data well-formed. The rest says which contents fit: none, and what an insertion or a removal
leaves of entries that do.
-/

namespace SnapshotStore

/-! ## Entries -/

namespace Entries

theorem mem_insert {key : String} {doc : Document} {entries : List (String × Document)}
    {entry : String × Document} (h : entry ∈ insert key doc entries) :
    entry = (key, doc) ∨ entry ∈ entries := by
  induction entries with
  | nil => exact .inl (List.mem_singleton.mp h)
  | cons other entries ih =>
    unfold insert at h
    split_ifs at h
    · exact (List.mem_cons.mp h).imp_right (List.mem_cons_of_mem _)
    · rcases List.mem_cons.mp h with rfl | h
      · exact .inr (List.mem_cons_self ..)
      · exact (ih h).imp_right (List.mem_cons_of_mem _)

theorem nodup_insert {key : String} {doc : Document} {entries : List (String × Document)}
    (h : (entries.map (·.1)).Nodup) : ((insert key doc entries).map (·.1)).Nodup := by
  induction entries with
  | nil => simp [insert]
  | cons entry entries ih =>
    rw [List.map_cons, List.nodup_cons] at h
    unfold insert
    split_ifs with hkey
    · subst hkey
      exact List.nodup_cons.mpr h
    · refine List.nodup_cons.mpr ⟨fun hmem => ?_, ih h.2⟩
      obtain ⟨other, hother, heq⟩ := List.mem_map.mp hmem
      rcases mem_insert hother with rfl | hmem
      · exact hkey heq.symm
      · exact h.1 (List.mem_map.mpr ⟨other, hmem, heq⟩)

theorem nodup_erase {key : String} {entries : List (String × Document)}
    (h : (entries.map (·.1)).Nodup) : ((erase key entries).map (·.1)).Nodup :=
  h.sublist (List.filter_sublist.map _)

theorem mem_of_lookup {key : String} {doc : Document} {entries : List (String × Document)}
    (h : entries.lookup key = some doc) : (key, doc) ∈ entries := by
  obtain ⟨before, after, rfl, -⟩ := List.lookup_eq_some_iff.mp h
  simp

end Entries

/-! ## Contents -/

/-- A document is held under the text of its own key field, which is not null. -/
structure Filed (field : String) (entry : String × Document) : Prop where
  stored : Document.Stored entry.2
  key : ∃ id, Fields.getText? entry.2 field = some id ∧ id ≠ .null ∧ entry.1 = id.display

/-- Contents are held in the way of a kind of collection. -/
def Contents.Fits : Contents → Kind → Prop
  | .keyed entries, .keyed field =>
    (entries.map (·.1)).Nodup ∧ ∀ entry ∈ entries, Filed field entry
  | .appendOnly docs, .appendOnly => ∀ doc ∈ docs, Document.Stored doc
  | _, _ => False

namespace Contents

theorem fits_noContents (kind : Kind) : kind.noContents.Fits kind := by
  cases kind with
  | keyed field => exact ⟨List.nodup_nil, fun _ h => absurd h List.not_mem_nil⟩
  | appendOnly => exact fun _ h => absurd h List.not_mem_nil

theorem fits_insert {field key : String} {doc : Document} {entries : List (String × Document)}
    (h : (keyed entries).Fits (.keyed field)) (hdoc : Filed field (key, doc)) :
    (keyed (Entries.insert key doc entries)).Fits (.keyed field) := by
  refine ⟨Entries.nodup_insert h.1, fun entry hentry => ?_⟩
  rcases Entries.mem_insert hentry with rfl | hmem
  · exact hdoc
  · exact h.2 entry hmem

theorem fits_erase {field : String} {entries : List (String × Document)}
    (h : (keyed entries).Fits (.keyed field)) (key : String) :
    (keyed (Entries.erase key entries)).Fits (.keyed field) :=
  ⟨Entries.nodup_erase h.1, fun entry hentry => h.2 entry (List.mem_filter.mp hentry).1⟩

theorem fits_append {docs : List Document} (h : (appendOnly docs).Fits .appendOnly)
    {doc : Document} (hdoc : doc.Stored) : (appendOnly (docs ++ [doc])).Fits .appendOnly :=
  List.forall_mem_append.mpr ⟨h, List.forall_mem_singleton.mpr hdoc⟩

/-- Contents that fit a kind are a JSON value when the documents are. -/
theorem isJson_toValue {contents : Contents} {kind : Kind} {number : Number → Bool}
    (h : contents.Fits kind) :
    contents.toValue.isJson number = true ↔
      ∀ doc ∈ contents.documents, (Value.object doc).isJson number = true := by
  cases contents with
  | keyed entries =>
    cases kind with
    | keyed field =>
      have hvalue : (keyed entries).toValue =
          .object (Fields.ofEntries (entries.map fun entry => (entry.1, .object entry.2))) := by
        simp [toValue, Fields.ofEntries]
      have hnodup :
          ((entries.map fun entry => (entry.1, Value.object entry.2)).map (·.1)).Nodup := by
        rw [List.map_map]
        exact h.1
      rw [hvalue, Value.isJson_ofEntries, and_iff_right hnodup, List.forall_mem_map, documents,
        List.forall_mem_map]
    | appendOnly => exact h.elim
  | appendOnly docs => rw [toValue, Value.isJson_list, List.forall_mem_map, documents]

theorem stored_of_fits {contents : Contents} {kind : Kind} (h : contents.Fits kind) :
    ∀ doc ∈ contents.documents, doc.Stored := by
  cases contents with
  | keyed entries =>
    cases kind with
    | keyed field => exact List.forall_mem_map.mpr fun entry hentry => (h.2 entry hentry).stored
    | appendOnly => exact h.elim
  | appendOnly docs =>
    cases kind with
    | keyed field => exact h.elim
    | appendOnly => exact h

end Contents

/-! ## All collections -/

theorem nodup_schema : (schema.map (·.1)).Nodup := by decide

theorem kindOf?_of_mem : ∀ entry ∈ schema, kindOf? entry.1 = some entry.2 := by decide

theorem mem_schema_of_kindOf? {name : String} {kind : Kind} (h : kindOf? name = some kind) :
    (name, kind) ∈ schema := by
  obtain ⟨before, after, hschema, -⟩ := List.lookup_eq_some_iff.mp h
  rw [hschema]
  simp

namespace Collections

/-- A collection of the schema, by its name and with contents that fit its kind. -/
def Meets (entry : String × Contents) (collection : String × Kind) : Prop :=
  entry.1 = collection.1 ∧ entry.2.Fits collection.2

/-- The collections of the schema, in order, each held in the way of its kind. -/
def WellFormed (data : Collections) : Prop := List.Forall₂ Meets data schema

theorem set_of_not_mem {data : Collections} {name : String} (h : name ∉ data.map (·.1))
    (contents : Contents) : data.set name contents = data := by
  refine (List.map_congr_left fun entry hentry => if_neg fun hname => h ?_).trans (List.map_id data)
  exact hname ▸ List.mem_map_of_mem hentry

/-- Putting contents in place one collection after the other, under the names that are there. -/
theorem foldl_set {done todo rest : Collections} (hnames : rest.map (·.1) = todo.map (·.1))
    (hnodup : ((done ++ todo).map (·.1)).Nodup) :
    todo.foldl (fun data entry => data.set entry.1 entry.2) (done ++ rest) = done ++ todo := by
  induction todo generalizing done rest with
  | nil =>
    obtain rfl : rest = [] := List.map_eq_nil_iff.mp hnames
    rfl
  | cons entry todo ih =>
    obtain ⟨name, contents⟩ := entry
    cases rest with
    | nil => cases hnames
    | cons other rest =>
      obtain ⟨name', contents'⟩ := other
      rw [List.map_cons, List.map_cons] at hnames
      obtain ⟨rfl, hrest⟩ := List.cons_eq_cons.mp hnames
      rw [List.map_append, List.map_cons, List.nodup_append] at hnodup
      have hdone : name' ∉ done.map (·.1) := fun hmem =>
        hnodup.2.2 name' hmem name' (List.mem_cons_self ..) rfl
      have hafter : name' ∉ rest.map (·.1) := hrest ▸ (List.nodup_cons.mp hnodup.2.1).1
      have hset : Collections.set (done ++ (name', contents') :: rest) name' contents =
          (done ++ [(name', contents)]) ++ rest := by
        have hleft := set_of_not_mem hdone contents
        have hright := set_of_not_mem hafter contents
        unfold Collections.set at hleft hright ⊢
        rw [List.map_append, List.map_cons, hleft, hright, if_pos rfl, List.append_assoc]
        rfl
      rw [List.foldl_cons, hset, ih hrest, List.append_assoc]
      · rfl
      · rw [List.append_assoc, List.map_append, List.nodup_append]
        exact hnodup

namespace WellFormed

variable {data : Collections}

theorem names (h : data.WellFormed) : data.map (·.1) = schema.map (·.1) := by
  unfold WellFormed at h
  generalize schema = collections at h ⊢
  induction h with
  | nil => rfl
  | cons hentry _ ih => rw [List.map_cons, List.map_cons, hentry.1, ih]

theorem meets_of_mem (h : data.WellFormed) {entry : String × Contents} (hentry : entry ∈ data) :
    ∃ kind, kindOf? entry.1 = some kind ∧ entry.2.Fits kind := by
  have hall : ∀ collection ∈ schema, kindOf? collection.1 = some collection.2 := kindOf?_of_mem
  unfold WellFormed at h
  generalize schema = collections at h hall
  induction h with
  | nil => cases hentry
  | @cons entry' collection data collections hmeets _ ih =>
    rw [List.forall_mem_cons] at hall
    rcases List.mem_cons.mp hentry with rfl | hmem
    · exact ⟨collection.2, hmeets.1 ▸ hall.1, hmeets.2⟩
    · exact ih hmem hall.2

theorem fits_of_lookup (h : data.WellFormed) {name : String} {contents : Contents} {kind : Kind}
    (hlookup : data.lookup name = some contents) (hkind : kindOf? name = some kind) :
    contents.Fits kind := by
  obtain ⟨before, after, rfl, -⟩ := List.lookup_eq_some_iff.mp hlookup
  obtain ⟨kind', hkind', hfits⟩ :=
    h.meets_of_mem (List.mem_append_right before (List.mem_cons_self ..))
  obtain rfl := Option.some.inj (hkind.symm.trans hkind')
  exact hfits

/-- Every collection of the schema is there. -/
theorem exists_lookup (h : data.WellFormed) {name : String} {kind : Kind}
    (hkind : kindOf? name = some kind) :
    ∃ contents, data.lookup name = some contents ∧ contents.Fits kind := by
  have hmem : name ∈ data.map (·.1) := by
    rw [h.names]
    exact List.mem_map_of_mem (mem_schema_of_kindOf? hkind)
  obtain ⟨entry, hentry, hname⟩ := List.mem_map.mp hmem
  have hsome : (data.lookup name).isSome :=
    List.lookup_isSome_iff.mpr ⟨entry, hentry, beq_iff_eq.mpr hname.symm⟩
  obtain ⟨contents, hlookup⟩ := Option.isSome_iff_exists.mp hsome
  exact ⟨contents, hlookup, h.fits_of_lookup hlookup hkind⟩

/-- **Contents that fit may be exchanged.** -/
theorem set (h : data.WellFormed) {name : String} {contents : Contents} {kind : Kind}
    (hkind : kindOf? name = some kind) (hfits : contents.Fits kind) :
    (data.set name contents).WellFormed := by
  have hall : ∀ collection ∈ schema, kindOf? collection.1 = some collection.2 := kindOf?_of_mem
  unfold WellFormed at h ⊢
  unfold Collections.set
  generalize schema = collections at h hall ⊢
  induction h with
  | nil => exact .nil
  | @cons entry collection data collections hmeets _ ih =>
    rw [List.forall_mem_cons] at hall
    refine .cons ?_ (ih hall.2)
    dsimp only
    split_ifs with hname
    · have hkind' := hall.1
      rw [← hmeets.1, hname, hkind] at hkind'
      obtain rfl := Option.some.inj hkind'
      exact ⟨hname.symm.trans hmeets.1, hfits⟩
    · exact hmeets

theorem empty : Collections.empty.WellFormed := by
  unfold WellFormed Collections.empty
  rw [List.forall₂_map_left_iff]
  exact List.forall₂_same.mpr fun entry _ => ⟨rfl, Contents.fits_noContents entry.2⟩

/-- Well-formed data is a JSON value when all documents are. -/
theorem isJson_toValue_iff (h : data.WellFormed) {number : Number → Bool} :
    data.toValue.isJson number = true ↔
      ∀ entry ∈ data, ∀ doc ∈ entry.2.documents, (Value.object doc).isJson number = true := by
  have hvalue : data.toValue =
      .object (Fields.ofEntries (data.map fun entry => (entry.1, entry.2.toValue))) := by
    simp [toValue, Fields.ofEntries]
  have hnodup : ((data.map fun entry => (entry.1, entry.2.toValue)).map (·.1)).Nodup := by
    rw [List.map_map]
    exact h.names ▸ nodup_schema
  rw [hvalue, Value.isJson_ofEntries, and_iff_right hnodup, List.forall_mem_map]
  refine forall₂_congr fun entry hentry => ?_
  obtain ⟨kind, -, hfits⟩ := h.meets_of_mem hentry
  exact Contents.isJson_toValue hfits

theorem isJson_toValue (h : data.WellFormed) : data.toValue.isJson Number.isShort = true := by
  refine h.isJson_toValue_iff.mpr fun entry hentry => ?_
  obtain ⟨kind, -, hfits⟩ := h.meets_of_mem hentry
  exact Contents.stored_of_fits hfits

end WellFormed

end Collections

end SnapshotStore
