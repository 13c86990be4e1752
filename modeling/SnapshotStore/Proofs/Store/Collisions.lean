import SnapshotStore.Proofs.Store.UniqueIds
import SnapshotStore.Proofs.Value.Spelling

/-!
# Keys that collide

A keyed collection files a document under the text of its id, so a document that is created takes
the place of another one if their ids have the same text.

**Theorem (`keys_tell_apart_of_opened_run`).** Ids that are both texts, or both are not, have the
same text only if they are the same, whatever is in them. So all along a run of an opened store a
document that is created takes the place of another one only if the two have the same id, or one id
is a text that spells the other (`Value.SpelledAlike`).

That ids can be told apart by their texts is `Value.display_eq_iff`. The id of a document that is
created has no undefined number in it, but an id that was read from a snapshot may have one.
-/

namespace SnapshotStore

namespace Store

/-- The id of a document that is stored has no undefined number in it. -/
theorem isDefined_idIn {v : Value} {name key field : String} {doc : Document}
    (hkind : kindOf? name = some (.keyed field)) (h : prepare name v = .ok (key, doc)) :
    (doc.idIn field).isJson Number.isDefined = true := by
  obtain ⟨field', hkind', hdoc, hfiled⟩ := prepare_eq_ok h
  obtain rfl : field' = field := by simpa using hkind'.symm.trans hkind
  obtain ⟨id, hid, -, -⟩ := hfiled.key
  have hfinite : id.isJson Number.isFinite = true :=
    Snapshot.stored_of_fields (Document.finite_normalize hdoc) (Fields.mem_of_getText? hid)
  rw [show doc.idIn field' = id from Filed.idIn_eq hid]
  exact Value.isJson_mono (fun _ => Number.isDefined_of_isFinite) hfinite

end Store

namespace Mutation

open Store

variable {s : Store} {name field : String} {held held' : List (String × Document)}

/-- **A document makes way only for one whose id is spelled like its own.** -/
theorem spelledAlike_of_create (hkind : kindOf? name = some (.keyed field))
    (hfits : (Contents.keyed held).Fits (.keyed field)) {v : Value}
    (hchanges : Changes name field held (.create name v) held') {entry : String × Document}
    (hentry : entry ∈ held) (hgone : entry ∉ held') :
    ∃ key doc, prepare name v = .ok (key, doc) ∧
      (doc.idIn field).SpelledAlike (entry.2.idIn field) := by
  cases hchanges with
  | @insert _ key doc hprepare =>
    have hkey : entry.1 = key := by
      by_contra hne
      exact hgone (Entries.mem_insert_of_ne hentry hne doc)
    obtain ⟨field', hkind', -, hfiled⟩ := prepare_eq_ok hprepare
    obtain rfl : field' = field := by simpa using hkind'.symm.trans hkind
    have hheld := hfits.2 entry hentry
    have hkeys : (doc.idIn field').display = (entry.2.idIn field').display :=
      hfiled.key_eq.symm.trans (hkey.symm.trans hheld.key_eq)
    exact ⟨key, doc, hprepare,
      (Value.display_eq_iff (isDefined_idIn hkind hprepare) hheld.isJson_idIn).mp hkeys⟩
  | keep => exact absurd hentry hgone

end Mutation

/-! ## Stores that were opened -/

namespace Store

section Opened

variable (settings : Settings) (disk : Disk) (path : Option FilePath) (strict : Option Bool)
  (stamp : String) (faults : OpenFaults) (actions : List (Mutation × Option ReplaceStep))

/-- **Keys tell ids apart.** Two ids that are both texts, or both are not, are displayed alike only
if they are the same, and so have the same key only then. A document that is created all along a run
of an opened store takes the place of another one only if their ids are the same, or one is a text
that spells the other. -/
theorem keys_tell_apart_of_opened_run (start : Disk) {s : Store}
    (hopen : (openWith settings disk path strict stamp faults).store = .ok s) :
    let run := (Mutation.applyAll s start actions).1
    (∀ v w : Value, v.isJson Number.isDefined = true → w.isJson Number.isDefined = true →
      ((∃ s, v = .str s) ↔ ∃ t, w = .str t) → (v.display = w.display → v = w) ∧
        ∀ key, documentKey v = .ok key → documentKey w = .ok key → v = w) ∧
    ∀ name field, kindOf? name = some (.keyed field) → ∃ held, run.entries name = .ok held ∧
      ∀ v disk fault, ∃ held',
        (Mutation.apply run disk fault (.create name v)).store.entries name = .ok held' ∧
        ∀ entry ∈ held, entry ∉ held' → ∃ key doc, prepare name v = .ok (key, doc) ∧
          (doc.idIn field).SpelledAlike (entry.2.idIn field) := by
  intro run
  have hdata : run.data.WellFormed := Mutation.wellFormed_applyAll start actions
    (wellFormed_openAt hopen)
  refine ⟨fun v w hv hw hkinds => ?_, fun name field hkind => ?_⟩
  · have hsame (hdisplay : v.display = w.display) : v = w :=
      ((Value.display_eq_iff hv hw).mp hdisplay).eq hkinds
    refine ⟨hsame, fun key hkey hkey' => hsame ?_⟩
    rw [(documentKey_eq_ok.mp hkey).2, (documentKey_eq_ok.mp hkey').2]
  · obtain ⟨held, hheld, hfits⟩ := exists_entries hdata hkind
    refine ⟨held, hheld, fun v disk fault => ?_⟩
    obtain ⟨held', hheld', hchanges⟩ :=
      Mutation.changes_remember hkind hheld (.create name v)
    refine ⟨held', by rw [Mutation.apply_store, hheld'], fun entry hentry hgone => ?_⟩
    exact Mutation.spelledAlike_of_create hkind hfits hchanges hentry hgone

end Opened

/-- A list that holds the texts of two others in one is another id, and a user with it is kept when
one with those is created. -/
theorem keys_tell_apart_of_opened_run_bareDisk :
    let joined : Value := .list [.str "a', 'b"]
    let apart : Value := .list [.str "a", .str "b"]
    joined.display ≠ apart.display ∧
      ∃ s, (openWith {} bareDisk (some barePath) none "" {}).store = .ok s ∧
        let run := (Mutation.applyAll s bareDisk
          [(.create "users" (.object (numbered joined)), none)]).1
        ∃ held, (Mutation.apply run bareDisk none
          (.create "users" (.object (numbered apart)))).store.entries "users" = .ok held ∧
          (joined.display, numbered joined) ∈ held := by
  intro joined apart
  obtain ⟨hkeys, hkeyed⟩ := keys_tell_apart_of_opened_run {} bareDisk (some barePath) none "" {}
    [(.create "users" (.object (numbered joined)), none)] bareDisk openWith_bareDisk
  have hjson : joined.isJson Number.isDefined = true := rfl
  have hjson' : apart.isJson Number.isDefined = true := rfl
  have hne : joined ≠ apart := by simp [joined, apart]
  have hkinds : (∃ s, joined = .str s) ↔ ∃ t, apart = .str t := by simp [joined, apart]
  refine ⟨fun h => hne ((hkeys joined apart hjson hjson' hkinds).1 h), _, openWith_bareDisk, ?_⟩
  obtain ⟨held, hheld, hcreate⟩ := hkeyed "users" "id" kindOf?_users
  obtain ⟨held', hheld', hkept⟩ := hcreate (.object (numbered apart)) bareDisk none
  refine ⟨held', hheld', ?_⟩
  have hmem : (joined.display, numbered joined) ∈ held := by
    have hcreated := Mutation.entries_create kindOf?_users entries_bareStore
      (prepare_numbered joined rfl (by simp [joined]))
    rw [Mutation.applyAll_store] at hheld
    cases hheld.symm.trans hcreated
    exact Entries.mem_insert_self ..
  by_contra hgone
  obtain ⟨key, doc, hprepare, halike⟩ := hkept _ hmem hgone
  cases hprepare.symm.trans (prepare_numbered apart rfl (by simp [apart]))
  rw [idIn_numbered, idIn_numbered] at halike
  exact hne (halike.eq hkinds.symm).symm

-- A text that spells a list has the key of the list.
example : documentKey (.list [.int 1, .str "a"]) = .ok "[1, 'a']" ∧
    documentKey (.str "[1, 'a']") = .ok "[1, 'a']" := by
  simp only [documentKey_eq_ok]
  decide +kernel

end Store

end SnapshotStore
