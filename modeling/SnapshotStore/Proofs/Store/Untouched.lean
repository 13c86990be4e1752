import SnapshotStore.Proofs.Document.Unfit
import SnapshotStore.Proofs.Store.Merge

/-!
# Mutations that come to nothing

A mutation comes to nothing when the document that it brings is refused, or when the document that
it was to change is not held (`Mutation.CameToNothing`).

**Theorem (`untouched_of_opened_run`).** A mutation that comes to nothing leaves all collections and
the whole disk exactly as they are, and reports nothing. A document is refused exactly when it
cannot be stored (`Value.Storable`), or is to be created without an id. A patch is refused exactly
when it cannot be stored, whether there is a document to change or not; otherwise an update finds
nothing, as a removal does, exactly when its id has a text and nothing is held under it. No update
adds a document.

An id that has no text, an integer of too many digits or a value with one inside, is not found to be
missing, though nothing can be held under it: updates and removals by it fail, and still nothing
changes.

All this is decided before anything is written. So a mutation is refused exactly when its plan is
(`reply_eq_document_iff`), and finds nothing exactly when its plan is to leave the data
(`reply_eq_found_nothing_iff`); what remains is to say for each kind of mutation when that is its
plan.
-/

namespace SnapshotStore

/-! ## Documents that are refused -/

/-- An object without anything unfit inside. -/
def Value.Storable (v : Value) : Prop := (∃ fields, v = .object fields) ∧ ¬ v.Unfit

namespace Document

theorem not_storable_iff {v : Value} : ¬ v.Storable ↔ ∃ e, normalize v = .error e := by
  rw [exists_normalize_error_iff, Value.Storable, not_and_or, not_exists, not_not]

theorem storable_iff {v : Value} : v.Storable ↔ ∃ doc, normalize v = .ok doc := by
  rw [← not_iff_not, not_storable_iff]
  cases normalize v <;> simp

end Document

namespace Entries

theorem lookup_eq_none_iff {key : String} {entries : List (String × Document)} :
    entries.lookup key = none ↔ key ∉ entries.map (·.1) := by
  rw [List.lookup_eq_none_iff, List.mem_map, not_exists]
  simp only [bne_iff_ne, not_and, ne_comm]

end Entries

namespace Store

variable {s : Store} {name field : String}

/-- **A document to be created is refused** if it cannot be stored, or if it has no id. -/
theorem prepare_eq_document_iff (hkind : kindOf? name = some (.keyed field)) {v : Value}
    {e : DocumentError} : prepare name v = .error (.document e) ↔
      Document.normalize v = .error e ∨
      ∃ doc, Document.normalize v = .ok doc ∧ doc.idIn field = .null ∧
        e = .missingKey field name := by
  have hfield : keyField "create" name = .ok field := keyField_eq_ok.mpr hkind
  rw [prepare, hfield, ok_bind]
  cases hdoc : Document.normalize v with
  | error cause => simp [Except.mapError, bind, Except.bind]
  | ok doc =>
    rw [Except.mapError, ok_bind, ← Document.idIn]
    have hkey : Store.key (doc.idIn field) = .ok (doc.idIn field).display :=
      key_eq_ok.mpr (documentKey_of_isJson (Document.stored_normalize hdoc).isJson_idIn)
    cases hid : doc.idIn field <;> rw [hid] at hkey <;> simp [hid, hkey, bind, Except.bind, eq_comm]

/-- Persisting refuses no document. -/
theorem reply_persist_ne_document (s : Store) (disk : Disk) (fault : Option ReplaceStep)
    (e : DocumentError) : (s.persist disk fault).reply ≠ .error (.document e) := by
  unfold persist writeThrough
  split
  · exact nofun
  · split <;> exact nofun

end Store

/-! ## Replies and plans -/

namespace Mutation

open Store

/-- A mutation was refused the document that it brings, or it was to change a document that is not
held. -/
def CameToNothing (m : Mutation) : Except Failure Reply → Prop
  | .error (.document _) => True
  | .ok reply => m.FoundNothing reply
  | _ => False

variable {s : Store} {m : Mutation} {disk : Disk} {fault : Option ReplaceStep}

/-- **A mutation is refused exactly when its plan is,** so before it writes. -/
theorem reply_eq_document_iff (hdata : s.data.WellFormed) {e : DocumentError} :
    (m.apply s disk fault).reply = .error (.document e) ↔ m.plan s = .error (.document e) := by
  rw [apply_eq_carryOut]
  match hplan : m.plan s with
  | .error failure => simp [Plan.carryOut, Step.fail]
  | .ok (.leave reply) => simp [Plan.carryOut, Step.done]
  | .ok (.write data reply) =>
    obtain ⟨made, rfl⟩ := exists_reply_of_plan hdata hplan
    have hpersist := reply_persist_ne_document { s with data } disk fault e
    simp only [Plan.carryOut, Step.reply?, reduceCtorEq, iff_false]
    intro hreply
    rcases bind_eq_error.mp hreply with hreply | ⟨_, -, hmade⟩
    · exact hpersist hreply
    · cases hmade

/-- **A mutation finds nothing exactly when it plans to leave the data,** so when it does not
write. -/
theorem reply_eq_found_nothing_iff {reply : Reply} (hfound : m.FoundNothing reply) :
    (m.apply s disk fault).reply = .ok reply ↔ m.plan s = .ok (.leave reply) := by
  rw [apply_eq_carryOut]
  match hplan : m.plan s with
  | .error failure => simp [Plan.carryOut, Step.fail]
  | .ok (.leave other) => simp [Plan.carryOut, Step.done]
  | .ok (.write data made) =>
    simp only [Plan.carryOut, Step.reply?, Except.ok.injEq, reduceCtorEq, iff_false]
    intro hreply
    obtain ⟨-, -, rfl⟩ := bind_eq_ok.mp hreply
    exact not_foundNothing_of_write hplan hfound

/-- **A mutation that comes to nothing touches nothing.** -/
theorem apply_of_cameToNothing (hdata : s.data.WellFormed)
    (h : m.CameToNothing (m.apply s disk fault).reply) :
    m.apply s disk fault = ⟨s, disk, [], (m.apply s disk fault).reply⟩ := by
  generalize hreply : (m.apply s disk fault).reply = reply at h
  match reply with
  | .error (.document e) =>
    rw [apply_eq_carryOut, (reply_eq_document_iff hdata).mp hreply]
    rfl
  | .ok found =>
    rw [apply_eq_carryOut, (reply_eq_found_nothing_iff h).mp hreply]
    rfl

/-! ## Plans that come to nothing -/

theorem plan_create_eq_document_iff {name : String} {held : List (String × Document)}
    (hheld : s.entries name = .ok held) {v : Value} {e : DocumentError} :
    (create name v).plan s = .error (.document e) ↔ prepare name v = .error (.document e) := by
  rw [plan]
  cases prepare name v with
  | error failure => simp [bind, Except.bind]
  | ok prepared => simp [hheld, ok_bind]

section Keyed

variable {name field : String} {held : List (String × Document)}
  (hkind : kindOf? name = some (.keyed field)) (hheld : s.entries name = .ok held)
include hkind hheld

theorem plan_update_eq_document_iff {id patch : Value} {e : DocumentError} :
    (update name id patch).plan s = .error (.document e) ↔ Document.normalize patch = .error e := by
  cases hlaid : Document.normalize patch with
  | error cause => simp [plan_update_of_refused hkind hlaid]
  | ok laid =>
    cases hid : documentKey id with
    | error cause => simp [plan_update_of_error hkind hlaid hid]
    | ok key =>
      cases hcurrent : held.lookup key with
      | none => simp [plan_update_of_none hkind hlaid hheld hid hcurrent]
      | some current =>
        rw [plan_update_of_some hkind hlaid hheld hid hcurrent]
        unfold merge
        cases Fields.getText? current field <;> simp [bind, Except.bind]

/-- An update with a patch that can be stored finds nothing exactly when its id has a text under
which nothing is held. -/
theorem plan_update_eq_leave_iff {id patch : Value} :
    (update name id patch).plan s = .ok (.leave .nothing) ↔
      patch.Storable ∧ ∃ key, documentKey id = .ok key ∧ key ∉ held.map (·.1) := by
  simp only [Document.storable_iff, ← Entries.lookup_eq_none_iff]
  constructor
  · intro hplan
    obtain ⟨_, -, hplan⟩ := bind_eq_ok.mp hplan
    obtain ⟨laid, hlaid, hplan⟩ := bind_eq_ok.mp hplan
    obtain ⟨key, hkey, hplan⟩ := bind_eq_ok.mp hplan
    obtain ⟨_, hheld', hplan⟩ := bind_eq_ok.mp hplan
    obtain rfl := Except.ok.inj (hheld.symm.trans hheld')
    refine ⟨⟨laid, mapError_eq_ok.mp hlaid⟩, key, key_eq_ok.mp hkey, ?_⟩
    split at hplan
    · assumption
    · obtain ⟨_, -, hplan⟩ := bind_eq_ok.mp hplan
      cases hplan
  · rintro ⟨⟨laid, hlaid⟩, key, hid, hnone⟩
    exact plan_update_of_none hkind hlaid hheld hid hnone

theorem plan_delete_eq_leave_iff {id : Value} :
    (delete name id).plan s = .ok (.leave (.removed false)) ↔
      ∃ key, documentKey id = .ok key ∧ key ∉ held.map (·.1) := by
  simp only [← Entries.lookup_eq_none_iff]
  cases hid : documentKey id with
  | error cause => simp [plan_delete_of_error hkind hid]
  | ok key =>
    rw [plan_delete hkind hheld hid]
    simp only [Except.ok.injEq, exists_eq_left']
    cases held.lookup key <;> simp

/-- An update adds no document to a keyed collection and takes none away. -/
theorem keys_remember_update (other : String) (id patch : Value) :
    ∃ held', ((update other id patch).remember s).entries name = .ok held' ∧
      held'.map (·.1) = held.map (·.1) := by
  obtain ⟨held', hheld', hchanges⟩ := changes_remember hkind hheld (update other id patch)
  refine ⟨held', hheld', ?_⟩
  cases hchanges with
  | merge _ _ hcurrent _ =>
    rw [Entries.keys_insert, if_pos (List.mem_map_of_mem (Entries.mem_of_lookup hcurrent))]
  | keep => rfl

end Keyed

section AppendOnly

variable {name : String} {docs : List Document} (hkind : kindOf? name = some .appendOnly)
  (hdocs : s.log name = .ok docs)
include hkind hdocs

theorem plan_append_eq_document_iff {v : Value} {e : DocumentError} :
    (append name v).plan s = .error (.document e) ↔ Document.normalize v = .error e := by
  rw [plan, kind_eq_ok.mpr hkind, ok_bind]
  cases Document.normalize v with
  | error cause => simp [Except.mapError, bind, Except.bind]
  | ok doc => simp [Except.mapError, hdocs, ok_bind]

theorem log_remember_update (other : String) (id patch : Value) :
    ((update other id patch).remember s).log name = .ok docs := by
  rw [log_remember hkind hdocs]
  exact congrArg Except.ok (List.append_nil docs)

end AppendOnly

end Mutation

/-! ## Stores that were opened -/

namespace Store

section Opened

variable (settings : Settings) (disk : Disk) (path : Option FilePath) (strict : Option Bool)
  (stamp : String) (faults : OpenFaults) (actions : List (Mutation × Option ReplaceStep))

/-- **A mutation that comes to nothing touches nothing,** neither a collection nor a file, all along
a run of an opened store. Documents are refused for what they are, whatever is held, and what is not
held is not updated and not removed; an update leaves the keys of every keyed collection and every
append-only collection as they are. By an id without a text nothing is found to be missing: an
update and a removal fail on it, and touch nothing either. -/
theorem untouched_of_opened_run (start : Disk) {s : Store}
    (hopen : (openWith settings disk path strict stamp faults).store = .ok s) :
    let run := (Mutation.applyAll s start actions).1
    (∀ (m : Mutation) disk fault, m.CameToNothing (m.apply run disk fault).reply →
      (m.apply run disk fault).store = run ∧ (m.apply run disk fault).disk = disk ∧
        (m.apply run disk fault).events = []) ∧
    (∀ name field, kindOf? name = some (.keyed field) → ∃ held, run.entries name = .ok held ∧
      ∀ disk fault, let reply m := (Mutation.apply run disk fault m).reply
        (∀ v, (∃ e, reply (.create name v) = .error (.document e)) ↔
          ¬ v.Storable ∨ ∃ doc, Document.normalize v = .ok doc ∧ doc.idIn field = .null) ∧
        (∀ id patch, (∃ e, reply (.update name id patch) = .error (.document e)) ↔
          ¬ patch.Storable) ∧
        (∀ id patch, reply (.update name id patch) = .ok .nothing ↔
          patch.Storable ∧ ∃ key, documentKey id = .ok key ∧ key ∉ held.map (·.1)) ∧
        (∀ id, reply (.delete name id) = .ok (.removed false) ↔
          ∃ key, documentKey id = .ok key ∧ key ∉ held.map (·.1)) ∧
        (∀ id e, documentKey id = .error e →
          Mutation.apply run disk fault (.delete name id) = ⟨run, disk, [], .error (.encode e)⟩ ∧
          ∀ patch : Value, patch.Storable →
            Mutation.apply run disk fault (.update name id patch) =
              ⟨run, disk, [], .error (.encode e)⟩) ∧
        ∀ other id patch, ∃ held',
          (Mutation.apply run disk fault (.update other id patch)).store.entries name = .ok held' ∧
          held'.map (·.1) = held.map (·.1)) ∧
    ∀ name, kindOf? name = some .appendOnly → ∃ docs, run.log name = .ok docs ∧
      ∀ disk fault,
        (∀ v, (∃ e, (Mutation.apply run disk fault (.append name v)).reply =
          .error (.document e)) ↔ ¬ v.Storable) ∧
        ∀ other id patch,
          (Mutation.apply run disk fault (.update other id patch)).store.log name = .ok docs := by
  intro run
  have hdata : run.data.WellFormed := Mutation.wellFormed_applyAll start actions
    (wellFormed_openAt hopen)
  refine ⟨fun m disk fault hnothing => ?_, fun name field hkind => ?_, fun name hkind => ?_⟩
  · rw [Mutation.apply_of_cameToNothing hdata hnothing]
    exact ⟨rfl, rfl, rfl⟩
  · obtain ⟨held, hheld, -⟩ := exists_entries hdata hkind
    refine ⟨held, hheld, fun disk fault => ⟨fun v => ?_, fun id patch => ?_, fun id patch => ?_,
      fun id => ?_, fun id e hid => ?_, fun other id patch => ?_⟩⟩
    · simp only [Mutation.reply_eq_document_iff hdata,
        Mutation.plan_create_eq_document_iff hheld, prepare_eq_document_iff hkind,
        Document.not_storable_iff, exists_or]
      refine or_congr_right ⟨?_, ?_⟩
      · rintro ⟨_, doc, hdoc, hid, -⟩
        exact ⟨doc, hdoc, hid⟩
      · rintro ⟨doc, hdoc, hid⟩
        exact ⟨_, doc, hdoc, hid, rfl⟩
    · simp only [Mutation.reply_eq_document_iff hdata,
        Mutation.plan_update_eq_document_iff hkind hheld, Document.not_storable_iff]
    · have hfound : (Mutation.update name id patch).FoundNothing .nothing := trivial
      exact (Mutation.reply_eq_found_nothing_iff hfound).trans
        (Mutation.plan_update_eq_leave_iff hkind hheld)
    · have hfound : (Mutation.delete name id).FoundNothing (.removed false) := trivial
      exact (Mutation.reply_eq_found_nothing_iff hfound).trans
        (Mutation.plan_delete_eq_leave_iff hkind hheld)
    · refine ⟨?_, fun patch hpatch => ?_⟩
      · rw [Mutation.apply_eq_carryOut, Mutation.plan_delete_of_error hkind hid]
        rfl
      · obtain ⟨laid, hlaid⟩ := Document.storable_iff.mp hpatch
        rw [Mutation.apply_eq_carryOut, Mutation.plan_update_of_error hkind hlaid hid]
        rfl
    · rw [Mutation.apply_store]
      exact Mutation.keys_remember_update hkind hheld other id patch
  · obtain ⟨docs, hdocs⟩ := exists_log hdata hkind
    refine ⟨docs, hdocs, fun disk fault => ⟨fun v => ?_, fun other id patch => ?_⟩⟩
    · simp only [Mutation.reply_eq_document_iff hdata,
        Mutation.plan_append_eq_document_iff hkind hdocs, Document.not_storable_iff]
    · rw [Mutation.apply_store]
      exact Mutation.log_remember_update hkind hdocs other id patch

end Opened

/-- With one user held, another is not updated, and a user without an id is refused; the store and
the disk stay as they are. -/
theorem untouched_of_opened_run_bareDisk :
    ∃ s, (openWith {} bareDisk (some barePath) none "" {}).store = .ok s ∧
      let run := (Mutation.applyAll s bareDisk
        [(.create "users" (.object (numbered (.str "u1"))), none)]).1
      let missing := Mutation.apply run bareDisk none (.update "users" (.str "u2") (.object []))
      let refused := Mutation.apply run bareDisk none (.create "users" (.object []))
      (missing.reply = .ok .nothing ∧ missing.store = run ∧ missing.disk = bareDisk) ∧
        (∃ e, refused.reply = .error (.document e)) ∧ refused.store = run ∧
          refused.disk = bareDisk := by
  refine ⟨_, openWith_bareDisk, ?_⟩
  intro run missing refused
  obtain ⟨htouch, hkeyed, -⟩ := untouched_of_opened_run {} bareDisk (some barePath) none "" {}
    [(.create "users" (.object (numbered (.str "u1"))), none)] bareDisk openWith_bareDisk
  obtain ⟨held, hheld, hreplies⟩ := hkeyed "users" "id" kindOf?_users
  obtain ⟨hcreate, -, hupdate, -⟩ := hreplies bareDisk none
  have hempty : Document.normalize (.object []) = .ok [] := rfl
  have hmissing : missing.reply = .ok .nothing := by
    refine (hupdate (.str "u2") (.object [])).mpr ⟨Document.storable_iff.mpr ⟨_, hempty⟩, "u2",
      documentKey_eq_ok.mpr ⟨rfl, rfl⟩, ?_⟩
    have hcreated := Mutation.entries_create kindOf?_users entries_bareStore
      (prepare_numbered (.str "u1") rfl (by simp))
    rw [Mutation.applyAll_store] at hheld
    cases hheld.symm.trans hcreated
    decide
  have hrefused : ∃ e, refused.reply = .error (.document e) :=
    (hcreate (.object [])).mpr (.inr ⟨[], hempty, rfl⟩)
  obtain ⟨hstore, hdisk, -⟩ := htouch (.update "users" (.str "u2") (.object [])) bareDisk none
    (by rw [show (Mutation.apply run bareDisk none _).reply = _ from hmissing]; trivial)
  refine ⟨⟨hmissing, hstore, hdisk⟩, hrefused, ?_⟩
  obtain ⟨e, herror⟩ := hrefused
  obtain ⟨hstore, hdisk, -⟩ := htouch (.create "users" (.object [])) bareDisk none
    (by rw [show (Mutation.apply run bareDisk none _).reply = _ from herror]; trivial)
  exact ⟨hstore, hdisk⟩

/-- With no user held, the user with too long an integer for its id is not found to be missing. -/
theorem not_foundNothing_unspelled :
    ∃ s, (openWith {} bareDisk (some barePath) none "" {}).store = .ok s ∧
      s.entries "users" = .ok [] ∧ let id := Value.int Json.integerBound
        (Mutation.apply s bareDisk none (.update "users" id (.object []))).reply =
            .error (.encode .integerTooLong) ∧
          (Mutation.apply s bareDisk none (.delete "users" id)).reply =
            .error (.encode .integerTooLong) := by
  have hid : documentKey (.int Json.integerBound) = .error .integerTooLong := by
    rw [documentKey, Value.spelled, if_neg Value.not_isSpelled_integerBound]
  have hempty : Document.normalize (.object []) = .ok [] := rfl
  refine ⟨_, openWith_bareDisk, entries_bareStore, ?_, ?_⟩
  · rw [Mutation.apply_eq_carryOut, Mutation.plan_update_of_error kindOf?_users hempty hid]
    rfl
  · rw [Mutation.apply_eq_carryOut, Mutation.plan_delete_of_error kindOf?_users hid]
    rfl

end Store

end SnapshotStore
