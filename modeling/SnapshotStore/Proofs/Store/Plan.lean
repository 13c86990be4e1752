import SnapshotStore.Proofs.Snapshot
import SnapshotStore.Proofs.Value.Spelled
import SnapshotStore.Store

/-!
# What a mutation does

A mutation decides everything before it writes: whether it fails, whether it leaves the data as it
is, or which data it is about to hold and what it will reply (`Mutation.plan`). Only the write asks
for the disk.

**Theorem (`apply_eq_carryOut`).** To run a mutation is to carry out its plan.

**Theorem (`wellFormed_of_plan`).** From well-formed data a mutation plans well-formed data.

What a plan to write comes from is said once (`Writes`), and proofs about such plans are by its
cases.
-/

namespace SnapshotStore

/-- What a mutation that does not fail is about to do: leave the data as it is, or hold other data,
write it and reply. -/
inductive Plan where
  | leave (reply : Reply)
  | write (data : Collections) (reply : Except Failure Reply)

/-- Carry out a plan. -/
def Plan.carryOut (s : Store) (disk : Disk) (fault : Option ReplaceStep) :
    Except Failure Plan → Step Store Reply
  | .error e => .fail s disk e
  | .ok (.leave reply) => .done s disk reply
  | .ok (.write data reply) => ({ s with data }.persist disk fault).reply? fun _ => reply

namespace Mutation

open Store

/-- What a mutation is about to do. -/
def plan (s : Store) : Mutation → Except Failure Plan
  | create name v => do
    let (key, doc) ← prepare name v
    let entries ← s.entries name
    .ok (.write (s.data.set name (.keyed (Entries.insert key doc entries)))
      (do .ok (.document (← copy doc))))
  | append name v => do
    match ← kind name with
    | .keyed field => .error (.unsupported "append" (.keyed field))
    | .appendOnly =>
      let doc ← (Document.normalize v).mapError .document
      let docs ← s.log name
      .ok (.write (s.data.set name (.appendOnly (docs ++ [doc])))
        (do .ok (.document (← copy doc))))
  | update name id patch => do
    let field ← keyField "update" name
    let patch ← (Document.normalize patch).mapError .document
    let key ← key id
    let entries ← s.entries name
    match entries.lookup key with
    | none => .ok (.leave .nothing)
    | some current =>
      let merged ← merge field current patch
      .ok (.write (s.data.set name (.keyed (Entries.insert key merged entries)))
        (do .ok (.document (← copy merged))))
  | delete name id => do
    let _ ← keyField "delete" name
    let key ← key id
    let entries ← s.entries name
    if (entries.lookup key).isSome then
      .ok (.write (s.data.set name (.keyed (Entries.erase key entries))) (.ok (.removed true)))
    else .ok (.leave (.removed false))
  | persist => .ok (.write s.data (.ok .nothing))

variable {s : Store} {disk : Disk} {fault : Option ReplaceStep}

theorem reply?_reply? {σ α β γ : Type} (step : Step σ α) (f : α → Except Failure β)
    (g : β → Except Failure γ) :
    (step.reply? f).reply? g = step.reply? fun a => (f a).bind g := by
  obtain ⟨store, disk, events, reply⟩ := step
  cases reply <;> rfl

/-- **To run a mutation is to carry out its plan.** -/
theorem apply_eq_carryOut (m : Mutation) :
    m.apply s disk fault = Plan.carryOut s disk fault (m.plan s) := by
  cases m with
  | create name v =>
    simp only [apply, plan, Store.create]
    cases prepare name v with
    | error e => rfl
    | ok prepared =>
      cases s.entries name with
      | error e => rfl
      | ok entries => exact reply?_reply? ..
  | append name v =>
    simp only [apply, plan, Store.append]
    cases kind name with
    | error e => rfl
    | ok kind =>
      cases kind with
      | keyed field => rfl
      | appendOnly =>
        cases (Document.normalize v).mapError Failure.document with
        | error e => rfl
        | ok doc =>
          cases s.log name with
          | error e => rfl
          | ok docs => exact reply?_reply? ..
  | update name id patch =>
    simp only [apply, plan, Store.update]
    cases keyField "update" name with
    | error e => rfl
    | ok field =>
      cases (Document.normalize patch).mapError Failure.document with
      | error e => rfl
      | ok patch =>
        cases key id with
        | error e => rfl
        | ok key =>
          cases s.entries name with
          | error e => rfl
          | ok entries =>
            simp only [bind, Except.bind]
            cases entries.lookup key with
            | none => rfl
            | some current =>
              cases hmerged : merge field current patch with
              | error e => simp only [hmerged]; rfl
              | ok merged =>
                simp only [hmerged]
                refine (reply?_reply? ..).trans ?_
                congr 1
                funext _
                cases copy merged <;> rfl
  | delete name id =>
    simp only [apply, plan, Store.delete]
    cases keyField "delete" name with
    | error e => rfl
    | ok field =>
      cases key id with
      | error e => rfl
      | ok key =>
        cases s.entries name with
        | error e => rfl
        | ok entries =>
          simp only [bind, Except.bind]
          split_ifs
          · exact reply?_reply? ..
          · rfl
  | persist => rfl

end Mutation

/-! ## Collections -/

namespace Store

variable {s : Store} {name : String}

theorem kind_eq_ok {k : Kind} : kind name = .ok k ↔ kindOf? name = some k := by
  unfold kind
  cases kindOf? name <;> simp

theorem keyField_eq_ok {operation field : String} :
    keyField operation name = .ok field ↔ kindOf? name = some (.keyed field) := by
  unfold keyField
  rw [bind_eq_ok]
  constructor
  · rintro ⟨k, hkind, h⟩
    cases k with
    | keyed field' =>
      obtain rfl := Except.ok.inj h
      exact kind_eq_ok.mp hkind
    | appendOnly => cases h
  · exact fun h => ⟨_, kind_eq_ok.mpr h, rfl⟩

theorem lookup_of_contents {contents : Contents} (h : s.contents name = .ok contents) :
    s.data.lookup name = some contents := by
  obtain ⟨_, -, h⟩ := bind_eq_ok.mp h
  split at h
  · next hlookup => rw [hlookup, Except.ok.inj h]
  · cases h

theorem lookup_of_entries {entries : List (String × Document)} (h : s.entries name = .ok entries) :
    s.data.lookup name = some (.keyed entries) := by
  obtain ⟨contents, hcontents, h⟩ := bind_eq_ok.mp h
  cases contents with
  | keyed held =>
    obtain rfl := Except.ok.inj h
    exact lookup_of_contents hcontents
  | appendOnly docs => cases h

theorem lookup_of_log {docs : List Document} (h : s.log name = .ok docs) :
    s.data.lookup name = some (.appendOnly docs) := by
  obtain ⟨contents, hcontents, h⟩ := bind_eq_ok.mp h
  cases contents with
  | keyed entries => cases h
  | appendOnly held =>
    obtain rfl := Except.ok.inj h
    exact lookup_of_contents hcontents

theorem key_eq_ok {id : Value} {key : String} :
    Store.key id = .ok key ↔ documentKey id = .ok key :=
  mapError_eq_ok

/-- What a stored document holds has a key. -/
theorem key_of_stored {doc : Document} {name : String} {id : Value} (hdoc : doc.Stored)
    (hid : Fields.getText? doc name = some id) : Store.key id = .ok id.display :=
  key_eq_ok.mpr <| documentKey_of_isJson <|
    Snapshot.stored_of_fields hdoc (Fields.mem_of_getText? hid)

/-- A document to be created is held under the text of its own key field. -/
theorem prepare_eq_ok {v : Value} {key : String} {doc : Document}
    (h : prepare name v = .ok (key, doc)) :
    ∃ field, kindOf? name = some (.keyed field) ∧ Document.normalize v = .ok doc ∧
      Filed field (key, doc) := by
  obtain ⟨field, hfield, h⟩ := bind_eq_ok.mp h
  obtain ⟨doc', hdoc, h⟩ := bind_eq_ok.mp h
  replace hdoc := mapError_eq_ok.mp hdoc
  refine ⟨field, keyField_eq_ok.mp hfield, ?_⟩
  split at h
  · cases h
  · next hnull =>
    obtain ⟨_, hkey, h⟩ := bind_eq_ok.mp h
    cases h
    obtain ⟨-, rfl⟩ := documentKey_eq_ok.mp (key_eq_ok.mp hkey)
    exact ⟨hdoc, Snapshot.filed_of_key (Document.stored_normalize hdoc) rfl hnull⟩

/-- A document with a patch laid over it holds what the two hold. -/
theorem isJson_merge {field : String} {current patch merged : Document} {number : Number → Bool}
    (hcurrent : (Value.object current).isJson number = true)
    (hpatch : (Value.object patch).isJson number = true)
    (h : merge field current patch = .ok merged) :
    (Value.object merged).isJson number = true := by
  unfold merge at h
  split at h
  · next id hid =>
    obtain rfl := Except.ok.inj h
    have hvalue : id.isJson number = true :=
      Snapshot.stored_of_fields hcurrent (Fields.mem_of_getText? hid)
    obtain ⟨held, rfl, -, -⟩ := Value.isJson_object hcurrent
    obtain ⟨entries, rfl, -, hall⟩ := Value.isJson_object hpatch
    have hoverlay := Value.isJson_overlay held hcurrent hall
    have hone : ∀ entry ∈ [(field, id)], (Prod.snd entry).isJson number = true :=
      List.forall_mem_singleton.mpr hvalue
    obtain ⟨laid, hlaid⟩ := Value.exists_entries hoverlay
    rw [hlaid] at hoverlay ⊢
    exact Value.isJson_overlay laid hoverlay hone
  · cases h

/-- A document with a patch laid over it stays under its key. -/
theorem filed_merge {field key : String} {current patch merged : Document}
    (hcurrent : Filed field (key, current)) (hpatch : patch.Stored)
    (h : merge field current patch = .ok merged) : Filed field (key, merged) := by
  obtain ⟨id, hid, hnull, hkey⟩ := hcurrent.key
  refine ⟨isJson_merge hcurrent.stored hpatch h, id, ?_, hnull, hkey⟩
  unfold merge at h
  rw [hid] at h
  obtain rfl := Except.ok.inj h
  exact Fields.getText?_insert_self _ _ _

end Store

/-! ## Plans for keyed collections -/

namespace Mutation

open Store

section Keyed

variable {s : Store} {name field key : String} {held : List (String × Document)} {id patch : Value}
  {laid current merged : Document}

theorem plan_create {v : Value} {doc : Document} (hprepare : prepare name v = .ok (key, doc))
    (hheld : s.entries name = .ok held) :
    (create name v).plan s =
      .ok (.write (s.data.set name (.keyed (Entries.insert key doc held)))
        (do .ok (.document (← copy doc)))) := by
  simp only [plan, hprepare, hheld, bind, Except.bind]

section Update

variable (hkind : kindOf? name = some (.keyed field))
include hkind

theorem plan_update_of_refused {e : DocumentError} (hlaid : Document.normalize patch = .error e) :
    (update name id patch).plan s = .error (.document e) := by
  simp only [plan, keyField_eq_ok.mpr hkind, hlaid, Except.mapError, bind, Except.bind]

variable (hlaid : Document.normalize patch = .ok laid)
include hlaid

/-- With a valid patch, an id whose text cannot be made is what an update fails on. -/
theorem plan_update_of_error {e : EncodeError} (hid : documentKey id = .error e) :
    (update name id patch).plan s = .error (.encode e) := by
  simp only [plan, Store.key, keyField_eq_ok.mpr hkind, hlaid, hid, Except.mapError, bind,
    Except.bind]

variable (hheld : s.entries name = .ok held) (hid : documentKey id = .ok key)
include hheld hid

theorem plan_update_of_none (hnone : held.lookup key = none) :
    (update name id patch).plan s = .ok (.leave .nothing) := by
  simp only [plan, keyField_eq_ok.mpr hkind, hlaid, key_eq_ok.mpr hid, hheld, hnone,
    Except.mapError, bind, Except.bind]

theorem plan_update_of_some (hcurrent : held.lookup key = some current) :
    (update name id patch).plan s = merge field current laid >>= fun merged =>
      .ok (.write (s.data.set name (.keyed (Entries.insert key merged held)))
        (do .ok (.document (← copy merged)))) := by
  simp only [plan, keyField_eq_ok.mpr hkind, hlaid, key_eq_ok.mpr hid, hheld, hcurrent,
    Except.mapError, bind, Except.bind]

theorem plan_update_of_merged (hcurrent : held.lookup key = some current)
    (hmerged : merge field current laid = .ok merged) :
    (update name id patch).plan s =
      .ok (.write (s.data.set name (.keyed (Entries.insert key merged held)))
        (do .ok (.document (← copy merged)))) := by
  rw [plan_update_of_some hkind hlaid hheld hid hcurrent, hmerged, ok_bind]

end Update

/-- An id whose text cannot be made is what a removal fails on. -/
theorem plan_delete_of_error (hkind : kindOf? name = some (.keyed field)) {e : EncodeError}
    (hid : documentKey id = .error e) : (delete name id).plan s = .error (.encode e) := by
  simp only [plan, Store.key, keyField_eq_ok.mpr hkind, hid, Except.mapError, bind, Except.bind]

theorem plan_delete (hkind : kindOf? name = some (.keyed field))
    (hheld : s.entries name = .ok held) (hid : documentKey id = .ok key) :
    (delete name id).plan s =
      if (held.lookup key).isSome then
        .ok (.write (s.data.set name (.keyed (Entries.erase key held))) (.ok (.removed true)))
      else .ok (.leave (.removed false)) := by
  simp only [plan, keyField_eq_ok.mpr hkind, key_eq_ok.mpr hid, hheld, ok_bind]

end Keyed

end Mutation

/-! ## Plans that write -/

namespace Mutation

open Store

/-- What a mutation that writes has found and made, with the data it is about to hold and the reply
it is about to give. -/
inductive Writes (s : Store) : Mutation → Collections → Except Failure Reply → Prop
  | create {name key : String} {v : Value} {doc : Document} {held : List (String × Document)}
    (hprepare : prepare name v = .ok (key, doc)) (hheld : s.entries name = .ok held) :
    Writes s (.create name v) (s.data.set name (.keyed (Entries.insert key doc held)))
      (do .ok (.document (← copy doc)))
  | append {name : String} {v : Value} {doc : Document} {docs : List Document}
    (hkind : kindOf? name = some .appendOnly) (hdoc : Document.normalize v = .ok doc)
    (hdocs : s.log name = .ok docs) :
    Writes s (.append name v) (s.data.set name (.appendOnly (docs ++ [doc])))
      (do .ok (.document (← copy doc)))
  | update {name field key : String} {id patch : Value} {laid current merged : Document}
    {held : List (String × Document)} (hkind : kindOf? name = some (.keyed field))
    (hpatch : Document.normalize patch = .ok laid) (hkey : documentKey id = .ok key)
    (hheld : s.entries name = .ok held) (hcurrent : held.lookup key = some current)
    (hmerged : merge field current laid = .ok merged) :
    Writes s (.update name id patch) (s.data.set name (.keyed (Entries.insert key merged held)))
      (do .ok (.document (← copy merged)))
  | delete {name field key : String} {id : Value} {held : List (String × Document)}
    (hkind : kindOf? name = some (.keyed field)) (hkey : documentKey id = .ok key)
    (hheld : s.entries name = .ok held) :
    Writes s (.delete name id) (s.data.set name (.keyed (Entries.erase key held)))
      (.ok (.removed true))
  | persist : Writes s .persist s.data (.ok .nothing)

variable {s : Store} {m : Mutation} {data : Collections} {reply : Except Failure Reply}

/-- **A mutation that is about to write** has found all that it needs. -/
theorem writes_of_plan (h : m.plan s = .ok (.write data reply)) : m.Writes s data reply := by
  cases m with
  | create name v =>
    obtain ⟨⟨key, doc⟩, hprepare, h⟩ := bind_eq_ok.mp h
    obtain ⟨held, hheld, h⟩ := bind_eq_ok.mp h
    cases h
    exact .create hprepare hheld
  | append name v =>
    obtain ⟨kind, hkind, h⟩ := bind_eq_ok.mp h
    cases kind with
    | keyed field => cases h
    | appendOnly =>
      obtain ⟨doc, hdoc, h⟩ := bind_eq_ok.mp h
      obtain ⟨docs, hdocs, h⟩ := bind_eq_ok.mp h
      cases h
      exact .append (kind_eq_ok.mp hkind) (mapError_eq_ok.mp hdoc) hdocs
  | update name id patch =>
    obtain ⟨field, hfield, h⟩ := bind_eq_ok.mp h
    obtain ⟨laid, hpatch, h⟩ := bind_eq_ok.mp h
    obtain ⟨key, hkey, h⟩ := bind_eq_ok.mp h
    obtain ⟨held, hheld, h⟩ := bind_eq_ok.mp h
    split at h
    · cases h
    · next current hcurrent =>
      obtain ⟨merged, hmerged, h⟩ := bind_eq_ok.mp h
      cases h
      exact .update (keyField_eq_ok.mp hfield) (mapError_eq_ok.mp hpatch) (key_eq_ok.mp hkey) hheld
        hcurrent hmerged
  | delete name id =>
    obtain ⟨field, hfield, h⟩ := bind_eq_ok.mp h
    obtain ⟨key, hkey, h⟩ := bind_eq_ok.mp h
    obtain ⟨held, hheld, h⟩ := bind_eq_ok.mp h
    split at h
    · cases h
      exact .delete (keyField_eq_ok.mp hfield) (key_eq_ok.mp hkey) hheld
    · cases h
  | persist =>
    cases h
    exact .persist

/-- **From well-formed data a mutation plans well-formed data.** -/
theorem wellFormed_of_plan (hdata : s.data.WellFormed) (h : m.plan s = .ok (.write data reply)) :
    data.WellFormed := by
  cases writes_of_plan h with
  | create hprepare hheld =>
    obtain ⟨field, hkind, -, hfiled⟩ := prepare_eq_ok hprepare
    exact hdata.set hkind
      (Contents.fits_insert (hdata.fits_of_lookup (lookup_of_entries hheld) hkind) hfiled)
  | append hkind hdoc hdocs =>
    exact hdata.set hkind (Contents.fits_append (hdata.fits_of_lookup (lookup_of_log hdocs) hkind)
      (Document.stored_normalize hdoc))
  | update hkind hpatch hkey hheld hcurrent hmerged =>
    have hfits := hdata.fits_of_lookup (lookup_of_entries hheld) hkind
    exact hdata.set hkind (Contents.fits_insert hfits (filed_merge
      (hfits.2 _ (Entries.mem_of_lookup hcurrent)) (Document.stored_normalize hpatch) hmerged))
  | delete hkind hkey hheld =>
    exact hdata.set hkind
      (Contents.fits_erase (hdata.fits_of_lookup (lookup_of_entries hheld) hkind) _)
  | persist => exact hdata

end Mutation

end SnapshotStore
