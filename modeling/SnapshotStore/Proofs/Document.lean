import SnapshotStore.Document
import SnapshotStore.Proofs.Json.Accepted

/-!
# Clean documents

**Theorem (`isJson_clean`).** What cleaning gives is a JSON value whose numbers the style admits. So
a document that is stored has texts as keys at every depth, and it can be written.

**Theorem (`clean_of_isJson`).** A value that is so already is kept as it is.

**Theorem (`exists_copy`).** A document that is stored can be handed out.
-/

namespace SnapshotStore

namespace Value

variable {style : Json.Style}

mutual

/-- **What is cleaned is a JSON value** with numbers that the style admits. -/
theorem isJson_clean : ∀ (v w : Value), v.clean style = .ok w →
    w.isJson style.admits = true
  | .null => by
    intro w h
    cases h
    rfl
  | .bool b => by
    intro w h
    cases h
    rfl
  | .int n => by
    intro w h
    rw [clean] at h
    obtain ⟨text, htext, h⟩ := bind_eq_ok.mp h
    cases h
    rw [isJson]
    exact Json.exists_integer_iff.mp ⟨text, htext⟩
  | .float (.nan tag) => by
    intro w h
    rw [clean] at h
    obtain ⟨text, htext, h⟩ := bind_eq_ok.mp h
    cases h
    rw [isJson]
    exact Json.exists_float_iff.mp ⟨text, htext⟩
  | .float (.finite x) => by
    intro w h
    simp only [clean] at h
    obtain ⟨text, htext, h⟩ := bind_eq_ok.mp h
    cases h
    rw [isJson]
    exact Json.exists_float_iff.mp ⟨text, htext⟩
  | .float (.infinite negative) => by
    intro w h
    simp only [clean] at h
    obtain ⟨text, htext, h⟩ := bind_eq_ok.mp h
    cases h
    rw [isJson]
    exact Json.exists_float_iff.mp ⟨text, htext⟩
  | .str s => by
    intro w h
    cases h
    rfl
  | .list items => by
    intro w h
    rw [clean] at h
    obtain ⟨ws, hws, h⟩ := bind_eq_ok.mp h
    cases h
    exact isJson_list.mpr (isJson_cleanAll items ws hws)
  | .tuple items => by
    intro w h
    rw [clean] at h
    obtain ⟨ws, hws, h⟩ := bind_eq_ok.mp h
    cases h
    exact isJson_list.mpr (isJson_cleanAll items ws hws)
  | .set _ => by
    intro w h
    cases h
  | .bytes _ => by
    intro w h
    cases h
  | .datetime t => by
    intro w h
    rw [clean] at h
    split_ifs at h
    cases h
    rfl
  | .date d => by
    intro w h
    rw [clean] at h
    split_ifs at h
    cases h
    rfl
  | .object fields => by
    intro w h
    rw [clean] at h
    obtain ⟨pairs, hpairs, h⟩ := bind_eq_ok.mp h
    cases h
    obtain ⟨entries, rfl, hall⟩ := isJson_cleanFields fields _ hpairs
    exact isJson_overlay [] rfl hall

theorem isJson_cleanAll : ∀ vs ws : List Value, cleanAll style vs = .ok ws →
    ∀ w ∈ ws, w.isJson style.admits = true
  | [] => by
    intro ws h
    cases h
    exact fun w hw => absurd hw List.not_mem_nil
  | v :: vs => by
    intro ws h
    obtain ⟨w, hw, h⟩ := bind_eq_ok.mp h
    obtain ⟨ws, hws, h⟩ := bind_eq_ok.mp h
    cases h
    exact List.forall_mem_cons.mpr ⟨isJson_clean v w hw, isJson_cleanAll vs ws hws⟩

theorem isJson_cleanFields : ∀ fields pairs : Fields,
    Value.cleanFields style fields = .ok pairs →
      ∃ entries, pairs = Fields.ofEntries entries ∧
        ∀ entry ∈ entries, entry.2.isJson style.admits = true
  | [] => by
    intro pairs h
    cases h
    exact ⟨[], rfl, fun entry hentry => absurd hentry List.not_mem_nil⟩
  | (k, v) :: fields => by
    intro pairs h
    obtain ⟨key, -, h⟩ := bind_eq_ok.mp h
    obtain ⟨w, hw, h⟩ := bind_eq_ok.mp h
    obtain ⟨pairs, hpairs, h⟩ := bind_eq_ok.mp h
    cases h
    obtain ⟨entries, rfl, hall⟩ := isJson_cleanFields fields _ hpairs
    exact ⟨(String.ofList key, w) :: entries, rfl,
      List.forall_mem_cons.mpr ⟨isJson_clean v w hw, hall⟩⟩

end

theorem cleanAll_of_forall {vs : List Value} (h : ∀ v ∈ vs, v.clean style = .ok v) :
    cleanAll style vs = .ok vs := by
  induction vs with
  | nil => rfl
  | cons v vs ih =>
    rw [List.forall_mem_cons] at h
    rw [cleanAll, h.1, ih h.2]
    rfl

theorem cleanFields_of_forall {entries : List (String × Value)}
    (h : ∀ entry ∈ entries, entry.2.clean style = .ok entry.2) :
    Value.cleanFields style (Fields.ofEntries entries) = .ok (Fields.ofEntries entries) := by
  induction entries with
  | nil => rfl
  | cons entry entries ih =>
    obtain ⟨key, v⟩ := entry
    rw [List.forall_mem_cons] at h
    rw [Fields.ofEntries_cons, Value.cleanFields, h.1, ih h.2]
    simp only [Json.keyText, bind, Except.bind, String.ofList_toList]

/-- **A clean value is kept as it is.** -/
theorem clean_of_isJson {v : Value}
    (h : v.isJson (fun n => style.admits n && n.isDefined) = true) : v.clean style = .ok v := by
  induction v, h using isJson_induction with
  | null | bool b | str s => rfl
  | int n h =>
    obtain ⟨text, htext⟩ := Json.exists_integer_iff.mpr (Bool.and_eq_true_iff.mp h).1
    rw [clean, htext]
    rfl
  | float x h =>
    obtain ⟨hadmits, hdefined⟩ := Bool.and_eq_true_iff.mp h
    obtain ⟨text, htext⟩ := Json.exists_float_iff.mpr hadmits
    cases x with
    | nan tag => simp [Number.isDefined, Binary64.isNaN] at hdefined
    | finite x | infinite negative =>
      rw [clean, htext]
      · rfl
      · intro tag h
        cases h
  | list items _ ih =>
    rw [clean, cleanAll_of_forall ih]
    rfl
  | object entries hkeys _ ih =>
    rw [clean, cleanFields_of_forall ih]
    simp only [bind, Except.bind, Fields.ofPairs_ofEntries hkeys]

/-- A JSON value that may be stored is stored as it is. -/
theorem clean_stored_of_isJson {v : Value} (h : v.isJson Document.storedStyle.admits = true) :
    v.clean Document.storedStyle = .ok v := by
  refine clean_of_isJson (isJson_mono (fun n hn => ?_) h)
  exact Bool.and_eq_true_iff.mpr
    ⟨hn, Number.isDefined_of_isFinite (Bool.and_eq_true_iff.mp hn).2⟩

theorem exists_cleanAll {vs : List Value} (h : ∀ v ∈ vs, ∃ w, v.clean style = .ok w) :
    ∃ ws, cleanAll style vs = .ok ws := by
  induction vs with
  | nil => exact ⟨[], rfl⟩
  | cons v vs ih =>
    rw [List.forall_mem_cons] at h
    obtain ⟨⟨w, hw⟩, hvs⟩ := h
    obtain ⟨ws, hws⟩ := ih hvs
    exact ⟨w :: ws, by rw [cleanAll, hw, hws]; rfl⟩

theorem exists_cleanFields {entries : List (String × Value)}
    (h : ∀ entry ∈ entries, ∃ w, entry.2.clean style = .ok w) :
    ∃ fields, Value.cleanFields style (Fields.ofEntries entries) = .ok fields := by
  induction entries with
  | nil => exact ⟨[], rfl⟩
  | cons entry entries ih =>
    obtain ⟨key, v⟩ := entry
    rw [List.forall_mem_cons] at h
    obtain ⟨⟨w, hw⟩, hentries⟩ := h
    obtain ⟨fields, hfields⟩ := ih hentries
    rw [Fields.ofEntries_cons, Value.cleanFields, hw, hfields]
    exact ⟨_, rfl⟩

/-- **A JSON value is cleaned** if the style admits its numbers, those that are undefined too. -/
theorem exists_clean_of_isJson {v : Value} (h : v.isJson style.admits = true) :
    ∃ w, v.clean style = .ok w := by
  induction v, h using isJson_induction with
  | null | bool b | str s => exact ⟨_, rfl⟩
  | int n h =>
    obtain ⟨text, htext⟩ := Json.exists_integer_iff.mpr h
    rw [clean, htext]
    exact ⟨_, rfl⟩
  | float x h =>
    obtain ⟨text, htext⟩ := Json.exists_float_iff.mpr h
    cases x with
    | nan tag =>
      rw [clean, htext]
      exact ⟨_, rfl⟩
    | finite x | infinite negative =>
      simp only [clean, htext]
      exact ⟨_, rfl⟩
  | list items _ ih =>
    obtain ⟨ws, hws⟩ := exists_cleanAll ih
    rw [clean, hws]
    exact ⟨_, rfl⟩
  | object entries _ _ ih =>
    obtain ⟨fields, hfields⟩ := exists_cleanFields ih
    rw [clean, hfields]
    exact ⟨_, rfl⟩

end Value

namespace Document

/-- A document as a store holds it: a JSON object without integers that are too long. -/
def Stored (doc : Document) : Prop := (Value.object doc).isJson Number.isShort = true

/-- A document without infinite or undefined numbers. -/
def Finite (doc : Document) : Prop := (Value.object doc).isJson Number.isFinite = true

theorem normalize_eq_ok {v : Value} {doc : Document} (h : normalize v = .ok doc) :
    ∃ fields, v = .object fields ∧ v.clean storedStyle = .ok (.object doc) := by
  cases v with
  | object fields =>
    refine ⟨fields, rfl, ?_⟩
    obtain ⟨pairs, hpairs, h⟩ := bind_eq_ok.mp (mapError_eq_ok.mp h)
    cases h
    rw [Value.clean, hpairs]
    rfl
  | _ => cases h

theorem isJson_normalize {v : Value} {doc : Document} (h : normalize v = .ok doc) :
    (Value.object doc).isJson storedStyle.admits = true := by
  obtain ⟨fields, -, hclean⟩ := normalize_eq_ok h
  exact Value.isJson_clean v _ hclean

theorem stored_normalize {v : Value} {doc : Document} (h : normalize v = .ok doc) : doc.Stored :=
  Value.isJson_mono (fun _ hn => (Bool.and_eq_true_iff.mp hn).1) (isJson_normalize h)

theorem finite_normalize {v : Value} {doc : Document} (h : normalize v = .ok doc) : doc.Finite :=
  Value.isJson_mono (fun _ hn => (Bool.and_eq_true_iff.mp hn).2) (isJson_normalize h)

/-- A document that can be stored as it is is stored as it is. -/
theorem normalize_of_isJson {doc : Document}
    (h : (Value.object doc).isJson storedStyle.admits = true) :
    normalize (.object doc) = .ok doc := by
  have hclean := Value.clean_stored_of_isJson h
  rw [Value.clean] at hclean
  obtain ⟨pairs, hpairs, hclean⟩ := bind_eq_ok.mp hclean
  exact mapError_eq_ok.mpr (bind_eq_ok.mpr ⟨pairs, hpairs,
    congrArg Except.ok (Value.object.inj (Except.ok.inj hclean))⟩)

/-- A document that is stored can be handed out. -/
theorem exists_copy {doc : Document} (h : doc.Stored) : ∃ copied, copy doc = .ok copied := by
  have hadmits : (Value.object doc).isJson copyStyle.admits = true :=
    Value.isJson_mono (fun n hn => by simp [Json.Style.admits, copyStyle, hn]) h
  obtain ⟨w, hw⟩ := Value.exists_clean_of_isJson hadmits
  rw [Value.clean] at hw
  obtain ⟨pairs, hpairs, -⟩ := bind_eq_ok.mp hw
  exact ⟨_, bind_eq_ok.mpr ⟨pairs, hpairs, rfl⟩⟩

/-- So can several, one copy for each. -/
theorem exists_copyAll {docs : List Document} (h : ∀ doc ∈ docs, doc.Stored) :
    ∃ copies, copyAll docs = .ok copies ∧ copies.length = docs.length := by
  induction docs with
  | nil => exact ⟨[], rfl, rfl⟩
  | cons doc docs ih =>
    rw [List.forall_mem_cons] at h
    obtain ⟨copied, hcopied⟩ := exists_copy h.1
    obtain ⟨copies, hcopies, hlength⟩ := ih h.2
    refine ⟨copied :: copies, ?_, congrArg (· + 1) hlength⟩
    rw [copyAll, hcopied, hcopies]
    rfl

end Document

end SnapshotStore
