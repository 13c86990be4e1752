import Mathlib.Data.List.Nodup
import SnapshotStore.Number.Arithmetic
import SnapshotStore.Value.Equality

/-!
# JSON values

`Value.isJson` holds of the values that a JSON text can stand for: no tuples, sets, byte strings,
times or dates, and objects whose keys are texts, each there once. Its parameter says which numbers
are meant. `isJson_induction` is the induction over such values; an object comes with its entries,
texts with values (`Fields.ofEntries`).

Fields are looked up by text here, so the first part says what the operations on fields do to such
look-ups.
-/

namespace SnapshotStore

/-! ## Outcomes -/

theorem bind_eq_ok {ε α β : Type} {x : Except ε α} {f : α → Except ε β} {b : β} :
    x >>= f = .ok b ↔ ∃ a, x = .ok a ∧ f a = .ok b := by
  cases x with
  | error e => simp [bind, Except.bind]
  | ok a => simp [bind, Except.bind]

theorem bind_eq_error {ε α β : Type} {x : Except ε α} {f : α → Except ε β} {e : ε} :
    x >>= f = .error e ↔ x = .error e ∨ ∃ a, x = .ok a ∧ f a = .error e := by
  cases x with
  | error e => simp [bind, Except.bind]
  | ok a => simp [bind, Except.bind]

theorem ok_bind {ε α β : Type} (a : α) (f : α → Except ε β) : (.ok a >>= f) = f a := rfl

theorem exists_of_isOk {ε α : Type} {x : Except ε α} (h : x.isOk = true) : ∃ a, x = .ok a := by
  cases x with
  | error e => cases h
  | ok a => exact ⟨a, rfl⟩

theorem mapError_eq_error {ε ε' α : Type} {x : Except ε α} {f : ε → ε'} {e : ε'} :
    x.mapError f = .error e ↔ ∃ cause, x = .error cause ∧ f cause = e := by
  cases x <;> simp [Except.mapError]

theorem mapError_eq_ok {ε ε' α : Type} {x : Except ε α} {f : ε → ε'} {a : α} :
    x.mapError f = .ok a ↔ x = .ok a := by
  cases x <;> simp [Except.mapError]

theorem toOption_eq_some {ε α : Type} {x : Except ε α} {a : α} :
    x.toOption = some a ↔ x = .ok a := by
  cases x <;> simp [Except.toOption]

theorem mapM_eq_some {α β : Type} {f : α → Option β} {xs : List α} {ys : List β} :
    xs.mapM f = some ys ↔ List.Forall₂ (fun x y => f x = some y) xs ys := by
  induction xs generalizing ys with
  | nil => simp [eq_comm]
  | cons x xs ih =>
    rw [List.mapM_cons]
    constructor
    · intro h
      obtain ⟨y, hy, h⟩ := Option.bind_eq_some_iff.mp h
      obtain ⟨ys, hys, h⟩ := Option.bind_eq_some_iff.mp h
      cases h
      exact .cons hy (ih.mp hys)
    · rintro (_ | ⟨hy, hys⟩)
      rw [hy, ih.mpr hys]
      rfl

/-! ## Look-ups by text -/

namespace Value

theorem alike_str_iff {s : String} {k : Value} : (str s).alike k = true ↔ k = str s := by
  cases k with
  | str t => simpa [alike] using eq_comm
  | _ => simp [alike]

theorem alike_str_eq_false {s : String} {k : Value} (h : k ≠ str s) : (str s).alike k = false :=
  Bool.eq_false_iff.mpr fun hk => h (alike_str_iff.mp hk)

end Value

namespace Fields

@[simp] theorem getText?_nil (name : String) : getText? [] name = none := rfl

@[simp] theorem getText?_cons_self (name : String) (v : Value) (fields : Fields) :
    getText? ((.str name, v) :: fields) name = some v := by
  simp only [getText?, get?, List.find?_cons, Value.alike_str_iff.mpr rfl, Option.map_some]

theorem getText?_cons_of_ne {name : String} {k : Value} (h : k ≠ .str name) (v : Value)
    (fields : Fields) : getText? ((k, v) :: fields) name = getText? fields name := by
  simp only [getText?, get?, List.find?_cons, Value.alike_str_eq_false h]

theorem mem_of_getText? {name : String} {v : Value} {fields : Fields}
    (h : getText? fields name = some v) : (.str name, v) ∈ fields := by
  obtain ⟨⟨k, w⟩, hfind, hw⟩ := Option.map_eq_some_iff.mp h
  have hk : (Value.str name).alike (k, w).1 = true := by simpa using List.find?_some hfind
  obtain rfl := Value.alike_str_iff.mp hk
  obtain rfl : w = v := hw
  exact List.mem_of_find?_eq_some hfind

theorem getText?_insert_self (fields : Fields) (name : String) (v : Value) :
    getText? (insert fields (.str name) v) name = some v := by
  induction fields with
  | nil => exact getText?_cons_self name v []
  | cons field fields ih =>
    obtain ⟨k, w⟩ := field
    unfold insert
    split_ifs with hk
    · rw [Value.alike_str_iff.mp hk, getText?_cons_self]
    · rw [getText?_cons_of_ne (fun h => hk (Value.alike_str_iff.mpr h)), ih]

theorem getText?_insert_of_ne {name other : String} (h : other ≠ name) (fields : Fields)
    (v : Value) : getText? (insert fields (.str other) v) name = getText? fields name := by
  have hne : Value.str other ≠ .str name := fun he => h (Value.str.inj he)
  induction fields with
  | nil => exact getText?_cons_of_ne hne v []
  | cons field fields ih =>
    obtain ⟨k, w⟩ := field
    unfold insert
    split_ifs with hk
    · obtain rfl := Value.alike_str_iff.mp hk
      rw [getText?_cons_of_ne hne, getText?_cons_of_ne hne]
    · by_cases hname : k = .str name
      · subst hname
        rw [getText?_cons_self, getText?_cons_self]
      · rw [getText?_cons_of_ne hname, getText?_cons_of_ne hname, ih]

/-! ## Entries -/

/-- The fields with texts as keys. -/
def ofEntries (entries : List (String × Value)) : Fields :=
  entries.map fun entry => (.str entry.1, entry.2)

@[simp] theorem ofEntries_nil : ofEntries [] = [] := rfl

@[simp] theorem ofEntries_cons (name : String) (v : Value) (entries : List (String × Value)) :
    ofEntries ((name, v) :: entries) = (.str name, v) :: ofEntries entries := rfl

theorem getText?_ofEntries (entries : List (String × Value)) (name : String) :
    getText? (ofEntries entries) name = entries.lookup name := by
  induction entries with
  | nil => rfl
  | cons entry entries ih =>
    obtain ⟨key, v⟩ := entry
    by_cases h : name = key
    · subst h
      rw [ofEntries_cons, getText?_cons_self, List.lookup_cons_self]
    · have hkey : Value.str key ≠ .str name := fun he => h (Value.str.inj he).symm
      rw [ofEntries_cons, getText?_cons_of_ne hkey, ih, List.lookup_cons, beq_false_of_ne h]

theorem mem_ofEntries {k v : Value} {entries : List (String × Value)} :
    (k, v) ∈ ofEntries entries ↔ ∃ key, k = .str key ∧ (key, v) ∈ entries := by
  simp [ofEntries, eq_comm, and_comm]

/-- No field has a key of this text exactly when the text is no key of an entry. -/
theorem getText?_ofEntries_eq_none {entries : List (String × Value)} {name : String} :
    getText? (ofEntries entries) name = none ↔ name ∉ entries.map (·.1) := by
  rw [getText?_ofEntries, List.lookup_eq_none_iff]
  simp only [bne_iff_ne, List.mem_map, not_exists, not_and]
  exact forall₂_congr fun entry _ => ne_comm

/-- A field has a key of this text exactly when there is such an entry. -/
theorem getText?_ofEntries_eq_some {entries : List (String × Value)}
    (h : (entries.map (·.1)).Nodup) {name : String} {v : Value} :
    getText? (ofEntries entries) name = some v ↔ (name, v) ∈ entries := by
  constructor
  · intro hget
    obtain ⟨key, hkey, hmem⟩ := mem_ofEntries.mp (mem_of_getText? hget)
    rwa [Value.str.inj hkey]
  · intro hmem
    obtain ⟨before, after, rfl⟩ := List.append_of_mem hmem
    rw [getText?_ofEntries, List.lookup_eq_some_iff]
    refine ⟨before, after, rfl, fun entry hentry => ?_⟩
    rw [List.map_append] at h
    have hne := (List.nodup_append.mp h).2.2 entry.1 (List.mem_map_of_mem hentry) name (by simp)
    simpa using hne.symm

/-- A value with a new key goes to the end. -/
theorem insert_ofEntries_new {entries : List (String × Value)} {name : String}
    (h : name ∉ entries.map (·.1)) (v : Value) :
    insert (ofEntries entries) (.str name) v = ofEntries (entries ++ [(name, v)]) := by
  induction entries with
  | nil => rfl
  | cons entry entries ih =>
    obtain ⟨key, w⟩ := entry
    rw [List.map_cons, List.mem_cons, not_or] at h
    have hne : Value.str key ≠ .str name := fun he => h.1 (Value.str.inj he).symm
    rw [ofEntries_cons, insert, Value.alike_str_eq_false hne, if_neg Bool.false_ne_true, ih h.2]
    rfl

theorem overlay_ofEntries (held : List (String × Value)) {entries : List (String × Value)}
    (h : ((held ++ entries).map (·.1)).Nodup) :
    overlay (ofEntries held) (ofEntries entries) = ofEntries (held ++ entries) := by
  induction entries generalizing held with
  | nil => simp [overlay]
  | cons entry entries ih =>
    obtain ⟨key, v⟩ := entry
    have hkey : key ∉ held.map (·.1) := fun hmem => by
      rw [List.map_append, List.map_cons] at h
      exact (List.nodup_append.mp h).2.2 key hmem key (List.mem_cons_self ..) rfl
    rw [List.append_cons] at h ⊢
    rw [← ih _ h, ← insert_ofEntries_new hkey]
    rfl

/-- Fields with keys of their own are kept as they are. -/
theorem ofPairs_ofEntries {entries : List (String × Value)} (h : (entries.map (·.1)).Nodup) :
    ofPairs (ofEntries entries) = ofEntries entries :=
  overlay_ofEntries [] h

/-- Putting a value in place keeps the form, and adds at most the one key. -/
theorem exists_insert_ofEntries (entries : List (String × Value)) (name : String) (v : Value) :
    ∃ entries', insert (ofEntries entries) (.str name) v = ofEntries entries' ∧
      ((entries.map (·.1)).Nodup → (entries'.map (·.1)).Nodup) ∧
      (∀ key ∈ entries'.map (·.1), key = name ∨ key ∈ entries.map (·.1)) ∧
      ∀ entry ∈ entries', entry = (name, v) ∨ entry ∈ entries := by
  induction entries with
  | nil => exact ⟨[(name, v)], rfl, by simp, by simp, by simp⟩
  | cons entry entries ih =>
    obtain ⟨key, w⟩ := entry
    by_cases hkey : name = key
    · subst hkey
      refine ⟨(name, v) :: entries, ?_, by simp, by simp, ?_⟩
      · rw [ofEntries_cons, insert, if_pos (Value.alike_str_iff.mpr rfl), ofEntries_cons]
      · intro entry hentry
        rcases List.mem_cons.mp hentry with h | h
        · exact .inl h
        · exact .inr (List.mem_cons_of_mem _ h)
    · obtain ⟨entries', heq, hnodup, hkeys, hentries⟩ := ih
      have hne : Value.str key ≠ .str name := fun he => hkey (Value.str.inj he).symm
      refine ⟨(key, w) :: entries', ?_, ?_, ?_, ?_⟩
      · rw [ofEntries_cons, insert, Value.alike_str_eq_false hne, if_neg Bool.false_ne_true, heq,
          ofEntries_cons]
      · intro h
        rw [List.map_cons, List.nodup_cons] at h ⊢
        refine ⟨fun hmem => ?_, hnodup h.2⟩
        rcases hkeys key hmem with rfl | hmem
        · exact hkey rfl
        · exact h.1 hmem
      · intro k hk
        rcases List.mem_cons.mp hk with rfl | hk
        · exact .inr (by simp)
        · exact (hkeys k hk).imp_right (List.mem_cons_of_mem _)
      · intro entry hentry
        rcases List.mem_cons.mp hentry with rfl | hentry
        · exact .inr (by simp)
        · exact (hentries entry hentry).imp_right (List.mem_cons_of_mem _)

end Fields

/-! ## Made of what JSON holds -/

namespace Number

/-- Any number but the undefined one. -/
def isDefined : Number → Bool
  | int _ => true
  | float x => !x.isNaN

end Number

namespace Value

mutual

/-- Made of what JSON holds, with numbers that pass a test. -/
def isJson (number : Number → Bool) : Value → Bool
  | .null | .bool _ | .str _ => true
  | .int n => number (.int n)
  | .float x => number (.float x)
  | .list items => areJson number items
  | .object fields => areJsonFields number fields
  | .tuple _ | .set _ | .bytes _ | .datetime _ | .date _ => false

/-- All made of what JSON holds. -/
def areJson (number : Number → Bool) : List Value → Bool
  | [] => true
  | v :: vs => isJson number v && areJson number vs

/-- Every key is a text that no later field has, and every value is made of what JSON holds. -/
def areJsonFields (number : Number → Bool) : Fields → Bool
  | [] => true
  | (.str key, v) :: fields =>
    (Fields.getText? fields key).isNone && isJson number v && areJsonFields number fields
  | _ :: _ => false

end

variable {number : Number → Bool}

theorem areJson_iff {items : List Value} :
    areJson number items = true ↔ ∀ v ∈ items, isJson number v = true := by
  induction items with
  | nil => simp [areJson]
  | cons v vs ih => simp [areJson, ih]

@[simp] theorem isJson_list {items : List Value} :
    isJson number (.list items) = true ↔ ∀ v ∈ items, isJson number v = true := by
  rw [isJson, areJson_iff]

theorem areJsonFields_ofEntries {entries : List (String × Value)} :
    areJsonFields number (Fields.ofEntries entries) = true ↔
      (entries.map (·.1)).Nodup ∧ ∀ entry ∈ entries, isJson number entry.2 = true := by
  induction entries with
  | nil => simp [areJsonFields]
  | cons entry entries ih =>
    obtain ⟨key, v⟩ := entry
    rw [Fields.ofEntries_cons, areJsonFields, Bool.and_eq_true, Bool.and_eq_true, ih,
      Option.isNone_iff_eq_none, Fields.getText?_ofEntries_eq_none, List.map_cons, List.nodup_cons,
      List.forall_mem_cons]
    tauto

@[simp] theorem isJson_ofEntries {entries : List (String × Value)} :
    isJson number (.object (Fields.ofEntries entries)) = true ↔
      (entries.map (·.1)).Nodup ∧ ∀ entry ∈ entries, isJson number entry.2 = true := by
  rw [isJson, areJsonFields_ofEntries]

theorem exists_entries {fields : Fields} (h : areJsonFields number fields = true) :
    ∃ entries, fields = Fields.ofEntries entries := by
  induction fields with
  | nil => exact ⟨[], rfl⟩
  | cons field fields ih =>
    obtain ⟨k, v⟩ := field
    cases k with
    | str key =>
      simp only [areJsonFields, Bool.and_eq_true] at h
      obtain ⟨entries, rfl⟩ := ih h.2
      exact ⟨(key, v) :: entries, rfl⟩
    | _ => simp [areJsonFields] at h

/-- The object of a JSON value has entries with keys of their own. -/
theorem isJson_object {fields : Fields} (h : isJson number (.object fields) = true) :
    ∃ entries, fields = Fields.ofEntries entries ∧ (entries.map (·.1)).Nodup ∧
      ∀ entry ∈ entries, isJson number entry.2 = true := by
  obtain ⟨entries, rfl⟩ := exists_entries h
  exact ⟨entries, rfl, isJson_ofEntries.mp h⟩

theorem sizeOf_lt_of_mem_entries {entry : String × Value} {entries : List (String × Value)}
    (h : entry ∈ entries) : sizeOf entry.2 < sizeOf (object (Fields.ofEntries entries)) := by
  have hmem : (str entry.1, entry.2) ∈ Fields.ofEntries entries :=
    Fields.mem_ofEntries.mpr ⟨entry.1, rfl, h⟩
  have hlt := List.sizeOf_lt_of_mem hmem
  simp only [Prod.mk.sizeOf_spec, object.sizeOf_spec] at hlt ⊢
  omega

/-- An object that is put together from fields with texts as keys, whatever keys come twice. -/
theorem isJson_overlay (held : List (String × Value)) {entries : List (String × Value)}
    (hheld : isJson number (.object (Fields.ofEntries held)) = true)
    (hall : ∀ entry ∈ entries, isJson number entry.2 = true) :
    isJson number (.object (Fields.overlay (Fields.ofEntries held) (Fields.ofEntries entries))) =
      true := by
  induction entries generalizing held with
  | nil => exact hheld
  | cons entry entries ih =>
    obtain ⟨key, v⟩ := entry
    obtain ⟨held', heq, hkeys, -, hentries⟩ := Fields.exists_insert_ofEntries held key v
    rw [List.forall_mem_cons] at hall
    obtain ⟨hnodup, hheld⟩ := isJson_ofEntries.mp hheld
    have hheld' : isJson number (.object (Fields.ofEntries held')) = true := by
      refine isJson_ofEntries.mpr ⟨hkeys hnodup, fun entry hentry => ?_⟩
      rcases hentries entry hentry with rfl | hmem
      · exact hall.1
      · exact hheld entry hmem
    have hstep := ih _ hheld' hall.2
    rw [← heq] at hstep
    exact hstep

/-- Induction over JSON values: members and values of entries before what holds them. -/
@[elab_as_elim]
theorem isJson_induction {motive : ∀ v, isJson number v = true → Prop} (null : motive .null rfl)
    (bool : ∀ b, motive (.bool b) rfl)
    (int : ∀ n (h : number (.int n) = true), motive (.int n) h)
    (float : ∀ x (h : number (.float x) = true), motive (.float x) h)
    (str : ∀ s, motive (.str s) rfl)
    (list : ∀ items (hall : ∀ v ∈ items, isJson number v = true),
      (∀ v (hv : v ∈ items), motive v (hall v hv)) → motive (.list items) (isJson_list.mpr hall))
    (object : ∀ (entries : List (String × Value)) (hkeys : (entries.map (·.1)).Nodup)
      (hall : ∀ entry ∈ entries, isJson number entry.2 = true),
      (∀ entry (hentry : entry ∈ entries), motive entry.2 (hall entry hentry)) →
      motive (.object (Fields.ofEntries entries)) (isJson_ofEntries.mpr ⟨hkeys, hall⟩))
    (v : Value) (h : isJson number v = true) : motive v h := by
  induction hsize : sizeOf v using Nat.strongRecOn generalizing v with
  | _ n ih =>
    subst hsize
    cases v with
    | null => exact null
    | bool b => exact bool b
    | int n => exact int n h
    | float x => exact float x h
    | str s => exact str s
    | list items =>
      have hall := isJson_list.mp h
      refine list items hall fun v hv => ih (sizeOf v) ?_ v (hall v hv) rfl
      have hlt := List.sizeOf_lt_of_mem hv
      simp only [Value.list.sizeOf_spec]
      omega
    | object fields =>
      obtain ⟨entries, rfl, hnodup, hall⟩ := isJson_object h
      exact object entries hnodup hall fun entry hentry =>
        ih _ (sizeOf_lt_of_mem_entries hentry) entry.2 (hall entry hentry) rfl
    | tuple _ | set _ | bytes _ | datetime _ | date _ => simp [isJson] at h

end Value

end SnapshotStore
