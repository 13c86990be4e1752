import SnapshotStore.Proofs.Document.Given
import SnapshotStore.Proofs.Value.Display
import SnapshotStore.Proofs.Value.Numerals

/-!
# Fields that are kept

When a document is stored each of its keys becomes a text, and two keys of an object may become the
same text: `1` and `"1"` do. Then one of the two fields is lost.

**Theorem (`normalize_loses_field_iff`).** An object inside a document has another number of fields
once it is stored (`Value.LosesField`) exactly when some object inside has two such keys
(`Value.HasTwins`). Of two different keys that become the same text one is this text and the other
is no text, so it takes a number, boolean or null beside a text that spells it (`not_kept_twins`).

Each field becomes an entry, and entries come together where their keys are the same, so an object
keeps the number of its fields exactly when it has no two such keys (`length_ofPairs_iff`). A key
that is no text can be told from its text (`keyOfText_keyText`): the texts of numbers read back, and
neither `null` nor a boolean starts as a number does.
-/

namespace SnapshotStore

open Document (storedStyle becomes)

/-! ## Key texts -/

/-- The key, other than a text, that becomes a text. -/
def keyOfText (text : List Char) : Value :=
  if text = ['n', 'u', 'l', 'l'] then .null
  else if text = ['t', 'r', 'u', 'e'] then .bool true
  else if text = ['f', 'a', 'l', 's', 'e'] then .bool false
  else (numberOfText text).toValue

theorem keyOfText_of_startsNumeral {text : List Char} (h : StartsNumeral text) :
    keyOfText text = (numberOfText text).toValue := by
  have hne {c : Char} {cs : List Char} (hminus : c ≠ '-') (hdigit : c.isDigit = false) :
      text ≠ c :: cs := by
    rintro rfl
    obtain ⟨d, ⟨⟩, hd⟩ := h
    rcases hd with hd | hd
    · exact hminus hd
    · exact ne_of_isDigit hd hdigit rfl
  rw [keyOfText, if_neg (hne (by decide) rfl), if_neg (hne (by decide) rfl),
    if_neg (hne (by decide) rfl)]

/-- **A key that is no text can be told from its text.** -/
theorem keyOfText_keyText {key : Value} {text : List Char} (hstr : ∀ s, key ≠ .str s)
    (h : Json.keyText storedStyle key = .ok text) : keyOfText text = key := by
  cases key with
  | str s => exact absurd rfl (hstr s)
  | null =>
    cases h
    simp [keyOfText]
  | bool b =>
    cases h
    cases b <;> simp [keyOfText, Json.boolText]
  | int n =>
    simp only [Json.keyText, Json.integer] at h
    split_ifs at h
    obtain rfl := Except.ok.inj h
    rw [keyOfText_of_startsNumeral (startsNumeral_integerText n), numberOfText_integerText]
    rfl
  | float x =>
    cases x with
    | finite x =>
      obtain rfl := Except.ok.inj h
      rw [keyOfText_of_startsNumeral (startsNumeral_finite x), numberOfText_finite]
      rfl
    | _ => cases h
  | _ => cases h

namespace Document

theorem becomes_iff {key : Value} {name : String} :
    becomes key name = true ↔ Json.keyText storedStyle key = .ok name.toList := by
  unfold becomes
  cases Json.keyText storedStyle key with
  | error e => simp
  | ok text =>
    rw [beq_iff_eq, Except.ok.injEq]
    exact ⟨fun h => by rw [← h, String.toList_ofList], fun h => by rw [h, String.ofList_toList]⟩

theorem becomes_unique {key : Value} {name other : String} (h : becomes key name = true)
    (h' : becomes key other = true) : name = other := by
  rw [becomes_iff] at h h'
  exact String.toList_inj.mp (Except.ok.inj (h.symm.trans h'))

/-- **Two keys that become the same text are the same,** or one is this text and the other is no
text. -/
theorem eq_or_text_of_becomes {a b : Value} {name : String} (ha : becomes a name = true)
    (hb : becomes b name = true) :
    a = b ∨ (a = .str name ∧ ∀ t, b ≠ .str t) ∨ (b = .str name ∧ ∀ t, a ≠ .str t) := by
  rw [becomes_iff] at ha hb
  have htext {s : String} (h : Json.keyText storedStyle (.str s) = .ok name.toList) : s = name :=
    String.toList_inj.mp (Except.ok.inj h)
  by_cases hs : ∃ s, a = .str s <;> by_cases ht : ∃ t, b = .str t
  · obtain ⟨s, rfl⟩ := hs
    obtain ⟨t, rfl⟩ := ht
    exact .inl (by rw [htext ha, htext hb])
  · obtain ⟨s, rfl⟩ := hs
    exact .inr (.inl ⟨by rw [htext ha], not_exists.mp ht⟩)
  · obtain ⟨t, rfl⟩ := ht
    exact .inr (.inr ⟨by rw [htext hb], not_exists.mp hs⟩)
  · exact .inl (by rw [← keyOfText_keyText (not_exists.mp hs) ha,
      keyOfText_keyText (not_exists.mp ht) hb])

end Document

namespace Value

/-! ## Fields that are lost -/

/-- Some object inside has another number of fields than what it is stored as. Members correspond by
their places, and the value of a field to what is stored under the text of its key. -/
inductive LosesField : Value → Value → Prop where
  | here {fields others : Fields} (h : others.length ≠ fields.length) :
    LosesField (.object fields) (.object others)
  | list {items others : List Value} {v w : Value} (hmem : (v, w) ∈ items.zip others)
    (h : LosesField v w) : LosesField (.list items) (.list others)
  | tuple {items others : List Value} {v w : Value} (hmem : (v, w) ∈ items.zip others)
    (h : LosesField v w) : LosesField (.tuple items) (.list others)
  | field {fields others : Fields} {key v w : Value} {name : String}
    (hfield : (key, v) ∈ fields) (hname : becomes key name = true)
    (hw : Fields.getText? others name = some w) (h : LosesField v w) :
    LosesField (.object fields) (.object others)

/-- Some object inside has two fields whose keys become the same text. -/
inductive HasTwins : Value → Prop where
  | here {fields : Fields} {a b : Value × Value} {name : String}
    (hfields : [a, b].Sublist fields) (ha : becomes a.1 name = true)
    (hb : becomes b.1 name = true) : HasTwins (.object fields)
  | list {items : List Value} {v : Value} (hv : v ∈ items) (h : HasTwins v) : HasTwins (.list items)
  | tuple {items : List Value} {v : Value} (hv : v ∈ items) (h : HasTwins v) :
    HasTwins (.tuple items)
  | field {fields : Fields} {field : Value × Value} (hfield : field ∈ fields)
    (h : HasTwins field.2) : HasTwins (.object fields)

/-! ## Members and fields -/

theorem exists_mem_zip {α β : Type} {as : List α} {bs : List β} (h : as.length = bs.length) {a : α}
    (ha : a ∈ as) : ∃ b, (a, b) ∈ as.zip bs := by
  rw [← List.map_fst_zip h.le, List.mem_map] at ha
  obtain ⟨⟨a, b⟩, hmem, rfl⟩ := ha
  exact ⟨b, hmem⟩

theorem forall₂_of_cleanAll {vs ws : List Value} (h : cleanAll storedStyle vs = .ok ws) :
    List.Forall₂ (fun v w => v.clean storedStyle = .ok w) vs ws := by
  induction vs generalizing ws with
  | nil =>
    cases h
    exact .nil
  | cons v vs ih =>
    obtain ⟨w, hw, h⟩ := bind_eq_ok.mp h
    obtain ⟨ws, hws, h⟩ := bind_eq_ok.mp h
    cases h
    exact .cons hw (ih hws)

theorem clean_tuple (style : Json.Style) (items : List Value) :
    (tuple items).clean style = (list items).clean style := by
  rw [clean, clean]

/-- The members of a list are stored one by one. -/
theorem clean_list_eq_ok {items : List Value} {w : Value}
    (h : (list items).clean storedStyle = .ok w) : ∃ others, w = .list others ∧
      List.Forall₂ (fun v w => v.clean storedStyle = .ok w) items others := by
  rw [clean] at h
  obtain ⟨others, hothers, h⟩ := bind_eq_ok.mp h
  cases h
  exact ⟨others, rfl, forall₂_of_cleanAll hothers⟩

/-- An entry is what a field is stored as. -/
def StoredAs (field : Value × Value) (entry : String × Value) : Prop :=
  becomes field.1 entry.1 = true ∧ field.2.clean storedStyle = .ok entry.2

theorem forall₂_of_cleanFields {fields pairs : Fields}
    (h : Value.cleanFields storedStyle fields = .ok pairs) :
    ∃ entries, pairs = Fields.ofEntries entries ∧ List.Forall₂ StoredAs fields entries := by
  induction fields generalizing pairs with
  | nil =>
    cases h
    exact ⟨[], rfl, .nil⟩
  | cons field fields ih =>
    obtain ⟨key, hkey, h⟩ := bind_eq_ok.mp h
    obtain ⟨w, hw, h⟩ := bind_eq_ok.mp h
    obtain ⟨pairs, hpairs, h⟩ := bind_eq_ok.mp h
    cases h
    obtain ⟨entries, rfl, hstored⟩ := ih hpairs
    refine ⟨(String.ofList key, w) :: entries, rfl, .cons ⟨?_, hw⟩ hstored⟩
    rw [Document.becomes_iff, String.toList_ofList]
    exact hkey

/-- The fields of an object are stored one by one, and put together. -/
theorem clean_object_eq_ok {fields : Fields} {w : Value}
    (h : (object fields).clean storedStyle = .ok w) : ∃ entries,
      w = .object (Fields.ofPairs (Fields.ofEntries entries)) ∧
      List.Forall₂ StoredAs fields entries := by
  rw [clean] at h
  obtain ⟨pairs, hpairs, h⟩ := bind_eq_ok.mp h
  obtain ⟨entries, rfl, hstored⟩ := forall₂_of_cleanFields hpairs
  cases h
  exact ⟨entries, rfl, hstored⟩

section Fields

variable {fields : Fields} {entries : List (String × Value)}
  (hstored : List.Forall₂ StoredAs fields entries)
include hstored

theorem exists_storedAs {field : Value × Value} (hfield : field ∈ fields) :
    ∃ entry ∈ entries, StoredAs field entry := by
  obtain ⟨entry, hmem⟩ := exists_mem_zip hstored.length_eq hfield
  exact ⟨entry, (List.of_mem_zip hmem).2, List.forall₂_zip hstored hmem⟩

theorem exists_field {entry : String × Value} (hentry : entry ∈ entries) :
    ∃ field ∈ fields, StoredAs field entry := by
  obtain ⟨field, hmem⟩ := exists_mem_zip hstored.length_eq.symm hentry
  rw [← List.zip_swap, List.mem_map] at hmem
  obtain ⟨⟨field, entry⟩, hmem, ⟨⟩⟩ := hmem
  exact ⟨field, (List.of_mem_zip hmem).1, List.forall₂_zip hstored hmem⟩

/-- Keys that come twice come from two fields. -/
theorem exists_twins (h : ¬ (entries.map (·.1)).Nodup) :
    ∃ a b name, [a, b].Sublist fields ∧ becomes a.1 name = true ∧ becomes b.1 name = true := by
  induction hstored with
  | nil => exact absurd List.nodup_nil h
  | @cons field entry fields entries hhead htail ih =>
    by_cases hmem : entry.1 ∈ entries.map (·.1)
    · obtain ⟨other, hother, hkey⟩ := List.mem_map.mp hmem
      obtain ⟨field', hfield', hname, -⟩ := exists_field htail hother
      exact ⟨field, field', entry.1, (List.singleton_sublist.mpr hfield').cons_cons field, hhead.1,
        hkey ▸ hname⟩
    · rw [List.map_cons, List.nodup_cons, not_and] at h
      obtain ⟨a, b, name, hfields, hnames⟩ := ih (h hmem)
      exact ⟨a, b, name, hfields.cons field, hnames⟩

theorem not_nodup_of_twins {a b : Value × Value} {name : String} (hfields : [a, b].Sublist fields)
    (ha : becomes a.1 name = true) (hb : becomes b.1 name = true) :
    ¬ (entries.map (·.1)).Nodup := by
  induction hstored with
  | nil => cases hfields
  | @cons field entry fields entries hhead htail ih =>
    rw [List.map_cons, List.nodup_cons, not_and]
    intro hmem
    cases hfields with
    | cons _ hrest => exact ih hrest
    | cons_cons _ hrest =>
      obtain ⟨other, hother, hstored⟩ := exists_storedAs htail (List.singleton_sublist.mp hrest)
      rw [Document.becomes_unique hhead.1 ha, ← Document.becomes_unique hstored.1 hb] at hmem
      exact absurd (List.mem_map_of_mem hother) hmem

/-- **All fields are kept exactly when no two become one.** -/
theorem length_ofPairs_iff :
    (Fields.ofPairs (Fields.ofEntries entries)).length = fields.length ↔
      (entries.map (·.1)).Nodup := by
  have hlength : (Fields.ofEntries entries).length = fields.length := by
    rw [Fields.ofEntries, List.length_map, hstored.length_eq]
  rw [← hlength]
  constructor
  · intro h
    have hall : ∀ entry ∈ entries, entry.2.isJson storedStyle.admits = true := by
      intro entry hentry
      obtain ⟨field, -, hfield⟩ := exists_field hstored hentry
      exact isJson_clean _ _ hfield.2
    have hjson : (object (Fields.ofPairs (Fields.ofEntries entries))).isJson
        storedStyle.admits = true := isJson_overlay [] rfl hall
    rw [Fields.ofPairs_of_length h] at hjson
    exact (isJson_ofEntries.mp hjson).1
  · intro h
    rw [Fields.ofPairs_ofEntries h]

end Fields

/-! ## What is lost and why -/

variable {v w : Value}

/-- **A field is lost only where two keys become the same text.** -/
theorem hasTwins_of_losesField (h : LosesField v w) (hclean : v.clean storedStyle = .ok w) :
    HasTwins v := by
  induction h with
  | here h =>
    obtain ⟨entries, ⟨⟩, hstored⟩ := clean_object_eq_ok hclean
    obtain ⟨a, b, name, hfields, ha, hb⟩ :=
      exists_twins hstored fun hnodup => h ((length_ofPairs_iff hstored).mpr hnodup)
    exact .here hfields ha hb
  | list hmem _ ih =>
    obtain ⟨others, ⟨⟩, hmembers⟩ := clean_list_eq_ok hclean
    exact .list (List.of_mem_zip hmem).1 (ih (List.forall₂_zip hmembers hmem))
  | tuple hmem _ ih =>
    rw [clean_tuple] at hclean
    obtain ⟨others, ⟨⟩, hmembers⟩ := clean_list_eq_ok hclean
    exact .tuple (List.of_mem_zip hmem).1 (ih (List.forall₂_zip hmembers hmem))
  | @field fields others key v w name hfield hname hw _ ih =>
    obtain ⟨entries, ⟨⟩, hstored⟩ := clean_object_eq_ok hclean
    by_cases hnodup : (entries.map (·.1)).Nodup
    · obtain ⟨entry, hentry, hkey, hvalue⟩ := exists_storedAs hstored hfield
      obtain rfl := Document.becomes_unique hkey hname
      rw [Fields.ofPairs_ofEntries hnodup, Fields.getText?_ofEntries_eq_some hnodup] at hw
      have hsame : entry = (entry.1, w) := List.inj_on_of_nodup_map hnodup hentry hw rfl
      rw [congrArg Prod.snd hsame] at hvalue
      exact .field hfield (ih hvalue)
    · obtain ⟨a, b, name, hfields, ha, hb⟩ := exists_twins hstored hnodup
      exact .here hfields ha hb

/-- **Where two keys become the same text a field is lost.** -/
theorem losesField_of_hasTwins (h : HasTwins v) (hclean : v.clean storedStyle = .ok w) :
    LosesField v w := by
  induction h generalizing w with
  | here hfields ha hb =>
    obtain ⟨entries, rfl, hstored⟩ := clean_object_eq_ok hclean
    exact .here fun hlength =>
      not_nodup_of_twins hstored hfields ha hb ((length_ofPairs_iff hstored).mp hlength)
  | list hv _ ih =>
    obtain ⟨others, rfl, hmembers⟩ := clean_list_eq_ok hclean
    obtain ⟨w, hmem⟩ := exists_mem_zip hmembers.length_eq hv
    exact .list hmem (ih (List.forall₂_zip hmembers hmem))
  | tuple hv _ ih =>
    rw [clean_tuple] at hclean
    obtain ⟨others, rfl, hmembers⟩ := clean_list_eq_ok hclean
    obtain ⟨w, hmem⟩ := exists_mem_zip hmembers.length_eq hv
    exact .tuple hmem (ih (List.forall₂_zip hmembers hmem))
  | field hfield _ ih =>
    obtain ⟨entries, rfl, hstored⟩ := clean_object_eq_ok hclean
    by_cases hnodup : (entries.map (·.1)).Nodup
    · obtain ⟨entry, hentry, hkey, hvalue⟩ := exists_storedAs hstored hfield
      refine .field hfield hkey ?_ (ih hvalue)
      rw [Fields.ofPairs_ofEntries hnodup, Fields.getText?_ofEntries_eq_some hnodup]
      exact hentry
    -- Where another field takes its place, that is the loss.
    · exact .here fun hlength => hnodup ((length_ofPairs_iff hstored).mp hlength)

end Value

namespace Document

variable {v : Value} {doc : Document}

/-- **Storing a document loses a field exactly where two keys of an object become the same text.**
Two keys that do, and that are not the same, are this text and one that is no text. -/
theorem normalize_loses_field_iff (h : normalize v = .ok doc) :
    (v.LosesField (.object doc) ↔ v.HasTwins) ∧
    ∀ a b name, becomes a name = true → becomes b name = true →
      a = b ∨ (a = .str name ∧ ∀ t, b ≠ .str t) ∨ (b = .str name ∧ ∀ t, a ≠ .str t) := by
  obtain ⟨fields, rfl, hclean⟩ := normalize_eq_ok h
  refine ⟨⟨fun hloses => ?_, fun htwins => ?_⟩, fun a b name ha hb => ?_⟩
  · exact Value.hasTwins_of_losesField hloses hclean
  · exact Value.losesField_of_hasTwins htwins hclean
  · exact eq_or_text_of_becomes ha hb

/-- A document with two fields, under a number and under the text that spells it. -/
def twinFields : Document := [(.int 1, .str "a"), (.str "1", .str "b")]

/-- One of them is lost where it stands inside another document. -/
theorem normalize_loses_field_iff_nested :
    ∃ doc, normalize (.object [(.str "items", .tuple [.object twinFields])]) = .ok doc ∧
      (Value.object [(.str "items", .tuple [.object twinFields])]).LosesField (.object doc) := by
  obtain ⟨doc, hdoc⟩ : ∃ doc,
      normalize (.object [(.str "items", .tuple [.object twinFields])]) = .ok doc :=
    exists_of_isOk (by decide +kernel)
  have hnumber : becomes (.int 1) "1" = true := by decide +kernel
  have htext : becomes (.str "1") "1" = true := by decide +kernel
  have htwins : Value.HasTwins (.object twinFields) := .here (.refl _) hnumber htext
  have hinside : Value.HasTwins (.object [(.str "items", .tuple [.object twinFields])]) :=
    .field (List.mem_singleton_self _) (.tuple (List.mem_singleton_self _) htwins)
  exact ⟨doc, hdoc, (normalize_loses_field_iff hdoc).1.mpr hinside⟩

/-- Of a number and its text only the later is kept. -/
theorem not_kept_twins :
    normalize (.object twinFields) = .ok [(.str "1", .str "b")] ∧
      (Value.object twinFields).LosesField (.object [(.str "1", .str "b")]) := by
  refine ⟨?_, .here (by decide)⟩
  have hone : Json.integer 1 = .ok "1".toList := by
    rw [Json.integer, if_pos (by decide +kernel)]
    simp only [String.reduceToList]
    rfl
  simp only [normalize, cleanFields, twinFields, Value.cleanFields, Value.clean, hone, Json.keyText,
    ok_bind, Except.mapError, String.ofList_toList]
  simp [Fields.ofPairs, Fields.overlay, Fields.insert, Value.alike]

end Document

end SnapshotStore
