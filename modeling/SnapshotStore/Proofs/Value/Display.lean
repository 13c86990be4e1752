import SnapshotStore.Proofs.Value.Literal

/-!
# The display of a value and of its clean form

The key of a document is the display of its id, and the id that is stored is the clean form of the
one that was given. So an id leads to its document where both are displayed the same.

**Theorem (`eq_of_literal_clean`).** A value that has the literal of its stored form is its stored
form. By recursion over the value: lists and objects with the same literal have members with the
same literals (`literals_inj`, `literalPairs_inj`). What cleaning changes shows in the literal: a
tuple has other brackets than a list, a time and a key that is no text have no quotes, and where
fields come together an object gets shorter.

**Theorem (`display_clean_iff`).** A value is displayed as its stored form exactly if it is a JSON
value already, or a date: a date by itself is displayed as its text.
-/

namespace SnapshotStore

namespace Fields

/-- A value goes to the end or in place of another. -/
theorem insert_eq_append_or_length (fields : Fields) (key v : Value) :
    insert fields key v = fields ++ [(key, v)] ∨ (insert fields key v).length = fields.length := by
  induction fields with
  | nil => exact .inl rfl
  | cons field fields ih =>
    obtain ⟨k, w⟩ := field
    unfold insert
    split_ifs with hkey
    · exact .inr rfl
    · exact ih.imp (congrArg ((k, w) :: ·)) (congrArg (· + 1))

theorem length_insert_le (fields : Fields) (key v : Value) :
    (insert fields key v).length ≤ fields.length + 1 := by
  rcases insert_eq_append_or_length fields key v with h | h
  · rw [h, List.length_append, List.length_singleton]
  · omega

theorem length_overlay_le (fields others : Fields) :
    (overlay fields others).length ≤ fields.length + others.length := by
  induction others generalizing fields with
  | nil => exact Nat.le_refl _
  | cons field others ih =>
    have hrest := ih (insert fields field.1 field.2)
    have hinsert := length_insert_le fields field.1 field.2
    rw [List.length_cons]
    exact hrest.trans (by omega)

/-- Fields of which none was put in place of another stand where they were given. -/
theorem overlay_eq_append {fields others : Fields}
    (h : (overlay fields others).length = fields.length + others.length) :
    overlay fields others = fields ++ others := by
  induction others generalizing fields with
  | nil => exact (List.append_nil fields).symm
  | cons field others ih =>
    change (overlay (insert fields field.1 field.2) others).length = _ at h
    have hrest := length_overlay_le (insert fields field.1 field.2) others
    rw [List.length_cons] at h
    rcases insert_eq_append_or_length fields field.1 field.2 with hinsert | hinsert
    · change overlay (insert fields field.1 field.2) others = _
      rw [hinsert] at h ⊢
      rw [ih (by simp only [List.length_append, List.length_singleton] at h ⊢; omega)]
      simp
    · omega

theorem ofPairs_of_length {pairs : List (Value × Value)}
    (h : (ofPairs pairs).length = pairs.length) : ofPairs pairs = pairs :=
  overlay_eq_append (h.trans (Nat.zero_add _).symm)

end Fields

namespace Value

open Document (storedStyle)

/-! ## What has the same literals -/

theorem literals_inj {vs ws : List Value}
    (h : '[' :: (commaSeparated (literals vs) ++ [']']) =
      '[' :: (commaSeparated (literals ws) ++ [']'])) : literals vs = literals ws := by
  have hitems (vs : List Value) : ∀ text ∈ literals vs, IsItem text := by
    rw [literals_eq_map]
    exact List.forall_mem_map.mpr fun v _ => isItem_literal v
  exact commaSeparated_inj (hitems vs) (hitems ws) (List.append_cancel_right (List.cons.inj h).2)

theorem literalPairs_inj {fields others : Fields}
    (h : (object fields).literal = (object others).literal) :
    literalPairs fields = literalPairs others := by
  have hitems (fields : Fields) : ∀ pair ∈ literalPairs fields, IsItem pair.1 ∧ IsItem pair.2 :=
    List.forall_mem_map.mpr fun field _ => ⟨isItem_literal field.1, isItem_literal field.2⟩
  rw [literal, literal, fieldLiterals_eq_map, fieldLiterals_eq_map] at h
  exact commaSeparated_pairs_inj (hitems fields) (hitems others)
    (List.append_cancel_right (List.cons.inj h).2)

/-! ## What starts with a quote -/

/-- The text starts with a quote. -/
def StartsQuoted (text : List Char) : Prop := ∃ c ∈ text.head?, Role.of c = .quote

theorem startsQuoted_literal_str (s : String) : StartsQuoted (str s).literal := by
  rw [literal]
  exact ⟨_, rfl, role_quoteFor _⟩

theorem not_startsQuoted_of_plain {text : List Char} (h : ∀ c ∈ text, Role.of c = .plain) :
    ¬ StartsQuoted text := by
  rintro ⟨c, hc, hrole⟩
  cases (h c (List.mem_of_mem_head? hc)).symm.trans hrole

/-- Of times the name of their kind is written first. -/
theorem head_literal_datetime (t : DateTime) : (datetime t).literal.head? = some 'd' := by
  rw [literal]
  unfold DateTime.literal
  simp only [String.reduceToList]
  rfl

theorem head_literal_date (d : Date) : (date d).literal.head? = some 'd' := by
  rw [literal]
  unfold Date.literal
  simp only [String.reduceToList]
  rfl

theorem not_startsQuoted_of_head {text : List Char} {c : Char} (hhead : text.head? = some c)
    (hrole : Role.of c ≠ .quote) : ¬ StartsQuoted text := by
  rintro ⟨c', hc', hrole'⟩
  rw [hhead] at hc'
  exact hrole (Option.some.inj hc' ▸ hrole')

/-- A key with the literal of its text is a text. -/
theorem eq_of_literal_key {style : Json.Style} {k : Value} {key : List Char}
    (hkey : Json.keyText style k = .ok key)
    (h : k.literal = (str (String.ofList key)).literal) : k = .str (String.ofList key) := by
  have hquoted : StartsQuoted k.literal := h ▸ startsQuoted_literal_str _
  cases k with
  | str s =>
    cases hkey
    rw [String.ofList_toList]
  | int n =>
    rw [literal] at hquoted
    exact absurd hquoted (not_startsQuoted_of_plain fun _ => role_of_mem_integerText)
  | float x =>
    rw [literal] at hquoted
    exact absurd hquoted (not_startsQuoted_of_plain fun _ => role_of_mem_text)
  | null => exact absurd hquoted (not_startsQuoted_of_plain fun _ => role_of_mem_literal_null)
  | bool b => exact absurd hquoted (not_startsQuoted_of_plain fun _ => role_of_mem_literal_bool)
  | _ => cases hkey

/-! ## Values and their stored forms -/

theorem clean_datetime (t : DateTime) :
    (datetime t).clean storedStyle = .ok (.str (String.ofList t.text)) := rfl

theorem clean_date (d : Date) :
    (date d).clean storedStyle = .ok (.str (String.ofList d.text)) := rfl

/-- Only texts and times are stored as texts. -/
theorem eq_of_clean_str {v : Value} {s : String} (h : v.clean storedStyle = .ok (.str s)) :
    v = .str s ∨ (∃ t, v = .datetime t) ∨ ∃ d, v = .date d := by
  cases v with
  | str s' =>
    cases h
    exact .inl rfl
  | datetime t => exact .inr (.inl ⟨t, rfl⟩)
  | date d => exact .inr (.inr ⟨d, rfl⟩)
  | int n =>
    rw [clean] at h
    obtain ⟨_, -, h⟩ := bind_eq_ok.mp h
    cases h
  | float x =>
    cases x <;> simp only [clean] at h
    all_goals
      obtain ⟨_, -, h⟩ := bind_eq_ok.mp h
      cases h
  | list items | tuple items =>
    rw [clean] at h
    obtain ⟨_, -, h⟩ := bind_eq_ok.mp h
    cases h
  | object fields =>
    rw [clean] at h
    obtain ⟨_, -, h⟩ := bind_eq_ok.mp h
    cases h
  | _ => cases h

theorem length_cleanFields {style : Json.Style} {fields pairs : Fields}
    (h : Value.cleanFields style fields = .ok pairs) : fields.length = pairs.length := by
  induction fields generalizing pairs with
  | nil =>
    cases h
    rfl
  | cons field fields ih =>
    obtain ⟨key, -, h⟩ := bind_eq_ok.mp h
    obtain ⟨w, -, h⟩ := bind_eq_ok.mp h
    obtain ⟨pairs, hpairs, h⟩ := bind_eq_ok.mp h
    cases h
    exact congrArg (· + 1) (ih hpairs)

/-- A tuple has other brackets than a list. -/
theorem head_literal_tuple (items : List Value) : (tuple items).literal.head? = some '(' := by
  match items with
  | [] => simp [literal]
  | [item] => simp [literal]
  | first :: second :: items => simp [literal]

mutual

/-- **A value with the literal of its stored form is its stored form.** -/
theorem eq_of_literal_clean : ∀ v w : Value, v.clean storedStyle = .ok w →
    v.literal = w.literal → v = w
  | .null => by
    intro w h _
    cases h
    rfl
  | .bool b => by
    intro w h _
    cases h
    rfl
  | .int n => by
    intro w h _
    rw [clean] at h
    obtain ⟨_, -, h⟩ := bind_eq_ok.mp h
    cases h
    rfl
  | .float (.nan tag) => by
    intro w h _
    cases h
  | .float (.infinite negative) => by
    intro w h _
    simp [clean, Json.float, storedStyle, bind, Except.bind] at h
  | .float (.finite x) => by
    intro w h _
    simp only [clean] at h
    obtain ⟨_, -, h⟩ := bind_eq_ok.mp h
    cases h
    rfl
  | .str s => by
    intro w h _
    cases h
    rfl
  | .list items => by
    intro w h heq
    rw [clean] at h
    obtain ⟨ws, hws, h⟩ := bind_eq_ok.mp h
    cases h
    rw [literal, literal] at heq
    rw [eq_of_literals_cleanAll items ws hws (literals_inj heq)]
  | .tuple items => by
    intro w h heq
    rw [clean] at h
    obtain ⟨ws, -, h⟩ := bind_eq_ok.mp h
    cases h
    have hhead := head_literal_tuple items
    rw [heq, literal] at hhead
    cases hhead
  | .set _ => by
    intro w h _
    cases h
  | .bytes _ => by
    intro w h _
    cases h
  | .datetime t => by
    intro w h heq
    rw [clean_datetime] at h
    rw [← Except.ok.inj h] at heq
    have hquoted := startsQuoted_literal_str (String.ofList t.text)
    rw [← heq] at hquoted
    exact absurd hquoted (not_startsQuoted_of_head (head_literal_datetime t) (by decide))
  | .date d => by
    intro w h heq
    rw [clean_date] at h
    rw [← Except.ok.inj h] at heq
    have hquoted := startsQuoted_literal_str (String.ofList d.text)
    rw [← heq] at hquoted
    exact absurd hquoted (not_startsQuoted_of_head (head_literal_date d) (by decide))
  | .object fields => by
    intro w h heq
    rw [clean] at h
    obtain ⟨pairs, hpairs, h⟩ := bind_eq_ok.mp h
    cases h
    have hliterals := literalPairs_inj heq
    have hlength : fields.length = (Fields.ofPairs pairs).length := by
      simpa [literalPairs] using congrArg List.length hliterals
    rw [length_cleanFields hpairs] at hlength
    rw [Fields.ofPairs_of_length hlength.symm] at hliterals
    rw [Fields.ofPairs_of_length hlength.symm,
      ← eq_of_literalPairs_cleanFields fields pairs hpairs hliterals]

theorem eq_of_literals_cleanAll : ∀ vs ws : List Value, cleanAll storedStyle vs = .ok ws →
    literals vs = literals ws → vs = ws
  | [] => by
    intro ws h _
    cases h
    rfl
  | v :: vs => by
    intro ws h heq
    obtain ⟨w, hw, h⟩ := bind_eq_ok.mp h
    obtain ⟨ws, hws, h⟩ := bind_eq_ok.mp h
    cases h
    obtain ⟨hhead, htail⟩ := List.cons.inj heq
    rw [eq_of_literal_clean v w hw hhead, eq_of_literals_cleanAll vs ws hws htail]

theorem eq_of_literalPairs_cleanFields : ∀ fields pairs : Fields,
    Value.cleanFields storedStyle fields = .ok pairs → literalPairs fields = literalPairs pairs →
    fields = pairs
  | [] => by
    intro pairs h _
    cases h
    rfl
  | (k, v) :: fields => by
    intro pairs h heq
    obtain ⟨key, hkey, h⟩ := bind_eq_ok.mp h
    obtain ⟨w, hw, h⟩ := bind_eq_ok.mp h
    obtain ⟨pairs, hpairs, h⟩ := bind_eq_ok.mp h
    cases h
    obtain ⟨hfield, htail⟩ := List.cons.inj heq
    obtain ⟨hliteral, hvalue⟩ := Prod.mk.inj hfield
    rw [eq_of_literal_key hkey hliteral, eq_of_literal_clean v w hw hvalue,
      eq_of_literalPairs_cleanFields fields pairs hpairs htail]

end

/-- All but texts and times are displayed as literals. -/
theorem displayText_eq_literal {v : Value} (hstr : ∀ s, v ≠ .str s) (htime : ∀ t, v ≠ .datetime t)
    (hdate : ∀ d, v ≠ .date d) : v.displayText = v.literal := by
  unfold displayText
  split
  · exact absurd rfl (hstr _)
  · exact absurd rfl (htime _)
  · exact absurd rfl (hdate _)
  · rfl

/-- A time by itself is displayed with a blank where its text has a letter. -/
theorem displayText_datetime_ne (t : DateTime) :
    (datetime t).displayText ≠ (str (String.ofList t.text)).displayText := by
  simp only [displayText, String.toList_ofList, DateTime.text, DateTime.textWith]
  intro h
  exact absurd (List.cons.inj (List.append_cancel_left h)).1 (by decide)

/-- **A value is displayed as its stored form** if it is its stored form, and if it is a date. -/
theorem display_clean_iff {v w : Value} (h : v.clean storedStyle = .ok w) :
    v.display = w.display ↔ v.isJson storedStyle.admits = true ∨ ∃ d, v = .date d := by
  constructor
  · intro heq
    have htext : v.displayText = w.displayText := by
      simpa only [display, String.toList_ofList] using congrArg String.toList heq
    have hjson := isJson_clean v w h
    by_cases hw : ∃ s, w = .str s
    · obtain ⟨s, rfl⟩ := hw
      rcases eq_of_clean_str h with rfl | ⟨t, rfl⟩ | ⟨d, rfl⟩
      · exact .inl rfl
      · rw [clean_datetime] at h
        rw [← Except.ok.inj h] at htext
        exact absurd htext (displayText_datetime_ne t)
      · exact .inr ⟨d, rfl⟩
    · have hdisplay : v.displayText = v.literal := displayText_eq_literal
        (by rintro s rfl; exact hw ⟨s, (Except.ok.inj h).symm⟩)
        (by rintro t rfl; exact hw ⟨_, (Except.ok.inj h).symm⟩)
        (by rintro d rfl; exact hw ⟨_, (Except.ok.inj h).symm⟩)
      have hstored : w.displayText = w.literal := displayText_eq_literal
        (fun s hs => hw ⟨s, hs⟩) (by rintro t rfl; cases hjson) (by rintro d rfl; cases hjson)
      rw [hdisplay, hstored] at htext
      rw [eq_of_literal_clean v w h htext]
      exact .inl hjson
  · rintro (hv | ⟨d, rfl⟩)
    · rw [clean_stored_of_isJson hv] at h
      rw [Except.ok.inj h]
    · rw [clean_date] at h
      rw [← Except.ok.inj h]
      simp only [display, displayText, String.toList_ofList]

end Value

end SnapshotStore
