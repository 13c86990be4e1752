import SnapshotStore.Proofs.Document
import SnapshotStore.Proofs.Text.Items

/-!
# Literals

**Theorem (`isItem_literal`).** A literal is one item of a list: its brackets match, its quotes are
closed, and all its commas and colons stand within brackets.
-/

namespace SnapshotStore

/-! ## Numbers -/

theorem role_of_isDigit {c : Char} (h : c.isDigit = true) : Role.of c = .plain := by
  have hne {d : Char} (hd : d.isDigit = false) : c ≠ d := by
    rintro rfl
    rw [h] at hd
    cases hd
  unfold Role.of
  simp [hne]

theorem passes_digitsOf (n : Nat) : Passes (digitsOf n) :=
  .of_plain fun _ hc => role_of_isDigit (isDigit_of_mem_digitsOf hc)

theorem role_of_mem_integerText {n : Int} {c : Char} (h : c ∈ integerText n) :
    Role.of c = .plain := by
  cases n with
  | ofNat n => exact role_of_isDigit (isDigit_of_mem_digitsOf h)
  | negSucc n =>
    rcases List.mem_cons.mp h with rfl | h
    · decide
    · exact role_of_isDigit (isDigit_of_mem_digitsOf h)

theorem role_of_mem_exponentText {e : Int} {c : Char} (h : c ∈ Binary64.exponentText e) :
    Role.of c = .plain := by
  have hdigits {c : Char} (h : c ∈ digitsOf e.natAbs) := role_of_isDigit (isDigit_of_mem_digitsOf h)
  simp only [Binary64.exponentText, List.mem_cons] at h
  rcases h with rfl | h
  · split_ifs <;> decide
  · split_ifs at h
    · rcases List.mem_cons.mp h with rfl | h
      · decide
      · exact hdigits h
    · exact hdigits h

theorem role_of_mem_layOut {digits : List Char} (hdigits : ∀ c ∈ digits, Role.of c = .plain)
    {order : Int} {c : Char} (h : c ∈ Binary64.layOut digits order) : Role.of c = .plain := by
  have hzeros {n : Nat} (hc : c ∈ List.replicate n '0') : Role.of c = .plain := by
    rw [List.eq_of_mem_replicate hc]
    decide
  simp only [Binary64.layOut] at h
  split_ifs at h with hpositional hsmall hwhole
  · simp only [List.mem_cons, List.mem_append] at h
    rcases h with rfl | rfl | h | h
    · decide
    · decide
    · exact hzeros h
    · exact hdigits c h
  · simp only [List.mem_append, List.mem_cons, List.not_mem_nil, or_false] at h
    rcases h with (h | h) | rfl | rfl
    · exact hdigits c h
    · exact hzeros h
    · decide
    · decide
  · simp only [List.mem_append, List.mem_cons] at h
    rcases h with h | rfl | h
    · exact hdigits c (List.mem_of_mem_take h)
    · decide
    · exact hdigits c (List.mem_of_mem_drop h)
  · simp only [List.mem_append, List.mem_cons] at h
    rcases h with h | rfl | h
    · split at h
      · simp only [List.mem_cons] at h
        rcases h with rfl | rfl | h
        · exact hdigits _ (by simp)
        · decide
        · exact hdigits c (by simp [h])
      · exact hdigits c h
    · decide
    · exact role_of_mem_exponentText h

theorem role_of_mem_sizeText {x : Binary64.Finite} {c : Char} (h : c ∈ x.sizeText) :
    Role.of c = .plain := by
  unfold Binary64.Finite.sizeText at h
  generalize x.shortest = found at h
  obtain ⟨coefficient, exponent⟩ := found
  split_ifs at h
  · exact Role.plain_of_all (by decide) c h
  · refine role_of_mem_layOut (fun d hd => ?_) h
    have hmem := (List.dropWhile_sublist _).mem (List.mem_reverse.mp hd)
    exact role_of_isDigit (isDigit_of_mem_digitsOf (List.mem_reverse.mp hmem))

theorem role_of_mem_text {x : Binary64} {c : Char} (h : c ∈ x.text) : Role.of c = .plain := by
  cases x with
  | finite x =>
    rw [Binary64.text] at h
    split_ifs at h
    · rcases List.mem_cons.mp h with rfl | h
      · decide
      · exact role_of_mem_sizeText h
    · exact role_of_mem_sizeText h
  | infinite negative =>
    have hall : ∀ c ∈ (Binary64.infinite negative).text, Role.of c = .plain := by
      cases negative <;> exact Role.plain_of_all (by decide)
    exact hall c h
  | nan tag =>
    have hall : ∀ c ∈ ['n', 'a', 'n'], Role.of c = .plain := Role.plain_of_all (by decide)
    exact hall c h

theorem integerText_ne_nil (n : Int) : integerText n ≠ [] := by
  cases n with
  | ofNat n => exact digitsOf_ne_nil n
  | negSucc n => exact List.cons_ne_nil _ _

theorem text_ne_nil (x : Binary64) : x.text ≠ [] := by
  cases x with
  | finite x =>
    obtain ⟨c, cs, hsize, -⟩ := Json.head_sizeText x
    rw [Binary64.text, hsize]
    split_ifs <;> exact List.cons_ne_nil _ _
  | infinite negative => cases negative <;> exact List.cons_ne_nil _ _
  | nan tag => exact List.cons_ne_nil _ _

/-! ## Times -/

theorem passesInside_argumentText (numbers : List Nat) : PassesInside (argumentText numbers) :=
  passesInside_commaSeparated (List.forall_mem_map.mpr fun n _ => (passes_digitsOf n).inside)

/-- A name with something in parentheses behind it. -/
theorem passes_call (name : List Char) {inner : List Char} (hname : ∀ c ∈ name, Role.of c = .plain)
    (hinner : PassesInside inner) : Passes (name ++ '(' :: (inner ++ [')'])) :=
  (Passes.of_plain hname).append (.bracket rfl rfl hinner)

theorem isItem_dateLiteral (d : Date) : IsItem d.literal := by
  have hcall := passes_call "datetime.date".toList
    (Role.plain_of_all (by decide))
    (passesInside_argumentText [d.year, d.month, d.day])
  unfold Date.literal
  simp only [String.reduceToList, List.cons_append, List.nil_append] at hcall ⊢
  exact ⟨List.cons_ne_nil _ _, hcall⟩

theorem passesInside_part {name : List Char} (hname : ∀ c ∈ name, Role.of c = .plain) (n : Int) :
    ∀ text ∈ if n = 0 then [] else [name ++ integerText n], PassesInside text := by
  split_ifs
  · exact fun _ h => absurd h List.not_mem_nil
  · exact List.forall_mem_singleton.mpr
      ((Passes.of_plain hname).append (.of_plain fun _ => role_of_mem_integerText)).inside

theorem passes_zone {parts : List (List Char)} (h : ∀ text ∈ parts, PassesInside text) :
    Passes ("datetime.timezone(datetime.timedelta(".toList ++ commaSeparated parts ++
      [')', ')']) := by
  have hzone := passes_call "datetime.timezone".toList
    (Role.plain_of_all (by decide))
    (passes_call "datetime.timedelta".toList
      (Role.plain_of_all (by decide)) (passesInside_commaSeparated h)).inside
  simp only [String.reduceToList, List.cons_append, List.nil_append, List.append_assoc] at hzone ⊢
  exact hzone

theorem passes_offsetLiteral (o : Offset) : Passes o.literal := by
  unfold Offset.literal
  split_ifs
  · exact .of_plain (Role.plain_of_all (by decide))
  · refine passes_zone (List.forall_mem_append.mpr ⟨List.forall_mem_append.mpr ⟨?_, ?_⟩, ?_⟩) <;>
      exact passesInside_part (Role.plain_of_all (by decide)) _

theorem isItem_timeCall {arguments zone : List Char} (harguments : PassesInside arguments)
    (hzone : PassesInside zone) :
    IsItem ("datetime.datetime(".toList ++ arguments ++ zone ++ [')']) := by
  have hcall := passes_call "datetime.datetime".toList
    (Role.plain_of_all (by decide)) (harguments.append hzone)
  simp only [String.reduceToList, List.cons_append, List.nil_append, List.append_assoc] at hcall ⊢
  exact ⟨List.cons_ne_nil _ _, hcall⟩

theorem isItem_timeLiteral (t : DateTime) : IsItem t.literal := by
  unfold DateTime.literal
  refine isItem_timeCall (passesInside_argumentText _) ?_
  cases t.offset with
  | none => exact .nil
  | some o =>
    have hmark : PassesInside ", tzinfo=".toList := by
      simp only [String.reduceToList]
      exact .cons (.inl rfl) (Passes.of_plain (Role.plain_of_all (by decide))).inside
    exact hmark.append (passes_offsetLiteral o).inside

/-! ## Values -/

namespace Value

theorem literals_eq_map (vs : List Value) : literals vs = vs.map literal := by
  induction vs with
  | nil => rfl
  | cons v vs ih => rw [literals, ih, List.map_cons]

theorem role_of_mem_literal_null {c : Char} (h : c ∈ literal null) : Role.of c = .plain := by
  have hall : ∀ c ∈ ['N', 'o', 'n', 'e'], Role.of c = .plain := Role.plain_of_all (by decide)
  simp only [literal, String.reduceToList] at h
  exact hall c h

theorem role_of_mem_literal_bool {b : Bool} {c : Char} (h : c ∈ (bool b).literal) :
    Role.of c = .plain := by
  cases b with
  | false =>
    have hall : ∀ c ∈ ['F', 'a', 'l', 's', 'e'], Role.of c = .plain := Role.plain_of_all (by decide)
    rw [literal, if_neg Bool.false_ne_true] at h
    simp only [String.reduceToList] at h
    exact hall c h
  | true =>
    have hall : ∀ c ∈ ['T', 'r', 'u', 'e'], Role.of c = .plain := Role.plain_of_all (by decide)
    rw [literal, if_pos rfl] at h
    simp only [String.reduceToList] at h
    exact hall c h

/-- The literals of fields, apart. -/
def literalPairs (fields : Fields) : List (List Char × List Char) :=
  fields.map fun field => (field.1.literal, field.2.literal)

theorem fieldLiterals_eq_map (fields : Fields) :
    fieldLiterals fields = (literalPairs fields).map pairText := by
  induction fields with
  | nil => rfl
  | cons field fields ih =>
    rw [fieldLiterals, ih]
    rfl

theorem passes_list {items : List Value} (h : ∀ item ∈ items, IsItem item.literal) :
    PassesInside (commaSeparated (literals items)) := by
  rw [literals_eq_map]
  exact passesInside_commaSeparated (List.forall_mem_map.mpr fun v hv => (h v hv).passes.inside)

theorem passes_object {fields : Fields}
    (h : ∀ field ∈ fields, IsItem field.1.literal ∧ IsItem field.2.literal) :
    PassesInside (commaSeparated (fieldLiterals fields)) := by
  rw [fieldLiterals_eq_map]
  refine passesInside_commaSeparated (List.forall_mem_map.mpr ?_)
  exact List.forall_mem_map.mpr fun field hfield =>
    passesInside_pairText (h field hfield).1.passes (h field hfield).2.passes

mutual

/-- **A literal is one item of a list.** -/
theorem isItem_literal : ∀ v : Value, IsItem v.literal
  | .null => ⟨by simp [literal], .of_plain fun _ => role_of_mem_literal_null⟩
  | .bool b => ⟨by cases b <;> simp [literal], .of_plain fun _ => role_of_mem_literal_bool⟩
  | .int n => by
    rw [literal]
    exact ⟨integerText_ne_nil n, .of_plain fun _ => role_of_mem_integerText⟩
  | .float x => by
    rw [literal]
    exact ⟨text_ne_nil x, .of_plain fun _ => role_of_mem_text⟩
  | .str s => by
    rw [literal]
    exact ⟨List.cons_ne_nil _ _, passes_quoted _⟩
  | .list items => by
    rw [literal]
    exact ⟨List.cons_ne_nil _ _, .bracket rfl rfl (passes_list (isItem_literals items))⟩
  | .tuple [] => by
    simp only [literal]
    exact ⟨List.cons_ne_nil _ _, .bracket rfl rfl .nil⟩
  | .tuple [item] => by
    have hitem := (isItem_literal item).passes.inside.append (.cons (c := ',') (.inl rfl) .nil)
    have hbracket := Passes.bracket (show Role.of '(' = .opening from rfl)
      (show Role.of ')' = .closing from rfl) hitem
    rw [List.append_assoc] at hbracket
    simp only [literal]
    exact ⟨List.cons_ne_nil _ _, hbracket⟩
  | .tuple (first :: second :: items) => by
    simp only [literal]
    exact ⟨List.cons_ne_nil _ _, .bracket rfl rfl
      (passes_list (isItem_literals (first :: second :: items)))⟩
  | .set [] => by
    simp only [literal, String.reduceToList]
    exact ⟨List.cons_ne_nil _ _, passes_call ['s', 'e', 't'] (Role.plain_of_all (by decide)) .nil⟩
  | .set (member :: members) => by
    simp only [literal]
    exact ⟨List.cons_ne_nil _ _, .bracket rfl rfl
      (passes_list (isItem_literals (member :: members)))⟩
  | .bytes data => by
    rw [literal]
    exact ⟨List.cons_ne_nil _ _, passes_quotedBytes data⟩
  | .datetime t => by
    rw [literal]
    exact isItem_timeLiteral t
  | .date d => by
    rw [literal]
    exact isItem_dateLiteral d
  | .object fields => by
    rw [literal]
    exact ⟨List.cons_ne_nil _ _, .bracket rfl rfl (passes_object (isItem_fields fields))⟩

theorem isItem_literals : ∀ items : List Value, ∀ item ∈ items, IsItem item.literal
  | [] => fun _ h => absurd h List.not_mem_nil
  | item :: items => List.forall_mem_cons.mpr ⟨isItem_literal item, isItem_literals items⟩

theorem isItem_fields : ∀ fields : Fields,
    ∀ field ∈ fields, IsItem field.1.literal ∧ IsItem field.2.literal
  | [] => fun _ h => absurd h List.not_mem_nil
  | (k, v) :: fields => List.forall_mem_cons.mpr
    ⟨⟨isItem_literal k, isItem_literal v⟩, isItem_fields fields⟩

end

end Value

end SnapshotStore
