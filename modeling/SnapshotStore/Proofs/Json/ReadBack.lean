import SnapshotStore.Proofs.Json.Number
import SnapshotStore.Proofs.Value.Json

/-!
# What is written reads back

**Theorem (`reads_write`).** The text of a JSON value, in any layout that keeps the fields in their
order, reads as the value: the same numbers of the same kind, the same texts, the same order of
members and fields.

`Reads v text` says that a text reads as a value whatever follows it, as long as nothing that
follows could be taken into a number, and with any fuel greater than the length of the text. It
holds of scalars (`reads_str`, `reads_int`, `reads_float`) and passes from members to lists
(`reads_list`) and from fields to objects (`reads_object`); white space is passed over wherever the
layout puts it.
-/

namespace SnapshotStore.Json

/-! ## Texts -/

theorem hexPadded_four : ∀ n < 32, hexPadded 4 n =
    ['0', '0', Nat.digitChar (n / 16), Nat.digitChar (n % 16)] := by
  decide

theorem hexValue?_digitChar : ∀ n < 16, hexValue? (Nat.digitChar n) = some n := by decide

/-- The code of a control character reads back. -/
theorem codePoint_hexPadded {c : Char} (hc : c.toNat < 32) (cs : List Char) :
    codePoint (hexPadded 4 c.toNat ++ cs) = .ok (c, cs) := by
  have hcode : hexCode? (hexPadded 4 c.toNat ++ cs) = some (c.toNat, cs) := by
    have hzero : hexValue? '0' = some 0 := by decide
    rw [hexPadded_four _ hc]
    simp only [List.cons_append, List.nil_append, hexCode?, hzero,
      hexValue?_digitChar (c.toNat / 16) (by omega), hexValue?_digitChar (c.toNat % 16) (by omega),
      Option.bind_eq_bind, Option.bind_some, Option.some.injEq, Prod.mk.injEq, and_true]
    omega
  unfold codePoint hexCode
  rw [hcode, ok_bind]
  dsimp only
  rw [if_pos (by omega), Char.ofNat_toNat]

/-- A character as it stands inside quotes is read back, whatever follows. -/
theorem stringTail_escapedChar (fuel : Nat) (c : Char) (cs : List Char) :
    stringTail (fuel + 1) (escapedChar c ++ cs) =
      (stringTail fuel cs).map fun read => (c :: read.1, read.2) := by
  have hread (e : Char) (he : shortEscape? e = some c) (hu : e ≠ 'u') :
      stringTail (fuel + 1) (['\\', e] ++ cs) =
        (stringTail fuel cs).map fun read => (c :: read.1, read.2) := by
    rw [List.cons_append, List.cons_append, List.nil_append, stringTail, he]
    · cases stringTail fuel cs <;> rfl
    · exact hu
  unfold escapedChar
  split_ifs with hquote hbackslash hline hreturn htab hback hfeed hcontrol
  · exact hread _ (by rw [hquote]; rfl) (by decide)
  · exact hread _ (by rw [hbackslash]; rfl) (by decide)
  · exact hread _ (by rw [hline]; rfl) (by decide)
  · exact hread _ (by rw [hreturn]; rfl) (by decide)
  · exact hread _ (by rw [htab]; rfl) (by decide)
  · exact hread _ (by rw [← Char.ofNat_toNat c, hback]; rfl) (by decide)
  · exact hread _ (by rw [← Char.ofNat_toNat c, hfeed]; rfl) (by decide)
  · rw [List.cons_append, List.cons_append, stringTail, codePoint_hexPadded hcontrol,
      ok_bind]
    dsimp only
    cases stringTail fuel cs <;> rfl
  · rw [List.singleton_append, stringTail]
    · rw [if_neg (by simp only [hbackslash, false_or]; exact hcontrol)]
      cases stringTail fuel cs <;> rfl
    · exact hquote
    · exact fun _ h => absurd h hbackslash
    · exact fun _ _ h => absurd h hbackslash

theorem length_escapedChar_pos (c : Char) : 0 < (escapedChar c).length := by
  unfold escapedChar
  split_ifs <;> simp

/-- A text in quotes is read back up to its closing quote. -/
theorem stringTail_flatMap {fuel : Nat} (cs rest : List Char)
    (hfuel : (cs.flatMap escapedChar).length < fuel) :
    stringTail fuel (cs.flatMap escapedChar ++ '"' :: rest) = .ok (cs, rest) := by
  induction cs generalizing fuel with
  | nil =>
    cases fuel with
    | zero => simp at hfuel
    | succ fuel => rfl
  | cons c cs ih =>
    have hpos := length_escapedChar_pos c
    rw [List.flatMap_cons, List.length_append] at hfuel
    obtain ⟨fuel, rfl⟩ : ∃ n, fuel = n + 1 := ⟨fuel - 1, by omega⟩
    rw [List.flatMap_cons, List.append_assoc, stringTail_escapedChar, ih (by omega)]
    rfl

/-! ## White space -/

/-- The text starts with something other than white space. -/
def StartsDark (cs : List Char) : Prop := ∃ c rest, cs = c :: rest ∧ isWhitespace c = false

theorem skipSpace_of_dark {cs : List Char} (h : StartsDark cs) : skipSpace cs = cs := by
  obtain ⟨c, rest, rfl, hc⟩ := h
  exact List.dropWhile_cons_of_neg (by simp [hc])

theorem skipSpace_dark (c : Char) (hc : isWhitespace c = false) (rest : List Char) :
    skipSpace (c :: rest) = c :: rest := skipSpace_of_dark ⟨c, rest, rfl, hc⟩

theorem skipSpace_cons {c : Char} (h : isWhitespace c = true) (cs : List Char) :
    skipSpace (c :: cs) = skipSpace cs := List.dropWhile_cons_of_pos h

theorem skipSpace_newline (style : Style) (depth : Nat) (cs : List Char) :
    skipSpace (style.newline depth ++ cs) = skipSpace cs := by
  unfold Style.newline
  split
  · next width _ =>
    rw [List.cons_append, skipSpace_cons (by decide)]
    induction width * depth with
    | zero => rfl
    | succ n ih => rw [List.replicate_succ, List.cons_append, skipSpace_cons (by decide), ih]
  · rfl

/-- A separator is a comma and white space. -/
theorem separator_eq (style : Style) (depth : Nat) :
    ∃ space, style.separator depth = ',' :: space ∧
      ∀ cs, skipSpace (space ++ cs) = skipSpace cs := by
  unfold Style.separator
  split
  · exact ⟨_, rfl, skipSpace_newline style depth⟩
  · exact ⟨[' '], rfl, fun cs => skipSpace_cons (by decide) cs⟩

theorem endsNumber_newline (style : Style) (depth : Nat) {c : Char} {cs : List Char}
    (h : EndsNumber (c :: cs)) : EndsNumber (style.newline depth ++ c :: cs) := by
  unfold Style.newline
  split
  · intro d hd
    cases hd
    decide
  · exact h

/-! ## Reading what is written -/

/-- A text reads as a value, whatever follows that is no part of a number. -/
structure Reads (v : Value) (text : List Char) : Prop where
  /-- The text starts a value, and not the end of a list. -/
  starts : ∃ c rest, text = c :: rest ∧ isWhitespace c = false ∧ c ≠ ']'
  read : ∀ fuel rest, text.length < fuel → EndsNumber rest →
    readValue fuel (text ++ rest) = .ok (v, rest)

theorem Reads.skipSpace {v : Value} {text : List Char} (h : Reads v text) (cs : List Char) :
    Json.skipSpace (text ++ cs) = text ++ cs := by
  obtain ⟨c, rest, rfl, hc, -⟩ := h.starts
  exact skipSpace_of_dark ⟨c, rest ++ cs, rfl, hc⟩

theorem Reads.length_pos {v : Value} {text : List Char} (h : Reads v text) : 0 < text.length := by
  obtain ⟨c, rest, rfl, -⟩ := h.starts
  exact Nat.succ_pos _

/-- A text reads as a field. -/
def ReadsField (entry : String × Value) (text : List Char) : Prop :=
  ∃ value, text = stringText entry.1.toList ++ ':' :: ' ' :: value ∧ Reads entry.2 value

variable {style : Style} {depth depth' : Nat}

/-- What follows a member: the other members, each after a separator, and a closing bracket. -/
def Style.tail (style : Style) (depth depth' : Nat) (closing : Char) (texts : List (List Char)) :
    List Char :=
  texts.flatMap (style.separator depth ++ ·) ++ style.newline depth' ++ [closing]

theorem readItems_tail (style : Style) (depth depth' : Nat) {v : Value} {vs : List Value}
    {text : List Char} {texts : List (List Char)} (hv : Reads v text)
    (hvs : List.Forall₂ Reads vs texts) (rest : List Char) (fuel : Nat)
    (hfuel : (text ++ style.tail depth depth' ']' texts).length < fuel) :
    readItems fuel (text ++ (style.tail depth depth' ']' texts ++ rest)) = .ok (v :: vs, rest) := by
  induction hvs generalizing v text fuel with
  | nil =>
    obtain ⟨fuel, rfl⟩ : ∃ n, fuel = n + 1 := ⟨fuel - 1, by omega⟩
    have htail : style.tail depth depth' ']' [] ++ rest = style.newline depth' ++ ']' :: rest := by
      simp [Style.tail]
    have hends : EndsNumber (style.newline depth' ++ ']' :: rest) :=
      endsNumber_newline style depth' (by intro c hc; cases hc; decide)
    have hskip : skipSpace (style.newline depth' ++ ']' :: rest) = ']' :: rest := by
      rw [skipSpace_newline, skipSpace_of_dark ⟨']', rest, rfl, by decide⟩]
    simp only [List.length_append, Style.tail, List.length_cons, List.length_nil] at hfuel
    rw [htail, readItems, hv.read fuel _ (by omega) hends]
    simp only [bind, Except.bind, hskip]
  | @cons w t ws ts hw hws ih =>
    obtain ⟨fuel, rfl⟩ : ∃ n, fuel = n + 1 := ⟨fuel - 1, by omega⟩
    obtain ⟨space, hsep, hspace⟩ := separator_eq style depth
    have htail : style.tail depth depth' ']' (t :: ts) =
        ',' :: (space ++ (t ++ style.tail depth depth' ']' ts)) := by
      simp [Style.tail, hsep]
    have hpos := hv.length_pos
    rw [htail, List.length_append, List.length_cons, List.length_append] at hfuel
    have hrest := ih hw fuel (by omega)
    rw [htail, List.cons_append, readItems, hv.read fuel _ (by omega)
      (by intro c hc; cases hc; decide)]
    simp only [bind, Except.bind, skipSpace_dark ',' (by decide)]
    simp only [List.append_assoc, hspace, hw.skipSpace, hrest]

theorem readFields_tail (style : Style) (depth depth' : Nat) {entry : String × Value}
    {entries : List (String × Value)} {text : List Char} {texts : List (List Char)}
    (hv : ReadsField entry text) (hvs : List.Forall₂ ReadsField entries texts)
    (rest : List Char) (fuel : Nat)
    (hfuel : (text ++ style.tail depth depth' '}' texts).length < fuel) :
    readFields fuel (text ++ (style.tail depth depth' '}' texts ++ rest)) =
      .ok (Fields.ofEntries (entry :: entries), rest) := by
  induction hvs generalizing entry text fuel with
  | nil =>
    obtain ⟨fuel, rfl⟩ : ∃ n, fuel = n + 1 := ⟨fuel - 1, by omega⟩
    obtain ⟨value, rfl, hvalue⟩ := hv
    have htail : style.tail depth depth' '}' [] ++ rest = style.newline depth' ++ '}' :: rest := by
      simp [Style.tail]
    have hends : EndsNumber (style.newline depth' ++ '}' :: rest) :=
      endsNumber_newline style depth' (by intro c hc; cases hc; decide)
    have hskip : skipSpace (style.newline depth' ++ '}' :: rest) = '}' :: rest := by
      rw [skipSpace_newline, skipSpace_of_dark ⟨'}', rest, rfl, by decide⟩]
    simp only [List.length_append, List.length_cons, stringText, Style.tail] at hfuel
    rw [htail]
    simp only [stringText, List.cons_append, List.append_assoc, List.nil_append, readFields]
    rw [stringTail_flatMap _ _ (by omega), ok_bind]
    simp only [skipSpace_dark ':' (by decide)]
    rw [skipSpace_cons (c := ' ') (by decide), hvalue.skipSpace,
      hvalue.read fuel _ (by omega) hends]
    simp only [bind, Except.bind, hskip, String.ofList_toList]
    rfl
  | @cons entry' t entries ts hw hws ih =>
    obtain ⟨fuel, rfl⟩ : ∃ n, fuel = n + 1 := ⟨fuel - 1, by omega⟩
    obtain ⟨value, rfl, hvalue⟩ := hv
    obtain ⟨space, hsep, hspace⟩ := separator_eq style depth
    have htail : style.tail depth depth' '}' (t :: ts) =
        ',' :: (space ++ (t ++ style.tail depth depth' '}' ts)) := by
      simp [Style.tail, hsep]
    have hdark (cs : List Char) : skipSpace (t ++ cs) = t ++ cs := by
      obtain ⟨_, rfl, -⟩ := hw
      exact skipSpace_of_dark ⟨'"', _, rfl, by decide⟩
    rw [htail] at hfuel ⊢
    simp only [List.length_append, List.length_cons, stringText] at hfuel
    have hrest := ih hw fuel (by rw [List.length_append]; omega)
    simp only [stringText, List.cons_append, List.append_assoc, List.nil_append, readFields]
    rw [stringTail_flatMap _ _ (by omega), ok_bind]
    simp only [skipSpace_dark ':' (by decide)]
    rw [skipSpace_cons (c := ' ') (by decide), hvalue.skipSpace, hvalue.read fuel _ (by omega)
      (by intro c hc; cases hc; decide)]
    simp only [bind, Except.bind, skipSpace_dark ',' (by decide)]
    simp only [hspace, hdark, hrest, String.ofList_toList]
    rfl

/-! ## Containers -/

theorem bracket_cons (opening closing : Char) (text : List Char) (texts : List (List Char)) :
    style.bracket depth opening closing (text :: texts) =
      opening :: (style.newline (depth + 1) ++ (text ++ style.tail (depth + 1) depth closing texts))
    := by
  simp [Style.bracket, Style.tail]

theorem reads_list {vs : List Value} {texts : List (List Char)}
    (h : List.Forall₂ Reads vs texts) : Reads (.list vs) (style.bracket depth '[' ']' texts) := by
  cases h with
  | nil =>
    refine ⟨⟨'[', [']'], rfl, by decide, by decide⟩, fun fuel rest hfuel _ => ?_⟩
    obtain ⟨fuel, rfl⟩ : ∃ n, fuel = n + 1 := ⟨fuel - 1, by omega⟩
    rfl
  | @cons v text vs texts hv hvs =>
    rw [bracket_cons]
    refine ⟨⟨'[', _, rfl, by decide, by decide⟩, fun fuel rest hfuel _ => ?_⟩
    obtain ⟨fuel, rfl⟩ : ∃ n, fuel = n + 1 := ⟨fuel - 1, by omega⟩
    rw [List.length_cons, List.length_append] at hfuel
    have hread := readItems_tail style (depth + 1) depth hv hvs rest fuel (by omega)
    obtain ⟨c, cs, rfl, hc, hne⟩ := hv.starts
    simp only [List.cons_append, List.append_assoc, readValue] at hread ⊢
    rw [skipSpace_newline, skipSpace_of_dark ⟨c, _, rfl, hc⟩]
    split
    · next heq => exact absurd (List.cons_eq_cons.mp heq).1 hne
    · rw [hread]
      rfl

/-- Fields read as an object; of several with one key the last gives the value. -/
theorem reads_pairs {entries : List (String × Value)} {texts : List (List Char)}
    (h : List.Forall₂ ReadsField entries texts) :
    Reads (.object (Fields.ofPairs (Fields.ofEntries entries)))
      (style.bracket depth '{' '}' texts) := by
  cases h with
  | nil =>
    refine ⟨⟨'{', ['}'], rfl, by decide, by decide⟩, fun fuel rest hfuel _ => ?_⟩
    obtain ⟨fuel, rfl⟩ : ∃ n, fuel = n + 1 := ⟨fuel - 1, by omega⟩
    rfl
  | @cons entry text entries texts hv hvs =>
    rw [bracket_cons]
    refine ⟨⟨'{', _, rfl, by decide, by decide⟩, fun fuel rest hfuel _ => ?_⟩
    obtain ⟨fuel, rfl⟩ : ∃ n, fuel = n + 1 := ⟨fuel - 1, by omega⟩
    rw [List.length_cons, List.length_append] at hfuel
    have hread := readFields_tail style (depth + 1) depth hv hvs rest fuel (by omega)
    obtain ⟨value, rfl, -⟩ := hv
    simp only [stringText, List.cons_append, List.append_assoc, readValue] at hread ⊢
    rw [skipSpace_newline, skipSpace_of_dark ⟨'"', _, rfl, by decide⟩]
    split
    · next heq => exact absurd (List.cons_eq_cons.mp heq).1 (by decide)
    · rw [hread]
      rfl

theorem reads_object {entries : List (String × Value)} {texts : List (List Char)}
    (hkeys : (entries.map (·.1)).Nodup) (h : List.Forall₂ ReadsField entries texts) :
    Reads (.object (Fields.ofEntries entries)) (style.bracket depth '{' '}' texts) := by
  have hreads : Reads _ (style.bracket depth '{' '}' texts) := reads_pairs h
  rwa [Fields.ofPairs_ofEntries hkeys] at hreads

/-! ## Scalars -/

theorem reads_word {word : List Char} {v : Value} (hstarts : ∃ c rest, word = c :: rest ∧
    isWhitespace c = false ∧ c ≠ ']')
    (hread : ∀ fuel rest, readValue (fuel + 1) (word ++ rest) = .ok (v, rest)) : Reads v word := by
  refine ⟨hstarts, fun fuel rest hfuel _ => ?_⟩
  obtain ⟨fuel, rfl⟩ : ∃ n, fuel = n + 1 := ⟨fuel - 1, by omega⟩
  exact hread fuel rest

theorem reads_null : Reads .null "null".toList :=
  reads_word ⟨'n', _, rfl, by decide, by decide⟩ fun _ _ => rfl

theorem reads_bool (b : Bool) : Reads (.bool b) (boolText b) := by
  cases b
  · exact reads_word ⟨'f', _, rfl, by decide, by decide⟩ fun _ _ => rfl
  · exact reads_word ⟨'t', _, rfl, by decide, by decide⟩ fun _ _ => rfl

theorem reads_infinite (negative : Bool) : Reads (.float (.infinite negative))
    (if negative then "-Infinity".toList else "Infinity".toList) := by
  cases negative
  · exact reads_word ⟨'I', _, rfl, by decide, by decide⟩ fun _ _ => rfl
  · exact reads_word ⟨'-', _, rfl, by decide, by decide⟩ fun _ _ => rfl

theorem reads_str (s : String) : Reads (.str s) (stringText s.toList) := by
  refine ⟨⟨'"', _, rfl, by decide, by decide⟩, fun fuel rest hfuel _ => ?_⟩
  obtain ⟨fuel, rfl⟩ : ∃ n, fuel = n + 1 := ⟨fuel - 1, by omega⟩
  simp only [stringText, List.length_cons, List.length_append] at hfuel
  simp only [stringText, List.cons_append, List.append_assoc, List.nil_append, readValue]
  rw [stringTail_flatMap _ _ (by omega), ok_bind]
  simp only [String.ofList_toList]

theorem stripWord_of_ne {w c : Char} (h : w ≠ c) (word cs : List Char) :
    stripWord? (w :: word) (c :: cs) = none := if_neg h

theorem ne_of_isDigit {c d : Char} (hd : d.isDigit = true) (hc : c.isDigit = false) : c ≠ d := by
  rintro rfl
  rw [hc] at hd
  exact Bool.noConfusion hd

/-- What starts with a digit is read as a number. -/
theorem scalar_digit {c : Char} {cs : List Char} (h : c.isDigit = true) :
    scalar (c :: cs) = number false (c :: cs) := by
  have hne (w : Char) (hw : w.isDigit = false) (word : List Char) :
      stripWord? (w :: word) (c :: cs) = none := stripWord_of_ne (ne_of_isDigit h hw) word cs
  unfold scalar
  simp only [words, String.reduceToList, List.findSome?_cons, List.findSome?_nil, Option.map_none,
    hne _ (by decide : 'n'.isDigit = false), hne _ (by decide : 't'.isDigit = false),
    hne _ (by decide : 'f'.isDigit = false), hne _ (by decide : 'N'.isDigit = false),
    hne _ (by decide : 'I'.isDigit = false), hne _ (by decide : '-'.isDigit = false)]
  split
  · next heq => exact absurd (List.cons_eq_cons.mp heq).1.symm (ne_of_isDigit h (by decide))
  · rfl

theorem scalar_minus {c : Char} {cs : List Char} (h : c.isDigit = true) :
    scalar ('-' :: c :: cs) = number true (c :: cs) := by
  have hI : stripWord? "-Infinity".toList ('-' :: c :: cs) = none :=
    stripWord_of_ne (ne_of_isDigit h (by decide)) _ _
  have hne (w : Char) (hw : w ≠ '-') (word : List Char) :
      stripWord? (w :: word) ('-' :: c :: cs) = none := stripWord_of_ne hw word _
  simp only [String.reduceToList] at hI
  unfold scalar
  simp only [words, String.reduceToList, List.findSome?_cons, List.findSome?_nil, Option.map_none,
    hI, hne _ (by decide : 'n' ≠ '-'), hne _ (by decide : 't' ≠ '-'),
    hne _ (by decide : 'f' ≠ '-'), hne _ (by decide : 'N' ≠ '-'), hne _ (by decide : 'I' ≠ '-')]

/-- A number with or without a minus sign. -/
theorem reads_number {v : Value} (negative : Bool) {text : List Char}
    (hdigit : ∃ c cs, text = c :: cs ∧ c.isDigit = true)
    (hread : ∀ rest, EndsNumber rest → number negative (text ++ rest) = .ok (v, rest)) :
    Reads v (if negative then '-' :: text else text) := by
  obtain ⟨c, cs, rfl, hc⟩ := hdigit
  have hspace : isWhitespace c = false := by
    simp only [isWhitespace, Bool.or_eq_false_iff, beq_eq_false_iff_ne]
    refine ⟨⟨⟨?_, ?_⟩, ?_⟩, ?_⟩ <;> exact (ne_of_isDigit hc (by decide)).symm
  cases negative
  · refine ⟨⟨c, cs, rfl, hspace, (ne_of_isDigit hc (by decide)).symm⟩,
      fun fuel rest hfuel hrest => ?_⟩
    obtain ⟨fuel, rfl⟩ : ∃ n, fuel = n + 1 := ⟨fuel - 1, by omega⟩
    have h := hread rest hrest
    rw [List.cons_append, ← scalar_digit hc] at h
    simp only [Bool.false_eq_true, if_false, List.cons_append, readValue]
    split
    · next heq => exact absurd (List.cons_eq_cons.mp heq).1.symm (ne_of_isDigit hc (by decide))
    · next heq => exact absurd (List.cons_eq_cons.mp heq).1.symm (ne_of_isDigit hc (by decide))
    · next heq => exact absurd (List.cons_eq_cons.mp heq).1.symm (ne_of_isDigit hc (by decide))
    · exact h
  · refine ⟨⟨'-', c :: cs, rfl, by decide, by decide⟩, fun fuel rest hfuel hrest => ?_⟩
    obtain ⟨fuel, rfl⟩ : ∃ n, fuel = n + 1 := ⟨fuel - 1, by omega⟩
    have h := hread rest hrest
    rw [List.cons_append, ← scalar_minus hc] at h
    exact h

theorem head_digitsOf (n : Nat) : ∃ c cs, digitsOf n = c :: cs ∧ c.isDigit = true := by
  obtain ⟨c, cs, h⟩ := List.exists_cons_of_ne_nil (digitsOf_ne_nil n)
  exact ⟨c, cs, h, isDigit_of_mem_digitsOf (by rw [h]; exact List.mem_cons_self ..)⟩

theorem integerBound_eq : integerBound = 10 ^ maxIntegerDigits := Nat.pow_eq

theorem length_digitsOf_le {n : Nat} (h : n < integerBound) :
    (digitsOf n).length ≤ maxIntegerDigits := by
  rw [integerBound_eq] at h
  exact (Nat.length_toDigits_le_iff (by decide) (by decide)).mpr h

/-- An integer that has a text is read back. -/
theorem reads_int {n : Int} {text : List Char} (h : integer n = .ok text) :
    Reads (.int n) text := by
  unfold integer at h
  split_ifs at h with hsize
  obtain rfl : integerText n = text := Except.ok.inj h
  cases n with
  | ofNat n =>
    have hsize' : n < integerBound := hsize
    refine reads_number false (head_digitsOf n) fun rest hrest => ?_
    rw [number_integer false (isWhole_digitsOf n) (length_digitsOf_le hsize') hrest,
      natOfDigits_digitsOf]
    rfl
  | negSucc n =>
    have hsize' : n + 1 < integerBound := hsize
    refine reads_number true (head_digitsOf (n + 1)) fun rest hrest => ?_
    rw [number_integer true (isWhole_digitsOf (n + 1)) (length_digitsOf_le hsize') hrest,
      natOfDigits_digitsOf]
    rfl

/-- A floating-point number that has a text is read back, unless it is undefined. -/
theorem reads_float {x : Binary64} (hx : x.isNaN = false) {text : List Char}
    (h : float style x = .ok text) : Reads (.float x) text := by
  cases x with
  | nan tag => simp [Binary64.isNaN] at hx
  | infinite negative =>
    simp only [float] at h
    split_ifs at h with hfinite hneg <;> cases h
    · subst hneg
      exact reads_infinite true
    · have hread := reads_infinite negative
      rwa [if_neg hneg] at hread
  | finite x =>
    obtain rfl : (Binary64.finite x).text = text := Except.ok.inj h
    exact reads_number _ (head_sizeText x) fun rest hrest => number_sizeText x hrest

/-! ## Values -/

theorem writeItems_eq_ok {vs : List Value} {texts : List (List Char)}
    (h : writeItems style depth vs = .ok texts) :
    List.Forall₂ (fun v text => write style (depth + 1) v = .ok text) vs texts := by
  induction vs generalizing texts with
  | nil =>
    cases h
    exact .nil
  | cons v vs ih =>
    obtain ⟨text, hv, h⟩ := bind_eq_ok.mp h
    obtain ⟨texts, hvs, h⟩ := bind_eq_ok.mp h
    cases h
    exact .cons hv (ih hvs)

/-- The fields of an object with texts as keys, written one by one. -/
theorem mapM_writeFields_eq_ok {entries : List (String × Value)} {texts : List (List Char)}
    (h : (writeFields style depth (Fields.ofEntries entries)).mapM (·.2) = .ok texts) :
    List.Forall₂ (fun entry text => ∃ value,
      text = stringText entry.1.toList ++ ':' :: ' ' :: value ∧
        write style (depth + 1) entry.2 = .ok value) entries texts := by
  induction entries generalizing texts with
  | nil =>
    cases h
    exact .nil
  | cons entry entries ih =>
    obtain ⟨key, v⟩ := entry
    rw [Fields.ofEntries_cons, writeFields, List.mapM_cons] at h
    obtain ⟨text, htext, h⟩ := bind_eq_ok.mp h
    obtain ⟨texts, htexts, h⟩ := bind_eq_ok.mp h
    obtain ⟨key', hkey, htext⟩ := bind_eq_ok.mp htext
    obtain ⟨value, hvalue, htext⟩ := bind_eq_ok.mp htext
    cases hkey
    cases htext
    cases h
    exact .cons ⟨value, rfl, hvalue⟩ (ih htexts)

/-- **What is written reads back.** The text of a JSON value, in any layout that keeps the fields in
their order, reads as the value. -/
theorem reads_write (hstyle : style.sorted = false) (v : Value)
    (hv : v.isJson Number.isDefined = true) :
    ∀ depth text, write style depth v = .ok text → Reads v text := by
  induction v, hv using Value.isJson_induction with
  | null =>
    intro depth text h
    cases h
    exact reads_null
  | bool b =>
    intro depth text h
    cases h
    exact reads_bool b
  | int n hn =>
    intro depth text h
    exact reads_int h
  | float x hx =>
    intro depth text h
    exact reads_float (by simpa [Number.isDefined] using hx) h
  | str s =>
    intro depth text h
    cases h
    exact reads_str s
  | list items _ ih =>
    intro depth text h
    obtain ⟨texts, htexts, h⟩ := bind_eq_ok.mp h
    cases h
    exact reads_list (((List.forall₂_and_left _ _).mpr ⟨ih, writeItems_eq_ok htexts⟩).imp
      fun _ text h => h.1 _ text h.2)
  | object entries hkeys _ ih =>
    intro depth text h
    simp only [write, hstyle, Bool.false_eq_true, if_false] at h
    obtain ⟨parts, hparts, h⟩ := bind_eq_ok.mp h
    cases hparts
    obtain ⟨texts, htexts, h⟩ := bind_eq_ok.mp h
    cases h
    refine reads_object hkeys (((List.forall₂_and_left _ _).mpr
      ⟨ih, mapM_writeFields_eq_ok htexts⟩).imp fun entry text h => ?_)
    obtain ⟨hentry, value, htext, hvalue⟩ := h
    exact ⟨value, htext, hentry _ value hvalue⟩

/-- A text that reads as a value is read as a whole. -/
theorem Reads.read_eq {v : Value} {text : List Char} (h : Reads v text) :
    Json.read text = .ok v := by
  have hread := h.read (text.length + 1) [] (Nat.lt_succ_self _) (by intro c hc; cases hc)
  have hskip := h.skipSpace []
  rw [List.append_nil] at hread hskip
  simp only [Json.read, hskip, hread, bind, Except.bind]
  rfl

/-- A whole text is read back. -/
theorem read_write (hstyle : style.sorted = false) {v : Value}
    (hv : v.isJson Number.isDefined = true) {text : List Char}
    (h : write style depth v = .ok text) : read text = .ok v :=
  (reads_write hstyle v hv depth text h).read_eq

theorem parse_render (hstyle : style.sorted = false) {v : Value}
    (hv : v.isJson Number.isDefined = true) {text : String} (h : render style v = .ok text) :
    parse text = .ok v := by
  obtain ⟨cs, hcs, h⟩ := bind_eq_ok.mp h
  cases h
  rw [parse, String.toList_ofList]
  exact read_write hstyle hv hcs

end SnapshotStore.Json
