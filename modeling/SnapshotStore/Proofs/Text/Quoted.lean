import SnapshotStore.Proofs.Json.ReadBack
import SnapshotStore.Proofs.Text.Items

/-!
# Quoted texts are unambiguous

**Theorem (`quoted_inj`).** Two texts that are quoted the same are the same, whatever quotes,
backslashes and control characters are in them.

The quote in use is seen at the start. What is between the quotes reads back one character after the
other (`unquotedChar?_quotedChar`): a backslash tells how many characters belong together, since an
escape has a letter of its own for each width, and neither quote is one of these letters.
-/

namespace SnapshotStore

/-! ## Hexadecimal digits -/

/-- The number that hexadecimal digits spell. -/
def hexNumber (digits : List Char) : Nat :=
  digits.foldl (fun n c => 16 * n + (Json.hexValue? c).getD 0) 0

theorem hexNumber_concat (digits : List Char) (c : Char) :
    hexNumber (digits ++ [c]) = 16 * hexNumber digits + (Json.hexValue? c).getD 0 := by
  rw [hexNumber, List.foldl_append]
  rfl

theorem hexNumber_toDigits (n : Nat) : hexNumber (Nat.toDigits 16 n) = n := by
  induction n using Nat.strongRecOn with
  | ind n ih =>
    by_cases hn : n < 16
    · rw [Nat.toDigits_of_lt_base hn, ← List.nil_append [n.digitChar], hexNumber_concat,
        Json.hexValue?_digitChar n hn, Option.getD_some]
      exact Nat.zero_add n
    · have hlast : n % 16 < 16 := Nat.mod_lt n (by decide)
      rw [Nat.toDigits_of_base_le (by decide) (Nat.le_of_not_lt hn), hexNumber_concat,
        ih (n / 16) (Nat.div_lt_self (by omega) (by decide)), Json.hexValue?_digitChar _ hlast,
        Option.getD_some, Nat.div_add_mod]

/-- Zeros at the start do not count. -/
theorem hexNumber_hexPadded (width n : Nat) : hexNumber (hexPadded width n) = n := by
  have hzeros (count : Nat) (digits : List Char) :
      hexNumber (List.replicate count '0' ++ digits) = hexNumber digits := by
    induction count with
    | zero => rfl
    | succ count ih => exact ih
  rw [hexPadded, hzeros, hexNumber_toDigits]

theorem length_hexPadded {width n : Nat} (hwidth : 0 < width) (hn : n < 16 ^ width) :
    (hexPadded width n).length = width := by
  have hlength := (Nat.length_toDigits_le_iff (by decide) hwidth).mpr hn
  rw [hexPadded, List.length_append, List.length_replicate]
  omega

/-! ## Reading -/

/-- The character of a code of so many hexadecimal digits, with what follows it. -/
def codeOf (width : Nat) (cs : List Char) : Char × List Char :=
  (Char.ofNat (hexNumber (cs.take width)), cs.drop width)

/-- The character that is written behind a backslash, with what follows it. -/
def unescapedChar? : List Char → Option (Char × List Char)
  | 'n' :: cs => some ('\n', cs)
  | 'r' :: cs => some ('\r', cs)
  | 't' :: cs => some ('\t', cs)
  | 'x' :: cs => some (codeOf 2 cs)
  | 'u' :: cs => some (codeOf 4 cs)
  | 'U' :: cs => some (codeOf 8 cs)
  | c :: cs => some (c, cs)
  | [] => none

/-- The first character of what is between quotes, with what follows it. -/
def unquotedChar? : List Char → Option (Char × List Char)
  | '\\' :: cs => unescapedChar? cs
  | c :: cs => some (c, cs)
  | [] => none

theorem codeOf_hexPadded {width : Nat} (hwidth : 0 < width) {c : Char} (hc : c.toNat < 16 ^ width)
    (rest : List Char) : codeOf width (hexPadded width c.toNat ++ rest) = (c, rest) := by
  have hlength := length_hexPadded hwidth hc
  rw [codeOf, List.take_left' hlength, List.drop_left' hlength, hexNumber_hexPadded,
    Char.ofNat_toNat]

theorem unquotedChar?_escapedCode (c : Char) (rest : List Char) :
    unquotedChar? (escapedCode c.toNat ++ rest) = some (c, rest) := by
  unfold escapedCode
  split_ifs with htwo hfour
  · exact congrArg some (codeOf_hexPadded (by decide) htwo rest)
  · exact congrArg some (codeOf_hexPadded (by decide) hfour rest)
  · exact congrArg some (codeOf_hexPadded (by decide) c.val.toNat_lt rest)

theorem eq_of_role_quote {c : Char} (h : Role.of c = .quote) : c = '\'' ∨ c = '"' := by
  unfold Role.of at h
  split_ifs at h with hc
  exact hc

/-- **A character between quotes reads back,** whatever follows it. -/
theorem unquotedChar?_quotedChar {quote : Char} (hquote : Role.of quote = .quote) (c : Char)
    (rest : List Char) : unquotedChar? (quotedChar quote c ++ rest) = some (c, rest) := by
  unfold quotedChar
  split_ifs with hescape hline hreturn htab
  · have hc : c = '\'' ∨ c = '"' ∨ c = '\\' := by
      rcases hescape with rfl | rfl
      · exact or_assoc.mp (.inl (eq_of_role_quote hquote))
      · exact .inr (.inr rfl)
    rcases hc with rfl | rfl | rfl <;> rfl
  · rw [hline]
    rfl
  · rw [hreturn]
    rfl
  · rw [htab]
    rfl
  · rw [List.cons_append, List.nil_append, unquotedChar?]
    exact fun h => hescape (.inr h)
  · exact unquotedChar?_escapedCode c rest

theorem quotedChar_ne_nil (quote c : Char) : quotedChar quote c ≠ [] := by
  unfold quotedChar escapedCode
  split_ifs <;> exact List.cons_ne_nil _ _

/-- What is between two quotes is read one character after the other. -/
theorem flatMap_quotedChar_inj {quote : Char} (hquote : Role.of quote = .quote)
    {cs ds : List Char} (h : cs.flatMap (quotedChar quote) = ds.flatMap (quotedChar quote)) :
    cs = ds := by
  induction cs generalizing ds with
  | nil =>
    cases ds with
    | nil => rfl
    | cons d ds => exact absurd (List.append_eq_nil_iff.mp h.symm).1 (quotedChar_ne_nil quote d)
  | cons c cs ih =>
    cases ds with
    | nil => exact absurd (List.append_eq_nil_iff.mp h).1 (quotedChar_ne_nil quote c)
    | cons d ds =>
      have hread := congrArg unquotedChar? h
      rw [List.flatMap_cons, List.flatMap_cons, unquotedChar?_quotedChar hquote,
        unquotedChar?_quotedChar hquote] at hread
      obtain ⟨rfl, hrest⟩ := Prod.mk.inj (Option.some.inj hread)
      rw [ih hrest]

/-- **Texts that are quoted the same are the same.** -/
theorem quoted_inj {cs ds : List Char} (h : quoted cs = quoted ds) : cs = ds := by
  obtain ⟨hquote, hrest⟩ := List.cons.inj h
  rw [← hquote] at hrest
  exact flatMap_quotedChar_inj (role_quoteFor cs) (List.append_cancel_right hrest)

end SnapshotStore
