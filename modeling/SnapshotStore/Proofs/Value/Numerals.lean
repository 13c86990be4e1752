import SnapshotStore.Proofs.Pipeline.Key
import SnapshotStore.Proofs.Value.Literal

/-!
# The texts of numbers

**Theorem (`numberOfText_literal`).** The text of a number reads back as the number, an integer of
any size as an integer. So two numbers with the same text are the same (`literal_toValue_inj`).

A text is a sign and a size. The size of a finite floating-point number reads back with the sign
(`Json.number_sizeText`); of an integer it is digits alone, which never read as a floating-point
number.
-/

namespace SnapshotStore

/-! ## Signs and sizes -/

/-- A size, with a sign before it if the number is negative. -/
def signed (negative : Bool) (size : List Char) : List Char :=
  if negative then '-' :: size else size

theorem integerText_eq_signed (n : Int) :
    integerText n = signed (decide (n < 0)) (digitsOf n.natAbs) := by
  cases n with
  | ofNat n => rfl
  | negSucc n =>
    rw [decide_eq_true (Int.negSucc_lt_zero n)]
    rfl

theorem text_finite (x : Binary64.Finite) :
    (Binary64.finite x).text = signed x.negative x.sizeText := rfl

theorem ne_of_isDigit {c d : Char} (hc : c.isDigit = true) (hd : d.isDigit = false) : c ≠ d := by
  rintro rfl
  rw [hc] at hd
  cases hd

theorem exists_digitsOf (n : Nat) : ∃ c cs, digitsOf n = c :: cs ∧ c.isDigit = true := by
  obtain ⟨c, cs, hcs⟩ := List.exists_cons_of_ne_nil (digitsOf_ne_nil n)
  exact ⟨c, cs, hcs, isDigit_of_mem_digitsOf (hcs ▸ List.mem_cons_self ..)⟩

/-- The text starts with a sign or a digit. -/
def StartsNumeral (text : List Char) : Prop := ∃ c ∈ text.head?, c = '-' ∨ c.isDigit = true

theorem startsNumeral_signed (negative : Bool) {c : Char} {cs : List Char}
    (hc : c.isDigit = true) : StartsNumeral (signed negative (c :: cs)) := by
  cases negative with
  | true => exact ⟨'-', rfl, .inl rfl⟩
  | false => exact ⟨c, rfl, .inr hc⟩

theorem startsNumeral_integerText (n : Int) : StartsNumeral (integerText n) := by
  obtain ⟨c, cs, hcs, hc⟩ := exists_digitsOf n.natAbs
  rw [integerText_eq_signed, hcs]
  exact startsNumeral_signed _ hc

theorem startsNumeral_finite (x : Binary64.Finite) : StartsNumeral (Binary64.finite x).text := by
  obtain ⟨c, cs, hcs, hc⟩ := Json.head_sizeText x
  rw [text_finite, hcs]
  exact startsNumeral_signed _ hc

/-- Digits never read as a floating-point number. -/
theorem number_digitsOf_ne_float (negative : Bool) (n : Nat) (x : Binary64) (rest : List Char) :
    Json.number negative (digitsOf n) ≠ .ok (.float x, rest) := by
  have hends : Json.NoDigit [] := nofun
  have hread := Json.number_eq negative (Json.isWhole_digitsOf n) hends
  rw [List.append_nil] at hread
  rw [hread]
  dsimp only [Json.fraction, Json.exponent?]
  split_ifs <;> exact nofun

/-! ## Reading -/

/-- The number of a sign and a size. -/
def numberOfSize (negative : Bool) (size : List Char) : Number :=
  if size = ['i', 'n', 'f'] then .float (.infinite negative)
  else if size = ['n', 'a', 'n'] then .float (.nan 0)
  else match Json.number negative size with
    | .ok (.float x, _) => .float x
    | _ => .int (if negative then -(natOfDigits size : Int) else natOfDigits size)

/-- The number of a text. -/
def numberOfText : List Char → Number
  | '-' :: size => numberOfSize true size
  | size => numberOfSize false size

theorem numberOfText_signed (negative : Bool) {c : Char} {cs : List Char} (hc : c ≠ '-') :
    numberOfText (signed negative (c :: cs)) = numberOfSize negative (c :: cs) := by
  cases negative with
  | true => rfl
  | false =>
    unfold signed numberOfText
    split
    · next heq => exact absurd (List.cons.inj heq).1 hc
    · rfl

/-- A size that starts with a digit is that of a finite number or of an integer. -/
theorem numberOfSize_of_digit (negative : Bool) {c : Char} {cs : List Char}
    (hc : c.isDigit = true) :
    numberOfSize negative (c :: cs) = match Json.number negative (c :: cs) with
      | .ok (.float x, _) => .float x
      | _ => .int (if negative then -(natOfDigits (c :: cs) : Int) else natOfDigits (c :: cs)) := by
  have hne {d : Char} {ds : List Char} (hd : d.isDigit = false) : c :: cs ≠ d :: ds :=
    fun h => ne_of_isDigit hc hd (List.cons.inj h).1
  rw [numberOfSize, if_neg (hne (by decide)), if_neg (hne (by decide))]

theorem numberOfText_integerText (n : Int) : numberOfText (integerText n) = .int n := by
  obtain ⟨c, cs, hcs, hc⟩ := exists_digitsOf n.natAbs
  rw [integerText_eq_signed, hcs, numberOfText_signed _ (ne_of_isDigit hc rfl),
    numberOfSize_of_digit _ hc, ← hcs]
  split
  · next x rest hread => exact absurd hread (number_digitsOf_ne_float _ _ x rest)
  · rw [natOfDigits_digitsOf]
    congr 1
    simp only [decide_eq_true_eq]
    omega

theorem numberOfText_finite (x : Binary64.Finite) :
    numberOfText (Binary64.finite x).text = .float (.finite x) := by
  obtain ⟨c, cs, hcs, hc⟩ := Json.head_sizeText x
  have hends : Json.EndsNumber [] := nofun
  have hread := Json.number_sizeText x hends
  rw [List.append_nil, hcs] at hread
  rw [text_finite, hcs, numberOfText_signed _ (ne_of_isDigit hc rfl), numberOfSize_of_digit _ hc,
    hread]

/-- **The text of a number reads back as the number.** -/
theorem numberOfText_literal {n : Number} (h : n.isDefined = true) :
    numberOfText n.toValue.literal = n := by
  cases n with
  | int n =>
    rw [Number.toValue, Value.literal]
    exact numberOfText_integerText n
  | float x =>
    rw [Number.toValue, Value.literal]
    cases x with
    | finite x => exact numberOfText_finite x
    | infinite negative => cases negative <;> rfl
    | nan tag => cases h

/-- What is not a number has a text of its own. -/
theorem isDefined_numberOfText (tag : Nat) :
    (numberOfText (Binary64.nan tag).text).isDefined = false := rfl

/-- **Numbers with the same text are the same.** -/
theorem literal_toValue_inj {m n : Number} (hm : m.isDefined = true)
    (h : m.toValue.literal = n.toValue.literal) : m = n := by
  have hread := numberOfText_literal hm
  by_cases hn : n.isDefined = true
  · rw [← hread, h, numberOfText_literal hn]
  · obtain ⟨tag, rfl⟩ : ∃ tag, n = .float (.nan tag) := by
      cases n with
      | int n => exact absurd rfl hn
      | float x => cases x with
        | nan tag => exact ⟨tag, rfl⟩
        | _ => exact absurd rfl hn
    rw [h, Number.toValue, Value.literal] at hread
    rw [← hread, isDefined_numberOfText] at hm
    cases hm

end SnapshotStore
