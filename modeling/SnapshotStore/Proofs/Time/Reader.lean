import Mathlib.Data.List.TakeWhile
import Mathlib.Data.String.Basic
import SnapshotStore.Proofs.Number.Rounding
import SnapshotStore.Proofs.Time.Calendar
import SnapshotStore.Time.Reader

/-!
# Written times read back

**Theorem (`DateTime.ofText?_text`).** A time reads back as it was written, if its offset is a whole
number of minutes. A date reads back as its midnight (`DateTime.ofText?_dateText`), and the date of
a time is read from the first ten characters (`Date.ofText?_take`).

A part of fixed width is read with whatever follows it (`digits?_padded`). So the parts are put
together from the left: the date, the time of day, the offset. Where a part ends is seen from the
character behind it, which is no digit.
-/

namespace SnapshotStore

/-! ## Padded numbers -/

theorem isDigit_of_mem_padded {width n : Nat} {c : Char} (h : c ∈ padded width n) :
    c.isDigit = true := by
  rcases List.mem_append.mp h with h | h
  · rw [List.eq_of_mem_replicate h]
    rfl
  · exact isDigit_of_mem_digitsOf h

theorem padded_ne_nil (width n : Nat) : padded width n ≠ [] :=
  List.append_ne_nil_of_right_ne_nil _ (digitsOf_ne_nil n)

theorem length_padded {width n : Nat} (hwidth : 0 < width) (h : n < 10 ^ width) :
    (padded width n).length = width := by
  have hle : (digitsOf n).length ≤ width := (Nat.length_toDigits_le_iff (by decide) hwidth).mpr h
  rw [padded, List.length_append, List.length_replicate]
  omega

@[simp] theorem natOfDigits_padded (width n : Nat) : natOfDigits (padded width n) = n := by
  rw [padded, natOfDigits_append, natOfDigits_replicate_zero, natOfDigits_digitsOf, Nat.zero_mul,
    Nat.zero_add]

/-- **A number of fixed width reads back,** whatever follows. -/
theorem digits?_padded {width n : Nat} (hwidth : 0 < width) (h : n < 10 ^ width)
    (rest : List Char) : digits? width (padded width n ++ rest) = some (n, rest) := by
  have hlength := length_padded hwidth h
  have htake : (padded width n ++ rest).take width = padded width n :=
    List.take_left' hlength
  have hdrop : (padded width n ++ rest).drop width = rest := List.drop_left' hlength
  have hdigits : (padded width n).all Char.isDigit = true :=
    List.all_eq_true.mpr fun c hc => isDigit_of_mem_padded hc
  simp only [digits?, htake, hdrop, hlength, hdigits, and_self, if_true, natOfDigits_padded]

theorem exists_padded (width n : Nat) : ∃ c cs, padded width n = c :: cs ∧ c.isDigit = true := by
  obtain ⟨c, cs, hcons⟩ := List.exists_cons_of_ne_nil (padded_ne_nil width n)
  exact ⟨c, cs, hcons, isDigit_of_mem_padded (hcons ▸ List.mem_cons_self ..)⟩

/-! ## Dates -/

namespace Date

variable (d : Date)

theorem year_lt : d.year < 10 ^ 4 := Nat.lt_succ_of_le d.year_bounds.2

theorem month_lt : d.month < 10 ^ 2 := d.month_bounds.2.trans_lt (by decide)

theorem day_lt : d.day < 10 ^ 2 :=
  (d.day_bounds.2.trans (daysInMonth_le d.year d.month)).trans_lt (by decide)

theorem length_text : d.text.length = 10 := by
  simp only [text, List.length_append, List.length_cons, length_padded (by decide) d.year_lt,
    length_padded (by decide) d.month_lt, length_padded (by decide) d.day_lt]

theorem of?_eq : of? d.year d.month d.day = some d := by
  rw [of?, dif_pos d.year_bounds, dif_pos d.day_bounds]

/-- **A date reads back.** -/
theorem read?_text : read? d.text = some d := by
  obtain ⟨c, cs, hmonth, hdigit⟩ := exists_padded 2 d.month
  have hrest := digits?_padded (by decide) d.month_lt ('-' :: padded 2 d.day)
  have hday := digits?_padded (by decide) d.day_lt []
  rw [List.append_nil] at hday
  rw [hmonth] at hrest
  simp only [read?, text, digits?_padded (by decide) d.year_lt, bind, Option.bind_some,
    List.head?_cons, beq_self_eq_true, if_true, List.tail_cons, hmonth, List.cons_append]
  -- a week would begin with a letter
  split
  · next heq =>
    obtain rfl := (List.cons.inj heq).1
    cases hdigit
  · rw [← List.cons_append, hrest]
    simp only [Option.bind_some, List.head?_cons, beq_self_eq_true, if_true, List.tail_cons, hday,
      of?_eq]

theorem utf8ByteSize_of_ascii {cs : List Char} (h : ∀ c ∈ cs, c.utf8Size = 1) :
    (String.ofList cs).utf8ByteSize = cs.length := by
  rw [String.utf8ByteSize_ofList]
  induction cs with
  | nil => rfl
  | cons c cs ih =>
    rw [List.forall_mem_cons] at h
    rw [String.utf8Len_cons, ih h.2, h.1, List.length_cons]

theorem utf8Size_of_isDigit {c : Char} (h : c.isDigit = true) : c.utf8Size = 1 := by
  simp only [Char.isDigit, Bool.and_eq_true, decide_eq_true_eq] at h
  exact Char.utf8Size_eq_one_iff.mpr (UInt32.le_trans h.2 (by decide))

/-- The date of a time is read from its first ten characters. -/
theorem ofText?_take (rest : List Char) : ofText? ((d.text ++ rest).take 10) = some d := by
  have hascii : ∀ c ∈ d.text, c.utf8Size = 1 := by
    intro c hc
    simp only [text, List.mem_append, List.mem_cons] at hc
    rcases hc with hc | rfl | hc | rfl | hc
    · exact utf8Size_of_isDigit (isDigit_of_mem_padded hc)
    · rfl
    · exact utf8Size_of_isDigit (isDigit_of_mem_padded hc)
    · rfl
    · exact utf8Size_of_isDigit (isDigit_of_mem_padded hc)
  have hsize := utf8ByteSize_of_ascii hascii
  rw [length_text] at hsize
  rw [List.take_left' d.length_text, ofText?, hsize, if_pos (by decide), read?_text]

end Date

/-! ## Times of day -/

namespace ClockNumbers

variable (t : ClockNumbers) {n : Nat}

/-- A number with a colon behind it, and more. -/
theorem read?_colon (place left : Nat) (h : n < 10 ^ 2) {rest : List Char} (hrest : rest ≠ []) :
    read? t place (left + 1) true (padded 2 n ++ ':' :: rest) =
      read? (t.put place n) (place + 1) left true rest := by
  obtain ⟨c, cs, rfl⟩ := List.exists_cons_of_ne_nil hrest
  simp only [read?, digits?_padded (by decide) h, bind, Option.bind_some, List.isEmpty_cons,
    Bool.false_and, Bool.false_eq_true, if_false, beq_self_eq_true, ite_self, Bool.and_self,
    if_true]

/-- The last number. -/
theorem read?_last (place left : Nat) (colons : Bool) (h : n < 10 ^ 2) :
    read? t place (left + 1) colons (padded 2 n) = some (t.put place n) := by
  have hread := digits?_padded (by decide) h []
  rw [List.append_nil] at hread
  simp only [read?, hread, bind, Option.bind_some]

/-- The seconds with a fraction behind them. -/
theorem read?_fraction (left : Nat) (h : n < 10 ^ 2) {micros : Nat} (hmicros : micros < 10 ^ 6) :
    read? t 2 (left + 1) true (padded 2 n ++ '.' :: padded 6 micros) =
      some { t.put 2 n with microsecond := micros, leftover := false } := by
  have hread := digits?_padded (by decide) hmicros []
  rw [List.append_nil] at hread
  have hfraction : (t.put 2 n).fraction? (padded 6 micros) =
      some { t.put 2 n with microsecond := micros, leftover := false } := by
    simp only [fraction?, length_padded (by decide) hmicros, Nat.min_self, hread, bind,
      Option.bind_some, Nat.sub_self, Nat.pow_eq, Nat.pow_zero, Nat.mul_one, List.dropWhile_nil,
      isLeftover]
  have hnonempty : (padded 6 micros).isEmpty = false :=
    List.isEmpty_eq_false_iff.mpr (padded_ne_nil 6 micros)
  simp only [read?, digits?_padded (by decide) h, bind, Option.bind_some, hnonempty,
    Bool.false_and, Bool.false_eq_true, if_false, hfraction]
  rfl

/-- **A time of day reads back** as its numbers. -/
theorem read?_text (c : Clock) :
    read? {} 0 3 true c.text = some ⟨c.hour, c.minute, c.second, c.microsecond, false⟩ := by
  have hhour : c.hour < 10 ^ 2 := c.hour_lt.trans (by decide)
  have hminute : c.minute < 10 ^ 2 := c.minute_lt.trans (by decide)
  have hsecond : c.second < 10 ^ 2 := c.second_lt.trans (by decide)
  have hne (n : Nat) (rest : List Char) : padded 2 n ++ rest ≠ [] :=
    List.append_ne_nil_of_left_ne_nil (padded_ne_nil 2 n) rest
  rw [Clock.text, read?_colon _ _ _ hhour (hne _ _), read?_colon _ _ _ hminute (hne _ _)]
  unfold microsecondText
  split_ifs with hzero
  · rw [List.append_nil, read?_last _ _ _ _ hsecond, hzero]
    rfl
  · rw [read?_fraction _ _ hsecond c.microsecond_lt]
    rfl

/-- Hours and minutes read back. -/
theorem read?_hoursMinutes {hours minutes : Nat} (hhours : hours < 10 ^ 2)
    (hminutes : minutes < 10 ^ 2) :
    read? {} 0 3 true (padded 2 hours ++ ':' :: padded 2 minutes) =
      some ⟨hours, minutes, 0, 0, false⟩ := by
  rw [read?_colon _ _ _ hhours (padded_ne_nil 2 minutes), read?_last _ _ _ _ hminutes]
  rfl

end ClockNumbers

/-! ## Offsets -/

namespace Offset

/-- A whole number of minutes. -/
def InMinutes (o : Offset) : Prop := o.micros % 60000000 = 0

/-- The offset is written with its hours and minutes only. -/
theorem text_of_inMinutes {o : Offset} (h : o.InMinutes) :
    o.text = (if o.micros < 0 then '-' else '+') ::
      (padded 2 (o.micros.natAbs / 1000000 / 3600) ++ ':' ::
        padded 2 (o.micros.natAbs / 1000000 / 60 % 60)) := by
  have hwhole : o.micros.natAbs / 1000000 % 60 = 0 ∧ o.micros.natAbs % 1000000 = 0 := by
    unfold InMinutes at h
    omega
  simp only [text, hwhole, and_self, if_true, List.append_nil]

/-- An offset of whole seconds is read by its sign and its size. -/
theorem ofText?_sign {sign : Char} (h : sign = '+' ∨ sign = '-') {cs : List Char}
    {hours minutes seconds : Nat} (hseconds : hours * 3600 + minutes * 60 = seconds)
    (hread : ClockNumbers.read? {} 0 3 true cs = some ⟨hours, minutes, 0, 0, false⟩) :
    ofText? (sign :: cs) =
      if seconds = 0 then some .zero
      else of? (if sign = '-' then -(seconds * 1000000 : Int) else seconds * 1000000) := by
  have hne : sign ≠ 'Z' := by rintro rfl; cases h <;> contradiction
  rw [ofText?.eq_2 _ _ (by simpa using hne)]
  simp only [if_pos h, hread, bind, Option.bind_some, Bool.false_eq_true, if_false, Nat.add_zero,
    hseconds, Nat.cast_zero, Int.add_zero]

/-- **An offset reads back,** if it is a whole number of minutes. -/
theorem ofText?_text {o : Offset} (h : o.InMinutes) : ofText? o.text = some o := by
  obtain ⟨micros, hbounded⟩ := o
  have hbounded' : micros.natAbs < 86400000000 := hbounded
  have hhours : micros.natAbs / 1000000 / 3600 < 10 ^ 2 := by omega
  have hminutes : micros.natAbs / 1000000 / 60 % 60 < 10 ^ 2 := by omega
  have hread := ClockNumbers.read?_hoursMinutes hhours hminutes
  have hwhole : micros % 60000000 = 0 := h
  have hseconds : micros.natAbs / 1000000 / 3600 * 3600 + micros.natAbs / 1000000 / 60 % 60 * 60 =
      micros.natAbs / 1000000 := by
    omega
  have hsign :
      (if micros < 0 then '-' else '+') = '+' ∨ (if micros < 0 then '-' else '+') = '-' := by
    split_ifs <;> simp
  have hsize : (if (if micros < 0 then '-' else '+') = '-'
      then -((micros.natAbs / 1000000 : Nat) * 1000000 : Int)
      else (micros.natAbs / 1000000 : Nat) * 1000000) = micros := by
    by_cases hnegative : micros < 0
    · simp only [if_pos hnegative, if_true]
      omega
    · simp only [if_neg hnegative, Char.reduceEq, if_false]
      omega
  rw [text_of_inMinutes h, ofText?_sign hsign hseconds hread, hsize]
  split_ifs with hzero
  · have : micros = 0 := by omega
    subst this
    rfl
  · exact dif_pos hbounded

end Offset

/-! ## Dates with times -/

theorem isOffsetStart_of_isDigit {c : Char} (h : c.isDigit = true) : isOffsetStart c = false := by
  simp only [isOffsetStart, Bool.or_eq_false_iff, beq_eq_false_iff_ne]
  refine ⟨⟨?_, ?_⟩, ?_⟩ <;> rintro rfl <;> cases h

theorem isOffsetStart_of_mem_text {t : Clock} {c : Char} (h : c ∈ t.text) :
    isOffsetStart c = false := by
  have hpadded {width n : Nat} (hc : c ∈ padded width n) : isOffsetStart c = false :=
    isOffsetStart_of_isDigit (isDigit_of_mem_padded hc)
  simp only [Clock.text, microsecondText, List.mem_append, List.mem_cons] at h
  rcases h with h | rfl | h | rfl | h | h
  · exact hpadded h
  · rfl
  · exact hpadded h
  · rfl
  · exact hpadded h
  · split_ifs at h with hzero
    · cases h
    · rcases List.mem_cons.mp h with rfl | h
      · rfl
      · exact hpadded h

theorem Offset.exists_text (o : Offset) : ∃ c cs, o.text = c :: cs ∧ isOffsetStart c = true := by
  refine ⟨_, _, rfl, ?_⟩
  split_ifs <;> rfl

section Clock

variable (c : Clock)

theorem Clock.of?_eq : Clock.of? c.hour c.minute c.second c.microsecond = some c :=
  dif_pos ⟨c.hour_lt, c.minute_lt, c.second_lt, c.microsecond_lt⟩

theorem not_isOffsetStart_text : ∀ x ∈ c.text, (!isOffsetStart x) = true := fun x hx => by
  rw [isOffsetStart_of_mem_text hx, Bool.not_false]

/-- A time of day with nothing behind it. -/
theorem readClock?_text : readClock? c.text = some (c, none) := by
  simp only [readClock?, List.takeWhile_eq_self_iff.mpr (not_isOffsetStart_text c),
    List.dropWhile_eq_nil_iff.mpr (not_isOffsetStart_text c), ClockNumbers.read?_text, bind,
    Option.bind_some, Bool.false_eq_true, if_false, c.of?_eq]

/-- A time of day with an offset behind it. -/
theorem readClock?_offset {o : Offset} (h : o.InMinutes) :
    readClock? (c.text ++ o.text) = some (c, some o) := by
  obtain ⟨sign, cs, htext, hstart⟩ := o.exists_text
  have htake : (c.text ++ sign :: cs).takeWhile (!isOffsetStart ·) = c.text := by
    rw [List.takeWhile_append_of_pos (not_isOffsetStart_text c), List.takeWhile_cons, hstart]
    exact List.append_nil _
  have hdrop : (c.text ++ sign :: cs).dropWhile (!isOffsetStart ·) = sign :: cs := by
    rw [List.dropWhile_append_of_pos (not_isOffsetStart_text c), List.dropWhile_cons, hstart]
    rfl
  have hread := Offset.ofText?_text h
  rw [htext] at hread ⊢
  simp only [readClock?, htake, hdrop, ClockNumbers.read?_text, bind, Option.bind_some, hread,
    Option.map_some, c.of?_eq]

end Clock

namespace DateTime

/-- A text that starts with a written date has a date of ten characters. -/
theorem dateLength?_text (d : Date) (rest : List Char) :
    dateLength? (d.text ++ rest) = some 10 := by
  have hlength : (d.text ++ rest).length = 10 + rest.length := by
    rw [List.length_append, d.length_text]
  have hyear := length_padded (by decide) d.year_lt
  obtain ⟨c, cs, hmonth, hdigit⟩ := exists_padded 2 d.month
  have htext : d.text ++ rest =
      padded 4 d.year ++ '-' :: c :: (cs ++ '-' :: padded 2 d.day ++ rest) := by
    simp only [Date.text, hmonth, List.append_assoc, List.cons_append]
  have hdash : (d.text ++ rest)[4]? = some '-' := by
    rw [htext, List.getElem?_append_right hyear.le, hyear]
    rfl
  have hweek : (d.text ++ rest)[5]? ≠ some 'W' := by
    rw [htext, List.getElem?_append_right (hyear.le.trans (by decide)), hyear]
    rintro heq
    obtain rfl : c = 'W' := Option.some.inj heq
    cases hdigit
  have hsize : ¬10 + rest.length = 7 := by omega
  simp only [dateLength?, hlength, hdash, hweek, hsize, if_true, if_false]

/-- **A time reads back** as it was written, if its offset is a whole number of minutes. -/
theorem ofText?_text {t : DateTime} (h : ∀ o ∈ t.offset, o.InMinutes) :
    ofText? t.text = some t := by
  obtain ⟨date, clock, offset⟩ := t
  cases offset with
  | none =>
    simp only [ofText?, text, textWith, List.append_nil, dateLength?_text, bind, Option.bind_some,
      List.take_left' date.length_text, List.drop_left' date.length_text, Date.read?_text,
      readClock?_text]
  | some o =>
    simp only [ofText?, text, textWith, dateLength?_text, bind, Option.bind_some,
      List.take_left' date.length_text, List.drop_left' date.length_text, Date.read?_text,
      readClock?_offset clock (h o rfl)]

/-- A date reads back as its midnight. -/
theorem ofText?_dateText (d : Date) : ofText? d.text = some (ofDate d) := by
  have hlength := dateLength?_text d []
  rw [List.append_nil] at hlength
  simp only [ofText?, hlength, bind, Option.bind_some, List.take_of_length_le d.length_text.le,
    List.drop_of_length_le d.length_text.le, Date.read?_text]

end DateTime

end SnapshotStore
