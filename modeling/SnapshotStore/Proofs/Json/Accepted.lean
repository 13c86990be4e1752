import SnapshotStore.Proofs.Json.ReadBack

/-!
# What is written and what is read

**Theorem (`exists_write_iff`).** A JSON value has a text in a style exactly when the style admits
all its numbers: no integer is too long and, where the style asks for it, every number is finite.

**Theorem (`isJson_read`).** Whatever is read is a JSON value without integers that are too long. It
may hold numbers that are not finite, and this is all that can keep it from being written again.
-/

namespace SnapshotStore

namespace Number

/-- Not an integer with too many digits to be read or written. -/
def isShort : Number → Bool
  | int n => decide (n.natAbs < Json.integerBound)
  | float _ => true

/-- Neither infinite nor undefined. -/
def isFinite : Number → Bool
  | int _ => true
  | float x => x.isFinite

theorem isDefined_of_isFinite {n : Number} (h : n.isFinite = true) : n.isDefined = true := by
  cases n with
  | int n => rfl
  | float x => cases x <;> first | rfl | exact h

end Number

namespace Value

variable {p q : Number → Bool}

/-- A weaker test of numbers. -/
theorem isJson_mono (hpq : ∀ n, p n = true → q n = true) {v : Value} (h : isJson p v = true) :
    isJson q v = true := by
  induction v, h using isJson_induction with
  | null | bool b | str s => rfl
  | int n h => exact hpq _ h
  | float x h => exact hpq _ h
  | list items _ ih => exact isJson_list.mpr ih
  | object entries hkeys _ ih => exact isJson_ofEntries.mpr ⟨hkeys, ih⟩

theorem isJson_and_of {v : Value} (hp : isJson p v = true) (hq : isJson q v = true) :
    isJson (fun n => p n && q n) v = true := by
  induction v, hp using isJson_induction with
  | null | bool b | str s => rfl
  | int n h => exact Bool.and_eq_true_iff.mpr ⟨h, hq⟩
  | float x h => exact Bool.and_eq_true_iff.mpr ⟨h, hq⟩
  | list items _ ih =>
    exact isJson_list.mpr fun v hv => ih v hv (isJson_list.mp hq v hv)
  | object entries hkeys _ ih =>
    exact isJson_ofEntries.mpr ⟨hkeys, fun entry hentry =>
      ih entry hentry ((isJson_ofEntries.mp hq).2 entry hentry)⟩

/-- Two tests of numbers at once. -/
theorem isJson_and {v : Value} :
    isJson (fun n => p n && q n) v = true ↔ isJson p v = true ∧ isJson q v = true :=
  ⟨fun h => ⟨isJson_mono (fun _ hn => (Bool.and_eq_true_iff.mp hn).1) h,
    isJson_mono (fun _ hn => (Bool.and_eq_true_iff.mp hn).2) h⟩, fun h => isJson_and_of h.1 h.2⟩

end Value

namespace Json

/-! ## What is written -/

/-- The numbers that have a text in a style. -/
def Style.admits (style : Style) (n : Number) : Bool := n.isShort && (!style.finite || n.isFinite)

variable {style : Style} {depth : Nat}

theorem exists_integer_iff {n : Int} :
    (∃ text, integer n = .ok text) ↔ style.admits (.int n) = true := by
  have hadmits : style.admits (.int n) = decide (n.natAbs < integerBound) := by
    simp [Style.admits, Number.isShort, Number.isFinite]
  rw [hadmits, decide_eq_true_eq, integer]
  split_ifs with h
  · exact ⟨fun _ => h, fun _ => ⟨_, rfl⟩⟩
  · exact ⟨fun ⟨_, he⟩ => (nomatch he), fun h' => absurd h' h⟩

theorem exists_float_iff {x : Binary64} :
    (∃ text, float style x = .ok text) ↔ style.admits (.float x) = true := by
  have hadmits : style.admits (.float x) = (!style.finite || x.isFinite) := rfl
  rw [hadmits]
  cases x with
  | finite x => exact ⟨fun _ => Bool.or_true _, fun _ => ⟨_, rfl⟩⟩
  | infinite negative | nan tag =>
    unfold float
    cases hfinite : style.finite
    · exact ⟨fun _ => rfl, fun _ => ⟨_, rfl⟩⟩
    · exact ⟨fun ⟨_, he⟩ => (nomatch he), fun he => (nomatch he)⟩

theorem exists_writeItems_iff {vs : List Value} :
    (∃ texts, writeItems style depth vs = .ok texts) ↔
      ∀ v ∈ vs, ∃ text, write style (depth + 1) v = .ok text := by
  induction vs with
  | nil => simp [writeItems]
  | cons v vs ih =>
    rw [List.forall_mem_cons, ← ih]
    constructor
    · rintro ⟨texts, h⟩
      obtain ⟨text, hv, h⟩ := bind_eq_ok.mp h
      obtain ⟨texts, hvs, -⟩ := bind_eq_ok.mp h
      exact ⟨⟨text, hv⟩, texts, hvs⟩
    · rintro ⟨⟨text, hv⟩, texts, hvs⟩
      exact ⟨text :: texts, by rw [writeItems, hv, hvs]; rfl⟩

theorem exists_mapM_writeFields_iff {entries : List (String × Value)} :
    (∃ texts, (writeFields style depth (Fields.ofEntries entries)).mapM (·.2) = .ok texts) ↔
      ∀ entry ∈ entries, ∃ text, write style (depth + 1) entry.2 = .ok text := by
  induction entries with
  | nil => exact ⟨fun _ entry hentry => by simp at hentry, fun _ => ⟨[], rfl⟩⟩
  | cons entry entries ih =>
    obtain ⟨key, v⟩ := entry
    rw [List.forall_mem_cons, ← ih, Fields.ofEntries_cons, writeFields, List.mapM_cons]
    constructor
    · rintro ⟨texts, h⟩
      obtain ⟨text, htext, h⟩ := bind_eq_ok.mp h
      obtain ⟨texts, htexts, -⟩ := bind_eq_ok.mp h
      obtain ⟨_, -, htext⟩ := bind_eq_ok.mp htext
      obtain ⟨value, hvalue, -⟩ := bind_eq_ok.mp htext
      exact ⟨⟨value, hvalue⟩, texts, htexts⟩
    · rintro ⟨⟨value, hvalue⟩, texts, htexts⟩
      refine ⟨(stringText key.toList ++ ':' :: ' ' :: value) :: texts, ?_⟩
      simp only [keyText, hvalue, htexts, bind, Except.bind]
      rfl

/-- **A JSON value is written exactly when its numbers are admitted.** -/
theorem exists_write_iff {style : Style} (hstyle : style.sorted = false) {v : Value}
    (hv : v.isJson (fun _ => true) = true) :
    ∀ depth, (∃ text, write style depth v = .ok text) ↔ v.isJson style.admits = true := by
  induction v, hv using Value.isJson_induction with
  | null | bool b | str s => exact fun depth => ⟨fun _ => rfl, fun _ => ⟨_, rfl⟩⟩
  | int n _ => exact fun depth => exists_integer_iff
  | float x _ => exact fun depth => exists_float_iff
  | list items _ ih =>
    intro depth
    rw [Value.isJson_list, ← forall₂_congr fun v hv => ih v hv (depth + 1), ← exists_writeItems_iff]
    constructor
    · rintro ⟨text, h⟩
      obtain ⟨texts, htexts, -⟩ := bind_eq_ok.mp h
      exact ⟨texts, htexts⟩
    · rintro ⟨texts, htexts⟩
      exact ⟨_, by rw [write, htexts]; rfl⟩
  | object entries hkeys _ ih =>
    intro depth
    rw [Value.isJson_ofEntries, and_iff_right hkeys,
      ← forall₂_congr fun entry hentry => ih entry hentry (depth + 1),
      ← exists_mapM_writeFields_iff]
    simp only [write, hstyle, Bool.false_eq_true, if_false]
    constructor
    · rintro ⟨text, h⟩
      obtain ⟨parts, hparts, h⟩ := bind_eq_ok.mp h
      cases hparts
      obtain ⟨texts, htexts, -⟩ := bind_eq_ok.mp h
      exact ⟨texts, htexts⟩
    · rintro ⟨texts, htexts⟩
      exact ⟨style.bracket depth '{' '}' texts, by simp only [bind, Except.bind, htexts]⟩

/-! ## What is read -/

theorem splitDigits_isDigit (cs : List Char) : ∀ c ∈ (splitDigits cs).1, c.isDigit = true := by
  rw [splitDigits, List.span_eq_takeWhile_dropWhile]
  exact fun c hc => List.all_eq_true.mp List.all_takeWhile c hc

theorem isShort_of_whole {whole : List Char} (hdigits : ∀ c ∈ whole, c.isDigit = true)
    (hsize : whole.length ≤ maxIntegerDigits) (negative : Bool) :
    (Number.int (if negative then -(natOfDigits whole : Int) else natOfDigits whole)).isShort = true
    := by
  have hlt : natOfDigits whole < integerBound := by
    rw [integerBound_eq]
    exact (natOfDigits_lt hdigits).trans_le (Nat.pow_le_pow_right (by decide) hsize)
  cases negative <;> simpa [Number.isShort] using hlt

/-- A number that is read is not too long. -/
theorem isJson_number {negative : Bool} {cs rest : List Char} {v : Value}
    (h : number negative cs = .ok (v, rest)) : v.isJson Number.isShort = true := by
  unfold number at h
  split at h
  next whole rest' hwhole =>
    have hdigits : ∀ c ∈ whole, c.isDigit = true := by
      split at hwhole
      · cases hwhole
        exact List.forall_mem_singleton.mpr rfl
      · have hfst : (splitDigits cs).1 = whole := congrArg Prod.fst hwhole
        rw [← hfst]
        exact splitDigits_isDigit cs
    split at h
    · cases h
    · dsimp only at h
      split at h
      · split at h
        · cases h
        · next hsize =>
          cases h
          exact isShort_of_whole hdigits (Nat.not_lt.mp hsize) negative
      · cases h
        rfl

theorem isJson_scalar {cs rest : List Char} {v : Value} (h : scalar cs = .ok (v, rest)) :
    v.isJson Number.isShort = true := by
  unfold scalar at h
  split at h
  · next found hfound =>
    cases h
    obtain ⟨⟨word, w⟩, hword, hw⟩ := List.exists_of_findSome?_eq_some hfound
    obtain ⟨_, -, hpair⟩ := Option.map_eq_some_iff.mp hw
    cases hpair
    have hall : ∀ entry ∈ words, entry.2.isJson Number.isShort = true := by decide
    exact hall _ hword
  · split at h <;> exact isJson_number h

/-- What is read at any fuel is made of JSON values. -/
theorem isJson_readValue (fuel : Nat) :
    (∀ cs v rest, readValue fuel cs = .ok (v, rest) → v.isJson Number.isShort = true) ∧
    (∀ cs vs rest, readItems fuel cs = .ok (vs, rest) →
      ∀ v ∈ vs, v.isJson Number.isShort = true) ∧
    ∀ cs fields rest, readFields fuel cs = .ok (fields, rest) →
      ∃ entries, fields = Fields.ofEntries entries ∧
        ∀ entry ∈ entries, entry.2.isJson Number.isShort = true := by
  induction fuel with
  | zero =>
    refine ⟨?_, ?_, ?_⟩ <;> intro cs v rest h <;> cases h
  | succ fuel ih =>
    obtain ⟨ihValue, ihItems, ihFields⟩ := ih
    refine ⟨fun cs v rest h => ?_, fun cs vs rest h => ?_, fun cs fields rest h => ?_⟩
    · unfold readValue at h
      split at h
      · obtain ⟨⟨text, tail⟩, -, h⟩ := bind_eq_ok.mp h
        cases h
        rfl
      · split at h
        · cases h
          rfl
        · obtain ⟨⟨items, tail⟩, hitems, h⟩ := bind_eq_ok.mp h
          cases h
          exact Value.isJson_list.mpr (ihItems _ _ _ hitems)
      · split at h
        · cases h
          rfl
        · obtain ⟨⟨pairs, tail⟩, hpairs, h⟩ := bind_eq_ok.mp h
          cases h
          obtain ⟨entries, rfl, hall⟩ := ihFields _ _ _ hpairs
          exact Value.isJson_overlay [] rfl hall
      · exact isJson_scalar h
    · obtain ⟨⟨v, tail⟩, hv, h⟩ := bind_eq_ok.mp h
      have hv' := ihValue _ _ _ hv
      dsimp only at h
      split at h
      · cases h
        exact List.forall_mem_singleton.mpr hv'
      · obtain ⟨⟨vs, tail'⟩, hvs, h⟩ := bind_eq_ok.mp h
        cases h
        exact List.forall_mem_cons.mpr ⟨hv', ihItems _ _ _ hvs⟩
      · cases h
    · unfold readFields at h
      split at h
      · obtain ⟨⟨key, tail⟩, -, h⟩ := bind_eq_ok.mp h
        dsimp only at h
        split at h
        · obtain ⟨⟨v, tail⟩, hv, h⟩ := bind_eq_ok.mp h
          have hv' := ihValue _ _ _ hv
          dsimp only at h
          split at h
          · cases h
            exact ⟨[(_, v)], rfl, List.forall_mem_singleton.mpr hv'⟩
          · obtain ⟨⟨fields, tail'⟩, hfields, h⟩ := bind_eq_ok.mp h
            cases h
            obtain ⟨entries, rfl, hall⟩ := ihFields _ _ _ hfields
            exact ⟨(_, v) :: entries, rfl, List.forall_mem_cons.mpr ⟨hv', hall⟩⟩
          · cases h
        · cases h
      · cases h

/-- **Whatever is read is a JSON value** without integers that are too long. -/
theorem isJson_read {cs : List Char} {v : Value} (h : read cs = .ok v) :
    v.isJson Number.isShort = true := by
  obtain ⟨⟨w, rest⟩, hread, h⟩ := bind_eq_ok.mp h
  dsimp only at h
  split_ifs at h
  cases h
  exact (isJson_readValue _).1 _ _ _ hread

end Json
end SnapshotStore
