import SnapshotStore.Document
import SnapshotStore.Proofs.Json.ReadBack

/-!
# Cleaning is writing and reading back

**Theorem (`clean_write`).** A value is cleaned just where it has a text, and its clean form is what
that text reads as: tuples come back as lists, times and dates as texts, and of several fields whose
keys have the same text the first gives the place and the last the value. Where there is no text,
cleaning and writing give the same error.

Both go through the value in the same order, so the proof follows them step by step: `SameOutcome`
relates two computations that fail alike or give related results, and passes through their steps
(`SameOutcome.bind`).
-/

namespace SnapshotStore

/-- Two computations fail alike, or their results are related. -/
inductive SameOutcome {ε α β : Type} (R : α → β → Prop) : Except ε α → Except ε β → Prop where
  | error (e : ε) : SameOutcome R (.error e) (.error e)
  | ok {a : α} {b : β} (h : R a b) : SameOutcome R (.ok a) (.ok b)

namespace SameOutcome

variable {ε ε' α β γ δ : Type} {R : α → β → Prop} {S : γ → δ → Prop} {x : Except ε α}
  {y : Except ε β}

theorem bind {f : α → Except ε γ} {g : β → Except ε δ} (h : SameOutcome R x y)
    (hstep : ∀ a b, R a b → SameOutcome S (f a) (g b)) : SameOutcome S (x >>= f) (y >>= g) := by
  cases h with
  | error e => exact .error e
  | ok h => exact hstep _ _ h

/-- Both start with the same step. -/
theorem bind_same {f : α → Except ε γ} {g : α → Except ε δ} (x : Except ε α)
    (hstep : ∀ a, x = .ok a → SameOutcome S (f a) (g a)) : SameOutcome S (x >>= f) (x >>= g) := by
  cases x with
  | error e => exact .error e
  | ok a => exact hstep a rfl

theorem mapError (h : SameOutcome R x y) (f : ε → ε') :
    SameOutcome R (x.mapError f) (y.mapError f) := by
  cases h with
  | error e => exact .error (f e)
  | ok h => exact .ok h

theorem exists_ok {a : α} (h : SameOutcome R x y) (hx : x = .ok a) : ∃ b, y = .ok b ∧ R a b := by
  cases h with
  | error e => cases hx
  | ok h =>
    cases hx
    exact ⟨_, rfl, h⟩

end SameOutcome

namespace Json

variable {style : Style}

theorem reads_nan : Reads (.float (.nan 0)) "NaN".toList :=
  reads_word ⟨'N', _, rfl, by decide, by decide⟩ fun _ _ => rfl

theorem clean_write_float (x : Binary64) (depth : Nat) :
    SameOutcome Reads (Value.clean style (.float x)) (write style depth (.float x)) := by
  rw [write]
  cases hfloat : float style x with
  | error e =>
    cases x with
    | finite x => cases hfloat
    | infinite negative | nan tag =>
      simp only [Value.clean, hfloat]
      exact .error e
  | ok text =>
    cases x with
    | finite x | infinite negative =>
      simp only [Value.clean, hfloat]
      exact .ok (reads_float rfl hfloat)
    | nan tag =>
      simp only [Value.clean, hfloat]
      unfold float at hfloat
      split_ifs at hfloat
      cases hfloat
      exact .ok reads_nan

mutual

/-- **A value is cleaned to what its text reads as**, where it has a text. -/
theorem clean_write (hstyle : style.sorted = false) : ∀ (v : Value) (depth : Nat),
    SameOutcome Reads (v.clean style) (write style depth v)
  | .null, _ => .ok reads_null
  | .bool b, _ => .ok (reads_bool b)
  | .int n, depth => by
    rw [Value.clean, write]
    cases hn : integer n with
    | error e => exact .error e
    | ok text => exact .ok (reads_int hn)
  | .float x, depth => clean_write_float x depth
  | .str s, _ => .ok (reads_str s)
  | .list items, depth => by
    rw [Value.clean, write]
    exact (cleanAll_writeItems hstyle items depth).bind fun _ _ h => .ok (reads_list h)
  | .tuple items, depth => by
    rw [Value.clean, write]
    exact (cleanAll_writeItems hstyle items depth).bind fun _ _ h => .ok (reads_list h)
  | .set _, _ => .error _
  | .bytes _, _ => .error _
  | .datetime t, depth => by
    rw [Value.clean, write]
    split_ifs
    · exact .ok (by simpa using reads_str (String.ofList t.text))
    · exact .error _
  | .date d, depth => by
    rw [Value.clean, write]
    split_ifs
    · exact .ok (by simpa using reads_str (String.ofList d.text))
    · exact .error _
  | .object fields, depth => by
    simp only [Value.clean, write, hstyle, Bool.false_eq_true, if_false, ok_bind]
    refine (cleanFields_writeFields hstyle fields depth).bind fun pairs texts h => ?_
    obtain ⟨entries, rfl, hentries⟩ := h
    exact .ok (reads_pairs hentries)

theorem cleanAll_writeItems (hstyle : style.sorted = false) : ∀ (vs : List Value) (depth : Nat),
    SameOutcome (List.Forall₂ Reads) (Value.cleanAll style vs) (writeItems style depth vs)
  | [], _ => .ok .nil
  | v :: vs, depth => by
    rw [Value.cleanAll, writeItems]
    refine (clean_write hstyle v (depth + 1)).bind fun w text hw => ?_
    exact (cleanAll_writeItems hstyle vs depth).bind fun _ _ hws => .ok (.cons hw hws)

/-- The fields of the two come from the same keys, which are texts by then. -/
theorem cleanFields_writeFields (hstyle : style.sorted = false) : ∀ (fields : Fields) (depth : Nat),
    SameOutcome
      (fun pairs texts => ∃ entries, pairs = Fields.ofEntries entries ∧
        List.Forall₂ ReadsField entries texts)
      (Value.cleanFields style fields) ((writeFields style depth fields).mapM (·.2))
  | [], _ => .ok ⟨[], rfl, .nil⟩
  | (k, v) :: fields, depth => by
    rw [Value.cleanFields, writeFields, List.mapM_cons, bind_assoc]
    refine .bind_same _ fun key _ => ?_
    rw [bind_assoc]
    refine (clean_write hstyle v (depth + 1)).bind fun w value hw => ?_
    rw [ok_bind]
    refine (cleanFields_writeFields hstyle fields depth).bind fun pairs texts h => ?_
    obtain ⟨entries, rfl, hentries⟩ := h
    exact .ok ⟨(String.ofList key, w) :: entries, rfl,
      .cons ⟨value, by rw [String.toList_ofList], hw⟩ hentries⟩

end

end Json

namespace Document

/-- **A document is stored as what its text reads as**, where it has a text. -/
theorem normalize_render (fields : Fields) :
    SameOutcome (fun doc text => Json.parse text = .ok (.object doc)) (normalize (.object fields))
      ((Json.render storedStyle (.object fields)).mapError .notJson) := by
  refine .mapError ?_ _
  simp only [cleanFields, Json.render, Json.write, storedStyle, Bool.false_eq_true, if_false,
    ok_bind, bind_assoc]
  refine (Json.cleanFields_writeFields rfl fields 0).bind fun pairs texts h => ?_
  obtain ⟨entries, rfl, hentries⟩ := h
  refine .ok ?_
  rw [Json.parse, String.toList_ofList]
  exact (Json.reads_pairs hentries).read_eq

end Document

end SnapshotStore
