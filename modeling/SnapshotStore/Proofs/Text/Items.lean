import Mathlib.Data.List.Basic
import SnapshotStore.Value.Literal

/-!
# Items of a written list

A written list or object is taken apart by scanning it. A scan counts the brackets that are open and
passes over quoted texts; a comma, a colon or a closing bracket ends an item where no bracket of the
item is open. A text is an *item* (`IsItem`) when a scan gets through it and is where it was.

**Theorem (`IsItem.append_inj`).** Two items followed by something that ends them are the same if
all is the same.

**Theorem (`commaSeparated_inj`, `commaSeparated_pairs_inj`).** So lists of items are the same if
they are written the same, and lists of pairs of items too.

What is put together of texts that a scan gets through is such a text itself (`Passes`), within
brackets also with commas and colons in between (`PassesInside`).
-/

namespace SnapshotStore

/-! ## Scanning -/

/-- What a character does outside of quoted texts. -/
inductive Role where
  | quote
  | opening
  | closing
  | separator
  | plain
deriving DecidableEq

/-- The role of a character. -/
def Role.of (c : Char) : Role :=
  if c = '\'' ∨ c = '"' then quote
  else if c = '(' ∨ c = '[' ∨ c = '\x7b' then opening
  else if c = ')' ∨ c = ']' ∨ c = '\x7d' then closing
  else if c = ',' ∨ c = ':' then separator
  else plain

/-- The characters of a given text are looked at one by one. -/
theorem Role.plain_of_all {cs : List Char} (h : cs.all (Role.of · = .plain) = true) :
    ∀ c ∈ cs, Role.of c = .plain :=
  fun c hc => of_decide_eq_true (List.all_eq_true.mp h c hc)

/-- Where a scan is: how many brackets are open, and within a quoted text which quote ends it. -/
inductive ScanState where
  | plain (depth : Nat)
  | quoted (depth : Nat) (quote : Char)
  | escaped (depth : Nat) (quote : Char)

namespace ScanState

/-- Scan a character; one that ends an item is not scanned. -/
def step : ScanState → Char → Option ScanState
  | escaped depth quote, _ => some (.quoted depth quote)
  | quoted depth quote, c =>
    if c = '\\' then some (.escaped depth quote)
    else if c = quote then some (.plain depth)
    else some (.quoted depth quote)
  | plain depth, c => match Role.of c, depth with
    | .quote, depth => some (.quoted depth c)
    | .opening, depth => some (.plain (depth + 1))
    | .plain, depth => some (.plain depth)
    | .closing, depth + 1 => some (.plain depth)
    | .separator, depth + 1 => some (.plain (depth + 1))
    | .closing, 0 => none
    | .separator, 0 => none

/-- Scan a text. -/
def run : ScanState → List Char → Option ScanState
  | s, [] => some s
  | s, c :: cs => (step s c).bind fun s => run s cs

/-- What of a text is scanned. -/
def front : ScanState → List Char → List Char
  | _, [] => []
  | s, c :: cs => match step s c with
    | some s => c :: front s cs
    | none => []

theorem run_append (s : ScanState) (a b : List Char) :
    run s (a ++ b) = (run s a).bind fun s => run s b := by
  induction a generalizing s with
  | nil => rfl
  | cons c a ih =>
    rw [List.cons_append, run, run]
    cases step s c with
    | none => rfl
    | some s => exact ih s

end ScanState

open ScanState

/-- Nothing follows, or a character that ends an item. -/
def Ends (rest : List Char) : Prop :=
  ∀ c ∈ rest.head?, Role.of c = .closing ∨ Role.of c = .separator

theorem ends_nil : Ends [] := fun _ h => nomatch h

theorem ends_cons {c : Char} (h : Role.of c = .closing ∨ Role.of c = .separator)
    (rest : List Char) : Ends (c :: rest) := by
  rintro _ ⟨⟩
  exact h

/-- What is scanned ends where no bracket is open and something ends the item. -/
theorem front_append {s : ScanState} {a rest : List Char} (ha : run s a = some (.plain 0))
    (hrest : Ends rest) : front s (a ++ rest) = a := by
  induction a generalizing s with
  | nil =>
    obtain rfl : s = .plain 0 := Option.some.inj ha
    cases rest with
    | nil => rfl
    | cons c rest =>
      have hstep : step (.plain 0) c = none := by
        rcases hrest c rfl with hrole | hrole <;> simp only [step, hrole]
      rw [List.nil_append, front, hstep]
  | cons c a ih =>
    rw [run] at ha
    rw [List.cons_append, front]
    cases hstep : step s c with
    | none =>
      rw [hstep] at ha
      cases ha
    | some s' =>
      rw [hstep] at ha
      exact congrArg (c :: ·) (ih ha)

/-! ## What a scan gets through -/

/-- A text that a scan gets through, whatever brackets are open around it. -/
def Passes (text : List Char) : Prop := ∀ depth, run (.plain depth) text = some (.plain depth)

/-- A text that a scan gets through within brackets. -/
def PassesInside (text : List Char) : Prop :=
  ∀ depth, run (.plain (depth + 1)) text = some (.plain (depth + 1))

namespace PassesInside

variable {a b : List Char}

theorem nil : PassesInside [] := fun _ => rfl

theorem append (ha : PassesInside a) (hb : PassesInside b) :
    PassesInside (a ++ b) := fun depth => by
  rw [run_append, ha, Option.bind_some, hb]

theorem cons {c : Char} (hrole : Role.of c = .separator ∨ Role.of c = .plain)
    (ha : PassesInside a) : PassesInside (c :: a) := by
  intro depth
  have hstep : step (.plain (depth + 1)) c = some (.plain (depth + 1)) := by
    rcases hrole with hrole | hrole <;> simp only [step, hrole]
  rw [run, hstep, Option.bind_some, ha]

end PassesInside

namespace Passes

variable {a b : List Char}

theorem inside (h : Passes a) : PassesInside a := fun depth => h (depth + 1)

theorem append (ha : Passes a) (hb : Passes b) : Passes (a ++ b) := fun depth => by
  rw [run_append, ha, Option.bind_some, hb]

theorem of_plain (h : ∀ c ∈ a, Role.of c = .plain) : Passes a := by
  intro depth
  induction a with
  | nil => rfl
  | cons c a ih =>
    rw [List.forall_mem_cons] at h
    simp only [run, step, h.1]
    exact ih h.2

/-- What passes within brackets passes with brackets around it. -/
theorem bracket {opening closing : Char} (hopening : Role.of opening = .opening)
    (hclosing : Role.of closing = .closing) (ha : PassesInside a) :
    Passes (opening :: (a ++ [closing])) := by
  intro depth
  have hopen : step (.plain depth) opening = some (.plain (depth + 1)) := by
    simp only [step, hopening]
  have hclose : step (.plain (depth + 1)) closing = some (.plain depth) := by
    simp only [step, hclosing]
  rw [run, hopen, Option.bind_some, run_append, ha, Option.bind_some, run, hclose]
  rfl

end Passes

/-! ## Quoted texts -/

/-- A text that a scan gets through within a quoted text. -/
def PassesQuoted (quote : Char) (text : List Char) : Prop :=
  ∀ depth, run (.quoted depth quote) text = some (.quoted depth quote)

theorem role_digitChar : ∀ n < 16, Role.of n.digitChar = .plain ∧ n.digitChar ≠ '\\' := by decide

theorem role_of_mem_toDigits {n : Nat} {c : Char} (h : c ∈ Nat.toDigits 16 n) :
    Role.of c = .plain ∧ c ≠ '\\' := by
  induction n using Nat.strongRecOn with
  | ind n ih =>
    by_cases hn : n < 16
    · rw [Nat.toDigits_of_lt_base hn, List.mem_singleton] at h
      exact h ▸ role_digitChar n hn
    · rw [Nat.toDigits_of_base_le (by decide) (Nat.le_of_not_lt hn), List.mem_append,
        List.mem_singleton] at h
      rcases h with h | rfl
      · exact ih (n / 16) (Nat.div_lt_self (by omega) (by decide)) h
      · exact role_digitChar _ (Nat.mod_lt n (by decide))

theorem role_of_mem_hexPadded {width n : Nat} {c : Char} (h : c ∈ hexPadded width n) :
    Role.of c = .plain ∧ c ≠ '\\' := by
  rcases List.mem_append.mp h with h | h
  · rw [List.eq_of_mem_replicate h]
    decide
  · exact role_of_mem_toDigits h

namespace PassesQuoted

variable {quote : Char} {a b : List Char}

theorem nil : PassesQuoted quote [] := fun _ => rfl

theorem append (ha : PassesQuoted quote a) (hb : PassesQuoted quote b) :
    PassesQuoted quote (a ++ b) := fun depth => by
  rw [run_append, ha, Option.bind_some, hb]

theorem flatMap {α : Type} {f : α → List Char} (hf : ∀ x, PassesQuoted quote (f x)) (xs : List α) :
    PassesQuoted quote (xs.flatMap f) := by
  induction xs with
  | nil => exact nil
  | cons x xs ih => exact (hf x).append ih

/-- The quote in use and the backslash do not pass by themselves. -/
theorem cons {c : Char} (hquote : c ≠ quote) (hbackslash : c ≠ '\\') (ha : PassesQuoted quote a) :
    PassesQuoted quote (c :: a) := by
  intro depth
  have hstep : step (.quoted depth quote) c = some (.quoted depth quote) := by
    rw [step, if_neg hbackslash, if_neg hquote]
  rw [run, hstep, Option.bind_some, ha]

/-- Whatever is escaped passes. -/
theorem escaped (c : Char) (ha : PassesQuoted quote a) : PassesQuoted quote ('\\' :: c :: a) := by
  intro depth
  have hstep : step (.quoted depth quote) '\\' = some (.escaped depth quote) := by
    rw [step, if_pos rfl]
  rw [run, hstep, Option.bind_some, run]
  exact ha depth

theorem of_plain (hquote : Role.of quote = .quote)
    (h : ∀ c ∈ a, Role.of c = .plain ∧ c ≠ '\\') : PassesQuoted quote a := by
  induction a with
  | nil => exact nil
  | cons c a ih =>
    rw [List.forall_mem_cons] at h
    refine cons ?_ h.1.2 (ih h.2)
    rintro rfl
    cases hquote.symm.trans h.1.1

theorem escapedCode (hquote : Role.of quote = .quote) (n : Nat) :
    PassesQuoted quote (escapedCode n) := by
  have hhex (width : Nat) : PassesQuoted quote (hexPadded width n) :=
    of_plain hquote fun _ hc => role_of_mem_hexPadded hc
  unfold SnapshotStore.escapedCode
  split_ifs <;> exact escaped _ (hhex _)

theorem quotedChar (hquote : Role.of quote = .quote) (c : Char) :
    PassesQuoted quote (quotedChar quote c) := by
  unfold SnapshotStore.quotedChar
  split_ifs with hescape
  · exact escaped c nil
  · exact escaped 'n' nil
  · exact escaped 'r' nil
  · exact escaped 't' nil
  · exact cons (fun h => hescape (.inl h)) (fun h => hescape (.inr h)) nil
  · exact escapedCode hquote _

theorem quotedByte (hquote : Role.of quote = .quote) (b : UInt8) :
    PassesQuoted quote (quotedByte quote b) := by
  unfold SnapshotStore.quotedByte
  split_ifs
  · exact quotedChar hquote _
  · exact escapedCode hquote _

/-- What passes within quotes passes with quotes around it. -/
theorem passes (hquote : Role.of quote = .quote) (ha : PassesQuoted quote a) :
    Passes (quote :: (a ++ [quote])) := by
  intro depth
  have hopen : step (.plain depth) quote = some (.quoted depth quote) := by
    simp only [step, hquote]
  have hbackslash : quote ≠ '\\' := by
    rintro rfl
    exact absurd hquote (by decide)
  have hclose : step (.quoted depth quote) quote = some (.plain depth) := by
    rw [step, if_neg hbackslash, if_pos rfl]
  rw [run, hopen, Option.bind_some, run_append, ha, Option.bind_some, run, hclose]
  rfl

end PassesQuoted

theorem role_quoteFor (cs : List Char) : Role.of (quoteFor cs) = .quote := by
  unfold quoteFor
  split_ifs <;> decide

theorem passes_quoted (cs : List Char) : Passes (quoted cs) :=
  (PassesQuoted.flatMap (PassesQuoted.quotedChar (role_quoteFor cs)) cs).passes (role_quoteFor cs)

theorem passes_quotedBytes (data : List UInt8) : Passes (quotedBytes data) := by
  have hquote := role_quoteFor (data.map fun b => Char.ofNat b.toNat)
  have hmark : Passes ['b'] := .of_plain (Role.plain_of_all (by decide))
  exact hmark.append ((PassesQuoted.flatMap (PassesQuoted.quotedByte hquote) data).passes hquote)

/-! ## Items -/

/-- One item of a list. -/
structure IsItem (text : List Char) : Prop where
  ne_nil : text ≠ []
  passes : Passes text

/-- **Items that are followed by what ends them are the same if all is the same.** -/
theorem IsItem.append_inj {a b rest rest' : List Char} (ha : IsItem a) (hb : IsItem b)
    (hrest : Ends rest) (hrest' : Ends rest') (h : a ++ rest = b ++ rest') :
    a = b ∧ rest = rest' := by
  have hfront := front_append (ha.passes 0) hrest
  rw [h, front_append (hb.passes 0) hrest'] at hfront
  subst hfront
  exact ⟨rfl, List.append_cancel_left h⟩

/-- What stands behind the first item of a list. -/
def commaTail : List (List Char) → List Char
  | [] => []
  | text :: texts => ',' :: ' ' :: commaSeparated (text :: texts)

theorem commaSeparated_cons (text : List Char) (texts : List (List Char)) :
    commaSeparated (text :: texts) = text ++ commaTail texts := by
  cases texts with
  | nil => exact (List.append_nil text).symm
  | cons _ _ => rfl

theorem ends_commaTail (texts : List (List Char)) : Ends (commaTail texts) := by
  cases texts with
  | nil => exact ends_nil
  | cons _ _ => exact ends_cons (.inr rfl) _

theorem passesInside_commaSeparated {texts : List (List Char)}
    (h : ∀ text ∈ texts, PassesInside text) : PassesInside (commaSeparated texts) := by
  induction texts with
  | nil => exact .nil
  | cons text texts ih =>
    rw [List.forall_mem_cons] at h
    rw [commaSeparated_cons]
    refine h.1.append ?_
    cases texts with
    | nil => exact .nil
    | cons _ _ => exact .cons (.inl rfl) (.cons (.inr rfl) (ih h.2))

/-- Things that are written with commas between them are the same if they are written the same, as
long as each is, with what follows it. -/
theorem commaSeparated_map_inj {α : Type} {f : α → List Char} {p : α → Prop}
    (hne : ∀ a, p a → f a ≠ [])
    (hinj : ∀ a b rest rest', p a → p b → Ends rest → Ends rest' → f a ++ rest = f b ++ rest' →
      a = b ∧ rest = rest') {as bs : List α} (has : ∀ a ∈ as, p a) (hbs : ∀ b ∈ bs, p b)
    (h : commaSeparated (as.map f) = commaSeparated (bs.map f)) : as = bs := by
  have hnil {b : α} {bs : List α} (hb : p b) : commaSeparated ((b :: bs).map f) ≠ [] := by
    rw [List.map_cons, commaSeparated_cons]
    exact List.append_ne_nil_of_left_ne_nil (hne b hb) _
  induction as generalizing bs with
  | nil =>
    cases bs with
    | nil => rfl
    | cons b bs => exact absurd h.symm (hnil (List.forall_mem_cons.mp hbs).1)
  | cons a as ih =>
    rw [List.forall_mem_cons] at has
    cases bs with
    | nil => exact absurd h (hnil has.1)
    | cons b bs =>
      rw [List.forall_mem_cons] at hbs
      rw [List.map_cons, List.map_cons, commaSeparated_cons, commaSeparated_cons] at h
      obtain ⟨rfl, htail⟩ := hinj a b _ _ has.1 hbs.1 (ends_commaTail _) (ends_commaTail _) h
      congr 1
      cases as <;> cases bs
      · rfl
      · cases htail
      · cases htail
      · exact ih has.2 hbs.2 (List.cons.inj (List.cons.inj htail).2).2

/-- **Lists of items are the same if they are written the same.** -/
theorem commaSeparated_inj {as bs : List (List Char)} (has : ∀ a ∈ as, IsItem a)
    (hbs : ∀ b ∈ bs, IsItem b) (h : commaSeparated as = commaSeparated bs) : as = bs := by
  rw [← List.map_id as, ← List.map_id bs] at h
  exact commaSeparated_map_inj (fun _ ha => ha.ne_nil)
    (fun _ _ _ _ ha hb hrest hrest' => ha.append_inj hb hrest hrest') has hbs h

/-- A key and a value with a colon between them. -/
def pairText (pair : List Char × List Char) : List Char := pair.1 ++ ':' :: ' ' :: pair.2

theorem passesInside_pairText {pair : List Char × List Char} (hkey : Passes pair.1)
    (hvalue : Passes pair.2) : PassesInside (pairText pair) :=
  hkey.inside.append (.cons (.inl rfl) (.cons (.inr rfl) hvalue.inside))

/-- **Lists of pairs of items are the same if they are written the same.** -/
theorem commaSeparated_pairs_inj {as bs : List (List Char × List Char)}
    (has : ∀ a ∈ as, IsItem a.1 ∧ IsItem a.2) (hbs : ∀ b ∈ bs, IsItem b.1 ∧ IsItem b.2)
    (h : commaSeparated (as.map pairText) = commaSeparated (bs.map pairText)) : as = bs := by
  refine commaSeparated_map_inj (f := pairText)
    (fun a ha => List.append_ne_nil_of_left_ne_nil ha.1.ne_nil _) ?_ has hbs h
  rintro ⟨key, value⟩ ⟨key', value'⟩ rest rest' ⟨hkey, hvalue⟩ ⟨hkey', hvalue'⟩ hrest hrest' h
  rw [pairText, pairText, List.append_assoc, List.append_assoc] at h
  obtain ⟨hsame, htail⟩ :=
    hkey.append_inj hkey' (ends_cons (.inr rfl) _) (ends_cons (.inr rfl) _) h
  obtain ⟨hsame', rfl⟩ := hvalue.append_inj hvalue' hrest hrest'
    (List.cons.inj (List.cons.inj htail).2).2
  obtain rfl : key = key' := hsame
  obtain rfl : value = value' := hsame'
  exact ⟨rfl, rfl⟩

end SnapshotStore
