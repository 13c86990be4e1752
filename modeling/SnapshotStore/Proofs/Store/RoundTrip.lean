import SnapshotStore.Proofs.Store.WriteBack

/-!
# Texts of snapshots

**Theorem (`dump_roundTrip`).** A value that JSON holds exactly (`Plain`) has a text for each indent
that fits, and every text of it reads back as the value itself. So it has the same text again, its
texts with different indents stand for the same value, and what a written snapshot loads as is what
the check makes of the value.

An indent that does not fit leaves no text (`not_dump_roundTrip`), except to a value that is a text
itself. Replacing a file keeps its mode, so a file that may be written but not read is replaced and
does not load.
-/

namespace SnapshotStore

namespace Snapshot

/-- Made of what JSON holds, with finite numbers and without integers that are too long. -/
def Plain (v : Value) : Prop := v.isJson (fun n => n.isShort && n.isFinite) = true

theorem checkIndent_iff {indent : Option Int} {v : Value} :
    checkIndent indent v = .ok () ↔ (∃ s, v = .str s) ∨ IndentFits indent := by
  by_cases htext : ∃ s, v = .str s
  · obtain ⟨s, rfl⟩ := htext
    exact iff_of_true rfl (.inl ⟨s, rfl⟩)
  · have hsame : checkIndent indent v = checkIndent indent Collections.empty.toValue := by
      cases v with
      | str s => exact absurd ⟨s, rfl⟩ htext
      | _ => cases indent <;> rfl
    rw [hsame, checkIndent_toValue, or_iff_right htext]

section

variable {v : Value} {indent : Option Int} {text : String}

theorem Plain.exists_dump_iff (h : Plain v) :
    (∃ text, dump indent v = .ok text) ↔ (∃ s, v = .str s) ∨ IndentFits indent := by
  obtain ⟨hshort, hfinite⟩ := Value.isJson_and.mp h
  rw [Snapshot.exists_dump_iff hshort, checkIndent_iff, and_iff_left hfinite]

theorem Plain.decode_dump (h : Plain v) (htext : dump indent v = .ok text) :
    decode text.toUTF8 = .ok v :=
  Snapshot.decode_dump (Value.isJson_and.mp h).1 htext

/-- What was written loads as what the check makes of the value. -/
theorem Plain.load_write (h : Plain v) {disk disk' : Disk} {path : FilePath} {data : Collections}
    {fault : Option ReplaceStep} (hreadable : disk.Readable path)
    (hwrite : write disk path v indent fault = (.ok (), disk'))
    (hcheck : (check v).outcome = .ok data) : (load disk' path).outcome = .ok (some data) := by
  unfold write at hwrite
  split at hwrite
  · cases hwrite
  · next text htext =>
    have hcases := disk.replace_cases path text.toUTF8 fault
    generalize disk.replace path text.toUTF8 fault = result at hwrite hcases
    obtain ⟨outcome, replaced⟩ := result
    obtain ⟨hok, rfl⟩ := Prod.mk.inj hwrite
    obtain rfl := mapError_eq_ok.mp hok
    rcases hcases with ⟨cause, hfailed, -⟩ | ⟨-, hexchange⟩
    · cases hfailed
    · exact load_eq_ok.mpr
        ⟨_, v, Disk.read_exchange hreadable hexchange, h.decode_dump htext, hcheck⟩

end

/-- **The text of a value is the value.** -/
theorem dump_roundTrip {v : Value} (h : Plain v) :
    (∀ indent, (∃ text, dump indent v = .ok text) ↔ (∃ s, v = .str s) ∨ IndentFits indent) ∧
      (∀ indent text, dump indent v = .ok text →
        decode text.toUTF8 = .ok v ∧
          ∀ w, decode text.toUTF8 = .ok w → dump indent w = .ok text) ∧
      (∀ indent indent' text text', dump indent v = .ok text → dump indent' v = .ok text' →
        decode text.toUTF8 = decode text'.toUTF8) ∧
      ∀ data, (check v).outcome = .ok data → ∀ indent disk path fault disk',
        disk.Readable path → write disk path v indent fault = (.ok (), disk') →
          (load disk' path).outcome = .ok (some data) := by
  refine ⟨fun _ => h.exists_dump_iff, fun indent text htext => ⟨h.decode_dump htext, ?_⟩, ?_, ?_⟩
  · intro w hw
    obtain rfl : v = w := Except.ok.inj ((h.decode_dump htext).symm.trans hw)
    exact htext
  · intro indent indent' text text' htext htext'
    rw [h.decode_dump htext, h.decode_dump htext']
  · intro data hcheck indent disk path fault disk' hreadable hwrite
    exact h.load_write hreadable hwrite hcheck

/-- Numbers of all kinds and texts that need escapes, on broken lines without indentation. -/
theorem dump_roundTrip_plain :
    let v : Value := .object [(.str "\"\n", .list [.float (.zero true), .int 0, .list []]),
      (.str "", .object [(.str "\u2028", .bool false), (.str "b", .float (.ofInt 1))])]
    Plain v ∧ ∃ text, dump (some (-1)) v = .ok text ∧ decode text.toUTF8 = .ok v := by
  intro v
  have hplain : Plain v := by
    unfold Plain
    decide +kernel
  obtain ⟨hdump, hdecode, -, -⟩ := dump_roundTrip hplain
  obtain ⟨text, htext⟩ := (hdump (some (-1))).mpr (.inr (by unfold IndentFits; decide))
  exact ⟨hplain, text, htext, (hdecode _ text htext).1⟩

/-- A disk whose working directory holds a file that may be written but not read. -/
def unreadableDisk : Disk := ⟨[(["db.json"], .file .empty 0o200)]⟩

/-- An indent that no machine word counts gives no text, and a file that may not be read is written
and does not load. -/
theorem not_dump_roundTrip :
    Plain (.list []) ∧ (¬ ∃ text, dump (some 9223372036854775808) (.list []) = .ok text) ∧
      Plain Collections.empty.toValue ∧
        (check Collections.empty.toValue).outcome = .ok .empty ∧
        ∃ disk', write unreadableDisk Store.barePath Collections.empty.toValue none none =
          (.ok (), disk') ∧
          load disk' Store.barePath =
            ⟨[], .error (.unreadable Store.barePath (.disk .denied))⟩ := by
  have hlist : Plain (.list []) := rfl
  have hempty : Plain Collections.empty.toValue := by
    unfold Plain
    decide +kernel
  have hnone : ¬ ∃ text, dump (some 9223372036854775808) (.list []) = .ok text := by
    rw [hlist.exists_dump_iff]
    rintro (⟨s, hs⟩ | hfits)
    · cases hs
    · exact absurd (hfits _ rfl) (by decide)
  have hcheck : (check Collections.empty.toValue).outcome = .ok .empty := by
    rw [check_toValue .empty]
  have hdump : ∃ text, dump none Collections.empty.toValue = .ok text :=
    hempty.exists_dump_iff.mpr (.inr fun n hn => nomatch hn)
  obtain ⟨text, htext⟩ := hdump
  have hreplace : (unreadableDisk.replace Store.barePath text.toUTF8 none).1 = .ok () := rfl
  have hread : (unreadableDisk.replace Store.barePath text.toUTF8 none).2.read Store.barePath =
      .error .denied := by
    have hmode : (Node.file text.toUTF8 0o200).permits .read = false := by
      show Nat.testBit 0o200 Permission.read.bit = false
      decide
    show (if (Node.file text.toUTF8 0o200).permits .read then _ else _) = _
    rw [hmode]
    rfl
  refine ⟨hlist, hnone, hempty, hcheck,
    (unreadableDisk.replace Store.barePath text.toUTF8 none).2, ?_, ?_⟩
  · simp only [write, htext, hreplace]
    rfl
  · simp only [load, hread]

end Snapshot

end SnapshotStore
