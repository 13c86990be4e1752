import SnapshotStore.Proofs.Store.Run

/-!
# Writing back what was loaded

A snapshot is read with infinite and undefined numbers in it, but it is not written with them. So a
store can write back what it loaded exactly when there are none, and the indent is one that can be
written (`IndentFits`).

**Theorem (`reply_apply_iff`).** On a disk that accepts the file, a mutation that adds a valid
document, or persists, returns exactly when all numbers are finite that the data holds afterwards.

**Theorem (`finite_of_plan`).** No mutation brings in a number that is not finite.
-/

namespace SnapshotStore

/-! ## Data with finite numbers -/

namespace Collections

/-- A document is in one of the collections. -/
def Holds (data : Collections) (doc : Document) : Prop :=
  ∃ entry ∈ data, doc ∈ entry.2.documents

/-- All numbers in the data are finite. -/
def Finite (data : Collections) : Prop := data.toValue.isJson Number.isFinite = true

variable {data : Collections} {name : String} {contents : Contents} {doc : Document}

theorem WellFormed.finite_iff (h : data.WellFormed) :
    data.Finite ↔ ∀ doc, data.Holds doc → doc.Finite := by
  unfold Finite
  rw [h.isJson_toValue_iff]
  exact ⟨fun hall doc ⟨entry, hentry, hdoc⟩ => hall entry hentry doc hdoc,
    fun hall entry hentry doc hdoc => hall doc ⟨entry, hentry, hdoc⟩⟩

theorem holds_of_lookup (h : data.lookup name = some contents) (hdoc : doc ∈ contents.documents) :
    data.Holds doc := by
  obtain ⟨before, after, rfl, -⟩ := List.lookup_eq_some_iff.mp h
  exact ⟨(name, contents), by simp, hdoc⟩

theorem holds_set (h : (data.set name contents).Holds doc) :
    doc ∈ contents.documents ∨ data.Holds doc := by
  obtain ⟨entry, hentry, hdoc⟩ := h
  obtain ⟨old, hold, rfl⟩ := List.mem_map.mp hentry
  split_ifs at hdoc
  · exact .inl hdoc
  · exact .inr ⟨old, hold, hdoc⟩

end Collections

/-! ## Dumping what was loaded -/

namespace Snapshot

/-- An indent with which a snapshot can be written. -/
def IndentFits (indent : Option Int) : Prop :=
  ∀ n ∈ indent, -(indentRange : Int) ≤ n ∧ n < (indentRange : Int)

theorem checkIndent_toValue {indent : Option Int} {data : Collections} :
    checkIndent indent data.toValue = .ok () ↔ IndentFits indent := by
  unfold IndentFits
  cases indent with
  | none => simp [checkIndent, Collections.toValue]
  | some n =>
    simp only [checkIndent, Collections.toValue, Option.mem_def, Option.some.injEq, forall_eq']
    split_ifs with hout
    · simp only [false_iff]
      omega
    · simp only [true_iff]
      omega

/-- Well-formed data has a text exactly when its numbers are finite and the indent fits. -/
theorem exists_dump_toValue_iff {indent : Option Int} {data : Collections} (h : data.WellFormed) :
    (∃ text, dump indent data.toValue = .ok text) ↔ IndentFits indent ∧ data.Finite := by
  rw [exists_dump_iff h.isJson_toValue, checkIndent_toValue]
  exact Iff.rfl

end Snapshot

/-! ## Mutations keep numbers finite -/

namespace Mutation

open Store

variable {s : Store} {disk : Disk} {fault : Option ReplaceStep}

/-- **No mutation brings in a number that is not finite.** -/
theorem finite_of_plan {m : Mutation} {data : Collections} {reply : Except Failure Reply}
    (hfinite : ∀ doc, s.data.Holds doc → doc.Finite) (h : m.plan s = .ok (.write data reply)) :
    ∀ doc, data.Holds doc → doc.Finite := by
  intro doc hdoc
  have hentries {name : String} {held : List (String × Document)}
      (hheld : s.entries name = .ok held) {entry : String × Document} (hentry : entry ∈ held) :
      entry.2.Finite :=
    hfinite _ (Collections.holds_of_lookup (lookup_of_entries hheld) (List.mem_map_of_mem hentry))
  cases writes_of_plan h with
  | create hprepare hheld =>
    obtain ⟨-, -, hnew, -⟩ := prepare_eq_ok hprepare
    rcases Collections.holds_set hdoc with hdoc | hdoc
    · obtain ⟨entry, hentry, rfl⟩ := List.mem_map.mp hdoc
      rcases Entries.mem_insert hentry with rfl | hentry
      · exact Document.finite_normalize hnew
      · exact hentries hheld hentry
    · exact hfinite doc hdoc
  | append _ hnew hdocs =>
    rcases Collections.holds_set hdoc with hdoc | hdoc
    · rcases List.mem_append.mp hdoc with hdoc | hdoc
      · exact hfinite doc (Collections.holds_of_lookup (lookup_of_log hdocs) hdoc)
      · obtain rfl := List.mem_singleton.mp hdoc
        exact Document.finite_normalize hnew
    · exact hfinite doc hdoc
  | update _ hpatch _ hheld hcurrent hmerged =>
    rcases Collections.holds_set hdoc with hdoc | hdoc
    · obtain ⟨entry, hentry, rfl⟩ := List.mem_map.mp hdoc
      rcases Entries.mem_insert hentry with rfl | hentry
      · exact isJson_merge (hentries hheld (Entries.mem_of_lookup hcurrent))
          (Document.finite_normalize hpatch) hmerged
      · exact hentries hheld hentry
    · exact hfinite doc hdoc
  | delete _ _ hheld =>
    rcases Collections.holds_set hdoc with hdoc | hdoc
    · obtain ⟨entry, hentry, rfl⟩ := List.mem_map.mp hdoc
      exact hentries hheld (List.mem_filter.mp hentry).1
    · exact hfinite doc hdoc
  | persist => exact hfinite doc hdoc

theorem finite_apply (m : Mutation) (hdata : s.data.WellFormed) (hfinite : s.data.Finite) :
    (m.apply s disk fault).store.data.Finite := by
  rw [apply_eq_carryOut]
  match hplan : m.plan s with
  | .error _ => exact hfinite
  | .ok (.leave _) => exact hfinite
  | .ok (.write data _) =>
    rw [Plan.carryOut_write_store]
    exact (wellFormed_of_plan hdata hplan).finite_iff.mpr
      (finite_of_plan (hdata.finite_iff.mp hfinite) hplan)

theorem finite_applyAll {actions : List (Mutation × Option ReplaceStep)}
    (hdata : s.data.WellFormed) (hfinite : s.data.Finite) :
    (applyAll s disk actions).1.data.Finite := by
  induction actions generalizing s disk with
  | nil => exact hfinite
  | cons action actions ih =>
    exact ih (wellFormed_apply action.1 hdata) (finite_apply action.1 hdata hfinite)

end Mutation

/-! ## Mutations that return -/

/-- The system lets the file at a path be replaced. -/
def Disk.Accepts (disk : Disk) (path : FilePath) : Prop :=
  ∀ content, (disk.replace path content none).1 = .ok ()

namespace Store

variable {s : Store} {disk : Disk}

theorem reply_persist_iff (hdata : s.data.WellFormed) (haccepts : disk.Accepts s.path) :
    (s.persist disk).reply = .ok () ↔ Snapshot.IndentFits s.indent ∧ s.data.Finite := by
  rw [← Snapshot.exists_dump_toValue_iff hdata]
  unfold persist writeThrough
  split
  · next e hdump =>
    rw [hdump]
    simp [Step.fail]
  · next text hdump =>
    rw [hdump]
    have hok := haccepts text.toUTF8
    split
    · simp
    · next hreplace =>
      rw [hreplace] at hok
      cases hok
    · next hreplace =>
      rw [hreplace] at hok
      cases hok

/-- A document in its stored form is handed out as it is. -/
theorem copy_normalize {v : Value} {doc : Document} (h : Document.normalize v = .ok doc) :
    copy doc = .ok doc := by
  have hjson := Value.isJson_and.mpr ⟨Document.stored_normalize h, Document.finite_normalize h⟩
  have hclean : (Value.object doc).clean Document.copyStyle = .ok (.object doc) := by
    refine Value.clean_of_isJson (Value.isJson_mono (fun n hn => ?_) hjson)
    obtain ⟨hshort, hfinite⟩ := Bool.and_eq_true_iff.mp hn
    simp [Json.Style.admits, Document.copyStyle, hshort, Number.isDefined_of_isFinite hfinite]
  rw [Value.clean] at hclean
  obtain ⟨pairs, hpairs, hdoc⟩ := bind_eq_ok.mp hclean
  refine mapError_eq_ok.mpr (bind_eq_ok.mpr ⟨pairs, hpairs, ?_⟩)
  rw [Value.object.inj (Except.ok.inj hdoc)]

end Store

namespace Mutation

open Store

/-- A mutation that adds a valid document, or only writes. -/
def Adds : Mutation → Prop
  | create name v => ∃ prepared, prepare name v = .ok prepared
  | append name v => kindOf? name = some .appendOnly ∧ ∃ doc, Document.normalize v = .ok doc
  | update _ _ _ => False
  | delete _ _ => False
  | persist => True

variable {s : Store} {disk : Disk}

theorem plan_of_adds {m : Mutation} (hadds : m.Adds) (hdata : s.data.WellFormed) :
    ∃ data reply, m.plan s = .ok (.write data (.ok reply)) := by
  cases m with
  | create name v =>
    obtain ⟨⟨key, doc⟩, hprepare⟩ := hadds
    obtain ⟨field, hkind, hdoc, -⟩ := prepare_eq_ok hprepare
    obtain ⟨contents, hlookup, hfits⟩ := hdata.exists_lookup hkind
    cases contents with
    | keyed entries =>
      have hentries : s.entries name = .ok entries := by
        simp only [Store.entries, Store.contents, kind_eq_ok.mpr hkind, hlookup, bind, Except.bind]
      simp only [plan, hprepare, hentries, copy_normalize hdoc, bind, Except.bind]
      exact ⟨_, _, rfl⟩
    | appendOnly docs => exact hfits.elim
  | append name v =>
    obtain ⟨hkind, doc, hdoc⟩ := hadds
    obtain ⟨contents, hlookup, hfits⟩ := hdata.exists_lookup hkind
    cases contents with
    | keyed entries => exact hfits.elim
    | appendOnly docs =>
      have hdocs : s.log name = .ok docs := by
        simp only [Store.log, Store.contents, kind_eq_ok.mpr hkind, hlookup, bind, Except.bind]
      simp only [plan, kind_eq_ok.mpr hkind, mapError_eq_ok.mpr hdoc, hdocs, copy_normalize hdoc,
        bind, Except.bind]
      exact ⟨_, _, rfl⟩
  | update name id patch => exact hadds.elim
  | delete name id => exact hadds.elim
  | persist => exact ⟨_, _, rfl⟩

/-- **A mutation that adds something returns** exactly when the data can be written afterwards. -/
theorem reply_apply_iff {m : Mutation} (hadds : m.Adds) (hdata : s.data.WellFormed)
    (haccepts : disk.Accepts s.path) :
    (∃ reply, (m.apply s disk).reply = .ok reply) ↔
      Snapshot.IndentFits s.indent ∧ (m.apply s disk).store.data.Finite := by
  obtain ⟨data, reply, hplan⟩ := plan_of_adds hadds hdata
  have hnew := wellFormed_of_plan hdata hplan
  rw [apply_eq_carryOut, hplan, Plan.carryOut_write_store]
  refine Iff.trans ?_ (reply_persist_iff (s := { s with data }) hnew haccepts)
  change (∃ reply', ((Store.persist { s with data } disk).reply.bind fun _ => .ok reply) =
    .ok reply') ↔ _
  cases (Store.persist { s with data } disk).reply with
  | error failure => simp [Except.bind]
  | ok => simp [Except.bind]

end Mutation

/-! ## Stores on a snapshot that was accepted -/

namespace Store

/-- **What was loaded can be written back exactly when its numbers are finite.** Then the text loads
as the same data, and a store that was opened on it never fails to add a document or to persist, as
long as the disk accepts the file; otherwise it fails until no such number is left. -/
theorem writeBack_iff {disk : Disk} {path : FilePath} {data : Collections}
    (hload : (Snapshot.load disk path).outcome = .ok (some data)) :
    (∀ indent, (∃ text, Snapshot.dump indent data.toValue = .ok text) ↔
        Snapshot.IndentFits indent ∧ data.Finite) ∧
      (∀ indent text disk' path', Snapshot.dump indent data.toValue = .ok text →
        disk'.read path' = .ok text.toUTF8 →
          Snapshot.load disk' path' = ⟨[], .ok (some data)⟩) ∧
      ∀ settings strict stamp faults s,
        (openWith settings disk (some path) strict stamp faults).store = .ok s →
          s.data = data ∧ s.indent = settings.snapshotIndent ∧
          ∀ actions disk₀ disk' (m : Mutation), m.Adds → disk'.Accepts s.path →
            let s' := (Mutation.applyAll s disk₀ actions).1
            ((∃ reply, (m.apply s' disk').reply = .ok reply) ↔
                Snapshot.IndentFits s.indent ∧ (m.apply s' disk').store.data.Finite) ∧
              (data.Finite → (m.apply s' disk').store.data.Finite) := by
  have hdata := Snapshot.wellFormed_load hload
  refine ⟨fun indent => Snapshot.exists_dump_toValue_iff hdata,
    fun indent text disk' path' htext hread => Snapshot.load_dump hdata htext hread, ?_⟩
  intro settings strict stamp faults s hopen
  obtain rfl : ⟨path, strict.getD settings.strictQueries, settings.snapshotIndent, data⟩ = s :=
    Except.ok.inj ((congrArg Opened.store (openAt_of_load hload)).symm.trans hopen)
  refine ⟨rfl, rfl, fun actions disk₀ disk' m hadds haccepts => ?_⟩
  have hrun := Mutation.wellFormed_applyAll disk₀ actions (wellFormed_openAt hopen)
  obtain ⟨hpath, hindent⟩ := Mutation.applyAll_settings
    ⟨path, strict.getD settings.strictQueries, settings.snapshotIndent, data⟩ disk₀ actions
  refine ⟨?_, fun hfinite => Mutation.finite_apply m hrun (Mutation.finite_applyAll hdata hfinite)⟩
  rw [← hindent]
  exact Mutation.reply_apply_iff hadds hrun (hpath ▸ haccepts)

/-- A disk whose working directory holds a snapshot with one order. -/
def orderDisk : Disk :=
  ⟨[(["db.json"], .file "\x7b\"orders\":[\x7b\"x\":1\x7d]\x7d".toUTF8 fileMode)]⟩

/-- The data that is loaded from it. -/
def orderData : Collections := Collections.set .empty "orders" (.appendOnly [[(.str "x", .int 1)]])

theorem load_orderDisk : (Snapshot.load orderDisk barePath).outcome = .ok (some orderData) := by
  have hparse : Json.parse "\x7b\"orders\":[\x7b\"x\":1\x7d]\x7d" =
      .ok (.object [(.str "orders", .list [.object [(.str "x", .int 1)]])]) := by
    simp only [Json.parse, String.reduceToList]
    rfl
  exact Snapshot.load_eq_ok.mpr ⟨_, _, by rfl, Snapshot.decode_toUTF8 hparse, by rfl⟩

/-- One order is written back, alone and with another one. -/
theorem writeBack_iff_orderDisk :
    (∃ text, Snapshot.dump (some 2) orderData.toValue = .ok text ∧ ∀ disk path,
        disk.read path = .ok text.toUTF8 → Snapshot.load disk path = ⟨[], .ok (some orderData)⟩) ∧
      ∃ s, (openWith {} orderDisk (some barePath) none "" {}).store = .ok s ∧ s.data = orderData ∧
        ∃ reply, ((Mutation.append "orders" (.object [])).apply s orderDisk).reply = .ok reply := by
  obtain ⟨hdump, hback, hstores⟩ := writeBack_iff load_orderDisk
  have hindent : Snapshot.IndentFits (some 2) := by
    intro n hn
    obtain rfl := Option.some.inj hn
    decide
  have hfinite : orderData.Finite := by
    unfold Collections.Finite
    decide +kernel
  obtain ⟨text, htext⟩ := (hdump (some 2)).mpr ⟨hindent, hfinite⟩
  refine ⟨⟨text, htext, fun disk path hread => hback _ _ disk path htext hread⟩, ?_⟩
  have hopen : (openWith {} orderDisk (some barePath) none "" {}).store =
      .ok ⟨barePath, false, some 2, orderData⟩ :=
    congrArg Opened.store (openAt_of_load load_orderDisk)
  obtain ⟨hdata, -, hruns⟩ := hstores {} none "" {} _ hopen
  have hadds : (Mutation.append "orders" (.object [])).Adds := ⟨rfl, [], rfl⟩
  obtain ⟨hreply, hkept⟩ := hruns [] orderDisk orderDisk _ hadds fun _ => rfl
  exact ⟨_, hopen, hdata, hreply.mpr ⟨hindent, hkept hfinite⟩⟩

/-- A disk whose working directory holds a snapshot with an undefined number. -/
def undefinedDisk : Disk :=
  ⟨[(["db.json"], .file "\x7b\"orders\":[\x7b\"x\":NaN\x7d]\x7d".toUTF8 fileMode)]⟩

/-- The data that is loaded from it. -/
def undefinedData : Collections :=
  Collections.set .empty "orders" (.appendOnly [[(.str "x", .float (.nan 0))]])

/-- A snapshot with an undefined number is loaded, but it is not written back: neither is there a
text, nor does a store that was opened on it persist. -/
theorem not_writeBack_undefined :
    (Snapshot.load undefinedDisk barePath).outcome = .ok (some undefinedData) ∧
      (¬ ∃ text, Snapshot.dump (some 2) undefinedData.toValue = .ok text) ∧
      (openWith {} undefinedDisk (some barePath) none "" {}).store =
        .ok ⟨barePath, false, some 2, undefinedData⟩ ∧
      undefinedDisk.Accepts barePath ∧
      ((⟨barePath, false, some 2, undefinedData⟩ : Store).persist undefinedDisk).reply ≠
        .ok () := by
  have hparse : Json.parse "\x7b\"orders\":[\x7b\"x\":NaN\x7d]\x7d" =
      .ok (.object [(.str "orders", .list [.object [(.str "x", .float (.nan 0))]])]) := by
    simp only [Json.parse, String.reduceToList]
    rfl
  have hload : (Snapshot.load undefinedDisk barePath).outcome = .ok (some undefinedData) :=
    Snapshot.load_eq_ok.mpr ⟨_, _, by rfl, Snapshot.decode_toUTF8 hparse, by rfl⟩
  have hdata := Snapshot.wellFormed_load hload
  have hfinite : ¬ undefinedData.Finite := by
    unfold Collections.Finite
    decide +kernel
  have haccepts : undefinedDisk.Accepts barePath := fun _ => rfl
  refine ⟨hload, fun htext => hfinite ((Snapshot.exists_dump_toValue_iff hdata).mp htext).2,
    congrArg Opened.store (openAt_of_load hload), haccepts, fun hreply => hfinite ?_⟩
  exact ((reply_persist_iff (s := ⟨barePath, false, some 2, undefinedData⟩) hdata haccepts).mp
    hreply).2

end Store

end SnapshotStore
