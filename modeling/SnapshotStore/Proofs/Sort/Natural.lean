import Mathlib.Data.List.Basic
import SnapshotStore.Sort

/-!
# Sorting images

**Theorem (`sortM_map`).** To sort the images of elements under a function is to sort the elements
by how their images compare, and then to take images.

The sort looks at elements only through its comparison, so each of its parts is natural in the
elements. The lemmas follow the parts in the order in which they are defined. Wherever a part
branches on the shape of a list, the list of images has the same shape; wherever it branches on a
comparison, both sides have asked the same question.

This lets elements carry more than is compared: their place in the input, or the proof that they
belong to it.
-/

namespace SnapshotStore.Sort

variable {m : Type → Type} [Monad m] [LawfulMonad m] {α β : Type} (f : α → β)
  (lt : β → β → m Bool)

/-! ## Searching -/

section

variable (after : β → m Bool) (xs : List α)

omit [LawfulMonad m] in
theorem probe_map (i : Nat) : probe after (xs.map f) i = probe (fun x => after (f x)) xs i := by
  unfold probe
  rw [List.getElem?_map]
  cases xs[i]? <;> rfl

omit [LawfulMonad m] in
theorem bisect_map (low high : Nat) :
    bisect after (xs.map f) low high = bisect (fun x => after (f x)) xs low high := by
  induction low, high using bisect.induct with
  | case1 low high hlt middle ihleft ihright =>
    rw [bisect, bisect, if_pos hlt, if_pos hlt]
    simp only [probe_map]
    exact bind_congr fun met => by rw [ihleft, ihright]
  | case2 low high hge => rw [bisect, bisect, if_neg hge, if_neg hge]

omit [LawfulMonad m] in
theorem gallop_map (hint : Nat) :
    gallop after (xs.map f) hint = gallop (fun x => after (f x)) xs hint := by
  simp only [gallop, probe_map, bisect_map, List.length_map]

end

/-! ## Runs -/

theorem climb_map (last : α) (xs : List α) :
    climb lt (f last) (xs.map f) =
      Prod.map (List.map f) (List.map f) <$> climb (fun x y => lt (f x) (f y)) last xs := by
  induction xs generalizing last with
  | nil => simp [climb]
  | cons x xs ih =>
    simp only [climb, List.map_cons, ih, map_bind, bind_map_left]
    refine bind_congr fun less => ?_
    cases less <;> simp

theorem fall_map (last : α) (turned xs : List α) :
    fall lt (f last) (turned.map f) (xs.map f) =
      Prod.map (List.map f) (List.map f) <$> fall (fun x y => lt (f x) (f y)) last turned xs := by
  induction xs generalizing last turned with
  | nil => simp [fall]
  | cons x xs ih =>
    simp only [fall, List.map_cons, map_bind]
    refine bind_congr fun less => ?_
    cases less
    · simp
    · exact ih x (x :: turned)

theorem splitRun_map (xs : List α) :
    splitRun lt (xs.map f) =
      Prod.map (List.map f) (List.map f) <$> splitRun (fun x y => lt (f x) (f y)) xs := by
  match xs with
  | [] => simp [splitRun]
  | [x] => simp [splitRun]
  | x :: y :: xs =>
    simp only [splitRun, List.map_cons, map_bind]
    refine bind_congr fun less => ?_
    cases less
    · simp [climb_map]
    · exact fall_map f lt y [y, x] xs

theorem insertInto_map (run : List α) (x : α) :
    insertInto lt (run.map f) (f x) =
      List.map f <$> insertInto (fun x y => lt (f x) (f y)) run x := by
  simp [insertInto, bisect_map]

theorem insertAll_map (run xs : List α) :
    insertAll lt (run.map f) (xs.map f) =
      List.map f <$> insertAll (fun x y => lt (f x) (f y)) run xs := by
  induction xs generalizing run with
  | nil => simp [insertAll]
  | cons x xs ih =>
    simp only [insertAll, List.map_cons, insertInto_map, bind_map_left, ih, map_bind]

theorem nextRun_map (least : Nat) (xs : List α) :
    nextRun lt least (xs.map f) =
      Prod.map (List.map f) (List.map f) <$> nextRun (fun x y => lt (f x) (f y)) least xs := by
  simp only [nextRun, splitRun_map, bind_map_left, map_bind]
  refine bind_congr fun ⟨run, rest⟩ => ?_
  simp only [Prod.map, ← List.map_take, List.length_map, insertAll_map, bind_map_left]
  refine bind_congr fun run => ?_
  simp

/-! ## Merging -/

theorem frontEnd?_map (first second : List α) :
    frontEnd? (first.map f) (second.map f) = (frontEnd? first second).map (List.map f) := by
  rcases first with _ | ⟨x, _ | ⟨x', first⟩⟩ <;> rcases second with _ | ⟨y, second⟩ <;>
    simp [frontEnd?]

theorem backEnd?_map (first second done : List α) :
    backEnd? (first.map f) (second.map f) (done.map f) =
      (backEnd? first second done).map (List.map f) := by
  rcases first with _ | ⟨x, first⟩ <;> rcases second with _ | ⟨y, _ | ⟨y', second⟩⟩ <;>
    simp [backEnd?]

theorem mergeFront_map (fuel : Nat) (pace : Pace) (threshold : Nat) (first second : List α) :
    mergeFront lt fuel pace threshold (first.map f) (second.map f) =
      Prod.map (List.map f) id <$>
        mergeFront (fun x y => lt (f x) (f y)) fuel pace threshold first second := by
  induction fuel generalizing pace threshold first second with
  | zero => simp [mergeFront]
  | succ fuel ih =>
    unfold mergeFront
    rw [frontEnd?_map]
    cases frontEnd? first second with
    | some rest => simp
    | none =>
      rcases first with _ | ⟨x, first⟩
      · simp
      rcases second with _ | ⟨y, second⟩
      · simp
      rw [Option.map_none, List.map_cons, List.map_cons]
      dsimp only
      split
      · rw [map_bind]
        refine bind_congr fun less => ?_
        cases less
        · rw [if_neg Bool.false_ne_true, if_neg Bool.false_ne_true, ← List.map_cons, ih]
          simp
        · rw [if_pos rfl, if_pos rfl, ← List.map_cons, ih]
          simp
      · rw [← List.map_cons, gallop_map, map_bind]
        refine bind_congr fun a => ?_
        rw [← List.map_take, ← List.map_drop, ← List.map_cons, frontEnd?_map]
        cases frontEnd? ((x :: first).drop a) (y :: second) with
        | some rest => simp
        | none =>
          cases (x :: first).drop a with
          | nil => simp
          | cons z rest =>
            rw [Option.map_none, List.map_cons]
            dsimp only
            rw [← List.map_cons, frontEnd?_map]
            cases frontEnd? (z :: rest) second with
            | some rest => simp
            | none =>
              dsimp only [Option.map_none]
              rw [gallop_map, map_bind]
              refine bind_congr fun b => ?_
              rw [← List.map_drop, ← List.map_take, frontEnd?_map]
              cases frontEnd? (z :: rest) (second.drop b) with
              | some rest => simp
              | none =>
                dsimp only [Option.map_none]
                rw [ih]
                simp

theorem mergeBack_map (fuel : Nat) (pace : Pace) (threshold : Nat) (first second done : List α) :
    mergeBack lt fuel pace threshold (first.map f) (second.map f) (done.map f) =
      Prod.map (List.map f) id <$>
        mergeBack (fun x y => lt (f x) (f y)) fuel pace threshold first second done := by
  induction fuel generalizing pace threshold first second done with
  | zero => simp [mergeBack]
  | succ fuel ih =>
    unfold mergeBack
    rw [backEnd?_map]
    cases backEnd? first second done with
    | some all => simp
    | none =>
      rcases first with _ | ⟨x, first⟩
      · simp
      rcases second with _ | ⟨y, second⟩
      · simp
      rw [Option.map_none, List.map_cons, List.map_cons]
      dsimp only
      split
      · rw [map_bind]
        refine bind_congr fun less => ?_
        cases less
        · rw [if_neg Bool.false_ne_true, if_neg Bool.false_ne_true, ← List.map_cons,
            ← List.map_cons, ih]
        · rw [if_pos rfl, if_pos rfl, ← List.map_cons, ← List.map_cons, ih]
      · rw [← List.map_cons, ← List.map_reverse, gallop_map, map_bind, List.length_map]
        refine bind_congr fun a => ?_
        rw [← List.map_take, ← List.map_drop, ← List.map_reverse, ← List.map_append,
          ← List.map_cons, backEnd?_map]
        generalize (x :: first).length - a = a
        cases backEnd? ((x :: first).drop a) (y :: second)
            (((x :: first).take a).reverse ++ done) with
        | some all => simp
        | none =>
          cases (x :: first).drop a with
          | nil => simp
          | cons z rest =>
            rw [Option.map_none, List.map_cons]
            dsimp only
            rw [← List.map_cons, ← List.map_cons, backEnd?_map]
            cases backEnd? (z :: rest) second (y :: (((x :: first).take a).reverse ++ done)) with
            | some all => simp
            | none =>
              dsimp only [Option.map_none]
              rw [← List.map_reverse, gallop_map, map_bind, List.length_map]
              refine bind_congr fun b => ?_
              rw [← List.map_drop, ← List.map_take, ← List.map_reverse, ← List.map_append,
                backEnd?_map]
              generalize second.length - b = b
              cases backEnd? (z :: rest) (second.drop b) ((second.take b).reverse ++
                  y :: (((x :: first).take a).reverse ++ done)) with
              | some all => simp
              | none =>
                dsimp only [Option.map_none]
                rw [← List.map_cons, ih]

theorem mergeOverlap_map (threshold : Nat) (first second : List α) :
    mergeOverlap lt threshold (first.map f) (second.map f) =
      Prod.map (List.map f) id <$>
        mergeOverlap (fun x y => lt (f x) (f y)) threshold first second := by
  simp only [mergeOverlap, List.length_map]
  split_ifs
  · rcases second with _ | ⟨y, second⟩
    · simp
    · simp [mergeFront_map]
  · rw [← List.map_reverse]
    rcases first.reverse with _ | ⟨x, rest⟩
    · simp
    · dsimp only [List.map_cons]
      rw [← List.map_reverse]
      exact mergeBack_map f lt _ _ _ rest second.reverse [x]

theorem mergeRuns_map (threshold : Nat) (first second : List α) :
    mergeRuns lt threshold (first.map f) (second.map f) =
      Prod.map (List.map f) id <$>
        mergeRuns (fun x y => lt (f x) (f y)) threshold first second := by
  rcases second with _ | ⟨y, second⟩
  · simp [mergeRuns]
  · simp only [mergeRuns, List.map_cons]
    rw [gallop_map, map_bind]
    refine bind_congr fun start => ?_
    rw [← List.map_drop, ← List.map_cons, List.getLast?_map]
    cases (first.drop start).getLast? with
    | none => simp
    | some x =>
      dsimp only [Option.map_some]
      rw [gallop_map, map_bind, List.length_map]
      refine bind_congr fun stop => ?_
      rw [← List.map_take, mergeOverlap_map]
      simp

/-! ## Runs that wait -/

/-- A run of images. -/
def Pending.map (run : Pending α) : Pending β := { run with items := run.items.map f }

theorem mergeAbove_map (power fuel threshold : Nat) (runs : List (Pending α)) :
    mergeAbove lt power fuel threshold (runs.map (.map f)) =
      Prod.map (List.map (.map f)) id <$>
        mergeAbove (fun x y => lt (f x) (f y)) power fuel threshold runs := by
  induction fuel generalizing threshold runs with
  | zero => simp [mergeAbove]
  | succ fuel ih =>
    rcases runs with _ | ⟨top, _ | ⟨below, rest⟩⟩
    · simp [mergeAbove]
    · simp [mergeAbove]
    · simp only [mergeAbove, List.map_cons]
      change (if power < below.power then _ else _) = _
      split_ifs
      · simp only [Pending.map, mergeRuns_map, bind_map_left, map_bind]
        exact bind_congr fun merged => ih _ ({ below with items := merged.1 } :: rest)
      · simp

theorem pushRun_map (whole threshold start : Nat) (items : List α) (runs : List (Pending α)) :
    pushRun lt whole threshold start (items.map f) (runs.map (.map f)) =
      Prod.map (List.map (.map f)) id <$>
        pushRun (fun x y => lt (f x) (f y)) whole threshold start items runs := by
  cases runs with
  | nil => simp [pushRun, Pending.map]
  | cons top rest =>
    unfold pushRun
    rw [List.map_cons]
    dsimp only
    rw [← List.map_cons, mergeAbove_map]
    simp only [Pending.map, List.length_map, bind_map_left, map_bind]
    refine bind_congr fun merged => ?_
    rcases merged with ⟨_ | ⟨top, rest⟩, threshold⟩ <;> simp [Pending.map]

theorem gather_map (whole fuel threshold start : Nat) (xs : List α) (runs : List (Pending α)) :
    gather lt whole fuel threshold start (xs.map f) (runs.map (.map f)) =
      Prod.map (List.map (.map f)) id <$>
        gather (fun x y => lt (f x) (f y)) whole fuel threshold start xs runs := by
  induction fuel generalizing threshold start xs runs with
  | zero => simp [gather]
  | succ fuel ih =>
    cases xs with
    | nil => simp [gather]
    | cons x xs =>
      rw [gather, List.map_cons]
      dsimp only [gather]
      rw [← List.map_cons, nextRun_map]
      simp only [bind_map_left, map_bind]
      refine bind_congr fun ⟨run, rest⟩ => ?_
      dsimp only [Prod.map]
      rw [pushRun_map]
      simp only [bind_map_left, List.length_map]
      exact bind_congr fun ⟨runs, threshold⟩ => ih ..

theorem flatMap_items_map (runs : List (Pending α)) :
    (runs.map (Pending.map f)).reverse.flatMap (·.items) =
      (runs.reverse.flatMap (·.items)).map f := by
  rw [← List.map_reverse, List.flatMap_map, List.map_flatMap]
  rfl

theorem collapse_map (fuel threshold : Nat) (runs : List (Pending α)) :
    collapse lt fuel threshold (runs.map (.map f)) =
      List.map f <$> collapse (fun x y => lt (f x) (f y)) fuel threshold runs := by
  induction fuel generalizing threshold runs with
  | zero =>
    match runs with
    | [] => simp [collapse]
    | [run] => simp [collapse, Pending.map]
    | [top, second] => simp [collapse, Pending.map, mergeRuns_map]
    | top :: second :: third :: rest =>
      simp [collapse, Pending.map, flatMap_items_map]
  | succ fuel ih =>
    match runs with
    | [] => simp [collapse]
    | [run] => simp [collapse, Pending.map]
    | [top, second] => simp [collapse, Pending.map, mergeRuns_map]
    | top :: second :: third :: rest =>
      simp only [List.map_cons, collapse]
      simp only [Pending.map, List.length_map]
      split_ifs
      · simp only [mergeRuns_map, bind_map_left, map_bind]
        exact bind_congr fun merged => ih _ (top :: { third with items := merged.1 } :: rest)
      · simp only [mergeRuns_map, bind_map_left, map_bind]
        exact bind_congr fun merged => ih _ ({ second with items := merged.1 } :: third :: rest)

/-! ## The whole sort -/

/-- **Sorting images gives the images of what is sorted**, if the images are compared. -/
theorem sortM_map (xs : List α) :
    sortM lt (xs.map f) = List.map f <$> sortM (fun x y => lt (f x) (f y)) xs := by
  have hgather := gather_map f lt xs.length xs.length longStretch 0 xs []
  rw [List.map_nil] at hgather
  simp only [sortM, List.length_map, hgather, bind_map_left, map_bind]
  refine bind_congr fun ⟨runs, threshold⟩ => ?_
  simp only [Prod.map, List.length_map, id, collapse_map]

omit [LawfulMonad m] [Monad m] in
theorem sort_map (lt : β → β → Bool) (xs : List α) :
    sort lt (xs.map f) = (sort (fun x y => lt (f x) (f y)) xs).map f := by
  unfold sort
  rw [sortM_map]
  rfl

end SnapshotStore.Sort
