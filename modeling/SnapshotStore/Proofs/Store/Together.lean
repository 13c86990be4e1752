import Mathlib.Logic.Relation
import SnapshotStore.Proofs.Store.Run

/-!
# Tasks that are started together

Mutations may be started together and run as tasks. Each waits for the store's lock, finds what it
needs and changes the data, and holds the lock until the snapshot is written. The write goes on
beside the other tasks, which may be started and refused meanwhile, but cannot take the lock
(`Tasks.Step`). What is written is the data as it was when the lock was taken.

**Theorem (`serial_of_stuck`).** Tasks that were started together have come to an end when nothing
can happen any more, and then they have run one after the other in some order: store, disk and
replies are those of `Mutation.applyAll`. They come to an end in any case (`Step.todo_lt`).

A task has its place in that order from when it takes the lock (`Serial`), since the data is changed
then. Its write belongs to the disk that is still to come (`Tasks.settled`).
-/

namespace SnapshotStore

/-- A mutation to run, with the step at which its write fails, if any. -/
abbrev Task := Mutation × Option ReplaceStep

/-- A task that holds the lock while its write goes on: the store as it was left by the task, and
what it is about to reply. -/
structure Writing where
  task : Task
  view : Store
  reply : Except Failure Reply

/-- Tasks that were started together: those that wait, the one that holds the lock, and those that
have replied. -/
structure Tasks where
  store : Store
  disk : Disk
  waiting : List Task
  writing : Option Writing
  replied : List (Task × Except Failure Reply)

/-- What comes of a write. -/
def Writing.step (w : Writing) (disk : Disk) : Step Store Reply :=
  (w.view.persist disk w.task.2).reply? fun _ => w.reply

namespace Tasks

/-- Tasks that were just started. -/
def start (s : Store) (disk : Disk) (tasks : List Task) : Tasks := ⟨s, disk, tasks, none, []⟩

/-- What may happen next. -/
inductive Step : Tasks → Tasks → Prop
  /-- A task is refused, with no need for the lock. -/
  | refuse {s : Store} {disk : Disk} {before after : List Task} {task : Task}
    {writing : Option Writing} {replied : List (Task × Except Failure Reply)} {e : Failure}
    (hplan : task.1.plan s = .error e) :
    Step ⟨s, disk, before ++ task :: after, writing, replied⟩
      ⟨s, disk, before ++ after, writing, (task, .error e) :: replied⟩
  /-- A task takes the lock and finds nothing to change. -/
  | leave {s : Store} {disk : Disk} {before after : List Task} {task : Task}
    {replied : List (Task × Except Failure Reply)} {reply : Reply}
    (hplan : task.1.plan s = .ok (.leave reply)) :
    Step ⟨s, disk, before ++ task :: after, none, replied⟩
      ⟨s, disk, before ++ after, none, (task, .ok reply) :: replied⟩
  /-- A task takes the lock and changes the data. -/
  | enter {s : Store} {disk : Disk} {before after : List Task} {task : Task}
    {replied : List (Task × Except Failure Reply)} {data : Collections}
    {reply : Except Failure Reply} (hplan : task.1.plan s = .ok (.write data reply)) :
    Step ⟨s, disk, before ++ task :: after, none, replied⟩
      ⟨{ s with data }, disk, before ++ after, some ⟨task, { s with data }, reply⟩, replied⟩
  /-- A task has written, or failed to, and gives the lock back. -/
  | finish {s : Store} {disk : Disk} {waiting : List Task} {w : Writing}
    {replied : List (Task × Except Failure Reply)} :
    Step ⟨s, disk, waiting, some w, replied⟩
      ⟨s, (w.step disk).disk, waiting, none, (w.task, (w.step disk).reply) :: replied⟩

/-- The disk once the write is done that goes on. -/
def settled (t : Tasks) : Disk :=
  match t.writing with
  | some w => (w.step t.disk).disk
  | none => t.disk

/-- What is replied once the write is done that goes on. -/
def replies (t : Tasks) : List (Task × Except Failure Reply) :=
  match t.writing with
  | some w => (w.task, (w.step t.disk).reply) :: t.replied
  | none => t.replied

/-- How much is still to happen. -/
def todo (t : Tasks) : Nat := 2 * t.waiting.length + if t.writing.isSome then 1 else 0

variable {t t' : Tasks}

/-! ## Tasks come to an end -/

/-- Each step leaves less to do. -/
theorem Step.todo_lt (h : Step t t') : t'.todo < t.todo := by
  cases h with
  | refuse hplan => simp [todo]
  | leave hplan => simp [todo]
  | enter hplan =>
    simp [todo]
    omega
  | finish => simp [todo]

/-- As long as a task waits or writes, something can happen. -/
theorem exists_step (h : t.waiting ≠ [] ∨ t.writing ≠ none) : ∃ t', Step t t' := by
  obtain ⟨s, disk, waiting, writing, replied⟩ := t
  cases writing with
  | some w => exact ⟨_, .finish⟩
  | none =>
    obtain ⟨task, tasks, rfl⟩ := List.exists_cons_of_ne_nil (h.resolve_right (absurd rfl))
    cases hplan : task.1.plan s with
    | error e => exact ⟨_, @Step.refuse _ _ [] _ _ _ _ _ hplan⟩
    | ok plan =>
      cases plan with
      | leave reply => exact ⟨_, @Step.leave _ _ [] _ _ _ _ hplan⟩
      | write data reply => exact ⟨_, @Step.enter _ _ [] _ _ _ _ _ hplan⟩

end Tasks

/-! ## One after the other -/

namespace Mutation

/-- One task more. -/
theorem applyAll_concat (s : Store) (disk : Disk) (tasks : List Task) (task : Task) :
    let run := applyAll s disk tasks
    let step := task.1.apply run.1 run.2.1 task.2
    let all := applyAll s disk (tasks ++ [task])
    all.1 = step.store ∧ all.2.1 = step.disk ∧ all.2.2.2 = run.2.2.2 ++ [step.reply] := by
  induction tasks generalizing s disk with
  | nil => exact ⟨rfl, rfl, rfl⟩
  | cons first tasks ih =>
    obtain ⟨hstore, hdisk, hreplies⟩ :=
      ih (first.1.apply s disk first.2).store (first.1.apply s disk first.2).disk
    exact ⟨hstore, hdisk, congrArg (_ :: ·) hreplies⟩

end Mutation

namespace Tasks

variable {s : Store} {disk : Disk} {tasks : List Task} {t t' : Tasks}

/-- The tasks that have taken the lock, or were refused, have run one after the other, and the
others wait. -/
def Serial (s : Store) (disk : Disk) (tasks : List Task) (t : Tasks) : Prop :=
  ∃ done : List (Task × Except Failure Reply),
    let run := Mutation.applyAll s disk (done.map (·.1))
    run.1 = t.store ∧ run.2.1 = t.settled ∧ run.2.2.2 = done.map (·.2) ∧
      done.Perm t.replies ∧ (done.map (·.1) ++ t.waiting).Perm tasks

theorem serial_start (s : Store) (disk : Disk) (tasks : List Task) :
    Serial s disk tasks (start s disk tasks) :=
  ⟨[], rfl, rfl, rfl, .nil, .refl _⟩

/-- A task that runs after the others takes its place behind them. -/
theorem Serial.concat {before after : List Task} {task : Task} (h : Serial s disk tasks t)
    (hwaiting : t.waiting = before ++ task :: after) (hwaiting' : t'.waiting = before ++ after)
    {reply : Except Failure Reply}
    (hstep : let step := task.1.apply t.store t.settled task.2
      step.store = t'.store ∧ step.disk = t'.settled ∧ step.reply = reply)
    (hreplies : t'.replies.Perm ((task, reply) :: t.replies)) : Serial s disk tasks t' := by
  obtain ⟨done, hstore, hdisk, hdone, hperm, hall⟩ := h
  obtain ⟨hstore', hdisk', hreply⟩ := hstep
  obtain ⟨hrun, hrunDisk, hrunReplies⟩ :=
    Mutation.applyAll_concat s disk (done.map (·.1)) task
  rw [hstore, hdisk] at hrun hrunDisk hrunReplies
  refine ⟨done ++ [(task, reply)], ?_⟩
  rw [List.map_append, List.map_append, List.map_singleton, List.map_singleton]
  refine ⟨hrun.trans hstore', hrunDisk.trans hdisk', ?_, ?_, ?_⟩
  · rw [hrunReplies, hdone, hreply]
  · exact (List.perm_append_singleton _ _).trans ((hperm.cons _).trans hreplies.symm)
  · rw [hwaiting', List.append_assoc]
    rw [hwaiting] at hall
    have hplace : (task :: (before ++ after)).Perm (before ++ task :: after) :=
      List.perm_middle.symm
    exact (hplace.append_left _).trans hall

/-- **Each step keeps tasks serial.** -/
theorem Serial.step (h : Serial s disk tasks t) (hstep : Step t t') : Serial s disk tasks t' := by
  cases hstep with
  | @refuse _ _ _ _ task writing replied e hplan =>
    refine h.concat rfl rfl ?_ (?_ : List.Perm _ ((task, Except.error e) :: _))
    · rw [Mutation.apply_eq_carryOut, hplan]
      cases writing <;> exact ⟨rfl, rfl, rfl⟩
    · cases writing with
      | none => exact .refl _
      | some w => exact .swap _ _ _
  | leave hplan =>
    refine h.concat rfl rfl ?_ (.refl _)
    rw [Mutation.apply_eq_carryOut, hplan]
    exact ⟨rfl, rfl, rfl⟩
  | enter hplan =>
    refine h.concat rfl rfl ?_ (.refl _)
    rw [Mutation.apply_eq_carryOut, hplan]
    exact ⟨Plan.carryOut_write_store .., rfl, rfl⟩
  | finish => exact h

theorem serial_of_steps (h : Relation.ReflTransGen Step (start s disk tasks) t) :
    Serial s disk tasks t := by
  induction h with
  | refl => exact serial_start s disk tasks
  | tail _ hstep ih => exact ih.step hstep

/-- **Tasks that were started together have run one after the other,** in some order, when nothing
can happen any more. -/
theorem serial_of_stuck (h : Relation.ReflTransGen Step (start s disk tasks) t)
    (hstuck : ∀ t', ¬ Step t t') :
    ∃ done : List (Task × Except Failure Reply),
      let run := Mutation.applyAll s disk (done.map (·.1))
      (done.map (·.1)).Perm tasks ∧ done.Perm t.replied ∧
        run.1 = t.store ∧ run.2.1 = t.disk ∧ run.2.2.2 = done.map (·.2) := by
  obtain ⟨done, hstore, hdisk, hdone, hperm, hall⟩ := serial_of_steps h
  obtain ⟨s', disk', waiting, writing, replied⟩ := t
  have hidle : ¬ (waiting ≠ [] ∨ writing ≠ none) := fun hbusy =>
    (exists_step hbusy).elim hstuck
  rw [not_or, not_not, not_not] at hidle
  obtain ⟨rfl, rfl⟩ := hidle
  rw [List.append_nil] at hall
  exact ⟨done, hall, hperm, hstore, hdisk, hdone⟩

end Tasks

end SnapshotStore
