/-
  JobScheduler.Engine.Limiter
  ───────────────────────────
  `createLimiter` of `engine/worker.ts`: a counter and a queue that `limit(fn)` and
  the `finally` callback of a started task update.

  Between the settling of `fn()` and its `finally` other callbacks may run, so a
  task is followed through four events: it is submitted, its promise settles, the
  returned promise is settled with it, and its slot is released.  A `limit` called
  inside a task is a submission like any other: nothing of `run` or `finally` is
  left to do after `fn()` has been called.
-/
import Mathlib.Data.List.Dedup
import Mathlib.Data.List.Range
import JobScheduler.Engine.Worker
import JobScheduler.Library.Run

namespace JobScheduler

open Transition

/-! ## §1. The counter and the queue. -/

/-- The variables of `createLimiter`; `τ` names the tasks. -/
structure TaskSlots (τ : Type) where
  concurrency : Nat
  running : Nat
  queue : List τ

namespace TaskSlots

variable {τ : Type}

/-- `limit(fn)`, and the task that it starts. -/
def limit (s : TaskSlots τ) (task : τ) : TaskSlots τ × Option τ :=
  if s.running < s.concurrency then ({ s with running := s.running + 1 }, some task)
  else ({ s with queue := s.queue ++ [task] }, none)

/-- `running--` in `finally`, and the `run` of the next task. -/
def release (s : TaskSlots τ) : TaskSlots τ × Option τ :=
  match s.queue with
  | [] => ({ s with running := s.running - 1 }, none)
  | next :: rest => ({ s with running := s.running - 1 + 1, queue := rest }, some next)

theorem release_nil {s : TaskSlots τ} (h : s.queue = []) :
    s.release = ({ s with running := s.running - 1 }, none) := by
  unfold release
  rw [h]

theorem release_cons {s : TaskSlots τ} {next : τ} {rest : List τ} (h : s.queue = next :: rest) :
    s.release = ({ s with running := s.running - 1 + 1, queue := rest }, some next) := by
  unfold release
  rw [h]

end TaskSlots

/-- The slots of a worker process. -/
def Worker.taskSlots (w : Worker) : TaskSlots Nat where
  concurrency := w.settings.maxParallelJobs
  running := w.running
  queue := w.queue

/-- The worker's own limiter counts as the general one does. -/
theorem Worker.limit_taskSlots (w : Worker) (pid : Nat) :
    (w.limit pid).taskSlots = (w.taskSlots.limit pid).1 ∧
      (w.limit pid).executing = (w.taskSlots.limit pid).2.toList ++ w.executing := by
  unfold Worker.limit TaskSlots.limit
  by_cases h : w.running < w.settings.maxParallelJobs
  · have h' : w.taskSlots.running < w.taskSlots.concurrency := h
    rw [if_pos h, if_pos h']
    exact ⟨rfl, rfl⟩
  · have h' : ¬ w.taskSlots.running < w.taskSlots.concurrency := h
    rw [if_neg h, if_neg h']
    exact ⟨rfl, rfl⟩

/-- While a call holds a slot, the worker's `finally` is the limiter's. -/
theorem Worker.free_taskSlots {w : Worker} (h : 1 ≤ w.running) :
    w.free.taskSlots = w.taskSlots.release.1 ∧
      w.free.executing = w.taskSlots.release.2.toList ++ w.executing := by
  unfold Worker.free TaskSlots.release Worker.taskSlots
  cases hq : w.queue with
  | nil => exact ⟨rfl, rfl⟩
  | cons pid rest =>
      refine ⟨?_, rfl⟩
      simp only [TaskSlots.mk.injEq, and_true, true_and]
      omega

/-! ## §2. Tasks and promises. -/

/-- A limiter with its promises; tasks are numbered as they are submitted. -/
structure Limiter (ε α : Type) where
  slots : TaskSlots Nat
  submitted : Nat
  /-- The calls `fn()`, in order. -/
  started : List Nat
  /-- The promises of these calls that have settled. -/
  settled : List (Nat × Except ε α)
  /-- The promises returned by `limit` that have settled. -/
  returned : List (Nat × Except ε α)
  /-- The tasks whose `finally` has run. -/
  released : List Nat

/-- What can happen to a limiter: a call, and what becomes of a task afterwards. -/
inductive LimiterEvent (ε α : Type)
  | submit
  | settle (task : Nat) (outcome : Except ε α)
  | deliver (task : Nat)
  | release (task : Nat)

/-- `createLimiter(concurrency)`. -/
def createLimiter (ε α : Type) (concurrency : Nat) : Limiter ε α where
  slots := ⟨concurrency, 0, []⟩
  submitted := 0
  started := []
  settled := []
  returned := []
  released := []

/-- `.then(resolve, reject)`. -/
def settleWith {ε α : Type} (outcome : Except ε α) : Except ε α :=
  match outcome with
  | .ok value => .ok value
  | .error err => .error err

namespace Limiter

variable {ε α : Type}

/-- The slots and the task started by a callback. -/
def start (l : Limiter ε α) (result : TaskSlots Nat × Option Nat) : Limiter ε α :=
  { l with slots := result.1, started := l.started ++ result.2.toList }

/-- The function of the task has settled. -/
def hasSettled (l : Limiter ε α) (task : Nat) : Prop := task ∈ l.settled.map Prod.fst

/-- The promise of the task has been settled for its caller. -/
def hasReturned (l : Limiter ε α) (task : Nat) : Prop := task ∈ l.returned.map Prod.fst

instance (l : Limiter ε α) (task : Nat) : Decidable (l.hasSettled task) :=
  inferInstanceAs (Decidable (task ∈ _))

instance (l : Limiter ε α) (task : Nat) : Decidable (l.hasReturned task) :=
  inferInstanceAs (Decidable (task ∈ _))

/-- One event of the limiter; `none` where it cannot happen yet. -/
def step (l : Limiter ε α) : LimiterEvent ε α → Option (Limiter ε α)
  | .submit => some ({ l with submitted := l.submitted + 1 }.start (l.slots.limit l.submitted))
  | .settle task outcome =>
      if task ∈ l.started ∧ ¬ l.hasSettled task then
        some { l with settled := l.settled ++ [(task, outcome)] }
      else none
  | .deliver task =>
      if l.hasReturned task then none
      else (l.settled.lookup task).map (fun outcome =>
        { l with returned := l.returned ++ [(task, settleWith outcome)] })
  | .release task =>
      if l.hasReturned task ∧ task ∉ l.released then
        some ({ l with released := l.released ++ [task] }.start l.slots.release)
      else none

/-- The tasks that hold a slot. -/
def active (l : Limiter ε α) : List Nat := l.started.filter (fun i => decide (i ∉ l.released))

/-- The started tasks that have not settled. -/
def unsettled (l : Limiter ε α) : List Nat := l.started.filter (fun i => decide (¬ l.hasSettled i))

/-- No callback is due. -/
def Quiet (l : Limiter ε α) : Prop := ∀ i, l.hasSettled i → i ∈ l.released

/-! ## §3. One invariant. -/

/-- What every event keeps, with `c` slots. -/
structure Kept (c : Nat) (l : Limiter ε α) : Prop where
  concurrency : l.slots.concurrency = c
  order : l.started ++ l.slots.queue = List.range l.submitted
  counted : l.slots.running + l.released.length = l.started.length
  bounded : l.slots.running ≤ c
  conserving : l.slots.queue ≠ [] → l.slots.running = c
  settledOnce : (l.settled.map Prod.fst).Nodup
  settledStarted : ∀ p ∈ l.settled, p.1 ∈ l.started
  returnedOnce : (l.returned.map Prod.fst).Nodup
  returnedSettled : ∀ p ∈ l.returned, p ∈ l.settled
  releasedOnce : l.released.Nodup
  releasedReturned : ∀ i ∈ l.released, l.hasReturned i

theorem kept_createLimiter (ε α : Type) (c : Nat) : (createLimiter ε α c).Kept c where
  concurrency := rfl
  order := rfl
  counted := rfl
  bounded := Nat.zero_le c
  conserving := fun h => absurd rfl h
  settledOnce := List.nodup_nil
  settledStarted := fun _ h => absurd h List.not_mem_nil
  returnedOnce := List.nodup_nil
  returnedSettled := fun _ h => absurd h List.not_mem_nil
  releasedOnce := List.nodup_nil
  releasedReturned := fun _ h => absurd h List.not_mem_nil

variable {c : Nat} {l l' : Limiter ε α}

/-- A callback has changed the slots and started what it could: what is left to show is about
the counter and the queue. -/
theorem Kept.start (hK : l.Kept c) {submitted : Nat} {released : List Nat}
    {result : TaskSlots Nat × Option Nat} (hconcurrency : result.1.concurrency = l.slots.concurrency)
    (horder : l.started ++ result.2.toList ++ result.1.queue = List.range submitted)
    (hcounted : result.1.running + released.length = l.started.length + result.2.toList.length)
    (hbounded : result.1.running ≤ c) (hconserving : result.1.queue ≠ [] → result.1.running = c)
    (hreleased : released.Nodup) (hreturned : ∀ i ∈ released, l.hasReturned i) :
    ({ l with submitted := submitted, released := released }.start result).Kept c where
  concurrency := hconcurrency.trans hK.concurrency
  order := horder
  counted := by
    show result.1.running + released.length = (l.started ++ result.2.toList).length
    rw [List.length_append]
    exact hcounted
  bounded := hbounded
  conserving := hconserving
  settledOnce := hK.settledOnce
  settledStarted := fun p hp => List.mem_append_left _ (hK.settledStarted p hp)
  returnedOnce := hK.returnedOnce
  returnedSettled := hK.returnedSettled
  releasedOnce := hreleased
  releasedReturned := hreturned

/-- A call keeps the invariant: it starts at once, or queues behind the earlier ones. -/
theorem Kept.submit (hK : l.Kept c) :
    ({ l with submitted := l.submitted + 1 }.start (l.slots.limit l.submitted)).Kept c := by
  have horder := hK.order
  have hcounted := hK.counted
  have hbounded := hK.bounded
  have hc := hK.concurrency
  by_cases hroom : l.slots.running < l.slots.concurrency
  · -- with a slot free the queue is empty
    have hempty : l.slots.queue = [] := by
      by_contra hne
      have hfull := hK.conserving hne
      omega
    have hlimit : l.slots.limit l.submitted
        = ({ l.slots with running := l.slots.running + 1 }, some l.submitted) := if_pos hroom
    rw [hlimit]
    refine hK.start rfl ?_ ?_ ?_ (fun hne => absurd hempty hne) hK.releasedOnce hK.releasedReturned
    · rw [hempty, List.append_nil] at horder
      show (l.started ++ [l.submitted]) ++ l.slots.queue = List.range (l.submitted + 1)
      rw [hempty, List.append_nil, horder, List.range_succ]
    · show l.slots.running + 1 + l.released.length = l.started.length + 1
      omega
    · show l.slots.running + 1 ≤ c
      omega
  · have hlimit : l.slots.limit l.submitted
        = ({ l.slots with queue := l.slots.queue ++ [l.submitted] }, none) := if_neg hroom
    rw [hlimit]
    refine hK.start rfl ?_ hcounted hbounded ?_ hK.releasedOnce hK.releasedReturned
    · show (l.started ++ []) ++ (l.slots.queue ++ [l.submitted]) = List.range (l.submitted + 1)
      rw [List.append_nil, ← List.append_assoc, horder, List.range_succ]
    · intro _
      show l.slots.running = c
      omega

/-- A task settles once, and after its start. -/
theorem Kept.settle (hK : l.Kept c) {task : Nat} (outcome : Except ε α) (hstarted : task ∈ l.started)
    (hnew : ¬ l.hasSettled task) : { l with settled := l.settled ++ [(task, outcome)] }.Kept c where
  concurrency := hK.concurrency
  order := hK.order
  counted := hK.counted
  bounded := hK.bounded
  conserving := hK.conserving
  settledOnce := by
    rw [List.map_append, List.map_singleton, ← List.concat_eq_append]
    exact hK.settledOnce.concat hnew
  settledStarted := by
    intro p hp
    rcases List.mem_append.mp hp with hold | hlast
    · exact hK.settledStarted p hold
    · rw [List.mem_singleton.mp hlast]
      exact hstarted
  returnedOnce := hK.returnedOnce
  returnedSettled := fun p hp => List.mem_append_left _ (hK.returnedSettled p hp)
  releasedOnce := hK.releasedOnce
  releasedReturned := hK.releasedReturned

/-- `resolve` and `reject` pass the outcome on. -/
theorem settleWith_eq (outcome : Except ε α) : settleWith outcome = outcome := by
  cases outcome with
  | ok value => rfl
  | error err => rfl

/-- An outcome is handed over once, and as it was. -/
theorem Kept.deliver (hK : l.Kept c) {task : Nat} {outcome : Except ε α}
    (hnew : ¬ l.hasReturned task) (hsettled : (task, outcome) ∈ l.settled) :
    { l with returned := l.returned ++ [(task, outcome)] }.Kept c where
  concurrency := hK.concurrency
  order := hK.order
  counted := hK.counted
  bounded := hK.bounded
  conserving := hK.conserving
  settledOnce := hK.settledOnce
  settledStarted := hK.settledStarted
  returnedOnce := by
    rw [List.map_append, List.map_singleton, ← List.concat_eq_append]
    exact hK.returnedOnce.concat hnew
  returnedSettled := by
    intro p hp
    rcases List.mem_append.mp hp with hold | hlast
    · exact hK.returnedSettled p hold
    · rw [List.mem_singleton.mp hlast]
      exact hsettled
  releasedOnce := hK.releasedOnce
  releasedReturned := by
    intro i hi
    have hold := hK.releasedReturned i hi
    unfold hasReturned at hold ⊢
    rw [List.map_append]
    exact List.mem_append_left _ hold

/-- The elements of a list that are not among some others of it. -/
theorem length_filter_notMem {xs ys : List Nat} (hys : ys.Nodup) (hxs : xs.Nodup)
    (hsub : ∀ i ∈ ys, i ∈ xs) : (xs.filter (fun i => decide (i ∉ ys))).length + ys.length = xs.length := by
  have hperm : (xs.filter (fun i => decide (i ∈ ys))).Perm ys := by
    rw [List.perm_ext_iff_of_nodup (hxs.filter _) hys]
    intro i
    rw [List.mem_filter, decide_eq_true_iff]
    exact ⟨And.right, fun hi => ⟨hsub i hi, hi⟩⟩
  have hsplit := List.length_eq_length_filter_add (l := xs) (fun i => decide (i ∈ ys))
  have hnot : xs.filter (fun i => !decide (i ∈ ys)) = xs.filter (fun i => decide (i ∉ ys)) := by
    simp only [decide_not]
  rw [hperm.length_eq, hnot] at hsplit
  omega

/-- No task is started twice. -/
theorem Kept.startedOnce (hK : l.Kept c) : l.started.Nodup := by
  have hall : (l.started ++ l.slots.queue).Nodup := hK.order ▸ List.nodup_range
  exact (List.nodup_append.mp hall).1

theorem Kept.started_of_settled (hK : l.Kept c) {i : Nat} (h : l.hasSettled i) : i ∈ l.started := by
  obtain ⟨p, hp, rfl⟩ := List.mem_map.mp h
  exact hK.settledStarted p hp

theorem Kept.settled_of_returned (hK : l.Kept c) {i : Nat} (h : l.hasReturned i) :
    l.hasSettled i := by
  obtain ⟨p, hp, rfl⟩ := List.mem_map.mp h
  exact List.mem_map_of_mem (hK.returnedSettled p hp)

theorem Kept.started_of_released (hK : l.Kept c) {i : Nat} (h : i ∈ l.released) : i ∈ l.started :=
  hK.started_of_settled (hK.settled_of_returned (hK.releasedReturned i h))

/-- The counter is the number of tasks that hold a slot. -/
theorem Kept.length_active (hK : l.Kept c) : l.active.length = l.slots.running := by
  have hlen := length_filter_notMem hK.releasedOnce hK.startedOnce (fun i => hK.started_of_released)
  have hcounted := hK.counted
  unfold active
  omega

/-- A task whose `finally` is due holds a slot. -/
theorem Kept.running_pos (hK : l.Kept c) {task : Nat} (hreturned : l.hasReturned task)
    (hnew : task ∉ l.released) : 1 ≤ l.slots.running := by
  have hmem : task ∈ l.active := by
    unfold active
    rw [List.mem_filter, decide_eq_true_iff]
    exact ⟨hK.started_of_settled (hK.settled_of_returned hreturned), hnew⟩
  rw [← hK.length_active]
  exact List.length_pos_of_mem hmem

theorem Kept.release (hK : l.Kept c) {task : Nat} (hreturned : l.hasReturned task)
    (hnew : task ∉ l.released) :
    ({ l with released := l.released ++ [task] }.start l.slots.release).Kept c := by
  have hpos := hK.running_pos hreturned hnew
  have hcounted := hK.counted
  have hreleasedOnce : (l.released ++ [task]).Nodup := by
    rw [← List.concat_eq_append]
    exact hK.releasedOnce.concat hnew
  have hreleasedReturned : ∀ i ∈ l.released ++ [task], l.hasReturned i := by
    intro i hi
    rcases List.mem_append.mp hi with hold | hlast
    · exact hK.releasedReturned i hold
    · rw [List.mem_singleton.mp hlast]
      exact hreturned
  have hlength : (l.released ++ [task]).length = l.released.length + 1 := by
    rw [List.length_append, List.length_singleton]
  have horder := hK.order
  have hbounded := hK.bounded
  cases hq : l.slots.queue with
  | nil =>
      rw [TaskSlots.release_nil hq]
      refine hK.start rfl ?_ ?_ ?_ (fun hne => absurd hq hne) hreleasedOnce hreleasedReturned
      · show (l.started ++ []) ++ l.slots.queue = List.range l.submitted
        rw [List.append_nil, horder]
      · show l.slots.running - 1 + (l.released ++ [task]).length = l.started.length + 0
        omega
      · show l.slots.running - 1 ≤ c
        omega
  | cons next rest =>
      -- the counter is back where it was, and so is the bound
      have hfull := hK.conserving (by rw [hq]; exact List.cons_ne_nil next rest)
      rw [TaskSlots.release_cons hq]
      refine hK.start rfl ?_ ?_ ?_ ?_ hreleasedOnce hreleasedReturned
      · show (l.started ++ [next]) ++ rest = List.range l.submitted
        rw [List.append_assoc, List.singleton_append, ← hq, horder]
      · show l.slots.running - 1 + 1 + (l.released ++ [task]).length = l.started.length + 1
        omega
      · show l.slots.running - 1 + 1 ≤ c
        omega
      · intro _
        show l.slots.running - 1 + 1 = c
        omega

/-- **Step.**  Every event keeps the invariant. -/
theorem Kept.step (hK : l.Kept c) {e : LimiterEvent ε α} (h : l.step e = some l') : l'.Kept c := by
  cases e with
  | submit =>
      obtain rfl := Option.some.inj h
      exact hK.submit
  | settle task outcome =>
      simp only [Limiter.step] at h
      split at h
      · rename_i hguard
        obtain rfl := Option.some.inj h
        exact hK.settle outcome hguard.1 hguard.2
      · cases h
  | deliver task =>
      simp only [Limiter.step] at h
      split at h
      · cases h
      · rename_i hnew
        obtain ⟨outcome, hlookup, rfl⟩ := Option.map_eq_some_iff.mp h
        obtain ⟨pre, post, hsplit, _⟩ := List.lookup_eq_some_iff.mp hlookup
        have hmem : (task, outcome) ∈ l.settled := by
          rw [hsplit]
          exact List.mem_append_right _ List.mem_cons_self
        rw [settleWith_eq]
        exact hK.deliver hnew hmem
  | release task =>
      simp only [Limiter.step] at h
      split at h
      · rename_i hguard
        obtain rfl := Option.some.inj h
        exact hK.release hguard.1 hguard.2
      · cases h

/-! ## §4. What the invariant says. -/

/-- The limiter as its callers know it. -/
structure Correct (c : Nat) (l : Limiter ε α) : Prop where
  /-- At most `c` tasks are running, and the counter counts them. -/
  bounded : l.active.length = l.slots.running ∧ l.active.length ≤ c ∧ l.unsettled.length ≤ l.active.length
  /-- A task waits only while exactly `c` are running. -/
  conserving : l.slots.queue ≠ [] → l.active.length = c ∧ (l.Quiet → l.unsettled.length = c)
  /-- The started tasks, then the waiting ones, are the submitted ones in order. -/
  order : l.started ++ l.slots.queue = List.range l.submitted
  startedOnce : l.started.Nodup
  /-- Nothing waits once the started tasks have settled and their callbacks have run. -/
  drained : (∀ i ∈ l.started, l.hasSettled i) → l.Quiet → l.slots.queue = []
  /-- A returned promise settles with its own task's outcome, once. -/
  outcome : (∀ p ∈ l.returned, p ∈ l.settled) ∧ (l.settled.map Prod.fst).Nodup ∧
    (l.returned.map Prod.fst).Nodup ∧ (l.Quiet → ∀ p ∈ l.settled, p ∈ l.returned)
  /-- A slot is released once, and a settled task whose slot is not has a callback due. -/
  due : l.released.Nodup ∧ ∀ i, l.hasSettled i → i ∉ l.released →
    (l.step (.deliver i)).isSome = true ∨ (l.step (.release i)).isSome = true

/-- Started tasks are settled or not. -/
theorem Kept.length_unsettled (hK : l.Kept c) :
    l.unsettled.length + l.settled.length = l.started.length := by
  have hlen := length_filter_notMem hK.settledOnce hK.startedOnce
    (fun i hi => hK.started_of_settled (show l.hasSettled i from hi))
  rw [List.length_map] at hlen
  exact hlen

theorem Kept.length_released_le (hK : l.Kept c) : l.released.length ≤ l.settled.length := by
  have hsub : l.released ⊆ l.settled.map Prod.fst := fun i hi =>
    hK.settled_of_returned (hK.releasedReturned i hi)
  have hle := (hK.releasedOnce.subperm hsub).length_le
  rwa [List.length_map] at hle

/-- With no callback due every settled task has given its slot back. -/
theorem Kept.length_released_of_quiet (hK : l.Kept c) (hquiet : l.Quiet) :
    l.released.length = l.settled.length := by
  apply le_antisymm hK.length_released_le
  have hsub : l.settled.map Prod.fst ⊆ l.released := fun i hi => hquiet i hi
  have hle := (hK.settledOnce.subperm hsub).length_le
  rwa [List.length_map] at hle

/-- One outcome for each task. -/
theorem eq_of_mem_settled {pairs : List (Nat × Except ε α)} (hnodup : (pairs.map Prod.fst).Nodup)
    {p q : Nat × Except ε α} (hp : p ∈ pairs) (hq : q ∈ pairs) (h : p.1 = q.1) : p = q :=
  List.inj_on_of_nodup_map hnodup hp hq h

/-- What the invariant says to a caller. -/
theorem Kept.correct (hK : l.Kept c) (hpos : 1 ≤ c) : l.Correct c := by
  have hactive := hK.length_active
  have hcounted := hK.counted
  have hunsettled := hK.length_unsettled
  have hreleased := hK.length_released_le
  have hbounded := hK.bounded
  exact {
    bounded := ⟨hactive, by omega, by omega⟩
    conserving := by
      intro hne
      have hfull := hK.conserving hne
      refine ⟨by omega, ?_⟩
      intro hquiet
      have hall := hK.length_released_of_quiet hquiet
      omega
    order := hK.order
    startedOnce := hK.startedOnce
    drained := by
      intro hsettled hquiet
      by_contra hne
      have hfull := hK.conserving hne
      have hempty : l.active = [] := by
        unfold active
        rw [List.filter_eq_nil_iff]
        intro i hi
        simpa using hquiet i (hsettled i hi)
      rw [hempty, List.length_nil] at hactive
      omega
    outcome := by
      refine ⟨hK.returnedSettled, hK.settledOnce, hK.returnedOnce, ?_⟩
      intro hquiet p hp
      obtain ⟨q, hq, hkey⟩ := List.mem_map.mp (hK.releasedReturned p.1 (hquiet p.1 (List.mem_map_of_mem hp)))
      exact eq_of_mem_settled hK.settledOnce (hK.returnedSettled q hq) hp hkey ▸ hq
    due := by
      refine ⟨hK.releasedOnce, ?_⟩
      intro i hsettled hnew
      by_cases hreturned : l.hasReturned i
      · exact Or.inr (by simp [Limiter.step, hreturned, hnew])
      · left
        obtain ⟨p, hp, rfl⟩ := List.mem_map.mp hsettled
        have hlookup : (l.settled.lookup p.1).isSome = true := by
          rw [List.lookup_isSome_iff]
          exact ⟨p, hp, beq_self_eq_true p.1⟩
        simpa [Limiter.step, hreturned] using hlookup }

/-! ## §5. Every run. -/

/-- Runs of one limiter. -/
abbrev LimiterRun (c : Nat) (tr : List (Limiter ε α × LimiterEvent ε α)) (l : Limiter ε α) : Prop :=
  Run Limiter.step (createLimiter ε α c) tr l

/-- The invariant in every run. -/
theorem kept_run {tr : List (Limiter ε α × LimiterEvent ε α)} (h : LimiterRun c tr l) : l.Kept c :=
  h.invariant (G := fun _ _ => True) (fun _ _ _ hK _ hs => hK.step hs) (fun _ _ => trivial)
    (kept_createLimiter ε α c)

/-- What the `finally` of a task starts. -/
theorem started_of_release {task : Nat} (h : l.step (.release task) = some l') :
    l'.started = l.started ++ l.slots.queue.take 1 ∧ l'.slots.queue = l.slots.queue.drop 1 := by
  simp only [Limiter.step] at h
  split at h
  · obtain rfl := Option.some.inj h
    cases hq : l.slots.queue with
    | nil =>
        rw [TaskSlots.release_nil hq]
        exact ⟨rfl, hq⟩
    | cons next rest =>
        rw [TaskSlots.release_cons hq]
        exact ⟨rfl, rfl⟩
  · cases h

/-- **The limiter.**  With at least one slot every reachable state is correct, and each
`finally` starts exactly the oldest waiting task, if there is one. -/
theorem limiter_correct {tr : List (Limiter ε α × LimiterEvent ε α)} (hpos : 1 ≤ c)
    (h : LimiterRun c tr l) :
    l.Correct c ∧ ∀ task l', l.step (.release task) = some l' →
      l'.started = l.started ++ l.slots.queue.take 1 ∧ l'.slots.queue = l.slots.queue.drop 1 :=
  ⟨(kept_run h).correct hpos, fun _ _ hstep => started_of_release hstep⟩

/-- One slot and two tasks: the second starts when the first has been released. -/
def twoTasks : List (LimiterEvent String Nat) :=
  [.submit, .submit, .settle 0 (.ok 7), .deliver 0, .release 0]

theorem limiter_correct_two :
    (play Limiter.step (createLimiter String Nat 1) twoTasks).Correct 1 ∧
      (play Limiter.step (createLimiter String Nat 1) twoTasks).started = [0, 1] := by
  have hrun := run_of_play Limiter.step (createLimiter String Nat 1) twoTasks (by decide)
  exact ⟨(limiter_correct (by omega) hrun).1, by decide⟩

end Limiter

end JobScheduler
