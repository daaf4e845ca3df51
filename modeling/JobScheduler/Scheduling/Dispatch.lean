/-
  JobScheduler.Scheduling.Dispatch
  ────────────────────────────────
  What a failed statement of a tick changes: the schedule it belongs to and no other.
  Dispatching is atomic for a schedule as long as no advance is lost after its INSERT.
-/
import JobScheduler.Scheduling.Order

namespace JobScheduler

open Relational Transition Succession

/-! ## §1. A failure stays with its schedule. -/

/-- The copy whose INSERT client `k` executes by the action, carried out or not. -/
def Action.tries (s : Sys) (k : Nat) : Action → Option (UUID × ScheduledJob)
  | .run pid _ =>
      match s.proc pid with
      | some (.tick t) =>
          match t.pc with
          | .insertJob id sj _ => if pid = k then some (id, sj) else none
          | _ => none
      | _ => none
  | _ => none

/-- The next statement is the SELECT of the due rows. -/
def Tick.selecting (t : Tick) : Bool :=
  match t.pc with
  | .selectDue => true
  | _ => false

/-- The rows that the SELECT of client `k` returns by the action. -/
def Action.selects (cfg : Config) (s : Sys) (k : Nat) (a : Action) : List (UUID × ScheduledJob) :=
  match a with
  | .run pid env =>
      if pid = k ∧ (a.carries cfg s).any (fun p => p.2.selecting) = true then
        s.db.scheduledJobs.select (Tick.due env.now)
      else []
  | _ => []

/-- The action is a statement of a tick that is rejected. -/
def Action.throws (cfg : Config) (s : Sys) : Action → Bool
  | .run pid env =>
      match s.proc pid with
      | some (.tick t) => env.fails || t.overflows cfg
      | _ => false
  | _ => false

/-- The schedules that the tick `k` began to dispatch over the run. -/
def tried (tr : List (Sys × Action)) (k : Nat) : List (UUID × ScheduledJob) :=
  tr.filterMap (fun p => p.2.tries p.1 k)

/-- The due schedules that the tick `k` selected over the run. -/
def selected (cfg : Config) (tr : List (Sys × Action)) (k : Nat) : List (UUID × ScheduledJob) :=
  tr.flatMap (fun p => p.2.selects cfg p.1 k)

/-- The copies that the client has still to dispatch. -/
def Proc.todo : Proc → List (UUID × ScheduledJob)
  | .tick t => t.pc.todo
  | _ => []

/-- The schedules that the tick `k` has still before it. -/
def Sys.todo (s : Sys) (k : Nat) : List (UUID × ScheduledJob) := ((s.proc k).map Proc.todo).getD []

section
variable {cfg : Config} {s s' : Sys} {a : Action} {k : Nat}

theorem Tick.afterInsert_todo (cfg : Config) (id : UUID) (sj : ScheduledJob)
    (rest : List (UUID × ScheduledJob)) : (afterInsert cfg id sj rest).todo = rest := by
  unfold Tick.afterInsert
  split
  · rfl
  · exact Tick.loop_todo rest

/-- A statement of a tick tries the first of its schedules, or none. -/
theorem Tick.step_todo {env : Env} {t t' : Tick} {db' : Db} (hk : s.proc k = some (.tick t))
    (h : t.step cfg s.ctx env s.db = some (db', t')) :
    ((Action.run k env).tries s k).toList ++ t'.pc.todo
      = t.pc.todo ++ (Action.run k env).selects cfg s k := by
  obtain ⟨_, ⟨hr, _, rfl⟩ | ⟨hacc, _, rfl⟩⟩ := Tick.step_cases h
  · have hnone : (Action.run k env).carries cfg s = none := by simp [Action.carries, hk, hr]
    -- the catch drops the schedule at hand and keeps the others
    simp only [Action.tries, Action.selects, hk, hnone, Option.any_none, Tick.goto]
    cases hpc : t.pc <;> simp only [Tick.onThrow]
    case insertJob id sj rest =>
      rw [Tick.loop_todo]
      simp [TickPc.todo]
    case advance | publishDispatched | notifyDispatched =>
      rw [Tick.loop_todo]
      simp [TickPc.todo]
    all_goals simp [TickPc.todo]
  · have hsome : (Action.run k env).carries cfg s = some (env, t) := by
      simp [Action.carries, hk, hacc]
    simp only [Action.tries, Action.selects, hk, hsome, Option.any_some, Tick.selecting, Tick.goto,
      Tick.next]
    cases hpc : t.pc with
    | acquire => cases t.acquires env s.db <;> rfl
    | flip =>
        cases Decidable.em (0 < s.db.jobs.count (Tick.flips env.now)) with
        | inl hpos => simp [hpos, TickPc.todo]
        | inr hzero => simp [hzero, TickPc.todo]
    | selectDue =>
        simp only [and_self, if_true, Tick.loop_todo]
        rfl
    | insertJob id sj rest =>
        rw [Tick.afterInsert_todo]
        simp [TickPc.todo]
    | notifyDispatched id sj nextRun rest =>
        simp only [Tick.loop_todo]
        simp [TickPc.todo]
    | _ => simp [TickPc.todo]

/-- One step: client `k` tries the first copy, drops nothing, and selects at most once. -/
theorem todo_step (h : step cfg s a = some s') :
    (a.tries s k).toList ++ s'.todo k = s.todo k ++ a.selects cfg s k := by
  cases stepped h with
  | wait ms => simp [Action.tries, Action.selects, Sys.todo, Sys.proc]
  | start pid request hfree =>
      simp only [Action.tries, Action.selects, Option.toList_none, List.nil_append, List.append_nil]
      by_cases hkp : k = pid
      · subst hkp
        simp only [Sys.todo, Sys.put_proc_self, hfree]
        cases request <;> rfl
      · simp only [Sys.todo, Sys.put_proc_ne _ _ _ hkp]
  | run pid env p p' db' hp hnow hstep =>
      by_cases htick : k = pid ∧ ∃ t, p = .tick t
      · obtain ⟨rfl, t, rfl⟩ := htick
        obtain ⟨⟨d, t'⟩, ht, he⟩ := Option.map_eq_some_iff.mp hstep
        obtain ⟨rfl, rfl⟩ : d = db' ∧ .tick t' = p' := Prod.mk.inj he
        have htodo := Tick.step_todo hp ht
        simpa only [Sys.todo, Sys.put_proc_self, hp, Option.map_some, Option.getD_some, Proc.todo]
          using htodo
      · -- no statement of a tick of client `k`
        have htries : (Action.run pid env).tries s k = none := by
          simp only [Action.tries, hp]
          split
          · rename_i t heq
            have hpk : ¬ pid = k := fun he => htick ⟨he.symm, t, Option.some.inj heq⟩
            split
            · exact if_neg hpk
            · rfl
          · rfl
        have hselects : (Action.run pid env).selects cfg s k = [] := by
          refine if_neg (fun hcond => ?_)
          obtain ⟨⟨e, t⟩, hcarries, _⟩ := (Option.any_eq_true _ _).mp hcond.2
          obtain ⟨_, heq, hk, _⟩ := carries_eq_some.mp hcarries
          cases heq
          rw [hp] at hk
          exact htick ⟨hcond.1.symm, t, Option.some.inj hk⟩
        rw [htries, hselects, Option.toList_none, List.nil_append, List.append_nil]
        by_cases hkp : k = pid
        · subst hkp
          have hold : p.todo = [] := by cases p <;> simp [Proc.todo] at htick ⊢
          have hnew : p'.todo = [] := by
            cases p' with
            | tick t' =>
                obtain ⟨t, rfl, _⟩ := tick_of_step hstep
                exact absurd ⟨rfl, t, rfl⟩ htick
            | _ => rfl
          simp [Sys.todo, hp, hold, hnew]
        · simp only [Sys.todo, Sys.put_proc_ne _ _ _ hkp]

/-- A tick has tried what it selected, but for what it has still before it. -/
theorem todo_run {clock : Timestamp} {db : Db} {tr : List (Sys × Action)}
    (h : SysRun cfg (Sys.atRest clock db) tr s) (k : Nat) :
    tried tr k ++ s.todo k = selected cfg tr k := by
  induction h with
  | nil => rfl
  | @snoc tr s s' a hpre hs ih =>
      have hstep := todo_step (k := k) hs
      unfold tried selected at ih ⊢
      rw [List.filterMap_append, List.flatMap_append, ← ih, List.append_assoc, List.append_assoc]
      refine congrArg _ ?_
      cases ht : a.tries s k <;> simpa [ht] using hstep

/-- An INSERT that is not itself rejected inserts the job. -/
theorem dispatches_of_tries {id : UUID} {sj : ScheduledJob} (hS : Scheduled cfg s)
    (htries : a.tries s k = some (id, sj)) (hthrows : a.throws cfg s = false) :
    a.dispatches cfg s id = some sj := by
  unfold Action.tries at htries
  split at htries
  · rename_i pid env
    split at htries
    · rename_i t hk
      split at htries
      · rename_i i sj' rest hpc
        split at htries
        · cases htries
          have hmem : (id, sj) ∈ t.pc.todo := by simp [hpc, TickPc.todo]
          obtain ⟨_, hqueue, _⟩ := (hS.copies pid t hk).todo id sj hmem
          have hacc : (env.fails || t.overflows cfg) = false := by
            simpa [Action.throws, hk] using hthrows
          exact dispatches_eq_some.mpr ⟨pid, env, t, rest, rfl, hk, hpc, hqueue, hacc⟩
        · cases htries
      · cases htries
    · cases htries
  · cases htries

end

/-! ## §2. Failure atomicity. -/

/-- Every job inserted for the schedule `id` goes with an advance; no occurrence is
dispatched twice, and none between the first and the one the row names is left out. -/
structure FailureAtomic (cfg : Config) (tr : List (Sys × Action)) (s : Sys) (id : UUID) : Prop where
  counts : (dispatched cfg tr id).length = advanced cfg tr id
  once : (dispatchedTimes cfg tr id).Nodup
  unskipped : ∀ row w, s.db.scheduledJobs.lookup id = some row → row.nextRunAt = some w →
    Walk (cfg.cronNext row.cronExpression) (dispatchedTimes cfg tr id ++ [w]) ∧
    (dispatchedTimes cfg tr id ++ [w]).head? = (firstRow tr s id).bind (·.nextRunAt)

/-- Every dispatched time lies before the time that the row is due next. -/
theorem InOrder.times {cfg : Config} {tr : List (Sys × Action)} {s : Sys} {id : UUID}
    {row : ScheduledJob} {w : Timestamp} (hI : InOrder cfg tr s id)
    (hrow : s.db.scheduledJobs.lookup id = some row) (hw : row.nextRunAt = some w)
    (howing : s.owing id = 0) :
    Walk (cfg.cronNext row.cronExpression) (dispatchedTimes cfg tr id ++ [w]) ∧
    (dispatchedTimes cfg tr id ++ [w]).head? = (firstRow tr s id).bind (·.nextRunAt) := by
  obtain ⟨before, htimes, hwalk, hhead⟩ := hI.walk row w hrow hw
  rw [if_pos howing, List.append_nil] at htimes
  rw [htimes]
  exact ⟨hwalk, hhead⟩

/-- Dispatched in order, no time comes twice. -/
theorem InOrder.nodup {cfg : Config} {tr : List (Sys × Action)} {s : Sys} {id : UUID}
    (hI : InOrder cfg tr s id) (hcron : ∀ e t n, cfg.cronNext e t = some n → t < n) :
    (dispatchedTimes cfg tr id).Nodup := by
  cases hrow : s.db.scheduledJobs.lookup id with
  | none => rw [(hI.absent hrow).1]; exact List.nodup_nil
  | some row =>
      -- a schedule that is never due is never dispatched
      cases hw : row.nextRunAt with
      | none => rw [hI.unset row hrow hw]; exact List.nodup_nil
      | some w =>
          obtain ⟨before, htimes, hwalk, _⟩ := hI.walk row w hrow hw
          have hnodup := hwalk.nodup (hcron row.cronExpression)
          rw [htimes]
          split
          · rw [List.append_nil]
            exact hnodup.of_append_left
          · exact hnodup

/-- **Failure atomicity**, exactly: it holds of a schedule when none of its advances was
rejected or had no successor, and no tick stands, or was cut short, between the INSERT and
the advance.  Whatever fails, a tick tries every schedule it selected, each from its own
copy, and an INSERT fails only by itself. -/
theorem dispatch_failure_atomic (cfg : Config) {clock : Timestamp} {db : Db}
    {tr : List (Sys × Action)} {s : Sys} (h : SysRun cfg (Sys.atRest clock db) tr s)
    (hfk : db.SchedulesRefer) (hno : NonOverlapping cfg tr)
    (hcron : ∀ e t n, cfg.cronNext e t = some n → t < n) :
    (∀ id, FailureAtomic cfg tr s id ↔ lost cfg tr id = 0 ∧ s.owing id = 0) ∧
    (∀ k, tried tr k ++ s.todo k = selected cfg tr k) ∧
    (∀ p ∈ tr, ∀ k id sj, p.2.tries p.1 k = some (id, sj) → p.2.throws cfg p.1 = false →
      p.2.dispatches cfg p.1 id = some sj) := by
  refine ⟨fun id => ⟨fun hatomic => ?_, fun ⟨hlost, howing⟩ => ?_⟩, todo_run h, ?_⟩
  · have hbal := balance_run h hfk id
    rw [hatomic.counts] at hbal
    omega
  · have hbal := balance_run h hfk id
    -- nothing is owed, so no tick was cut short before its advance
    have hA : ¬ Abandoned (tickHolder cfg tr) s id := by
      rintro ⟨k, t, hk, hadv, _⟩
      exact owing_ne_zero.mpr ⟨k, t, hk, hadv⟩ howing
    have hI := inOrder_run h hfk hno hlost hA
    exact ⟨by omega, hI.nodup hcron, fun row w hrow hw => hI.times hrow hw howing⟩
  · rintro ⟨t, a⟩ hp k id sj htries hthrows
    obtain ⟨tr₁, _, hpre, _, _⟩ := h.of_mem hp
    exact dispatches_of_tries (scheduled_run hpre hfk) htries hthrows

/-- An active schedule that is due at time 0. -/
def ScheduledJob.small : ScheduledJob where
  queueId := 1
  jobTemplate := { taskType := .simulated, payload := "", priority := 0, maxAttempts := 3 }
  cronExpression := ""
  nextRunAt := some 0
  lastRunAt := none
  isActive := true

/-- Schedule 5 of queue 1 is due at time 0. -/
def Db.smallSchedule : Db :=
  { Db.small 1 [] with scheduledJobs := (∅ : Table UUID ScheduledJob).insert 5 ScheduledJob.small }

theorem Db.smallSchedule_refers : Db.smallSchedule.SchedulesRefer := by
  intro id sj hrow
  rcases Table.lookup_insert_eq_some.mp hrow with ⟨_, rfl⟩ | ⟨_, hold⟩
  · decide
  · cases hold

/-- One tick from its acquire to its release. -/
def dispatchOnceActions : List Action := .start 0 (.tick 1) :: Action.runs 0 { now := 0, fresh := 100 } 8

theorem dispatch_failure_atomic_once :
    let tr := trace (step Config.smallCron) (Sys.atRest 0 Db.smallSchedule) dispatchOnceActions
    let s := play (step Config.smallCron) (Sys.atRest 0 Db.smallSchedule) dispatchOnceActions
    dispatchedTimes Config.smallCron tr 5 = [0] ∧ advanced Config.smallCron tr 5 = 1 ∧
    (∀ id, FailureAtomic Config.smallCron tr s id ↔ lost Config.smallCron tr id = 0 ∧ s.owing id = 0) ∧
    (∀ k, tried tr k ++ s.todo k = selected Config.smallCron tr k) ∧
    (∀ p ∈ tr, ∀ k id sj, p.2.tries p.1 k = some (id, sj) → p.2.throws Config.smallCron p.1 = false →
      p.2.dispatches Config.smallCron p.1 id = some sj) :=
  ⟨by rfl, by rfl, dispatch_failure_atomic Config.smallCron (run_of_play _ _ _ (by rfl))
    Db.smallSchedule_refers (by decide) (fun _ t n hn => by cases hn; exact Int.lt_succ t)⟩

/-- The UPDATE of `next_run_at` is rejected after the job has been inserted; the next tick
inserts another job for the same occurrence. -/
def dispatchTwiceActions : List Action :=
  .start 0 (.tick 1) :: Action.runs 0 { now := 0, fresh := 100 } 4 ++
    [.run 0 { now := 0, fails := true }, .run 0 { now := 0 }] ++
    .start 1 (.tick 1) :: Action.runs 1 { now := 0, fresh := 101 } 8

theorem rejected_advance_dispatches_twice :
    ¬ (∀ (cfg : Config) (clock : Timestamp) (db : Db) (tr : List (Sys × Action)) (s : Sys),
        SysRun cfg (Sys.atRest clock db) tr s → db.SchedulesRefer → NonOverlapping cfg tr →
        (∀ e t n, cfg.cronNext e t = some n → t < n) → s.quiet = true →
        ∀ id, FailureAtomic cfg tr s id) := by
  intro hclaim
  have hatomic := hclaim Config.smallCron 0 Db.smallSchedule _ _
    (run_of_play (step Config.smallCron) _ dispatchTwiceActions (by rfl)) Db.smallSchedule_refers
    (by decide) (fun _ t n hn => by cases hn; exact Int.lt_succ t)
    (by decide) 5
  have htwice : dispatchedTimes Config.smallCron (trace (step Config.smallCron)
      (Sys.atRest 0 Db.smallSchedule) dispatchTwiceActions) 5 = [0, 0] := by rfl
  have honce := hatomic.once
  rw [htwice] at honce
  exact absurd honce (by decide)

end JobScheduler
