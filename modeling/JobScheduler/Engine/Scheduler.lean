/-
  JobScheduler.Engine.Scheduler
  ─────────────────────────────
  `schedulerTick` of `engine/scheduler.ts` as a resumable program.  The inner
  `catch` drops the rest of one due schedule and goes on with the next, the
  outer one gives up the tick, and `finally` releases the lock.
-/
import JobScheduler.Engine.DistributedLock

namespace JobScheduler

open Relational

/-- Where a `tick` call stands: the statement it sends next. -/
inductive TickPc
  | acquire
  | flip
  /-- The two statements of `publishEvent('scheduler.jobs_released')`. -/
  | publishReleased (count : Nat)
  | notifyReleased (count : Nat)
  | selectDue
  | insertJob (id : UUID) (sj : ScheduledJob) (rest : List (UUID × ScheduledJob))
  | advance (id : UUID) (sj : ScheduledJob) (nextRun : Timestamp) (rest : List (UUID × ScheduledJob))
  | publishDispatched (id : UUID) (sj : ScheduledJob) (nextRun : Timestamp)
      (rest : List (UUID × ScheduledJob))
  | notifyDispatched (id : UUID) (sj : ScheduledJob) (nextRun : Timestamp)
      (rest : List (UUID × ScheduledJob))
  | release
  | returned

/-- One call of `tick` in the process `processId`. -/
structure Tick where
  /-- `process.pid`. -/
  processId : Nat
  pc : TickPc := .acquire

namespace Tick

/-- The TTL that the tick passes to `acquireDistributedLock`. -/
def lockTtlMs : Int := 10000

/-- The lock owner `scheduler-<pid>`. -/
def owner (t : Tick) : LockOwner := .scheduler t.processId

/-- Move the tick to another statement. -/
def goto (t : Tick) (pc : TickPc) : Tick := { t with pc := pc }

/-- `status = 'scheduled' AND run_at <= now()`. -/
def flips (now : Timestamp) (_ : UUID) (j : Job) : Bool :=
  decide (j.status = .scheduled) && decide (j.runAt ≤ now)

/-- `is_active = true AND next_run_at <= now()`. -/
def due (now : Timestamp) (_ : UUID) (sj : ScheduledJob) : Bool :=
  sj.isActive && sj.nextRunAt.any (fun next => decide (next ≤ now))

/-- The loop over `dueSchedules`. -/
def loop : List (UUID × ScheduledJob) → TickPc
  | [] => .release
  | (id, sj) :: rest => .insertJob id sj rest

/-- The row of `INSERT INTO jobs ... SELECT ... FROM queues q WHERE q.id = $1`:
the template's `task_type` is not copied, the column default applies. -/
def recurringRow (now : Timestamp) (sj : ScheduledJob) (q : Queue) : Job where
  queueId := sj.queueId
  type := .recurring
  taskType := .simulated
  payload := sj.jobTemplate.payload
  status := .queued
  priority := sj.jobTemplate.priority
  runAt := now
  attempts := 0
  maxAttempts := if sj.jobTemplate.maxAttempts = 0 then 3 else sj.jobTemplate.maxAttempts
  idempotencyKey := none
  workerId := none
  batchId := none
  shardKey := q.shardKey
  failureSummary := none
  resultData := none
  updatedAt := now

/-- The `scheduler.jobs_released` event of a flip that changed `count` rows. -/
def releasedEvent (count : Nat) : SystemEvent :=
  ⟨.schedulerJobsReleased, .scheduler, none, .count count⟩

/-- The `schedule.dispatched` event of one schedule. -/
def dispatchedEvent (id : UUID) (sj : ScheduledJob) (nextRun : Timestamp) : SystemEvent :=
  ⟨.scheduleDispatched, .scheduledJob, some id, .dispatched sj.queueId nextRun⟩

/-- Where a rejection takes the tick. -/
def onThrow : TickPc → TickPc
  | .acquire => .returned
  | .flip | .publishReleased _ | .notifyReleased _ | .selectDue => .release
  -- the inner `catch`: on to the next schedule
  | .insertJob _ _ rest => loop rest
  | .advance _ _ _ rest => loop rest
  | .publishDispatched _ _ _ rest => loop rest
  | .notifyDispatched _ _ _ rest => loop rest
  | .release => .returned
  | .returned => .returned

/-- After the insert: `cronParser.parseExpression(..., { currentDate: sj.next_run_at })`,
which throws into the inner `catch` when the expression does not parse. -/
def afterInsert (cfg : Config) (id : UUID) (sj : ScheduledJob)
    (rest : List (UUID × ScheduledJob)) : TickPc :=
  match sj.nextRunAt.bind (cfg.cronNext sj.cronExpression) with
  | some nextRun => .advance id sj nextRun rest
  | none => loop rest

/-- The answer of `acquireDistributedLock` for this tick, in this database. -/
def acquires (t : Tick) (env : Env) (db : Db) : Bool :=
  (acquireDistributedLock env.now .schedulerTick t.owner lockTtlMs db.distributedLocks).2

/-- The statement after the one that `t.pc` stands for, once that one has succeeded. -/
def next (cfg : Config) (env : Env) (t : Tick) (db : Db) : TickPc :=
  match t.pc with
  | .acquire => if t.acquires env db then .flip else .returned
  | .flip =>
      let count := db.jobs.count (flips env.now)
      if 0 < count then .publishReleased count else .selectDue
  | .publishReleased count => .notifyReleased count
  | .notifyReleased _ => .selectDue
  | .selectDue => loop (db.scheduledJobs.select (due env.now))
  | .insertJob id sj rest => afterInsert cfg id sj rest
  | .advance id sj nextRun rest => .publishDispatched id sj nextRun rest
  | .publishDispatched id sj nextRun rest => .notifyDispatched id sj nextRun rest
  | .notifyDispatched _ _ _ rest => loop rest
  | .release => .returned
  | .returned => .returned

/-- What the statement at `t.pc` writes when it succeeds. -/
def effect (env : Env) (t : Tick) (db : Db) : Db :=
  match t.pc with
  | .acquire =>
      db.setLocks
        (acquireDistributedLock env.now .schedulerTick t.owner lockTtlMs db.distributedLocks).1
  | .flip =>
      db.updateJobsWhere (flips env.now) (fun j => { j with status := .queued, updatedAt := env.now })
  | .publishReleased count => db.insertEvent (releasedEvent count)
  | .insertJob _ sj _ =>
      -- INSERT ... SELECT inserts nothing when the queue is gone
      match db.queues.lookup sj.queueId with
      | none => db
      | some q => db.insertJob env.fresh (recurringRow env.now sj q)
  | .advance id _ nextRun _ =>
      db.updateSchedule id (fun sj =>
        { sj with lastRunAt := some env.now, nextRunAt := some nextRun })
  | .publishDispatched id sj nextRun _ => db.insertEvent (dispatchedEvent id sj nextRun)
  | .release => db.setLocks (releaseDistributedLock .schedulerTick t.owner db.distributedLocks)
  | .notifyReleased _ | .selectDue | .notifyDispatched _ _ _ _ | .returned => db

/-- The job rows that the statement has to lock before it can write. -/
def rowLocks (env : Env) (t : Tick) (db : Db) : List UUID :=
  match t.pc with
  | .flip => (db.jobs.select (flips env.now)).map Prod.fst
  | _ => []

/-- `pg_notify` rejects the payload of the event for its length. -/
def overflows (cfg : Config) (t : Tick) : Bool :=
  match t.pc with
  | .notifyReleased count => !cfg.notifyAccepts (releasedEvent count)
  | .notifyDispatched id sj nextRun _ => !cfg.notifyAccepts (dispatchedEvent id sj nextRun)
  | _ => false

/-- The statement can be executed now: its rows are free, and an inserted id is new. -/
def ready (ctx : Ctx) (env : Env) (t : Tick) (db : Db) : Bool :=
  match t.pc with
  | .returned => false
  | .insertJob _ _ _ => decide (env.fresh ∉ db.jobs)
  | _ => (t.rowLocks env db).all ctx.jobFree

/-- One statement of the tick: rejected, or executed with its effect; `none` while it has to wait.
-/
def step (cfg : Config) (ctx : Ctx) (env : Env) (t : Tick) (db : Db) : Option (Db × Tick) :=
  if t.ready ctx env db then
    if env.fails || t.overflows cfg then some (db, t.goto (onThrow t.pc))
    else some (t.effect env db, t.goto (t.next cfg env db))
  else none

/-- A statement of a tick is rejected and leaves the database alone, or is carried out. -/
theorem step_cases {cfg : Config} {ctx : Ctx} {env : Env} {db db' : Db} {t t' : Tick}
    (h : t.step cfg ctx env db = some (db', t')) :
    t.ready ctx env db = true ∧
    ((env.fails || t.overflows cfg) = true ∧ db' = db ∧ t' = t.goto (onThrow t.pc) ∨
     (env.fails || t.overflows cfg) = false ∧ db' = t.effect env db ∧ t' = t.goto (t.next cfg env db)) := by
  unfold step at h
  split at h
  · rename_i hready
    refine ⟨hready, ?_⟩
    split at h
    · rename_i hr
      cases h
      exact .inl ⟨hr, rfl, rfl⟩
    · rename_i hr
      cases h
      exact .inr ⟨by simpa using hr, rfl, rfl⟩
  · cases h

end Tick

end JobScheduler
