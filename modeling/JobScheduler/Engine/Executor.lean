/-
  JobScheduler.Engine.Executor
  ────────────────────────────
  `executeJob` of `engine/executor.ts` as a resumable program: one program
  point before every statement, before the handler and before the callback
  POST.  `Exec.effect` is what the statement does to the database, `Exec.next`
  where the call goes on when it succeeds and `Exec.onThrow` where a rejection
  takes it: the inner `catch` serves the handler AND every statement after it,
  the outer `finally` releases the lock.
-/
import JobScheduler.Engine.RetryPolicy
import JobScheduler.Engine.DistributedLock

namespace JobScheduler

open Relational

/-! ## §1. Program points. -/

/-- The `resultStatus` argument of `updateBatchProgress`: the success path
counts `completed`, the dead-letter path `failed`. -/
inductive BatchResult
  | completed | failed
  deriving DecidableEq, Repr

/-- The calls of `publishEvent`. -/
inductive PublishSite
  | running
  | completed
  | released (job : UUID × Job) (rest : List (UUID × Job))
  | batchCompleted (result : BatchResult) (batch : Batch)
  | retryScheduled (delay : Int)
  | deadLettered (error : String)

/-- The calls of `insertJobLog`, which swallows its own errors. -/
inductive LogSite
  | started
  | succeeded
  | released (job : UUID × Job) (rest : List (UUID × Job))
  | attemptFailed (error : String)
  | retryScheduled (delay : Int) (maxAttempts : Nat) (strategy : RetryStrategy)
  | movedToDlq (error : String)
  | failureSummary (error : String)

/-- Where an `executeJob` call stands: the statement it sends next. -/
inductive ExecPc
  | acquire
  | setRunning
  /-- INSERT INTO system_events of a `publishEvent` call. -/
  | publish (site : PublishSite)
  /-- SELECT pg_notify of a `publishEvent` call. -/
  | notify (site : PublishSite)
  | insertExecution
  | log (site : LogSite)
  | handler
  | setCompleted (result : Json)
  | executionCompleted (result : Json)
  | unblock
  /-- The increment of `updateBatchProgress`. -/
  | batchProgress (result : BatchResult)
  /-- The status write of the finalisation branch. -/
  | batchStatus (result : BatchResult) (batch : Batch)
  | callback (result : BatchResult) (batch : Batch)
  | executionFailed (error : String)
  | selectPolicy (error : String)
  | requeue (delay : Int) (maxAttempts : Nat) (strategy : RetryStrategy)
  | deadLetter (error : String)
  | insertDeadLetter (error : String)
  | release
  | returned

/-- One activation of `executeJob`. -/
structure Exec where
  jobId : UUID
  /-- The row that `claimNextJob` returned. -/
  job : Job
  workerId : UUID
  /-- `execution.id`. -/
  executionId : UUID := 0
  /-- The `expires_at` that this call's acquire wrote (an auxiliary value). -/
  leaseUntil : Timestamp := 0
  pc : ExecPc := .acquire

namespace Exec

/-- `10 * 60 * 1000`. -/
def lockTtlMs : Int := 10 * 60 * 1000

/-- `const attemptNumber = job.attempts + 1`. -/
def attemptNumber (e : Exec) : Nat := e.job.attempts + 1

/-- The lock `job:<id>` of the call. -/
def lockKey (e : Exec) : LockKey := .job e.jobId

/-- The worker that runs the call owns its lock. -/
def owner (e : Exec) : LockOwner := .worker e.workerId

/-- Move the call to another statement, and leave the rest of it as it is. -/
def goto (e : Exec) (pc : ExecPc) : Exec := { e with pc := pc }

/-- The text of `generateFailureSummary` for this attempt. -/
def failureSummary (e : Exec) (error : String) : String :=
  generateFailureSummary error e.job.type e.attemptNumber

/-- `job.max_attempts || retryPolicy.max_retries`. -/
def maxAttempts (e : Exec) (policy : RetryPolicy) : Nat :=
  if e.job.maxAttempts = 0 then policy.maxRetries else e.job.maxAttempts

end Exec

/-- `getRetryPolicyForQueue`. -/
def getRetryPolicyForQueue (db : Db) (queueId : UUID) : RetryPolicy :=
  ((do
    let q ← db.queues.lookup queueId
    let policyId ← q.retryPolicyId
    db.retryPolicies.lookup policyId : Option RetryPolicy)).getD getDefaultRetryPolicy

/-- `batch.failed_jobs > 0 ? 'failed' : 'completed'`. -/
def finalStatus (batch : Batch) : BatchStatus :=
  if 0 < batch.failedJobs then .failed else .completed

/-- `batch.completed_jobs + batch.failed_jobs >= batch.total_jobs`. -/
def Batch.isFinished (batch : Batch) : Bool :=
  decide (batch.totalJobs ≤ batch.completedJobs + batch.failedJobs)

/-- `SET completed_jobs = completed_jobs + $2, failed_jobs = failed_jobs + $3`. -/
def Batch.progress (batch : Batch) (result : BatchResult) (now : Timestamp) : Batch :=
  match result with
  | .completed => { batch with completedJobs := batch.completedJobs + 1, updatedAt := now }
  | .failed => { batch with failedJobs := batch.failedJobs + 1, updatedAt := now }

/-- The WHERE clause of `unblockDependentJobs`. -/
def Db.releasable (db : Db) (completedJobId : UUID) (id : UUID) (j : Job) : Bool :=
  decide (j.status = .blocked) && decide ((id, completedJobId) ∈ db.jobDependencies)
    && db.noPendingPrerequisite id

/-- `SET status = CASE WHEN j.run_at <= now() THEN 'queued' ELSE 'scheduled' END`. -/
def Job.released (now : Timestamp) (j : Job) : Job :=
  { j with status := if j.runAt ≤ now then .queued else .scheduled, updatedAt := now }

/-! ## §2. Events and logs. -/

/-- The arguments of the `publishEvent` call at each site. -/
def PublishSite.event (e : Exec) : PublishSite → SystemEvent
  | .running => ⟨.jobRunning, .job, some e.jobId, .attempt e.jobId e.workerId e.attemptNumber⟩
  | .completed => ⟨.jobCompleted, .job, some e.jobId, .attempt e.jobId e.workerId e.attemptNumber⟩
  | .released job _ => ⟨.jobDependenciesSatisfied, .job, some job.1, .jobRow job.1 job.2⟩
  | .batchCompleted _ batch =>
      ⟨.batchCompleted, .batch, e.job.batchId, .batchRow (e.job.batchId.getD 0) batch⟩
  | .retryScheduled delay =>
      ⟨.jobRetryScheduled, .job, some e.jobId, .retry e.jobId e.attemptNumber delay⟩
  | .deadLettered error =>
      ⟨.jobDeadLettered, .job, some e.jobId, .deadLetter e.jobId (e.failureSummary error)⟩

/-- The row of each `insertJobLog` call. -/
def LogSite.row (e : Exec) : LogSite → JobLog
  | .started => ⟨e.jobId, .info, s!"Attempt {e.attemptNumber} started by worker {e.workerId}"⟩
  | .succeeded => ⟨e.jobId, .info, s!"Attempt {e.attemptNumber} completed successfully"⟩
  | .released job _ => ⟨job.1, .info, "Workflow dependencies satisfied; job released"⟩
  | .attemptFailed error => ⟨e.jobId, .error, s!"Attempt {e.attemptNumber} failed: {error}"⟩
  | .retryScheduled delay maxAttempts strategy =>
      ⟨e.jobId, .info,
        s!"Scheduled retry {e.attemptNumber + 1}/{maxAttempts} in {delay}ms ({strategy.name})"⟩
  | .movedToDlq _ =>
      ⟨e.jobId, .error, s!"Moved to dead letter queue after {e.attemptNumber} failed attempts"⟩
  | .failureSummary error =>
      ⟨e.jobId, .warn, s!"Failure summary: {e.failureSummary error}"⟩

/-! ## §3. Control flow. -/

namespace Exec

/-- After `unblockDependentJobs`: `if (job.batch_id)`. -/
def afterDependents (e : Exec) : ExecPc :=
  match e.job.batchId with
  | none => .release
  | some _ => .batchProgress .completed

/-- The loop over the released rows. -/
def releaseLoop (e : Exec) : List (UUID × Job) → ExecPc
  | [] => e.afterDependents
  | job :: rest => .log (.released job rest)

/-- After the `job.dead_lettered` event: `if (job.batch_id)`. -/
def afterDeadLetter (e : Exec) : ExecPc :=
  match e.job.batchId with
  | none => .release
  | some _ => .batchProgress .failed

/-- The statement after `await publishEvent(...)` at each site. -/
def afterPublish (e : Exec) : PublishSite → ExecPc
  | .running => .insertExecution
  | .completed => .unblock
  | .released _ rest => e.releaseLoop rest
  | .batchCompleted result batch =>
      match batch.callbackUrl with
      | none => .release
      | some _ => .callback result batch
  | .retryScheduled _ => .release
  | .deadLettered _ => e.afterDeadLetter

/-- The statement after `await logJob(...)` at each site. -/
def afterLog : LogSite → ExecPc
  | .started => .handler
  | .succeeded => .publish .completed
  | .released job rest => .publish (.released job rest)
  | .attemptFailed error => .selectPolicy error
  | .retryScheduled delay _ _ => .publish (.retryScheduled delay)
  | .movedToDlq error => .log (.failureSummary error)
  | .failureSummary error => .publish (.deadLettered error)

/-- Where a rejected `publishEvent` takes the call. -/
def throwPublish (error : String) : PublishSite → ExecPc
  | .running => .release
  | .completed => .executionFailed error
  | .released _ _ => .executionFailed error
  | .batchCompleted .completed _ => .executionFailed error
  | .batchCompleted .failed _ => .release
  | .retryScheduled _ => .release
  | .deadLettered _ => .release

/-- Where a rejection takes the call. -/
def onThrow (error : String) : ExecPc → ExecPc
  -- before the outer `try`: nothing to release
  | .acquire => .returned
  | .setRunning => .release
  | .publish site => throwPublish error site
  | .notify site => throwPublish error site
  | .insertExecution => .release
  -- `insertJobLog` swallows its errors
  | .log site => afterLog site
  | .handler => .executionFailed error
  | .setCompleted _ => .executionFailed error
  | .executionCompleted _ => .executionFailed error
  | .unblock => .executionFailed error
  | .batchProgress .completed => .executionFailed error
  -- inside the `catch` block only `finally` is left
  | .batchProgress .failed => .release
  | .batchStatus .completed _ => .executionFailed error
  | .batchStatus .failed _ => .release
  -- the callback has a `catch` of its own
  | .callback _ _ => .release
  | .executionFailed _ => .release
  | .selectPolicy _ => .release
  | .requeue _ _ _ => .release
  | .deadLetter _ => .release
  | .insertDeadLetter _ => .release
  | .release => .returned
  | .returned => .returned

/-- The batch row that RETURNING gives to `updateBatchProgress`. -/
def progressed (e : Exec) (env : Env) (db : Db) (result : BatchResult) : Option Batch :=
  e.job.batchId.bind (fun b => (db.batches.lookup b).map (fun batch => batch.progress result env.now))

/-- After the increment of the batch: finalise it once every job is counted, else release. -/
def afterProgress (e : Exec) (env : Env) (db : Db) (result : BatchResult) : ExecPc :=
  match e.progressed env db result with
  | none => .release
  | some batch => if batch.isFinished then .batchStatus result batch else .release

/-- `if (attemptNumber < maxAttempts)`, with the policy just read. -/
def afterPolicy (e : Exec) (env : Env) (db : Db) (error : String) : ExecPc :=
  let policy := getRetryPolicyForQueue db e.job.queueId
  if e.attemptNumber < e.maxAttempts policy then
    .requeue (computeRetryDelayMs policy e.attemptNumber env.draw) (e.maxAttempts policy) policy.strategy
  else .deadLetter error

/-- The rows `unblockDependentJobs` returns. -/
def releasedRows (e : Exec) (env : Env) (db : Db) : List (UUID × Job) :=
  (db.jobs.select (db.releasable e.jobId)).map (fun r => (r.1, r.2.released env.now))

/-- The answer of `acquireDistributedLock` for this call, in this database. -/
def acquires (e : Exec) (env : Env) (db : Db) : Bool :=
  (acquireDistributedLock env.now e.lockKey e.owner lockTtlMs db.distributedLocks).2

/-- Where the call goes on after the statement at its program point. -/
def next (env : Env) (e : Exec) (db : Db) : Exec :=
  match e.pc with
  | .acquire =>
      if e.acquires env db then { e with pc := .setRunning, leaseUntil := env.now + lockTtlMs }
      -- lock held: the claimed job is left as it is
      else e.goto .returned
  | .setRunning => e.goto (.publish .running)
  | .publish site => e.goto (.notify site)
  | .notify site => e.goto (e.afterPublish site)
  | .insertExecution => { e with pc := .log .started, executionId := env.fresh }
  | .log site => e.goto (afterLog site)
  | .handler =>
      match env.handler with
      | .ok result => e.goto (.setCompleted result)
      | .error message => e.goto (.executionFailed message)
  | .setCompleted result => e.goto (.executionCompleted result)
  | .executionCompleted _ => e.goto (.log .succeeded)
  | .unblock => e.goto (e.releaseLoop (e.releasedRows env db))
  | .batchProgress result => e.goto (e.afterProgress env db result)
  | .batchStatus result batch =>
      e.goto (.publish (.batchCompleted result { batch with status := finalStatus batch }))
  | .callback _ _ => e.goto .release
  | .executionFailed error => e.goto (.log (.attemptFailed error))
  | .selectPolicy error => e.goto (e.afterPolicy env db error)
  | .requeue delay maxAttempts strategy => e.goto (.log (.retryScheduled delay maxAttempts strategy))
  | .deadLetter error => e.goto (.insertDeadLetter error)
  | .insertDeadLetter error => e.goto (.log (.movedToDlq error))
  | .release => e.goto .returned
  | .returned => e

/-! ## §4. Effects. -/

/-- What the statement at the program point does to the database. -/
def effect (env : Env) (e : Exec) (db : Db) : Db :=
  match e.pc with
  | .acquire =>
      db.setLocks (acquireDistributedLock env.now e.lockKey e.owner lockTtlMs db.distributedLocks).1
  | .setRunning =>
      db.updateJob e.jobId (fun j =>
        { j with status := .running, attempts := e.attemptNumber, updatedAt := env.now })
  | .publish site => db.insertEvent (site.event e)
  | .insertExecution =>
      db.insertExecution env.fresh
        { jobId := e.jobId, workerId := e.workerId, attemptNumber := e.attemptNumber,
          status := .running, startedAt := env.now, finishedAt := none,
          errorMessage := none, result := none }
  | .log site => db.insertJobLog (site.row e)
  | .setCompleted result =>
      db.updateJob e.jobId (fun j =>
        { j with status := .completed, resultData := some result, updatedAt := env.now })
  | .executionCompleted result =>
      db.updateExecution e.executionId (fun x =>
        { x with status := .completed, finishedAt := some env.now, result := some result })
  | .unblock => db.updateJobsWhere (db.releasable e.jobId) (Job.released env.now)
  | .batchProgress result => db.updateBatch e.job.batchId (fun b => b.progress result env.now)
  | .batchStatus _ batch =>
      db.updateBatch e.job.batchId (fun b =>
        { b with status := finalStatus batch, updatedAt := env.now })
  | .executionFailed error =>
      db.updateExecution e.executionId (fun x =>
        { x with status := .failed, finishedAt := some env.now, errorMessage := some error })
  | .requeue delay _ _ =>
      db.updateJob e.jobId (fun j =>
        { j with status := .queued, workerId := none, runAt := env.now + delay, updatedAt := env.now })
  | .deadLetter error =>
      db.updateJob e.jobId (fun j =>
        { j with
          status := .deadLetter
          failureSummary := some (e.failureSummary error)
          updatedAt := env.now })
  | .insertDeadLetter error =>
      db.insertDeadLetter env.fresh
        { originalJobId := some e.jobId, queueId := some e.job.queueId,
          payload := some e.job.payload, failureReason := error,
          attemptsMade := e.attemptNumber, failureSummary := e.failureSummary error }
  | .release => db.setLocks (releaseDistributedLock e.lockKey e.owner db.distributedLocks)
  | .notify _ | .handler | .callback _ _ | .selectPolicy _ | .returned => db

/-- The job rows the statement writes, whose locks it needs. -/
def rowLocks (e : Exec) (db : Db) : List UUID :=
  match e.pc with
  | .setRunning | .setCompleted _ | .requeue _ _ _ | .deadLetter _ => [e.jobId]
  | .unblock => (db.jobs.select (db.releasable e.jobId)).map Prod.fst
  | _ => []

/-- pg_notify rejects the event. -/
def overflows (cfg : Config) (e : Exec) : Bool :=
  match e.pc with
  | .notify site => !cfg.notifyAccepts (site.event e)
  | _ => false

/-- The statement can be executed: the call has not returned, no row it writes
is locked, and a generated id is new. -/
def ready (ctx : Ctx) (env : Env) (e : Exec) (db : Db) : Bool :=
  match e.pc with
  | .returned => false
  | .insertExecution => decide (env.fresh ∉ db.jobExecutions)
  | .insertDeadLetter _ => decide (env.fresh ∉ db.deadLetterQueue)
  | _ => (e.rowLocks db).all ctx.jobFree

/-- The next statement succeeds or is rejected. -/
def step (cfg : Config) (ctx : Ctx) (env : Env) (e : Exec) (db : Db) : Option (Db × Exec) :=
  if e.ready ctx env db then
    if env.fails || e.overflows cfg then some (db, e.goto (onThrow env.error e.pc))
    else some (e.effect env db, e.next env db)
  else none

end Exec

end JobScheduler
