/-
  JobScheduler.Routes.Operator
  ────────────────────────────
  The operator requests as resumable programs: POST /jobs/:id/retry
  (`jobs.routes.ts`), POST /dlq/:id/replay (`dlq.routes.ts`),
  POST /batches/:id/cancel (`batches.routes.ts`) and PATCH /queues/:id
  (`queues.routes.ts`).  Each reads first and writes later, one statement a
  step, outside any transaction.
-/
import JobScheduler.Schema.Database

namespace JobScheduler

open Relational

/-- `SET status = 'queued', worker_id = NULL, run_at = now(), attempts = 0`, the
reset that manual retry and DLQ replay share. -/
def Job.reset (now : Timestamp) (j : Job) : Job :=
  { j with
    status := .queued
    workerId := none
    runAt := now
    attempts := 0
    updatedAt := now }

/-- The status column as the API spells it. -/
def JobStatus.name : JobStatus → String
  | .blocked => "blocked"
  | .queued => "queued"
  | .scheduled => "scheduled"
  | .claimed => "claimed"
  | .running => "running"
  | .completed => "completed"
  | .failed => "failed"
  | .deadLetter => "dead_letter"

/-! ## §1. POST /jobs/:id/retry. -/

/-- Where POST /jobs/:id/retry stands. -/
inductive RetryPc
  | select
  | update
  | log (row : Option Job)
  | publish (row : Option Job)
  | notify (ev : SystemEvent)
  | replied (reply : Reply)

/-- One request POST /jobs/:id/retry. -/
structure Retry where
  userId : UUID
  jobId : UUID
  pc : RetryPc := .select

namespace Retry

/-- Move the request to another statement. -/
def goto (r : Retry) (pc : RetryPc) : Retry := { r with pc := pc }

/-- End the request with an error reply. -/
def fail (r : Retry) (err : AppError) : Retry := r.goto (.replied (.failure err))

/-- One statement of the retry handler; `none` once it has replied or while it has to wait. -/
def step (cfg : Config) (ctx : Ctx) (env : Env) (r : Retry) (db : Db) : Option (Db × Retry) :=
  match r.pc with
  | .replied _ => none
  | .select =>
      if env.fails then some (db, r.fail (internalServerError env.error))
      else
        match db.jobs.lookup r.jobId with
        | none => some (db, r.fail ⟨404, "NOT_FOUND", "Job not found"⟩)
        | some job =>
            -- the status is read here and not checked again by the UPDATE
            if !db.canOperate job.queueId r.userId then
              some (db, r.fail ⟨404, "NOT_FOUND", "Job not found"⟩)
            else if job.status.retryable then some (db, r.goto .update)
            else some (db, r.fail ⟨400, "BAD_REQUEST", s!"Cannot retry a job with status '{job.status.name}'"⟩)
  | .update =>
      if env.fails then some (db, r.fail (internalServerError env.error))
      else if ctx.jobFree r.jobId then
        some (db.updateJob r.jobId (Job.reset env.now),
          r.goto (.log ((db.jobs.lookup r.jobId).map (Job.reset env.now))))
      else none
  | .log row =>
      if env.fails then some (db, r.fail (internalServerError env.error))
      else some (db.insertJobLog ⟨r.jobId, .info, "Manual retry triggered"⟩, r.goto (.publish row))
  -- `rows[0].id` of an UPDATE without rows throws
  | .publish none => some (db, r.fail (internalServerError env.error))
  | .publish (some row) =>
      let ev : SystemEvent := ⟨.jobRetryRequested, .job, some r.jobId, .jobRow r.jobId row⟩
      if env.fails then some (db, r.fail (internalServerError env.error))
      else some (db.insertEvent ev, r.goto (.notify ev))
  | .notify ev =>
      if env.fails || !cfg.notifyAccepts ev then some (db, r.fail (internalServerError env.error))
      else some (db, r.goto (.replied (.success 200)))

end Retry

/-! ## §2. POST /dlq/:id/replay. -/

/-- Where POST /dlq/:id/replay stands. -/
inductive ReplayPc
  | select
  | update (jobId : UUID)
  | log (jobId : UUID) (row : Option Job)
  | insert (queueId : UUID) (payload : Json)
  | delete (row : Option (UUID × Job))
  | publish (row : Option (UUID × Job))
  | notify (ev : SystemEvent)
  | replied (reply : Reply)

/-- One request POST /dlq/:id/replay. -/
structure Replay where
  userId : UUID
  entryId : UUID
  pc : ReplayPc := .select

namespace Replay

/-- Move the request to another statement. -/
def goto (r : Replay) (pc : ReplayPc) : Replay := { r with pc := pc }

/-- End the request with an error reply. -/
def fail (r : Replay) (err : AppError) : Replay := r.goto (.replied (.failure err))

/-- The job created from an entry whose original job was deleted. -/
def replayedRow (now : Timestamp) (queueId : UUID) (payload : Json) (q : Queue) : Job where
  queueId := queueId
  type := .immediate
  taskType := .simulated
  payload := payload
  status := .queued
  priority := 0
  runAt := now
  attempts := 0
  maxAttempts := 3
  idempotencyKey := none
  workerId := none
  batchId := none
  shardKey := q.shardKey
  failureSummary := none
  resultData := none
  updatedAt := now

/-- The user may operate the entry's queue. -/
def visible (r : Replay) (db : Db) (entry : DeadLetterEntry) : Bool :=
  entry.queueId.any (fun q => db.canOperate q r.userId)

/-- The branch on the entry: reset the original job, insert a new one, or refuse. -/
def afterSelect (r : Replay) (entry : DeadLetterEntry) : Replay :=
  match entry.originalJobId, entry.queueId, entry.payload with
  | some jobId, _, _ => r.goto (.update jobId)
  | none, some queueId, some payload => r.goto (.insert queueId payload)
  | none, _, _ =>
      r.fail ⟨400, "BAD_REQUEST", "Cannot replay this dead letter entry — missing queue or payload"⟩

/-- One statement of the replay handler; `none` once it has replied or while it has to wait. -/
def step (cfg : Config) (ctx : Ctx) (env : Env) (r : Replay) (db : Db) : Option (Db × Replay) :=
  match r.pc with
  | .replied _ => none
  | .select =>
      if env.fails then some (db, r.fail (internalServerError env.error))
      else
        match db.deadLetterQueue.lookup r.entryId with
        | none => some (db, r.fail ⟨404, "NOT_FOUND", "Dead letter entry not found"⟩)
        | some entry =>
            if r.visible db entry then some (db, r.afterSelect entry)
            else some (db, r.fail ⟨404, "NOT_FOUND", "Dead letter entry not found"⟩)
  | .update jobId =>
      if env.fails then some (db, r.fail (internalServerError env.error))
      else if ctx.jobFree jobId then
        some (db.updateJob jobId (Job.reset env.now),
          r.goto (.log jobId ((db.jobs.lookup jobId).map (Job.reset env.now))))
      else none
  | .log jobId row =>
      if env.fails then some (db, r.fail (internalServerError env.error))
      else some (db.insertJobLog ⟨jobId, .info, "Replayed from dead letter queue"⟩,
        r.goto (.delete (row.map (fun j => (jobId, j)))))
  | .insert queueId payload =>
      if env.fails then some (db, r.fail (internalServerError env.error))
      else if env.fresh ∈ db.jobs then none
      else
        match db.queues.lookup queueId with
        | none => some (db, r.goto (.delete none))
        | some q =>
            let row := replayedRow env.now queueId payload q
            some (db.insertJob env.fresh row, r.goto (.delete (some (env.fresh, row))))
  | .delete row =>
      if env.fails then some (db, r.fail (internalServerError env.error))
      else some (db.deleteDeadLetter r.entryId, r.goto (.publish row))
  -- `rows[0].id` of a statement without rows throws
  | .publish none => some (db, r.fail (internalServerError env.error))
  | .publish (some (id, row)) =>
      let ev : SystemEvent := ⟨.dlqReplayed, .job, some id, .jobRow id row⟩
      if env.fails then some (db, r.fail (internalServerError env.error))
      else some (db.insertEvent ev, r.goto (.notify ev))
  | .notify ev =>
      if env.fails || !cfg.notifyAccepts ev then some (db, r.fail (internalServerError env.error))
      else some (db, r.goto (.replied (.success 200)))

end Replay

/-! ## §3. POST /batches/:id/cancel. -/

/-- Where POST /batches/:id/cancel stands. -/
inductive CancelPc
  | select
  | updateBatch
  | updateJobs (batch : Option Batch)
  | publish (batch : Option Batch)
  | notify (ev : SystemEvent)
  | replied (reply : Reply)

/-- One request POST /batches/:id/cancel. -/
structure Cancel where
  userId : UUID
  batchId : UUID
  pc : CancelPc := .select

namespace Cancel

/-- Move the request to another statement. -/
def goto (r : Cancel) (pc : CancelPc) : Cancel := { r with pc := pc }

/-- End the request with an error reply. -/
def fail (r : Cancel) (err : AppError) : Cancel := r.goto (.replied (.failure err))

/-- `batch_id = $1 AND status IN ('queued', 'scheduled', 'blocked')`. -/
def cancels (batchId : UUID) (_ : UUID) (j : Job) : Bool :=
  decide (j.batchId = some batchId) && j.status.pending

/-- `SET status = 'failed', failure_summary = 'Batch cancelled by user'`. -/
def cancelledJob (now : Timestamp) (j : Job) : Job :=
  { j with
    status := .failed
    failureSummary := some "Batch cancelled by user"
    updatedAt := now }

/-- `updatedBatch[0]` is the payload; `undefined` gives the default `{}`. -/
def cancelledEvent (r : Cancel) (batch : Option Batch) : SystemEvent where
  eventType := .batchCancelled
  entityType := .batch
  entityId := some r.batchId
  payload := match batch with
    | some row => .batchRow r.batchId row
    | none => .empty

/-- `SET status = 'cancelled'`. -/
def cancelledBatch (now : Timestamp) (b : Batch) : Batch :=
  { b with status := .cancelled, updatedAt := now }

/-- One statement of the cancel handler; `none` once it has replied or while it has to wait. -/
def step (cfg : Config) (ctx : Ctx) (env : Env) (r : Cancel) (db : Db) : Option (Db × Cancel) :=
  match r.pc with
  | .replied _ => none
  | .select =>
      if env.fails then some (db, r.fail (internalServerError env.error))
      else
        match db.batches.lookup r.batchId with
        | none => some (db, r.fail ⟨404, "NOT_FOUND", "Batch not found"⟩)
        | some batch =>
            if db.canOperate batch.queueId r.userId then some (db, r.goto .updateBatch)
            else some (db, r.fail ⟨404, "NOT_FOUND", "Batch not found"⟩)
  | .updateBatch =>
      if env.fails then some (db, r.fail (internalServerError env.error))
      else some (db.updateBatch (some r.batchId) (cancelledBatch env.now),
        r.goto (.updateJobs ((db.batches.lookup r.batchId).map (cancelledBatch env.now))))
  | .updateJobs batch =>
      if env.fails then some (db, r.fail (internalServerError env.error))
      else if ((db.jobs.select (cancels r.batchId)).map Prod.fst).all ctx.jobFree then
        some (db.updateJobsWhere (cancels r.batchId) (cancelledJob env.now), r.goto (.publish batch))
      else none
  | .publish batch =>
      let ev := r.cancelledEvent batch
      if env.fails then some (db, r.fail (internalServerError env.error))
      else some (db.insertEvent ev, r.goto (.notify ev))
  | .notify ev =>
      if env.fails || !cfg.notifyAccepts ev then some (db, r.fail (internalServerError env.error))
      else some (db, r.goto (.replied (.success 200)))

end Cancel

/-! ## §4. PATCH /queues/:id. -/

/-- A body that `updateQueueSchema` accepts: `none` is an absent key. -/
structure UpdateQueueInput where
  name : Option String := none
  priority : Option Nat := none
  concurrencyLimit : Option Nat := none
  retryPolicyId : Option (Option UUID) := none
  isPaused : Option Bool := none
  shardKey : Option String := none

/-- The SET clauses of the keys that are present. -/
def UpdateQueueInput.apply (u : UpdateQueueInput) (q : Queue) : Queue :=
  { q with
    name := u.name.getD q.name
    priority := u.priority.getD q.priority
    concurrencyLimit := u.concurrencyLimit.getD q.concurrencyLimit
    retryPolicyId := u.retryPolicyId.getD q.retryPolicyId
    isPaused := u.isPaused.getD q.isPaused
    shardKey := u.shardKey.getD q.shardKey }

/-- `setClauses.length === 0`. -/
def UpdateQueueInput.isEmpty (u : UpdateQueueInput) : Bool :=
  u.name.isNone && u.priority.isNone && u.concurrencyLimit.isNone && u.retryPolicyId.isNone
    && u.isPaused.isNone && u.shardKey.isNone

/-- Where PATCH /queues/:id stands. -/
inductive PatchPc
  | update
  | publish (row : Queue)
  | notify (ev : SystemEvent)
  | replied (reply : Reply)

/-- One request PATCH /queues/:id with its validated updates. -/
structure Patch where
  userId : UUID
  queueId : UUID
  updates : UpdateQueueInput
  pc : PatchPc := .update

namespace Patch

/-- Move the request to another statement. -/
def goto (r : Patch) (pc : PatchPc) : Patch := { r with pc := pc }

/-- End the request with an error reply. -/
def fail (r : Patch) (err : AppError) : Patch := r.goto (.replied (.failure err))

/-- One statement of the update handler; `none` once it has replied or while it has to wait. -/
def step (cfg : Config) (ctx : Ctx) (env : Env) (r : Patch) (db : Db) : Option (Db × Patch) :=
  match r.pc with
  | .replied _ => none
  | .update =>
      if r.updates.isEmpty then some (db, r.fail ⟨400, "BAD_REQUEST", "No fields to update"⟩)
      else if env.fails then some (db, r.fail (internalServerError env.error))
      else
        match db.queues.lookup r.queueId with
        | none => some (db, r.fail ⟨404, "NOT_FOUND", "Queue not found"⟩)
        | some q =>
            if !db.canOperate r.queueId r.userId then
              some (db, r.fail ⟨404, "NOT_FOUND", "Queue not found"⟩)
            else if ctx.queueFree r.queueId then
              -- the UPDATE needs the row lock that open claims hold
              some (db.updateQueue r.queueId r.updates.apply, r.goto (.publish (r.updates.apply q)))
            else none
  | .publish row =>
      let ev : SystemEvent := ⟨.queueUpdated, .queue, some r.queueId, .queueRow r.queueId row⟩
      if env.fails then some (db, r.fail (internalServerError env.error))
      else some (db.insertEvent ev, r.goto (.notify ev))
  | .notify ev =>
      if env.fails || !cfg.notifyAccepts ev then some (db, r.fail (internalServerError env.error))
      else some (db, r.goto (.replied (.success 200)))

end Patch

/-! ## §5. Inversion of one statement. -/

/-- What one statement of a manual retry can do. -/
inductive Retry.Stepped (ctx : Ctx) (env : Env) (r : Retry) (db : Db) : Db → Retry → Prop
  | failed (err : AppError) : Stepped ctx env r db db (r.fail err)
  | selected (hpc : r.pc = .select) (hf : env.fails = false) (job : Job)
      (hjob : db.jobs.lookup r.jobId = some job) (hst : job.status.retryable = true) :
      Stepped ctx env r db db (r.goto .update)
  | updated (hpc : r.pc = .update) (hf : env.fails = false) (hfree : ctx.jobFree r.jobId = true) :
      Stepped ctx env r db (db.updateJob r.jobId (Job.reset env.now))
        (r.goto (.log ((db.jobs.lookup r.jobId).map (Job.reset env.now))))
  | logged (row : Option Job) (hpc : r.pc = .log row) (log : JobLog) :
      Stepped ctx env r db (db.insertJobLog log) (r.goto (.publish row))
  | published (ev : SystemEvent) (row : Job) (hpc : r.pc = .publish (some row)) :
      Stepped ctx env r db (db.insertEvent ev) (r.goto (.notify ev))
  | replied (ev : SystemEvent) (hpc : r.pc = .notify ev) :
      Stepped ctx env r db db (r.goto (.replied (.success 200)))

theorem Retry.stepped {cfg : Config} {ctx : Ctx} {env : Env} {r r' : Retry} {db db' : Db}
    (h : r.step cfg ctx env db = some (db', r')) : Retry.Stepped ctx env r db db' r' := by
  unfold Retry.step at h
  split at h <;> (repeat' split at h) <;> cases h
  · exact .failed _
  · exact .failed _
  · exact .failed _
  · exact .selected ‹_› (by simpa using ‹¬env.fails = true›) _ ‹_› ‹_›
  · exact .failed _
  · exact .failed _
  · exact .updated ‹_› (by simpa using ‹¬env.fails = true›) ‹_›
  · exact .failed _
  · exact .logged _ ‹_› _
  · exact .failed _
  · exact .failed _
  · exact .published _ _ ‹_›
  · exact .failed _
  · exact .replied _ ‹_›

/-- Before the UPDATE or INSERT that replays the entry. -/
def ReplayPc.replaying : ReplayPc → Bool
  | .update _ | .insert _ _ => true
  | _ => false

/-- The entry is replayed and not yet deleted. -/
def ReplayPc.deleting : ReplayPc → Bool
  | .log _ _ | .delete _ => true
  | _ => false

/-- What one statement of a replay can do. -/
inductive Replay.Stepped (ctx : Ctx) (env : Env) (r : Replay) (db : Db) : Db → Replay → Prop
  | failed (err : AppError)
      (hf : r.pc.replaying = true ∨ r.pc.deleting = true → env.fails = true) :
      Stepped ctx env r db db (r.fail err)
  | selected (hpc : r.pc = .select) (hf : env.fails = false) (entry : DeadLetterEntry)
      (hentry : db.deadLetterQueue.lookup r.entryId = some entry)
      (hvisible : r.visible db entry = true) : Stepped ctx env r db db (r.afterSelect entry)
  | updated (jobId : UUID) (hpc : r.pc = .update jobId) (hf : env.fails = false)
      (hfree : ctx.jobFree jobId = true) :
      Stepped ctx env r db (db.updateJob jobId (Job.reset env.now))
        (r.goto (.log jobId ((db.jobs.lookup jobId).map (Job.reset env.now))))
  | logged (jobId : UUID) (row : Option Job) (hpc : r.pc = .log jobId row) (log : JobLog) :
      Stepped ctx env r db (db.insertJobLog log)
        (r.goto (.delete (row.map (fun j => (jobId, j)))))
  | nothing (queueId : UUID) (payload : Json) (hpc : r.pc = .insert queueId payload)
      (hf : env.fails = false) : Stepped ctx env r db db (r.goto (.delete none))
  | inserted (queueId : UUID) (payload : Json) (hpc : r.pc = .insert queueId payload)
      (hf : env.fails = false) (hfresh : env.fresh ∉ db.jobs) (q : Queue) :
      Stepped ctx env r db (db.insertJob env.fresh (replayedRow env.now queueId payload q))
        (r.goto (.delete (some (env.fresh, replayedRow env.now queueId payload q))))
  | deleted (row : Option (UUID × Job)) (hpc : r.pc = .delete row) :
      Stepped ctx env r db (db.deleteDeadLetter r.entryId) (r.goto (.publish row))
  | published (ev : SystemEvent) (row : UUID × Job) (hpc : r.pc = .publish (some row)) :
      Stepped ctx env r db (db.insertEvent ev) (r.goto (.notify ev))
  | replied (ev : SystemEvent) (hpc : r.pc = .notify ev) :
      Stepped ctx env r db db (r.goto (.replied (.success 200)))

theorem Replay.stepped {cfg : Config} {ctx : Ctx} {env : Env} {r r' : Replay} {db db' : Db}
    (h : r.step cfg ctx env db = some (db', r')) : Replay.Stepped ctx env r db db' r' := by
  have hno : ∀ {pc : ReplayPc}, r.pc = pc → (pc.replaying || pc.deleting) = false →
      r.pc.replaying = true ∨ r.pc.deleting = true → env.fails = true := by
    rintro pc rfl hpc hor
    rw [Bool.or_eq_false_iff] at hpc
    simp [hpc.1, hpc.2] at hor
  unfold Replay.step at h
  split at h <;> rename_i hpc <;> (repeat' split at h) <;> cases h
  · exact .failed _ (hno hpc rfl)
  · exact .failed _ (hno hpc rfl)
  · exact .selected hpc (by simpa using ‹¬env.fails = true›) _ ‹_› ‹_›
  · exact .failed _ (hno hpc rfl)
  · exact .failed _ (fun _ => ‹_›)
  · exact .updated _ hpc (by simpa using ‹¬env.fails = true›) ‹_›
  · exact .failed _ (fun _ => ‹_›)
  · exact .logged _ _ hpc _
  · exact .failed _ (fun _ => ‹_›)
  · exact .nothing _ _ hpc (by simpa using ‹¬env.fails = true›)
  · exact .inserted _ _ hpc (by simpa using ‹¬env.fails = true›) ‹_› _
  · exact .failed _ (fun _ => ‹_›)
  · exact .deleted _ hpc
  · exact .failed _ (hno hpc rfl)
  · exact .failed _ (hno hpc rfl)
  · exact .published _ _ hpc
  · exact .failed _ (hno hpc rfl)
  · exact .replied _ hpc

/-- What one statement of a cancellation can do. -/
inductive Cancel.Stepped (ctx : Ctx) (env : Env) (r : Cancel) (db : Db) : Db → Cancel → Prop
  | failed (err : AppError) : Stepped ctx env r db db (r.fail err)
  | selected (hpc : r.pc = .select) : Stepped ctx env r db db (r.goto .updateBatch)
  | rowUpdated (hpc : r.pc = .updateBatch) (hf : env.fails = false) :
      Stepped ctx env r db (db.updateBatch (some r.batchId) (cancelledBatch env.now))
        (r.goto (.updateJobs ((db.batches.lookup r.batchId).map (cancelledBatch env.now))))
  | jobsUpdated (batch : Option Batch) (hpc : r.pc = .updateJobs batch)
      (hfree : ((db.jobs.select (cancels r.batchId)).map Prod.fst).all ctx.jobFree = true) :
      Stepped ctx env r db (db.updateJobsWhere (cancels r.batchId) (cancelledJob env.now))
        (r.goto (.publish batch))
  | published (ev : SystemEvent) (batch : Option Batch) (hpc : r.pc = .publish batch) :
      Stepped ctx env r db (db.insertEvent ev) (r.goto (.notify ev))
  | replied (ev : SystemEvent) (hpc : r.pc = .notify ev) :
      Stepped ctx env r db db (r.goto (.replied (.success 200)))

theorem Cancel.stepped {cfg : Config} {ctx : Ctx} {env : Env} {r r' : Cancel} {db db' : Db}
    (h : r.step cfg ctx env db = some (db', r')) : Cancel.Stepped ctx env r db db' r' := by
  unfold Cancel.step at h
  split at h <;> (repeat' split at h) <;> cases h
  · exact .failed _
  · exact .failed _
  · exact .selected ‹_›
  · exact .failed _
  · exact .failed _
  · exact .rowUpdated ‹_› (by simpa using ‹¬env.fails = true›)
  · exact .failed _
  · exact .jobsUpdated _ ‹_› ‹_›
  · exact .failed _
  · exact .published _ _ ‹_›
  · exact .failed _
  · exact .replied _ ‹_›

/-- What one statement of a PATCH can do. -/
inductive Patch.Stepped (ctx : Ctx) (r : Patch) (db : Db) : Db → Patch → Prop
  | failed (err : AppError) : Stepped ctx r db db (r.fail err)
  | updated (q : Queue) (hpc : r.pc = .update) (hfree : ctx.queueFree r.queueId = true) :
      Stepped ctx r db (db.updateQueue r.queueId r.updates.apply)
        (r.goto (.publish (r.updates.apply q)))
  | published (ev : SystemEvent) (row : Queue) (hpc : r.pc = .publish row) :
      Stepped ctx r db (db.insertEvent ev) (r.goto (.notify ev))
  | replied (ev : SystemEvent) (hpc : r.pc = .notify ev) :
      Stepped ctx r db db (r.goto (.replied (.success 200)))

theorem Patch.stepped {cfg : Config} {ctx : Ctx} {env : Env} {r r' : Patch} {db db' : Db}
    (h : r.step cfg ctx env db = some (db', r')) : Patch.Stepped ctx r db db' r' := by
  unfold Patch.step at h
  split at h <;> (repeat' split at h) <;> cases h
  · exact .failed _
  · exact .failed _
  · exact .failed _
  · exact .failed _
  · exact .updated _ ‹_› ‹_›
  · exact .failed _
  · exact .published _ _ ‹_›
  · exact .failed _
  · exact .replied _ ‹_›

end JobScheduler
