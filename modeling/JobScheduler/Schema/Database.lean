/-
  JobScheduler.Schema.Database
  ────────────────────────────
  The committed database, the reads that several modules share (access checks,
  dependency checks, the COUNT of the claimer) and the choices of the
  environment that one statement depends on.

  A statement outside an explicit transaction is one atomic function of the
  database.  Its `now()` is the time it was ISSUED: it may take effect later,
  after waiting for a row lock.
-/
import JobScheduler.Schema.Types
import JobScheduler.Library.Table

namespace JobScheduler

open Relational

/-! ## §1. The database. -/

/-- The tables that the modelled statements read and write. -/
structure Db where
  projects : Table UUID Project
  members : List Member
  retryPolicies : Table UUID RetryPolicy
  queues : Table UUID Queue
  jobs : Table UUID Job
  /-- Pairs (job_id, depends_on_job_id). -/
  jobDependencies : List (UUID × UUID)
  batches : Table UUID Batch
  jobExecutions : Table UUID JobExecution
  jobLogs : List JobLog
  scheduledJobs : Table UUID ScheduledJob
  deadLetterQueue : Table UUID DeadLetterEntry
  distributedLocks : Table LockKey DistributedLock
  systemEvents : List SystemEvent

/-- The database after the migrations, before any row. -/
def Db.empty : Db where
  projects := ∅
  members := []
  retryPolicies := ∅
  queues := ∅
  jobs := ∅
  jobDependencies := []
  batches := ∅
  jobExecutions := ∅
  jobLogs := []
  scheduledJobs := ∅
  deadLetterQueue := ∅
  distributedLocks := ∅
  systemEvents := []

/-- Third-party code and formats that are not part of the repository. -/
structure Config where
  /-- Bytes of `JSON.stringify(event)`, which pg_notify carries. -/
  notifyBytes : SystemEvent → Nat
  /-- `cronParser.parseExpression(expr, { currentDate })` followed by `next()`;
  `none` when the expression does not parse. -/
  cronNext : String → Timestamp → Option Timestamp

/-- What the environment decides about one step of one client. -/
structure Env where
  /-- `now()` of the statement. -/
  now : Timestamp
  /-- The statement is rejected and has no effect. -/
  fails : Bool := false
  /-- The message of the rejection. -/
  error : String := ""
  /-- `gen_random_uuid()` / `uuidv4()`. -/
  fresh : UUID := 0
  /-- How `runJobHandler` settles. -/
  handler : Except String Json := .ok ""
  /-- `Math.random()`. -/
  draw : ℚ := 0
  /-- The row taken among those of equal rank under an ORDER BY. -/
  pick : Option UUID := none

/-- What a client's next statement can see of the other clients: the clock and
which rows no open transaction has locked. -/
structure Ctx where
  clock : Timestamp
  queueFree : UUID → Bool
  jobFree : UUID → Bool

/-! ## §2. Shared reads. -/

/-- The user's role in an organisation. -/
def Db.roleIn (db : Db) (orgId userId : UUID) : Option OrgRole :=
  (db.members.find? (fun m => m.orgId == orgId && m.userId == userId)).map (·.role)

/-- The organisation that owns the queue, through its project. -/
def Db.orgOfQueue (db : Db) (queueId : UUID) : Option UUID := do
  let q ← db.queues.lookup queueId
  let p ← db.projects.lookup q.projectId
  return p.orgId

/-- The join `queues → projects → organization_members` with
`om.role IN ('owner', 'admin', 'operator')`. -/
def Db.canOperate (db : Db) (queueId userId : UUID) : Bool :=
  match db.orgOfQueue queueId with
  | none => false
  | some org => (db.roleIn org userId).any OrgRole.canOperate

/-- `SELECT COUNT(*) FROM jobs WHERE queue_id = $1 AND status IN ('claimed', 'running')`. -/
def Db.activeCount (db : Db) (queueId : UUID) : Nat :=
  db.jobs.count (fun _ j => decide (j.queueId = queueId) && j.status.active)

/-- The prerequisites recorded for a job. -/
def Db.prerequisites (db : Db) (jobId : UUID) : List UUID :=
  (db.jobDependencies.filter (fun e => e.1 == jobId)).map Prod.snd

/-- `NOT EXISTS (SELECT 1 FROM job_dependencies pending JOIN jobs dep ... WHERE
pending.job_id = j.id AND dep.status <> 'completed')`. -/
def Db.noPendingPrerequisite (db : Db) (jobId : UUID) : Bool :=
  (db.prerequisites jobId).all (fun d =>
    match db.jobs.lookup d with
    | some dep => decide (dep.status = .completed)
    | none => true)

/-- The status column of a job. -/
def Db.statusOf (db : Db) (jobId : UUID) : Option JobStatus :=
  (db.jobs.lookup jobId).map (·.status)

/-! ## §3. Shared writes. -/

/-- `insertJobLog`: `INSERT INTO job_logs`. -/
def Db.insertJobLog (db : Db) (row : JobLog) : Db :=
  { db with jobLogs := db.jobLogs ++ [row] }

/-- `INSERT INTO system_events`, the first statement of `publishEvent`. -/
def Db.insertEvent (db : Db) (ev : SystemEvent) : Db :=
  { db with systemEvents := db.systemEvents ++ [ev] }

/-- `UPDATE jobs SET f WHERE id = jobId`. -/
def Db.updateJob (db : Db) (jobId : UUID) (f : Job → Job) : Db :=
  { db with jobs := db.jobs.update (fun id _ => decide (id = jobId)) f }

/-- `UPDATE jobs SET f WHERE p`. -/
def Db.updateJobsWhere (db : Db) (p : UUID → Job → Bool) (f : Job → Job) : Db :=
  { db with jobs := db.jobs.update p f }

/-- `INSERT INTO jobs`. -/
def Db.insertJob (db : Db) (jobId : UUID) (row : Job) : Db :=
  { db with jobs := db.jobs.insert jobId row }

/-- `UPDATE batches SET f WHERE id = batchId`; no row has a NULL id. -/
def Db.updateBatch (db : Db) (batchId : Option UUID) (f : Batch → Batch) : Db :=
  { db with batches := db.batches.update (fun id _ => decide (some id = batchId)) f }

/-- `UPDATE job_executions SET f WHERE id = executionId`. -/
def Db.updateExecution (db : Db) (executionId : UUID) (f : JobExecution → JobExecution) : Db :=
  { db with jobExecutions := db.jobExecutions.update (fun id _ => decide (id = executionId)) f }

/-- `INSERT INTO job_executions`. -/
def Db.insertExecution (db : Db) (executionId : UUID) (row : JobExecution) : Db :=
  { db with jobExecutions := db.jobExecutions.insert executionId row }

/-- `INSERT INTO dead_letter_queue`. -/
def Db.insertDeadLetter (db : Db) (entryId : UUID) (row : DeadLetterEntry) : Db :=
  { db with deadLetterQueue := db.deadLetterQueue.insert entryId row }

/-- `DELETE FROM dead_letter_queue WHERE id = entryId`. -/
def Db.deleteDeadLetter (db : Db) (entryId : UUID) : Db :=
  { db with deadLetterQueue := db.deadLetterQueue.erase entryId }

/-- `UPDATE scheduled_jobs SET f WHERE id = scheduleId`. -/
def Db.updateSchedule (db : Db) (scheduleId : UUID) (f : ScheduledJob → ScheduledJob) : Db :=
  { db with scheduledJobs := db.scheduledJobs.update (fun id _ => decide (id = scheduleId)) f }

/-- `INSERT INTO scheduled_jobs`. -/
def Db.insertSchedule (db : Db) (scheduleId : UUID) (row : ScheduledJob) : Db :=
  { db with scheduledJobs := db.scheduledJobs.insert scheduleId row }

/-- `INSERT INTO batches`. -/
def Db.insertBatch (db : Db) (batchId : UUID) (row : Batch) : Db :=
  { db with batches := db.batches.insert batchId row }

instance Db.decidableEdge (db : Db) (edge : UUID × UUID) : Decidable (edge ∈ db.jobDependencies) :=
  inferInstance

/-- `INSERT INTO job_dependencies ... ON CONFLICT DO NOTHING`. -/
def Db.insertDependency (db : Db) (jobId dependsOnJobId : UUID) : Db :=
  { db with jobDependencies :=
      if (jobId, dependsOnJobId) ∈ db.jobDependencies then db.jobDependencies
      else db.jobDependencies ++ [(jobId, dependsOnJobId)] }

/-- `UPDATE queues SET f WHERE id = queueId`. -/
def Db.updateQueue (db : Db) (queueId : UUID) (f : Queue → Queue) : Db :=
  { db with queues := db.queues.update (fun id _ => decide (id = queueId)) f }

/-- A statement on `distributed_locks`. -/
def Db.setLocks (db : Db) (locks : Table LockKey DistributedLock) : Db :=
  { db with distributedLocks := locks }

/-- The partial unique index `idx_jobs_idempotency` admits the row. -/
def Db.idempotencyFree (db : Db) (row : Job) : Bool :=
  match row.idempotencyKey with
  | none => true
  | some key =>
      db.jobs.all (fun _ j => !(decide (j.queueId = row.queueId) && decide (j.idempotencyKey = some key)))

/-- `pg_notify` accepts payloads below 8000 bytes. -/
def Config.notifyAccepts (cfg : Config) (ev : SystemEvent) : Bool :=
  decide (cfg.notifyBytes ev < 8000)

end JobScheduler
