/-
  JobScheduler.Schema.Types
  ─────────────────────────
  The rows of the PostgreSQL schema (`db/migrations/001`–`003`) and the
  enumerations of `types/index.ts`.

  A row is kept WITHOUT its primary key: the key is the index of the table it
  sits in (`Relational.Table`).  UUIDs are natural numbers (a generator may
  return any unused one), timestamps are integers in milliseconds, JSON values
  are their serialised text.
-/
import Mathlib.Data.Rat.Defs

namespace JobScheduler

/-- A row's id; the model keeps only that ids can be told apart. -/
abbrev UUID := Nat
/-- A TIMESTAMPTZ in milliseconds. -/
abbrev Timestamp := Int
/-- A JSONB value as the text that `JSON.stringify` gave. -/
abbrev Json := String

/-! ## §1. Enumerations. -/

/-- `jobTypeEnum`. -/
inductive JobType
  | immediate | delayed | scheduled | recurring | batch
  deriving DecidableEq, Repr

/-- `jobStatusEnum`, the `jobs_status_check` constraint of migration 002. -/
inductive JobStatus
  | blocked | queued | scheduled | claimed | running | completed | failed | deadLetter
  deriving DecidableEq, Repr

/-- `taskTypeEnum`. -/
inductive TaskType
  | simulated | http | shell
  deriving DecidableEq, Repr

/-- `batchStatusEnum`. -/
inductive BatchStatus
  | pending | processing | completed | failed | cancelled
  deriving DecidableEq, Repr

/-- `execution_status`. -/
inductive ExecutionStatus
  | running | completed | failed
  deriving DecidableEq, Repr

/-- `retryStrategyEnum`. -/
inductive RetryStrategy
  | fixed | linear | exponential
  deriving DecidableEq, Repr

/-- `OrgRole` of `middleware/access.ts`. -/
inductive OrgRole
  | owner | admin | operator | viewer
  deriving DecidableEq, Repr

/-- `log_level`. -/
inductive LogLevel
  | info | warn | error
  deriving DecidableEq, Repr

/-- The statuses that hold a slot of the queue's `concurrency_limit`:
`status IN ('claimed', 'running')`. -/
def JobStatus.active : JobStatus → Bool
  | .claimed | .running => true
  | _ => false

/-- The statuses that POST /batches/:id/cancel turns into `failed`:
`status IN ('queued', 'scheduled', 'blocked')`. -/
def JobStatus.pending : JobStatus → Bool
  | .queued | .scheduled | .blocked => true
  | _ => false

/-- The statuses POST /jobs/:id/retry accepts: `['failed', 'dead_letter']`. -/
def JobStatus.retryable : JobStatus → Bool
  | .failed | .deadLetter => true
  | _ => false

/-- `role IN ('owner', 'admin', 'operator')`. -/
def OrgRole.canOperate : OrgRole → Bool
  | .viewer => false
  | _ => true

/-! ## §2. Rows. -/

/-- A row of `projects`. -/
structure Project where
  orgId : UUID

/-- A row of `organization_members`. -/
structure Member where
  orgId : UUID
  userId : UUID
  role : OrgRole

/-- A row of `retry_policies`. -/
structure RetryPolicy where
  strategy : RetryStrategy
  baseDelayMs : Int
  maxRetries : Nat
  maxDelayMs : Int
  jitter : Bool

/-- A row of `queues`. -/
structure Queue where
  projectId : UUID
  name : String
  priority : Nat
  concurrencyLimit : Nat
  retryPolicyId : Option UUID
  isPaused : Bool
  shardKey : String

/-- A row of `jobs`. -/
structure Job where
  queueId : UUID
  type : JobType
  taskType : TaskType
  payload : Json
  status : JobStatus
  priority : Nat
  runAt : Timestamp
  attempts : Nat
  maxAttempts : Nat
  idempotencyKey : Option String
  workerId : Option UUID
  batchId : Option UUID
  shardKey : String
  failureSummary : Option String
  resultData : Option Json
  updatedAt : Timestamp

/-- A row of `job_executions`. -/
structure JobExecution where
  jobId : UUID
  workerId : UUID
  attemptNumber : Nat
  status : ExecutionStatus
  startedAt : Timestamp
  finishedAt : Option Timestamp
  errorMessage : Option String
  result : Option Json

/-- A row of `job_logs`. -/
structure JobLog where
  jobId : UUID
  level : LogLevel
  message : String

/-- The `job_template` object of a recurring submission. -/
structure JobTemplate where
  taskType : TaskType
  payload : Json
  priority : Nat
  maxAttempts : Nat

/-- A row of `scheduled_jobs`. -/
structure ScheduledJob where
  queueId : UUID
  jobTemplate : JobTemplate
  cronExpression : String
  nextRunAt : Option Timestamp
  lastRunAt : Option Timestamp
  isActive : Bool

/-- A row of `dead_letter_queue`. -/
structure DeadLetterEntry where
  originalJobId : Option UUID
  queueId : Option UUID
  payload : Option Json
  failureReason : String
  attemptsMade : Nat
  failureSummary : String

/-- A row of `batches`. -/
structure Batch where
  queueId : UUID
  totalJobs : Nat
  completedJobs : Nat
  failedJobs : Nat
  status : BatchStatus
  callbackUrl : Option String
  updatedAt : Timestamp

/-- The lock keys the code uses: `job:<id>` and `scheduler:tick`. -/
inductive LockKey
  | job (jobId : UUID)
  | schedulerTick
  deriving DecidableEq, Repr

/-- The owners the code uses: a worker's id, or `scheduler-<pid>`. -/
inductive LockOwner
  | worker (workerId : UUID)
  | scheduler (pid : Nat)
  deriving DecidableEq, Repr

/-- A row of `distributed_locks`; its key and its owner are texts that nothing inspects. -/
structure DistributedLock (Owner : Type := LockOwner) where
  ownerId : Owner
  expiresAt : Timestamp
  acquiredAt : Timestamp

/-! ## §3. System events. -/

/-- The `event_type` values that the modelled code publishes. -/
inductive EventType
  | jobCreated | jobRunning | jobCompleted | jobRetryScheduled | jobDeadLettered
  | jobDependenciesSatisfied | jobRetryRequested | dlqReplayed
  | batchCreated | batchCompleted | batchCancelled
  | scheduleCreated | scheduleDispatched | schedulerJobsReleased | queueCreated | queueUpdated
  deriving DecidableEq, Repr

/-- The `entity_type` values that the `publishEvent` calls pass. -/
inductive EntityType
  | job | batch | queue | scheduledJob | scheduler
  deriving DecidableEq, Repr

/-- The objects handed to `publishEvent` as payload. -/
inductive EventPayload
  | attempt (jobId workerId : UUID) (attemptNumber : Nat)
  | retry (jobId : UUID) (attemptNumber : Nat) (delay : Int)
  | deadLetter (jobId : UUID) (failureSummary : String)
  | jobRow (jobId : UUID) (row : Job)
  | batchRow (batchId : UUID) (row : Batch)
  | batchWithJobs (batchId : UUID) (row : Batch) (jobs : List (UUID × Job))
  | queueRow (queueId : UUID) (row : Queue)
  | scheduleRow (scheduleId : UUID) (row : ScheduledJob)
  | dispatched (queueId : UUID) (nextRun : Timestamp)
  | count (n : Nat)
  /-- `{}`, the default argument. -/
  | empty

/-- A row of `system_events`, as `publishEvent` writes it. -/
structure SystemEvent where
  eventType : EventType
  entityType : EntityType
  entityId : Option UUID
  payload : EventPayload

/-! ## §4. Errors of the API. -/

/-- `AppError` of `middleware/errorHandler.ts`. -/
structure AppError where
  statusCode : Nat
  code : String
  message : String

/-- What a route handler answers. -/
inductive Reply
  | success (statusCode : Nat)
  | failure (err : AppError)

/-- What `errorHandler` answers to an error that is not an `AppError`. -/
def internalServerError (message : String) : AppError :=
  { statusCode := 500, code := "INTERNAL_SERVER_ERROR", message := message }

end JobScheduler
