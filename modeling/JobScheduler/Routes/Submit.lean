/-
  JobScheduler.Routes.Submit
  ──────────────────────────
  POST /queues/:queueId/jobs of `modules/jobs/jobs.routes.ts` as a resumable
  program: access check, status check of the prerequisites, then one INSERT per
  row and one INSERT per dependency edge, each its own statement outside any
  transaction.
-/
import JobScheduler.Schema.Database
import JobScheduler.Schema.Uuid

namespace JobScheduler

open Relational

/-! ## §1. The validated body. -/

/-- An element of `batch_jobs`, after the defaults of `createJobSchema`. -/
structure BatchJobInput where
  taskType : TaskType
  payload : Json
  priority : Nat
  maxAttempts : Nat
  idempotencyKey : Option String

/-- A body that `createJobSchema` accepts, with its defaults filled in: the
last fields are the checks of `superRefine` and the lower bound of
`max_attempts`. -/
structure CreateJobInput where
  type : JobType
  taskType : TaskType
  payload : Json
  priority : Nat
  maxAttempts : Nat
  idempotencyKey : Option String
  dependsOnTexts : List UuidText
  callbackUrl : Option String
  delayMs : Option Nat
  runAt : Option Timestamp
  cronExpression : Option String
  batchJobs : List BatchJobInput
  maxAttempts_pos : 1 ≤ maxAttempts
  batch_maxAttempts_pos : ∀ b ∈ batchJobs, 1 ≤ b.maxAttempts
  delayed_has_delay : type = .delayed → delayMs.isSome
  scheduled_has_runAt : type = .scheduled → runAt.isSome
  recurring_has_cron : type = .recurring → cronExpression.isSome
  batch_nonempty : type = .batch → batchJobs ≠ []

/-- The prerequisites that `depends_on` names. -/
def CreateJobInput.dependsOn (body : CreateJobInput) : List UUID := body.dependsOnTexts.map (·.value)

/-! ## §2. The rows to insert. -/

/-- The `run_at` expression of an INSERT. -/
inductive RunAt
  | now
  /-- `new Date(Date.now() + (delay_ms || 0))`. -/
  | after (delayMs : Nat)
  | at (time : Timestamp)

/-- The `run_at` of a row that is inserted at the time `now`. -/
def RunAt.eval (now : Timestamp) : RunAt → Timestamp
  | .now => now
  | .after delayMs => now + delayMs
  | .at time => time

/-- The values of one INSERT INTO jobs. -/
structure JobItem where
  type : JobType
  taskType : TaskType
  payload : Json
  priority : Nat
  runAt : RunAt
  maxAttempts : Nat
  idempotencyKey : Option String
  batchId : Option UUID

/-- `idempotency_key || null`: the empty string is no key. -/
def keyOrNull (key : Option String) : Option String := key.filter (fun k => !k.isEmpty)

/-- The item of the `immediate`, `delayed` and `scheduled` cases. -/
def CreateJobInput.item (body : CreateJobInput) (runAt : RunAt) : JobItem where
  type := body.type
  taskType := body.taskType
  payload := body.payload
  priority := body.priority
  runAt := runAt
  maxAttempts := body.maxAttempts
  idempotencyKey := keyOrNull body.idempotencyKey
  batchId := none

/-- The item of one element of `batch_jobs`: `batchJob.priority || priority`. -/
def CreateJobInput.batchItem (body : CreateJobInput) (batchId : UUID) (b : BatchJobInput) :
    JobItem where
  type := .batch
  taskType := b.taskType
  payload := b.payload
  priority := if b.priority = 0 then body.priority else b.priority
  runAt := .now
  maxAttempts := if b.maxAttempts = 0 then body.maxAttempts else b.maxAttempts
  idempotencyKey := keyOrNull b.idempotencyKey
  batchId := some batchId

/-- `initialJobStatus`. -/
def initialJobStatus (type : JobType) (dependenciesSatisfied : Bool) : JobStatus :=
  if !dependenciesSatisfied then .blocked
  else if type = .scheduled then .scheduled else .queued

/-- The row that `dependenciesAreSatisfied` joins for one prerequisite: the job
exists, and its queue belongs to the organisation of the target queue, of which
the user is a member. -/
def Db.dependencyRow (db : Db) (queueId userId dependency : UUID) : Option Job := do
  let org ← db.orgOfQueue queueId
  guard (db.roleIn org userId).isSome
  let dep ← db.jobs.lookup dependency
  let depOrg ← db.orgOfQueue dep.queueId
  guard (depOrg = org)
  return dep

/-- `dependenciesAreSatisfied`; `none` is its VALIDATION_ERROR.  `new Set` tells
strings apart, `ANY($2::uuid[])` joins every job once. -/
def dependenciesAreSatisfied (db : Db) (queueId userId : UUID) (dependsOn : List UuidText) :
    Option Bool :=
  let uniqueDependencyIds := dependsOn.dedup
  let rows := (uniqueDependencyIds.map (·.value)).dedup.filterMap (db.dependencyRow queueId userId)
  if uniqueDependencyIds = [] then some true
  else if rows.length ≠ uniqueDependencyIds.length then none
  else some (rows.all (fun row => decide (row.status = .completed)))

/-! ## §3. The program. -/

/-- Where POST /queues/:queueId/jobs stands. -/
inductive SubmitPc
  | checkQueue
  | checkDependencies
  | insertBatch
  | insertJob (item : JobItem) (rest : List JobItem)
  /-- `attachDependencies`: the edges of `jobId` still to insert. -/
  | attach (jobId : UUID) (dependency : UUID) (todo : List UUID) (rest : List JobItem)
  | insertSchedule
  | publish (ev : SystemEvent)
  | notify (ev : SystemEvent)
  | replied (reply : Reply)

/-- One request POST /queues/:queueId/jobs with its validated body. -/
structure Submit where
  userId : UUID
  queueId : UUID
  body : CreateJobInput
  /-- `queue.shard_key`. -/
  shardKey : String := ""
  initialStatus : JobStatus := .queued
  batch : Option (UUID × Batch) := none
  /-- The job rows inserted so far. -/
  created : List (UUID × Job) := []
  pc : SubmitPc := .checkQueue

namespace Submit

/-- Move the request to another statement. -/
def goto (r : Submit) (pc : SubmitPc) : Submit := { r with pc := pc }

/-- End the request with an error reply. -/
def fail (r : Submit) (err : AppError) : Submit := r.goto (.replied (.failure err))

/-- The row of an INSERT INTO jobs. -/
def row (r : Submit) (now : Timestamp) (item : JobItem) : Job where
  queueId := r.queueId
  type := item.type
  taskType := item.taskType
  payload := item.payload
  status := r.initialStatus
  priority := item.priority
  runAt := item.runAt.eval now
  attempts := 0
  maxAttempts := item.maxAttempts
  idempotencyKey := item.idempotencyKey
  workerId := none
  batchId := item.batchId
  shardKey := r.shardKey
  failureSummary := none
  resultData := none
  updatedAt := now

/-- The event of a request all of whose rows are inserted. -/
def createdEvent (r : Submit) : SystemEvent :=
  match r.batch with
  | some (batchId, batch) => ⟨.batchCreated, .batch, some batchId, .batchWithJobs batchId batch r.created⟩
  | none =>
      match r.created with
      | (id, job) :: _ => ⟨.jobCreated, .job, some id, .jobRow id job⟩
      | [] => ⟨.jobCreated, .job, none, .count 0⟩

/-- The next row, or the event after the last. -/
def nextItem (r : Submit) : List JobItem → SubmitPc
  | [] => .publish r.createdEvent
  | item :: rest => .insertJob item rest

/-- The loop of `attachDependencies`. -/
def nextEdge (r : Submit) (jobId : UUID) (todo : List UUID) (rest : List JobItem) : SubmitPc :=
  match todo with
  | [] => r.nextItem rest
  | d :: ds => .attach jobId d ds rest

/-- `switch (type)`. -/
def dispatch (cfg : Config) (now : Timestamp) (r : Submit) : Submit :=
  match r.body.type with
  | .immediate => r.goto (.insertJob (r.body.item .now) [])
  | .delayed => r.goto (.insertJob (r.body.item (.after (r.body.delayMs.getD 0))) [])
  | .scheduled => r.goto (.insertJob (r.body.item (.at (r.body.runAt.getD now))) [])
  | .recurring =>
      if r.body.dependsOn ≠ [] then
        r.fail ⟨400, "VALIDATION_ERROR", "Recurring job templates do not support dependencies; attach dependencies to concrete jobs"⟩
      else
        let cron := r.body.cronExpression.getD ""
        match cfg.cronNext cron now with
        | none => r.fail ⟨400, "VALIDATION_ERROR", s!"Invalid cron expression: {cron}"⟩
        | some _ => r.goto .insertSchedule
  | .batch => r.goto .insertBatch

/-- The row of INSERT INTO scheduled_jobs. -/
def schedule (cfg : Config) (now : Timestamp) (r : Submit) : ScheduledJob where
  queueId := r.queueId
  jobTemplate :=
    { taskType := r.body.taskType, payload := r.body.payload,
      priority := r.body.priority, maxAttempts := r.body.maxAttempts }
  cronExpression := r.body.cronExpression.getD ""
  nextRunAt := cfg.cronNext (r.body.cronExpression.getD "") now
  lastRunAt := none
  isActive := true

/-- The row of INSERT INTO batches. -/
def batchRow (now : Timestamp) (r : Submit) : Batch where
  queueId := r.queueId
  totalJobs := r.body.batchJobs.length
  completedJobs := 0
  failedJobs := 0
  status := .processing
  callbackUrl := r.body.callbackUrl
  updatedAt := now

/-- The reply to a unique violation on the idempotency key. -/
def conflict : AppError :=
  ⟨409, "CONFLICT", "A job with this idempotency key already exists in this queue"⟩

/-- The next statement of the request. -/
def step (cfg : Config) (env : Env) (r : Submit) (db : Db) : Option (Db × Submit) :=
  match r.pc with
  | .replied _ => none
  | .checkQueue =>
      if env.fails then some (db, r.fail (internalServerError env.error))
      else if db.canOperate r.queueId r.userId then
        some (db, { r with
          pc := .checkDependencies
          shardKey := ((db.queues.lookup r.queueId).map (·.shardKey)).getD "" })
      else some (db, r.fail ⟨404, "NOT_FOUND", "Queue not found"⟩)
  | .checkDependencies =>
      -- without `depends_on` there is no statement to fail
      if env.fails && !r.body.dependsOn.isEmpty then
        some (db, r.fail (internalServerError env.error))
      else
        match dependenciesAreSatisfied db r.queueId r.userId r.body.dependsOnTexts with
        | none =>
            some (db, r.fail ⟨400, "VALIDATION_ERROR", "Every dependency must be an existing job in the same organization"⟩)
        | some satisfied =>
            some (db, ({ r with
              initialStatus := initialJobStatus r.body.type satisfied }).dispatch cfg env.now)
  | .insertBatch =>
      if env.fails then some (db, r.fail (internalServerError env.error))
      else if env.fresh ∈ db.batches then none
      else
        let row := r.batchRow env.now
        let r' := { r with batch := some (env.fresh, row) }
        some (db.insertBatch env.fresh row,
          r'.goto (r'.nextItem (r.body.batchJobs.map (r.body.batchItem env.fresh))))
  | .insertJob item rest =>
      let row := r.row env.now item
      if env.fails then some (db, r.fail (internalServerError env.error))
      -- error code 23505 on `idx_jobs_idempotency`
      else if !db.idempotencyFree row then some (db, r.fail conflict)
      else if env.fresh ∈ db.jobs then none
      else
        let r' := { r with created := r.created ++ [(env.fresh, row)] }
        some (db.insertJob env.fresh row, r'.goto (r'.nextEdge env.fresh r.body.dependsOn rest))
  | .attach jobId dependency todo rest =>
      -- CHECK (job_id <> depends_on_job_id) and the foreign key; the job stays
      if env.fails || dependency == jobId || decide (dependency ∉ db.jobs) then
        some (db, r.fail (internalServerError env.error))
      else some (db.insertDependency jobId dependency, r.goto (r.nextEdge jobId todo rest))
  | .insertSchedule =>
      if env.fails then some (db, r.fail (internalServerError env.error))
      else if env.fresh ∈ db.scheduledJobs then none
      else
        let row := r.schedule cfg env.now
        some (db.insertSchedule env.fresh row,
          r.goto (.publish ⟨.scheduleCreated, .scheduledJob, some env.fresh, .scheduleRow env.fresh row⟩))
  | .publish ev =>
      if env.fails then some (db, r.fail (internalServerError env.error))
      else some (db.insertEvent ev, r.goto (.notify ev))
  | .notify ev =>
      if env.fails || !cfg.notifyAccepts ev then some (db, r.fail (internalServerError env.error))
      else some (db, r.goto (.replied (.success 201)))

/-! ## §4. Inversion of one statement. -/

/-- What one statement of the request can do. -/
inductive Stepped (cfg : Config) (env : Env) (r : Submit) (db : Db) : Db → Submit → Prop
  | failed (err : AppError)
      (hattach : ∀ j d todo rest, r.pc = .attach j d todo rest →
        env.fails = true ∨ d = j ∨ d ∉ db.jobs) :
      Stepped cfg env r db db (r.fail err)
  | queueChecked (hpc : r.pc = .checkQueue) (shardKey : String) :
      Stepped cfg env r db db { r with pc := .checkDependencies, shardKey := shardKey }
  | dependenciesChecked (hpc : r.pc = .checkDependencies) (satisfied : Bool)
      (hs : dependenciesAreSatisfied db r.queueId r.userId r.body.dependsOnTexts = some satisfied) :
      Stepped cfg env r db db
        (({ r with initialStatus := initialJobStatus r.body.type satisfied }).dispatch cfg env.now)
  | batchInserted (hpc : r.pc = .insertBatch) (hfresh : env.fresh ∉ db.batches)
      (r' : Submit) (hr : r' = { r with batch := some (env.fresh, r.batchRow env.now) }) :
      Stepped cfg env r db (db.insertBatch env.fresh (r.batchRow env.now))
        (r'.goto (r'.nextItem (r.body.batchJobs.map (r.body.batchItem env.fresh))))
  | jobInserted (item : JobItem) (rest : List JobItem) (hpc : r.pc = .insertJob item rest)
      (hfresh : env.fresh ∉ db.jobs) (r' : Submit)
      (hr : r' = { r with created := r.created ++ [(env.fresh, r.row env.now item)] }) :
      Stepped cfg env r db (db.insertJob env.fresh (r.row env.now item))
        (r'.goto (r'.nextEdge env.fresh r.body.dependsOn rest))
  | attached (jobId d : UUID) (todo : List UUID) (rest : List JobItem)
      (hpc : r.pc = .attach jobId d todo rest) (hd : d ∈ db.jobs) :
      Stepped cfg env r db (db.insertDependency jobId d) (r.goto (r.nextEdge jobId todo rest))
  | scheduleInserted (hpc : r.pc = .insertSchedule) (ev : SystemEvent) :
      Stepped cfg env r db (db.insertSchedule env.fresh (r.schedule cfg env.now))
        (r.goto (.publish ev))
  | published (ev : SystemEvent) (hpc : r.pc = .publish ev) :
      Stepped cfg env r db (db.insertEvent ev) (r.goto (.notify ev))
  | replied (ev : SystemEvent) (hpc : r.pc = .notify ev) :
      Stepped cfg env r db db (r.goto (.replied (.success 201)))

theorem stepped {cfg : Config} {env : Env} {r r' : Submit} {db db' : Db}
    (h : r.step cfg env db = some (db', r')) : Stepped cfg env r db db' r' := by
  have hno : ∀ {pc : SubmitPc}, r.pc = pc → (∀ j d todo rest, pc ≠ .attach j d todo rest) →
      ∀ j d todo rest, r.pc = .attach j d todo rest → env.fails = true ∨ d = j ∨ d ∉ db.jobs :=
    fun hpc hne j d todo rest hat => absurd (hpc.symm.trans hat) (hne j d todo rest)
  cases hpc : r.pc <;> simp only [step, hpc] at h <;> (repeat' split at h) <;> cases h
  · exact .failed _ (hno hpc (by simp))
  · exact .queueChecked hpc _
  · exact .failed _ (hno hpc (by simp))
  · exact .failed _ (hno hpc (by simp))
  · exact .failed _ (hno hpc (by simp))
  · exact .dependenciesChecked hpc _ ‹_›
  · exact .failed _ (hno hpc (by simp))
  · exact .batchInserted hpc ‹_› _ (by rw [hpc])
  · exact .failed _ (hno hpc (by simp))
  · exact .failed _ (hno hpc (by simp))
  · exact .jobInserted _ _ hpc ‹_› _ (by rw [hpc])
  · rename_i jobId dependency todo rest hf
    refine .failed _ (fun j d todo' rest' hat => ?_)
    rw [hpc] at hat
    cases hat
    simpa [or_assoc] using hf
  · rename_i jobId dependency todo rest hf
    refine .attached jobId dependency todo rest hpc ?_
    simp only [Bool.or_eq_true, decide_eq_true_eq, not_or, not_not] at hf
    exact hf.2
  · exact .failed _ (hno hpc (by simp))
  · exact .scheduleInserted hpc _
  · exact .failed _ (hno hpc (by simp))
  · exact .published _ hpc
  · exact .failed _ (hno hpc (by simp))
  · exact .replied _ hpc

/-- The program points that `switch (type)` chooses. -/
inductive Dispatched (r : Submit) : SubmitPc → Prop
  | job (runAt : RunAt) : Dispatched r (.insertJob (r.body.item runAt) [])
  | batch (ht : r.body.type = .batch) : Dispatched r .insertBatch
  | schedule : Dispatched r .insertSchedule
  | failed (err : AppError) : Dispatched r (.replied (.failure err))

/-- `switch` only chooses the next program point. -/
theorem dispatch_eq (cfg : Config) (now : Timestamp) (r : Submit) :
    ∃ pc, r.dispatch cfg now = r.goto pc ∧ Dispatched r pc := by
  unfold dispatch
  cases ht : r.body.type <;> dsimp only
  case immediate => exact ⟨_, rfl, .job _⟩
  case delayed => exact ⟨_, rfl, .job _⟩
  case scheduled => exact ⟨_, rfl, .job _⟩
  case batch => exact ⟨_, rfl, .batch ht⟩
  case recurring =>
    split
    · exact ⟨_, rfl, .failed _⟩
    · split
      · exact ⟨_, rfl, .failed _⟩
      · exact ⟨_, rfl, .schedule⟩

end Submit

/-! ## §5. The check of the prerequisites. -/

/-- Without a VALIDATION_ERROR every prerequisite has its row. -/
theorem dependencyRow_of_satisfied {db : Db} {queueId userId : UUID} {dependsOn : List UuidText}
    {satisfied : Bool} (h : dependenciesAreSatisfied db queueId userId dependsOn = some satisfied)
    {x : UuidText} (hx : x ∈ dependsOn) :
    ∃ row, db.dependencyRow queueId userId x.value = some row ∧
      (satisfied = true → row.status = .completed) := by
  have hx' : x ∈ dependsOn.dedup := List.mem_dedup.mpr hx
  have hvalue : x.value ∈ (dependsOn.dedup.map (·.value)).dedup :=
    List.mem_dedup.mpr (List.mem_map_of_mem hx')
  unfold dependenciesAreSatisfied at h
  dsimp only at h
  split at h
  · rename_i hnil
    rw [hnil] at hx'
    cases hx'
  · split at h
    · cases h
    · rename_i hlen
      rw [not_not] at hlen
      -- at most one row for each value, at most one value for each string
      have hrows : ((dependsOn.dedup.map (·.value)).dedup.filterMap
          (db.dependencyRow queueId userId)).length = (dependsOn.dedup.map (·.value)).dedup.length := by
        refine le_antisymm (List.length_filterMap_le _ _) ?_
        rw [hlen, ← @List.length_map _ _ dependsOn.dedup (·.value)]
        exact (List.dedup_sublist _).length_le
      obtain ⟨row, hrow⟩ := Option.isSome_iff_exists.mp (List.filterMap_length_eq_length.mp hrows _ hvalue)
      refine ⟨row, hrow, ?_⟩
      rintro rfl
      exact of_decide_eq_true (List.all_eq_true.mp (Option.some.inj h) row
        (List.mem_filterMap.mpr ⟨_, hvalue, hrow⟩))

/-- What the dependency check finds of a job in the user's organisation. -/
theorem dependencyRow_eq_some {db : Db} {queueId userId d : UUID} {row : Job}
    (h : db.dependencyRow queueId userId d = some row) :
    db.jobs.lookup d = some row ∧ ∃ org, db.orgOfQueue queueId = some org ∧
      db.orgOfQueue row.queueId = some org ∧ (db.roleIn org userId).isSome := by
  unfold Db.dependencyRow at h
  obtain ⟨org, horg, h⟩ := Option.bind_eq_some_iff.mp h
  obtain ⟨_, hrole, h⟩ := Option.bind_eq_some_iff.mp h
  obtain ⟨dep, hdep, h⟩ := Option.bind_eq_some_iff.mp h
  obtain ⟨depOrg, hdepOrg, h⟩ := Option.bind_eq_some_iff.mp h
  obtain ⟨_, hsame, h⟩ := Option.bind_eq_some_iff.mp h
  obtain rfl := Option.some.inj h
  have heq : depOrg = org := by
    by_contra hne
    simp [guard, hne] at hsame
  refine ⟨hdep, org, horg, heq ▸ hdepOrg, ?_⟩
  by_contra hnone
  simp [guard, hnone] at hrole

end JobScheduler
