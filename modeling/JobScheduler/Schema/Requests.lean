/-
  JobScheduler.Schema.Requests
  ────────────────────────────
  The request schemas of `types/index.ts` and the middleware `validate`: what a
  JSON body has to look like, which defaults are filled in and what the client is
  told otherwise.

  URLs and ISO datetimes are checked, and payloads are written as text, by code
  that is not in the repository (`Formats`).
-/
import JobScheduler.Library.Zod
import JobScheduler.Routes.Operator
import JobScheduler.Routes.Submit

namespace JobScheduler

open Zod

/-! ## §1. `validate`. -/

/-- `e.path.join('.')`. -/
def issueField (e : Issue) : String :=
  ".".intercalate (e.path.map (fun
    | .key name => name
    | .index i => toString i))

/-- `detail.field ? ... : detail.message`. -/
def issueDetail (e : Issue) : String :=
  if issueField e = "" then e.message else s!"{issueField e}: {e.message}"

/-- What `validate` answers when the schema rejects the body. -/
def validationError (issues : List Issue) : AppError :=
  let summary := "; ".intercalate (issues.map issueDetail)
  ⟨400, "VALIDATION_ERROR",
    if summary = "" then "Request validation failed" else s!"Request validation failed: {summary}"⟩

/-- The middleware: the body is replaced by what the schema made of it. -/
def validate {α : Type} (schema : Schema α) (body : JsonValue) : Except AppError α :=
  match schema.parse body with
  | .ok a => .ok a
  | .error issues => .error (validationError issues)

/-- `validate` passes on what the schema accepts. -/
theorem validate_ok {α : Type} {schema : Schema α} {body : JsonValue} {a : α} :
    validate schema body = .ok a ↔ schema [] (some body) = .ok a := by
  rw [← parse_ok, validate]
  cases schema.parse body <;> simp

/-! ## §2. Formats. -/

/-- `new URL`, the datetime format with its cast to `timestamptz`, and `JSON.stringify`. -/
structure Formats where
  isUrl : String → Bool
  datetime : String → Option Timestamp
  stringify : List (String × JsonValue) → Json

/-- `z.string().uuid()`. -/
def uuidSchema : Schema String := check (fun s => (UuidText.read s).isSome) "Invalid uuid" string

/-- `z.string().url()`. -/
def urlSchema (fmt : Formats) : Schema String := check fmt.isUrl "Invalid url" string

/-- `z.string().datetime()`. -/
def datetimeSchema (fmt : Formats) : Schema String :=
  check (fun s => (fmt.datetime s).isSome) "Invalid datetime" string

/-! ## §3. `createJobSchema`. -/

/-- `z.enum(['immediate', 'delayed', 'scheduled', 'recurring', 'batch'])`. -/
def jobTypeEnum : Schema JobType :=
  enum [("immediate", .immediate), ("delayed", .delayed), ("scheduled", .scheduled),
    ("recurring", .recurring), ("batch", .batch)]

/-- The options of `taskTypeEnum`. -/
def taskTypes : List (String × TaskType) :=
  [("simulated", .simulated), ("http", .http), ("shell", .shell)]

/-- `z.enum(['http', 'shell', 'simulated'])`. -/
def taskTypeEnum : Schema TaskType := enum taskTypes

/-- An element of `batch_jobs`, with its defaults. -/
structure BatchJobBody where
  taskType : TaskType
  payload : List (String × JsonValue)
  priority : Nat
  maxAttempts : Nat
  idempotencyKey : Option (Option String)

/-- The keys of a job, with their defaults. -/
structure CreateJobBody where
  type : JobType
  taskType : TaskType
  payload : List (String × JsonValue)
  priority : Nat
  maxAttempts : Nat
  idempotencyKey : Option (Option String)
  dependsOn : List String
  callbackUrl : Option (Option String)
  delayMs : Option Nat
  runAt : Option String
  cronExpression : Option String
  batchJobs : Option (List BatchJobBody)

/-- `z.number().int().min(0).max(100).default(0)`. -/
def prioritySchema : Schema Nat := default 0 (naturalUpTo 0 100)

/-- `z.number().int().min(1).max(50).default(3)`. -/
def maxAttemptsSchema : Schema Nat := default 3 (naturalUpTo 1 50)

/-- `z.string().max(255).optional().nullable()`. -/
def idempotencyKeySchema : Schema (Option (Option String)) := nullish (maxLength 255 string)

/-- The element schema of `batch_jobs`. -/
def batchJobSchema : Schema BatchJobBody := object (fun path members =>
  ((((Parsed.ok BatchJobBody.mk
    |>.ap (field path members "task_type" (default .simulated taskTypeEnum)))
    |>.ap (field path members "payload" (default [] record)))
    |>.ap (field path members "priority" prioritySchema))
    |>.ap (field path members "max_attempts" maxAttemptsSchema))
    |>.ap (field path members "idempotency_key" idempotencyKeySchema))

/-- The object below `superRefine`. -/
def createJobObject (fmt : Formats) : Schema CreateJobBody := object (fun path members =>
  (((((((((((Parsed.ok CreateJobBody.mk
    |>.ap (field path members "type" jobTypeEnum))
    |>.ap (field path members "task_type" (default .simulated taskTypeEnum)))
    |>.ap (field path members "payload" (default [] record)))
    |>.ap (field path members "priority" prioritySchema))
    |>.ap (field path members "max_attempts" maxAttemptsSchema))
    |>.ap (field path members "idempotency_key" idempotencyKeySchema))
    |>.ap (field path members "depends_on" (default [] (array uuidSchema))))
    |>.ap (field path members "callback_url" (nullish (urlSchema fmt))))
    |>.ap (field path members "delay_ms" (optional (natural 0))))
    |>.ap (field path members "run_at" (optional (datetimeSchema fmt))))
    |>.ap (field path members "cron_expression" (optional string)))
    |>.ap (field path members "batch_jobs" (optional (array batchJobSchema))))

/-- `!text`. -/
def isBlank (text : Option String) : Bool := text.all String.isEmpty

/-- The checks of `superRefine`. -/
def CreateJobBody.issues (b : CreateJobBody) : List Issue :=
  (if b.type = .delayed && b.delayMs.isNone then
    [⟨[.key "delay_ms"], "delay_ms is required for delayed jobs"⟩] else [])
  ++ (if b.type = .scheduled && isBlank b.runAt then
    [⟨[.key "run_at"], "run_at is required for scheduled jobs"⟩] else [])
  ++ (if b.type = .recurring && isBlank b.cronExpression then
    [⟨[.key "cron_expression"], "cron_expression is required for recurring jobs"⟩] else [])
  ++ (if b.type = .batch && b.batchJobs.all List.isEmpty then
    [⟨[.key "batch_jobs"], "At least one batch job is required for batch jobs"⟩] else [])

/-- `createJobSchema`: the object schema with its `superRefine` on top. -/
def createJobSchema (fmt : Formats) : Schema CreateJobBody :=
  superRefine CreateJobBody.issues (createJobObject fmt)

/-! ## §4. Accepted bodies. -/

/-- Each key of an accepted batch item. -/
structure BatchJobAccepted (path : Path) (members : List (String × JsonValue)) (b : BatchJobBody) :
    Prop where
  taskType : field path members "task_type" (default .simulated taskTypeEnum) = .ok b.taskType
  payload : field path members "payload" (default [] record) = .ok b.payload
  priority : field path members "priority" prioritySchema = .ok b.priority
  maxAttempts : field path members "max_attempts" maxAttemptsSchema = .ok b.maxAttempts
  idempotencyKey : field path members "idempotency_key" idempotencyKeySchema = .ok b.idempotencyKey

theorem batchJobSchema_ok {path : Path} {data : Option JsonValue} {b : BatchJobBody}
    (h : batchJobSchema path data = .ok b) :
    ∃ members, data = some (.object members) ∧ BatchJobAccepted path members b := by
  obtain ⟨members, hdata, h⟩ := object_ok.mp h
  obtain ⟨_, key, h4, hkey, rfl⟩ := Parsed.ap_ok.mp h
  obtain ⟨_, maxAttempts, h3, hmax, rfl⟩ := Parsed.ap_ok.mp h4
  obtain ⟨_, priority, h2, hprio, rfl⟩ := Parsed.ap_ok.mp h3
  obtain ⟨_, payload, h1, hpay, rfl⟩ := Parsed.ap_ok.mp h2
  obtain ⟨_, taskType, h0, htask, rfl⟩ := Parsed.ap_ok.mp h1
  obtain rfl := Parsed.ok_inj.mp h0
  exact ⟨members, hdata, htask, hpay, hprio, hmax, hkey⟩

/-- Each key of an accepted job, and the checks on them together. -/
structure CreateJobAccepted (fmt : Formats) (path : Path) (members : List (String × JsonValue))
    (b : CreateJobBody) : Prop where
  type : field path members "type" jobTypeEnum = .ok b.type
  taskType : field path members "task_type" (default .simulated taskTypeEnum) = .ok b.taskType
  payload : field path members "payload" (default [] record) = .ok b.payload
  priority : field path members "priority" prioritySchema = .ok b.priority
  maxAttempts : field path members "max_attempts" maxAttemptsSchema = .ok b.maxAttempts
  idempotencyKey : field path members "idempotency_key" idempotencyKeySchema = .ok b.idempotencyKey
  dependsOn : field path members "depends_on" (default [] (array uuidSchema)) = .ok b.dependsOn
  callbackUrl : field path members "callback_url" (nullish (urlSchema fmt)) = .ok b.callbackUrl
  delayMs : field path members "delay_ms" (optional (natural 0)) = .ok b.delayMs
  runAt : field path members "run_at" (optional (datetimeSchema fmt)) = .ok b.runAt
  cronExpression : field path members "cron_expression" (optional string) = .ok b.cronExpression
  batchJobs : field path members "batch_jobs" (optional (array batchJobSchema)) = .ok b.batchJobs
  checked : b.issues = []

theorem createJobSchema_ok {fmt : Formats} {path : Path} {data : Option JsonValue}
    {b : CreateJobBody} (h : createJobSchema fmt path data = .ok b) :
    ∃ members, data = some (.object members) ∧ CreateJobAccepted fmt path members b := by
  obtain ⟨h, hissues⟩ := superRefine_ok.mp h
  obtain ⟨members, hdata, h⟩ := object_ok.mp h
  obtain ⟨_, batchJobs, h11, hbatch, rfl⟩ := Parsed.ap_ok.mp h
  obtain ⟨_, cron, h10, hcron, rfl⟩ := Parsed.ap_ok.mp h11
  obtain ⟨_, runAt, h9, hrun, rfl⟩ := Parsed.ap_ok.mp h10
  obtain ⟨_, delay, h8, hdelay, rfl⟩ := Parsed.ap_ok.mp h9
  obtain ⟨_, url, h7, hurl, rfl⟩ := Parsed.ap_ok.mp h8
  obtain ⟨_, dependsOn, h6, hdeps, rfl⟩ := Parsed.ap_ok.mp h7
  obtain ⟨_, key, h5, hkey, rfl⟩ := Parsed.ap_ok.mp h6
  obtain ⟨_, maxAttempts, h4, hmax, rfl⟩ := Parsed.ap_ok.mp h5
  obtain ⟨_, priority, h3, hprio, rfl⟩ := Parsed.ap_ok.mp h4
  obtain ⟨_, payload, h2, hpay, rfl⟩ := Parsed.ap_ok.mp h3
  obtain ⟨_, taskType, h1, htask, rfl⟩ := Parsed.ap_ok.mp h2
  obtain ⟨_, type, h0, htype, rfl⟩ := Parsed.ap_ok.mp h1
  obtain rfl := Parsed.ok_inj.mp h0
  exact ⟨members, hdata, htype, htask, hpay, hprio, hmax, hkey, hdeps, hurl, hdelay, hrun, hcron,
    hbatch, hissues⟩

/-- An accepted `max_attempts` is at least 1. -/
theorem maxAttemptsSchema_pos {path : Path} {data : Option JsonValue} {n : Nat}
    (h : maxAttemptsSchema path data = .ok n) : 1 ≤ n := by
  rcases default_ok.mp h with ⟨_, rfl⟩ | ⟨_, h⟩
  · decide
  · exact (naturalUpTo_ok.mp h).2.1

/-! ## §5. The body that the route handles. -/

/-- What the handler inserts of one element of `batch_jobs`. -/
def BatchJobBody.toInput (fmt : Formats) (b : BatchJobBody) : BatchJobInput where
  taskType := b.taskType
  payload := fmt.stringify b.payload
  priority := b.priority
  maxAttempts := b.maxAttempts
  idempotencyKey := b.idempotencyKey.join

/-- The conditions under which a body is one that the route can rely on. -/
structure CreateJobBody.Sound (fmt : Formats) (b : CreateJobBody) : Prop where
  maxAttempts : 1 ≤ b.maxAttempts
  batchMaxAttempts : ∀ x ∈ b.batchJobs.getD [], 1 ≤ x.maxAttempts
  delayed : b.type = .delayed → b.delayMs.isSome = true
  scheduled : b.type = .scheduled → (b.runAt.bind fmt.datetime).isSome = true
  recurring : b.type = .recurring → b.cronExpression.isSome = true
  batch : b.type = .batch → b.batchJobs.getD [] ≠ []

/-- What the handler reads of an accepted body; `h` gives the values that `superRefine` checked.
-/
def CreateJobBody.toInput (fmt : Formats) (b : CreateJobBody) (h : b.Sound fmt) : CreateJobInput where
  type := b.type
  taskType := b.taskType
  payload := fmt.stringify b.payload
  priority := b.priority
  maxAttempts := b.maxAttempts
  idempotencyKey := b.idempotencyKey.join
  dependsOnTexts := b.dependsOn.filterMap UuidText.read
  callbackUrl := b.callbackUrl.join
  delayMs := b.delayMs
  runAt := b.runAt.bind fmt.datetime
  cronExpression := b.cronExpression
  batchJobs := (b.batchJobs.getD []).map (BatchJobBody.toInput fmt)
  maxAttempts_pos := h.maxAttempts
  batch_maxAttempts_pos := by
    intro x hx
    obtain ⟨y, hy, rfl⟩ := List.mem_map.mp hx
    exact h.batchMaxAttempts y hy
  delayed_has_delay := h.delayed
  scheduled_has_runAt := h.scheduled
  recurring_has_cron := h.recurring
  batch_nonempty := by
    intro ht
    simpa using h.batch ht

/-- **The schema promises what the route relies on.** -/
theorem CreateJobAccepted.sound {fmt : Formats} {path : Path} {members : List (String × JsonValue)}
    {b : CreateJobBody} (h : CreateJobAccepted fmt path members b) : b.Sound fmt := by
  have hchecks := h.checked
  simp only [CreateJobBody.issues, List.append_eq_nil_iff, ite_eq_right_iff, List.cons_ne_nil,
    imp_false, Bool.and_eq_true, decide_eq_true_eq, not_and, Bool.not_eq_true] at hchecks
  obtain ⟨⟨⟨hdelay, hrun⟩, hcron⟩, hbatch⟩ := hchecks
  refine ⟨maxAttemptsSchema_pos h.maxAttempts, ?_, ?_, ?_, ?_, ?_⟩
  · intro x hx
    rcases optional_ok.mp h.batchJobs with ⟨_, hnone⟩ | ⟨_, xs, hxs, hsome⟩
    · rw [hnone] at hx
      cases hx
    · rw [hsome] at hx
      obtain ⟨_, _, hall⟩ := array_ok hxs
      obtain ⟨v, _, p, hv⟩ := exists_of_mem_forall₂ hall (by simpa using hx)
      obtain ⟨_, _, hacc⟩ := batchJobSchema_ok hv
      exact maxAttemptsSchema_pos hacc.maxAttempts
  · intro ht
    simpa using hdelay ht
  · intro ht
    have hb := hrun ht
    rcases optional_ok.mp h.runAt with ⟨_, hnone⟩ | ⟨_, t, hdate, hsome⟩
    · simp [isBlank, hnone] at hb
    · rw [hsome, Option.bind_some]
      exact (check_ok.mp hdate).2
  · intro ht
    have hc := hcron ht
    cases hcr : b.cronExpression with
    | none => simp [isBlank, hcr] at hc
    | some t => rfl
  · intro ht
    have hb := hbatch ht
    cases hbj : b.batchJobs with
    | none => simp [hbj] at hb
    | some xs => simpa [hbj] using hb

/-- A body that the schema accepts. -/
theorem CreateJobBody.sound_of_accepted {fmt : Formats} {request : JsonValue} {b : CreateJobBody}
    (h : validate (createJobSchema fmt) request = .ok b) : b.Sound fmt := by
  obtain ⟨_, _, haccepted⟩ := createJobSchema_ok (validate_ok.mp h)
  exact haccepted.sound

/-! ## §6. `updateQueueSchema`. -/

/-- The keys of a queue update; `none` is an absent key. -/
structure UpdateQueueBody where
  name : Option String
  priority : Option Nat
  concurrencyLimit : Option Nat
  retryPolicyId : Option (Option String)
  isPaused : Option Bool
  shardKey : Option String

/-- `updateQueueSchema`: every field optional. -/
def updateQueueSchema : Schema UpdateQueueBody := object (fun path members =>
  (((((Parsed.ok UpdateQueueBody.mk
    |>.ap (field path members "name" (optional (maxLength 100 (minLength 1 string)))))
    |>.ap (field path members "priority" (optional (naturalUpTo 0 100))))
    |>.ap (field path members "concurrency_limit" (optional (naturalUpTo 1 100))))
    |>.ap (field path members "retry_policy_id" (nullish uuidSchema)))
    |>.ap (field path members "is_paused" (optional boolean)))
    |>.ap (field path members "shard_key" (optional (maxLength 64 (minLength 1 string)))))

/-- Each key of an accepted update. -/
structure UpdateQueueAccepted (path : Path) (members : List (String × JsonValue)) (b : UpdateQueueBody) :
    Prop where
  name : field path members "name" (optional (maxLength 100 (minLength 1 string))) = .ok b.name
  priority : field path members "priority" (optional (naturalUpTo 0 100)) = .ok b.priority
  concurrencyLimit : field path members "concurrency_limit" (optional (naturalUpTo 1 100)) =
    .ok b.concurrencyLimit
  retryPolicyId : field path members "retry_policy_id" (nullish uuidSchema) = .ok b.retryPolicyId
  isPaused : field path members "is_paused" (optional boolean) = .ok b.isPaused
  shardKey : field path members "shard_key" (optional (maxLength 64 (minLength 1 string))) = .ok b.shardKey

theorem updateQueueSchema_ok {path : Path} {data : Option JsonValue} {b : UpdateQueueBody}
    (h : updateQueueSchema path data = .ok b) :
    ∃ members, data = some (.object members) ∧ UpdateQueueAccepted path members b := by
  obtain ⟨members, hdata, h⟩ := object_ok.mp h
  obtain ⟨_, shardKey, h5, hshard, rfl⟩ := Parsed.ap_ok.mp h
  obtain ⟨_, isPaused, h4, hpaused, rfl⟩ := Parsed.ap_ok.mp h5
  obtain ⟨_, policy, h3, hpolicy, rfl⟩ := Parsed.ap_ok.mp h4
  obtain ⟨_, limit, h2, hlimit, rfl⟩ := Parsed.ap_ok.mp h3
  obtain ⟨_, priority, h1, hprio, rfl⟩ := Parsed.ap_ok.mp h2
  obtain ⟨_, name, h0, hname, rfl⟩ := Parsed.ap_ok.mp h1
  obtain rfl := Parsed.ok_inj.mp h0
  exact ⟨members, hdata, hname, hprio, hlimit, hpolicy, hpaused, hshard⟩

/-- `retry_policy_id` as PostgreSQL reads it. -/
def UpdateQueueBody.toInput (b : UpdateQueueBody) : UpdateQueueInput where
  name := b.name
  priority := b.priority
  concurrencyLimit := b.concurrencyLimit
  retryPolicyId := b.retryPolicyId.map (fun id => id.bind (fun text => (UuidText.read text).map (·.value)))
  isPaused := b.isPaused
  shardKey := b.shardKey

end JobScheduler
