/-
  JobScheduler.Routes.Reads
  ─────────────────────────
  The GET endpoints of `jobs.routes.ts`, `batches.routes.ts`, `queues.routes.ts`
  and `dlq.routes.ts`, and GET /projects/:id, as relations between one state of
  the database, a request and its reply.

  Each endpoint spells out its own join chain to `organization_members`, some of
  them by way of `organizations`, some not.  The COUNT of a paginated list and its
  rows are two queries with the same FROM and WHERE.
-/
import JobScheduler.Engine.RetryPolicy
import JobScheduler.Library.Query
import JobScheduler.Routes.Operator
import JobScheduler.Tenancy.Entities

namespace JobScheduler

open Relational

/-! ## §1. Parameters. -/

/-- A text that a query casts to UUID. -/
inductive IdText
  | uuid (id : UUID)
  | malformed (text : String)

/-- The cast gives this id. -/
def IdText.is (id : UUID) : IdText → Bool
  | .uuid i => decide (i = id)
  | .malformed _ => false

/-- The first cast that fails. -/
def castError : List (Option IdText) → Option AppError
  | [] => none
  | some (.malformed text) :: _ =>
      some (internalServerError s!"invalid input syntax for type uuid: \"{text}\"")
  | _ :: rest => castError rest

/-- `parseInt` of the keys `page` and `limit`; `none` is NaN. -/
structure PageQuery where
  page : Option Int
  limit : Option Int

/-- Parsed page and limit. -/
structure Pagination where
  page : Nat
  limit : Nat

/-- `n || d`. -/
def orDefault (n : Option Int) (d : Int) : Int := if n.getD 0 = 0 then d else n.getD 0

/-- `parsePagination`. -/
def PageQuery.parse (q : PageQuery) : Pagination where
  page := (max 1 (orDefault q.page 1)).toNat
  limit := (min 100 (max 1 (orDefault q.limit 20))).toNat

/-- `paginationOffset`. -/
def Pagination.offset (p : Pagination) : Nat := (p.page - 1) * p.limit

/-- The pagination envelope of a list answer. -/
structure Page (α : Type) where
  data : List α
  page : Nat
  limit : Nat
  total : Nat
  totalPages : Nat

/-- `buildPaginatedResponse` of the rows that LIMIT and OFFSET leave, and of their
COUNT. -/
def Pagination.paginated {α : Type} (p : Pagination) (rows : List α) : Page α where
  data := (rows.drop p.offset).take p.limit
  page := p.page
  limit := p.limit
  total := rows.length
  totalPages := (rows.length + p.limit - 1) / p.limit

/-- Every row is on some page. -/
theorem exists_page {α : Type} {l : List α} {a : α} (h : a ∈ l) :
    ∃ q : PageQuery, a ∈ (q.parse.paginated l).data := by
  obtain ⟨i, hi, rfl⟩ := List.mem_iff_getElem.mp h
  -- pages of one row each
  refine ⟨⟨some (i + 1), some 1⟩, ?_⟩
  have hparse : (⟨some (i + 1), some 1⟩ : PageQuery).parse = ⟨i + 1, 1⟩ := by
    simp only [PageQuery.parse, orDefault, Option.getD_some, Pagination.mk.injEq]
    omega
  have hdata : ((⟨i + 1, 1⟩ : Pagination).paginated l).data = [l[i]] := by
    simp only [Pagination.paginated, Pagination.offset, Nat.add_sub_cancel, Nat.mul_one]
    rw [List.drop_eq_getElem_cons hi, List.take_succ_cons, List.take_zero]
  rw [hparse, hdata]
  exact List.mem_singleton_self _

/-- The filters of GET /jobs; `none` is an absent or empty key. -/
structure JobFilter where
  status : Option String := none
  queueId : Option IdText := none
  type : Option String := none
  batchId : Option IdText := none

/-- The WHERE conditions of GET /jobs that the query string adds. -/
def JobFilter.admits (f : JobFilter) (j : Job) : Bool :=
  f.status.all (fun s => decide (j.status.name = s))
    && f.queueId.all (fun t => t.is j.queueId)
    && f.type.all (fun s => decide (j.type.name = s))
    && f.batchId.all (fun t => j.batchId.any (fun b => t.is b))

/-- The GET routes of jobs, batches, queues, dead letter entries and projects. -/
inductive ReadRequest
  | jobs (page : PageQuery) (filter : JobFilter)
  | job (id : IdText)
  | executions (id : IdText)
  | logs (id : IdText) (page : PageQuery)
  | dependencies (id : IdText)
  | batches (page : PageQuery) (queueId : Option IdText)
  | batch (id : IdText)
  | batchJobs (id : IdText) (page : PageQuery)
  | queues (page : PageQuery) (projectId : Option IdText)
  | queue (id : IdText)
  | queueStats (id : IdText)
  | deadLetters (page : PageQuery) (queueId : Option IdText)
  | project (id : IdText)

/-! ## §2. Replies. -/

/-- `j.*`. -/
structure JobRow where
  id : UUID
  row : Job
  createdAt : Timestamp

/-- An element of GET /jobs: the row with the name of its queue. -/
structure JobView where
  job : JobRow
  queueName : Option String

/-- An element of GET /jobs/:id/executions. -/
structure ExecutionView where
  id : UUID
  row : JobExecution
  workerName : Option String

/-- An element of GET /jobs/:id/logs. -/
structure LogView where
  id : Nat
  row : JobLog
  createdAt : Timestamp

/-- An element of GET /jobs/:id/dependencies. -/
structure DependencyView where
  id : UUID
  status : JobStatus
  type : JobType
  queueId : UUID
  createdAt : Timestamp

/-- An element of GET /batches. -/
structure BatchView where
  id : UUID
  row : Batch
  createdAt : Timestamp
  queueName : Option String

/-- An element of GET /queues. -/
structure QueueView where
  id : UUID
  row : Queue
  createdAt : Timestamp
  projectName : Option String
  retryPolicyName : Option String
  retryStrategy : Option RetryStrategy

/-- GET /queues/:id adds the columns of the policy. -/
structure QueueDetail where
  view : QueueView
  retryPolicy : Option RetryPolicy

/-- The answer of GET /queues/:id/stats. -/
structure QueueStats where
  totalJobs : Nat
  counts : JobStatus → Nat
  avgExecutionMs : Option Int
  successRate : Option ℚ
  throughputPerMinute : ℚ

/-- An element of GET /dlq. -/
structure EntryView where
  id : UUID
  row : DeadLetterEntry
  movedAt : Timestamp
  queueName : Option String
  originalJobType : Option JobType

/-- The answer of GET /projects/:id. -/
structure ProjectView where
  id : UUID
  row : Project
  name : Option String
  createdAt : Timestamp
  orgName : String

/-- Status and body; status 200 unless `failure`. -/
inductive ReadReply
  | jobs (page : Page JobView)
  | job (view : JobView)
  | executions (rows : List ExecutionView)
  | logs (page : Page LogView)
  | dependencies (rows : List DependencyView)
  | batches (page : Page BatchView)
  | batch (view : BatchView)
  | batchJobs (page : Page JobRow)
  | queues (page : Page QueueView)
  | queue (view : QueueDetail)
  | queueStats (stats : QueueStats)
  | deadLetters (page : Page EntryView)
  | project (view : ProjectView)
  | failure (err : AppError)

/-! ## §3. Queries. -/

/-- The tables, with the columns that only these endpoints read. -/
structure Snapshot where
  db : Db
  directory : Directory
  /-- `workers.name`. -/
  workerNames : Table UUID String
  /-- `retry_policies.name`. -/
  policyNames : Table UUID String
  /-- `job_logs` under its serial key, with `created_at`. -/
  jobLogs : Table Nat (JobLog × Timestamp)
  /-- `created_at`, or `moved_at` of a dead-letter entry. -/
  createdAt : Entity → Timestamp

namespace Snapshot

variable (s : Snapshot) (userId : UUID)

/-- `JOIN queues q ... JOIN projects p ON p.id = q.project_id JOIN organization_members
om ON om.org_id = p.org_id`, with `om.user_id` the user. -/
def reaches (queueId : UUID) : Bool :=
  (s.db.orgOfQueue queueId).any (fun O => (s.db.roleIn O userId).isSome)

/-- The same with `JOIN organizations o ON o.id = p.org_id` in between. -/
def reachesByOrg (queueId : UUID) : Bool :=
  (s.db.orgOfQueue queueId).any (fun O =>
    decide (O ∈ s.directory.organizations) && (s.db.roleIn O userId).isSome)

/-- `JOIN jobs j ON j.id = ...` in front of the chain. -/
def reachesJob (jobId : UUID) : Bool :=
  (s.db.jobs.lookup jobId).any (fun j => s.reaches userId j.queueId)

/-- The name of a queue that a LEFT JOIN adds. -/
def queueName (queueId : UUID) : Option String := (s.db.queues.lookup queueId).map (·.name)

/-- A row of `jobs` with its id and creation time. -/
def jobRow (x : UUID × Job) : JobRow := ⟨x.1, x.2, s.createdAt (.job x.1)⟩

/-- The element of the answer for one job. -/
def jobView (x : UUID × Job) : JobView := ⟨s.jobRow x, s.queueName x.2.queueId⟩

/-- GET /jobs. -/
def jobs (f : JobFilter) : List JobView :=
  (s.db.jobs.select (fun _ j => s.reaches userId j.queueId && f.admits j)).map s.jobView

/-- `ORDER BY j.priority DESC, j.created_at DESC`. -/
def jobsOrder (a b : JobView) : Bool :=
  decide (b.job.row.priority < a.job.row.priority)
    || (decide (a.job.row.priority = b.job.row.priority) && decide (b.job.createdAt ≤ a.job.createdAt))

/-- GET /jobs/:id. -/
def job (id : UUID) : ReadReply :=
  match (s.db.jobs.lookup id).filter (fun j => s.reachesByOrg userId j.queueId) with
  | none => .failure ⟨404, "NOT_FOUND", "Job not found"⟩
  | some j => .job (s.jobView (id, j))

/-- GET /jobs/:id/executions; the workers are LEFT JOINed. -/
def executions (jobId : UUID) : List ExecutionView :=
  (s.db.jobExecutions.select (fun _ x => decide (x.jobId = jobId) && s.reachesJob userId jobId)).map
    (fun x => ⟨x.1, x.2, s.workerNames.lookup x.2.workerId⟩)

/-- `ORDER BY attempt_number ASC`. -/
def executionsOrder (a b : ExecutionView) : Bool := decide (a.row.attemptNumber ≤ b.row.attemptNumber)

/-- GET /jobs/:id/logs. -/
def logs (jobId : UUID) : List LogView :=
  (s.jobLogs.select (fun _ l => decide (l.1.jobId = jobId) && s.reachesJob userId jobId)).map
    (fun x => ⟨x.1, x.2.1, x.2.2⟩)

/-- `ORDER BY created_at ASC` of the logs. -/
def logsOrder (a b : LogView) : Bool := decide (a.createdAt ≤ b.createdAt)

/-- GET /jobs/:id/dependencies: the chain starts at the job itself, and `dep` is
joined by its id alone. -/
def dependencies (jobId : UUID) : List DependencyView :=
  if s.reachesJob userId jobId then
    -- the primary key admits an edge once
    (s.db.prerequisites jobId).dedup.filterMap (fun d => (s.db.jobs.lookup d).map (fun dep =>
      ⟨d, dep.status, dep.type, dep.queueId, s.createdAt (.dependency jobId d)⟩))
  else []

/-- `ORDER BY created_at ASC` of the dependencies. -/
def dependenciesOrder (a b : DependencyView) : Bool := decide (a.createdAt ≤ b.createdAt)

/-- The element of the answer for one batch. -/
def batchView (x : UUID × Batch) : BatchView :=
  ⟨x.1, x.2, s.createdAt (.batch x.1), s.queueName x.2.queueId⟩

/-- GET /batches. -/
def batches (queueId : Option IdText) : List BatchView :=
  (s.db.batches.select (fun _ b => s.reaches userId b.queueId && queueId.all (fun t => t.is b.queueId))).map
    s.batchView

/-- `ORDER BY created_at DESC` of the batches. -/
def batchesOrder (a b : BatchView) : Bool := decide (b.createdAt ≤ a.createdAt)

/-- GET /batches/:id. -/
def batch (id : UUID) : ReadReply :=
  match (s.db.batches.lookup id).filter (fun b => s.reaches userId b.queueId) with
  | none => .failure ⟨404, "NOT_FOUND", "Batch not found"⟩
  | some b => .batch (s.batchView (id, b))

/-- GET /batches/:id/jobs: the chain starts at the batch, not at the jobs. -/
def batchJobs (batchId : UUID) : List JobRow :=
  (s.db.jobs.select (fun _ j => decide (j.batchId = some batchId)
    && (s.db.batches.lookup batchId).any (fun b => s.reaches userId b.queueId))).map s.jobRow

/-- `ORDER BY created_at ASC` of the jobs of a batch. -/
def batchJobsOrder (a b : JobRow) : Bool := decide (a.createdAt ≤ b.createdAt)

/-- The policy is LEFT JOINed. -/
def queueView (x : UUID × Queue) : QueueView where
  id := x.1
  row := x.2
  createdAt := s.createdAt (.queue x.1)
  projectName := s.directory.projectNames.lookup x.2.projectId
  retryPolicyName := x.2.retryPolicyId.bind s.policyNames.lookup
  retryStrategy := (x.2.retryPolicyId.bind s.db.retryPolicies.lookup).map (·.strategy)

/-- GET /queues. -/
def queues (projectId : Option IdText) : List QueueView :=
  (s.db.queues.select (fun id q => s.reachesByOrg userId id && projectId.all (fun t => t.is q.projectId))).map
    s.queueView

/-- `ORDER BY q.priority DESC, q.created_at DESC`. -/
def queuesOrder (a b : QueueView) : Bool :=
  decide (b.row.priority < a.row.priority)
    || (decide (a.row.priority = b.row.priority) && decide (b.createdAt ≤ a.createdAt))

/-- GET /queues/:id. -/
def queue (id : UUID) : ReadReply :=
  match (s.db.queues.lookup id).filter (fun _ => s.reachesByOrg userId id) with
  | none => .failure ⟨404, "NOT_FOUND", "Queue not found"⟩
  | some q => .queue ⟨s.queueView (id, q), q.retryPolicyId.bind s.db.retryPolicies.lookup⟩

/-- The jobs of the queue with this status. -/
def statusCount (queueId : UUID) (status : JobStatus) : Nat :=
  s.db.jobs.count (fun _ j => decide (j.queueId = queueId) && decide (j.status = status))

/-- `finished_at - started_at` of the completed attempts of the queue's jobs. -/
def durations (queueId : UUID) : List Int :=
  (s.db.jobExecutions.select (fun _ x =>
      (s.db.jobs.lookup x.jobId).any (fun j => decide (j.queueId = queueId))
        && decide (x.status = .completed) && x.finishedAt.isSome)).map
    (fun x => x.2.finishedAt.getD 0 - x.2.startedAt)

/-- Completed jobs that were updated in the last five minutes. -/
def recentlyCompleted (now : Timestamp) (queueId : UUID) : Nat :=
  s.db.jobs.count (fun _ j => decide (j.queueId = queueId) && decide (j.status = .completed)
    && decide (now - 300000 ≤ j.updatedAt))

/-- The body of GET /queues/:id/stats: none of its queries is scoped again. -/
def stats (now : Timestamp) (queueId : UUID) : QueueStats where
  totalJobs := ([.blocked, .queued, .scheduled, .claimed, .running, .completed, .failed,
    .deadLetter].map (s.statusCount queueId)).sum
  counts := s.statusCount queueId
  avgExecutionMs :=
    if s.durations queueId = [] then none
    else some (mathRound ((s.durations queueId).sum / (s.durations queueId).length))
  successRate :=
    let completed := s.statusCount queueId .completed
    let finished := completed + s.statusCount queueId .failed + s.statusCount queueId .deadLetter
    if 0 < finished then some (mathRound ((completed : ℚ) / finished * 10000) / 100) else none
  throughputPerMinute := mathRound ((s.recentlyCompleted now queueId : ℚ) / 5 * 100) / 100

/-- GET /queues/:id/stats. -/
def queueStats (now : Timestamp) (id : UUID) : ReadReply :=
  if s.reachesByOrg userId id then .queueStats (s.stats now id)
  else .failure ⟨404, "NOT_FOUND", "Queue not found"⟩

/-- The element of the answer for one dead letter entry. -/
def entryView (x : UUID × DeadLetterEntry) : EntryView where
  id := x.1
  row := x.2
  movedAt := s.createdAt (.entry x.1)
  queueName := x.2.queueId.bind s.queueName
  -- `LEFT JOIN jobs j ON j.id = dlq.original_job_id`
  originalJobType := (x.2.originalJobId.bind s.db.jobs.lookup).map (·.type)

/-- GET /dlq: the LEFT JOINs of the chain end in a condition on `om.user_id`. -/
def deadLetters (queueId : Option IdText) : List EntryView :=
  (s.db.deadLetterQueue.select (fun _ x => x.queueId.any (fun q => s.reaches userId q)
    && queueId.all (fun t => x.queueId.any (fun q => t.is q)))).map s.entryView

/-- `ORDER BY moved_at DESC`. -/
def deadLettersOrder (a b : EntryView) : Bool := decide (b.movedAt ≤ a.movedAt)

/-- GET /projects/:id. -/
def project (id : UUID) : ReadReply :=
  match s.db.projects.lookup id with
  | none => .failure ⟨404, "NOT_FOUND", "Project not found"⟩
  | some p =>
      match s.directory.organizations.lookup p.orgId, s.db.roleIn p.orgId userId with
      | some org, some _ => .project ⟨id, p, s.directory.projectNames.lookup id,
          s.createdAt (.project id), org.name⟩
      | _, _ => .failure ⟨404, "NOT_FOUND", "Project not found"⟩

end Snapshot

/-! ## §4. The endpoints. -/

/-- The endpoint of one entity: a path that does not cast is an error of the query. -/
def IdText.answer (id : IdText) (f : UUID → ReadReply → Prop) (reply : ReadReply) : Prop :=
  match id with
  | .uuid id => f id reply
  | .malformed text => some reply = (castError [some (.malformed text)]).map .failure

/-- A list endpoint: its casts, then the rows in some order that ORDER BY admits. -/
def listing {α : Type} (casts : List (Option IdText)) (le : α → α → Bool) (rows : List α)
    (body : List α → ReadReply) (reply : ReadReply) : Prop :=
  match castError casts with
  | some err => reply = .failure err
  | none => ∃ l, OrderedBy le rows l ∧ reply = body l

/-- `reply` is a possible reply to the user's request in this state. -/
def ReadRequest.Replies (s : Snapshot) (userId : UUID) (now : Timestamp) :
    ReadRequest → ReadReply → Prop
  | .jobs page f => listing [f.queueId, f.batchId] Snapshot.jobsOrder (s.jobs userId f)
      (fun l => .jobs (page.parse.paginated l))
  | .job id => id.answer (fun id reply => reply = s.job userId id)
  | .executions id => id.answer (fun id => listing [] Snapshot.executionsOrder (s.executions userId id)
      .executions)
  | .logs id page => id.answer (fun id => listing [] Snapshot.logsOrder (s.logs userId id)
      (fun l => .logs (page.parse.paginated l)))
  | .dependencies id => id.answer (fun id => listing [] Snapshot.dependenciesOrder
      (s.dependencies userId id) .dependencies)
  | .batches page queueId => listing [queueId] Snapshot.batchesOrder (s.batches userId queueId)
      (fun l => .batches (page.parse.paginated l))
  | .batch id => id.answer (fun id reply => reply = s.batch userId id)
  | .batchJobs id page => id.answer (fun id => listing [] Snapshot.batchJobsOrder
      (s.batchJobs userId id) (fun l => .batchJobs (page.parse.paginated l)))
  | .queues page projectId => listing [projectId] Snapshot.queuesOrder (s.queues userId projectId)
      (fun l => .queues (page.parse.paginated l))
  | .queue id => id.answer (fun id reply => reply = s.queue userId id)
  | .queueStats id => id.answer (fun id reply => reply = s.queueStats userId now id)
  | .deadLetters page queueId => listing [queueId] Snapshot.deadLettersOrder
      (s.deadLetters userId queueId) (fun l => .deadLetters (page.parse.paginated l))
  | .project id => id.answer (fun id reply => reply = s.project userId id)

/-! ## §5. Every request gets a reply. -/

/-- A list endpoint whose order puts any two rows one way or the other. -/
theorem exists_listing {α : Type} (casts : List (Option IdText)) {le : α → α → Bool} (rows : List α)
    (body : List α → ReadReply) (htrans : ∀ a b c, le a b = true → le b c = true → le a c = true)
    (htotal : ∀ a b, (le a b || le b a) = true) : ∃ reply, listing casts le rows body reply := by
  unfold listing
  split
  · exact ⟨_, rfl⟩
  · exact ⟨_, _, orderedBy_mergeSort rows htrans htotal, rfl⟩

/-- A route with an id has an answer also for a text that is none. -/
theorem IdText.exists_answer {id : IdText} {f : UUID → ReadReply → Prop}
    (h : ∀ i, ∃ reply, f i reply) : ∃ reply, id.answer f reply := by
  cases id with
  | uuid i => exact h i
  | malformed text => exact ⟨_, rfl⟩

/-- Every read request has a reply. -/
theorem ReadRequest.exists_reply (s : Snapshot) (userId : UUID) (now : Timestamp) (r : ReadRequest) :
    ∃ reply, r.Replies s userId now reply := by
  cases r with
  | jobs page f =>
      refine exists_listing _ _ _ (fun a b c => ?_) (fun a b => ?_) <;>
        simp only [Snapshot.jobsOrder, Bool.or_eq_true, Bool.and_eq_true, decide_eq_true_eq] <;> grind
  | queues page projectId =>
      refine exists_listing _ _ _ (fun a b c => ?_) (fun a b => ?_) <;>
        simp only [Snapshot.queuesOrder, Bool.or_eq_true, Bool.and_eq_true, decide_eq_true_eq] <;> grind
  | batches page queueId =>
      refine exists_listing _ _ _ (fun a b c => ?_) (fun a b => ?_) <;>
        simp only [Snapshot.batchesOrder, Bool.or_eq_true, decide_eq_true_eq] <;> grind
  | deadLetters page queueId =>
      refine exists_listing _ _ _ (fun a b c => ?_) (fun a b => ?_) <;>
        simp only [Snapshot.deadLettersOrder, Bool.or_eq_true, decide_eq_true_eq] <;> grind
  | executions id =>
      refine IdText.exists_answer (fun i => exists_listing _ _ _ (fun a b c => ?_) (fun a b => ?_)) <;>
        simp only [Snapshot.executionsOrder, Bool.or_eq_true, decide_eq_true_eq] <;> grind
  | logs id page =>
      refine IdText.exists_answer (fun i => exists_listing _ _ _ (fun a b c => ?_) (fun a b => ?_)) <;>
        simp only [Snapshot.logsOrder, Bool.or_eq_true, decide_eq_true_eq] <;> grind
  | dependencies id =>
      refine IdText.exists_answer (fun i => exists_listing _ _ _ (fun a b c => ?_) (fun a b => ?_)) <;>
        simp only [Snapshot.dependenciesOrder, Bool.or_eq_true, decide_eq_true_eq] <;> grind
  | batchJobs id page =>
      refine IdText.exists_answer (fun i => exists_listing _ _ _ (fun a b c => ?_) (fun a b => ?_)) <;>
        simp only [Snapshot.batchJobsOrder, Bool.or_eq_true, decide_eq_true_eq] <;> grind
  | job | batch | queue | queueStats | project => exact IdText.exists_answer (fun i => ⟨_, rfl⟩)

end JobScheduler
