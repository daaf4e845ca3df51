/-
  JobScheduler.Routes.Projects
  ────────────────────────────
  DELETE /projects/:id of `projects.routes.ts`: one statement, and the rows that
  the foreign keys of the schema remove or blank along with the project.
-/
import JobScheduler.Schema.Database

namespace JobScheduler

open Relational

/-- `om.role IN ('owner', 'admin')`. -/
def OrgRole.canDelete : OrgRole → Bool
  | .owner | .admin => true
  | _ => false

/-- The WHERE clause of the DELETE. -/
def Db.canDelete (db : Db) (projectId userId : UUID) : Bool :=
  (db.projects.lookup projectId).any (fun p => (db.roleIn p.orgId userId).any OrgRole.canDelete)

/-! ## §1. The rows that go with a project. -/

/-- `queues.project_id ... ON DELETE CASCADE`. -/
def Db.queueOfProject (db : Db) (projectId queueId : UUID) : Bool :=
  (db.queues.lookup queueId).any (fun q => decide (q.projectId = projectId))

/-- `jobs.queue_id ... ON DELETE CASCADE`. -/
def Db.jobOfProject (db : Db) (projectId jobId : UUID) : Bool :=
  (db.jobs.lookup jobId).any (fun j => db.queueOfProject projectId j.queueId)

/-- `batches.queue_id ... ON DELETE CASCADE`. -/
def Db.batchOfProject (db : Db) (projectId batchId : UUID) : Bool :=
  (db.batches.lookup batchId).any (fun b => db.queueOfProject projectId b.queueId)

/-- `jobs.batch_id ... ON DELETE SET NULL`. -/
def Job.withoutBatch (j : Job) : Job := { j with batchId := none }

/-- `dead_letter_queue.original_job_id` and `queue_id ... ON DELETE SET NULL`. -/
def Db.orphaned (db : Db) (projectId : UUID) (entry : DeadLetterEntry) : DeadLetterEntry :=
  { entry with
    originalJobId := entry.originalJobId.filter (fun j => !db.jobOfProject projectId j)
    queueId := entry.queueId.filter (fun q => !db.queueOfProject projectId q) }

/-- The database without the project. -/
def Db.withoutProject (db : Db) (projectId : UUID) : Db :=
  { db with
    projects := db.projects.erase projectId
    queues := db.queues.delete (fun q _ => db.queueOfProject projectId q)
    jobs := (db.jobs.delete (fun j _ => db.jobOfProject projectId j)).update
      (fun _ j => j.batchId.any (db.batchOfProject projectId)) Job.withoutBatch
    jobDependencies := db.jobDependencies.filter (fun e =>
      !db.jobOfProject projectId e.1 && !db.jobOfProject projectId e.2)
    batches := db.batches.delete (fun b _ => db.batchOfProject projectId b)
    jobExecutions := db.jobExecutions.delete (fun _ x => db.jobOfProject projectId x.jobId)
    jobLogs := db.jobLogs.filter (fun l => !db.jobOfProject projectId l.jobId)
    scheduledJobs := db.scheduledJobs.delete (fun _ sj => db.queueOfProject projectId sj.queueId)
    deadLetterQueue := db.deadLetterQueue.update (fun _ _ => true) (db.orphaned projectId) }

/-- The handler. -/
def deleteProject (env : Env) (userId projectId : UUID) (db : Db) : Db × Reply :=
  if env.fails then (db, .failure (internalServerError env.error))
  else if db.canDelete projectId userId then (db.withoutProject projectId, .success 204)
  else (db, .failure ⟨404, "NOT_FOUND", "Project not found"⟩)

/-! ## §2. What is left under a key. -/

variable (db : Db) (projectId : UUID)

/-- A job of another project keeps its row, but for the batch. -/
theorem withoutProject_job (j : UUID) :
    (db.withoutProject projectId).statusOf j
      = if db.jobOfProject projectId j = true then none else db.statusOf j := by
  unfold Db.statusOf Db.withoutProject
  rw [Table.lookup_update, Table.lookup_delete]
  cases hrow : db.jobs.lookup j with
  | none => simp
  | some row =>
      by_cases hj : db.jobOfProject projectId j = true
      · simp [hj]
      · simp only [hj, Bool.false_eq_true, if_false, Option.filter_some, Bool.not_false, if_true,
          Option.map_some, Option.some.injEq]
        split <;> rfl

/-- An entry stays, and forgets a job that goes. -/
theorem withoutProject_entry (x : UUID) :
    (db.withoutProject projectId).deadLetterQueue.lookup x
      = (db.deadLetterQueue.lookup x).map (db.orphaned projectId) := by
  unfold Db.withoutProject
  rw [Table.lookup_update]
  simp

end JobScheduler
