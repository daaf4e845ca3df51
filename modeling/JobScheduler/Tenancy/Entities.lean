/-
  JobScheduler.Tenancy.Entities
  ─────────────────────────────
  The rows that belong to an organisation, under one type of keys: a job, say,
  belongs to it by way of its queue and the queue's project.
-/
import JobScheduler.Tenancy.References

namespace JobScheduler

open Relational

/-- A row that belongs to an organisation. -/
inductive Entity
  | project (id : UUID)
  | queue (id : UUID)
  | job (id : UUID)
  | dependency (jobId dependsOnJobId : UUID)
  | batch (id : UUID)
  | schedule (id : UUID)
  | entry (id : UUID)
  | membership (orgId userId : UUID)

/-- The two databases have the same row, or both have none. -/
def Db.SameRow (db db' : Db) : Entity → Prop
  | .project id => db'.projects.lookup id = db.projects.lookup id
  | .queue id => db'.queues.lookup id = db.queues.lookup id
  | .job id => db'.jobs.lookup id = db.jobs.lookup id
  | .dependency j d => (j, d) ∈ db'.jobDependencies ↔ (j, d) ∈ db.jobDependencies
  | .batch id => db'.batches.lookup id = db.batches.lookup id
  | .schedule id => db'.scheduledJobs.lookup id = db.scheduledJobs.lookup id
  | .entry id => db'.deadLetterQueue.lookup id = db.deadLetterQueue.lookup id
  | .membership o u => db'.roleIn o u = db.roleIn o u

/-- The organisation that a row belongs to. -/
def Db.orgOf (db : Db) : Entity → Option UUID
  | .project id => (db.projects.lookup id).map (·.orgId)
  | .queue id => db.orgOfQueue id
  | .job id => db.orgOfJob id
  | .dependency j _ => db.orgOfJob j
  | .batch id => (db.batches.lookup id).bind (fun b => db.orgOfQueue b.queueId)
  | .schedule id => (db.scheduledJobs.lookup id).bind (fun sj => db.orgOfQueue sj.queueId)
  | .entry id => (db.deadLetterQueue.lookup id).bind (fun x => x.queueId.bind db.orgOfQueue)
  | .membership o _ => some o

theorem Db.sameRow_refl (db : Db) (e : Entity) : db.SameRow db e := by
  cases e <;> rfl

/-- The joins from a queue to its organisation. -/
theorem Db.orgOfQueue_eq_some {db : Db} {q O : UUID} :
    db.orgOfQueue q = some O ↔ ∃ row p, db.queues.lookup q = some row ∧
      db.projects.lookup row.projectId = some p ∧ p.orgId = O := by
  constructor
  · intro h
    obtain ⟨row, hrow, h⟩ := Option.bind_eq_some_iff.mp h
    obtain ⟨p, hp, h⟩ := Option.bind_eq_some_iff.mp h
    exact ⟨row, p, hrow, hp, Option.some.inj h⟩
  · rintro ⟨row, p, hrow, hp, rfl⟩
    exact Option.bind_eq_some_iff.mpr ⟨row, hrow, Option.bind_eq_some_iff.mpr ⟨p, hp, rfl⟩⟩

/-- The joins from a job to its organisation. -/
theorem Db.orgOfJob_eq_some {db : Db} {j O : UUID} :
    db.orgOfJob j = some O ↔ ∃ row, db.jobs.lookup j = some row ∧ db.orgOfQueue row.queueId = some O :=
  Option.bind_eq_some_iff

end JobScheduler
