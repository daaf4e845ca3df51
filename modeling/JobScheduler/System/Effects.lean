/-
  JobScheduler.System.Effects
  ───────────────────────────
  What one statement can do to the `jobs` table, said once: `JobChange` lists
  every way a client's step changes the row under one key, with the program
  point that does it, the guard of its WHERE clause and the row lock it needs.
  Every invariant on job rows is a case analysis of `JobChange`.
-/
import JobScheduler.System.State

namespace JobScheduler

open Relational

/-! ## §1. The shared writes, row by row. -/

@[simp] theorem updateJob_lookup (db : Db) (id : UUID) (f : Job → Job) (j : UUID) :
    (db.updateJob id f).jobs.lookup j
      = (db.jobs.lookup j).map (fun a => if j = id then f a else a) := by
  simp [Db.updateJob, Table.lookup_update]

@[simp] theorem updateJobsWhere_lookup (db : Db) (p : UUID → Job → Bool) (f : Job → Job) (j : UUID) :
    (db.updateJobsWhere p f).jobs.lookup j
      = (db.jobs.lookup j).map (fun a => if p j a then f a else a) := by
  simp [Db.updateJobsWhere, Table.lookup_update]

@[simp] theorem insertJob_lookup (db : Db) (id : UUID) (row : Job) (j : UUID) :
    (db.insertJob id row).jobs.lookup j = if j = id then some row else db.jobs.lookup j := by
  simp [Db.insertJob, Table.lookup_insert_ite]

theorem updateJob_lookup_self {db : Db} {id : UUID} {a : Job} (f : Job → Job)
    (h : db.jobs.lookup id = some a) : (db.updateJob id f).jobs.lookup id = some (f a) := by
  simp [h]

theorem updateJob_lookup_ne (db : Db) {id j : UUID} (f : Job → Job) (h : j ≠ id) :
    (db.updateJob id f).jobs.lookup j = db.jobs.lookup j := by
  simp [h]

/-! ## §2. The changes of a job row. -/

/-- `JobChange ctx env db j p old new`: the step of client `p` turns the row
under `j` from `old` into `new`. -/
inductive JobChange (ctx : Ctx) (env : Env) (db : Db) (j : UUID) :
    Proc → Option Job → Option Job → Prop
  | same (p : Proc) (o : Option Job) : JobChange ctx env db j p o o
  /-- COMMIT of a claim. -/
  | claimed (c : Claim) (row old : Job) (hpc : c.pc = .committing (some (j, row))) :
      JobChange ctx env db j (.claim c) (some old) (some (c.claimed old))
  | running (e : Exec) (old : Job) (hpc : e.pc = .setRunning) (hj : e.jobId = j)
      (hfree : ctx.jobFree j = true) :
      JobChange ctx env db j (.exec e) (some old)
        (some { old with status := .running, attempts := e.attemptNumber, updatedAt := env.now })
  | completed (e : Exec) (old : Job) (result : Json) (hpc : e.pc = .setCompleted result)
      (hj : e.jobId = j) (hfree : ctx.jobFree j = true) :
      JobChange ctx env db j (.exec e) (some old)
        (some { old with status := .completed, resultData := some result, updatedAt := env.now })
  | released (e : Exec) (old : Job) (hpc : e.pc = .unblock)
      (hw : db.releasable e.jobId j old = true) (hfree : ctx.jobFree j = true) :
      JobChange ctx env db j (.exec e) (some old) (some (old.released env.now))
  | requeued (e : Exec) (old : Job) (delay : Int) (n : Nat) (st : RetryStrategy)
      (hpc : e.pc = .requeue delay n st) (hj : e.jobId = j) (hfree : ctx.jobFree j = true) :
      JobChange ctx env db j (.exec e) (some old)
        (some { old with
          status := .queued, workerId := none, runAt := env.now + delay, updatedAt := env.now })
  | deadLettered (e : Exec) (old : Job) (error : String) (hpc : e.pc = .deadLetter error)
      (hj : e.jobId = j) (hfree : ctx.jobFree j = true) :
      JobChange ctx env db j (.exec e) (some old)
        (some { old with
          status := .deadLetter, failureSummary := some (e.failureSummary error),
          updatedAt := env.now })
  /-- INSERT by POST /queues/:queueId/jobs. -/
  | submitted (r : Submit) (item : JobItem) (rest : List JobItem)
      (hpc : r.pc = .insertJob item rest) (hj : env.fresh = j) :
      JobChange ctx env db j (.submit r) none (some (r.row env.now item))
  | retried (r : Retry) (old : Job) (hpc : r.pc = .update) (hj : r.jobId = j)
      (hfree : ctx.jobFree j = true) :
      JobChange ctx env db j (.retry r) (some old) (some (old.reset env.now))
  | replayed (r : Replay) (old : Job) (hpc : r.pc = .update j) (hfree : ctx.jobFree j = true) :
      JobChange ctx env db j (.replay r) (some old) (some (old.reset env.now))
  /-- INSERT by a replay whose original job is gone. -/
  | recreated (r : Replay) (queueId : UUID) (payload : Json) (q : Queue)
      (hpc : r.pc = .insert queueId payload) (hj : env.fresh = j) :
      JobChange ctx env db j (.replay r) none
        (some (Replay.replayedRow env.now queueId payload q))
  | cancelled (r : Cancel) (old : Job) (batch : Option Batch) (hpc : r.pc = .updateJobs batch)
      (hw : Cancel.cancels r.batchId j old = true) (hfree : ctx.jobFree j = true) :
      JobChange ctx env db j (.cancel r) (some old) (some (Cancel.cancelledJob env.now old))
  | flipped (t : Tick) (old : Job) (hpc : t.pc = .flip) (hw : Tick.flips env.now j old = true)
      (hfree : ctx.jobFree j = true) :
      JobChange ctx env db j (.tick t) (some old)
        (some { old with status := .queued, updatedAt := env.now })
  /-- INSERT by the scheduler. -/
  | dispatched (t : Tick) (id : UUID) (sj : ScheduledJob) (rest : List (UUID × ScheduledJob))
      (q : Queue) (hpc : t.pc = .insertJob id sj rest) (hj : env.fresh = j) :
      JobChange ctx env db j (.tick t) none (some (Tick.recurringRow env.now sj q))

/-- A key outside `WHERE id = ...` keeps its row; the key itself changes as the
given constructor says. -/
theorem jobChange_updateJob {ctx : Ctx} {env : Env} {db : Db} {j id : UUID} {p : Proc}
    {f : Job → Job}
    (h : j = id → ∀ old, JobChange ctx env db j p (some old) (some (f old))) :
    JobChange ctx env db j p (db.jobs.lookup j) ((db.updateJob id f).jobs.lookup j) := by
  rw [updateJob_lookup]
  by_cases hj : j = id
  · cases hl : db.jobs.lookup j with
    | none => exact .same p none
    | some old => simpa [hj] using hj ▸ h hj old
  · simpa [hj] using JobChange.same p (db.jobs.lookup j)

/-- A statement over many rows changes each of them in the listed way. -/
theorem jobChange_updateJobsWhere {ctx : Ctx} {env : Env} {db : Db} {j : UUID} {p : Proc}
    {w : UUID → Job → Bool} {f : Job → Job}
    (hlocks : ((db.jobs.select w).map Prod.fst).all ctx.jobFree = true)
    (h : ∀ old, w j old = true → ctx.jobFree j = true →
      JobChange ctx env db j p (some old) (some (f old))) :
    JobChange ctx env db j p (db.jobs.lookup j) ((db.updateJobsWhere w f).jobs.lookup j) := by
  rw [updateJobsWhere_lookup]
  cases hl : db.jobs.lookup j with
  | none => exact .same p none
  | some old =>
      cases hw : w j old with
      | false => simpa [hw] using JobChange.same p (some old)
      | true =>
          -- the row is one of those whose locks the statement needs
          have hmem : j ∈ (db.jobs.select w).map Prod.fst :=
            List.mem_map_of_mem (f := Prod.fst) ((Table.mem_select_iff w db.jobs j old).mpr ⟨hl, hw⟩)
          simpa [hw] using h old hw (List.all_eq_true.mp hlocks j hmem)

/-- An INSERT changes its own row only. -/
theorem jobChange_insertJob {ctx : Ctx} {env : Env} {db : Db} {j : UUID} {p : Proc} {row : Job}
    (hfresh : env.fresh ∉ db.jobs)
    (h : env.fresh = j → JobChange ctx env db j p none (some row)) :
    JobChange ctx env db j p (db.jobs.lookup j) ((db.insertJob env.fresh row).jobs.lookup j) := by
  rw [insertJob_lookup]
  by_cases hj : j = env.fresh
  · rw [if_pos hj, AList.lookup_eq_none.mpr (hj ▸ hfresh)]
    exact h hj.symm
  · rw [if_neg hj]
    exact .same p _

/-! ## §3. Every step is a `JobChange` under every key. -/

section
variable {cfg : Config} {ctx : Ctx} {env : Env} {db db' : Db} {j : UUID}

/-- What a statement of a claim does to one row of `jobs`. -/
theorem Claim.step_jobs {c c' : Claim} (h : c.step ctx env db = some (db', c')) :
    JobChange ctx env db j (.claim c) (db.jobs.lookup j) (db'.jobs.lookup j) := by
  cases Claim.stepped h with
  | committed id row hpc _ => exact jobChange_updateJob (fun hj old => .claimed c row old (hj ▸ hpc))
  | _ => exact .same _ _

/-- What a statement of `executeJob` does to one row of `jobs`. -/
theorem Exec.step_jobs {e e' : Exec} (h : e.step cfg ctx env db = some (db', e')) :
    JobChange ctx env db j (.exec e) (db.jobs.lookup j) (db'.jobs.lookup j) := by
  unfold Exec.step at h
  split at h
  · rename_i hready
    split at h
    · cases h
      exact .same _ _
    · cases h
      -- an accepted statement: `ready` has found the rows it writes unlocked
      unfold Exec.ready Exec.rowLocks at hready
      unfold Exec.effect
      cases hpc : e.pc <;> simp only [hpc, List.all_cons, List.all_nil, Bool.and_true] at hready ⊢
        <;> try exact JobChange.same _ _
      case setRunning =>
        exact jobChange_updateJob (fun hj old => .running e old hpc hj.symm (hj ▸ hready))
      case setCompleted result =>
        exact jobChange_updateJob (fun hj old => .completed e old result hpc hj.symm (hj ▸ hready))
      case unblock =>
        exact jobChange_updateJobsWhere hready (fun old hw hfree => .released e old hpc hw hfree)
      case requeue delay n st =>
        exact jobChange_updateJob (fun hj old => .requeued e old delay n st hpc hj.symm (hj ▸ hready))
      case deadLetter error =>
        exact jobChange_updateJob (fun hj old => .deadLettered e old error hpc hj.symm (hj ▸ hready))
  · cases h

/-- What a statement of a submission does to one row of `jobs`. -/
theorem Submit.step_jobs {r r' : Submit} (h : r.step cfg env db = some (db', r')) :
    JobChange ctx env db j (.submit r) (db.jobs.lookup j) (db'.jobs.lookup j) := by
  cases Submit.stepped h with
  | jobInserted item rest hpc hfresh =>
      exact jobChange_insertJob hfresh (fun hj => .submitted r item rest hpc hj)
  | _ => exact .same _ _

/-- What a statement of a retry request does to one row of `jobs`. -/
theorem Retry.step_jobs {r r' : Retry} (h : r.step cfg ctx env db = some (db', r')) :
    JobChange ctx env db j (.retry r) (db.jobs.lookup j) (db'.jobs.lookup j) := by
  cases Retry.stepped h with
  | updated hpc _ hfree =>
      exact jobChange_updateJob (fun hj old => .retried r old hpc hj.symm (hj ▸ hfree))
  | _ => exact .same _ _

/-- What a statement of a replay request does to one row of `jobs`. -/
theorem Replay.step_jobs {r r' : Replay} (h : r.step cfg ctx env db = some (db', r')) :
    JobChange ctx env db j (.replay r) (db.jobs.lookup j) (db'.jobs.lookup j) := by
  cases Replay.stepped h with
  | updated jobId hpc _ hfree =>
      exact jobChange_updateJob (fun hj old => .replayed r old (hj ▸ hpc) (hj ▸ hfree))
  | inserted queueId payload hpc _ hfresh q =>
      exact jobChange_insertJob hfresh (fun hj => .recreated r queueId payload q hpc hj)
  | _ => exact .same _ _

/-- What a statement of a batch cancellation does to one row of `jobs`. -/
theorem Cancel.step_jobs {r r' : Cancel} (h : r.step cfg ctx env db = some (db', r')) :
    JobChange ctx env db j (.cancel r) (db.jobs.lookup j) (db'.jobs.lookup j) := by
  cases Cancel.stepped h with
  | jobsUpdated batch hpc hfree =>
      exact jobChange_updateJobsWhere hfree (fun old hw hf => .cancelled r old batch hpc hw hf)
  | _ => exact .same _ _

/-- A queue update writes no job. -/
theorem Patch.step_jobs {r r' : Patch} (h : r.step cfg ctx env db = some (db', r')) :
    db'.jobs = db.jobs := by
  cases Patch.stepped h <;> rfl

/-- What a statement of a tick does to one row of `jobs`. -/
theorem Tick.step_jobs {t t' : Tick} (h : t.step cfg ctx env db = some (db', t')) :
    JobChange ctx env db j (.tick t) (db.jobs.lookup j) (db'.jobs.lookup j) := by
  obtain ⟨hready, ⟨_, rfl, _⟩ | ⟨_, rfl, _⟩⟩ := Tick.step_cases h
  · exact .same _ _
  · unfold Tick.ready Tick.rowLocks at hready
    unfold Tick.effect
    cases hpc : t.pc <;> simp only [hpc] at hready ⊢ <;> try exact JobChange.same _ _
    case flip =>
      exact jobChange_updateJobsWhere hready (fun old hw hfree => .flipped t old hpc hw hfree)
    case insertJob id sj rest =>
      cases hq : db.queues.lookup sj.queueId with
      | none => exact .same _ _
      | some q =>
          exact jobChange_insertJob (of_decide_eq_true hready)
            (fun hj => .dispatched t id sj rest q hpc hj)

/-- **Every statement of every client changes job rows only as `JobChange` says.** -/
theorem Proc.step_jobs {p p' : Proc} (h : p.step cfg ctx env db = some (db', p')) :
    JobChange ctx env db j p (db.jobs.lookup j) (db'.jobs.lookup j) := by
  cases Proc.stepped h with
  | claim c c' hq => exact Claim.step_jobs hq
  | exec e e' hq => exact Exec.step_jobs hq
  | submit r r' hq => exact Submit.step_jobs hq
  | retry r r' hq => exact Retry.step_jobs hq
  | replay r r' hq => exact Replay.step_jobs hq
  | cancel r r' hq => exact Cancel.step_jobs hq
  | patch r r' hq => rw [Patch.step_jobs hq]; exact .same _ _
  | tick t t' hq => exact Tick.step_jobs hq

end

end JobScheduler
