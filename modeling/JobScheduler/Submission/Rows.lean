/-
  JobScheduler.Submission.Rows
  ────────────────────────────
  The rows that POST /queues/:queueId/jobs adds, statement by statement, and the
  rows a body asks for.  `Submit.inserts` is the row of the next statement,
  `Submit.rejects` says when the statement is rejected, and `Submit.Shape` relates
  the program point to the items that are inserted and to those that are left.
-/
import JobScheduler.Batch.Ledger

namespace JobScheduler

open Relational Transition

/-! ## §1. Added rows. -/

/-- A row of one of the four tables that the request writes. -/
inductive TableRow
  | job (id : UUID) (row : Job)
  | batch (id : UUID) (row : Batch)
  | dependency (jobId dependsOnJobId : UUID)
  | schedule (id : UUID) (row : ScheduledJob)

/-- The row is in the database. -/
def Db.Has (db : Db) : TableRow → Prop
  | .job id row => db.jobs.lookup id = some row
  | .batch id row => db.batches.lookup id = some row
  | .dependency j d => (j, d) ∈ db.jobDependencies
  | .schedule id row => db.scheduledJobs.lookup id = some row

/-- The row is there after the statement and was not there before. -/
def Db.Adds (db db' : Db) (row : TableRow) : Prop := ¬ db.Has row ∧ db'.Has row

/-- Client `k` has added the row in one of its steps. -/
def Added (cfg : Config) (tr : List (Sys × Action)) (k : Nat) (row : TableRow) : Prop :=
  ∃ t env t', (t, Action.run k env) ∈ tr ∧ step cfg t (.run k env) = some t' ∧ t.db.Adds t'.db row

/-! ## §2. One statement. -/

namespace Submit

/-- The statement at the program point is rejected. -/
def rejects (cfg : Config) (env : Env) (r : Submit) (db : Db) : Bool :=
  match r.pc with
  | .insertJob item _ => env.fails || !db.idempotencyFree (r.row env.now item)
  | .attach jobId d _ _ => env.fails || d == jobId || decide (d ∉ db.jobs)
  | .notify ev => env.fails || !cfg.notifyAccepts ev
  | _ => env.fails

/-- The row that the statement adds when it is carried out. -/
def inserts (cfg : Config) (env : Env) (r : Submit) (db : Db) : Option TableRow :=
  match r.pc with
  | .insertBatch => some (.batch env.fresh (r.batchRow env.now))
  | .insertJob item _ => some (.job env.fresh (r.row env.now item))
  | .attach jobId d _ _ =>
      if (jobId, d) ∈ db.jobDependencies then none else some (.dependency jobId d)
  | .insertSchedule => some (.schedule env.fresh (r.schedule cfg env.now))
  | _ => none

end Submit

section
variable {cfg : Config} {env : Env} {db db' : Db} {r r' : Submit}

theorem not_adds_self (db : Db) (row : TableRow) : ¬ db.Adds db row := fun h => h.1 h.2

theorem not_adds_event (db : Db) (ev : SystemEvent) (row : TableRow) :
    ¬ db.Adds (db.insertEvent ev) row := by
  cases row <;> exact not_adds_self db _

theorem adds_insertBatch {id : UUID} {b : Batch} (hfresh : id ∉ db.batches) (row : TableRow) :
    db.Adds (db.insertBatch id b) row ↔ row = .batch id b := by
  have hnone : db.batches.lookup id = none := AList.lookup_eq_none.mpr hfresh
  cases row with
  | batch i c =>
      by_cases hi : i = id
      · subst hi
        simp [Db.Adds, Db.Has, hnone, eq_comm]
      · simp [Db.Adds, Db.Has, hi]
  | _ => simp [Db.Adds, Db.Has, Db.insertBatch]

/-- The INSERT of a job adds that row. -/
theorem adds_insertJob {id : UUID} {j : Job} (hfresh : id ∉ db.jobs) (row : TableRow) :
    db.Adds (db.insertJob id j) row ↔ row = .job id j := by
  have hnone : db.jobs.lookup id = none := AList.lookup_eq_none.mpr hfresh
  cases row with
  | job i c =>
      by_cases hi : i = id
      · subst hi
        simp [Db.Adds, Db.Has, hnone, eq_comm]
      · simp [Db.Adds, Db.Has, hi]
  | _ => simp [Db.Adds, Db.Has, Db.insertJob]

theorem adds_insertSchedule {id : UUID} {sj : ScheduledJob} (hfresh : id ∉ db.scheduledJobs)
    (row : TableRow) : db.Adds (db.insertSchedule id sj) row ↔ row = .schedule id sj := by
  have hnone : db.scheduledJobs.lookup id = none := AList.lookup_eq_none.mpr hfresh
  cases row with
  | schedule i c =>
      by_cases hi : i = id
      · subst hi
        simp [Db.Adds, Db.Has, Db.insertSchedule, hnone, eq_comm]
      · simp [Db.Adds, Db.Has, Db.insertSchedule, hi]
  | _ => simp [Db.Adds, Db.Has, Db.insertSchedule]

/-- `ON CONFLICT DO NOTHING`. -/
theorem adds_insertDependency (j d : UUID) (row : TableRow) :
    db.Adds (db.insertDependency j d) row ↔
      (j, d) ∉ db.jobDependencies ∧ row = .dependency j d := by
  cases row with
  | dependency i x =>
      simp only [Db.Adds, Db.Has, mem_insertDependency, Prod.mk.injEq, TableRow.dependency.injEq]
      constructor
      · rintro ⟨hno, hin | ⟨rfl, rfl⟩⟩
        · exact absurd hin hno
        · exact ⟨hno, rfl, rfl⟩
      · rintro ⟨hno, rfl, rfl⟩
        exact ⟨hno, .inr ⟨rfl, rfl⟩⟩
  | _ => simp [Db.Adds, Db.Has, Db.insertDependency]

/-- **A statement adds the row of its program point, unless it is rejected.** -/
theorem Submit.step_adds (h : r.step cfg env db = some (db', r')) (row : TableRow) :
    db.Adds db' row ↔ r.rejects cfg env db = false ∧ r.inserts cfg env db = some row := by
  have hself := not_adds_self db row
  cases hpc : r.pc <;> simp only [Submit.step, hpc] at h <;>
    simp only [Submit.rejects, Submit.inserts, hpc]
  case insertBatch =>
    repeat' split at h
    all_goals cases h
    · simp_all
    · rename_i hf hfresh
      simp [adds_insertBatch hfresh, hf, eq_comm]
  case insertJob item rest =>
    repeat' split at h
    all_goals cases h
    -- rejected, refused by the index, carried out
    · simp_all
    · simp_all
    · rename_i hf hkey hfresh
      simp [adds_insertJob hfresh, hf, hkey, eq_comm]
  case attach jobId d todo rest =>
    split at h <;> cases h
    · rename_i hf
      simp only [hself, hf, Bool.true_eq_false, false_and]
    · rename_i hf
      -- an edge that is there already is skipped
      rw [adds_insertDependency]
      simp only [eq_false_of_ne_true hf, true_and]
      split
      · rename_i hold
        simp [hold]
      · rename_i hold
        simp [hold, eq_comm]
  case insertSchedule =>
    repeat' split at h
    all_goals cases h
    · simp_all
    · rename_i hf hfresh
      simp [adds_insertSchedule hfresh, hf, eq_comm]
  case publish ev =>
    split at h <;> cases h
    · simp [hself]
    · simp [not_adds_event]
  all_goals
    repeat' split at h
    all_goals cases h
    all_goals simp [hself]

end

/-! ## §3. The rows that a body asks for. -/

/-- The values of the job rows, in the order of their INSERTs. -/
def CreateJobInput.items (body : CreateJobInput) (batchId : Option UUID) : List JobItem :=
  match body.type, batchId with
  | .immediate, _ => [body.item .now]
  | .delayed, _ => [body.item (.after (body.delayMs.getD 0))]
  | .scheduled, _ => [body.item (.at (body.runAt.getD 0))]
  | .recurring, _ => []
  | .batch, none => []
  | .batch, some B => body.batchJobs.map (body.batchItem B)

/-- The rows are those of the items, in order. -/
def Submit.RowsFor (r : Submit) (items : List JobItem) (rows : List (UUID × Job)) : Prop :=
  List.Forall₂ (fun item row => ∃ now, row.2 = r.row now item) items rows

/-- Past the checks, and not rejected. -/
def SubmitPc.writing : SubmitPc → Bool
  | .insertJob _ _ | .attach _ _ _ _ | .publish _ | .notify _ | .replied (.success _) => true
  | _ => false

/-- What the program point says about the rows inserted and the items left. -/
structure Submit.Shape (r : Submit) : Prop where
  fresh : r.pc.early = true ∨ r.pc = .insertSchedule → r.batch = none ∧ r.created = []
  items : r.pc.writing = true →
    ∃ done, r.body.items (r.batch.map Prod.fst) = done ++ r.todo ∧ r.RowsFor done r.created
  batch : r.pc.writing = true → (r.batch.isSome ↔ r.body.type = .batch)
  typed : r.pc = .insertBatch → r.body.type = .batch
  recurring : r.pc = .insertSchedule → r.body.type = .recurring
  concrete : (∃ item rest, r.pc = .insertJob item rest) ∨
    (∃ j d todo rest, r.pc = .attach j d todo rest) → r.body.type ≠ .recurring
  code : ∀ c, r.pc = .replied (.success c) → c = 201

namespace Submit

variable {cfg : Config} {env : Env} {db db' : Db} {r r' : Submit}

/-- A request that has not passed its checks. -/
theorem shape_fresh (hb : r.batch = none) (hc : r.created = [])
    (hpc : r.pc = .checkQueue ∨ r.pc = .checkDependencies) : r.Shape := by
  refine ⟨fun _ => ⟨hb, hc⟩, ?_, ?_, ?_, ?_, ?_, ?_⟩ <;> rcases hpc with hpc | hpc <;>
    simp [hpc, SubmitPc.writing]

/-- A failed request has any shape. -/
theorem shape_failed {err : AppError} (hpc : r.pc = .replied (.failure err)) : r.Shape := by
  refine ⟨?_, ?_, ?_, ?_, ?_, ?_, ?_⟩ <;> simp [hpc, SubmitPc.writing, SubmitPc.early]

/-- `switch (type)` goes to the first row of the body. -/
theorem shape_dispatch (cfg : Config) (now : Timestamp) (hb : r.batch = none) (hc : r.created = []) :
    (r.dispatch cfg now).Shape := by
  unfold dispatch
  cases ht : r.body.type <;> dsimp only
  case recurring =>
    split
    · exact shape_failed rfl
    · split
      · exact shape_failed rfl
      · refine ⟨fun _ => ⟨hb, hc⟩, ?_, ?_, ?_, fun _ => ht, ?_, ?_⟩ <;> simp [goto, SubmitPc.writing]
  case batch =>
    refine ⟨fun _ => ⟨hb, hc⟩, ?_, ?_, fun _ => ht, ?_, ?_, ?_⟩ <;> simp [goto, SubmitPc.writing]
  all_goals
    refine ⟨?_, fun _ => ⟨[], ?_, ?_⟩, ?_, ?_, ?_, ?_, ?_⟩ <;>
      simp [goto, SubmitPc.early, todo, hb, hc, ht, CreateJobInput.items, RowsFor]
  -- `superRefine` has checked that `run_at` is there
  obtain ⟨t, hrun⟩ := Option.isSome_iff_exists.mp (r.body.scheduled_has_runAt ht)
  simp [hrun]

theorem shape_nextItem (hb : r.batch.isSome ↔ r.body.type = .batch) (ht : r.body.type ≠ .recurring)
    {items : List JobItem} (q : Submit)
    (hi : ∃ done, r.body.items (r.batch.map Prod.fst) = done ++ items ∧ r.RowsFor done r.created) :
    (r.goto (q.nextItem items)).Shape := by
  refine ⟨?_, fun _ => ?_, fun _ => hb, ?_, ?_, fun _ => ht, ?_⟩
  · intro h
    rcases h with h | h
    · simp [goto, q.nextItem_early] at h
    · cases items <;> cases h
  · rw [nextItem_todo]
    exact hi
  all_goals cases items <;> simp [goto, nextItem]

theorem shape_nextEdge (hb : r.batch.isSome ↔ r.body.type = .batch) (ht : r.body.type ≠ .recurring)
    {items : List JobItem} (q : Submit) (j : UUID) (ds : List UUID)
    (hi : ∃ done, r.body.items (r.batch.map Prod.fst) = done ++ items ∧ r.RowsFor done r.created) :
    (r.goto (q.nextEdge j ds items)).Shape := by
  cases ds with
  | nil => exact shape_nextItem hb ht q hi
  | cons d ds =>
      refine ⟨?_, fun _ => hi, fun _ => hb, ?_, ?_, fun _ => ht, ?_⟩ <;>
        simp [goto, nextEdge, SubmitPc.early]

/-- A statement of the request keeps its shape. -/
theorem Shape.step (hS : r.Shape) (h : Stepped cfg env r db db' r') : r'.Shape := by
  cases h with
  | failed err => exact shape_failed rfl
  | queueChecked hpc shardKey =>
      obtain ⟨hb, hc⟩ := hS.fresh (.inl (by rw [hpc]; rfl))
      exact shape_fresh hb hc (.inr rfl)
  | dependenciesChecked hpc satisfied _ =>
      obtain ⟨hb, hc⟩ := hS.fresh (.inl (by rw [hpc]; rfl))
      exact shape_dispatch cfg env.now hb hc
  | batchInserted hpc _ q hq =>
      obtain ⟨hb, hc⟩ := hS.fresh (.inl (by rw [hpc]; rfl))
      have ht := hS.typed hpc
      subst hq
      -- the batch row comes first: no item is done yet
      refine shape_nextItem (by simp [ht]) (by simp [ht]) _ ⟨[], ?_, ?_⟩
      · simp [CreateJobInput.items, ht]
      · simp [RowsFor, hc]
  | jobInserted item rest hpc _ q hq =>
      -- one more item is done
      obtain ⟨done, hitems, hrows⟩ := hS.items (by rw [hpc]; rfl)
      have hb := hS.batch (by rw [hpc]; rfl)
      have ht := hS.concrete (.inl ⟨item, rest, hpc⟩)
      subst hq
      refine shape_nextEdge (r := { r with created := r.created ++ [(env.fresh, r.row env.now item)] })
        hb ht _ _ _ ⟨done ++ [item], ?_, ?_⟩
      · simpa [todo, hpc] using hitems
      · exact List.rel_append hrows (.cons ⟨env.now, rfl⟩ .nil)
  | attached j d ds rest hpc _ =>
      obtain ⟨done, hitems, hrows⟩ := hS.items (by rw [hpc]; rfl)
      have hb := hS.batch (by rw [hpc]; rfl)
      have ht := hS.concrete (.inr ⟨j, d, ds, rest, hpc⟩)
      exact shape_nextEdge hb ht _ _ _ ⟨done, by simpa [todo, hpc] using hitems, hrows⟩
  | scheduleInserted hpc ev =>
      obtain ⟨hb, hc⟩ := hS.fresh (.inr hpc)
      have ht := hS.recurring hpc
      refine ⟨?_, fun _ => ⟨[], ?_, ?_⟩, ?_, ?_, ?_, ?_, ?_⟩ <;>
        simp [goto, SubmitPc.early, todo, hb, hc, ht, CreateJobInput.items, RowsFor]
  | published ev hpc =>
      obtain ⟨done, hitems, hrows⟩ := hS.items (by rw [hpc]; rfl)
      refine ⟨?_, fun _ => ⟨done, ?_, hrows⟩, fun _ => hS.batch (by rw [hpc]; rfl), ?_, ?_, ?_, ?_⟩
      case refine_2 => simpa [goto, todo, hpc] using hitems
      all_goals simp [goto, SubmitPc.early]
  | replied ev hpc =>
      obtain ⟨done, hitems, hrows⟩ := hS.items (by rw [hpc]; rfl)
      refine ⟨?_, fun _ => ⟨done, ?_, hrows⟩, fun _ => hS.batch (by rw [hpc]; rfl), ?_, ?_, ?_, ?_⟩
      case refine_2 => simpa [goto, todo, hpc] using hitems
      all_goals simp [goto, SubmitPc.early, eq_comm]

end Submit

end JobScheduler
