/-
  JobScheduler.Batch.Progress
  ───────────────────────────
  Batch completion is detected once.  Increment, comparison with `total_jobs`
  and status write belong to different runs that interleave freely; the UPDATE
  with RETURNING makes increment and comparison one step, and each job is counted
  by one increment however often it is retried.
-/
import JobScheduler.Batch.Ledger

namespace JobScheduler

open Relational Transition

/-! ## §1. One batch along a run. -/

/-- The increments that entered the finalisation branch of batch `B`. -/
def entries (tr : List (Sys × Action)) (B : UUID) : Nat :=
  tr.countP (fun p => p.2.finalises p.1 B)

/-- Some run has written the final status of batch `B`. -/
def statusWritten (tr : List (Sys × Action)) (B : UUID) : Bool :=
  tr.any (fun p => p.2.writesStatus p.1 B)

/-- The action is the status write of a cancellation of batch `B`. -/
def Action.cancelsBatch (s : Sys) (B : UUID) : Action → Bool
  | .run pid env =>
      match s.proc pid with
      | some (.cancel c) =>
          (match c.pc with
            | .updateBatch => true
            | _ => false) && decide (c.batchId = B) && !env.fails
      | _ => false
  | _ => false

theorem entries_snoc (tr : List (Sys × Action)) (s : Sys) (a : Action) (B : UUID) :
    entries (tr ++ [(s, a)]) B = entries tr B + if a.finalises s B then 1 else 0 := by
  simp [entries, List.countP_cons]

theorem statusWritten_snoc (tr : List (Sys × Action)) (s : Sys) (a : Action) (B : UUID) :
    statusWritten (tr ++ [(s, a)]) B = (statusWritten tr B || a.writesStatus s B) := by
  simp [statusWritten]

/-- The counter that `result` increments. -/
def Batch.counter (b : Batch) : BatchResult → Nat
  | .completed => b.completedJobs
  | .failed => b.failedJobs

theorem Batch.isFinished_iff {b : Batch} :
    b.isFinished = true ↔ b.totalJobs ≤ b.counter .completed + b.counter .failed := by
  simp [Batch.isFinished, Batch.counter]

/-- An increment raises its own counter by one and leaves the other. -/
theorem Batch.progress_counter (b : Batch) (result other : BatchResult) (now : Timestamp) :
    (b.progress result now).counter other = b.counter other + if other = result then 1 else 0 := by
  cases result <;> cases other <;> rfl

theorem Batch.progress_total (b : Batch) (result : BatchResult) (now : Timestamp) :
    (b.progress result now).totalJobs = b.totalJobs := by
  cases result <;> rfl

/-- Every job of the batch is inserted and completed or dead-lettered. -/
structure AllEnded (B : UUID) (total : Nat) (s : Sys) : Prop where
  inserted : s.db.batchSize B = total
  ended : ∀ j, s.db.InBatch B j → ∃ st, s.db.statusOf j = some st ∧ st.terminal = true

/-- The counters of a batch that request `r` has created, with its row `b`. -/
structure Account (B : UUID) (tr : List (Sys × Action)) (s : Sys) (r : Submit) (b : Batch) : Prop where
  row : s.db.batches.lookup B = some b
  positive : 0 < b.totalJobs
  roster : Roster B s r b.totalJobs
  tracked : Tracked B tr s
  counters : ∀ result, b.counter result = tally tr s.db B result
  entered : entries tr B = if b.isFinished then 1 else 0

/-- A batch that request `r` has created, its row `b` and the runs of its jobs. -/
structure Ledger (B : UUID) (tr : List (Sys × Action)) (s : Sys) (r : Submit) (b : Batch) : Prop where
  row : s.db.batches.lookup B = some b
  positive : 0 < b.totalJobs
  roster : Roster B s r b.totalJobs
  tracked : Tracked B tr s
  counters : ∀ result, b.counter result = tally tr s.db B result
  entered : entries tr B = if b.isFinished then 1 else 0
  complete : ∀ p ∈ tr, p.2.finalises p.1 B = true → AllEnded B b.totalJobs p.1
  /-- A run about to write the status read the row that is still there. -/
  writer : ∀ k e result batch, s.proc k = some (.exec e) → e.pc = .batchStatus result batch →
    e.job.batchId = some B → b.isFinished = true ∧ batch.failedJobs = b.failedJobs
  written : b.isFinished = true → statusWritten tr B = true ∨
    ∃ k e result batch, s.proc k = some (.exec e) ∧ e.pc = .batchStatus result batch ∧
      e.job.batchId = some B
  status : statusWritten tr B = true → b.isFinished = true ∧ b.status = finalStatus b

/-! ## §2. Creation. -/

section
variable {cfg : Config} {s s' : Sys} {a : Action} {tr : List (Sys × Action)} {B : UUID} {k : Nat}
  {r r' : Submit} {b b₀ : Batch}

/-- The ledger without the status of the batch. -/
theorem Ledger.account (hL : Ledger B tr s r b) : Account B tr s r b :=
  ⟨hL.row, hL.positive, hL.roster, hL.tracked, hL.counters, hL.entered⟩

/-- A batch with jobs is not finished when it is inserted. -/
theorem Submit.batchRow_unfinished (hpos : 0 < r.body.batchJobs.length) (now : Timestamp) :
    (r.batchRow now).isFinished = false := by
  rw [Bool.eq_false_iff, ne_eq, Batch.isFinished_iff]
  simp only [Batch.counter, Submit.batchRow]
  omega

/-- The INSERT of a batch opens its account. -/
theorem account_created {env : Env} (hC : Consistent tr s) (hk : s.proc k = some (.submit r))
    (hpc : r.pc = .insertBatch) (hfresh : B ∉ s.db.batches)
    (hdb : s'.db = s.db.insertBatch B (r.batchRow env.now))
    (ht : r'.todo = r.body.batchJobs.map (r.body.batchItem B)) :
    Account B (tr ++ [(s, a)]) s' r' (r.batchRow env.now) := by
  have hempty := not_inBatch_of_fresh hC.batches hfresh hdb
  have hpos : 0 < (r.batchRow env.now).totalJobs :=
    List.length_pos_iff.mpr (r.body.batch_nonempty (hC.batches.typed k r hk hpc))
  have hT : Tracked B (tr ++ [(s, a)]) s' :=
    ⟨fun j hj => absurd hj (hempty j), fun j _ hj => absurd hj (hempty j)⟩
  refine ⟨?_, hpos, roster_created hC.batches hfresh hdb ht, hT, ?_, ?_⟩
  · rw [hdb]; simp
  · intro result
    -- the batch has no jobs yet
    have hzero : tally (tr ++ [(s, a)]) s'.db B result = 0 := by
      by_contra hne
      obtain ⟨j, hj, _⟩ := hT.tally_pos.mp (Nat.pos_of_ne_zero hne)
      exact hempty j hj
    rw [hzero]
    cases result <;> rfl
  · rw [Submit.batchRow_unfinished hpos]
    exact List.countP_eq_zero.mpr (fun p hp => by simp [(hC.absent_snoc hfresh p hp).1])

/-- The INSERT of a batch opens its ledger. -/
theorem ledger_created {env : Env} (hC : Consistent tr s) (hk : s.proc k = some (.submit r))
    (hpc : r.pc = .insertBatch) (hfresh : B ∉ s.db.batches)
    (hdb : s'.db = s.db.insertBatch B (r.batchRow env.now))
    (ht : r'.todo = r.body.batchJobs.map (r.body.batchItem B)) (h : step cfg s a = some s') :
    Ledger B (tr ++ [(s, a)]) s' r' (r.batchRow env.now) := by
  have hC' := consistent_step hC h
  have hA : Account B (tr ++ [(s, a)]) s' r' (r.batchRow env.now) :=
    account_created hC hk hpc hfresh hdb ht
  have hempty := not_inBatch_of_fresh hC.batches hfresh hdb
  have hfin := Submit.batchRow_unfinished (r := r) hA.positive env.now
  have habsent := hC.absent_snoc (a := a) hfresh
  refine ⟨hA.row, hA.positive, hA.roster, hA.tracked, hA.counters, hA.entered, ?_, ?_, ?_, ?_⟩
  · intro p hp hf
    rw [(habsent p hp).1] at hf
    cases hf
  · intro l e _ _ hl _ hb
    exact absurd (hC'.defined.inBatch hl hb) (hempty _)
  · intro hf
    rw [hfin] at hf
    cases hf
  · intro hw
    obtain ⟨p, hp, hw⟩ := List.any_eq_true.mp hw
    rw [(habsent p hp).2] at hw
    cases hw

/-! ## §3. Increments. -/

/-- The branch is entered from an increment alone, with the row it returned. -/
theorem Exec.next_batchStatus {env : Env} {e : Exec} {db : Db} {result : BatchResult}
    {batch : Batch} (h : (e.next env db).pc = .batchStatus result batch) :
    e.pc = .batchProgress result ∧ e.progressed env db result = some batch ∧
      batch.isFinished = true := by
  have hf := e.flow env db
  rw [h] at hf
  generalize e.pc = pc at hf
  generalize hpc' : ExecPc.batchStatus result batch = pc' at hf
  cases hf with
  | finished r b hp hfin => cases hpc'; exact ⟨rfl, hp, hfin⟩
  | logged site => cases site <;> cases hpc'
  | _ => cases hpc'

/-- A step increments one counter, for one job. -/
theorem increments_inj {j j' : UUID} {result result' : BatchResult}
    (hi : a.increments s result j = true) (hi' : a.increments s result' j' = true) :
    result' = result ∧ j' = j := by
  obtain ⟨l, env, e, rfl, hl, hpc, rfl⟩ := increments_iff.mp hi
  obtain ⟨_, _, f, ha, hf, hfpc, rfl⟩ := increments_iff.mp hi'
  cases ha
  rw [hl] at hf
  cases hf
  rw [hpc] at hfpc
  cases hfpc
  exact ⟨rfl, rfl⟩

/-- An increment is no status write. -/
theorem not_writesStatus_of_increments {j : UUID} {result : BatchResult}
    (hi : a.increments s result j = true) : a.writesStatus s B = false := by
  obtain ⟨l, env, e, rfl, hl, hpc, _⟩ := increments_iff.mp hi
  rw [Bool.eq_false_iff, ne_eq, writesStatus_iff]
  rintro ⟨_, _, f, _, _, hf, hfk, hfpc, _⟩
  cases hf
  rw [hl] at hfk
  cases hfk
  rw [hpc] at hfpc
  cases hfpc

/-- An increment enters the branch exactly when the row it returns is finished. -/
theorem finalises_of_progress {l : Nat} {e : Exec} {result : BatchResult}
    (hrow : s.db.batches.lookup B = some b) (hl : s.proc l = some (.exec e))
    (hpc : e.pc = .batchProgress result) (hb : e.job.batchId = some B) (env : Env) :
    (Action.run l env).finalises s B = (b.progress result env.now).isFinished := by
  rw [Bool.eq_iff_iff, finalises_iff]
  constructor
  · rintro ⟨_, _, f, res, c, hf, hfk, hfpc, _, hrow', hfin⟩
    cases hf
    rw [hl] at hfk
    cases hfk
    rw [hpc] at hfpc
    cases hfpc
    rw [hrow] at hrow'
    cases hrow'
    exact hfin
  · exact fun hfin => ⟨l, env, e, result, b, rfl, hl, hpc, hb, hrow, hfin⟩

/-- Before an increment the row is not finished. -/
theorem Account.not_finished {j : UUID} {result : BatchResult} (hL : Account B tr s r b)
    (hj : s.db.InBatch B j) (hi : a.increments s result j = true) : b.isFinished = false := by
  have hlt := hL.tracked.sum_lt hj hi
  have hroom := hL.roster.room
  rw [Bool.eq_false_iff, ne_eq, Batch.isFinished_iff, hL.counters, hL.counters]
  omega

/-- Counter and tally grow together. -/
theorem Account.counter_increment {j : UUID} {result : BatchResult} (hC : Consistent tr s)
    (hL : Account B tr s r b) (hr : ∀ j, s.db.InBatch B j → a.upsets s j = false)
    (hacc : a.rejected cfg s = false) (hj : s.db.InBatch B j)
    (hi : a.increments s result j = true) (h : step cfg s a = some s') (now : Timestamp)
    (other : BatchResult) :
    (b.progress result now).counter other = tally (tr ++ [(s, a)]) s'.db B other := by
  rw [Batch.progress_counter, hL.counters]
  split
  · rename_i heq
    subst heq
    exact (tally_succ hC hL.tracked hr hacc hj hi h).symm
  · rename_i hne
    refine (tally_same hC hL.tracked hr hacc (fun i _ => ?_) h).symm
    by_contra hi'
    -- one step increments one of the two counters
    exact hne (increments_inj hi (by simpa using hi')).1

/-- When as many jobs are counted as the batch has, all of them have ended. -/
theorem Tracked.allEnded {total : Nat} (hT : Tracked B tr s)
    (htotal : total ≤ tally tr s.db B .completed + tally tr s.db B .failed)
    (hroom : s.db.batchSize B ≤ total) : AllEnded B total s := by
  have hle := hT.sum_le
  refine ⟨by omega, fun i hin => ?_⟩
  obtain ⟨result, hc⟩ := hT.all_counted (by omega) hin
  exact ⟨result.status, hc.1, result.status_terminal⟩

/-- Whether all jobs have ended depends on the jobs alone. -/
theorem AllEnded.congr {total : Nat} (h : AllEnded B total s') (hjobs : s'.db.jobs = s.db.jobs) :
    AllEnded B total s := by
  obtain ⟨hinserted, hended⟩ := h
  unfold Db.batchSize at hinserted
  unfold Db.InBatch Db.statusOf at hended
  rw [hjobs] at hinserted hended
  exact ⟨hinserted, hended⟩

/-- The row after an increment. -/
theorem account_increment {l : Nat} {env : Env} {e : Exec} {result : BatchResult}
    (hC : Consistent tr s) (hL : Account B tr s r b) (hR' : Roster B s' r' b.totalJobs)
    (hr : ∀ j, s.db.InBatch B j → (Action.run l env).upsets s j = false)
    (hacc : (Action.run l env).rejected cfg s = false) (hl : s.proc l = some (.exec e))
    (hpc : e.pc = .batchProgress result) (hj : s.db.InBatch B e.jobId)
    (h : step cfg s (.run l env) = some s') :
    Account B (tr ++ [(s, .run l env)]) s' r' (b.progress result env.now) := by
  have hi : (Action.run l env).increments s result e.jobId = true :=
    increments_iff.mpr ⟨l, env, e, rfl, hl, hpc, rfl⟩
  have hopen := hL.not_finished hj hi
  have hcount := hL.counter_increment hC hr hacc hj hi h
  have hb : e.job.batchId = some B := hC.defined.batchId hl hj
  have hdb := (exec_accepted h hl hacc).1
  refine ⟨?_, ?_, ?_, tracked_step hC hL.tracked hr hacc h, hcount _, ?_⟩
  · rw [hdb]
    simp [Exec.effect, hpc, hb, hL.row]
  · rw [Batch.progress_total]; exact hL.positive
  · rw [Batch.progress_total]; exact hR'
  -- the row was open before, so this is the first entry if it is finished now
  · rw [entries_snoc, hL.entered, hopen, finalises_of_progress hL.row hl hpc hb env]
    simp

/-- **An increment.**  The counter and the tally grow together; the branch is
entered exactly when the row has become finished. -/
theorem ledger_increment {j : UUID} {result : BatchResult} (hC : Consistent tr s)
    (hL : Ledger B tr s r b) (hR' : Roster B s' r' b.totalJobs)
    (hr : ∀ j, s.db.InBatch B j → a.upsets s j = false) (hacc : a.rejected cfg s = false)
    (hj : s.db.InBatch B j) (hi : a.increments s result j = true) (h : step cfg s a = some s') :
    ∃ b', Ledger B (tr ++ [(s, a)]) s' r' b' := by
  have hopen := hL.account.not_finished hj hi
  have hcount := hL.account.counter_increment hC hr hacc hj hi h
  have hunwritten : statusWritten (tr ++ [(s, a)]) B = false := by
    rw [statusWritten_snoc, not_writesStatus_of_increments hi, Bool.or_false, Bool.eq_false_iff]
    intro hw
    rw [(hL.status hw).1] at hopen
    cases hopen
  obtain ⟨l, env, e, rfl, hl, hpc, rfl⟩ := increments_iff.mp hi
  have hb : e.job.batchId = some B := hC.defined.batchId hl hj
  have hA := account_increment hC hL.account hR' hr hacc hl hpc hj h
  obtain ⟨hdb, he'⟩ := exec_accepted h hl hacc
  have hjobs : s'.db.jobs = s.db.jobs := by rw [hdb]; simp [Exec.effect, hpc, Db.updateBatch]
  have hfinal := finalises_of_progress hL.row hl hpc hb env
  refine ⟨b.progress result env.now, hA.row, hA.positive, hA.roster, hA.tracked, hA.counters,
    hA.entered, ?_, ?_, ?_, ?_⟩
  · intro p hp hf
    rw [Batch.progress_total]
    rcases List.mem_append.mp hp with hp | hp
    · exact hL.complete p hp hf
    · -- this increment: the counters it returns cover all jobs
      obtain rfl := List.mem_singleton.mp hp
      rw [hfinal, Batch.isFinished_iff, Batch.progress_total, hcount, hcount] at hf
      have hroom := hR'.room
      exact (hA.tracked.allEnded hf (by omega)).congr hjobs
  · intro k f res batch hk hfpc hfb
    cases exec_origin h hk with
    | idle hk₀ _ =>
        -- no run stood before the status write of an unfinished row
        rw [(hL.writer k f res batch hk₀ hfpc hfb).1] at hopen
        cases hopen
    | committed _ _ _ _ _ _ _ _ he => subst he; cases hfpc
    | stepped env' f₀ ha hk₀ hs =>
        cases ha
        rw [he'] at hk
        cases hk
        obtain ⟨hpc₀, hprog, hfin⟩ := Exec.next_batchStatus hfpc
        rw [hpc] at hpc₀
        cases hpc₀
        simp only [Exec.progressed, hb, Option.bind_some, hL.row, Option.map_some,
          Option.some.injEq] at hprog
        subst hprog
        exact ⟨hfin, rfl⟩
  · intro hfin
    -- the run that has just finished the row stands before the status write
    refine .inr ⟨l, _, result, b.progress result env.now, he', ?_,
      (Exec.next_params env e s.db).2.1 ▸ hb⟩
    simp [Exec.next, hpc, Exec.goto, Exec.afterProgress, Exec.progressed, hb, hL.row, hfin]
  · intro hw
    rw [hunwritten] at hw
    cases hw

/-! ## §4. The other steps. -/

/-- A step that is no increment keeps the counters. -/
theorem batch_counters_kept (hC : Consistent tr s) (hrow : s.db.batches.lookup B = some b)
    (hno : ∀ j result, s.db.InBatch B j → a.increments s result j = false)
    (h : step cfg s a = some s') :
    ∃ b', s'.db.batches.lookup B = some b' ∧ b'.totalJobs = b.totalJobs ∧
      b'.completedJobs = b.completedJobs ∧ b'.failedJobs = b.failedJobs := by
  rcases step_batch h B with heq | ⟨l, env, p, rfl, hl, hch⟩
  · exact ⟨b, heq.trans hrow, rfl, rfl, rfl⟩
  · rw [hrow] at hch
    generalize s'.db.batches.lookup B = new at hch
    cases hch with
    | same => exact ⟨b, rfl, rfl, rfl, rfl⟩
    | progressed e result _ hpc hb =>
        have hi := increments_iff.mpr ⟨l, env, e, rfl, hl, hpc, rfl⟩
        rw [hno e.jobId result (hC.defined.inBatch hl hb)] at hi
        cases hi
    | finalised | cancelled => exact ⟨_, rfl, rfl, rfl, rfl⟩

/-- Without an increment nobody enters the finalisation branch. -/
theorem not_finalises_of_no_increment (hC : Consistent tr s)
    (hno : ∀ j result, s.db.InBatch B j → a.increments s result j = false) :
    a.finalises s B = false := by
  rw [Bool.eq_false_iff, ne_eq, finalises_iff]
  rintro ⟨l, env, e, result, _, ha, hl, hpc, hb, _⟩
  have hi := increments_iff.mpr ⟨l, env, e, ha, hl, hpc, rfl⟩
  rw [hno e.jobId result (hC.defined.inBatch hl hb)] at hi
  cases hi

/-- The account after a step that is no increment. -/
theorem account_other {b' : Batch} (hC : Consistent tr s) (hL : Account B tr s r b)
    (hR' : Roster B s' r' b.totalJobs)
    (hr : ∀ j, s.db.InBatch B j → a.upsets s j = false) (hacc : a.rejected cfg s = false)
    (hno : ∀ j result, s.db.InBatch B j → a.increments s result j = false)
    (hrow : s'.db.batches.lookup B = some b') (htotal : b'.totalJobs = b.totalJobs)
    (hcompleted : b'.completedJobs = b.completedJobs) (hfailed : b'.failedJobs = b.failedJobs)
    (h : step cfg s a = some s') : Account B (tr ++ [(s, a)]) s' r' b' := by
  refine ⟨hrow, htotal ▸ hL.positive, htotal ▸ hR', tracked_step hC hL.tracked hr hacc h, ?_, ?_⟩
  · intro result
    rw [tally_same hC hL.tracked hr hacc (fun j hj => hno j result hj) h, ← hL.counters]
    cases result
    · exact hcompleted
    · exact hfailed
  · have hfin : b'.isFinished = b.isFinished := by
      simp only [Batch.isFinished, htotal, hcompleted, hfailed]
    rw [entries_snoc, hL.entered, hfin, not_finalises_of_no_increment hC hno]
    simp

/-- A step that is no increment changes at most the status of the row, and that
by the status write of a run of the batch. -/
theorem batch_row_kept (hC : Consistent tr s) (hL : Ledger B tr s r b)
    (hacc : a.rejected cfg s = false) (hcancel : a.cancelsBatch s B = false)
    (hno : ∀ j result, s.db.InBatch B j → a.increments s result j = false)
    (h : step cfg s a = some s') :
    ∃ b', s'.db.batches.lookup B = some b' ∧ b'.totalJobs = b.totalJobs ∧
      b'.completedJobs = b.completedJobs ∧ b'.failedJobs = b.failedJobs ∧
      (a.writesStatus s B = true → b'.status = finalStatus b) ∧
      (a.writesStatus s B = false → b'.status = b.status) := by
  by_cases hw : a.writesStatus s B = true
  · -- the row the run has read counts the same failed jobs as the row it writes
    obtain ⟨l, env, e, result, batch, rfl, hl, hpc, hb⟩ := writesStatus_iff.mp hw
    have hsame := (hL.writer l e result batch hl hpc hb).2
    have hdb := (exec_accepted h hl hacc).1
    refine ⟨{ b with status := finalStatus batch, updatedAt := env.now }, ?_, rfl, rfl, rfl,
      fun _ => ?_, fun hne => ?_⟩
    · rw [hdb]
      simp [Exec.effect, hpc, hb, hL.row]
    · simp only [finalStatus, hsame]
    · rw [hw] at hne
      cases hne
  · have hkeep : s'.db.batches.lookup B = some b := by
      rcases step_batch h B with heq | ⟨l, env, p, rfl, hl, hch⟩
      · exact heq.trans hL.row
      · rw [hL.row] at hch
        generalize s'.db.batches.lookup B = new at hch
        cases hch with
        | same => rfl
        | progressed e result _ hpc hb =>
            have hi := increments_iff.mpr ⟨l, env, e, rfl, hl, hpc, rfl⟩
            rw [hno e.jobId result (hC.defined.inBatch hl hb)] at hi
            cases hi
        | finalised e result batch _ hpc hb =>
            exact absurd (writesStatus_iff.mpr ⟨l, env, e, result, batch, rfl, hl, hpc, hb⟩) hw
        | cancelled c _ hpc hb hok => simp [Action.cancelsBatch, hl, hpc, hb, hok] at hcancel
    exact ⟨b, hkeep, rfl, rfl, rfl, fun hw' => absurd hw' hw, fun _ => rfl⟩

/-- A step that increments nothing of the batch keeps its ledger. -/
theorem ledger_other (hC : Consistent tr s) (hL : Ledger B tr s r b)
    (hR' : Roster B s' r' b.totalJobs)
    (hr : ∀ j, s.db.InBatch B j → a.upsets s j = false) (hacc : a.rejected cfg s = false)
    (hcancel : a.cancelsBatch s B = false)
    (hno : ∀ j result, s.db.InBatch B j → a.increments s result j = false)
    (h : step cfg s a = some s') : ∃ b', Ledger B (tr ++ [(s, a)]) s' r' b' := by
  obtain ⟨b', hrow, htotal, hcompleted, hfailed, hwrite, hkeep⟩ :=
    batch_row_kept hC hL hacc hcancel hno h
  have hA := account_other hC hL.account hR' hr hacc hno hrow htotal hcompleted hfailed h
  have hfin : b'.isFinished = b.isFinished := by
    simp only [Batch.isFinished, htotal, hcompleted, hfailed]
  have hfinal : finalStatus b' = finalStatus b := by simp only [finalStatus, hfailed]
  refine ⟨b', hA.row, hA.positive, hA.roster, hA.tracked, hA.counters, hA.entered,
    ?_, ?_, ?_, ?_⟩
  · intro p hp hf
    rcases List.mem_append.mp hp with hp | hp
    · exact htotal ▸ hL.complete p hp hf
    · obtain rfl := List.mem_singleton.mp hp
      rw [not_finalises_of_no_increment hC hno] at hf
      cases hf
  · intro l f result batch hk hpc hb
    rw [hfin, hfailed]
    cases exec_origin h hk with
    | idle hk₀ _ => exact hL.writer l f result batch hk₀ hpc hb
    | committed _ _ _ _ _ _ _ _ he => subst he; cases hpc
    | stepped env f₀ ha hk₀ hs =>
        -- the branch is entered by increments only
        exfalso
        subst ha
        obtain ⟨_, _, rfl⟩ := Exec.step_accepted hk₀ hacc hs
        have hpc₀ := (Exec.next_batchStatus hpc).1
        have hb₀ : f₀.job.batchId = some B := (Exec.next_params env f₀ s.db).2.1 ▸ hb
        have hi := increments_iff.mpr ⟨l, env, f₀, rfl, hk₀, hpc₀, rfl⟩
        rw [hno f₀.jobId result (hC.defined.inBatch hk₀ hb₀)] at hi
        cases hi
  · intro hf
    rw [statusWritten_snoc]
    rcases hL.written (hfin ▸ hf) with hw | ⟨l, e, result, batch, hl, hpc, hb⟩
    · exact .inl (by rw [hw]; rfl)
    -- the run before the status write stays there or executes it
    · rcases exec_next h hl with ⟨hl', _⟩ | ⟨env, _, rfl, _, _⟩
      · exact .inr ⟨l, e, result, batch, hl', hpc, hb⟩
      · rw [writesStatus_iff.mpr ⟨l, env, e, result, batch, rfl, hl, hpc, hb⟩]
        exact .inl (by simp)
  · intro hw
    rw [statusWritten_snoc, Bool.or_eq_true] at hw
    rw [hfin, hfinal]
    cases hws : a.writesStatus s B with
    | true =>
        obtain ⟨l, _, e, result, batch, _, hl, hpc, hb⟩ := writesStatus_iff.mp hws
        exact ⟨(hL.writer l e result batch hl hpc hb).1, hwrite hws⟩
    | false =>
        obtain ⟨hf, hst⟩ := hL.status (hw.resolve_right (by rw [hws]; simp))
        exact ⟨hf, (hkeep hws).trans hst⟩

/-! ## §5. Exactly one finalisation. -/

/-- One step keeps the ledger; the increment of a job of the batch is the case that counts. -/
theorem ledger_step (hC : Consistent tr s) (hk : s.proc k = some (.submit r))
    (hb : r.batch = some (B, b₀)) (hL : Ledger B tr s r b)
    (hr : ∀ j, s.db.InBatch B j → a.upsets s j = false) (hacc : a.rejected cfg s = false)
    (hcancel : a.cancelsBatch s B = false) (h : step cfg s a = some s') :
    ∃ r' b', s'.proc k = some (.submit r') ∧ Ledger B (tr ++ [(s, a)]) s' r' b' := by
  obtain ⟨r', hk', _, hR'⟩ := roster_step hC.batches hk hb hL.roster h
  by_cases hi : ∃ j result, s.db.InBatch B j ∧ a.increments s result j = true
  · obtain ⟨j, result, hj, hi⟩ := hi
    obtain ⟨b', hL'⟩ := ledger_increment hC hL hR' hr hacc hj hi h
    exact ⟨r', b', hk', hL'⟩
  · obtain ⟨b', hL'⟩ := ledger_other hC hL hR' hr hacc hcancel
      (fun j result hj => by
        rw [Bool.eq_false_iff]
        exact fun hi' => hi ⟨j, result, hj, hi'⟩) h
    exact ⟨r', b', hk', hL'⟩

end

/-- In every run with the conditions the ledger of the batch holds, from its INSERT on. -/
theorem ledger_run {cfg : Config} {clock : Timestamp} {db : Db} {s : Sys}
    {tr : List (Sys × Action)} {B : UUID} (hfk : ∀ j C, db.InBatch C j → C ∈ db.batches)
    (hrun : SysRun cfg (Sys.atRest clock db) tr s)
    (hacc : ∀ p ∈ tr, p.2.rejected cfg p.1 = false)
    (hcancel : ∀ p ∈ tr, p.2.cancelsBatch p.1 B = false)
    (hreset : ∀ p ∈ tr, ∀ j, p.1.db.InBatch B j → p.2.upsets p.1 j = false) :
    Consistent tr s ∧ ∀ k r b₀, s.proc k = some (.submit r) → r.batch = some (B, b₀) →
      ∃ b, Ledger B tr s r b := by
  induction hrun with
  | nil => exact ⟨consistent_atRest clock db hfk, by intro k r b₀ h; simp at h⟩
  | @snoc tr s s' a _ hs ih =>
      obtain ⟨hC, hL⟩ := ih (fun p hp => hacc p (List.mem_append_left _ hp))
        (fun p hp => hcancel p (List.mem_append_left _ hp))
        (fun p hp => hreset p (List.mem_append_left _ hp))
      have hlast : (s, a) ∈ tr ++ [(s, a)] := List.mem_append_right _ List.mem_cons_self
      refine ⟨consistent_step hC hs, ?_⟩
      intro k r' b₀ hk hb
      rcases batch_origin hs hk hb with ⟨r, hk₀, hb₀⟩ | ⟨env, r, _, hk₀, hpc, hfresh, rfl, hdb, ht⟩
      · obtain ⟨b, hLb⟩ := hL k r b₀ hk₀ hb₀
        obtain ⟨q, b', hq, hLq⟩ := ledger_step hC hk₀ hb₀ hLb (hreset (s, a) hlast)
          (hacc (s, a) hlast) (hcancel (s, a) hlast) hs
        rw [hk] at hq
        cases hq
        exact ⟨b', hLq⟩
      · exact ⟨_, ledger_created hC hk₀ hpc hfresh hdb ht hs⟩

/-- **Batch completion is detected exactly once.**  In every run of the whole
system that rejects no statement of `executeJob`, cancels batch `B` nowhere and
resets none of its jobs, for the batch `B` of any request:
`completed_jobs` and `failed_jobs` count the jobs that ended so and whose
increment has been executed; at most one increment enters the finalisation
branch, at a time when all jobs are inserted and ended; once the request has
answered 201, every job has ended and every run has returned, exactly one has
entered it and the status is written; and a written status is `failed` exactly
when a job was dead-lettered. -/
theorem batch_completion_once {cfg : Config} {clock : Timestamp} {db : Db} {s : Sys}
    {tr : List (Sys × Action)} {k : Nat} {r : Submit} {B : UUID} {b₀ : Batch}
    (hfk : ∀ j C, db.InBatch C j → C ∈ db.batches)
    (hrun : SysRun cfg (Sys.atRest clock db) tr s)
    (hacc : ∀ p ∈ tr, p.2.rejected cfg p.1 = false)
    (hcancel : ∀ p ∈ tr, p.2.cancelsBatch p.1 B = false)
    (hreset : ∀ p ∈ tr, ∀ j, p.1.db.InBatch B j → p.2.resets p.1 j = false)
    (hk : s.proc k = some (.submit r)) (hb : r.batch = some (B, b₀)) :
    ∃ b, s.db.batches.lookup B = some b ∧
      (b.completedJobs = tally tr s.db B .completed ∧ b.failedJobs = tally tr s.db B .failed) ∧
      entries tr B ≤ 1 ∧
      (∀ p ∈ tr, p.2.finalises p.1 B = true → AllEnded B b.totalJobs p.1) ∧
      (r.pc = .replied (.success 201) →
        (∀ j, s.db.InBatch B j → ∃ st, s.db.statusOf j = some st ∧ st.terminal = true) →
        (∀ l e, s.proc l = some (.exec e) → s.db.InBatch B e.jobId → e.pc = .returned) →
        entries tr B = 1 ∧ statusWritten tr B = true) ∧
      (statusWritten tr B = true → (b.status = .completed ∨ b.status = .failed) ∧
        (b.status = .failed ↔ ∃ j, s.db.InBatch B j ∧ s.db.statusOf j = some .deadLetter)) := by
  obtain ⟨hC, hall⟩ := ledger_run hfk hrun hacc hcancel
    (fun p hp j hj => Action.not_upsets (hreset p hp j hj))
  obtain ⟨b, hL⟩ := hall k r b₀ hk hb
  refine ⟨b, hL.row, ⟨hL.counters .completed, hL.counters .failed⟩, ?_, hL.complete, ?_, ?_⟩
  · rw [hL.entered]
    split <;> omega
  · intro hpc hended hret
    have hcounted : ∀ j, s.db.InBatch B j → ∃ result, Counted s result j := by
      intro j hj
      -- every run has returned, so no increment is owed
      obtain ⟨st, hst, hterm⟩ := hended j hj
      obtain ⟨result, rfl⟩ := JobStatus.terminal_result hterm
      refine ⟨result, hst, fun l e hl hej ho => ?_⟩
      rw [hret l e hl (hej ▸ hj)] at ho
      cases ho
    have hfin : b.isFinished = true := by
      have hfull := hL.roster.full (by rw [hpc]; simp)
      have htodo : r.todo = [] := by simp [Submit.todo, hpc]
      rw [Batch.isFinished_iff, hL.counters, hL.counters, hL.tracked.sum_eq hcounted]
      simpa [htodo] using hfull
    refine ⟨by rw [hL.entered, hfin]; rfl, ?_⟩
    rcases hL.written hfin with hw | ⟨l, e, result, batch, hl, hpc', hb'⟩
    · exact hw
    · rw [hret l e hl (hC.defined.inBatch hl hb')] at hpc'
      cases hpc'
  · intro hw
    obtain ⟨hfin, hst⟩ := hL.status hw
    have hpos : 0 < b.failedJobs ↔ ∃ j, s.db.InBatch B j ∧ Counted s .failed j := by
      rw [← hL.tracked.tally_pos, ← hL.counters .failed]
      rfl
    have hdead : (∃ j, s.db.InBatch B j ∧ Counted s .failed j) ↔
        ∃ j, s.db.InBatch B j ∧ s.db.statusOf j = some .deadLetter := by
      constructor
      · rintro ⟨j, hj, hc⟩
        exact ⟨j, hj, hc.1⟩
      · rintro ⟨j, hj, hdl⟩
        have hroom := hL.roster.room
        rw [Batch.isFinished_iff, hL.counters, hL.counters] at hfin
        -- the counters are full: the dead job is counted, and as a failure
        obtain ⟨result, hc⟩ := hL.tracked.all_counted (by omega) hj
        cases result with
        | failed => exact ⟨j, hj, hc⟩
        | completed => exact absurd (hdl.symm.trans hc.1) (by simp [BatchResult.status])
    rw [hst, ← hdead, ← hpos]
    unfold finalStatus
    split <;> simp_all

/-- Request 0 submits the batch 9 with jobs 7 and 8. -/
def submitBatchActions (maxAttempts : Nat) (hpos : 1 ≤ maxAttempts) : List Action :=
  .start 0 (.submit 1 1 (.smallBatch maxAttempts hpos)) :: Action.runs 0 { now := 0, fresh := 9 } 3
    ++ [.run 0 { now := 0, fresh := 7 }, .run 0 { now := 0, fresh := 8 }]
    ++ Action.runs 0 { now := 0 } 2

/-- Job 7 completes, job 8 is dead-lettered, and both runs stand before their
increment before either executes it. -/
def lastTogetherActions : List Action :=
  submitBatchActions 1 (by decide)
    ++ .start 1 (.claim 5 none none) :: Action.runs 1 { now := 0, pick := some 7, fresh := 100 } 18
    ++ .start 2 (.claim 6 none none)
      :: Action.runs 2 { now := 0, pick := some 8, fresh := 101, handler := .error "" } 21
    ++ Action.runs 1 { now := 0 } 2 ++ Action.runs 2 { now := 0 } 5

/-- One of the two increments enters the finalisation branch. -/
theorem batch_completion_once_together :
    entries (trace (step Config.small) (Sys.atRest 0 (Db.small 2 [])) lastTogetherActions) 9 = 1 := by
  have hrun := run_of_play (step Config.small) (Sys.atRest 0 (Db.small 2 []))
    lastTogetherActions (by rfl)
  have hended := (Table.all_iff (fun _ row => row.status.terminal)
    (play (step Config.small) (Sys.atRest 0 (Db.small 2 [])) lastTogetherActions).db.jobs).mp
    (by decide)
  obtain ⟨b, _, _, _, _, hone, _⟩ := batch_completion_once (k := 0) (B := 9)
    (by intro j C h; obtain ⟨row, hrow, _⟩ := h; cases hrow) hrun (by decide) (by decide)
    (fun p hp j _ => not_resets_run (manualFree_atRest 0 _) hrun (by decide) p hp j) rfl rfl
  refine (hone rfl ?_ (fun _ _ hl _ => returned_of_settled (by decide) hl)).1
  rintro j ⟨row, hrow, _⟩
  exact ⟨row.status, by simp [Db.statusOf, hrow], hended j row hrow⟩

end JobScheduler
