/-
  JobScheduler.Batch.Ledger
  ─────────────────────────
  The counters of a batch against its jobs.  While the creating request is still
  inserting, the jobs of the batch and the items left add up to `total_jobs`;
  each counter is the number of jobs whose increment has been executed.  Both
  are counts over the `jobs` table, so a step changes them job by job.
-/
import JobScheduler.Batch.Increments

namespace JobScheduler

open Relational Transition

/-! ## §1. Jobs of a batch and items left. -/

/-- `SELECT COUNT(*) FROM jobs WHERE batch_id = B`. -/
def Db.batchSize (db : Db) (B : UUID) : Nat :=
  db.jobs.count (fun _ row => decide (row.batchId = some B))

theorem mem_batchSize {db : Db} {B j : UUID} :
    j ∈ Table.keysWhere (fun _ row => decide (row.batchId = some B)) db.jobs ↔ db.InBatch B j := by
  rw [Table.mem_keysWhere]
  simp [Db.InBatch]

/-- The rows inserted and the items left of a request that has not failed. -/
structure Roster (B : UUID) (s : Sys) (r : Submit) (total : Nat) : Prop where
  room : s.db.batchSize B + r.todo.length ≤ total
  full : (∀ err, r.pc ≠ .replied (.failure err)) → total ≤ s.db.batchSize B + r.todo.length

section
variable {cfg : Config} {s s' : Sys} {a : Action} {B : UUID} {k : Nat} {r : Submit} {b : Batch}

/-- The size depends only on which jobs name the batch. -/
theorem batchSize_congr {db db' : Db} (h : ∀ j, db'.InBatch B j ↔ db.InBatch B j) :
    db'.batchSize B = db.batchSize B :=
  Table.count_congr (fun j => by rw [mem_batchSize, mem_batchSize, h j])

/-- No job belongs to a batch that has just been inserted. -/
theorem not_inBatch_of_fresh {env : Env} (hB : Batches s) (hfresh : B ∉ s.db.batches)
    (hdb : s'.db = s.db.insertBatch B (r.batchRow env.now)) (j : UUID) : ¬ s'.db.InBatch B j := by
  rintro ⟨row, hrow, hb⟩
  rw [hdb] at hrow
  exact hfresh (hB.jobs j B ⟨row, hrow, hb⟩)

/-- All items are left when the batch has just been inserted. -/
theorem roster_created {env : Env} {r' : Submit} (hB : Batches s) (hfresh : B ∉ s.db.batches)
    (hdb : s'.db = s.db.insertBatch B (r.batchRow env.now))
    (ht : r'.todo = r.body.batchJobs.map (r.body.batchItem B)) :
    Roster B s' r' (r.batchRow env.now).totalJobs := by
  have hsize : s'.db.batchSize B = 0 := by
    unfold Db.batchSize Table.count
    rw [Finset.card_eq_zero, Finset.eq_empty_iff_forall_notMem]
    exact fun j hj => not_inBatch_of_fresh hB hfresh hdb j (mem_batchSize.mp hj)
  have hlen : r'.todo.length = (r.batchRow env.now).totalJobs := by
    rw [ht, List.length_map]
    rfl
  refine ⟨?_, fun _ => ?_⟩ <;> omega

/-- Nobody but the creating request adds jobs to its batch. -/
theorem batchSize_idle (hB : Batches s) (hk : s.proc k = some (.submit r))
    (hb : r.batch = some (B, b)) (hne : ∀ env, a ≠ .run k env) (h : step cfg s a = some s') :
    s'.db.batchSize B = s.db.batchSize B := by
  refine batchSize_congr (fun j => ⟨fun hj => ?_, inBatch_stays h⟩)
  rcases inBatch_origin hB h hj with hold | ⟨_, l, env, q, _, _, c, rfl, hl, _, hc⟩
  · exact hold
  -- two requests do not share a batch id
  · obtain rfl := hB.unique k l r q B b c hk hl hb hc
    exact absurd rfl (hne env)

/-- The jobs inserted and still to insert stay the jobs of the batch. -/
theorem roster_step {total : Nat} (hB : Batches s) (hk : s.proc k = some (.submit r))
    (hb : r.batch = some (B, b)) (hR : Roster B s r total) (h : step cfg s a = some s') :
    ∃ r', s'.proc k = some (.submit r') ∧ r'.batch = r.batch ∧ Roster B s' r' total := by
  rcases submit_next h hk with ⟨hk', hne⟩ | ⟨env, r', rfl, hk', hs⟩
  · refine ⟨r, hk', rfl, ?_⟩
    have hsize := batchSize_idle hB hk hb hne h
    exact ⟨hsize ▸ hR.room, hsize ▸ hR.full⟩
  · refine ⟨r', hk', ?_⟩
    have hsame : s'.db.jobs = s.db.jobs → s'.db.batchSize B = s.db.batchSize B := by
      intro hjobs
      unfold Db.batchSize
      rw [hjobs]
    cases hs.moved with
    | kept hb' ht hjobs hpc =>
        refine ⟨hb', ?_, fun _ => ?_⟩
        · rw [hsame hjobs, ht]; exact hR.room
        · rw [hsame hjobs, ht]; exact hR.full (fun err => hpc _)
    | failed err hb' ht hpc hjobs =>
        refine ⟨hb', ?_, fun hno => absurd hpc (hno err)⟩
        rw [hsame hjobs, ht]
        have := hR.room
        simp only [List.length_nil]
        omega
    -- before the INSERT of the batch the request has no batch
    | dispatched hpc hb' _ _ =>
        rw [hB.early k r hk (by rw [hpc]; rfl)] at hb
        cases hb
    | created hpc _ _ _ _ =>
        rw [hB.early k r hk (by rw [hpc]; rfl)] at hb
        cases hb
    -- one job more in the table, one item less to insert
    | inserted item ht hb' hfresh hdb =>
        have hitem : item.batchId = some B := by
          rw [hB.items k r item hk (by rw [ht]; exact List.mem_cons_self), hb]
          rfl
        have hsize : s'.db.batchSize B = s.db.batchSize B + 1 := by
          rw [hdb]
          refine Table.count_eq_succ env.fresh ?_ ?_ (fun j hj => ?_)
          · exact mem_batchSize.mpr ⟨r.row env.now item, by simp, hitem⟩
          · rw [mem_batchSize]
            rintro ⟨row, hrow, _⟩
            exact hfresh (AList.lookup_isSome.mp (by simp [hrow]))
          · simp [mem_batchSize, Db.InBatch, hj]
        have hlen : r.todo.length = r'.todo.length + 1 := by rw [ht]; rfl
        refine ⟨hb', ?_, fun _ => ?_⟩
        · have := hR.room
          omega
        · have := hR.full (fun err hpc => by simp [Submit.todo, hpc] at ht)
          omega

end

/-! ## §2. Recorded increments. -/

/-- The action is the increment that takes its run into the finalisation branch
of batch `B`. -/
def Action.finalises (s : Sys) (B : UUID) (a : Action) : Bool :=
  a.ofExec s (fun env e => match e.pc with
    | .batchProgress result =>
        decide (e.job.batchId = some B) && (e.progressed env s.db result).any Batch.isFinished
    | _ => false)

/-- The action is the status write of the finalisation branch of batch `B`. -/
def Action.writesStatus (s : Sys) (B : UUID) (a : Action) : Bool :=
  a.ofExec s (fun _ e => match e.pc with
    | .batchStatus _ _ => decide (e.job.batchId = some B)
    | _ => false)

theorem finalises_iff {s : Sys} {B : UUID} {a : Action} :
    a.finalises s B = true ↔
      ∃ k env e result b, a = .run k env ∧ s.proc k = some (.exec e) ∧ e.pc = .batchProgress result ∧
        e.job.batchId = some B ∧ s.db.batches.lookup B = some b ∧
        (b.progress result env.now).isFinished = true := by
  unfold Action.finalises
  rw [ofExec_iff]
  constructor
  · rintro ⟨k, env, e, ha, hk, hf⟩
    split at hf
    · rename_i result hpc
      obtain ⟨hb, hfin⟩ := Bool.and_eq_true_iff.mp hf
      have hB : e.job.batchId = some B := of_decide_eq_true hb
      obtain ⟨batch, hp, hfin⟩ := (Option.any_eq_true _ _).mp hfin
      unfold Exec.progressed at hp
      rw [hB, Option.bind_some] at hp
      obtain ⟨b, hlook, rfl⟩ := Option.map_eq_some_iff.mp hp
      exact ⟨k, env, e, result, b, ha, hk, hpc, hB, hlook, hfin⟩
    · cases hf
  · rintro ⟨k, env, e, result, b, ha, hk, hpc, hB, hlook, hfin⟩
    refine ⟨k, env, e, ha, hk, ?_⟩
    simp [hpc, hB, Exec.progressed, hlook, hfin]

theorem writesStatus_iff {s : Sys} {B : UUID} {a : Action} :
    a.writesStatus s B = true ↔
      ∃ k env e result batch, a = .run k env ∧ s.proc k = some (.exec e) ∧
        e.pc = .batchStatus result batch ∧ e.job.batchId = some B := by
  unfold Action.writesStatus
  rw [ofExec_iff]
  constructor
  · rintro ⟨k, env, e, ha, hk, hf⟩
    split at hf
    · rename_i result batch hpc
      exact ⟨k, env, e, result, batch, ha, hk, hpc, of_decide_eq_true hf⟩
    · cases hf
  · rintro ⟨k, env, e, result, batch, ha, hk, hpc, hB⟩
    exact ⟨k, env, e, ha, hk, by simp [hpc, hB]⟩

/-- A run of `j` has executed its increment. -/
def incremented (tr : List (Sys × Action)) (result : BatchResult) (j : UUID) : Bool :=
  tr.any (fun p => p.2.increments p.1 result j)

theorem incremented_snoc (tr : List (Sys × Action)) (s : Sys) (a : Action) (result : BatchResult)
    (j : UUID) :
    incremented (tr ++ [(s, a)]) result j = (incremented tr result j || a.increments s result j) := by
  simp [incremented]

/-- The run of `e` belongs to the batch of the job it executes. -/
theorem Defined.inBatch {s : Sys} {k : Nat} {e : Exec} {B : UUID} (hD : Defined s)
    (hk : s.proc k = some (.exec e)) (hb : e.job.batchId = some B) : s.db.InBatch B e.jobId := by
  obtain ⟨row, hrow, hdef⟩ := hD k e hk
  exact ⟨row, hrow, hdef.batchId.trans hb⟩

/-- A call knows the batch of its job. -/
theorem Defined.batchId {s : Sys} {k : Nat} {e : Exec} {B : UUID} (hD : Defined s)
    (hk : s.proc k = some (.exec e)) (hb : s.db.InBatch B e.jobId) : e.job.batchId = some B := by
  obtain ⟨row, hrow, hdef⟩ := hD k e hk
  obtain ⟨row', hrow', hb⟩ := hb
  rw [hrow] at hrow'
  cases hrow'
  exact hdef.batchId.symm.trans hb

/-- What every run from rest keeps. -/
structure Grounded (s : Sys) : Prop where
  pending : Pending s
  defined : Defined s
  inserts : InsertsPending s
  batches : Batches s

/-- A database whose jobs name existing batches grounds the initial state. -/
theorem grounded_atRest (clock : Timestamp) (db : Db)
    (hfk : ∀ j B, db.InBatch B j → B ∈ db.batches) : Grounded (Sys.atRest clock db) where
  pending := pending_atRest clock db
  defined := defined_atRest clock db
  inserts := insertsPending_atRest clock db
  batches := batches_atRest clock db hfk

/-- Each part of the ground is kept by its own step lemma. -/
theorem grounded_step {cfg : Config} {s s' : Sys} {a : Action} (hG : Grounded s)
    (h : step cfg s a = some s') : Grounded s' where
  pending := pending_step hG.pending h
  defined := defined_step hG.pending hG.defined h
  inserts := insertsPending_step hG.inserts h
  batches := batches_step hG.batches h

/-- The recorded steps agree with the state they lead to. -/
structure Consistent (tr : List (Sys × Action)) (s : Sys) : Prop extends Grounded s where
  /-- Jobs are counted after they are inserted. -/
  past : ∀ j result, incremented tr result j = true → j ∈ s.db.jobs
  /-- Batches are finalised after they are inserted. -/
  absent : ∀ B, B ∉ s.db.batches →
    ∀ p ∈ tr, p.2.finalises p.1 B = false ∧ p.2.writesStatus p.1 B = false

theorem consistent_atRest (clock : Timestamp) (db : Db)
    (hfk : ∀ j B, db.InBatch B j → B ∈ db.batches) : Consistent [] (Sys.atRest clock db) where
  toGrounded := grounded_atRest clock db hfk
  past := by intro j result h; cases h
  absent := by intro B _ p hp; cases hp

section
variable {cfg : Config} {s s' : Sys} {a : Action} {tr : List (Sys × Action)} {B j : UUID}
  {result : BatchResult}

/-- Of a batch that does not exist yet no call finalises anything. -/
theorem Consistent.absent_snoc (hC : Consistent tr s) (hB : B ∉ s.db.batches) :
    ∀ p ∈ tr ++ [(s, a)], p.2.finalises p.1 B = false ∧ p.2.writesStatus p.1 B = false := by
  intro p hp
  rcases List.mem_append.mp hp with hp | hp
  · exact hC.absent B hB p hp
  · obtain rfl := List.mem_singleton.mp hp
    refine ⟨?_, ?_⟩
    -- an increment finds the row of the batch
    · by_contra hf
      obtain ⟨_, _, _, _, b, _, _, _, _, hlook, _⟩ := finalises_iff.mp (by simpa using hf)
      exact hB (AList.lookup_isSome.mp (by simp [hlook]))
    -- a status write is by a run of a job of the batch
    · by_contra hw
      obtain ⟨k, _, e, _, _, _, hk, _, hb⟩ := writesStatus_iff.mp (by simpa using hw)
      exact hB (hC.batches.jobs _ B (hC.defined.inBatch hk hb))

theorem consistent_step (hC : Consistent tr s) (h : step cfg s a = some s') :
    Consistent (tr ++ [(s, a)]) s' where
  toGrounded := grounded_step hC.toGrounded h
  past := by
    intro j result hi
    rw [incremented_snoc, Bool.or_eq_true] at hi
    rcases hi with hi | hi
    · exact mem_jobs_stays h (hC.past j result hi)
    · obtain ⟨k, _, e, _, hk, _, rfl⟩ := increments_iff.mp hi
      obtain ⟨row, hrow, _⟩ := hC.defined k e hk
      exact mem_jobs_stays h (AList.lookup_isSome.mp (by simp [hrow]))
  absent := fun _ hB => hC.absent_snoc (fun hin => hB (mem_batches_stays h hin))

/-! ## §3. Counters. -/

/-- The jobs of batch `B` that ended with `result` and whose increment has been
executed. -/
def tally (tr : List (Sys × Action)) (db : Db) (B : UUID) (result : BatchResult) : Nat :=
  db.jobs.count (fun id row => decide (row.batchId = some B) && decide (row.status = result.status)
    && incremented tr result id)

/-- The jobs of batch `B`, in a run that neither resets them nor rejects a
statement of `executeJob`. -/
structure Tracked (B : UUID) (tr : List (Sys × Action)) (s : Sys) : Prop where
  steady : ∀ j, s.db.InBatch B j → Steady j s
  counted : ∀ j result, s.db.InBatch B j → (incremented tr result j = true ↔ Counted s result j)

/-- A job that has just been inserted has no activation. -/
theorem steady_of_new (hC : Consistent tr s) (h : step cfg s a = some s')
    (hnone : s.db.jobs.lookup j = none) : Steady j s' := by
  -- every activation is for a job that was there when it was claimed
  have hno : ∀ k e', s'.proc k = some (.exec e') → e'.jobId ≠ j := by
    rintro k e' hk rfl
    cases exec_origin h hk with
    | idle hk₀ _ =>
        obtain ⟨row, hrow, _⟩ := hC.defined k e' hk₀
        rw [hnone] at hrow
        cases hrow
    | stepped env e _ hk₀ hs =>
        obtain ⟨row, hrow, _⟩ := hC.defined k e hk₀
        rw [← (Exec.step_params hs).1, hnone] at hrow
        cases hrow
    | committed env c i row _ hk₀ hpc _ he =>
        subst he
        obtain ⟨old, hold, _⟩ := hC.pending.queued k c i row hk₀ hpc
        rw [hnone] at hold
        cases hold
  exact ⟨⟨fun k e hk hj => absurd hj (hno k e hk), fun k l e f hk _ hj => absurd hj (hno k e hk)⟩,
    fun k e hk hj => absurd hj (hno k e hk)⟩

/-- **One step counts the jobs whose increment it is.** -/
theorem Tracked.counted_iff (hC : Consistent tr s) (hT : Tracked B tr s)
    (hr : ∀ j, s.db.InBatch B j → a.upsets s j = false) (hacc : a.rejected cfg s = false)
    (h : step cfg s a = some s') :
    (s'.db.InBatch B j ∧ Counted s' result j) ↔
      s.db.InBatch B j ∧ (Counted s result j ∨ a.increments s result j = true) := by
  constructor
  · rintro ⟨hj, hc⟩
    rcases inBatch_origin hC.batches h hj with hold | ⟨hnone, _⟩
    · obtain ⟨row, hrow, hb⟩ := hold
      refine ⟨⟨row, hrow, hb⟩, hc.origin (B := B) hC.defined hC.inserts hacc ?_ h⟩
      intro row' hrow'
      rw [hrow] at hrow'
      exact Option.some.inj hrow' ▸ hb
    · -- a job that has just been inserted is not counted
      exfalso
      rcases hc.origin (B := B) hC.defined hC.inserts hacc
        (by rw [hnone]; intro row hrow; cases hrow) h with hc₀ | hi
      · have := hc₀.1
        simp [Db.statusOf, hnone] at this
      · obtain ⟨k, _, e, _, hk, _, rfl⟩ := increments_iff.mp hi
        obtain ⟨row, hrow, _⟩ := hC.defined k e hk
        rw [hnone] at hrow
        cases hrow
  · rintro ⟨hj, hc | hi⟩
    · exact ⟨inBatch_stays h hj, hc.stays hC.pending (hT.steady j hj) (hr j hj) hacc h⟩
    · exact ⟨inBatch_stays h hj,
        (hT.steady j hj).increments_counts hC.pending (hr j hj) hacc hi h⟩

/-- A step without an upset and without a rejection keeps the account of the batch. -/
theorem tracked_step (hC : Consistent tr s) (hT : Tracked B tr s)
    (hr : ∀ j, s.db.InBatch B j → a.upsets s j = false) (hacc : a.rejected cfg s = false)
    (h : step cfg s a = some s') : Tracked B (tr ++ [(s, a)]) s' where
  steady j hj := by
    rcases inBatch_origin hC.batches h hj with hold | ⟨hnone, _⟩
    · exact steady_step hC.pending (hT.steady j hold)
        (Action.not_resetsLive_of_upsets (hr j hold)) hacc h
    · exact steady_of_new hC h hnone
  counted j result hj := by
    have hiff : (s'.db.InBatch B j ∧ Counted s' result j) ↔
        s.db.InBatch B j ∧ (Counted s result j ∨ a.increments s result j = true) :=
      hT.counted_iff hC hr hacc h
    rw [incremented_snoc, Bool.or_eq_true]
    rcases inBatch_origin hC.batches h hj with hold | ⟨hnone, _⟩
    · rw [hT.counted j result hold]
      exact ⟨fun hc => (hiff.mpr ⟨hold, hc⟩).2, fun hc => (hiff.mp ⟨hj, hc⟩).2⟩
    · refine ⟨?_, fun hc => ?_⟩
      · rintro (hi | hi)
        · have := AList.lookup_isSome.mpr (hC.past j result hi)
          simp [hnone] at this
        · obtain ⟨k, _, e, _, hk, _, rfl⟩ := increments_iff.mp hi
          obtain ⟨row, hrow, _⟩ := hC.defined k e hk
          rw [hnone] at hrow
          cases hrow
      · obtain ⟨row, hrow, _⟩ := (hiff.mp ⟨hj, hc⟩).1
        rw [hnone] at hrow
        cases hrow

/-- The tally of a result lists the jobs that were counted for it. -/
theorem Tracked.mem_tally (hT : Tracked B tr s) :
    j ∈ Table.keysWhere (fun id row => decide (row.batchId = some B)
        && decide (row.status = result.status) && incremented tr result id) s.db.jobs ↔
      s.db.InBatch B j ∧ Counted s result j := by
  simp only [Table.mem_keysWhere, Bool.and_eq_true, decide_eq_true_eq]
  constructor
  · rintro ⟨row, hrow, ⟨hb, _⟩, hi⟩
    exact ⟨⟨row, hrow, hb⟩, (hT.counted j result ⟨row, hrow, hb⟩).mp hi⟩
  · rintro ⟨⟨row, hrow, hb⟩, hc⟩
    have hst : row.status = result.status := by simpa [Db.statusOf, hrow] using hc.1
    exact ⟨row, hrow, ⟨hb, hst⟩, (hT.counted j result ⟨row, hrow, hb⟩).mpr hc⟩

/-- Without an increment of one of its jobs the tally of a batch stays. -/
theorem tally_same (hC : Consistent tr s) (hT : Tracked B tr s)
    (hr : ∀ j, s.db.InBatch B j → a.upsets s j = false) (hacc : a.rejected cfg s = false)
    (hno : ∀ j, s.db.InBatch B j → a.increments s result j = false)
    (h : step cfg s a = some s') :
    tally (tr ++ [(s, a)]) s'.db B result = tally tr s.db B result := by
  refine Table.count_congr (fun j => ?_)
  rw [(tracked_step hC hT hr hacc h).mem_tally, hT.mem_tally, hT.counted_iff hC hr hacc h]
  constructor
  · rintro ⟨hj, hc | hi⟩
    · exact ⟨hj, hc⟩
    · rw [hno j hj] at hi
      cases hi
  · rintro ⟨hj, hc⟩
    exact ⟨hj, .inl hc⟩

/-- An increment adds one job to the tally. -/
theorem tally_succ (hC : Consistent tr s) (hT : Tracked B tr s)
    (hr : ∀ j, s.db.InBatch B j → a.upsets s j = false) (hacc : a.rejected cfg s = false)
    (hj : s.db.InBatch B j) (hi : a.increments s result j = true)
    (h : step cfg s a = some s') :
    tally (tr ++ [(s, a)]) s'.db B result = tally tr s.db B result + 1 := by
  have hT' := tracked_step hC hT hr hacc h
  refine Table.count_eq_succ j ?_ ?_ (fun i hne => ?_)
  · rw [hT'.mem_tally, hT.counted_iff hC hr hacc h]
    exact ⟨hj, .inr hi⟩
  · rw [hT.mem_tally]
    exact fun hc => not_counted_of_increments hi hc.2
  · rw [hT'.mem_tally, hT.mem_tally, hT.counted_iff hC hr hacc h]
    constructor
    · rintro ⟨hib, hc | hi'⟩
      · exact ⟨hib, hc⟩
      -- the step is one statement of one run, so it increments for one job
      · obtain ⟨_, _, e, rfl, hk, _, rfl⟩ := increments_iff.mp hi
        obtain ⟨_, _, f, he, hk', _, rfl⟩ := increments_iff.mp hi'
        cases he
        rw [hk] at hk'
        cases hk'
        exact absurd rfl hne
    · rintro ⟨hib, hc⟩
      exact ⟨hib, .inl hc⟩

/-- The jobs of batch `B` that one of its two counters counts. -/
def settles (tr : List (Sys × Action)) (B id : UUID) (row : Job) : Bool :=
  decide (row.batchId = some B) && (decide (row.status = .completed) && incremented tr .completed id
    || decide (row.status = .deadLetter) && incremented tr .failed id)

/-- A job is tallied at most once. -/
theorem tally_add (tr : List (Sys × Action)) (db : Db) (B : UUID) :
    tally tr db B .completed + tally tr db B .failed = db.jobs.count (settles tr B) := by
  refine Table.count_add_count (fun j hp hq => ?_) (fun j => ?_)
  · simp only [Table.mem_keysWhere, Bool.and_eq_true, decide_eq_true_eq] at hp hq
    obtain ⟨row, hrow, ⟨_, hst⟩, _⟩ := hp
    obtain ⟨row', hrow', ⟨_, hst'⟩, _⟩ := hq
    rw [hrow] at hrow'
    cases hrow'
    -- completed is not dead-lettered
    rw [hst] at hst'
    cases hst'
  · simp only [settles, Table.mem_keysWhere, Bool.and_eq_true, Bool.or_eq_true, decide_eq_true_eq]
    constructor
    · rintro ⟨row, hrow, hb, ⟨hst, hi⟩ | ⟨hst, hi⟩⟩
      · exact .inl ⟨row, hrow, ⟨hb, hst⟩, hi⟩
      · exact .inr ⟨row, hrow, ⟨hb, hst⟩, hi⟩
    · rintro (⟨row, hrow, ⟨hb, hst⟩, hi⟩ | ⟨row, hrow, ⟨hb, hst⟩, hi⟩)
      · exact ⟨row, hrow, hb, .inl ⟨hst, hi⟩⟩
      · exact ⟨row, hrow, hb, .inr ⟨hst, hi⟩⟩

/-- The settled jobs are those counted for some result. -/
theorem Tracked.mem_settles (hT : Tracked B tr s) :
    j ∈ Table.keysWhere (settles tr B) s.db.jobs ↔
      s.db.InBatch B j ∧ ∃ result, Counted s result j := by
  simp only [settles, Table.mem_keysWhere, Bool.and_eq_true, Bool.or_eq_true, decide_eq_true_eq]
  constructor
  · rintro ⟨row, hrow, hb, ⟨_, hi⟩ | ⟨_, hi⟩⟩
    · exact ⟨⟨row, hrow, hb⟩, .completed, (hT.counted j _ ⟨row, hrow, hb⟩).mp hi⟩
    · exact ⟨⟨row, hrow, hb⟩, .failed, (hT.counted j _ ⟨row, hrow, hb⟩).mp hi⟩
  · rintro ⟨⟨row, hrow, hb⟩, result, hc⟩
    have hst : row.status = result.status := by simpa [Db.statusOf, hrow] using hc.1
    have hi := (hT.counted j result ⟨row, hrow, hb⟩).mpr hc
    cases result with
    | completed => exact ⟨row, hrow, hb, .inl ⟨hst, hi⟩⟩
    | failed => exact ⟨row, hrow, hb, .inr ⟨hst, hi⟩⟩

theorem Tracked.settles_sub (hT : Tracked B tr s) :
    ∀ j, j ∈ Table.keysWhere (settles tr B) s.db.jobs →
      j ∈ Table.keysWhere (fun _ row => decide (row.batchId = some B)) s.db.jobs :=
  fun _ hj => mem_batchSize.mpr (hT.mem_settles.mp hj).1

/-- The two counters never exceed the number of inserted jobs. -/
theorem Tracked.sum_le (hT : Tracked B tr s) :
    tally tr s.db B .completed + tally tr s.db B .failed ≤ s.db.batchSize B :=
  (tally_add tr s.db B).trans_le (Table.count_le_count hT.settles_sub)

/-- Before an increment there is room for it. -/
theorem Tracked.sum_lt (hT : Tracked B tr s) (hj : s.db.InBatch B j)
    (hi : a.increments s result j = true) :
    tally tr s.db B .completed + tally tr s.db B .failed < s.db.batchSize B := by
  refine (tally_add tr s.db B).trans_lt
    (Table.count_lt_count j ?_ (mem_batchSize.mpr hj) hT.settles_sub)
  intro hmem
  obtain ⟨_, result', hc⟩ := hT.mem_settles.mp hmem
  obtain ⟨k, _, e, _, hk, hpc, hej⟩ := increments_iff.mp hi
  -- a run that owes the increment has set the status
  have hst : s.db.statusOf j = some result.status :=
    (hT.steady j hj).toActivations.owed_status hk hej (by rw [hpc]; rfl)
  rw [hc.1] at hst
  obtain rfl : result' = result := by cases result' <;> cases result <;> first | rfl | cases hst
  exact not_counted_of_increments hi hc

/-- Full counters have counted every job. -/
theorem Tracked.all_counted (hT : Tracked B tr s)
    (hle : s.db.batchSize B ≤ tally tr s.db B .completed + tally tr s.db B .failed)
    (hj : s.db.InBatch B j) : ∃ result, Counted s result j := by
  rw [tally_add] at hle
  exact (hT.mem_settles.mp
    ((Table.keysWhere_eq_of_count_le hT.settles_sub hle j).mpr (mem_batchSize.mpr hj))).2

/-- The counters are full once every job is counted. -/
theorem Tracked.sum_eq (hT : Tracked B tr s)
    (hall : ∀ j, s.db.InBatch B j → ∃ result, Counted s result j) :
    tally tr s.db B .completed + tally tr s.db B .failed = s.db.batchSize B := by
  rw [tally_add]
  refine Table.count_congr (fun j => ⟨hT.settles_sub j, fun hj => ?_⟩)
  exact hT.mem_settles.mpr ⟨mem_batchSize.mp hj, hall j (mem_batchSize.mp hj)⟩

theorem Tracked.tally_pos (hT : Tracked B tr s) :
    0 < tally tr s.db B result ↔ ∃ j, s.db.InBatch B j ∧ Counted s result j := by
  unfold tally Table.count
  rw [Finset.card_pos]
  constructor
  · rintro ⟨j, hj⟩
    exact ⟨j, hT.mem_tally.mp hj⟩
  · rintro ⟨j, hj⟩
    exact ⟨j, hT.mem_tally.mpr hj⟩

end

end JobScheduler
