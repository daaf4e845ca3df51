/-
  JobScheduler.Batch.Rows
  ───────────────────────
  What one statement can do to the `batches` table, said once, and the foreign
  key from jobs to batches.  A batch row is written by the request that creates
  it, by the increment and the status write of `updateBatchProgress`, and by a
  cancellation; its jobs are inserted by the creating request alone.
-/
import JobScheduler.Workflow.Submission

namespace JobScheduler

open Relational

/-! ## §1. The changes of a batch row. -/

@[simp] theorem updateBatch_lookup (db : Db) (b : Option UUID) (f : Batch → Batch) (B : UUID) :
    (db.updateBatch b f).batches.lookup B
      = (db.batches.lookup B).map (fun a => if some B = b then f a else a) := by
  simp [Db.updateBatch, Table.lookup_update]

@[simp] theorem insertBatch_lookup (db : Db) (id : UUID) (row : Batch) (B : UUID) :
    (db.insertBatch id row).batches.lookup B = if B = id then some row else db.batches.lookup B := by
  simp [Db.insertBatch, Table.lookup_insert_ite]

/-- `BatchChange env B p old new`: the step of client `p` turns the row of batch
`B` from `old` into `new`. -/
inductive BatchChange (env : Env) (B : UUID) : Proc → Option Batch → Option Batch → Prop
  | same (p : Proc) (o : Option Batch) : BatchChange env B p o o
  | inserted (r : Submit) (hpc : r.pc = .insertBatch) (hf : env.fresh = B) :
      BatchChange env B (.submit r) none (some (r.batchRow env.now))
  | progressed (e : Exec) (result : BatchResult) (old : Batch) (hpc : e.pc = .batchProgress result)
      (hb : e.job.batchId = some B) :
      BatchChange env B (.exec e) (some old) (some (old.progress result env.now))
  | finalised (e : Exec) (result : BatchResult) (batch old : Batch)
      (hpc : e.pc = .batchStatus result batch) (hb : e.job.batchId = some B) :
      BatchChange env B (.exec e) (some old)
        (some { old with status := finalStatus batch, updatedAt := env.now })
  | cancelled (c : Cancel) (old : Batch) (hpc : c.pc = .updateBatch) (hb : c.batchId = B)
      (hok : env.fails = false) :
      BatchChange env B (.cancel c) (some old) (some (Cancel.cancelledBatch env.now old))

/-- An UPDATE of one batch leaves the rows of the others. -/
theorem batchChange_updateBatch {env : Env} {db : Db} {B : UUID} {b : Option UUID} {p : Proc}
    {f : Batch → Batch} (h : b = some B → ∀ old, BatchChange env B p (some old) (some (f old))) :
    BatchChange env B p (db.batches.lookup B) ((db.updateBatch b f).batches.lookup B) := by
  rw [updateBatch_lookup]
  cases hl : db.batches.lookup B with
  | none => exact .same p none
  | some old =>
      by_cases hb : some B = b
      · simpa [hb] using h hb.symm old
      · simpa [hb] using BatchChange.same p (some old)

section
variable {cfg : Config} {ctx : Ctx} {env : Env} {db db' : Db} {B : UUID}

/-- What a statement of `executeJob` does to one row of `batches`. -/
theorem Exec.effect_batches (env : Env) (e : Exec) (db : Db) (B : UUID) :
    BatchChange env B (.exec e) (db.batches.lookup B) ((e.effect env db).batches.lookup B) := by
  unfold Exec.effect
  cases hpc : e.pc <;> dsimp only <;> try exact .same _ _
  case batchProgress result =>
    exact batchChange_updateBatch (fun hb old => .progressed e result old hpc hb)
  case batchStatus result batch =>
    exact batchChange_updateBatch (fun hb old => .finalised e result batch old hpc hb)

/-- **Every statement of every client changes batch rows only as `BatchChange` says.** -/
theorem Proc.step_batches {p p' : Proc} (h : p.step cfg ctx env db = some (db', p')) :
    BatchChange env B p (db.batches.lookup B) (db'.batches.lookup B) := by
  cases Proc.stepped h with
  | claim c c' hq => cases Claim.stepped hq <;> exact .same _ _
  | exec e e' hq =>
      obtain ⟨_, ⟨_, rfl, _⟩ | ⟨_, rfl, _⟩⟩ := Exec.step_cases hq
      · exact .same _ _
      · exact e.effect_batches env db B
  | submit r r' hq =>
      cases Submit.stepped hq with
      | batchInserted hpc hfresh =>
          rw [insertBatch_lookup]
          by_cases hB : B = env.fresh
          · rw [if_pos hB, AList.lookup_eq_none.mpr (hB ▸ hfresh)]
            exact .inserted r hpc hB.symm
          · rw [if_neg hB]
            exact .same _ _
      | _ => exact .same _ _
  | retry r r' hq => cases Retry.stepped hq <;> exact .same _ _
  | replay r r' hq => cases Replay.stepped hq <;> exact .same _ _
  | cancel r r' hq =>
      cases Cancel.stepped hq with
      | rowUpdated hpc hok =>
          exact batchChange_updateBatch (fun hb old => .cancelled r old hpc (Option.some.inj hb) hok)
      | _ => exact .same _ _
  | patch r r' hq => cases Patch.stepped hq <;> exact .same _ _
  | tick t t' hq =>
      obtain ⟨_, ⟨_, rfl, _⟩ | ⟨_, rfl, _⟩⟩ := Tick.step_cases hq
      · exact .same _ _
      · unfold Tick.effect
        split <;> first | exact .same _ _ | (split <;> exact .same _ _)

end

/-- What an action does to the row of batch `B`: nothing, or what the statement
of the client that moves does to it. -/
theorem step_batch {cfg : Config} {s s' : Sys} {a : Action} (h : step cfg s a = some s') (B : UUID) :
    s'.db.batches.lookup B = s.db.batches.lookup B ∨
    ∃ pid env p, a = .run pid env ∧ s.proc pid = some p ∧
      BatchChange env B p (s.db.batches.lookup B) (s'.db.batches.lookup B) := by
  cases stepped h with
  | wait ms => exact .inl rfl
  | start pid request hfree => exact .inl rfl
  | run pid env p p' db' hp hnow hstep => exact .inr ⟨pid, env, p, rfl, hp, Proc.step_batches hstep⟩

/-- No statement deletes a batch. -/
theorem mem_batches_stays {cfg : Config} {s s' : Sys} {a : Action} {B : UUID}
    (h : step cfg s a = some s') (hB : B ∈ s.db.batches) : B ∈ s'.db.batches := by
  obtain ⟨old, hold⟩ := Option.isSome_iff_exists.mp (AList.lookup_isSome.mpr hB)
  apply AList.lookup_isSome.mp
  rcases step_batch h B with heq | ⟨_, _, _, _, _, hch⟩
  · rw [heq, hold]; rfl
  · rw [hold] at hch
    generalize s'.db.batches.lookup B = new at hch
    cases hch <;> rfl

/-! ## §2. The items of a request. -/

/-- The rows the request has still to insert. -/
def Submit.todo (r : Submit) : List JobItem :=
  match r.pc with
  | .insertJob item rest => item :: rest
  | .attach _ _ _ rest => rest
  | _ => []

theorem Submit.nextItem_todo (r q : Submit) (items : List JobItem) :
    (r.goto (q.nextItem items)).todo = items := by
  cases items <;> rfl

theorem Submit.nextEdge_todo (r q : Submit) (j : UUID) (ds : List UUID) (items : List JobItem) :
    (r.goto (q.nextEdge j ds items)).todo = items := by
  cases ds with
  | nil => exact Submit.nextItem_todo r q items
  | cons d ds => rfl

/-- How a statement of a request moves its batch and its items. -/
inductive Submit.Moved (env : Env) (r : Submit) (db db' : Db) (r' : Submit) : Prop
  /-- Nothing is inserted into `jobs`. -/
  | kept (hb : r'.batch = r.batch) (ht : r'.todo = r.todo) (hjobs : db'.jobs = db.jobs)
      (hpc : ∀ reply, r.pc ≠ .replied reply)
  | failed (err : AppError) (hb : r'.batch = r.batch) (ht : r'.todo = [])
      (hpc : r'.pc = .replied (.failure err)) (hjobs : db'.jobs = db.jobs)
  | dispatched (hpc : r.pc = .checkDependencies) (hb : r'.batch = r.batch)
      (ht : ∀ item ∈ r'.todo, item.batchId = none) (hjobs : db'.jobs = db.jobs)
  | created (hpc : r.pc = .insertBatch) (hfresh : env.fresh ∉ db.batches)
      (hb : r'.batch = some (env.fresh, r.batchRow env.now))
      (ht : r'.todo = r.body.batchJobs.map (r.body.batchItem env.fresh))
      (hdb : db' = db.insertBatch env.fresh (r.batchRow env.now))
  | inserted (item : JobItem) (hpc : r.todo = item :: r'.todo) (hb : r'.batch = r.batch)
      (hfresh : env.fresh ∉ db.jobs) (hdb : db' = db.insertJob env.fresh (r.row env.now item))

/-- What a statement of a submission does to its list of items. -/
theorem Submit.Stepped.moved {cfg : Config} {env : Env} {db db' : Db} {r r' : Submit}
    (h : Submit.Stepped cfg env r db db' r') : Submit.Moved env r db db' r' := by
  cases h with
  | failed err _ => exact .failed err rfl rfl rfl rfl
  | queueChecked hpc _ =>
      exact .kept rfl (by simp [Submit.todo, hpc]) rfl (by simp [hpc])
  | dependenciesChecked hpc satisfied _ =>
      obtain ⟨pc, heq, hd⟩ := Submit.dispatch_eq cfg env.now
        { r with initialStatus := initialJobStatus r.body.type satisfied }
      rw [heq]
      refine .dispatched hpc rfl ?_ rfl
      intro item hitem
      cases hd with
      | job runAt =>
          obtain rfl := List.mem_singleton.mp hitem
          rfl
      | batch | schedule | failed => cases hitem
  | batchInserted hpc hfresh q hq =>
      refine .created hpc hfresh (by rw [hq]; rfl) (Submit.nextItem_todo q q _) rfl
  | jobInserted item rest hpc hfresh q hq =>
      refine .inserted item ?_ (by rw [hq]; rfl) hfresh rfl
      rw [Submit.nextEdge_todo]
      simp [Submit.todo, hpc]
  | attached j d todo rest hpc _ =>
      refine .kept rfl ?_ rfl (by simp [hpc])
      rw [Submit.nextEdge_todo]
      simp [Submit.todo, hpc]
  | scheduleInserted hpc _ => exact .kept rfl (by simp [Submit.todo, hpc, Submit.goto]) rfl (by simp [hpc])
  | published _ hpc => exact .kept rfl (by simp [Submit.todo, hpc, Submit.goto]) rfl (by simp [hpc])
  | replied _ hpc => exact .kept rfl (by simp [Submit.todo, hpc, Submit.goto]) rfl (by simp [hpc])

/-- Before the first INSERT. -/
def SubmitPc.early : SubmitPc → Bool
  | .checkQueue | .checkDependencies | .insertBatch => true
  | _ => false

theorem Submit.nextItem_early (q : Submit) (items : List JobItem) :
    (q.nextItem items).early = false := by
  cases items <;> rfl

theorem Submit.nextEdge_early (q : Submit) (j : UUID) (ds : List UUID) (items : List JobItem) :
    (q.nextEdge j ds items).early = false := by
  cases ds with
  | nil => exact q.nextItem_early items
  | cons d ds => rfl

/-- A request before its first INSERT has only passed checks. -/
theorem Submit.Stepped.early_batch {cfg : Config} {env : Env} {db db' : Db} {r r' : Submit}
    (h : Submit.Stepped cfg env r db db' r') (hpc : r'.pc.early = true) :
    r.pc.early = true ∧ r'.batch = r.batch ∧ (r'.pc = .insertBatch → r'.body.type = .batch) := by
  cases h with
  | failed | scheduleInserted | published | replied => cases hpc
  | queueChecked hq _ => exact ⟨by rw [hq]; rfl, rfl, fun h => by cases h⟩
  | dependenciesChecked hq satisfied _ =>
      obtain ⟨pc, heq, hd⟩ := Submit.dispatch_eq cfg env.now
        { r with initialStatus := initialJobStatus r.body.type satisfied }
      rw [heq] at hpc ⊢
      cases hd with
      | batch ht => exact ⟨by rw [hq]; rfl, rfl, fun _ => ht⟩
      | job | schedule | failed => cases hpc
  | batchInserted _ _ q _ => exact absurd hpc (by simp [Submit.goto, q.nextItem_early])
  | jobInserted _ _ _ _ q _ => exact absurd hpc (by simp [Submit.goto, q.nextEdge_early])
  | attached => exact absurd hpc (by simp [Submit.goto, Submit.nextEdge_early])

/-! ## §3. Jobs belong to existing batches. -/

/-- `j` is a job of batch `B`. -/
def Db.InBatch (db : Db) (B j : UUID) : Prop :=
  ∃ row, db.jobs.lookup j = some row ∧ row.batchId = some B

/-- Batches, their jobs and the requests that create them. -/
structure Batches (s : Sys) : Prop where
  /-- Foreign key `jobs.batch_id`. -/
  jobs : ∀ j B, s.db.InBatch B j → B ∈ s.db.batches
  created : ∀ k r B b, s.proc k = some (.submit r) → r.batch = some (B, b) → B ∈ s.db.batches
  unique : ∀ k l r q B b c, s.proc k = some (.submit r) → s.proc l = some (.submit q) →
    r.batch = some (B, b) → q.batch = some (B, c) → k = l
  early : ∀ k r, s.proc k = some (.submit r) → r.pc.early = true → r.batch = none
  typed : ∀ k r, s.proc k = some (.submit r) → r.pc = .insertBatch → r.body.type = .batch
  /-- The items of a request go into the batch it has created. -/
  items : ∀ k r item, s.proc k = some (.submit r) → item ∈ r.todo →
    item.batchId = r.batch.map Prod.fst

theorem batches_atRest (clock : Timestamp) (db : Db)
    (hfk : ∀ j B, db.InBatch B j → B ∈ db.batches) : Batches (Sys.atRest clock db) where
  jobs := hfk
  created := by intro k r B b h; simp at h
  unique := by intro k l r q B b c h; simp at h
  early := by intro k r h; simp at h
  typed := by intro k r h; simp at h
  items := by intro k r item h; simp at h

section
variable {cfg : Config} {s s' : Sys} {a : Action} {B j : UUID}

/-- A job stays in the batch it was inserted for. -/
theorem inBatch_stays (h : step cfg s a = some s') (hj : s.db.InBatch B j) : s'.db.InBatch B j := by
  obtain ⟨old, hold, hb⟩ := hj
  rcases step_row h j with heq | ⟨_, _, _, _, _, _, hch⟩
  · exact ⟨old, heq.trans hold, hb⟩
  · rw [hold] at hch
    obtain ⟨new, hnew, hdef⟩ := hch.sameDefinition
    exact ⟨new, hnew, hdef.batchId.trans hb⟩

/-- A row of `j` that is there after the step was in the same batch before. -/
theorem inBatch_before (h : step cfg s a = some s') (hold : ∃ old, s.db.jobs.lookup j = some old)
    (hj : s'.db.InBatch B j) : s.db.InBatch B j := by
  obtain ⟨old, hold⟩ := hold
  obtain ⟨row, hrow, hb⟩ := hj
  refine ⟨old, hold, ?_⟩
  rcases step_row h j with heq | ⟨_, _, _, _, _, _, hch⟩
  · rw [heq, hold] at hrow
    exact Option.some.inj hrow ▸ hb
  · rw [hold] at hch
    obtain ⟨new, hnew, hdef⟩ := hch.sameDefinition
    rw [hnew] at hrow
    cases hrow
    exact hdef.batchId.symm.trans hb

/-- A job of a batch was there before the step, or a request that has created the
batch has just inserted it. -/
theorem inBatch_origin (hB : Batches s) (h : step cfg s a = some s') (hj : s'.db.InBatch B j) :
    s.db.InBatch B j ∨ (s.db.jobs.lookup j = none ∧
      ∃ k env r item rest b, a = .run k env ∧ s.proc k = some (.submit r) ∧
        r.pc = .insertJob item rest ∧ r.batch = some (B, b)) := by
  cases hold : s.db.jobs.lookup j with
  | some old => exact .inl (inBatch_before h ⟨old, hold⟩ hj)
  | none =>
      obtain ⟨row, hrow, hb⟩ := hj
      rcases step_row h j with heq | ⟨k, env, p, rfl, hk, _, hch⟩
      · rw [heq, hold] at hrow
        cases hrow
      · rw [hold, hrow] at hch
        cases hch with
        | submitted r item rest hpc _ =>
            have hitem := hB.items k r item hk (by simp [Submit.todo, hpc])
            obtain ⟨⟨_, b⟩, hbatch, rfl⟩ := Option.map_eq_some_iff.mp (hitem.symm.trans hb)
            exact .inr ⟨rfl, k, env, r, item, rest, b, rfl, hk, hpc, hbatch⟩
        | recreated | dispatched => cases hb

/-- A request with a batch had it before the step, or has just created it. -/
theorem batch_origin {k : Nat} {r' : Submit} {b : Batch} (h : step cfg s a = some s')
    (hk : s'.proc k = some (.submit r')) (hb : r'.batch = some (B, b)) :
    (∃ r, s.proc k = some (.submit r) ∧ r.batch = some (B, b)) ∨
    ∃ env r, a = .run k env ∧ s.proc k = some (.submit r) ∧ r.pc = .insertBatch ∧
      B ∉ s.db.batches ∧ b = r.batchRow env.now ∧ s'.db = s.db.insertBatch B b ∧
      r'.todo = r.body.batchJobs.map (r.body.batchItem B) := by
  cases submit_origin h hk with
  | idle hk₀ _ => exact .inl ⟨r', hk₀, hb⟩
  | started _ hnone _ _ => rw [hnone] at hb; cases hb
  | stepped env r ha hk₀ hs =>
      cases hs.moved with
      | kept hb' | failed _ hb' | dispatched _ hb' | inserted _ _ hb' =>
          exact .inl ⟨r, hk₀, hb'.symm.trans hb⟩
      | created hpc hfresh hb' ht hdb =>
          rw [hb'] at hb
          obtain ⟨rfl, rfl⟩ := Prod.mk.inj (Option.some.inj hb)
          exact .inr ⟨env, r, ha, hk₀, hpc, hfresh, rfl, hdb, ht⟩

/-- The jobs of a step name existing batches. -/
theorem batches_step (hB : Batches s) (h : step cfg s a = some s') : Batches s' := by
  refine ⟨?_, ?_, ?_, ?_, ?_, ?_⟩
  · intro j B hj
    rcases inBatch_origin hB h hj with hold | ⟨_, k, env, r, item, rest, b, _, hk, _, hb⟩
    · exact mem_batches_stays h (hB.jobs j B hold)
    · exact mem_batches_stays h (hB.created k r B b hk hb)
  · intro k r' B b hk hb
    rcases batch_origin h hk hb with ⟨r, hk₀, hb₀⟩ | ⟨_, _, _, _, _, _, _, hdb, _⟩
    · exact mem_batches_stays h (hB.created k r B b hk₀ hb₀)
    · rw [hdb]
      exact AList.lookup_isSome.mp (by simp)
  · intro k l r' q' B b c hk hl hbk hbl
    rcases batch_origin h hk hbk with ⟨r, hk₀, hb₀⟩ | ⟨env, _, ha, _, _, hno, _⟩ <;>
      rcases batch_origin h hl hbl with ⟨q, hl₀, hc₀⟩ | ⟨env', _, ha', _, _, hno', _⟩
    · exact hB.unique k l r q B b c hk₀ hl₀ hb₀ hc₀
    · exact absurd (hB.created k r B b hk₀ hb₀) hno'
    · exact absurd (hB.created l q B c hl₀ hc₀) hno
    · rw [ha] at ha'
      cases ha'
      rfl
  · intro k r' hk hpc
    cases submit_origin h hk with
    | idle hk₀ _ => exact hB.early k r' hk₀ hpc
    | started _ hnone _ _ => exact hnone
    | stepped env r _ hk₀ hs =>
        obtain ⟨hpc₀, hb, _⟩ := hs.early_batch hpc
        rw [hb]
        exact hB.early k r hk₀ hpc₀
  · intro k r' hk hpc
    cases submit_origin h hk with
    | idle hk₀ _ => exact hB.typed k r' hk₀ hpc
    | started _ _ hq _ => rw [hq] at hpc; cases hpc
    | stepped env r _ hk₀ hs => exact (hs.early_batch (by rw [hpc]; rfl)).2.2 hpc
  · intro k r' item hk hitem
    cases submit_origin h hk with
    | idle hk₀ _ => exact hB.items k r' item hk₀ hitem
    | started _ _ hq _ => simp [Submit.todo, hq] at hitem
    | stepped env r _ hk₀ hs =>
        cases hs.moved with
        | kept hb ht => rw [hb]; exact hB.items k r item hk₀ (ht ▸ hitem)
        | failed _ _ ht => rw [ht] at hitem; cases hitem
        | dispatched hpc hb ht =>
            rw [hb, hB.early k r hk₀ (by rw [hpc]; rfl)]
            exact ht item hitem
        | created hpc _ hb ht =>
            rw [ht] at hitem
            obtain ⟨x, _, rfl⟩ := List.mem_map.mp hitem
            rw [hb]
            rfl
        | inserted first hpc hb =>
            rw [hb]
            exact hB.items k r item hk₀ (by rw [hpc]; exact List.mem_cons_of_mem _ hitem)

end

end JobScheduler
