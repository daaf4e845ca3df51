/-
  JobScheduler.Batch.Cancel
  ─────────────────────────
  POST /batches/:id/cancel against the executors.  Its two UPDATEs cancel the
  batch row and fail the jobs that wait; claimed and running jobs go on, their
  increments may reach `total_jobs` and overwrite the status, and their failures
  put them back to queued.  Finality is proved for the continuations that take
  none of these branches.
-/
import JobScheduler.Batch.Progress

namespace JobScheduler

open Relational Transition

/-! ## §1. The statements at issue. -/

/-- The action is a statement of the finalisation branch of batch `B`: the status
write, the `batch.completed` event or the callback. -/
def Action.completesBatch (s : Sys) (B : UUID) (a : Action) : Bool :=
  a.ofExec s (fun _ e => e.pc.finalising && decide (e.job.batchId = some B))

/-- The action is the UPDATE that starts an attempt of a job of batch `B`. -/
def Action.startsAttempt (s : Sys) (B : UUID) (a : Action) : Bool :=
  a.ofExec s (fun _ e => (match e.pc with
    | .setRunning => true
    | _ => false) && decide (e.job.batchId = some B))

/-- The action is the policy check after a failed attempt of a job of batch `B`
that has attempts left. -/
def Action.retriesIn (s : Sys) (B : UUID) (a : Action) : Bool :=
  a.ofExec s (fun _ e => (match e.pc with
    | .selectPolicy _ =>
        decide (e.attemptNumber < e.maxAttempts (getRetryPolicyForQueue s.db e.job.queueId))
    | _ => false) && decide (e.job.batchId = some B))

/-- The action is the UPDATE with which a cancellation of batch `B` fails the
waiting jobs. -/
def Action.failsJobs (s : Sys) (B : UUID) : Action → Bool
  | .run pid env =>
      match s.proc pid with
      | some (.cancel c) =>
          (match c.pc with
            | .updateJobs _ => true
            | _ => false) && decide (c.batchId = B) && !env.fails
      | _ => false
  | _ => false

/-! ## §2. The finalisation branch. -/

/-- The branch is entered from an accepted increment that finishes the row. -/
theorem Exec.step_finalising {cfg : Config} {ctx : Ctx} {env : Env} {e e' : Exec} {db db' : Db}
    (h : e.step cfg ctx env db = some (db', e')) (hf : e'.pc.finalising = true) :
    e.pc.finalising = true ∨ ((env.fails || e.overflows cfg) = false ∧
      ∃ result batch, e.pc = .batchProgress result ∧ e.progressed env db result = some batch ∧
        batch.isFinished = true) := by
  obtain ⟨_, ⟨_, _, rfl⟩ | ⟨hacc, _, rfl⟩⟩ := Exec.step_cases h
  · have hf' : (onThrow env.error e.pc).finalising = true := hf
    rcases onThrow_cases env.error e.pc with ho | ho | ho | ⟨site, _, ho⟩ <;> rw [ho] at hf'
    · cases hf'
    · cases hf'
    · cases hf'
    · cases site <;> cases hf'
  · have hflow := e.flow env db
    generalize e.pc = pc at hflow ⊢
    generalize (e.next env db).pc = pc' at hflow hf
    cases hflow with
    | finished result batch hp hfin => exact .inr ⟨hacc, result, batch, rfl, hp, hfin⟩
    | finalised | calls => exact .inl rfl
    | published site => cases site <;> first | exact .inl rfl | cases hf
    | logged site => cases site <;> cases hf
    | _ => cases hf

/-- Runs in the finalisation branch of batch `B` have found its row finished. -/
def FinalisesFinished (B : UUID) (s : Sys) : Prop :=
  ∀ k e, s.proc k = some (.exec e) → e.job.batchId = some B → e.pc.finalising = true →
    ∃ b, s.db.batches.lookup B = some b ∧ b.isFinished = true

section
variable {cfg : Config} {s s' : Sys} {a : Action} {B : UUID}

/-- A finished row stays finished. -/
theorem isFinished_stays {b : Batch} (h : step cfg s a = some s')
    (hrow : s.db.batches.lookup B = some b) (hf : b.isFinished = true) :
    ∃ b', s'.db.batches.lookup B = some b' ∧ b'.isFinished = true := by
  rcases step_batch h B with heq | ⟨_, env, _, _, _, hch⟩
  · exact ⟨b, heq.trans hrow, hf⟩
  · rw [hrow] at hch
    generalize s'.db.batches.lookup B = new at hch
    cases hch with
    | same => exact ⟨b, rfl, hf⟩
    | progressed e result _ _ _ =>
        refine ⟨_, rfl, ?_⟩
        rw [Batch.isFinished_iff] at hf ⊢
        rw [Batch.progress_total, Batch.progress_counter, Batch.progress_counter]
        omega
    | finalised | cancelled => exact ⟨_, rfl, hf⟩

/-- A batch is finalised only once every job is counted, and a step keeps that. -/
theorem finalisesFinished_step (hF : FinalisesFinished B s) (h : step cfg s a = some s') :
    FinalisesFinished B s' := by
  intro k e' hk hb hf
  cases exec_origin h hk with
  | idle hk₀ _ =>
      obtain ⟨b, hrow, hfin⟩ := hF k e' hk₀ hb hf
      exact isFinished_stays h hrow hfin
  | committed _ _ _ _ _ _ _ _ he => subst he; cases hf
  | stepped env e ha hk₀ hs =>
      have hb₀ : e.job.batchId = some B := (Exec.step_params hs).2.1 ▸ hb
      rcases Exec.step_finalising hs hf with hf₀ | ⟨hacc, result, batch, hpc, hprog, hfin⟩
      · obtain ⟨b, hrow, hfin⟩ := hF k e hk₀ hb₀ hf₀
        exact isFinished_stays h hrow hfin
      · subst ha
        have hdb := (exec_accepted h hk₀ (by simpa [Action.rejected, hk₀] using hacc)).1
        -- the row that RETURNING gave is the one the increment has written
        refine ⟨batch, ?_, hfin⟩
        rw [hdb]
        simp only [Exec.progressed, hb₀, Option.bind_some] at hprog
        simpa [Exec.effect, hpc, hb₀] using hprog

/-! ## §3. The status stays. -/

/-- Batch `B` is cancelled, and no run is about to complete it. -/
structure StaysCancelled (B : UUID) (s : Sys) : Prop where
  row : ∃ b, s.db.batches.lookup B = some b ∧ b.status = .cancelled ∧ b.isFinished = false
  quiet : ∀ k e, s.proc k = some (.exec e) → e.job.batchId = some B → e.pc.finalising = false

theorem cancelsBatch_iff :
    a.cancelsBatch s B = true ↔ ∃ k env c, a = .run k env ∧ s.proc k = some (.cancel c) ∧
      c.pc = .updateBatch ∧ c.batchId = B ∧ env.fails = false := by
  constructor
  · intro h
    cases a with
    | run pid env =>
        simp only [Action.cancelsBatch] at h
        split at h
        · rename_i c hp
          simp only [Bool.and_eq_true, decide_eq_true_eq, Bool.not_eq_true'] at h
          obtain ⟨⟨hpc, hb⟩, hok⟩ := h
          split at hpc
          · rename_i hu
            exact ⟨pid, env, c, rfl, hp, hu, hb, hok⟩
          · cases hpc
        · cases h
    | _ => cases h
  · rintro ⟨k, env, c, rfl, hk, hpc, hb, hok⟩
    simp [Action.cancelsBatch, hk, hpc, hb, hok]

theorem failsJobs_iff :
    a.failsJobs s B = true ↔ ∃ k env c batch, a = .run k env ∧ s.proc k = some (.cancel c) ∧
      c.pc = .updateJobs batch ∧ c.batchId = B ∧ env.fails = false := by
  constructor
  · intro h
    cases a with
    | run pid env =>
        simp only [Action.failsJobs] at h
        split at h
        · rename_i c hp
          simp only [Bool.and_eq_true, decide_eq_true_eq, Bool.not_eq_true'] at h
          obtain ⟨⟨hpc, hb⟩, hok⟩ := h
          split at hpc
          · rename_i batch hu
            exact ⟨pid, env, c, batch, rfl, hp, hu, hb, hok⟩
          · cases hpc
        · cases h
    | _ => cases h
  · rintro ⟨k, env, c, batch, rfl, hk, hpc, hb, hok⟩
    simp [Action.failsJobs, hk, hpc, hb, hok]

/-- The statement of a cancellation. -/
theorem cancel_step {k : Nat} {env : Env} {c : Cancel} (h : step cfg s (.run k env) = some s')
    (hk : s.proc k = some (.cancel c)) :
    ∃ c', c.step cfg s.ctx env s.db = some (s'.db, c') ∧
      ∀ l e, s'.proc l = some (.exec e) → s.proc l = some (.exec e) := by
  obtain ⟨p', hk', hstep⟩ := proc_run h hk
  obtain ⟨⟨d, c'⟩, hs, he⟩ := Option.map_eq_some_iff.mp hstep
  obtain ⟨rfl, rfl⟩ := Prod.mk.inj he
  refine ⟨c', hs, fun l e hl => ?_⟩
  by_cases hlk : l = k
  · subst hlk
    rw [hk'] at hl
    cases hl
  · cases exec_origin h hl with
    | idle hl₀ _ => exact hl₀
    | stepped env' _ ha _ _ | committed env' _ _ _ ha _ _ _ _ => cases ha; exact absurd rfl hlk

/-- The UPDATE of the batch row, before any increment has finished it. -/
theorem staysCancelled_start {b : Batch} (hF : FinalisesFinished B s)
    (hrow : s.db.batches.lookup B = some b) (hopen : b.isFinished = false)
    (ha : a.cancelsBatch s B = true) (h : step cfg s a = some s') : StaysCancelled B s' := by
  obtain ⟨k, env, c, rfl, hk, hpc, hb, hok⟩ := cancelsBatch_iff.mp ha
  obtain ⟨c', hs, hexec⟩ := cancel_step h hk
  refine ⟨⟨Cancel.cancelledBatch env.now b, ?_, rfl, hopen⟩, ?_⟩
  · simp only [Cancel.step, hpc, hok, Bool.false_eq_true, if_false, Option.some.injEq,
      Prod.mk.injEq] at hs
    rw [← hs.1, updateBatch_lookup, hrow]
    simp [hb]
  · intro l e hl hbl
    rw [Bool.eq_false_iff]
    intro hf
    -- a run in the branch has seen the row finished, but it is open
    obtain ⟨b', hrow', hfin⟩ := hF l e (hexec l e hl) hbl hf
    rw [hrow] at hrow'
    cases hrow'
    rw [hopen] at hfin
    cases hfin

/-- **The status stays** as long as no increment finishes the row. -/
theorem staysCancelled_step (hS : StaysCancelled B s)
    (hfin : a.finalises s B = true → a.rejected cfg s = true) (h : step cfg s a = some s') :
    StaysCancelled B s' := by
  obtain ⟨b, hrow, hst, hopen⟩ := hS.row
  refine ⟨?_, ?_⟩
  · rcases step_batch h B with heq | ⟨k, env, p, rfl, hk, hch⟩
    · exact ⟨b, heq.trans hrow, hst, hopen⟩
    · rw [hrow] at hch
      generalize hnew : s'.db.batches.lookup B = new at hch
      cases hch with
      | same => exact ⟨b, rfl, hst, hopen⟩
      | progressed e result _ hpc hb =>
          refine ⟨_, rfl, by cases result <;> exact hst, ?_⟩
          rw [Bool.eq_false_iff]
          intro hf
          -- an increment that finishes the row is rejected, and changes nothing
          have hrej := hfin (finalises_iff.mpr ⟨k, env, e, result, b, rfl, hk, hpc, hb, hrow, hf⟩)
          rcases exec_next h hk with ⟨_, hne⟩ | ⟨env', e', he, _, hs⟩
          · exact hne env rfl
          · cases he
            obtain ⟨_, ⟨_, hdb, _⟩ | ⟨hacc, _, _⟩⟩ := Exec.step_cases hs
            · rw [hdb, hrow] at hnew
              have hcount := congrArg (fun o => (o.map (Batch.counter · result)).getD 0) hnew
              simp [Batch.progress_counter] at hcount
            · simp only [Action.rejected, hk] at hrej
              rw [hacc] at hrej
              cases hrej
      | finalised e result batch _ hpc hb =>
          -- the status write belongs to the branch, where nobody is
          have hq := hS.quiet k e hk hb
          rw [hpc] at hq
          cases hq
      | cancelled => exact ⟨_, rfl, rfl, hopen⟩
  · intro k e' hk hb
    rw [Bool.eq_false_iff]
    intro hf
    cases exec_origin h hk with
    | idle hk₀ _ =>
        rw [hS.quiet k e' hk₀ hb] at hf
        cases hf
    | committed _ _ _ _ _ _ _ _ he => subst he; cases hf
    | stepped env e ha hk₀ hs =>
        have hb₀ : e.job.batchId = some B := (Exec.step_params hs).2.1 ▸ hb
        rcases Exec.step_finalising hs hf with hf₀ | ⟨hacc, result, batch, hpc, hprog, hfin'⟩
        · rw [hS.quiet k e hk₀ hb₀] at hf₀
          cases hf₀
        · subst ha
          -- the branch is entered by an increment that finishes the row
          simp only [Exec.progressed, hb₀, Option.bind_some, hrow, Option.map_some,
            Option.some.injEq] at hprog
          have hrej := hfin (finalises_iff.mpr
            ⟨k, env, e, result, b, rfl, hk₀, hpc, hb₀, hrow, hprog ▸ hfin'⟩)
          simp only [Action.rejected, hk₀] at hrej
          rw [hacc] at hrej
          cases hrej

/-! ## §4. No attempt starts. -/

/-- The statement sets the job back to `queued` with its next `run_at`. -/
def ExecPc.requeues : ExecPc → Bool
  | .requeue _ _ _ => true
  | _ => false

/-- The requeue is decided by the policy check, with attempts left. -/
theorem Exec.step_requeues {ctx : Ctx} {env : Env} {e e' : Exec} {db db' : Db}
    (h : e.step cfg ctx env db = some (db', e')) (hr : e'.pc.requeues = true) :
    (env.fails || e.overflows cfg) = false ∧ ∃ error, e.pc = .selectPolicy error ∧
      e.attemptNumber < e.maxAttempts (getRetryPolicyForQueue db e.job.queueId) := by
  obtain ⟨_, ⟨_, _, rfl⟩ | ⟨hacc, _, rfl⟩⟩ := Exec.step_cases h
  · have hr' : (onThrow env.error e.pc).requeues = true := hr
    rcases onThrow_cases env.error e.pc with ho | ho | ho | ⟨site, _, ho⟩ <;> rw [ho] at hr'
    · cases hr'
    · cases hr'
    · cases hr'
    · cases site <;> cases hr'
  · have hflow := e.flow env db
    generalize e.pc = pc at hflow ⊢
    generalize (e.next env db).pc = pc' at hflow hr
    cases hflow with
    | retries error delay n st hlt => exact ⟨hacc, error, rfl, hlt⟩
    | logged site => cases site <;> cases hr
    | _ => cases hr

/-- No job of batch `B` waits, and nobody is about to make one wait. -/
structure Withdrawn (B : UUID) (s : Sys) : Prop where
  jobs : ∀ j row, s.db.jobs.lookup j = some row → row.batchId = some B → row.status.pending = false
  requeue : ∀ k e, s.proc k = some (.exec e) → e.job.batchId = some B → e.pc.requeues = false
  insert : ∀ k r b, s.proc k = some (.submit r) → r.batch = some (B, b) → r.todo = []

/-- **The UPDATE of the jobs** fails every job that waits. -/
theorem withdrawn_start (ha : a.failsJobs s B = true)
    (hrequeue : ∀ k e, s.proc k = some (.exec e) → e.job.batchId = some B → e.pc.requeues = false)
    (hinsert : ∀ k r b, s.proc k = some (.submit r) → r.batch = some (B, b) → r.todo = [])
    (h : step cfg s a = some s') : Withdrawn B s' := by
  obtain ⟨k, env, c, batch, rfl, hk, hpc, hb, hok⟩ := failsJobs_iff.mp ha
  obtain ⟨c', hs, hexec⟩ := cancel_step h hk
  refine ⟨?_, fun l e hl => hrequeue l e (hexec l e hl), ?_⟩
  · intro j row hrow hbatch
    simp only [Cancel.step, hpc, hok, Bool.false_eq_true, if_false] at hs
    split at hs
    · simp only [Option.some.injEq, Prod.mk.injEq] at hs
      rw [← hs.1, updateJobsWhere_lookup] at hrow
      obtain ⟨old, hold, rfl⟩ := Option.map_eq_some_iff.mp hrow
      -- the WHERE clause takes every job of the batch that waits
      by_cases hw : Cancel.cancels c.batchId j old = true
      · rw [if_pos hw]
        rfl
      · rw [if_neg hw] at hbatch ⊢
        simpa [Cancel.cancels, hb, hbatch] using hw
    · cases hs
  · intro l r b hl hbr
    cases submit_origin h hl with
    | idle hl₀ _ => exact hinsert l r b hl₀ hbr
    | started _ hnone _ _ => rw [hnone] at hbr; cases hbr
    | stepped env' r₀ ha' hl₀ _ =>
        cases ha'
        rw [hk] at hl₀
        cases hl₀

/-- No job of a withdrawn batch becomes pending again without a reset. -/
theorem Withdrawn.jobs_step (hG : Grounded s) (hW : Withdrawn B s)
    (hreset : ∀ j, s.db.InBatch B j → a.resets s j = false) (h : step cfg s a = some s') :
    ∀ j row, s'.db.jobs.lookup j = some row → row.batchId = some B → row.status.pending = false := by
  intro j row hrow hb
  rcases inBatch_origin hG.batches h ⟨row, hrow, hb⟩ with hold | ⟨_, l, env, r, item, rest, b, _, hl, hpc, hbr⟩
  · obtain ⟨old, hold, hob⟩ := hold
    have hwait : old.status.pending = false := hW.jobs j old hold hob
    rcases step_row h j with heq | ⟨pid, env, p, rfl, hp, _, hch⟩
    · rw [heq, hold] at hrow
      cases hrow
      exact hwait
    have hres : p.resets j = false := by
      simpa [Action.resets, hp] using hreset j ⟨old, hold, hob⟩
    rw [hold, hrow] at hch
    cases hch with
    | same => exact hwait
    | claimed | running | completed | deadLettered | cancelled => rfl
    | released e _ hpc hw =>
        -- only a blocked job is released
        simp only [Db.releasable, Bool.and_eq_true, decide_eq_true_eq] at hw
        rw [hw.1.1] at hwait
        cases hwait
    | requeued e _ delay n st hpc hj =>
        -- nobody stands before a requeue
        have hreq := hW.requeue pid e hp (hG.defined.batchId hp (hj ▸ ⟨old, hold, hob⟩))
        rw [hpc] at hreq
        cases hreq
    | retried r _ hpc hrj => simp [Proc.resets, hpc, hrj] at hres
    | replayed r _ hpc => simp [Proc.resets, hpc] at hres
    | flipped t _ hpc hw =>
        -- only a scheduled job becomes due
        simp only [Tick.flips, Bool.and_eq_true, decide_eq_true_eq] at hw
        rw [hw.1] at hwait
        cases hwait
  · have hnil := hW.insert l r b hl hbr
    simp [Submit.todo, hpc] at hnil

/-- No call is about to requeue a job of a withdrawn batch, unless a retry in the batch was
carried out. -/
theorem Withdrawn.requeue_step (hW : Withdrawn B s)
    (hretry : a.retriesIn s B = true → a.rejected cfg s = true) (h : step cfg s a = some s') :
    ∀ k e, s'.proc k = some (.exec e) → e.job.batchId = some B → e.pc.requeues = false := by
  intro k e' hk hb
  rw [Bool.eq_false_iff]
  intro hr
  cases exec_origin h hk with
  | idle hk₀ _ =>
      rw [hW.requeue k e' hk₀ hb] at hr
      cases hr
  | committed _ _ _ _ _ _ _ _ he => subst he; cases hr
  | stepped env e ha hk₀ hs =>
      subst ha
      have hb₀ : e.job.batchId = some B := (Exec.step_params hs).2.1 ▸ hb
      -- the policy check left attempts over
      obtain ⟨hacc, error, hpc, hlt⟩ := Exec.step_requeues hs hr
      have hrej := hretry (ofExec_iff.mpr ⟨k, env, e, rfl, hk₀, by simp [hpc, hb₀, hlt]⟩)
      simp only [Action.rejected, hk₀] at hrej
      rw [hacc] at hrej
      cases hrej

/-- No submission has jobs of a withdrawn batch still to insert. -/
theorem Withdrawn.insert_step (hB : Batches s) (hW : Withdrawn B s) (hmem : B ∈ s.db.batches)
    (h : step cfg s a = some s') :
    ∀ k r b, s'.proc k = some (.submit r) → r.batch = some (B, b) → r.todo = [] := by
  intro k r' b hk hb
  cases submit_origin h hk with
  | idle hk₀ _ => exact hW.insert k r' b hk₀ hb
  | started _ hnone _ _ => rw [hnone] at hb; cases hb
  | stepped env r _ hk₀ hs =>
      cases hs.moved with
      | kept hb' ht => rw [ht]; exact hW.insert k r b hk₀ (hb'.symm.trans hb)
      | failed _ _ ht => exact ht
      | dispatched hpc hb' =>
          rw [hb', hB.early k r hk₀ (by rw [hpc]; rfl)] at hb
          cases hb
      -- the id of a new batch is new
      | created _ hfresh hb' =>
          rw [hb'] at hb
          cases hb
          exact absurd hmem hfresh
      | inserted item ht hb' =>
          rw [hW.insert k r b hk₀ (hb'.symm.trans hb)] at ht
          cases ht

/-- **No job of the batch waits again** without a retry, a reset or an insert. -/
theorem withdrawn_step (hG : Grounded s) (hW : Withdrawn B s) (hB : B ∈ s.db.batches)
    (hretry : a.retriesIn s B = true → a.rejected cfg s = true)
    (hreset : ∀ j, s.db.InBatch B j → a.resets s j = false) (h : step cfg s a = some s') :
    Withdrawn B s' where
  jobs := hW.jobs_step hG hreset h
  requeue := hW.requeue_step hretry h
  insert := hW.insert_step hG.batches hB h

/-- No run of a job of batch `B` stands before its first UPDATE. -/
def Unstarted (B : UUID) (s : Sys) : Prop :=
  ∀ k e, s.proc k = some (.exec e) → e.job.batchId = some B → e.stage ≠ .claimed

/-- A step puts no run of a withdrawn batch before its first UPDATE. -/
theorem unstarted_step (hG : Grounded s) (hW : Withdrawn B s) (hU : Unstarted B s)
    (h : step cfg s a = some s') : Unstarted B s' := by
  intro k e' hk hb hg
  cases exec_origin h hk with
  | idle hk₀ _ => exact hU k e' hk₀ hb hg
  | committed env c j row _ hk₀ hpc _ he =>
      -- a claim takes a job that waits
      subst he
      obtain ⟨old, hold, hq, hrow⟩ := hG.pending.queued k c j row hk₀ hpc
      have hwait := hW.jobs j old hold (by rw [hrow] at hb; exact hb)
      rw [hq] at hwait
      cases hwait
  | stepped env e _ hk₀ hs =>
      refine hU k e hk₀ ((Exec.step_params hs).2.1 ▸ hb) ?_
      -- no statement leads back before the first UPDATE
      rcases Exec.step_stage hs with hn | ⟨_, hc⟩
      · rw [hg] at hn
        cases hs₀ : e.stage <;> rw [hs₀] at hn <;> cases hn
      · rw [hg] at hc
        cases hc

/-- What the run keeps from the UPDATE of the jobs on. -/
structure Cancelled (B : UUID) (s : Sys) : Prop where
  grounded : Grounded s
  stays : StaysCancelled B s
  withdrawn : Withdrawn B s

/-- One step keeps the cancellation, under the conditions on that step alone. -/
theorem cancelled_step (hC : Cancelled B s)
    (hfin : a.finalises s B = true → a.rejected cfg s = true)
    (hretry : a.retriesIn s B = true → a.rejected cfg s = true)
    (hreset : ∀ j, s.db.InBatch B j → a.resets s j = false) (h : step cfg s a = some s') :
    Cancelled B s' where
  grounded := grounded_step hC.grounded h
  stays := staysCancelled_step hC.stays hfin h
  withdrawn := by
    obtain ⟨b, hrow, _⟩ := hC.stays.row
    exact withdrawn_step hC.grounded hC.withdrawn (AList.lookup_isSome.mp (by simp [hrow])) hretry
      hreset h

end

/-! ## §5. Finality. -/

/-- What makes a cancellation of batch `B` final: `t₁` is the state before its
UPDATE of the jobs, `s₁` that in which the request returns, `tr` are the steps
after the UPDATE of the batch row and `tr'` those after the UPDATE of the jobs. -/
structure Uncontested (cfg : Config) (B : UUID) (t₁ s₁ : Sys) (tr tr' : List (Sys × Action)) :
    Prop where
  /-- No increment reaches `total_jobs`. -/
  total : ∀ p ∈ tr, p.2.finalises p.1 B = true → p.2.rejected cfg p.1 = true
  /-- No run has decided to requeue a job. -/
  requeue : ∀ k e, t₁.proc k = some (.exec e) → e.job.batchId = some B → e.pc.requeues = false
  /-- The request that creates the batch has no job left to insert. -/
  insert : ∀ k r b, t₁.proc k = some (.submit r) → r.batch = some (B, b) → r.todo = []
  /-- No attempt fails with attempts left. -/
  retry : ∀ p ∈ tr', p.2.retriesIn p.1 B = true → p.2.rejected cfg p.1 = true
  /-- No operator retries or replays a job. -/
  reset : ∀ p ∈ tr', ∀ j, p.1.db.InBatch B j → p.2.resets p.1 j = false
  /-- No job is claimed without having started. -/
  start : ∀ k e, s₁.proc k = some (.exec e) → e.job.batchId = some B → e.stage ≠ .claimed

/-- **Cancellation is final when it is uncontested.**  In every run of the whole
system in which a cancellation of batch `B` executes its two UPDATEs, the first
before the counters have reached `total_jobs`: if no later increment reaches it,
no attempt is put back, no job is left to insert or to start, then from the
return of the request on the batch stays cancelled, its finalisation branch is
never entered, and no job of the batch begins an attempt. -/
theorem cancellation_final {cfg : Config} {clock : Timestamp} {db : Db} {B : UUID} {b : Batch}
    {t₀ u₀ t₁ u₁ s₁ s : Sys} {a₀ a₁ : Action} {tr₀ tr₁ tr₂ tr₃ : List (Sys × Action)}
    (hfk : ∀ j C, db.InBatch C j → C ∈ db.batches)
    (hrun₀ : SysRun cfg (Sys.atRest clock db) tr₀ t₀)
    (hrow : t₀.db.batches.lookup B = some b) (hopen : b.isFinished = false)
    (ha₀ : a₀.cancelsBatch t₀ B = true) (hs₀ : step cfg t₀ a₀ = some u₀)
    (hrun₁ : SysRun cfg u₀ tr₁ t₁)
    (ha₁ : a₁.failsJobs t₁ B = true) (hs₁ : step cfg t₁ a₁ = some u₁)
    (hrun₂ : SysRun cfg u₁ tr₂ s₁) (hrun₃ : SysRun cfg s₁ tr₃ s)
    (hU : Uncontested cfg B t₁ s₁ (tr₁ ++ (tr₂ ++ tr₃)) (tr₂ ++ tr₃)) :
    (∃ b', s.db.batches.lookup B = some b' ∧ b'.status = .cancelled) ∧
      ∀ p ∈ tr₃, p.2.completesBatch p.1 B = false ∧ p.2.startsAttempt p.1 B = false := by
  -- up to the UPDATE of the batch row
  obtain ⟨hG₀, hF₀⟩ := hrun₀.invariant (I := fun s => Grounded s ∧ FinalisesFinished B s)
    (G := fun _ _ => True)
    (fun _ _ _ hI _ hs => ⟨grounded_step hI.1 hs, finalisesFinished_step hI.2 hs⟩)
    (fun _ _ => trivial) ⟨grounded_atRest clock db hfk, by intro k e h; simp at h⟩
  have hS₀ := staysCancelled_start hF₀ hrow hopen ha₀ hs₀
  -- up to the UPDATE of the jobs
  obtain ⟨hG₁, hS₁⟩ := hrun₁.invariant (I := fun s => Grounded s ∧ StaysCancelled B s)
    (G := fun s a => a.finalises s B = true → a.rejected cfg s = true)
    (fun _ _ _ hI hg hs => ⟨grounded_step hI.1 hs, staysCancelled_step hI.2 hg hs⟩)
    (fun p hp => hU.total p (List.mem_append_left _ hp)) ⟨grounded_step hG₀ hs₀, hS₀⟩
  have hnot : a₁.finalises t₁ B = true → a₁.rejected cfg t₁ = true := by
    intro hf
    obtain ⟨k, _, c, _, rfl, hk, _⟩ := failsJobs_iff.mp ha₁
    obtain ⟨_, _, _, _, _, ha, hk', _⟩ := finalises_iff.mp hf
    cases ha
    rw [hk] at hk'
    cases hk'
  have hC₁ : Cancelled B u₁ :=
    ⟨grounded_step hG₁ hs₁, staysCancelled_step hS₁ hnot hs₁,
      withdrawn_start ha₁ hU.requeue hU.insert hs₁⟩
  -- up to the return of the request
  have hC₂ := hrun₂.invariant (I := Cancelled B)
    (G := fun s a => (a.finalises s B = true → a.rejected cfg s = true) ∧
      (a.retriesIn s B = true → a.rejected cfg s = true) ∧
      ∀ j, s.db.InBatch B j → a.resets s j = false)
    (fun _ _ _ hI hg hs => cancelled_step hI hg.1 hg.2.1 hg.2.2 hs)
    (fun p hp => ⟨hU.total p (List.mem_append_right _ (List.mem_append_left _ hp)),
      hU.retry p (List.mem_append_left _ hp), hU.reset p (List.mem_append_left _ hp)⟩) hC₁
  -- and ever after
  have hstep : ∀ s a s', Cancelled B s ∧ Unstarted B s →
      ((a.finalises s B = true → a.rejected cfg s = true) ∧
        (a.retriesIn s B = true → a.rejected cfg s = true) ∧
        ∀ j, s.db.InBatch B j → a.resets s j = false) →
      step cfg s a = some s' → Cancelled B s' ∧ Unstarted B s' := fun _ _ _ hI hg hs =>
    ⟨cancelled_step hI.1 hg.1 hg.2.1 hg.2.2 hs,
      unstarted_step hI.1.grounded hI.1.withdrawn hI.2 hs⟩
  have hcond : ∀ p ∈ tr₃, (p.2.finalises p.1 B = true → p.2.rejected cfg p.1 = true) ∧
      (p.2.retriesIn p.1 B = true → p.2.rejected cfg p.1 = true) ∧
      ∀ j, p.1.db.InBatch B j → p.2.resets p.1 j = false := fun p hp =>
    ⟨hU.total p (List.mem_append_right _ (List.mem_append_right _ hp)),
      hU.retry p (List.mem_append_right _ hp), hU.reset p (List.mem_append_right _ hp)⟩
  refine ⟨?_, ?_⟩
  · obtain ⟨⟨b', hrow', hst, _⟩⟩ := (hrun₃.invariant hstep hcond ⟨hC₂, hU.start⟩).1.stays
    exact ⟨b', hrow', hst⟩
  · intro p hp
    obtain ⟨hC, hun⟩ := hrun₃.invariant_at hstep hcond ⟨hC₂, hU.start⟩ p hp
    refine ⟨?_, ?_⟩
    · rw [Bool.eq_false_iff]
      intro hf
      obtain ⟨k, _, e, _, hk, hf⟩ := ofExec_iff.mp hf
      obtain ⟨hpc, hb⟩ := Bool.and_eq_true_iff.mp hf
      rw [hC.stays.quiet k e hk (of_decide_eq_true hb)] at hpc
      cases hpc
    · rw [Bool.eq_false_iff]
      intro hf
      obtain ⟨k, _, e, _, hk, hf⟩ := ofExec_iff.mp hf
      obtain ⟨hpc, hb⟩ := Bool.and_eq_true_iff.mp hf
      split at hpc
      · rename_i hset
        exact hun k e hk (of_decide_eq_true hb) (by simp [Exec.stage, hset, ExecPc.stage])
      · cases hpc

/-- Job 7 of batch 9 is running and job 8 is queued when request 3 cancels the
batch; it has passed its access check. -/
def cancellingActions : List Action :=
  submitBatchActions 2 (by decide)
    ++ .start 1 (.claim 5 none none) :: Action.runs 1 { now := 0, pick := some 7, fresh := 100 } 11
    ++ [.start 3 (.cancel 1 9), .run 3 { now := 0 }]

/-- The state that `cancellingActions` lead to. -/
def Sys.cancelling : Sys := play (step Config.small) (Sys.atRest 0 (Db.small 2 [])) cancellingActions

/-- The request has cancelled the batch row. -/
def Sys.rowCancelled : Sys := play (step Config.small) Sys.cancelling [.run 3 { now := 0 }]

/-- The request has failed job 8. -/
def Sys.jobsFailed : Sys := play (step Config.small) Sys.rowCancelled [.run 3 { now := 0 }]

/-- The request has answered. -/
def Sys.answered : Sys := play (step Config.small) Sys.jobsFailed (Action.runs 3 { now := 0 } 2)

/-- The client neither requeues a job nor inserts one. -/
def Proc.withdraws : Proc → Bool
  | .exec e => !e.pc.requeues
  | .submit r => r.todo.isEmpty
  | _ => true

/-- The client is no activation before its first UPDATE. -/
def Proc.hasStarted : Proc → Bool
  | .exec e => decide (e.stage ≠ .claimed)
  | _ => true

/-- The attempt of job 7 finishes, job 8 never starts, and the batch stays cancelled. -/
theorem cancellation_final_running :
    ((play (step Config.small) Sys.answered (Action.runs 1 { now := 0 } 9)).db.batches.lookup 9).map
      (·.status) = some .cancelled := by
  have hrun₀ := run_of_play (step Config.small) (Sys.atRest 0 (Db.small 2 []))
    cancellingActions (by rfl)
  have hrun₂ := run_of_play (step Config.small) Sys.jobsFailed
    (Action.runs 3 { now := 0 } 2) (by rfl)
  have hrun₃ := run_of_play (step Config.small) Sys.answered
    (Action.runs 1 { now := 0 } 9) (by rfl)
  have hbefore := (Sys.rowCancelled.clients_all_iff Proc.withdraws).mp (by decide)
  have hstart := (Sys.answered.clients_all_iff Proc.hasStarted).mp (by decide)
  have hreset := not_resets_run (manualFree_of_all (s := Sys.jobsFailed) (by decide))
    (hrun₂.append hrun₃) (by decide)
  obtain ⟨⟨b, hrow, hst⟩, _⟩ := cancellation_final (B := 9)
    (by intro j C h; obtain ⟨row, hrow, _⟩ := h; cases hrow) hrun₀ (b := _) rfl (by rfl)
    (by rfl) (step_of_play (by rfl)) .nil (by rfl) (step_of_play (by rfl)) hrun₂ hrun₃
    ⟨by decide, fun k e hk _ => by simpa [Proc.withdraws] using hbefore k _ hk,
      fun k r b hk _ => by simpa [Proc.withdraws] using hbefore k _ hk, by decide,
      fun p hp j _ => hreset p hp j,
      fun k e hk _ => by simpa [Proc.hasStarted] using hstart k _ hk⟩
  rw [hrow, Option.map_some, hst]

/-- Job 7 has completed and job 8 runs its handler. -/
def halfDoneActions : List Action :=
  submitBatchActions 2 (by decide)
    ++ .start 1 (.claim 5 none none) :: Action.runs 1 { now := 0, pick := some 7, fresh := 100 } 20
    ++ .start 2 (.claim 6 none none) :: Action.runs 2 { now := 0, pick := some 8, fresh := 101 } 11

/-- The handler of job 8 fails; the job is requeued, claimed again and completes. -/
def survivingActions : List Action :=
  Action.runs 2 { now := 0, handler := .error "" } 9 ++ [.wait 1, .start 4 (.claim 5 none none)]
    ++ Action.runs 4 { now := 1, pick := some 8, fresh := 102 } 23

/-- The cancellation of a processing batch has answered 200; then a job of the
batch begins an attempt, the `batch.completed` branch is executed, and the batch
ends `completed`. -/
theorem cancelled_batch_completes :
    ∃ tr₀ t tr₁ s₁ tr₂ s c, SysRun Config.small (Sys.atRest 0 (Db.small 2 [])) tr₀ t ∧
      (t.db.batches.lookup 9).map (·.status) = some .processing ∧
      SysRun Config.small t tr₁ s₁ ∧ s₁.proc 3 = some (.cancel c) ∧ c.batchId = 9 ∧
      c.pc = .replied (.success 200) ∧ SysRun Config.small s₁ tr₂ s ∧
      (∀ p ∈ tr₂, p.2.rejected Config.small p.1 = false ∧ p.2.manual = false) ∧
      (∃ p ∈ tr₂, p.2.startsAttempt p.1 9 = true) ∧
      (∃ p ∈ tr₂, p.2.completesBatch p.1 9 = true) ∧
      (s.db.batches.lookup 9).map (·.status) = some .completed := by
  refine ⟨_, _, _, _, _, _, _, run_of_play _ _ halfDoneActions (by rfl), rfl,
    run_of_play _ _ (.start 3 (.cancel 1 9) :: Action.runs 3 { now := 0 } 5) (by rfl), rfl, rfl,
    rfl, run_of_play _ _ survivingActions (by rfl), by decide, by decide, by decide, rfl⟩

end JobScheduler
