/-
  JobScheduler.Batch.Rerun
  ────────────────────────
  The counters of a batch under manual re-runs.  `updateBatchProgress` only ever
  increments, and neither POST /jobs/:id/retry nor POST /dlq/:id/replay takes an
  increment back: a job that has been counted and is run again is counted again.
  The counters stay right as long as a reset hits only jobs that have not been
  counted and that no call of `executeJob` has in hands, which is what a job
  failed by a batch cancellation is.
-/
import JobScheduler.Batch.Cancel

namespace JobScheduler

open Relational Transition

/-! ## §1. The callback. -/

/-- The action sends the `batch.completed` callback of batch `B`. -/
def Action.callsBack (s : Sys) (B : UUID) (a : Action) : Bool :=
  a.ofExec s (fun _ e => (match e.pc with
    | .callback _ _ => true
    | _ => false) && decide (e.job.batchId = some B))

/-- How often the callback of batch `B` has been sent. -/
def callbacks (tr : List (Sys × Action)) (B : UUID) : Nat :=
  tr.countP (fun p => p.2.callsBack p.1 B)

theorem callbacks_snoc (tr : List (Sys × Action)) (s : Sys) (a : Action) (B : UUID) :
    callbacks (tr ++ [(s, a)]) B = callbacks tr B + if a.callsBack s B then 1 else 0 := by
  simp [callbacks, List.countP_cons]

theorem callsBack_iff {s : Sys} {B : UUID} {a : Action} :
    a.callsBack s B = true ↔
      ∃ k env e result batch, a = .run k env ∧ s.proc k = some (.exec e) ∧
        e.pc = .callback result batch ∧ e.job.batchId = some B := by
  unfold Action.callsBack
  rw [ofExec_iff]
  constructor
  · rintro ⟨k, env, e, ha, hk, hf⟩
    obtain ⟨hpc, hb⟩ := Bool.and_eq_true_iff.mp hf
    split at hpc
    · rename_i result batch hcall
      exact ⟨k, env, e, result, batch, ha, hk, hcall, of_decide_eq_true hb⟩
    · cases hpc
  · rintro ⟨k, env, e, result, batch, ha, hk, hpc, hb⟩
    exact ⟨k, env, e, ha, hk, by simp [hpc, hb]⟩

/-- Entries into the finalisation branch of batch `B` against callbacks, as long as
there is at most one. -/
structure Announced (B : UUID) (tr : List (Sys × Action)) (s : Sys) : Prop where
  quiet : entries tr B = 0 → callbacks tr B = 0 ∧
    ∀ k e, s.proc k = some (.exec e) → e.job.batchId = some B → e.pc.finalising = false
  unique : ∀ k l e f, s.proc k = some (.exec e) → s.proc l = some (.exec f) →
    e.job.batchId = some B → f.job.batchId = some B → e.pc.finalising = true →
    f.pc.finalising = true → k = l
  /-- The run in the branch has not sent the callback yet. -/
  pending : ∀ k e, s.proc k = some (.exec e) → e.job.batchId = some B →
    e.pc.finalising = true → callbacks tr B = 0
  once : callbacks tr B ≤ 1

section
variable {cfg : Config} {s s' : Sys} {a : Action} {tr : List (Sys × Action)} {B : UUID}

/-- A run in the branch was there before the step, or the step has entered it. -/
theorem finalising_origin {k : Nat} {e' : Exec} (h : step cfg s a = some s')
    (hk : s'.proc k = some (.exec e')) (hb : e'.job.batchId = some B)
    (hf : e'.pc.finalising = true) :
    (∃ e, s.proc k = some (.exec e) ∧ e.job.batchId = some B ∧ e.pc.finalising = true) ∨
      (a.finalises s B = true ∧ ∃ env, a = .run k env) := by
  cases exec_origin h hk with
  | committed _ _ _ _ _ _ _ _ he => subst he; cases hf
  | idle hk₀ _ => exact .inl ⟨e', hk₀, hb, hf⟩
  | stepped env e ha hk₀ hs =>
      have hb₀ : e.job.batchId = some B := (Exec.step_params hs).2.1 ▸ hb
      rcases Exec.step_finalising hs hf with hf₀ | ⟨_, result, batch, hpc, hprog, hfin⟩
      · exact .inl ⟨e, hk₀, hb₀, hf₀⟩
      · unfold Exec.progressed at hprog
        rw [hb₀, Option.bind_some] at hprog
        obtain ⟨b, hrow, rfl⟩ := Option.map_eq_some_iff.mp hprog
        exact .inr ⟨finalises_iff.mpr ⟨k, env, e, result, b, ha, hk₀, hpc, hb₀, hrow, hfin⟩, env, ha⟩

/-- The callback leaves the branch. -/
theorem callsBack_leaves (h : step cfg s a = some s') (hc : a.callsBack s B = true) :
    ∃ k e, s.proc k = some (.exec e) ∧ e.job.batchId = some B ∧ e.pc.finalising = true ∧
      ∀ e', s'.proc k = some (.exec e') → e'.pc.finalising = false := by
  obtain ⟨k, env, e, result, batch, rfl, hk, hpc, hb⟩ := callsBack_iff.mp hc
  refine ⟨k, e, hk, hb, by rw [hpc]; rfl, fun e' hk' => ?_⟩
  rcases exec_next h hk with ⟨_, hne⟩ | ⟨_, f, he, hk₁, hs⟩
  · exact absurd rfl (hne env)
  · cases he
    rw [hk'] at hk₁
    cases hk₁
    obtain ⟨_, ⟨_, _, rfl⟩ | ⟨_, _, rfl⟩⟩ := Exec.step_cases hs
    · simp [Exec.goto, Exec.onThrow, hpc, ExecPc.finalising]
    · simp [Exec.next, hpc, Exec.goto, ExecPc.finalising]

/-- A run sends the callback from within the branch. -/
theorem Announced.not_callsBack (hN : Announced B tr s) (h₀ : entries tr B = 0) :
    a.callsBack s B = false := by
  rw [Bool.eq_false_iff, ne_eq, callsBack_iff]
  rintro ⟨k, _, e, result, batch, _, hk, hpc, hb⟩
  have hno := (hN.quiet h₀).2 k e hk hb
  rw [hpc] at hno
  cases hno

/-- **The callback follows an entry.** -/
theorem announced_step (hN : Announced B tr s) (hle : entries (tr ++ [(s, a)]) B ≤ 1)
    (h : step cfg s a = some s') : Announced B (tr ++ [(s, a)]) s' := by
  rw [entries_snoc] at hle
  -- the branch is empty when it is entered
  have hfirst : a.finalises s B = true → entries tr B = 0 := by
    intro hf
    rw [hf, if_pos rfl] at hle
    omega
  have hclash : ∀ k e, s.proc k = some (.exec e) → e.job.batchId = some B →
      e.pc.finalising = true → a.finalises s B = true → False := by
    intro k e hk hb hf hnew
    rw [(hN.quiet (hfirst hnew)).2 k e hk hb] at hf
    cases hf
  refine ⟨?_, ?_, ?_, ?_⟩
  · intro h₀
    rw [entries_snoc] at h₀
    have hnone : entries tr B = 0 := by omega
    refine ⟨by simp [callbacks_snoc, (hN.quiet hnone).1, hN.not_callsBack hnone], ?_⟩
    intro k e' hk hb
    rw [Bool.eq_false_iff]
    intro hf
    rcases finalising_origin h hk hb hf with ⟨e, hk₀, hb₀, hf₀⟩ | ⟨hnew, _⟩
    · rw [(hN.quiet hnone).2 k e hk₀ hb₀] at hf₀
      cases hf₀
    · rw [hnew, if_pos rfl] at h₀
      omega
  · intro k l e' f' hk hl hbk hbl hfk hfl
    rcases finalising_origin h hk hbk hfk with ⟨e, hk₀, hb₀, hf₀⟩ | ⟨hnew, env, ha⟩ <;>
      rcases finalising_origin h hl hbl hfl with ⟨f, hl₀, hc₀, hg₀⟩ | ⟨hnew', env', ha'⟩
    · exact hN.unique k l e f hk₀ hl₀ hb₀ hc₀ hf₀ hg₀
    -- one of them was there before the only entry
    · exact (hclash k e hk₀ hb₀ hf₀ hnew').elim
    · exact (hclash l f hl₀ hc₀ hg₀ hnew).elim
    · rw [ha] at ha'
      cases ha'
      rfl
  · intro k e' hk hb hf
    rcases finalising_origin h hk hb hf with ⟨e, hk₀, hb₀, hf₀⟩ | ⟨hnew, _⟩
    · have hno : a.callsBack s B = false := by
        rw [Bool.eq_false_iff]
        intro hc
        -- the run that sends the callback leaves the branch by it
        obtain ⟨l, f, hl, hfb, hff, hleft⟩ := callsBack_leaves h hc
        obtain rfl := hN.unique l k f e hl hk₀ hfb hb₀ hff hf₀
        rw [hleft e' hk] at hf
        cases hf
      simp [callbacks_snoc, hno, hN.pending k e hk₀ hb₀ hf₀]
    · simp [callbacks_snoc, hN.not_callsBack (hfirst hnew), (hN.quiet (hfirst hnew)).1]
  · rw [callbacks_snoc]
    cases hc : a.callsBack s B with
    | false => simpa using hN.once
    | true =>
        obtain ⟨k, _, e, result, batch, _, hk, hpc, hb⟩ := callsBack_iff.mp hc
        have h₀ := hN.pending k e hk hb (by rw [hpc]; rfl)
        simp [h₀]

/-! ## §2. Counters along a run. -/

/-- One step keeps the account, cancelled or not. -/
theorem account_step {k : Nat} {r : Submit} {b b₀ : Batch} (hC : Consistent tr s)
    (hk : s.proc k = some (.submit r)) (hb : r.batch = some (B, b₀)) (hA : Account B tr s r b)
    (hr : ∀ j, s.db.InBatch B j → a.upsets s j = false) (hacc : a.rejected cfg s = false)
    (h : step cfg s a = some s') :
    ∃ r' b', s'.proc k = some (.submit r') ∧ Account B (tr ++ [(s, a)]) s' r' b' := by
  obtain ⟨r', hk', _, hR'⟩ := roster_step hC.batches hk hb hA.roster h
  -- an increment, or a step that keeps the counters
  by_cases hi : ∃ j result, s.db.InBatch B j ∧ a.increments s result j = true
  · obtain ⟨j, result, hj, hi⟩ := hi
    obtain ⟨l, env, e, rfl, hl, hpc, rfl⟩ := increments_iff.mp hi
    exact ⟨r', _, hk', account_increment hC hA hR' hr hacc hl hpc hj h⟩
  · have hno : ∀ j result, s.db.InBatch B j → a.increments s result j = false := by
      intro j result hj
      rw [Bool.eq_false_iff]
      exact fun hi' => hi ⟨j, result, hj, hi'⟩
    obtain ⟨b', hrow, htotal, hcompleted, hfailed⟩ := batch_counters_kept hC hA.row hno h
    exact ⟨r', b', hk', account_other hC hA hR' hr hacc hno hrow htotal hcompleted hfailed h⟩

/-- The batch is entered into finalisation at most once. -/
theorem Account.entries_le {r : Submit} {b : Batch} (hA : Account B tr s r b) :
    entries tr B ≤ 1 := by
  rw [hA.entered]
  split <;> omega

/-- A batch that is not there yet has sent no callback. -/
theorem callsBack_batch (hG : Grounded s) (hc : a.callsBack s B = true) : B ∈ s.db.batches := by
  obtain ⟨k, _, e, _, _, _, hk, _, hb⟩ := callsBack_iff.mp hc
  exact hG.batches.jobs _ B (hG.defined.inBatch hk hb)

end

/-- `SELECT COUNT(*) FROM jobs WHERE batch_id = B AND status = st`. -/
def Db.batchCount (db : Db) (B : UUID) (st : JobStatus) : Nat :=
  db.jobs.count (fun _ row => decide (row.batchId = some B) && decide (row.status = st))

/-- In every run without an upset of its jobs the account of the batch holds. -/
theorem rerun_run {cfg : Config} {clock : Timestamp} {db : Db} {s : Sys}
    {tr : List (Sys × Action)} {B : UUID} (hfk : ∀ j C, db.InBatch C j → C ∈ db.batches)
    (hrun : SysRun cfg (Sys.atRest clock db) tr s)
    (hacc : ∀ p ∈ tr, p.2.rejected cfg p.1 = false)
    (hreset : ∀ p ∈ tr, ∀ j, p.1.db.InBatch B j → p.2.upsets p.1 j = false) :
    Consistent tr s ∧ (B ∉ s.db.batches → callbacks tr B = 0) ∧
      ∀ k r b₀, s.proc k = some (.submit r) → r.batch = some (B, b₀) →
        ∃ b, Account B tr s r b ∧ Announced B tr s := by
  induction hrun with
  | nil => exact ⟨consistent_atRest clock db hfk, fun _ => rfl, by intro k r b₀ h; simp at h⟩
  | @snoc tr s s' a _ hs ih =>
      obtain ⟨hC, habsent, hL⟩ := ih (fun p hp => hacc p (List.mem_append_left _ hp))
        (fun p hp => hreset p (List.mem_append_left _ hp))
      have hlast : (s, a) ∈ tr ++ [(s, a)] := List.mem_append_right _ List.mem_cons_self
      have hnocall : B ∉ s.db.batches → callbacks (tr ++ [(s, a)]) B = 0 := by
        intro hB
        have hc : a.callsBack s B = false := by
          rw [Bool.eq_false_iff]
          exact fun hc => hB (callsBack_batch hC.toGrounded hc)
        simp [callbacks_snoc, habsent hB, hc]
      refine ⟨consistent_step hC hs, fun hB => hnocall (fun hin => hB (mem_batches_stays hs hin)), ?_⟩
      intro k r' b₀ hk hb
      rcases batch_origin hs hk hb with ⟨r, hk₀, hb₀⟩ | ⟨env, r, _, hk₀, hpc, hfresh, rfl, hdb, ht⟩
      · obtain ⟨b, hA, hN⟩ := hL k r b₀ hk₀ hb₀
        obtain ⟨q, b', hq, hA'⟩ := account_step hC hk₀ hb₀ hA (hreset (s, a) hlast)
          (hacc (s, a) hlast) hs
        rw [hk] at hq
        cases hq
        exact ⟨b', hA', announced_step hN hA'.entries_le hs⟩
      · -- no run of a job of the new batch exists
        have hA' : Account B (tr ++ [(s, a)]) s' r' (r.batchRow env.now) :=
          account_created hC hk₀ hpc hfresh hdb ht
        have hno : ∀ l e, s'.proc l = some (.exec e) → e.job.batchId ≠ some B := by
          intro l e hl hbe
          exact not_inBatch_of_fresh hC.batches hfresh hdb _ ((consistent_step hC hs).defined.inBatch hl hbe)
        refine ⟨_, hA', fun _ => ⟨hnocall hfresh, fun l e hl hbe => absurd hbe (hno l e hl)⟩,
          fun l _ e _ hl _ hbe => absurd hbe (hno l e hl),
          fun l e hl hbe => absurd hbe (hno l e hl), ?_⟩
        rw [hnocall hfresh]
        omega

/-- **The counters survive a manual re-run of jobs that are not counted.**  In every
run of the whole system that rejects no statement of `executeJob`, with
cancellations of the batch, manual retries and DLQ replays, as long as no reset
hits a job of batch `B` that is completed, dead-lettered or in the hands of a call
of `executeJob`: the counters never exceed `total_jobs`; they are the numbers of
completed and of dead-lettered jobs whenever no call is in progress; and the
callback is sent at most once. -/
theorem counters_survive_rerun {cfg : Config} {clock : Timestamp} {db : Db} {s : Sys}
    {tr : List (Sys × Action)} {k : Nat} {r : Submit} {B : UUID} {b₀ : Batch}
    (hfk : ∀ j C, db.InBatch C j → C ∈ db.batches)
    (hrun : SysRun cfg (Sys.atRest clock db) tr s)
    (hacc : ∀ p ∈ tr, p.2.rejected cfg p.1 = false)
    (hreset : ∀ p ∈ tr, ∀ j, p.1.db.InBatch B j → p.2.upsets p.1 j = false)
    (hk : s.proc k = some (.submit r)) (hb : r.batch = some (B, b₀)) :
    ∃ b, s.db.batches.lookup B = some b ∧ b.completedJobs + b.failedJobs ≤ b.totalJobs ∧
      ((∀ l e, s.proc l = some (.exec e) → s.db.InBatch B e.jobId → e.pc = .returned) →
        b.completedJobs = s.db.batchCount B .completed ∧
        b.failedJobs = s.db.batchCount B .deadLetter) ∧
      callbacks tr B ≤ 1 := by
  obtain ⟨_, _, hall⟩ := rerun_run hfk hrun hacc hreset
  obtain ⟨b, hA, hN⟩ := hall k r b₀ hk hb
  have hcompleted := hA.counters .completed
  have hfailed := hA.counters .failed
  simp only [Batch.counter] at hcompleted hfailed
  refine ⟨b, hA.row, ?_, ?_, hN.once⟩
  -- counted jobs are inserted jobs, and there are at most `total_jobs` of these
  · have hle := hA.tracked.sum_le
    have hroom := hA.roster.room
    omega
  · intro hret
    -- nobody owes an increment: a job is counted as soon as its status is final
    have hcount : ∀ result, tally tr s.db B result = s.db.batchCount B result.status := by
      intro result
      refine Table.count_congr (fun j => ?_)
      rw [hA.tracked.mem_tally]
      simp only [Table.mem_keysWhere, Bool.and_eq_true, decide_eq_true_eq]
      constructor
      · rintro ⟨⟨row, hrow, hbr⟩, hc⟩
        exact ⟨row, hrow, hbr, by simpa [Db.statusOf, hrow] using hc.1⟩
      · rintro ⟨row, hrow, hbr, hst⟩
        refine ⟨⟨row, hrow, hbr⟩, by simp [Db.statusOf, hrow, hst], ?_⟩
        intro l e hl hej ho
        rw [hret l e hl ⟨row, hej ▸ hrow, hbr⟩] at ho
        cases ho
    exact ⟨hcompleted.trans (hcount .completed), hfailed.trans (hcount .failed)⟩

/-! ## §3. Re-runs of one batch. -/

/-- The job that the action resets. -/
def Action.resetTarget (s : Sys) : Action → Option UUID
  | .run pid _ =>
      match s.proc pid with
      | some (.retry r) => some r.jobId
      | some (.replay r) => (match r.pc with
          | .update j => some j
          | _ => none)
      | _ => none
  | _ => none

/-- A reset says which job it resets. -/
theorem resetTarget_of_resets {s : Sys} {a : Action} {j : UUID} (h : a.resets s j = true) :
    a.resetTarget s = some j := by
  cases a with
  | run pid env =>
      obtain ⟨p, hp, hr⟩ := (Option.any_eq_true _ _).mp h
      simp only [Action.resetTarget, hp]
      cases p with
      | retry r =>
          simp only [Proc.resets] at hr
          split at hr
          · exact congrArg some (of_decide_eq_true hr)
          · cases hr
      | replay r =>
          simp only [Proc.resets] at hr
          split at hr
          · rename_i i hpc
            simpa [hpc] using hr
          · cases hr
      | _ => cases hr
  | _ => cases h

/-- Only the job that an action resets can be upset by it. -/
theorem not_upsets_of_target {s : Sys} {a : Action}
    (h : (a.resetTarget s).all (fun j => !a.upsets s j) = true) (j : UUID) :
    a.upsets s j = false := by
  cases hr : a.resets s j with
  | false => exact Action.not_upsets hr
  | true => simpa [resetTarget_of_resets hr] using h

/-- Batch 9 is cancelled before any of its jobs starts; job 7 is retried by hand
and completes. -/
def rerunCancelledActions : List Action :=
  submitBatchActions 1 Nat.one_pos
    ++ .start 1 (.cancel 1 9) :: Action.runs 1 { now := 0 } 5
    ++ .start 2 (.retry 1 7) :: Action.runs 2 { now := 0 } 5
    ++ .start 3 (.claim 5 none none) :: Action.runs 3 { now := 0, pick := some 7, fresh := 100 } 20

theorem counters_survive_rerun_cancelled :
    ∃ b, (play (step Config.small) (Sys.atRest 0 (Db.small 2 [])) rerunCancelledActions).db.batches.lookup 9
        = some b ∧ b.completedJobs = 1 ∧ b.failedJobs = 0 := by
  have hrun := run_of_play (step Config.small) (Sys.atRest 0 (Db.small 2 []))
    rerunCancelledActions (by rfl)
  have htarget : ∀ p ∈ trace (step Config.small) (Sys.atRest 0 (Db.small 2 [])) rerunCancelledActions,
      (p.2.resetTarget p.1).all (fun j => !p.2.upsets p.1 j) = true := by decide
  obtain ⟨b, hb, _, hcount, _⟩ := counters_survive_rerun (k := 0) (B := 9)
    (by intro j C h; obtain ⟨row, hrow, _⟩ := h; cases hrow) hrun (by decide)
    (fun p hp j _ => not_upsets_of_target (htarget p hp) j) rfl rfl
  obtain ⟨hcompleted, hfailed⟩ := hcount (fun _ _ hl _ => returned_of_settled (by decide) hl)
  exact ⟨b, hb, hcompleted.trans (by decide), hfailed.trans (by decide)⟩

/-- Batch 9 ends with job 7 completed and job 8 dead-lettered; job 8 is retried by
hand and completes as well. -/
def rerunDeadActions : List Action :=
  lastTogetherActions
    ++ .start 3 (.retry 1 8) :: Action.runs 3 { now := 0 } 5
    ++ .start 4 (.claim 5 none none) :: Action.runs 4 { now := 0, pick := some 8, fresh := 102 } 19

/-- The re-run is counted on top of the failure: three of two jobs are counted. -/
theorem rerun_counted_twice :
    ∃ tr s b, SysRun Config.small (Sys.atRest 0 (Db.small 2 [])) tr s ∧
      (∀ p ∈ tr, p.2.rejected Config.small p.1 = false) ∧ s.db.batches.lookup 9 = some b ∧
      b.totalJobs = 2 ∧ b.completedJobs = 2 ∧ b.failedJobs = 1 ∧ entries tr 9 = 2 :=
  ⟨_, _, _, run_of_play (step Config.small) (Sys.atRest 0 (Db.small 2 [])) rerunDeadActions (by rfl),
    by decide, rfl, rfl, rfl, rfl, by decide⟩

end JobScheduler
