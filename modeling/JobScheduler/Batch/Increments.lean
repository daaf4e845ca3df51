/-
  JobScheduler.Batch.Increments
  ─────────────────────────────
  The increment of `updateBatchProgress` that the run of a job performs.  A run
  that has completed or dead-lettered its job owes one increment until it has
  executed it; attempts that fail and are retried owe none.  One step turns a job
  into a counted one exactly when it is that increment.
-/
import JobScheduler.Batch.Rows

namespace JobScheduler

open Relational

/-! ## §1. Owing an increment. -/

/-- The job status in which a run performs the increment. -/
def BatchResult.status : BatchResult → JobStatus
  | .completed => .completed
  | .failed => .deadLetter

/-- The increment the call performs later, if its job is in a batch. -/
def ExecPc.owed : ExecPc → Option BatchResult
  | .executionCompleted _ | .unblock => some .completed
  | .log .succeeded | .log (.released _ _) => some .completed
  | .publish .completed | .publish (.released _ _) => some .completed
  | .notify .completed | .notify (.released _ _) => some .completed
  | .insertDeadLetter _ | .log (.movedToDlq _) | .log (.failureSummary _) => some .failed
  | .publish (.deadLettered _) | .notify (.deadLettered _) => some .failed
  | .batchProgress result => some result
  | _ => none

/-- A call that owes the batch a result has reached the stage of that result. -/
theorem ExecPc.owed_stage {pc : ExecPc} {result : BatchResult} (h : pc.owed = some result) :
    pc.stage = result.stage := by
  unfold ExecPc.owed at h
  split at h <;> cases h <;> rfl

theorem BatchResult.stage_ne_ended (result : BatchResult) : result.stage ≠ .ended := by
  cases result <;> simp [BatchResult.stage]

/-- The stage of a result admits exactly the status that the result stands for. -/
theorem BatchResult.stage_allows (result : BatchResult) (st : JobStatus) :
    result.stage.allows st ↔ st = result.status := by
  cases result <;> exact Iff.rfl

/-- The status after which the increment is due is final. -/
theorem BatchResult.status_terminal (result : BatchResult) : result.status.terminal = true := by
  cases result <;> rfl

/-- Each terminal status is that of one result. -/
theorem JobStatus.terminal_result {st : JobStatus} (h : st.terminal = true) :
    ∃ result : BatchResult, st = result.status := by
  cases st <;> simp only [JobStatus.terminal, Bool.false_eq_true] at h
  · exact ⟨.completed, rfl⟩
  · exact ⟨.failed, rfl⟩

section
variable {env : Env} {e : Exec} {db : Db} {result : BatchResult} {B : UUID} {pc pc' : ExecPc}

/-- A call that owes an increment owes it until it executes it. -/
theorem Exec.Flow.owed (hf : Exec.Flow env e db pc pc') (h : pc.owed = some result)
    (hb : e.job.batchId = some B) : pc = .batchProgress result ∨ pc'.owed = some result := by
  cases hf with
  | unfinished | finished => cases h; exact .inl rfl
  | published site => right; cases site <;> exact h
  | logged site => right; cases site <;> exact h
  | stored | unblocks | buried | countsFailed => exact .inr h
  | looped _ hpc | counts _ hpc => obtain rfl | ⟨_, _, rfl⟩ := hpc <;> exact .inr h
  | uncounted _ _ hnone | uncountedFailed _ hnone => rw [hb] at hnone; cases hnone
  | _ => cases h

/-- A call starts to owe an increment with the UPDATE that ends the run of its job. -/
theorem Exec.Flow.owed_before (hf : Exec.Flow env e db pc pc') (h : pc'.owed = some result) :
    (pc.owed = some result ∧ pc ≠ .batchProgress result) ∨ pc.stage = .running ∨
      pc.stage = .caught := by
  cases hf with
  | completed | returned => exact .inr (.inl rfl)
  | deadLettered => exact .inr (.inr rfl)
  | published site => cases site <;> exact .inl ⟨h, by simp⟩
  | logged site => cases site <;> exact .inl ⟨h, by simp⟩
  | stored | unblocks | buried | countsFailed => exact .inl ⟨h, by simp⟩
  | looped _ hpc | counts _ hpc => obtain rfl | ⟨_, _, rfl⟩ := hpc <;> exact .inl ⟨h, by simp⟩
  | _ => cases h

/-- A result is owed from the branch that decides it, and until it is counted. -/
theorem Exec.owed_before (h : (e.next env db).pc.owed = some result) :
    (e.pc.owed = some result ∧ e.pc ≠ .batchProgress result) ∨ e.stage = .running ∨
      e.stage = .caught :=
  (e.flow env db).owed_before h

end

/-! ## §2. Counted jobs. -/

/-- The run of `j` has ended with `result` and owes no increment any more. -/
def Counted (s : Sys) (result : BatchResult) (j : UUID) : Prop :=
  s.db.statusOf j = some result.status ∧
    ∀ k e, s.proc k = some (.exec e) → e.jobId = j → e.pc.owed ≠ some result

/-- The action is the increment of a run of `j`. -/
def Action.increments (s : Sys) (result : BatchResult) (j : UUID) (a : Action) : Bool :=
  a.ofExec s (fun _ e => (match e.pc with
    | .batchProgress r => decide (r = result)
    | _ => false) && decide (e.jobId = j))

/-- An increment is the UPDATE of the counters by the call of that job. -/
theorem increments_iff {s : Sys} {result : BatchResult} {j : UUID} {a : Action} :
    a.increments s result j = true ↔
      ∃ k env e, a = .run k env ∧ s.proc k = some (.exec e) ∧ e.pc = .batchProgress result ∧
        e.jobId = j := by
  unfold Action.increments
  rw [ofExec_iff]
  constructor
  · rintro ⟨k, env, e, ha, hk, hf⟩
    obtain ⟨hpc, hj⟩ := Bool.and_eq_true_iff.mp hf
    split at hpc
    · rename_i r hr
      exact ⟨k, env, e, ha, hk, by rw [hr, of_decide_eq_true hpc], of_decide_eq_true hj⟩
    · cases hpc
  · rintro ⟨k, env, e, ha, hk, hpc, hj⟩
    exact ⟨k, env, e, ha, hk, by simp [hpc, hj]⟩

section
variable {cfg : Config} {s s' : Sys} {a : Action} {j B : UUID} {result : BatchResult}

/-- A job is not counted before its increment. -/
theorem not_counted_of_increments (ha : a.increments s result j = true) : ¬ Counted s result j := by
  obtain ⟨k, _, e, _, hk, hpc, hj⟩ := increments_iff.mp ha
  intro hc
  exact hc.2 k e hk hj (by rw [hpc]; rfl)

/-- A run that owes an increment has its job in the status that goes with it. -/
theorem Activations.owed_status {k : Nat} {e : Exec} (hA : Activations j s)
    (hk : s.proc k = some (.exec e)) (hj : e.jobId = j) (ho : e.pc.owed = some result) :
    s.db.statusOf j = some result.status := by
  have hstage : e.stage = result.stage := ExecPc.owed_stage ho
  obtain ⟨old, hold, hallow⟩ := hA.row k e hk hj (hstage ▸ result.stage_ne_ended)
  rw [hstage, result.stage_allows] at hallow
  simp [Db.statusOf, hold, hallow]

/-- The action resets `j` although its run has ended or is under way. -/
def Action.upsets (s : Sys) (j : UUID) (a : Action) : Bool :=
  a.resetsLive s j || a.resets s j && (s.db.statusOf j).any JobStatus.terminal

theorem Action.not_upsets (hr : a.resets s j = false) : a.upsets s j = false := by
  simp [Action.upsets, Action.resetsLive, hr]

theorem Action.not_resetsLive_of_upsets (hr : a.upsets s j = false) : a.resetsLive s j = false :=
  (Bool.or_eq_false_iff.mp hr).1

/-- A job whose run has ended is not reset. -/
theorem not_resets_of_ended (hr : a.upsets s j = false)
    (hst : s.db.statusOf j = some result.status) : a.resets s j = false := by
  have := (Bool.or_eq_false_iff.mp hr).2
  simpa [hst, result.status_terminal] using this

/-- **A counted job stays counted.** -/
theorem Counted.stays (hP : Pending s) (hS : Steady j s) (hr : a.upsets s j = false)
    (hacc : a.rejected cfg s = false) (h : step cfg s a = some s') (hc : Counted s result j) :
    Counted s' result j := by
  refine ⟨hS.terminal_stays hP (not_resets_of_ended hr hc.1) h result.status_terminal hc.1, ?_⟩
  intro k e' hk hj ho
  cases exec_origin h hk with
  | idle hk₀ _ => exact hc.2 k e' hk₀ hj ho
  | committed _ _ _ _ _ _ _ _ he => subst he; cases ho
  | stepped env e ha hk₀ hs =>
      subst ha
      have hej : e.jobId = j := (Exec.step_params hs).1 ▸ hj
      obtain ⟨_, _, rfl⟩ := Exec.step_accepted hk₀ hacc hs
      rcases Exec.owed_before ho with ⟨ho₀, _⟩ | hg | hg
      · exact hc.2 k e hk₀ hej ho₀
      · -- the handler was still running: the job was not finished
        obtain ⟨old, hold, hallow⟩ := hS.row k e hk₀ hej (by rw [hg]; simp)
        rw [hg] at hallow
        have hst := hc.1
        rw [Db.statusOf, hold, Option.map_some, show old.status = .running from hallow] at hst
        cases result <;> cases hst
      · have hst := hc.1
        rw [hS.caught k e hk₀ hej hg] at hst
        cases result <;> cases hst

/-- **The increment counts the job.** -/
theorem Steady.increments_counts (hP : Pending s) (hS : Steady j s) (hr : a.upsets s j = false)
    (hacc : a.rejected cfg s = false) (ha : a.increments s result j = true)
    (h : step cfg s a = some s') : Counted s' result j := by
  obtain ⟨k, env, e, rfl, hk, hpc, hj⟩ := increments_iff.mp ha
  have ho : e.pc.owed = some result := by rw [hpc]; rfl
  have hlive : ∀ f : Exec, f.pc.owed = some result → f.stage ≠ .ended := by
    intro f hf
    rw [show f.stage = result.stage from ExecPc.owed_stage hf]
    exact result.stage_ne_ended
  have hst : s.db.statusOf j = some result.status := hS.toActivations.owed_status hk hj ho
  refine ⟨hS.terminal_stays hP (not_resets_of_ended hr hst) h result.status_terminal hst, ?_⟩
  intro l f' hl hfj hfo
  cases exec_origin h hl with
  | committed _ _ _ _ _ _ _ _ he => subst he; cases hfo
  | idle hl₀ hne =>
      have hkl := hS.unique k l e f' hk hl₀ hj hfj (hlive e ho) (hlive f' hfo)
      exact hne env (by rw [hkl])
  | stepped env' f ha' hl₀ hs =>
      cases ha'
      rw [hk] at hl₀
      cases hl₀
      obtain ⟨_, _, rfl⟩ := Exec.step_accepted hk hacc hs
      rcases Exec.owed_before hfo with ⟨_, hne⟩ | hg | hg
      · exact hne hpc
      · have hstage : e.stage = result.stage := ExecPc.owed_stage ho
        rw [hg] at hstage
        cases result <;> cases hstage
      · have hstage : e.stage = result.stage := ExecPc.owed_stage ho
        rw [hg] at hstage
        cases result <;> cases hstage

/-- **Only the increment counts a job.** -/
theorem Counted.origin (hD : Defined s) (hI : InsertsPending s) (hacc : a.rejected cfg s = false)
    (hb : ∀ row, s.db.jobs.lookup j = some row → row.batchId = some B)
    (h : step cfg s a = some s') (hc : Counted s' result j) :
    Counted s result j ∨ a.increments s result j = true := by
  -- a run that owes the increment before the step executes it now
  have hpaid : ∀ k e, s.proc k = some (.exec e) → e.jobId = j → e.pc.owed = some result →
      a.increments s result j = true := by
    intro k e hk hj ho
    obtain ⟨row, hrow, hdef⟩ := hD k e hk
    have hbatch : e.job.batchId = some B := hdef.batchId.symm.trans (hb row (hj ▸ hrow))
    rcases exec_next h hk with ⟨hk', _⟩ | ⟨env, e', rfl, hk', hs⟩
    · exact absurd ho (hc.2 k e hk' hj)
    · obtain ⟨_, _, rfl⟩ := Exec.step_accepted hk hacc hs
      rcases (e.flow env s.db).owed ho hbatch with hpc | ho'
      · exact increments_iff.mpr ⟨k, env, e, rfl, hk, hpc, hj⟩
      · exact absurd ho' (hc.2 k _ hk' ((Exec.next_params env e s.db).1.trans hj))
  by_cases hst : s.db.statusOf j = some result.status
  · by_cases hnone : ∀ k e, s.proc k = some (.exec e) → e.jobId = j → e.pc.owed ≠ some result
    · exact .inl ⟨hst, hnone⟩
    · push Not at hnone
      obtain ⟨k, e, hk, hj, ho⟩ := hnone
      exact .inr (hpaid k e hk hj ho)
  · -- the run has just ended: it owes the increment
    exfalso
    obtain ⟨new, hnew, hns⟩ := Option.map_eq_some_iff.mp hc.1
    rcases step_row h j with heq | ⟨pid, env, p, rfl, hp, _, hch⟩
    · exact hst (by simpa [Db.statusOf, heq] using hc.1)
    have howes : ∀ e : Exec, p = .exec e → e.jobId = j → (e.next env s.db).pc.owed ≠ some result := by
      rintro e rfl hj
      exact hc.2 pid _ (exec_accepted h hp hacc).2 ((Exec.next_params env e s.db).1.trans hj)
    rw [hnew] at hch
    generalize hold : s.db.jobs.lookup j = old at hch
    cases hch with
    | same => exact hst (by simp [Db.statusOf, hold, hns])
    | completed e o r hpc hej =>
        have : result = .completed := by cases result <;> first | rfl | cases hns
        exact howes e rfl hej (by simp [Exec.next, hpc, Exec.goto, ExecPc.owed, this])
    | deadLettered e o error hpc hej =>
        have : result = .failed := by cases result <;> first | rfl | cases hns
        exact howes e rfl hej (by simp [Exec.next, hpc, Exec.goto, ExecPc.owed, this])
    | submitted r item rest =>
        have hpend := hI pid r hp
        rw [show r.initialStatus = result.status from hns] at hpend
        cases result <;> cases hpend
    | released e o hpc hw =>
        simp only [Job.released] at hns
        split at hns <;> cases result <;> cases hns
    | claimed | running | requeued | retried | replayed | recreated | cancelled | flipped
    | dispatched => cases result <;> cases hns

end

end JobScheduler
