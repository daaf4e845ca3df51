/-
  JobScheduler.Submission.Budget
  ──────────────────────────────
  How many attempts a submitted job has.  The executor's `job.max_attempts ||
  policy.max_retries` asks the queue's policy when the row has no number, and the
  schema gives the row one always.  The account of Execution.Attempts is taken here
  for a handler that always fails, with any statement of `executeJob` rejected.  A
  running row has a call that works on it as long as no statement of its own calls is
  rejected: when all calls are over and the budget is spent, the job is dead.
-/
import JobScheduler.Execution.Attempts
import JobScheduler.Execution.Stranding
import JobScheduler.Submission.Inheritance

namespace JobScheduler

open Relational Zod Transition

/-! ## §1. A rejected statement. -/

section
variable {env : Env} {e : Exec} {old : Job} {t : Invocations}

end

/-! ## §2. One step. -/

section
variable {cfg : Config} {s s' : Sys} {j : UUID} {t : Invocations}

end

/-! ## §3. A running attempt. -/

/-- A running job is in the hands of a call. -/
def UnderAttempt (j : UUID) (s : Sys) : Prop :=
  s.db.statusOf j = some .running →
    ∃ k e, s.proc k = some (.exec e) ∧ e.jobId = j ∧ e.working = true

section
variable {cfg : Config} {s s' : Sys} {j : UUID} {k : Nat} {e : Exec} {env : Env} {row : Job}

end

/-! ## §4. Along runs. -/

/-- No invocation of the job's handler succeeds. -/
def AlwaysFails (tr : List (Sys × Action)) (j : UUID) : Prop :=
  ∀ p ∈ tr, p.2.handlerEvent p.1 j ≠ some .succeeded

/-- A handler that always fails has not succeeded. -/
theorem AlwaysFails.succeeded {tr : List (Sys × Action)} {j : UUID} (h : AlwaysFails tr j) :
    (invocations tr j).succeeded = 0 := by
  induction tr using List.reverseRecOn with
  | nil => rfl
  | append_singleton tr p ih =>
      rw [invocations_snoc]
      have hlast := h p (List.mem_append_right _ List.mem_cons_self)
      have hbefore := ih (fun q hq => h q (List.mem_append_left _ hq))
      cases hev : p.2.handlerEvent p.1 j with
      | none => exact hbefore
      | some ev =>
          cases ev with
          | succeeded => exact absurd hev hlast
          | started | failed => exact hbefore

/-- Every call of `executeJob` for job `j` is over. -/
def CallsOver (j : UUID) (s : Sys) : Prop :=
  ∀ l e, s.proc l = some (.exec e) → e.jobId = j → e.stage = .ended

/-- The client is no call of `executeJob` for job `j`, or its call is over. -/
def Proc.overFor (j : UUID) : Proc → Bool
  | .exec e => decide (e.jobId = j → e.stage = .ended)
  | _ => true

theorem callsOver_iff {j : UUID} {s : Sys} :
    s.clients.all (fun _ c => c.proc.overFor j) = true ↔ CallsOver j s := by
  rw [s.clients_all_iff (Proc.overFor j)]
  constructor
  · intro h l e hk hj
    exact of_decide_eq_true (h l _ hk) hj
  · intro h l p hk
    cases p with
    | exec e => exact decide_eq_true (h l e hk)
    | _ => rfl

instance (j : UUID) (s : Sys) : Decidable (CallsOver j s) := decidable_of_iff _ callsOver_iff

/-- No attempt is left: a job without a call is dead. -/
theorem Job.Agrees.buried {row : Job} {t : Invocations} {j : UUID} {s : Sys} (h : row.Agrees t)
    (hrow : s.db.jobs.lookup j = some row) (hU : UnderAttempt j s) (hover : CallsOver j s)
    (hno : t.succeeded = 0) (hspent : row.maxAttempts ≤ t.failed) : row.status = .deadLetter := by
  by_cases hst : row.status.undecided = true
  · obtain ⟨rfl, hlt⟩ := (Job.agrees_undecided hst).mp h
    exact absurd hlt hspent.not_gt
  cases hstatus : row.status with
  | deadLetter => rfl
  | running =>
      obtain ⟨k, e, hk, hj, hw⟩ := hU (by simp [Db.statusOf, hrow, hstatus])
      rw [Exec.working, hover k e hk hj] at hw
      cases hw
  | completed =>
      rw [Job.Agrees, hstatus] at h
      exact absurd h.2.2.1 (by simp [hno])
  | _ => simp [hstatus, JobStatus.undecided] at hst

section
variable {fmt : Formats} {request item : JsonValue} {body : CreateJobBody}

end

/-! ## §6. The budget. -/

/-- The policy of queue 1 allows five retries. -/
def Db.smallFive : Db :=
  { Db.small 1 [] with
    retryPolicies := (∅ : Table UUID RetryPolicy).insert 1 { RetryPolicy.small with maxRetries := 5 } }

/-- What the schema makes of it. -/
def CreateJobBody.immediate (maxAttempts : Nat) : CreateJobBody :=
  { CreateJobBody.oneItem .simulated 0 maxAttempts
      { taskType := .simulated, payload := [], priority := 0, maxAttempts := 3, idempotencyKey := none } with
    type := .immediate, batchJobs := none }

/-- Claim number `n` of job 7 by worker 5, whose handler fails. -/
def failOnceActions (n : Nat) : List Action :=
  .wait 1 :: .start n (.claim 5 none none)
    :: Action.runs n { now := n, pick := some 7, fresh := 100 + n, handler := .error "" } 20

/-- `n` attempts fail, and the call of the last one returns. -/
def failActions (n : Nat) : List Action :=
  (List.range n).flatMap (fun i => failOnceActions (i + 1)) ++ Action.runs n { now := n } 2

/-- User 1 submits the job to queue 1. -/
def postActions (body : CreateJobInput) : List Action :=
  .start 0 (.submit 1 1 body) :: Action.runs 0 { now := 0, fresh := 7 } 5

/-- The job is submitted. -/
def Sys.posted (body : CreateJobInput) : Sys :=
  play (step Config.small) (Sys.atRest 0 Db.smallFive) (postActions body)

/-- The state after `n` failed attempts of the posted job. -/
def Sys.failed (body : CreateJobInput) (n : Nat) : Sys :=
  play (step Config.small) (Sys.posted body) (failActions n)

end JobScheduler
