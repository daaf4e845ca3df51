/-
  JobScheduler.Execution.Attempts
  ───────────────────────────────
  The account of a job's attempts.  The number of an attempt comes from the row
  that the claim returned, the decision to give up from the same snapshot; the
  column `attempts` is written by one statement and read by another call.  What a
  run has started, failed and finished is counted in its steps (`Invocations`) and
  compared with the row, status by status, and with the call that works on it,
  program point by program point.
-/
import JobScheduler.DeadLetter.Rows

namespace JobScheduler

open Relational Transition

/-! ## §1. Counting the handler's invocations. -/

/-- What a statement tells about the handler of its job. -/
inductive HandlerEvent
  | started | failed | succeeded
  deriving DecidableEq

/-- The handler is called when the log of the attempt's start has been written. -/
def Exec.handlerEvent (env : Env) (e : Exec) : Option HandlerEvent :=
  match e.pc with
  | .log .started => some .started
  | .handler => (match env.handler with
      | .ok _ => some .succeeded
      | .error _ => some .failed)
  | _ => none

/-- What an action makes of the handler invocations of the job `j`. -/
def Action.handlerEvent (s : Sys) (j : UUID) : Action → Option HandlerEvent
  | .run pid env =>
      match s.proc pid with
      | some (.exec e) => if e.jobId = j then e.handlerEvent env else none
      | _ => none
  | _ => none

/-- The invocations of a job's handler. -/
@[ext] structure Invocations where
  started : Nat
  failed : Nat
  succeeded : Nat

/-- One event more. -/
def Invocations.after (t : Invocations) : Option HandlerEvent → Invocations
  | none => t
  | some .started => { t with started := t.started + 1 }
  | some .failed => { t with failed := t.failed + 1 }
  | some .succeeded => { t with succeeded := t.succeeded + 1 }

/-- The invocations of the handler of job `j` in the recorded steps. -/
def invocations (tr : List (Sys × Action)) (j : UUID) : Invocations :=
  tr.foldl (fun t p => t.after (p.2.handlerEvent p.1 j)) ⟨0, 0, 0⟩

theorem invocations_snoc (tr : List (Sys × Action)) (s : Sys) (a : Action) (j : UUID) :
    invocations (tr ++ [(s, a)]) j = (invocations tr j).after (a.handlerEvent s j) := by
  simp [invocations, List.foldl_append]

/-- Only a call in the stage `running` tells something. -/
theorem Exec.handlerEvent_stage {env : Env} {e : Exec} (h : e.stage ≠ .running) :
    e.handlerEvent env = none := by
  unfold Exec.handlerEvent
  split
  · rename_i hpc; exact absurd (by rw [Exec.stage, hpc]; rfl) h
  · rename_i hpc; exact absurd (by rw [Exec.stage, hpc]; rfl) h
  · rfl

/-! ## §2. What the row and the call say. -/

/-- No attempt is under way, and none has decided the job. -/
def JobStatus.undecided : JobStatus → Bool
  | .running | .completed | .deadLetter => false
  | _ => true

/-- The row agrees with the invocations. -/
def Job.Agrees (row : Job) (t : Invocations) : Prop :=
  match row.status with
  | .running => t.started ≤ row.attempts ∧ row.attempts ≤ row.maxAttempts
  | .completed => t.started = row.attempts ∧ t.failed + 1 = row.attempts ∧ t.succeeded = 1 ∧
      row.attempts ≤ row.maxAttempts
  | .deadLetter => t = ⟨row.attempts, row.attempts, 0⟩ ∧ row.attempts = row.maxAttempts
  | _ => t = ⟨row.attempts, row.attempts, 0⟩ ∧ row.attempts < row.maxAttempts

/-- A call at the program point that read `n` attempts agrees with the row and the
invocations. -/
def ExecPc.Agrees (n : Nat) (row : Job) (t : Invocations) : ExecPc → Prop
  | .acquire | .setRunning => row.attempts = n
  | .publish .running | .notify .running | .insertExecution | .log .started =>
      row.attempts = n + 1 ∧ t = ⟨n, n, 0⟩
  | .handler => row.attempts = n + 1 ∧ t = ⟨n + 1, n, 0⟩
  | .setCompleted _ => row.attempts = n + 1 ∧ t = ⟨n + 1, n, 1⟩
  | .executionFailed _ | .log (.attemptFailed _) | .selectPolicy _ =>
      row.attempts = n + 1 ∧ t = ⟨n + 1, n + 1, 0⟩
  | .requeue _ _ _ => row.attempts = n + 1 ∧ t = ⟨n + 1, n + 1, 0⟩ ∧ n + 1 < row.maxAttempts
  | .deadLetter _ => row.attempts = n + 1 ∧ t = ⟨n + 1, n + 1, 0⟩ ∧ row.maxAttempts ≤ n + 1
  | .insertDeadLetter _ => row.attempts = n + 1
  | _ => True

/-- The invocations counted so far fit the row and the place where the call stands. -/
def Exec.Agrees (e : Exec) (row : Job) (t : Invocations) : Prop :=
  e.pc.Agrees e.job.attempts row t

/-- Before and between two attempts every attempt so far was started and has failed. -/
theorem Job.agrees_undecided {row : Job} {t : Invocations} (h : row.status.undecided = true) :
    row.Agrees t ↔ t = ⟨row.attempts, row.attempts, 0⟩ ∧ row.attempts < row.maxAttempts := by
  cases hst : row.status <;> simp [hst, JobStatus.undecided] at h <;> simp [Job.Agrees, hst]

/-- A call that is over agrees with everything. -/
theorem ExecPc.agrees_ended {n : Nat} {row : Job} {t : Invocations} {pc : ExecPc}
    (h : pc.stage = .ended) : pc.Agrees n row t := by
  unfold ExecPc.Agrees
  split <;> trivial

/-- In every status the attempts are within the bound. -/
theorem Job.Agrees.le {row : Job} {t : Invocations} (h : row.Agrees t) :
    row.attempts ≤ row.maxAttempts ∧ t.started ≤ row.maxAttempts := by
  unfold Job.Agrees at h
  split at h
  · exact ⟨h.2, h.1.trans h.2⟩
  · exact ⟨h.2.2.2, h.1 ▸ h.2.2.2⟩
  · obtain ⟨rfl, hle⟩ := h
    exact ⟨hle.le, hle.le⟩
  · obtain ⟨rfl, hlt⟩ := h
    exact ⟨hlt.le, hlt.le⟩

/-! ## §3. One statement of the call. -/

/-- The statement writes the row of its job, tells something about the handler or
compares the attempts with their bound. -/
def ExecPc.accounts : ExecPc → Bool
  | .setRunning | .log .started | .handler | .setCompleted _ | .selectPolicy _ | .requeue _ _ _
  | .deadLetter _ => true
  | _ => false

/-- Along the other edges of the control flow the call goes on agreeing. -/
theorem Exec.Flow.agrees {env : Env} {e : Exec} {db : Db} {pc pc' : ExecPc} {n : Nat} {row : Job}
    {t : Invocations} (h : Exec.Flow env e db pc pc') (hq : pc.accounts = false)
    (ha : pc.Agrees n row t) : pc'.Agrees n row t := by
  cases h with
  | published site => cases site <;> exact ha
  | logged site =>
      cases site with
      | started => cases hq
      | attemptFailed error => exact ha
      | _ => trivial
  | acquired | announced | recorded | failed => exact ha
  | _ => trivial

section
variable {env : Env} {db : Db} {e : Exec} {old : Job} {t : Invocations}

/-- They leave the row of a job that is not blocked. -/
theorem Exec.effect_quiet (hold : db.jobs.lookup e.jobId = some old) (hq : e.pc.accounts = false)
    (hnb : old.status ≠ .blocked) : (e.effect env db).jobs.lookup e.jobId = some old := by
  cases hpc : e.pc <;> simp only [hpc, ExecPc.accounts, Bool.true_eq_false] at hq <;>
    simp only [Exec.effect, hpc]
  case unblock => simp [hold, Db.releasable, hnb]
  all_goals exact hold

/-- Elsewhere the handler is neither called nor heard of. -/
theorem Exec.handlerEvent_quiet (hq : e.pc.accounts = false) : e.handlerEvent env = none := by
  unfold Exec.handlerEvent
  split <;> first | rfl | (rename_i hpc; rw [hpc] at hq; cases hq)

/-- **The call and its row keep their agreement** in every statement that is carried
out. -/
theorem Exec.next_agrees (env : Env) (hold : db.jobs.lookup e.jobId = some old)
    (hdef : e.job.maxAttempts = old.maxAttempts) (hm : 1 ≤ old.maxAttempts)
    (hl : e.stage ≠ .ended) (hallow : e.stage.allows old.status) (hrow : old.Agrees t)
    (he : e.Agrees old t) :
    ∃ new, (e.effect env db).jobs.lookup e.jobId = some new ∧
      new.Agrees (t.after (e.handlerEvent env)) ∧
      (e.next env db).Agrees new (t.after (e.handlerEvent env)) := by
  have hjob : (e.next env db).job.attempts = e.job.attempts := by rw [(e.next_params env db).2.1]
  unfold Exec.Agrees at he ⊢
  rw [hjob]
  by_cases hq : e.pc.accounts = false
  · rw [Exec.handlerEvent_quiet hq]
    exact ⟨old, Exec.effect_quiet hold hq (Stage.allows_not_pending hallow hl).2.2, hrow,
      (e.flow env db).agrees hq he⟩
  unfold Exec.stage at hallow
  cases hpc : e.pc <;> simp only [hpc, ExecPc.accounts, not_true_eq_false] at hq <;>
    simp only [hpc, ExecPc.stage, Stage.allows] at hallow <;>
    simp only [hpc, ExecPc.Agrees] at he <;>
    simp only [Exec.handlerEvent, Exec.effect, Exec.next, hpc]
  case setRunning =>
    -- `SET attempts = attempts + 1`, written as the number the claim has read plus one
    obtain ⟨rfl, hlt⟩ := (Job.agrees_undecided (by rw [hallow]; rfl)).mp hrow
    refine ⟨_, updateJob_lookup_self _ hold, ?_, ?_⟩
    · simp only [Job.Agrees, Invocations.after, Exec.attemptNumber]
      omega
    · exact ⟨rfl, by rw [← he]; rfl⟩
  case log site =>
    cases site <;> simp only [not_true_eq_false] at hq
    obtain ⟨hn, rfl⟩ := he
    have hle := hrow.le.1
    refine ⟨old, hold, ?_, hn, rfl⟩
    simp only [Job.Agrees, show old.status = .running from hallow, Invocations.after]
    exact ⟨hn.ge, hle⟩
  case handler =>
    obtain ⟨hn, rfl⟩ := he
    have hle : e.job.attempts + 1 ≤ old.maxAttempts := hn ▸ hrow.le.1
    -- the invocation ends, and the row is written by a later statement
    refine ⟨old, hold, ?_⟩
    cases env.handler with
    | ok result => exact ⟨by simpa [Job.Agrees, hallow, Invocations.after, hn] using hle, hn, rfl⟩
    | error message => exact ⟨by simpa [Job.Agrees, hallow, Invocations.after, hn] using hle, hn, rfl⟩
  case setCompleted result =>
    obtain ⟨hn, rfl⟩ := he
    exact ⟨_, updateJob_lookup_self _ hold, ⟨hn.symm, hn.symm, rfl, hrow.le.1⟩, trivial⟩
  case selectPolicy error =>
    obtain ⟨hn, ht⟩ := he
    -- `max_attempts` is positive, so the policy's number does not count
    have hmax : e.maxAttempts (getRetryPolicyForQueue db e.job.queueId) = old.maxAttempts := by
      rw [Exec.maxAttempts, if_neg (by omega), hdef]
    refine ⟨old, hold, hrow, ?_⟩
    -- `if (attemptNumber < maxAttempts)`, on the row that the claim returned
    simp only [Exec.goto, Exec.afterPolicy, hmax]
    split
    · rename_i hlt; exact ⟨hn, ht, hlt⟩
    · rename_i hge; exact ⟨hn, ht, not_lt.mp hge⟩
  -- back to queued with attempts left
  case requeue delay k st =>
    obtain ⟨hn, rfl, hlt⟩ := he
    refine ⟨_, updateJob_lookup_self _ hold, ?_, trivial⟩
    simpa [Job.Agrees, Invocations.after, hn] using hlt
  case deadLetter error =>
    obtain ⟨hn, rfl, hge⟩ := he
    have hle := hrow.le.1
    refine ⟨_, updateJob_lookup_self _ hold, ?_, hn⟩
    simp only [Job.Agrees, Invocations.after, hn, true_and]
    omega

end

/-! ## §4. Statements of the other clients. -/

/-- The client's next statement deletes an entry about job `j`. -/
def Proc.discards (db : Db) (j : UUID) : Proc → Bool
  | .replay r => (match r.pc with
      | .delete _ => (db.deadLetterQueue.lookup r.entryId).any
          (fun entry => decide (entry.originalJobId = some j))
      | _ => false)
  | _ => false

/-- The action is the UPDATE of a manual retry of `j`, or the UPDATE or the DELETE of
a replay of `j`. -/
def Action.reopens (s : Sys) (j : UUID) : Action → Bool
  | .run pid _ => (s.proc pid).any (fun p => p.resets j || p.discards s.db j)
  | _ => false

/-- The action is no statement of a live call for `j`. -/
def Bystander (j : UUID) (s : Sys) (a : Action) : Prop :=
  ∀ k env e, a = .run k env → s.proc k = some (.exec e) → e.jobId = j → e.stage = .ended

section
variable {cfg : Config} {s s' : Sys} {a : Action} {j : UUID} {old new : Job}

theorem Bystander.handlerEvent (hb : Bystander j s a) : a.handlerEvent s j = none := by
  cases a with
  | run pid env =>
      simp only [Action.handlerEvent]
      split
      · rename_i e hp
        split
        · rename_i hj
          exact Exec.handlerEvent_stage (by rw [hb pid env e rfl hp hj]; decide)
        · rfl
      · rfl
  | _ => rfl

/-- A reset is one way to reopen a job. -/
theorem not_resets_of_reopens (h : a.reopens s j = false) : a.resets s j = false := by
  cases a with
  | run pid env =>
      cases hp : s.proc pid with
      | none => simp [Action.resets, hp]
      | some p =>
          simp only [Action.reopens, hp, Option.any_some, Bool.or_eq_false_iff] at h
          simpa [Action.resets, hp] using h.1
  | _ => rfl

/-- They decide nothing about the job: they keep its row, or turn one status before
or between two attempts into another. -/
theorem Bystander.row (hP : Pending s) (hb : Bystander j s a) (hr : a.resets s j = false)
    (h : step cfg s a = some s') (hold : s.db.jobs.lookup j = some old)
    (hnew : s'.db.jobs.lookup j = some new) :
    new = old ∨ (old.status.undecided = true ∧ new.status.undecided = true ∧
      new.attempts = old.attempts ∧ new.maxAttempts = old.maxAttempts) := by
  rcases step_row h j with heq | ⟨pid, env, p, rfl, hp, _, hch⟩
  · rw [hnew, hold] at heq
    exact .inl (Option.some.inj heq)
  have hended : ∀ e, p = .exec e → e.jobId = j → e.stage = .ended :=
    fun e he hj => hb pid env e rfl (he ▸ hp) hj
  have hres : p.resets j = false := by simpa [Action.resets, hp] using hr
  rw [hold, hnew] at hch
  cases hch with
  | same => exact .inl rfl
  | claimed c row _ hpc =>
      obtain ⟨o, ho, hq, _⟩ := hP.queued pid c j row hp hpc
      rw [hold] at ho
      cases ho
      exact .inr ⟨by rw [hq]; rfl, rfl, rfl, rfl⟩
  | running e _ hpc hj | completed e _ _ hpc hj | requeued e _ _ _ _ hpc hj
  | deadLettered e _ _ hpc hj =>
      -- these are statements of a live call
      have hend := hended e rfl hj
      rw [Exec.stage, hpc] at hend
      cases hend
  | released e _ hpc hw =>
      simp only [Db.releasable, Bool.and_eq_true, decide_eq_true_eq] at hw
      -- blocked turns into queued or scheduled
      refine .inr ⟨by rw [hw.1.1]; rfl, ?_, rfl, rfl⟩
      simp only [Job.released]
      split <;> rfl
  | retried r _ hpc hj => simp [Proc.resets, hpc, hj] at hres
  | replayed r _ hpc => simp [Proc.resets, hpc] at hres
  | cancelled r _ _ hpc hw =>
      have hwait : old.status.pending = true := (Bool.and_eq_true_iff.mp hw).2
      exact .inr ⟨by cases hst : old.status <;> simp_all [JobStatus.pending, JobStatus.undecided],
        rfl, rfl, rfl⟩
  | flipped t _ hpc hw =>
      simp only [Tick.flips, Bool.and_eq_true, decide_eq_true_eq] at hw
      exact .inr ⟨by rw [hw.1]; rfl, rfl, rfl, rfl⟩

/-- A new job has not been attempted. -/
theorem row_inserted (hI : InsertsPending s) (h : step cfg s a = some s')
    (hold : s.db.jobs.lookup j = none) (hnew : s'.db.jobs.lookup j = some new) :
    new.attempts = 0 ∧ new.status.undecided = true := by
  rcases step_row h j with heq | ⟨pid, env, p, rfl, hp, _, hch⟩
  · rw [hnew, hold] at heq
    cases heq
  rw [hold, hnew] at hch
  cases hch with
  | submitted r item rest =>
      have hwait : (r.row env.now item).status.pending = true := hI pid r hp
      exact ⟨rfl, by cases hst : (r.row env.now item).status <;>
        simp_all [JobStatus.pending, JobStatus.undecided]⟩
  | recreated | dispatched => exact ⟨rfl, rfl⟩

/-- They neither insert nor delete an entry about the job. -/
theorem Bystander.entry (hb : Bystander j s a) (hr : a.reopens s j = false)
    (h : step cfg s a = some s') {x : UUID} {entry : DeadLetterEntry}
    (ho : entry.originalJobId = some j) :
    s'.db.deadLetterQueue.lookup x = some entry ↔ s.db.deadLetterQueue.lookup x = some entry := by
  rcases step_entry h x with heq | ⟨pid, env, p, rfl, hp, hch⟩
  · rw [heq]
  generalize hold : s.db.deadLetterQueue.lookup x = o at hch ⊢
  generalize s'.db.deadLetterQueue.lookup x = n at hch ⊢
  cases hch with
  | same => rfl
  | buried e error hpc =>
      have hne : e.jobId ≠ j := by
        intro hj
        have hend := hb pid env e rfl hp hj
        rw [Exec.stage, hpc] at hend
        cases hend
      constructor
      · intro heq
        cases heq
        exact absurd (Option.some.inj ho) hne
      · intro heq; cases heq
  | deleted r row _ hpc hx =>
      constructor
      · intro heq; cases heq
      · rintro rfl
        -- the DELETE of a replay of the job is excluded
        simp only [Action.reopens, hp, Proc.discards, hpc, Option.any_some, Bool.or_eq_false_iff] at hr
        rw [hx, hold] at hr
        simp [ho] at hr

/-- Which entries record the job does not change. -/
theorem Bystander.records (hb : Bystander j s a) (hr : a.reopens s j = false)
    (h : step cfg s a = some s') (x : UUID) : s'.db.Records x j ↔ s.db.Records x j := by
  constructor
  · rintro ⟨entry, hentry, ho⟩
    exact ⟨entry, (hb.entry hr h ho).mp hentry, ho⟩
  · rintro ⟨entry, hentry, ho⟩
    exact ⟨entry, (hb.entry hr h ho).mpr hentry, ho⟩

end

/-! ## §5. The invariant. -/

/-- A call stands before the INSERT of the entry of job `j`. -/
def Sys.BurialDue (s : Sys) (j : UUID) : Prop :=
  ∃ k e error, s.proc k = some (.exec e) ∧ e.jobId = j ∧ e.pc = .insertDeadLetter error

/-- Job `j` has exactly one entry, which counts `m` attempts. -/
def Db.BuriedOnce (db : Db) (j : UUID) (m : Nat) : Prop :=
  ∃ x entry, db.deadLetterQueue.lookup x = some entry ∧ entry.originalJobId = some j ∧
    entry.attemptsMade = m ∧ ∀ y, db.Records y j → y = x

/-- The row, the calls and the entries of job `j` after the invocations `t`. -/
structure Attempted (j : UUID) (row : Job) (t : Invocations) (s : Sys) : Prop where
  agrees : row.Agrees t
  call : ∀ k e, s.proc k = some (.exec e) → e.jobId = j → e.Agrees row t
  alive : row.status ≠ .deadLetter → ∀ x, ¬ s.db.Records x j
  due : s.BurialDue j → ∀ x, ¬ s.db.Records x j
  buried : row.status = .deadLetter → s.BurialDue j ∨ s.db.BuriedOnce j row.maxAttempts

/-- The invariant of the attempt count: a job without a row has no invocation and no entry, and a
row has been counted. -/
structure Attempts (j : UUID) (t : Invocations) (s : Sys) : Prop where
  unborn : s.db.jobs.lookup j = none → t = ⟨0, 0, 0⟩ ∧ ∀ x, ¬ s.db.Records x j
  born : ∀ row, s.db.jobs.lookup j = some row → 1 ≤ row.maxAttempts → Attempted j row t s

/-- The call that works on a dead job only buries it. -/
theorem Exec.quiet_of_dead {e : Exec} {old : Job} (hl : e.stage ≠ .ended)
    (hallow : e.stage.allows old.status) (hdead : old.status = .deadLetter) :
    e.pc.accounts = false := by
  rw [hdead] at hallow
  unfold Exec.stage at hl hallow
  generalize e.pc = pc at hl hallow ⊢
  unfold ExecPc.accounts
  split <;> first
    | rfl
    | (simp only [ExecPc.stage, LogSite.stage, Stage.allows] at hallow; simp at hallow)

section
variable {cfg : Config} {s s' : Sys} {j : UUID} {t : Invocations}

/-- Only the INSERT of an entry adds one. -/
theorem Exec.effect_entries {env : Env} {e : Exec} {db : Db}
    (h : ∀ error, e.pc ≠ .insertDeadLetter error) :
    (e.effect env db).deadLetterQueue = db.deadLetterQueue := by
  cases hpc : e.pc <;> simp only [Exec.effect, hpc] <;> try rfl
  case insertDeadLetter error => exact absurd hpc (h error)

/-- While a call executes its next statement, the other calls for the job are over. -/
theorem others_ended {pid : Nat} {env : Env} {e e' : Exec} (hA : Activations e.jobId s)
    (hk : s.proc pid = some (.exec e)) (hl : e.stage ≠ .ended) (h : step cfg s (.run pid env) = some s')
    (hk' : s'.proc pid = some (.exec e')) {k : Nat} {f : Exec} (hkf : s'.proc k = some (.exec f))
    (hfj : f.jobId = e.jobId) : f = e' ∨ f.stage = .ended := by
  cases exec_origin h hkf with
  | idle hk₀ hne =>
      right
      by_contra hfl
      exact hne env (hA.unique pid k e f hk hk₀ rfl hfj hl hfl ▸ rfl)
  | stepped env' e₀ ha _ _ =>
      cases ha
      rw [hk'] at hkf
      exact .inl (Proc.exec.inj (Option.some.inj hkf)).symm
  | committed env' c i row ha hk₀ =>
      -- a COMMIT is a statement of another program
      cases ha
      rw [hk] at hk₀
      cases hk₀

/-- The INSERT leaves one entry when there was none. -/
theorem buried_by_insert {env : Env} {e : Exec} {error : String} {db : Db} {m : Nat}
    (hpc : e.pc = .insertDeadLetter error) (hmade : e.attemptNumber = m)
    (hnone : ∀ x, ¬ db.Records x e.jobId) : (e.effect env db).BuriedOnce e.jobId m := by
  have hlookup : ∀ x, (e.effect env db).deadLetterQueue.lookup x
      = if x = env.fresh then some (e.grave error) else db.deadLetterQueue.lookup x := by
    intro x
    simp only [Exec.effect, hpc, insertDeadLetter_lookup]
    rfl
  refine ⟨env.fresh, e.grave error, by rw [hlookup, if_pos rfl], rfl, hmade, ?_⟩
  rintro y ⟨entry, hentry, ho⟩
  by_contra hy
  rw [hlookup, if_neg hy] at hentry
  exact hnone y ⟨entry, hentry, ho⟩

/-- A job that is dead after a statement of its call was dead before it, unless the
statement marked it. -/
theorem dead_before {pid : Nat} {env : Env} {e : Exec} {old new : Job}
    (hk : s.proc pid = some (.exec e)) (hmarks : ∀ error, e.pc ≠ .deadLetter error)
    (h : step cfg s (.run pid env) = some s') (hold : s.db.jobs.lookup e.jobId = some old)
    (hnew : s'.db.jobs.lookup e.jobId = some new) (hdead : new.status = .deadLetter) :
    old.status = .deadLetter := by
  rcases step_row h e.jobId with heq | ⟨_, _, p, ha, hp, _, hch⟩
  · rw [hnew, hold] at heq
    exact Option.some.inj heq ▸ hdead
  cases ha
  rw [hk] at hp
  cases hp
  rw [hold, hnew] at hch
  cases hch with
  | same => exact hdead
  | deadLettered _ _ error hpc => exact absurd hpc (hmarks error)
  | released _ hpc hw => simp only [Job.released] at hdead; split at hdead <;> cases hdead
  | running | completed | requeued => cases hdead

/-- **A statement of the call.** -/
theorem attempted_call {pid : Nat} {env : Env} {e : Exec} {old : Job} (hA : Activations j s)
    (hD : Defined s) (hT : Attempted j old t s) (hold : s.db.jobs.lookup j = some old)
    (hm : 1 ≤ old.maxAttempts) (hk : s.proc pid = some (.exec e)) (hj : e.jobId = j)
    (hl : e.stage ≠ .ended) (hacc : (Action.run pid env).rejected cfg s = false)
    (h : step cfg s (.run pid env) = some s') :
    ∃ new, s'.db.jobs.lookup j = some new ∧ Attempted j new (t.after (e.handlerEvent env)) s' := by
  subst hj
  obtain ⟨hdb, hk'⟩ := exec_accepted h hk hacc
  obtain ⟨o, ho, hallow⟩ := hA.row pid e hk rfl hl
  rw [hold] at ho
  cases ho
  obtain ⟨o, ho, hdef⟩ := hD pid e hk
  rw [hold] at ho
  cases ho
  obtain ⟨new, hnew, hagree, hcall⟩ := Exec.next_agrees env hold hdef.maxAttempts.symm hm hl
    hallow hT.agrees (hT.call pid e hk rfl)
  have hnew' : s'.db.jobs.lookup e.jobId = some new := hdb ▸ hnew
  -- the row of a dead job and the entries are left alone, but for the INSERT of the entry
  have hkeep : old.status = .deadLetter → new = old := by
    intro hdead
    have hquiet := Exec.quiet_of_dead hl hallow hdead
    rw [Exec.effect_quiet hold hquiet (by rw [hdead]; decide)] at hnew
    exact (Option.some.inj hnew).symm
  have hrecords : (∀ error, e.pc ≠ .insertDeadLetter error) →
      s'.db.deadLetterQueue = s.db.deadLetterQueue := by
    intro hins
    rw [hdb, Exec.effect_entries hins]
  have hdead_of : ∀ error, e.pc = .insertDeadLetter error → old.status = .deadLetter := by
    intro error hpc
    rw [Exec.stage, hpc] at hallow
    exact hallow
  refine ⟨new, hnew', hagree, ?_, ?_, ?_, ?_⟩
  -- there is one live call for the job
  · intro k f hkf hfj
    rcases others_ended hA hk hl h hk' hkf hfj with rfl | hend
    · exact hcall
    · exact ExecPc.agrees_ended hend
  · intro halive x hx
    have hold_alive : old.status ≠ .deadLetter := fun hdead => halive (hkeep hdead ▸ hdead)
    refine hT.alive hold_alive x ?_
    simpa [Db.Records, hrecords (fun error hpc => hold_alive (hdead_of error hpc))] using hx
  · rintro ⟨k, f, error, hkf, hfj, hpcf⟩ x hx
    rcases others_ended hA hk hl h hk' hkf hfj with rfl | hend
    · -- the call comes from the UPDATE of a job that was not dead
      obtain ⟨error', hpc⟩ : ∃ error', e.pc = .deadLetter error' := by
        by_contra hne
        exact not_inserting_next env s.db (fun error' hpc => hne ⟨error', hpc⟩) error hpcf
      refine hT.alive ?_ x ?_
      · rw [Exec.stage, hpc] at hallow
        rcases hallow with hst | hst <;> rw [hst] <;> decide
      · simpa [Db.Records, hrecords (fun error' hpc' => by rw [hpc] at hpc'; cases hpc')] using hx
    · rw [Exec.stage, hpcf] at hend
      cases hend
  · intro hdead
    by_cases hins : ∃ error, e.pc = .insertDeadLetter error
    · -- the INSERT: the entry counts the attempts of the row
      obtain ⟨error, hpc⟩ := hins
      obtain rfl := hkeep (hdead_of error hpc)
      have hn : new.attempts = e.attemptNumber := by
        simpa [Exec.Agrees, ExecPc.Agrees, hpc, Exec.attemptNumber] using hT.call pid e hk rfl
      have hmax : new.attempts = new.maxAttempts := by
        have hagrees := hT.agrees
        rw [Job.Agrees, hdead] at hagrees
        exact hagrees.2
      right
      rw [hdb]
      exact buried_by_insert hpc (hn.symm.trans hmax) (hT.due ⟨pid, e, error, hk, rfl, hpc⟩)
    by_cases hdl : ∃ error, e.pc = .deadLetter error
    · -- the UPDATE: the entry is due
      obtain ⟨error, hpc⟩ := hdl
      exact .inl ⟨pid, _, error, hk', (e.next_params env s.db).1, by simp [Exec.next, hpc, Exec.goto]⟩
    have hins' : ∀ error, e.pc ≠ .insertDeadLetter error := fun error hpc => hins ⟨error, hpc⟩
    have hold_dead := dead_before hk (fun error hpc => hdl ⟨error, hpc⟩) h hold hnew' hdead
    rcases hT.buried hold_dead with ⟨k, f, error, hkf, hfj, hpcf⟩ | hburied
    · -- no other call could have the entry to insert
      have hlf : f.stage ≠ .ended := by simp [Exec.stage, hpcf, ExecPc.stage]
      obtain rfl := hA.unique pid k e f hk hkf rfl hfj hl hlf
      rw [hk] at hkf
      cases hkf
      exact absurd hpcf (hins' error)
    · right
      obtain rfl := hkeep hold_dead
      simpa [Db.BuriedOnce, Db.Records, hrecords hins'] using hburied

/-- After a step of another client, a call for the job is over, stands where it stood with
its row untouched, or has just claimed the job. -/
theorem idle_calls {a : Action} {old new : Job} (hP : Pending s) (hA : Activations j s)
    (hold : s.db.jobs.lookup j = some old) (hnew : s'.db.jobs.lookup j = some new)
    (hb : Bystander j s a) (hres : a.resets s j = false) (h : step cfg s a = some s') {k : Nat}
    {e : Exec} (hk : s'.proc k = some (.exec e)) (hj : e.jobId = j) :
    e.stage = .ended ∨ (s.proc k = some (.exec e) ∧ new = old) ∨
      (e.pc = .acquire ∧ new.attempts = e.job.attempts) := by
  cases exec_origin h hk with
  | idle hk₀ hne =>
      by_cases hl : e.stage = .ended
      · exact .inl hl
      refine .inr (.inl ⟨hk₀, ?_⟩)
      rcases step_row h j with heq | ⟨pid, env, p, rfl, hp, _, hch⟩
      · rw [hnew, hold] at heq
        exact Option.some.inj heq
      · have hpk : pid ≠ k := fun hpk => hne env (hpk ▸ rfl)
        have hpr : p.resets j = false := by simpa [Action.resets, hp] using hres
        -- a live call keeps the row to itself
        have hframe := hA.held.frame Stage.relying_live hP hk₀ hj hl hp hpk hpr hch
        rw [hnew, hold] at hframe
        exact Option.some.inj hframe
  | stepped env e₀ ha hk₀ hs =>
      -- a call that moves is not the bystanders' concern: it was over before
      have hend := hb k env e₀ ha hk₀ ((Exec.step_params hs).1 ▸ hj)
      left
      rcases Exec.step_stage hs with hnext | ⟨hcomp, _⟩
      · rw [hend] at hnext
        generalize e.stage = g at hnext
        cases hnext <;> rfl
      · rw [hend] at hcomp
        cases hcomp
  | committed env c i row _ hk₀ hpc hdb he =>
      obtain ⟨o, ho, _, htaken⟩ := hP.queued k c i row hk₀ hpc
      subst he
      obtain rfl : i = j := hj
      rw [hold] at ho
      cases ho
      rw [hdb, updateJob_lookup_self _ hold] at hnew
      cases hnew
      exact .inr (.inr ⟨rfl, by rw [htaken]⟩)

/-- The row and the calls go on agreeing. -/
theorem Bystander.agrees {a : Action} {old new : Job} (hP : Pending s) (hA : Activations j s)
    (hold : s.db.jobs.lookup j = some old) (hnew : s'.db.jobs.lookup j = some new)
    (hb : Bystander j s a) (hres : a.resets s j = false) (h : step cfg s a = some s')
    (hagrees : old.Agrees t) (hcall : ∀ k e, s.proc k = some (.exec e) → e.jobId = j → e.Agrees old t) :
    new.Agrees t ∧ ∀ k e, s'.proc k = some (.exec e) → e.jobId = j → e.Agrees new t := by
  constructor
  · rcases hb.row hP hres h hold hnew with rfl | ⟨ho, hn, hatt, hmax⟩
    · exact hagrees
    · rw [Job.agrees_undecided hn, hatt, hmax]
      exact (Job.agrees_undecided ho).mp hagrees
  · intro k e hk hj
    rcases idle_calls hP hA hold hnew hb hres h hk hj with hend | ⟨hk₀, rfl⟩ | ⟨hpc, hatt⟩
    · exact ExecPc.agrees_ended hend
    · exact hcall k e hk₀ hj
    · simpa [Exec.Agrees, ExecPc.Agrees, hpc] using hatt

/-- **A step of another client.** -/
theorem attempted_idle {a : Action} {old : Job} (hP : Pending s) (hA : Activations j s)
    (hT : Attempted j old t s) (hold : s.db.jobs.lookup j = some old) (hb : Bystander j s a)
    (hr : a.reopens s j = false) (h : step cfg s a = some s') :
    ∃ new, s'.db.jobs.lookup j = some new ∧ Attempted j new t s' := by
  obtain ⟨new, hnew⟩ := row_stays h ⟨old, hold⟩
  have hres := not_resets_of_reopens hr
  have hrow := hb.row hP hres h hold hnew
  have hrecords := hb.records hr h
  have hcalls := fun k e => @idle_calls cfg s s' j a old new hP hA hold hnew hb hres h k e
  have hdead : new.status = .deadLetter ↔ old.status = .deadLetter := by
    rcases hrow with rfl | ⟨ho, hn, _⟩
    · rfl
    · constructor <;> intro hst
      · rw [hst] at hn; cases hn
      · rw [hst] at ho; cases ho
  obtain ⟨hagrees, hcall⟩ := hb.agrees hP hA hold hnew hres h hT.agrees hT.call
  refine ⟨new, hnew, hagrees, hcall, ?_, ?_, ?_⟩
  · intro halive x hx
    exact hT.alive (fun hst => halive (hdead.mpr hst)) x ((hrecords x).mp hx)
  · rintro ⟨k, e, error, hk, hj, hpc⟩ x hx
    rcases hcalls k e hk hj with hend | ⟨hk₀, rfl⟩ | ⟨hacq, _⟩
    · rw [Exec.stage, hpc] at hend
      cases hend
    · exact hT.due ⟨k, e, error, hk₀, hj, hpc⟩ x ((hrecords x).mp hx)
    · rw [hpc] at hacq
      cases hacq
  · intro hst
    rcases hT.buried (hdead.mp hst) with ⟨k, e, error, hk, hj, hpc⟩ | ⟨x, entry, hentry, ho, hm, huniq⟩
    · rcases exec_next h hk with ⟨hk', _⟩ | ⟨env, _, ha, _, _⟩
      · exact .inl ⟨k, e, error, hk', hj, hpc⟩
      · have hend := hb k env e ha hk hj
        rw [Exec.stage, hpc] at hend
        cases hend
    · refine .inr ⟨x, entry, (hb.entry hr h ho).mpr hentry, ho, ?_, fun y hy => huniq y ((hrecords y).mp hy)⟩
      rcases hrow with rfl | ⟨_, hn, _⟩
      · exact hm
      · rw [hst] at hn
        cases hn

/-- A job that has just been inserted has no call. -/
theorem no_call_of_unborn {a : Action} (hP : Pending s) (hD : Defined s)
    (hnone : s.db.jobs.lookup j = none) (h : step cfg s a = some s') {k : Nat} {e : Exec}
    (hk : s'.proc k = some (.exec e)) : e.jobId ≠ j := by
  rintro rfl
  cases exec_origin h hk with
  | idle hk₀ _ =>
      obtain ⟨old, hold, _⟩ := hD k e hk₀
      rw [hnone] at hold
      cases hold
  | stepped env e₀ _ hk₀ hs =>
      obtain ⟨old, hold, _⟩ := hD k e₀ hk₀
      rw [← (Exec.step_params hs).1, hnone] at hold
      cases hold
  | committed env c i row _ hk₀ hpc _ he =>
      obtain ⟨old, hold, _⟩ := hP.queued k c i row hk₀ hpc
      rw [he] at hnone
      rw [hnone] at hold
      cases hold

/-- **One step of the system.** -/
theorem attempts_step {a : Action} (hP : Pending s) (hI : InsertsPending s) (hD : Defined s)
    (hA : Activations j s) (hT : Attempts j t s) (hacc : a.rejected cfg s = false)
    (hr : a.reopens s j = false) (h : step cfg s a = some s') :
    Attempts j (t.after (a.handlerEvent s j)) s' := by
  by_cases hb : Bystander j s a
  · rw [hb.handlerEvent]
    cases hold : s.db.jobs.lookup j with
    | none =>
        obtain ⟨rfl, hnone⟩ := hT.unborn hold
        have hnone' : ∀ x, ¬ s'.db.Records x j := fun x hx => hnone x ((hb.records hr h x).mp hx)
        -- the job may just have been inserted
        refine ⟨fun _ => ⟨rfl, hnone'⟩, fun row hrow hm => ?_⟩
        obtain ⟨hatt, hst⟩ := row_inserted hI h hold hrow
        refine ⟨?_, ?_, fun _ => hnone', fun _ => hnone', ?_⟩
        · rw [Job.agrees_undecided hst, hatt]
          exact ⟨rfl, hm⟩
        · intro k e hk hj
          exact absurd hj (no_call_of_unborn hP hD hold h hk)
        · intro hdead
          rw [hdead] at hst
          cases hst
    | some old =>
        obtain ⟨new, hnew, hdef⟩ := definition_stays h hold
        refine ⟨fun hnone => (by rw [hnew] at hnone; cases hnone), fun row hrow hm => ?_⟩
        obtain rfl := Option.some.inj (hnew.symm.trans hrow)
        obtain ⟨new', hnew', hT'⟩ :=
          attempted_idle hP hA (hT.born old hold (hdef.maxAttempts ▸ hm)) hold hb hr h
        obtain rfl := Option.some.inj (hnew.symm.trans hnew')
        exact hT'
  -- the step is a statement of a live call for the job
  · simp only [Bystander, not_forall] at hb
    obtain ⟨k, env, e, rfl, hk, hj, hl⟩ := hb
    obtain ⟨old, hold, _⟩ := hD k e hk
    rw [hj] at hold
    obtain ⟨new, hnew, hdef⟩ := definition_stays h hold
    refine ⟨fun hnone => (by rw [hnew] at hnone; cases hnone), fun row hrow hm => ?_⟩
    obtain rfl := Option.some.inj (hnew.symm.trans hrow)
    have hm₀ : 1 ≤ old.maxAttempts := hdef.maxAttempts ▸ hm
    obtain ⟨new', hnew', hT'⟩ := attempted_call hA hD (hT.born old hold hm₀) hold hm₀ hk hj hl hacc h
    obtain rfl := Option.some.inj (hnew.symm.trans hnew')
    simpa [Action.handlerEvent, hk, hj] using hT'

/-- The statuses that end a job's attempts are written by the calls for it. -/
theorem step_decides {a : Action} {st : JobStatus} (hI : InsertsPending s)
    (hst : st = .completed ∨ st = .deadLetter) (h : step cfg s a = some s')
    (hnot : s.db.statusOf j ≠ some st) (hnow : s'.db.statusOf j = some st) :
    ∃ k env e, a = .run k env ∧ s.proc k = some (.exec e) ∧ e.jobId = j ∧
      ((st = .completed ∧ ∃ result, e.pc = .setCompleted result) ∨
        (st = .deadLetter ∧ ∃ error, e.pc = .deadLetter error)) := by
  obtain ⟨new, hnew, hns⟩ := Option.map_eq_some_iff.mp hnow
  have hdecided : new.status.undecided = false := by rcases hst with rfl | rfl <;> rw [hns] <;> rfl
  cases hold : s.db.jobs.lookup j with
  | none =>
      obtain ⟨_, hun⟩ := row_inserted hI h hold hnew
      rw [hdecided] at hun
      cases hun
  | some old =>
      have hne : old.status ≠ st := fun ho => hnot (by rw [Db.statusOf, hold, ← ho]; rfl)
      rcases step_row h j with heq | ⟨k, env, p, rfl, hp, _, hch⟩
      · rw [hnew, hold] at heq
        cases heq
        exact absurd hns hne
      rw [hold, hnew] at hch
      cases hch with
      | same => exact absurd hns hne
      | completed e _ result hpc hj => exact ⟨k, env, e, rfl, hp, hj, .inl ⟨hns.symm, result, hpc⟩⟩
      | deadLettered e _ error hpc hj => exact ⟨k, env, e, rfl, hp, hj, .inr ⟨hns.symm, error, hpc⟩⟩
      | released => simp only [Job.released] at hdecided; split at hdecided <;> cases hdecided
      | running => rcases hst with rfl | rfl <;> cases hns
      | claimed | requeued | retried | replayed | cancelled | flipped => cases hdecided

end

/-! ## §6. Along runs. -/

/-- Job `j` has not been attempted: it is as an INSERT leaves it, or is not there. -/
structure Db.Unattempted (db : Db) (j : UUID) : Prop where
  row : ∀ row, db.jobs.lookup j = some row → row.attempts = 0 ∧ row.status.pending = true
  entries : ∀ x, ¬ db.Records x j

/-- A job that was never attempted starts with no invocation. -/
theorem attempts_atRest {db : Db} {j : UUID} (clock : Timestamp) (hdb : db.Unattempted j) :
    Attempts j ⟨0, 0, 0⟩ (Sys.atRest clock db) where
  unborn _ := ⟨rfl, hdb.entries⟩
  born row hrow hm := by
    obtain ⟨hatt, hwait⟩ := hdb.row row hrow
    have hun : row.status.undecided = true := by
      cases hst : row.status <;> simp_all [JobStatus.pending, JobStatus.undecided]
    refine ⟨?_, fun k e hk => by simp at hk, fun _ => hdb.entries, fun _ => hdb.entries, ?_⟩
    · rw [Job.agrees_undecided hun, hatt]
      exact ⟨rfl, hm⟩
    · intro hdead
      rw [hdead] at hwait
      cases hwait

section
variable {cfg : Config} {s₀ s : Sys} {tr : List (Sys × Action)} {j : UUID}

/-- The definition of a job is the same in every later state. -/
theorem definition_run {old : Job} (h : SysRun cfg s₀ tr s) (hold : s₀.db.jobs.lookup j = some old) :
    ∃ new, s.db.jobs.lookup j = some new ∧ old.SameDefinition new := by
  induction h with
  | nil => exact ⟨old, hold, .refl old⟩
  | snoc _ hs ih =>
      obtain ⟨mid, hmid, hdef⟩ := ih
      obtain ⟨new, hnew, hdef'⟩ := definition_stays hs hmid
      exact ⟨new, hnew, hdef.trans hdef'⟩

/-- The invariants of a run that fails no statement of `executeJob` and does not
reopen the job. -/
structure AttemptsKept (j : UUID) (tr : List (Sys × Action)) (s : Sys) : Prop where
  pending : Pending s
  inserts : InsertsPending s
  defined : Defined s
  activations : Activations j s
  attempts : Attempts j (invocations tr j) s

/-- The account of the attempts in every run without a rejection and without a reopening. -/
theorem attempts_run {clock : Timestamp} {db : Db} (hdb : db.Unattempted j)
    (h : SysRun cfg (Sys.atRest clock db) tr s) (hacc : ∀ p ∈ tr, p.2.rejected cfg p.1 = false)
    (hre : ∀ p ∈ tr, p.2.reopens p.1 j = false) : AttemptsKept j tr s := by
  induction h with
  | nil =>
      exact ⟨pending_atRest clock db, insertsPending_atRest clock db, defined_atRest clock db,
        activations_atRest j clock db, attempts_atRest clock hdb⟩
  | @snoc tr s s' a _ hs ih =>
      obtain ⟨hP, hI, hD, hA, hT⟩ := ih (fun p hp => hacc p (List.mem_append_left _ hp))
        (fun p hp => hre p (List.mem_append_left _ hp))
      have hlast : (s, a) ∈ tr ++ [(s, a)] := List.mem_append_right _ List.mem_cons_self
      refine ⟨pending_step hP hs, insertsPending_step hI hs, defined_step hP hD hs,
        activations_step hP hA (Action.not_resetsLive (not_resets_of_reopens (hre _ hlast))) hs, ?_⟩
      rw [invocations_snoc]
      exact attempts_step hP hI hD hA hT (hacc _ hlast) (hre _ hlast) hs

/-- The UPDATE that marks the job dead comes after `m` failures. -/
theorem AttemptsKept.dying {a : Action} {m : Nat} (hK : AttemptsKept j tr s)
    (hrow : ∀ old, s.db.jobs.lookup j = some old →
      old.maxAttempts = m ∧ Attempted j old (invocations tr j) s)
    (h : step cfg s a = some s') (hnot : s.db.statusOf j ≠ some .deadLetter)
    (hnow : s'.db.statusOf j = some .deadLetter) :
    invocations tr j = ⟨m, m, 0⟩ ∧ ∃ k env e error, a = .run k env ∧ s.proc k = some (.exec e) ∧
      e.jobId = j ∧ e.pc = .deadLetter error ∧ e.attemptNumber = m := by
  obtain ⟨k, env, e, rfl, hk, hj, ⟨hst, _⟩ | ⟨_, error, hpc⟩⟩ :=
    step_decides hK.inserts (.inr rfl) h hnot hnow
  · cases hst
  obtain ⟨old, hold, _⟩ := hK.defined k e hk
  obtain ⟨hmax, hT⟩ := hrow old (hj ▸ hold)
  obtain ⟨hn, ht, hge⟩ : old.attempts = e.attemptNumber ∧ _ ∧ old.maxAttempts ≤ e.attemptNumber := by
    have hcall := hT.call k e hk hj
    rwa [Exec.Agrees, hpc] at hcall
  have hnum : e.attemptNumber = m := by
    have hle := hT.agrees.le.1
    omega
  exact ⟨hnum ▸ ht, k, env, e, error, rfl, hk, hj, hpc, hnum⟩

/-- The UPDATE that completes the job comes after one success. -/
theorem AttemptsKept.completing {a : Action} {m : Nat} (hK : AttemptsKept j tr s)
    (hrow : ∀ old, s.db.jobs.lookup j = some old →
      old.maxAttempts = m ∧ Attempted j old (invocations tr j) s)
    (h : step cfg s a = some s') (hnot : s.db.statusOf j ≠ some .completed)
    (hnow : s'.db.statusOf j = some .completed) :
    (invocations tr j).succeeded = 1 ∧ ∃ k env e result, a = .run k env ∧ s.proc k = some (.exec e) ∧
      e.jobId = j ∧ e.pc = .setCompleted result := by
  obtain ⟨k, env, e, rfl, hk, hj, ⟨_, result, hpc⟩ | ⟨hst, _⟩⟩ :=
    step_decides hK.inserts (.inl rfl) h hnot hnow
  · obtain ⟨old, hold, _⟩ := hK.defined k e hk
    have hcall := (hrow old (hj ▸ hold)).2.call k e hk hj
    rw [Exec.Agrees, hpc] at hcall
    exact ⟨by rw [hcall.2], k, env, e, result, rfl, hk, hj, hpc⟩
  · cases hst

/-- An invocation starts before any success. -/
theorem AttemptsKept.starting {a : Action} {m : Nat} (hK : AttemptsKept j tr s)
    (hrow : ∀ old, s.db.jobs.lookup j = some old →
      old.maxAttempts = m ∧ Attempted j old (invocations tr j) s)
    (hev : a.handlerEvent s j = some .started) : (invocations tr j).succeeded = 0 := by
  cases a with
  | run pid env =>
      simp only [Action.handlerEvent] at hev
      split at hev
      · rename_i e hk
        split at hev
        · rename_i hj
          obtain ⟨old, hold, _⟩ := hK.defined pid e hk
          have hcall := (hrow old (hj ▸ hold)).2.call pid e hk hj
          unfold Exec.handlerEvent at hev
          split at hev
          · rename_i hpc
            rw [Exec.Agrees, hpc] at hcall
            rw [hcall.2]
          · split at hev <;> cases hev
          · cases hev
        · cases hev
      · cases hev
  | _ => cases hev

/-- The account of job `j`, which is allowed `m` attempts, after the steps `tr`. -/
structure AttemptsAccounted (cfg : Config) (j : UUID) (m : Nat) (tr : List (Sys × Action)) (s : Sys) :
    Prop where
  attempts : ∀ row, s.db.jobs.lookup j = some row → row.attempts ≤ m
  invocations : (invocations tr j).started ≤ m
  waiting : ∀ row, s.db.jobs.lookup j = some row →
    row.status = .blocked ∨ row.status = .scheduled ∨ row.status = .queued ∨ row.status = .claimed →
    row.attempts < m
  /-- A dead job has exactly one entry, once its call has made the INSERT. -/
  dead : ∀ row, s.db.jobs.lookup j = some row → row.status = .deadLetter →
    row.attempts = m ∧ (s.BurialDue j ∨ s.db.BuriedOnce j m)
  /-- The job dies by the call that failed the `m`-th invocation. -/
  dies : ∀ tr₁ t a tr₂ t', tr = tr₁ ++ (t, a) :: tr₂ → step cfg t a = some t' →
    t.db.statusOf j ≠ some .deadLetter → t'.db.statusOf j = some .deadLetter →
    JobScheduler.invocations tr₁ j = ⟨m, m, 0⟩ ∧
      ∃ k env e error, a = .run k env ∧ t.proc k = some (.exec e) ∧ e.jobId = j ∧
        e.pc = .deadLetter error ∧ e.attemptNumber = m
  /-- It is completed by a call whose invocation succeeded, the first to do so. -/
  completes : ∀ tr₁ t a tr₂ t', tr = tr₁ ++ (t, a) :: tr₂ → step cfg t a = some t' →
    t.db.statusOf j ≠ some .completed → t'.db.statusOf j = some .completed →
    (JobScheduler.invocations tr₁ j).succeeded = 1 ∧
      ∃ k env e result, a = .run k env ∧ t.proc k = some (.exec e) ∧ e.jobId = j ∧
        e.pc = .setCompleted result
  /-- No invocation is started after one that succeeded. -/
  final : ∀ tr₁ t a tr₂, tr = tr₁ ++ (t, a) :: tr₂ → a.handlerEvent t j = some .started →
    (JobScheduler.invocations tr₁ j).succeeded = 0

/-- **The attempts of a job are accounted for.**  In every run without a rejected
statement of `executeJob`, for every job that has not been attempted at its start and
that no manual retry and no replay reopens, with whatever outcomes of its handler. -/
theorem attempts_accounted {clock : Timestamp} {db : Db} {row : Job}
    (hrun : SysRun cfg (Sys.atRest clock db) tr s) (hdb : db.Unattempted j)
    (hacc : ∀ p ∈ tr, p.2.rejected cfg p.1 = false) (hre : ∀ p ∈ tr, p.2.reopens p.1 j = false)
    (hrow : s.db.jobs.lookup j = some row) (hm : 1 ≤ row.maxAttempts) :
    AttemptsAccounted cfg j row.maxAttempts tr s := by
  have hK := attempts_run hdb hrun hacc hre
  have hT := hK.attempts.born row hrow hm
  -- the same before every step, with the same bound
  have hbefore : ∀ {tr₁ t a tr₂}, tr = tr₁ ++ (t, a) :: tr₂ → AttemptsKept j tr₁ t ∧
      ∀ old, t.db.jobs.lookup j = some old →
        old.maxAttempts = row.maxAttempts ∧ Attempted j old (invocations tr₁ j) t := by
    rintro tr₁ t a tr₂ rfl
    obtain ⟨t', h₁, hs, h₂⟩ := hrun.split_cons
    have hK₁ := attempts_run hdb h₁ (fun p hp => hacc p (List.mem_append_left _ hp))
      (fun p hp => hre p (List.mem_append_left _ hp))
    refine ⟨hK₁, fun old hold => ?_⟩
    -- no statement changes `max_attempts`, so the bound of the end was the bound then
    obtain ⟨new, hnew, hdef⟩ := definition_run (.append (.single hs) h₂) hold
    rw [hrow] at hnew
    cases hnew
    exact ⟨hdef.maxAttempts.symm, hK₁.attempts.born old hold (hdef.maxAttempts ▸ hm)⟩
  refine ⟨?_, hT.agrees.le.2, ?_, ?_, ?_, ?_, ?_⟩
  · intro row' hrow'
    obtain rfl := Option.some.inj (hrow.symm.trans hrow')
    exact hT.agrees.le.1
  · intro row' hrow' hst
    obtain rfl := Option.some.inj (hrow.symm.trans hrow')
    have hun : row.status.undecided = true := by
      rcases hst with hst | hst | hst | hst <;> rw [hst] <;> rfl
    exact ((Job.agrees_undecided hun).mp hT.agrees).2
  · intro row' hrow' hdead
    obtain rfl := Option.some.inj (hrow.symm.trans hrow')
    have hagrees := hT.agrees
    rw [Job.Agrees, hdead] at hagrees
    exact ⟨hagrees.2, hT.buried hdead⟩
  · intro tr₁ t a tr₂ t' htr hs hnot hnow
    obtain ⟨hK₁, hrow₁⟩ := hbefore htr
    exact hK₁.dying hrow₁ hs hnot hnow
  · intro tr₁ t a tr₂ t' htr hs hnot hnow
    obtain ⟨hK₁, hrow₁⟩ := hbefore htr
    exact hK₁.completing hrow₁ hs hnot hnow
  · intro tr₁ t a tr₂ htr hev
    obtain ⟨hK₁, hrow₁⟩ := hbefore htr
    exact hK₁.starting hrow₁ hev

end

/-- Job 7 may be attempted twice. -/
def Db.smallTwice : Db := Db.small 1 [(7, { Job.small .queued with maxAttempts := 2 })]

/-- Both attempts of job 7 fail. -/
def failTwiceActions : List Action :=
  .start 0 (.claim 5 none none)
    :: Action.runs 0 { now := 0, pick := some 7, fresh := 100, handler := .error "" } 20
    ++ [.wait 1, .start 1 (.claim 6 none none)]
    ++ Action.runs 1 { now := 1, pick := some 7, fresh := 101, handler := .error "" } 22

theorem Db.smallTwice_unattempted : Db.smallTwice.Unattempted 7 where
  row := by
    intro row hrow
    cases hrow
    exact ⟨rfl, rfl⟩
  entries := by
    rintro x ⟨entry, hentry, _⟩
    cases hentry

theorem attempts_accounted_twice :
    AttemptsAccounted Config.small 7 2
      (trace (step Config.small) (Sys.atRest 0 Db.smallTwice) failTwiceActions)
      (play (step Config.small) (Sys.atRest 0 Db.smallTwice) failTwiceActions) :=
  attempts_accounted
    (run_of_play (step Config.small) (Sys.atRest 0 Db.smallTwice) failTwiceActions (by rfl))
    Db.smallTwice_unattempted (by decide) (by decide)
    (show _ = some { Job.small .deadLetter with
      workerId := some 6, attempts := 2, maxAttempts := 2, runAt := 1, updatedAt := 1
      failureSummary := some (generateFailureSummary "" .immediate 2) } from rfl) (by decide)

end JobScheduler
