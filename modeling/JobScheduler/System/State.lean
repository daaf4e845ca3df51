/-
  JobScheduler.System.State
  ─────────────────────────
  The whole system: the committed database and any number of clients, each a
  resumable program.  An action lets the clock advance, starts a client, or
  lets ONE client execute its next statement; every interleaving of the
  clients' statements is a list of actions.

  A worker that claims a job turns into the `executeJob` activation of that
  job, as the loop of `engine/worker.ts` does.  Nothing bounds the number of
  activations of one worker, and a client that is never scheduled again is a
  crashed one.
-/
import JobScheduler.Engine.Claimer
import JobScheduler.Engine.Executor
import JobScheduler.Engine.Scheduler
import JobScheduler.Routes.Submit
import JobScheduler.Routes.Operator
import JobScheduler.Library.Run

namespace JobScheduler

open Relational

/-! ## §1. Clients. -/

/-- A client's program. -/
inductive Proc
  | claim (c : Claim)
  | exec (e : Exec)
  | submit (r : Submit)
  | retry (r : Retry)
  | replay (r : Replay)
  | cancel (r : Cancel)
  | patch (r : Patch)
  | tick (t : Tick)

/-- What starts a client. -/
inductive Request
  | claim (workerId : UUID) (queueIds : Option (List UUID)) (shardKey : Option String)
  | submit (userId queueId : UUID) (body : CreateJobInput)
  | retry (userId jobId : UUID)
  | replay (userId entryId : UUID)
  | cancel (userId batchId : UUID)
  | patch (userId queueId : UUID) (updates : UpdateQueueInput)
  | tick (processId : Nat)

/-- The client at its first program point; `now` is the time of BEGIN. -/
def Request.start (now : Timestamp) : Request → Proc
  | .claim workerId queueIds shardKey =>
      .claim { workerId := workerId, queueIds := queueIds, shardKey := shardKey, now := now }
  | .submit userId queueId body => .submit { userId := userId, queueId := queueId, body := body }
  | .retry userId jobId => .retry { userId := userId, jobId := jobId }
  | .replay userId entryId => .replay { userId := userId, entryId := entryId }
  | .cancel userId batchId => .cancel { userId := userId, batchId := batchId }
  | .patch userId queueId updates =>
      .patch { userId := userId, queueId := queueId, updates := updates }
  | .tick processId => .tick { processId := processId }

/-- The loop of the worker: a claimed job is executed. -/
def Claim.toProc (c : Claim) : Proc :=
  match c.pc with
  | .returned (some (id, row)) => .exec { jobId := id, job := row, workerId := c.workerId }
  | _ => .claim c

namespace Proc

/-- The client's transaction holds the row lock of the queue. -/
def holdsQueue (id : UUID) : Proc → Bool
  | .claim c => c.holdsQueue id
  | _ => false

/-- The client's transaction holds the row lock of the job. -/
def holdsJob (id : UUID) : Proc → Bool
  | .claim c => c.holdsJob id
  | _ => false

/-- The client's next statement. -/
def step (cfg : Config) (ctx : Ctx) (env : Env) (db : Db) : Proc → Option (Db × Proc)
  | .claim c => (c.step ctx env db).map (fun r => (r.1, r.2.toProc))
  | .exec e => (e.step cfg ctx env db).map (fun r => (r.1, .exec r.2))
  | .submit p => (p.step cfg env db).map (fun r => (r.1, .submit r.2))
  | .retry p => (p.step cfg ctx env db).map (fun r => (r.1, .retry r.2))
  | .replay p => (p.step cfg ctx env db).map (fun r => (r.1, .replay r.2))
  | .cancel p => (p.step cfg ctx env db).map (fun r => (r.1, .cancel r.2))
  | .patch p => (p.step cfg ctx env db).map (fun r => (r.1, .patch r.2))
  | .tick t => (t.step cfg ctx env db).map (fun r => (r.1, .tick r.2))

end Proc

/-! ## §2. The system. -/

/-- A client and the time its previous statement took effect: its next one was
issued no earlier. -/
structure Client where
  since : Timestamp
  proc : Proc

/-- The clock, the database and the clients. -/
structure Sys where
  clock : Timestamp
  db : Db
  clients : Table Nat Client

/-- One step of the whole system, whichever client takes it. -/
inductive Action
  /-- Time passes. -/
  | wait (ms : Nat)
  /-- A new client starts. -/
  | start (pid : Nat) (request : Request)
  /-- The client executes its next statement. -/
  | run (pid : Nat) (env : Env)

namespace Sys

/-- The program of a client. -/
def proc (s : Sys) (pid : Nat) : Option Proc := (s.clients.lookup pid).map (·.proc)

/-- No open transaction has locked the queue row. -/
def queueFree (s : Sys) (id : UUID) : Bool :=
  s.clients.all (fun _ c => !c.proc.holdsQueue id)

/-- No open transaction has locked the job row. -/
def jobFree (s : Sys) (id : UUID) : Bool :=
  s.clients.all (fun _ c => !c.proc.holdsJob id)

/-- What a client's next statement can see of the others. -/
def ctx (s : Sys) : Ctx where
  clock := s.clock
  queueFree := s.queueFree
  jobFree := s.jobFree

/-- The system after client `pid` has become `p` and the database `db`. -/
def put (s : Sys) (pid : Nat) (db : Db) (p : Proc) : Sys where
  clock := s.clock
  db := db
  clients := s.clients.insert pid { since := s.clock, proc := p }

end Sys

/-- One action; `none` when it is not possible in this state. -/
def step (cfg : Config) (s : Sys) : Action → Option Sys
  | .wait ms => some { s with clock := s.clock + ms }
  | .start pid request =>
      if pid ∈ s.clients then none else some (s.put pid s.db (request.start s.clock))
  | .run pid env =>
      match s.clients.lookup pid with
      | none => none
      | some client =>
          -- a statement that waited for a lock keeps the time it was issued
          if client.since ≤ env.now ∧ env.now ≤ s.clock then
            (client.proc.step cfg s.ctx env s.db).map (fun r => s.put pid r.1 r.2)
          else none

/-- Runs of the system. -/
abbrev SysRun (cfg : Config) (s₀ : Sys) (tr : List (Sys × Action)) (s : Sys) : Prop :=
  Transition.Run (step cfg) s₀ tr s

/-- A system at rest: any database, no client. -/
def Sys.atRest (clock : Timestamp) (db : Db) : Sys := { clock := clock, db := db, clients := ∅ }

/-! ## §3. Steps seen from one client. -/

namespace Sys

variable {cfg : Config} {s s' : Sys} {pid k : Nat} {env : Env}

@[simp] theorem put_db (s : Sys) (pid : Nat) (db : Db) (p : Proc) : (s.put pid db p).db = db := rfl

@[simp] theorem put_clock (s : Sys) (pid : Nat) (db : Db) (p : Proc) :
    (s.put pid db p).clock = s.clock := rfl

/-- Storing a client leaves the other clients. -/
theorem put_proc (s : Sys) (pid k : Nat) (db : Db) (p : Proc) :
    (s.put pid db p).proc k = if k = pid then some p else s.proc k := by
  unfold proc put
  rw [Table.lookup_insert_ite]
  split <;> rfl

@[simp] theorem put_proc_self (s : Sys) (pid : Nat) (db : Db) (p : Proc) :
    (s.put pid db p).proc pid = some p := by rw [put_proc, if_pos rfl]

theorem put_proc_ne (s : Sys) {pid k : Nat} (db : Db) (p : Proc) (h : k ≠ pid) :
    (s.put pid db p).proc k = s.proc k := by rw [put_proc, if_neg h]

@[simp] theorem atRest_proc (clock : Timestamp) (db : Db) (k : Nat) :
    (atRest clock db).proc k = none := rfl

theorem clients_all_iff (s : Sys) (f : Proc → Bool) :
    s.clients.all (fun _ c => f c.proc) = true ↔ ∀ k p, s.proc k = some p → f p = true := by
  unfold proc
  rw [Table.all_iff]
  constructor
  · intro h k p hp
    obtain ⟨c, hc, rfl⟩ := Option.map_eq_some_iff.mp hp
    exact h k c hc
  · intro h k c hc
    exact h k c.proc (by simp [hc])

/-- A queue row is free when no client holds it. -/
theorem queueFree_iff (s : Sys) (id : UUID) :
    s.queueFree id = true ↔ ∀ k p, s.proc k = some p → p.holdsQueue id = false :=
  (s.clients_all_iff (fun p => !p.holdsQueue id)).trans (by simp)

/-- A job row is free when no client holds it. -/
theorem jobFree_iff (s : Sys) (id : UUID) :
    s.jobFree id = true ↔ ∀ k p, s.proc k = some p → p.holdsJob id = false :=
  (s.clients_all_iff (fun p => !p.holdsJob id)).trans (by simp)

end Sys

/-- What the three kinds of action do to the system. -/
inductive Stepped (cfg : Config) (s : Sys) : Action → Sys → Prop
  | wait (ms : Nat) : Stepped cfg s (.wait ms) { s with clock := s.clock + ms }
  | start (pid : Nat) (request : Request) (hfree : s.proc pid = none) :
      Stepped cfg s (.start pid request) (s.put pid s.db (request.start s.clock))
  | run (pid : Nat) (env : Env) (p p' : Proc) (db' : Db) (hp : s.proc pid = some p)
      (hnow : env.now ≤ s.clock) (hstep : p.step cfg s.ctx env s.db = some (db', p')) :
      Stepped cfg s (.run pid env) (s.put pid db' p')

/-- **Inversion of one step.** -/
theorem stepped {cfg : Config} {s s' : Sys} {a : Action} (h : step cfg s a = some s') :
    Stepped cfg s a s' := by
  cases a with
  | wait ms =>
      obtain rfl := Option.some.inj h
      exact .wait ms
  | start pid request =>
      simp only [step] at h
      split at h
      · cases h
      · rename_i hfree
        obtain rfl := Option.some.inj h
        refine .start pid request ?_
        unfold Sys.proc
        rw [AList.lookup_eq_none.mpr hfree]
        rfl
  | run pid env =>
      simp only [step] at h
      cases hc : s.clients.lookup pid with
      | none => simp [hc] at h
      | some client =>
          simp only [hc] at h
          split at h
          · rename_i hnow
            obtain ⟨⟨db', p'⟩, hr, rfl⟩ := Option.map_eq_some_iff.mp h
            exact .run pid env client.proc p' db' (by unfold Sys.proc; rw [hc]; rfl) hnow.2 hr
          · cases h

theorem clock_mono {cfg : Config} {s s' : Sys} {a : Action} (h : step cfg s a = some s') :
    s.clock ≤ s'.clock := by
  cases stepped h with
  | wait ms => exact le_add_of_nonneg_right (Int.natCast_nonneg ms)
  | start | run => exact le_refl _

/-- Where the program of client `k` after a step comes from: the client did not
move, it was started, or it took the step. -/
inductive Origin (cfg : Config) (s s' : Sys) (a : Action) (k : Nat) (p' : Proc) : Prop
  | idle (hk : s.proc k = some p') (hne : ∀ env, a ≠ .run k env)
  | started (request : Request) (ha : a = .start k request) (hp : p' = request.start s.clock)
      (hdb : s'.db = s.db)
  | moved (env : Env) (p : Proc) (ha : a = .run k env) (hk : s.proc k = some p)
      (hs : p.step cfg s.ctx env s.db = some (s'.db, p'))

theorem origin {cfg : Config} {s s' : Sys} {a : Action} {k : Nat} {p' : Proc}
    (h : step cfg s a = some s') (hk : s'.proc k = some p') : Origin cfg s s' a k p' := by
  cases stepped h with
  | wait ms => exact .idle hk (by simp)
  | start pid request hfree =>
      rw [Sys.put_proc] at hk
      split at hk
      · rename_i hkp
        exact .started request (by rw [hkp]) (Option.some.inj hk).symm rfl
      · exact .idle hk (by simp)
  | run pid env p q db' hp hnow hstep =>
      rw [Sys.put_proc] at hk
      split at hk
      · rename_i hkp
        subst hkp
        cases hk
        exact .moved env p rfl hp hstep
      · rename_i hkp
        exact .idle hk (fun env' he => hkp (by cases he; rfl))

/-- Where client `k` goes in a step: it idles, or it executes its next statement. -/
theorem proc_next {cfg : Config} {s s' : Sys} {a : Action} {k : Nat} {p : Proc}
    (h : step cfg s a = some s') (hk : s.proc k = some p) :
    (s'.proc k = some p ∧ ∀ env, a ≠ .run k env) ∨
      ∃ env p', a = .run k env ∧ s'.proc k = some p' ∧
        p.step cfg s.ctx env s.db = some (s'.db, p') := by
  cases stepped h with
  | wait ms => exact .inl ⟨hk, by simp⟩
  | start pid request hfree =>
      -- a client in flight is not started again
      have hne : k ≠ pid := by rintro rfl; rw [hk] at hfree; cases hfree
      exact .inl ⟨by rw [Sys.put_proc_ne _ _ _ hne]; exact hk, by simp⟩
  | run pid env q p' db' hq _ hstep =>
      by_cases hkp : k = pid
      · subst hkp
        rw [hk] at hq
        cases hq
        exact .inr ⟨env, p', rfl, Sys.put_proc_self _ _ _ _, hstep⟩
      · exact .inl ⟨by rw [Sys.put_proc_ne _ _ _ hkp]; exact hk,
          fun env' he => hkp (by cases he; rfl)⟩

/-- The step of client `k` executes its next statement. -/
theorem proc_run {cfg : Config} {s s' : Sys} {k : Nat} {env : Env} {p : Proc}
    (h : step cfg s (.run k env) = some s') (hk : s.proc k = some p) :
    ∃ p', s'.proc k = some p' ∧ p.step cfg s.ctx env s.db = some (s'.db, p') := by
  rcases proc_next h hk with ⟨_, hne⟩ | ⟨env', p', heq, hk', hs⟩
  · exact absurd rfl (hne env)
  · cases heq
    exact ⟨p', hk', hs⟩

/-! ## §4. Clients keep their kind, except that a COMMIT starts an activation. -/

section
variable {cfg : Config} {ctx : Ctx} {env : Env} {db db' : Db} {p : Proc}

/-- What a statement of a client is: one of its program's. -/
inductive Proc.Stepped (cfg : Config) (ctx : Ctx) (env : Env) (db db' : Db) : Proc → Proc → Prop
  | claim (c c' : Claim) (hq : c.step ctx env db = some (db', c')) :
      Stepped cfg ctx env db db' (.claim c) c'.toProc
  | exec (e e' : Exec) (hq : e.step cfg ctx env db = some (db', e')) :
      Stepped cfg ctx env db db' (.exec e) (.exec e')
  | submit (r r' : Submit) (hq : r.step cfg env db = some (db', r')) :
      Stepped cfg ctx env db db' (.submit r) (.submit r')
  | retry (r r' : Retry) (hq : r.step cfg ctx env db = some (db', r')) :
      Stepped cfg ctx env db db' (.retry r) (.retry r')
  | replay (r r' : Replay) (hq : r.step cfg ctx env db = some (db', r')) :
      Stepped cfg ctx env db db' (.replay r) (.replay r')
  | cancel (r r' : Cancel) (hq : r.step cfg ctx env db = some (db', r')) :
      Stepped cfg ctx env db db' (.cancel r) (.cancel r')
  | patch (r r' : Patch) (hq : r.step cfg ctx env db = some (db', r')) :
      Stepped cfg ctx env db db' (.patch r) (.patch r')
  | tick (t t' : Tick) (hq : t.step cfg ctx env db = some (db', t')) :
      Stepped cfg ctx env db db' (.tick t) (.tick t')

/-- A statement of a client, kind by kind. -/
theorem Proc.stepped {p' : Proc} (h : p.step cfg ctx env db = some (db', p')) :
    Proc.Stepped cfg ctx env db db' p p' := by
  cases p <;> obtain ⟨⟨d, q⟩, hq, he⟩ := Option.map_eq_some_iff.mp h <;> cases he
  case claim c => exact .claim c q hq
  case exec e => exact .exec e q hq
  case submit r => exact .submit r q hq
  case retry r => exact .retry r q hq
  case replay r => exact .replay r q hq
  case cancel r => exact .cancel r q hq
  case patch r => exact .patch r q hq
  case tick t => exact .tick t q hq

theorem claim_of_step {c' : Claim} (h : p.step cfg ctx env db = some (db', .claim c')) :
    ∃ c, p = .claim c ∧ c.step ctx env db = some (db', c') := by
  cases p <;> obtain ⟨⟨d, q⟩, hq, he⟩ := Option.map_eq_some_iff.mp h <;>
    simp only [Prod.mk.injEq, reduceCtorEq, and_false] at he
  rename_i c
  obtain ⟨rfl, hto⟩ := he
  unfold Claim.toProc at hto
  split at hto
  · cases hto
  · exact ⟨c, rfl, Proc.claim.inj hto ▸ hq⟩

theorem submit_of_step {r' : Submit} (h : p.step cfg ctx env db = some (db', .submit r')) :
    ∃ r, p = .submit r ∧ r.step cfg env db = some (db', r') := by
  cases p <;> obtain ⟨⟨d, q⟩, hq, he⟩ := Option.map_eq_some_iff.mp h <;>
    simp only [Prod.mk.injEq, reduceCtorEq, and_false] at he
  case submit r => exact ⟨r, rfl, he.1 ▸ Proc.submit.inj he.2 ▸ hq⟩
  case claim c =>
    unfold Claim.toProc at he
    split at he <;> simp at he

theorem patch_of_step {r' : Patch} (h : p.step cfg ctx env db = some (db', .patch r')) :
    ∃ r, p = .patch r ∧ r.step cfg ctx env db = some (db', r') := by
  cases p <;> obtain ⟨⟨d, q⟩, hq, he⟩ := Option.map_eq_some_iff.mp h <;>
    simp only [Prod.mk.injEq, reduceCtorEq, and_false] at he
  case patch r => exact ⟨r, rfl, he.1 ▸ Proc.patch.inj he.2 ▸ hq⟩
  case claim c =>
    unfold Claim.toProc at he
    split at he <;> simp at he

end

/-! ## §5. A small system: user 1, who owns the organisation of queue 1. -/

/-- No payload is too long, and no cron expression has a next run. -/
def Config.small : Config := { notifyBytes := fun _ => 0, cronNext := fun _ _ => none }

/-- Every millisecond is an occurrence. -/
def Config.smallCron : Config := { notifyBytes := fun _ => 0, cronNext := fun _ t => some (t + 1) }

/-- A queue of project 1 with the given `concurrency_limit`. -/
def Queue.small (limit : Nat) : Queue where
  projectId := 1
  name := ""
  priority := 0
  concurrencyLimit := limit
  retryPolicyId := some 1
  isPaused := false
  shardKey := ""

/-- A job of queue 1 with the given status. -/
def Job.small (status : JobStatus) : Job where
  queueId := 1
  type := .immediate
  taskType := .simulated
  payload := ""
  status := status
  priority := 0
  runAt := 0
  attempts := 0
  maxAttempts := 3
  idempotencyKey := none
  workerId := none
  batchId := none
  shardKey := ""
  failureSummary := none
  resultData := none
  updatedAt := 0

/-- Retries come after one millisecond, without jitter. -/
def RetryPolicy.small : RetryPolicy where
  strategy := .fixed
  baseDelayMs := 1
  maxRetries := 3
  maxDelayMs := 1
  jitter := false

/-- One organisation with one project and one queue that holds the given jobs. -/
def Db.small (limit : Nat) (jobs : List (UUID × Job)) : Db :=
  { Db.empty with
    projects := (∅ : Table UUID Project).insert 1 ⟨1⟩
    members := [⟨1, 1, .owner⟩]
    retryPolicies := (∅ : Table UUID RetryPolicy).insert 1 RetryPolicy.small
    queues := (∅ : Table UUID Queue).insert 1 (Queue.small limit)
    jobs := jobs.foldr (fun j t => t.insert j.1 j.2) ∅ }

/-- Job 7 was dead-lettered once and then retried: its dead-letter entry 3 is
still there. -/
def Db.smallReplayable (limit : Nat) : Db :=
  { Db.small limit [(7, Job.small .queued)] with
    deadLetterQueue := (∅ : Table UUID DeadLetterEntry).insert 3
      { originalJobId := some 7, queueId := some 1, payload := some "", failureReason := "",
        attemptsMade := 3, failureSummary := "" } }

/-- An immediate job with the given prerequisites. -/
def CreateJobInput.small (dependsOn : List UUID) : CreateJobInput where
  type := .immediate
  taskType := .simulated
  payload := ""
  priority := 0
  maxAttempts := 3
  idempotencyKey := none
  dependsOnTexts := dependsOn.map (fun id => { value := id })
  callbackUrl := none
  delayMs := none
  runAt := none
  cronExpression := none
  batchJobs := []
  maxAttempts_pos := by decide
  batch_maxAttempts_pos := by simp
  delayed_has_delay := by simp
  scheduled_has_runAt := by simp
  recurring_has_cron := by simp
  batch_nonempty := by simp

/-- A batch of two jobs. -/
def CreateJobInput.smallBatch (maxAttempts : Nat) (hpos : 1 ≤ maxAttempts) : CreateJobInput where
  type := .batch
  taskType := .simulated
  payload := ""
  priority := 0
  maxAttempts := maxAttempts
  idempotencyKey := none
  dependsOnTexts := []
  callbackUrl := none
  delayMs := none
  runAt := none
  cronExpression := none
  batchJobs := List.replicate 2
    { taskType := .simulated, payload := "", priority := 0, maxAttempts := maxAttempts,
      idempotencyKey := none }
  maxAttempts_pos := hpos
  batch_maxAttempts_pos := by
    intro b hb
    obtain ⟨_, rfl⟩ := List.mem_replicate.mp hb
    exact hpos
  delayed_has_delay := by simp
  scheduled_has_runAt := by simp
  recurring_has_cron := by simp
  batch_nonempty := by simp

/-- A recurring job. -/
def CreateJobInput.smallRecurring : CreateJobInput where
  type := .recurring
  taskType := .simulated
  payload := ""
  priority := 0
  maxAttempts := 3
  idempotencyKey := none
  dependsOnTexts := []
  callbackUrl := none
  delayMs := none
  runAt := none
  cronExpression := some ""
  batchJobs := []
  maxAttempts_pos := by decide
  batch_maxAttempts_pos := by simp
  delayed_has_delay := by simp
  scheduled_has_runAt := by simp
  recurring_has_cron := by simp
  batch_nonempty := by simp

/-- `n` statements of one client, all alike. -/
def Action.runs (pid : Nat) (env : Env) (n : Nat) : List Action := List.replicate n (.run pid env)

end JobScheduler
