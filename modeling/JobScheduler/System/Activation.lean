/-
  JobScheduler.System.Activation
  ──────────────────────────────
  What an activation of `executeJob` knows about its job.  The program points
  are grouped into stages, one for each status the job row can have there, and
  the invariant says that a job has at most one activation in a live stage.

  Manual retries and DLQ replays reset a job behind the back of a running
  activation, so the invariant of job `j` holds in the runs that never reset
  `j`; failures, cancellations and every other client are allowed.
-/
import JobScheduler.System.Pending
import JobScheduler.Engine.ControlFlow

namespace JobScheduler

open Relational

/-! ## §1. Steps of an activation. -/

/-- A step is rejected and leaves the database alone, or is carried out. -/
theorem Exec.step_cases {cfg : Config} {ctx : Ctx} {env : Env} {e e' : Exec} {db db' : Db}
    (h : e.step cfg ctx env db = some (db', e')) :
    e.ready ctx env db = true ∧
    ((env.fails || e.overflows cfg) = true ∧ db' = db ∧ e' = e.goto (onThrow env.error e.pc) ∨
     (env.fails || e.overflows cfg) = false ∧ db' = e.effect env db ∧ e' = e.next env db) := by
  unfold Exec.step at h
  split at h
  · rename_i hready
    refine ⟨hready, ?_⟩
    split at h
    · rename_i hr
      cases h
      exact .inl ⟨hr, rfl, rfl⟩
    · rename_i hr
      cases h
      exact .inr ⟨by simpa using hr, rfl, rfl⟩
  · cases h

/-- The parameters of the call never change. -/
theorem Exec.next_params (env : Env) (e : Exec) (db : Db) :
    (e.next env db).jobId = e.jobId ∧ (e.next env db).job = e.job ∧
      (e.next env db).workerId = e.workerId := by
  unfold Exec.next
  split
  case h_1 => split <;> exact ⟨rfl, rfl, rfl⟩
  case h_7 => split <;> exact ⟨rfl, rfl, rfl⟩
  all_goals exact ⟨rfl, rfl, rfl⟩

/-- A call keeps its job and its worker. -/
theorem Exec.step_params {cfg : Config} {ctx : Ctx} {env : Env} {e e' : Exec} {db db' : Db}
    (h : e.step cfg ctx env db = some (db', e')) :
    e'.jobId = e.jobId ∧ e'.job = e.job ∧ e'.workerId = e.workerId := by
  obtain ⟨_, ⟨_, _, rfl⟩ | ⟨_, _, rfl⟩⟩ := Exec.step_cases h
  · exact ⟨rfl, rfl, rfl⟩
  · exact Exec.next_params env e db

/-- A client that executes a job after a step executed it before, or has just
committed the claim of it. -/
theorem exec_of_step {cfg : Config} {ctx : Ctx} {env : Env} {db db' : Db} {p : Proc} {e' : Exec}
    (h : p.step cfg ctx env db = some (db', .exec e')) :
    (∃ e, p = .exec e ∧ e.step cfg ctx env db = some (db', e')) ∨
    ∃ c j row, p = .claim c ∧ c.pc = .committing (some (j, row)) ∧
      db' = db.updateJob j c.claimed ∧
      e' = { jobId := j, job := row, workerId := c.workerId } := by
  cases p <;> obtain ⟨⟨d, q⟩, hq, he⟩ := Option.map_eq_some_iff.mp h <;>
    simp only [Prod.mk.injEq, reduceCtorEq, and_false] at he
  case exec e =>
    obtain ⟨rfl, heq⟩ := he
    exact .inl ⟨e, rfl, Proc.exec.inj heq ▸ hq⟩
  case claim c =>
    obtain ⟨rfl, hto⟩ := he
    refine .inr ⟨c, ?_⟩
    unfold Claim.toProc at hto
    split at hto
    · rename_i id row hret
      obtain ⟨hpc, hdb, hw⟩ := Claim.step_returned hq hret
      exact ⟨id, row, rfl, hpc, hdb, (Proc.exec.inj hto).symm.trans (by rw [hw])⟩
    · cases hto

/-- The activations of the next state: an idle one, the one that took the step,
or the one that a COMMIT started. -/
inductive ExecOrigin (cfg : Config) (s s' : Sys) (a : Action) (k : Nat) (e' : Exec) : Prop
  | idle (hk : s.proc k = some (.exec e')) (hne : ∀ env, a ≠ .run k env)
  | stepped (env : Env) (e : Exec) (ha : a = .run k env) (hk : s.proc k = some (.exec e))
      (hs : e.step cfg s.ctx env s.db = some (s'.db, e'))
  | committed (env : Env) (c : Claim) (j : UUID) (row : Job) (ha : a = .run k env)
      (hk : s.proc k = some (.claim c)) (hpc : c.pc = .committing (some (j, row)))
      (hdb : s'.db = s.db.updateJob j c.claimed)
      (he : e' = { jobId := j, job := row, workerId := c.workerId })

theorem Request.start_ne_exec (now : Timestamp) (r : Request) (e : Exec) : r.start now ≠ .exec e := by
  cases r <;> simp [Request.start]

theorem exec_origin {cfg : Config} {s s' : Sys} {a : Action} {k : Nat} {e' : Exec}
    (h : step cfg s a = some s') (hk : s'.proc k = some (.exec e')) :
    ExecOrigin cfg s s' a k e' := by
  cases origin h hk with
  | idle hk₀ hne => exact .idle hk₀ hne
  | started request _ hp _ => exact absurd hp.symm (Request.start_ne_exec _ _ _)
  | moved env p ha hk₀ hs =>
      rcases exec_of_step hs with ⟨e, rfl, he⟩ | ⟨c, j, row, rfl, hpc, hdb, he⟩
      · exact .stepped env e ha hk₀ he
      · exact .committed env c j row ha hk₀ hpc hdb he

/-- An activation idles or executes its next statement. -/
theorem exec_next {cfg : Config} {s s' : Sys} {a : Action} {k : Nat} {e : Exec}
    (h : step cfg s a = some s') (hk : s.proc k = some (.exec e)) :
    (s'.proc k = some (.exec e) ∧ ∀ env, a ≠ .run k env) ∨
      ∃ env e', a = .run k env ∧ s'.proc k = some (.exec e') ∧
        e.step cfg s.ctx env s.db = some (s'.db, e') := by
  rcases proc_next h hk with hidle | ⟨env, p', ha, hk', hstep⟩
  · exact .inl hidle
  · obtain ⟨⟨d, e'⟩, hs, he⟩ := Option.map_eq_some_iff.mp hstep
    obtain ⟨rfl, rfl⟩ := Prod.mk.inj he
    exact .inr ⟨env, e', ha, hk', hs⟩

/-- The client is no call of `executeJob` in flight. -/
def Proc.settled : Proc → Bool
  | .exec e => (match e.pc with
      | .returned => true
      | _ => false)
  | _ => true

/-- A settled call has returned. -/
theorem returned_of_settled {s : Sys} (h : s.clients.all (fun _ c => c.proc.settled) = true)
    {k : Nat} {e : Exec} (hk : s.proc k = some (.exec e)) : e.pc = .returned := by
  have hset := (s.clients_all_iff Proc.settled).mp h k _ hk
  unfold Proc.settled at hset
  dsimp only at hset
  split at hset
  · assumption
  · cases hset

/-! ## §2. Resets. -/

/-- The client's next statement resets job `j`. -/
def Proc.resets (j : UUID) : Proc → Bool
  | .retry r => (match r.pc with
      | .update => decide (r.jobId = j)
      | _ => false)
  | .replay r => (match r.pc with
      | .update i => decide (i = j)
      | _ => false)
  | _ => false

/-- The action is the UPDATE of a manual retry or of a DLQ replay of `j`. -/
def Action.resets (s : Sys) (j : UUID) : Action → Bool
  | .run pid _ => (s.proc pid).any (Proc.resets j)
  | _ => false

/-- A retry or a replay: an operator revives a job. -/
def Request.manual : Request → Bool
  | .retry _ _ | .replay _ _ => true
  | _ => false

/-- The action starts a manual retry or a DLQ replay. -/
def Action.manual : Action → Bool
  | .start _ request => request.manual
  | _ => false

/-- A system without manual retries and replays. -/
def ManualFree (s : Sys) : Prop :=
  ∀ k p, s.proc k = some p → (∀ r, p ≠ .retry r) ∧ (∀ r, p ≠ .replay r)

theorem manualFree_atRest (clock : Timestamp) (db : Db) : ManualFree (Sys.atRest clock db) := by
  intro k p h
  simp at h

/-- The client is a manual retry or a DLQ replay. -/
def Proc.manual : Proc → Bool
  | .retry _ | .replay _ => true
  | _ => false

theorem manualFree_of_all {s : Sys} (h : s.clients.all (fun _ c => !c.proc.manual) = true) :
    ManualFree s := by
  intro k p hk
  have hno := (s.clients_all_iff (fun p => !p.manual)).mp h k p hk
  refine ⟨?_, ?_⟩ <;> rintro r rfl <;> cases hno

/-- A step that is no manual request starts none. -/
theorem manualFree_step {cfg : Config} {s s' : Sys} {a : Action} (hM : ManualFree s)
    (ha : a.manual = false) (h : step cfg s a = some s') : ManualFree s' := by
  intro k p' hk
  cases origin h hk with
  | idle hk₀ _ => exact hM k p' hk₀
  | started request ha' hp _ =>
      subst ha' hp
      cases request <;> simp [Request.start] <;> simp [Action.manual, Request.manual] at ha
  | moved env p _ hk₀ hs =>
      obtain ⟨hretry, hreplay⟩ := hM k p hk₀
      cases p with
      | retry r => exact absurd rfl (hretry r)
      | replay r => exact absurd rfl (hreplay r)
      | claim c =>
          obtain ⟨r, _, hr⟩ := Option.map_eq_some_iff.mp hs
          rw [← (Prod.mk.inj hr).2]
          unfold Claim.toProc
          split <;> simp
      | _ =>
          obtain ⟨r, _, hr⟩ := Option.map_eq_some_iff.mp hs
          rw [← (Prod.mk.inj hr).2]
          simp

/-- Without manual requests nothing is reset. -/
theorem ManualFree.not_resets {s : Sys} (hM : ManualFree s) (a : Action) (j : UUID) :
    a.resets s j = false := by
  cases a with
  | run pid env =>
      cases hp : s.proc pid with
      | none => simp [Action.resets, hp]
      | some p =>
          obtain ⟨hretry, hreplay⟩ := hM pid p hp
          cases p <;> simp_all [Action.resets, Proc.resets]
  | _ => rfl

/-- The action is a statement of `executeJob` that is rejected. -/
def Action.rejected (cfg : Config) (s : Sys) : Action → Bool
  | .run pid env =>
      match s.proc pid with
      | some (.exec e) => env.fails || e.overflows cfg
      | _ => false
  | _ => false

/-- The action is a statement of an activation that satisfies `f`. -/
def Action.ofExec (s : Sys) (f : Env → Exec → Bool) : Action → Bool
  | .run pid env =>
      match s.proc pid with
      | some (.exec e) => f env e
      | _ => false
  | _ => false

/-- An action of an `executeJob` call with the given property. -/
theorem ofExec_iff {s : Sys} {f : Env → Exec → Bool} {a : Action} :
    a.ofExec s f = true ↔
      ∃ k env e, a = .run k env ∧ s.proc k = some (.exec e) ∧ f env e = true := by
  constructor
  · intro h
    cases a with
    | run pid env =>
        simp only [Action.ofExec] at h
        split at h
        · rename_i e hp
          exact ⟨pid, env, e, rfl, hp, h⟩
        · cases h
    | _ => cases h
  · rintro ⟨k, env, e, rfl, hk, hf⟩
    simp [Action.ofExec, hk, hf]

/-- A statement that is not rejected is carried out. -/
theorem Exec.step_accepted {cfg : Config} {s : Sys} {env : Env} {k : Nat} {e e' : Exec} {db' : Db}
    (hk : s.proc k = some (.exec e)) (ha : (Action.run k env).rejected cfg s = false)
    (h : e.step cfg s.ctx env s.db = some (db', e')) :
    e.ready s.ctx env s.db = true ∧ db' = e.effect env s.db ∧ e' = e.next env s.db := by
  simp only [Action.rejected, hk] at ha
  obtain ⟨hready, ⟨hr, _⟩ | ⟨_, hdb, he⟩⟩ := Exec.step_cases h
  · rw [ha] at hr
    cases hr
  · exact ⟨hready, hdb, he⟩

/-- The next statement of an activation, when it is not rejected. -/
theorem exec_accepted {cfg : Config} {s s' : Sys} {env : Env} {k : Nat} {e : Exec}
    (h : step cfg s (.run k env) = some s') (hk : s.proc k = some (.exec e))
    (ha : (Action.run k env).rejected cfg s = false) :
    s'.db = e.effect env s.db ∧ s'.proc k = some (.exec (e.next env s.db)) := by
  rcases exec_next h hk with ⟨_, hne⟩ | ⟨env', e', heq, hk', hs⟩
  · exact absurd rfl (hne env)
  · cases heq
    obtain ⟨_, hdb, rfl⟩ := Exec.step_accepted hk ha hs
    exact ⟨hdb, hk'⟩

/-! ## §3. Stages. -/

/-- How far an `executeJob` call has brought its job. -/
inductive Stage
  | claimed | running | completed | caught | deadLettered | ended
  deriving DecidableEq

/-- The stage at which the batch is told this result. -/
def BatchResult.stage : BatchResult → Stage
  | .completed => .completed
  | .failed => .deadLettered

/-- The stage of a call at this `publishEvent`. -/
def PublishSite.stage : PublishSite → Stage
  | .running => .running
  | .completed | .released _ _ => .completed
  | .batchCompleted result _ => result.stage
  | .retryScheduled _ => .ended
  | .deadLettered _ => .deadLettered

/-- The stage of a call at this `logJob`. -/
def LogSite.stage : LogSite → Stage
  | .started => .running
  | .succeeded | .released _ _ => .completed
  | .attemptFailed _ => .caught
  | .retryScheduled _ _ _ => .ended
  | .movedToDlq _ | .failureSummary _ => .deadLettered

/-- A call that has given its job back, or is about to release its lock, is over. -/
def ExecPc.stage : ExecPc → Stage
  | .acquire | .setRunning => .claimed
  | .insertExecution | .handler | .setCompleted _ => .running
  | .executionCompleted _ | .unblock => .completed
  | .executionFailed _ | .selectPolicy _ | .requeue _ _ _ | .deadLetter _ => .caught
  | .insertDeadLetter _ => .deadLettered
  | .publish site | .notify site => site.stage
  | .log site => site.stage
  | .batchProgress result | .batchStatus result _ | .callback result _ => result.stage
  | .release | .returned => .ended

/-- The stage of a call. -/
def Exec.stage (e : Exec) : Stage := e.pc.stage

/-- The statuses the job row may have in a stage. -/
def Stage.allows : Stage → JobStatus → Prop
  | .claimed, st => st = .claimed
  | .running, st => st = .running
  | .completed, st => st = .completed
  | .caught, st => st = .running ∨ st = .completed
  | .deadLettered, st => st = .deadLetter
  | .ended, _ => True

/-- A job in the hands of a live activation is not waiting. -/
theorem Stage.allows_not_pending {g : Stage} {st : JobStatus} (h : g.allows st) (hl : g ≠ .ended) :
    st ≠ .queued ∧ st ≠ .scheduled ∧ st ≠ .blocked := by
  cases g <;> simp only [Stage.allows, ne_eq, not_true_eq_false] at h hl
  case caught => rcases h with rfl | rfl <;> decide
  all_goals subst h; decide

/-- The ways from one stage to the next. -/
inductive Stage.Next : Stage → Stage → Prop
  | same (g : Stage) : Next g g
  | start : Next .claimed .running
  | complete : Next .running .completed
  | fail : Next .running .caught
  | deadLetter : Next .caught .deadLettered
  | ended (g : Stage) : Next g .ended

/-- A rejection ends the call, is swallowed, or enters the inner `catch`. -/
theorem onThrow_stage (error : String) (pc : ExecPc) :
    (Exec.onThrow error pc).stage = .ended ∨ (Exec.onThrow error pc).stage = pc.stage ∨
      ((Exec.onThrow error pc).stage = .caught ∧ (pc.stage = .running ∨ pc.stage = .completed)) := by
  cases pc with
  | publish site | notify site =>
      cases site with
      | batchCompleted result batch => cases result <;> simp [Exec.onThrow, Exec.throwPublish, ExecPc.stage, PublishSite.stage, BatchResult.stage]
      | _ => simp [Exec.onThrow, Exec.throwPublish, ExecPc.stage, PublishSite.stage]
  | log site => cases site <;> simp [Exec.onThrow, Exec.afterLog, ExecPc.stage, LogSite.stage, PublishSite.stage]
  | batchProgress result | batchStatus result batch | callback result batch =>
      cases result <;> simp [Exec.onThrow, ExecPc.stage, BatchResult.stage]
  | _ => simp [Exec.onThrow, ExecPc.stage]

/-- After the released rows the call stays on the success path or is over. -/
theorem Exec.releaseLoop_stage (e : Exec) (rows : List (UUID × Job)) :
    Stage.Next .completed (e.releaseLoop rows).stage := by
  cases rows with
  | nil =>
      cases hb : e.job.batchId <;> simp only [Exec.releaseLoop, Exec.afterDependents, hb] <;>
        constructor
  | cons job rest => exact .same _

/-- The decision of the `catch` block is not yet a write. -/
theorem Exec.afterPolicy_stage (e : Exec) (env : Env) (db : Db) (error : String) :
    (e.afterPolicy env db error).stage = .caught := by
  unfold Exec.afterPolicy
  dsimp only
  split <;> rfl

/-- Along the control flow the stage goes on or stays. -/
theorem Exec.Flow.stage {env : Env} {e : Exec} {db : Db} {pc pc' : ExecPc}
    (h : Exec.Flow env e db pc pc') : Stage.Next pc.stage pc'.stage := by
  cases h with
  | logged site => cases site <;> constructor
  | looped _ hpc | counts _ hpc | uncounted _ hpc =>
      obtain rfl | ⟨_, _, rfl⟩ := hpc <;> constructor
  | _ => constructor

/-- The next statement is at the same stage or the next. -/
theorem Exec.next_stage (env : Env) (e : Exec) (db : Db) :
    Stage.Next e.stage (e.next env db).stage :=
  (e.flow env db).stage

/-- A rejection on the success path enters the same `catch` as a failed handler. -/
theorem Exec.step_stage {cfg : Config} {ctx : Ctx} {env : Env} {e e' : Exec} {db db' : Db}
    (h : e.step cfg ctx env db = some (db', e')) :
    Stage.Next e.stage e'.stage ∨ (e.stage = .completed ∧ e'.stage = .caught) := by
  obtain ⟨_, ⟨_, _, rfl⟩ | ⟨_, _, rfl⟩⟩ := Exec.step_cases h
  · rcases onThrow_stage env.error e.pc with hg | hg | ⟨hg, hr | hc⟩
    · exact .inl ((show (e.goto _).stage = .ended from hg) ▸ .ended _)
    · exact .inl ((show (e.goto _).stage = e.stage from hg) ▸ .same _)
    · exact .inl ((show (e.goto _).stage = .caught from hg) ▸
        (show e.stage = .running from hr) ▸ .fail)
    · exact .inr ⟨hc, hg⟩
  · exact .inl (e.next_stage env db)

/-- Stages in which a call relies on the row of its job: all those in which it may
still write the row, and not the end. -/
structure Stage.Relying (live : Stage → Prop) : Prop where
  claimed : live .claimed
  running : live .running
  completed : live .completed
  caught : live .caught
  ended : ¬ live .ended

/-- A call that is not over. -/
theorem Stage.relying_live : Stage.Relying (· ≠ .ended) where
  claimed := by simp
  running := by simp
  completed := by simp
  caught := by simp
  ended := by simp

/-- A call that relies on its row has done so from its start. -/
theorem Exec.step_relying {live : Stage → Prop} (hlive : Stage.Relying live) {cfg : Config}
    {ctx : Ctx} {env : Env} {e e' : Exec} {db db' : Db}
    (h : e.step cfg ctx env db = some (db', e')) (hl : live e'.stage) : live e.stage := by
  rcases Exec.step_stage h with hn | ⟨hc, _⟩
  · generalize e.stage = g at hn ⊢
    generalize e'.stage = g' at hn hl
    cases hn with
    | same => exact hl
    | start => exact hlive.claimed
    | complete | fail => exact hlive.running
    | deadLetter => exact hlive.caught
    | ended => exact absurd hl hlive.ended
  · rw [hc]
    exact hlive.completed

theorem Stage.Next.allows_completed {g : Stage} {st : JobStatus} (h : Stage.Next .completed g)
    (ha : Stage.completed.allows st) : g.allows st := by
  cases h with
  | same => exact ha
  | ended => trivial

/-- **Own step.**  An activation moves its row and its stage together. -/
theorem Exec.step_allows {cfg : Config} {ctx : Ctx} {env : Env} {e e' : Exec} {db db' : Db}
    {old : Job} (h : e.step cfg ctx env db = some (db', e'))
    (hold : db.jobs.lookup e.jobId = some old) (ha : e.stage.allows old.status) :
    ∃ new, db'.jobs.lookup e.jobId = some new ∧ e'.stage.allows new.status := by
  obtain ⟨_, ⟨_, rfl, rfl⟩ | ⟨_, rfl, rfl⟩⟩ := Exec.step_cases h
  · refine ⟨old, hold, ?_⟩
    have hgoto : (e.goto (onThrow env.error e.pc)).stage = (onThrow env.error e.pc).stage := rfl
    unfold Exec.stage at ha
    rw [hgoto]
    -- a rejection leaves the row, and `caught` allows what it finds
    rcases onThrow_stage env.error e.pc with hg | hg | ⟨hg, hr | hc⟩
    · rw [hg]; trivial
    · rw [hg]; exact ha
    · rw [hg]; rw [hr] at ha; exact .inl ha
    · rw [hg]; rw [hc] at ha; exact .inr ha
  · unfold Exec.stage at ha ⊢
    cases hpc : e.pc <;> simp only [hpc, Exec.effect, Exec.next] at ha ⊢
    case acquire =>
      refine ⟨old, hold, ?_⟩
      split
      · exact ha
      · trivial
    case setRunning => exact ⟨_, updateJob_lookup_self _ hold, rfl⟩
    case publish site => exact ⟨old, hold, ha⟩
    case notify site =>
      refine ⟨old, hold, ?_⟩
      cases site with
      | running => exact ha
      | completed => exact ha
      | released job rest => exact (e.releaseLoop_stage rest).allows_completed ha
      | batchCompleted result batch =>
          cases hcb : batch.callbackUrl <;> simp only [Exec.goto, Exec.afterPublish, hcb]
          · trivial
          · exact ha
      | retryScheduled delay => trivial
      | deadLettered error =>
          cases hb : e.job.batchId <;> simp only [Exec.goto, Exec.afterPublish, Exec.afterDeadLetter, hb]
          · trivial
          · exact ha
    case insertExecution => exact ⟨old, hold, ha⟩
    case log site => exact ⟨old, hold, by cases site <;> exact ha⟩
    case handler =>
      refine ⟨old, hold, ?_⟩
      cases env.handler with
      | ok result => exact ha
      | error message => exact .inl ha
    case setCompleted result => exact ⟨_, updateJob_lookup_self _ hold, rfl⟩
    case executionCompleted result => exact ⟨old, hold, ha⟩
    case unblock =>
      refine ⟨old, ?_, (e.releaseLoop_stage _).allows_completed ha⟩
      -- the job itself is completed, so its own unblock statement skips it
      have hst : old.status = .completed := ha
      simp [hold, Db.releasable, hst]
    case batchProgress result =>
      refine ⟨old, hold, ?_⟩
      unfold Exec.afterProgress
      split
      · trivial
      · split
        · exact ha
        · trivial
    case batchStatus result batch => exact ⟨old, hold, ha⟩
    case callback result batch => exact ⟨old, hold, trivial⟩
    case executionFailed error => exact ⟨old, hold, ha⟩
    case selectPolicy error => exact ⟨old, hold, (e.afterPolicy_stage env db error).symm ▸ ha⟩
    case requeue delay n st => exact ⟨_, updateJob_lookup_self _ hold, trivial⟩
    case deadLetter error => exact ⟨_, updateJob_lookup_self _ hold, rfl⟩
    case insertDeadLetter error => exact ⟨old, hold, ha⟩
    case release => exact ⟨old, hold, trivial⟩
    case returned => exact ⟨old, hold, trivial⟩

/-! ## §4. The invariant. -/

/-- Every activation executes an existing job, with the definition it read. -/
def Defined (s : Sys) : Prop :=
  ∀ k e, s.proc k = some (.exec e) →
    ∃ old, s.db.jobs.lookup e.jobId = some old ∧ e.job.SameDefinition old

/-- The live activations of job `j`. -/
structure Activations (j : UUID) (s : Sys) : Prop where
  /-- The row has a status that the stage allows. -/
  row : ∀ k e, s.proc k = some (.exec e) → e.jobId = j → e.stage ≠ .ended →
    ∃ old, s.db.jobs.lookup j = some old ∧ e.stage.allows old.status
  /-- There is at most one. -/
  unique : ∀ k l e f, s.proc k = some (.exec e) → s.proc l = some (.exec f) →
    e.jobId = j → f.jobId = j → e.stage ≠ .ended → f.stage ≠ .ended → k = l

/-- The activations of job `j` in the stages `live`. -/
structure Held (live : Stage → Prop) (j : UUID) (s : Sys) : Prop where
  /-- The row has a status that the stage allows. -/
  row : ∀ k e, s.proc k = some (.exec e) → e.jobId = j → live e.stage →
    ∃ old, s.db.jobs.lookup j = some old ∧ e.stage.allows old.status
  /-- There is at most one. -/
  unique : ∀ k l e f, s.proc k = some (.exec e) → s.proc l = some (.exec f) →
    e.jobId = j → f.jobId = j → live e.stage → live f.stage → k = l

theorem Activations.held {j : UUID} {s : Sys} (hA : Activations j s) : Held (· ≠ .ended) j s :=
  ⟨hA.row, hA.unique⟩

theorem held_atRest (live : Stage → Prop) (j : UUID) (clock : Timestamp) (db : Db) :
    Held live j (Sys.atRest clock db) where
  row := by intro k e h; simp at h
  unique := by intro k l e f h; simp at h

theorem defined_atRest (clock : Timestamp) (db : Db) : Defined (Sys.atRest clock db) := by
  intro k e h
  simp at h

/-- No call yet, so none is left alone. -/
theorem activations_atRest (j : UUID) (clock : Timestamp) (db : Db) :
    Activations j (Sys.atRest clock db) :=
  let hH := held_atRest (· ≠ .ended) j clock db
  ⟨hH.row, hH.unique⟩

/-- What an action does to the row of job `j`: nothing, or what the statement of
the client that moves does to it. -/
theorem step_row {cfg : Config} {s s' : Sys} {a : Action} (h : step cfg s a = some s') (j : UUID) :
    s'.db.jobs.lookup j = s.db.jobs.lookup j ∨
    ∃ pid env p, a = .run pid env ∧ s.proc pid = some p ∧ env.now ≤ s.clock ∧
      JobChange s.ctx env s.db j p (s.db.jobs.lookup j) (s'.db.jobs.lookup j) := by
  cases stepped h with
  | wait ms => exact .inl rfl
  | start pid request hfree => exact .inl rfl
  | run pid env p p' db' hp hnow hstep =>
      exact .inr ⟨pid, env, p, rfl, hp, hnow, Proc.step_jobs hstep⟩

/-- A row that exists stays, with the same definition. -/
theorem definition_stays {cfg : Config} {s s' : Sys} {a : Action} {j : UUID} {old : Job}
    (h : step cfg s a = some s') (hold : s.db.jobs.lookup j = some old) :
    ∃ new, s'.db.jobs.lookup j = some new ∧ old.SameDefinition new := by
  rcases step_row h j with heq | ⟨_, _, _, _, _, _, hch⟩
  · exact ⟨old, heq.trans hold, .refl old⟩
  · rw [hold] at hch
    exact hch.sameDefinition

/-- No statement deletes a job. -/
theorem row_stays {cfg : Config} {s s' : Sys} {a : Action} {j : UUID}
    (h : step cfg s a = some s') (hold : ∃ old, s.db.jobs.lookup j = some old) :
    ∃ new, s'.db.jobs.lookup j = some new := by
  obtain ⟨old, hold⟩ := hold
  obtain ⟨new, hnew, _⟩ := definition_stays h hold
  exact ⟨new, hnew⟩

/-- A call knows its job's definition after every step. -/
theorem defined_step {cfg : Config} {s s' : Sys} {a : Action} (hP : Pending s) (hD : Defined s)
    (h : step cfg s a = some s') : Defined s' := by
  intro k e' hk
  cases exec_origin h hk with
  | idle hk₀ _ =>
      obtain ⟨old, hold, hdef⟩ := hD k e' hk₀
      obtain ⟨new, hnew, hdef'⟩ := definition_stays h hold
      exact ⟨new, hnew, hdef.trans hdef'⟩
  | stepped env e _ hk₀ hs =>
      obtain ⟨old, hold, hdef⟩ := hD k e hk₀
      obtain ⟨new, hnew, hdef'⟩ := definition_stays h hold
      obtain ⟨hj, hrow, _⟩ := Exec.step_params hs
      rw [hj, hrow]
      exact ⟨new, hnew, hdef.trans hdef'⟩
  | committed env c j row _ hk₀ hpc hdb he =>
      obtain ⟨old, hold, _, hrow⟩ := hP.queued k c j row hk₀ hpc
      subst he
      rw [hdb]
      exact ⟨_, updateJob_lookup_self _ hold, hrow ▸ .refl _⟩

/-- **Frame.**  Nobody else touches the row of a job that a live activation relies
on, resets apart. -/
theorem Held.frame {live : Stage → Prop} (hlive : Stage.Relying live) {s : Sys} {env : Env}
    {k pid : Nat} {e : Exec} {p : Proc} {j : UUID} {new : Option Job} (hP : Pending s)
    (hH : Held live j s) (hk : s.proc k = some (.exec e)) (hj : e.jobId = j) (hl : live e.stage)
    (hp : s.proc pid = some p) (hne : pid ≠ k) (hr : p.resets j = false)
    (h : JobChange s.ctx env s.db j p (s.db.jobs.lookup j) new) :
    new = s.db.jobs.lookup j := by
  obtain ⟨old, hold, hallow⟩ := hH.row k e hk hj hl
  have hopen : e.stage ≠ .ended := fun hend => hlive.ended (hend ▸ hl)
  obtain ⟨hnq, hns, hnb⟩ := Stage.allows_not_pending hallow hopen
  have hother : ∀ f : Exec, p = .exec f → f.jobId = j → live f.stage → False := by
    intro f hf hfj hfl
    exact hne (hH.unique pid k f e (hf ▸ hp) hk hfj hj hfl hl)
  rw [hold] at h ⊢
  cases h with
  | same => rfl
  -- the stage allows no waiting status, and a claim takes a queued row
  | claimed c row _ hpc =>
      obtain ⟨o, ho, hq, _⟩ := hP.queued pid c j row hp hpc
      rw [hold] at ho
      exact absurd (Option.some.inj ho ▸ hq) hnq
  -- a second activation that relies on the row
  | running f _ hpc hfj => exact (hother f rfl hfj (by rw [Exec.stage, hpc]; exact hlive.claimed)).elim
  | completed f _ _ hpc hfj =>
      exact (hother f rfl hfj (by rw [Exec.stage, hpc]; exact hlive.running)).elim
  | requeued f _ _ _ _ hpc hfj | deadLettered f _ _ hpc hfj =>
      exact (hother f rfl hfj (by rw [Exec.stage, hpc]; exact hlive.caught)).elim
  | released f _ hpc hw => simp [Db.releasable, hnb] at hw
  | retried r _ hpc hrj => simp [Proc.resets, hpc, hrj] at hr
  | replayed r _ hpc => simp [Proc.resets, hpc] at hr
  | cancelled r _ _ hpc hw =>
      have hpend : old.status.pending = true := by
        simpa using (Bool.and_eq_true_iff.mp hw).2
      cases hst : old.status <;> simp_all [JobStatus.pending]
  | flipped t _ hpc hw => simp [Tick.flips, hns] at hw

/-- **The step rule.**  Rows and activations stay together in every step that does
not reset a job under a live activation. -/
theorem held_step {live : Stage → Prop} (hlive : Stage.Relying live) {cfg : Config} {s s' : Sys}
    {a : Action} {j : UUID} (hP : Pending s) (hH : Held live j s)
    (hr : a.resets s j = true → ∀ k e, s.proc k = some (.exec e) → e.jobId = j → ¬ live e.stage)
    (h : step cfg s a = some s') : Held live j s' := by
  -- a live activation after the step was live before, or was just committed
  have horigin : ∀ k e', s'.proc k = some (.exec e') → e'.jobId = j → live e'.stage →
      (∃ e, s.proc k = some (.exec e) ∧ e.jobId = j ∧ live e.stage) ∨
      ∃ c row, s.proc k = some (.claim c) ∧ c.pc = .committing (some (j, row)) := by
    intro k e' hk hj hl
    cases exec_origin h hk with
    | idle hk₀ _ => exact .inl ⟨e', hk₀, hj, hl⟩
    | stepped env e _ hk₀ hs =>
        exact .inl ⟨e, hk₀, (Exec.step_params hs).1 ▸ hj, Exec.step_relying hlive hs hl⟩
    | committed env c i row _ hk₀ hpc _ he =>
        subst he
        obtain rfl : i = j := hj
        exact .inr ⟨c, row, hk₀, hpc⟩
  -- no live activation while a claim is about to commit the job
  have hclash : ∀ k l e c row, s.proc k = some (.exec e) → e.jobId = j → live e.stage →
      s.proc l = some (.claim c) → c.pc = .committing (some (j, row)) → False := by
    intro k l e c row hk hj hl hc hpc
    obtain ⟨old, hold, hallow⟩ := hH.row k e hk hj hl
    obtain ⟨o, ho, hq, _⟩ := hP.queued l c j row hc hpc
    rw [hold] at ho
    exact (Stage.allows_not_pending hallow (fun hend => hlive.ended (hend ▸ hl))).1
      (Option.some.inj ho ▸ hq)
  refine ⟨?_, ?_⟩
  · intro k e' hk hj hl
    cases exec_origin h hk with
    | idle hk₀ hne =>
        obtain ⟨old, hold, hallow⟩ := hH.row k e' hk₀ hj hl
        refine ⟨old, ?_, hallow⟩
        rcases step_row h j with heq | ⟨pid, env, p, rfl, hp, _, hch⟩
        · exact heq.trans hold
        · have hnek : pid ≠ k := fun hpk => hne env (hpk ▸ rfl)
          have hres : p.resets j = false := by
            rw [Bool.eq_false_iff]
            intro hpr
            exact hr (by simpa [Action.resets, hp] using hpr) k e' hk₀ hj hl
          exact (hH.frame hlive hP hk₀ hj hl hp hnek hres hch).trans hold
    | stepped env e _ hk₀ hs =>
        have hej : e.jobId = j := (Exec.step_params hs).1 ▸ hj
        obtain ⟨old, hold, hallow⟩ := hH.row k e hk₀ hej (Exec.step_relying hlive hs hl)
        subst hej
        exact Exec.step_allows hs hold hallow
    | committed env c i row _ hk₀ hpc hdb he =>
        obtain ⟨old, hold, _⟩ := hP.queued k c i row hk₀ hpc
        subst he
        obtain rfl : i = j := hj
        rw [hdb]
        exact ⟨_, updateJob_lookup_self _ hold, rfl⟩
  · intro k l e f hk hl hej hfj hel hfl
    -- two live ones: both old, or one old and one new, or both new
    rcases horigin k e hk hej hel with ⟨e₀, hk₀, hej₀, hel₀⟩ | ⟨c, row, hk₀, hpc⟩ <;>
      rcases horigin l f hl hfj hfl with ⟨f₀, hl₀, hfj₀, hfl₀⟩ | ⟨d, row', hl₀, hpd⟩
    · exact hH.unique k l e₀ f₀ hk₀ hl₀ hej₀ hfj₀ hel₀ hfl₀
    · exact (hclash k l e₀ d row' hk₀ hej₀ hel₀ hl₀ hpd).elim
    · exact (hclash l k f₀ c row hl₀ hfj₀ hfl₀ hk₀ hpc).elim
    · exact hP.unique k l c d j row row' hk₀ hl₀ hpc hpd

/-- Client `k` is a call of `executeJob` for `j` that is not over. -/
def Proc.attends (j : UUID) : Proc → Bool
  | .exec e => decide (e.jobId = j) && decide (e.stage ≠ .ended)
  | _ => false

/-- The action is a reset of `j` while a call of `executeJob` for it is not over. -/
def Action.resetsLive (s : Sys) (j : UUID) (a : Action) : Bool :=
  a.resets s j && !s.clients.all (fun _ c => !c.proc.attends j)

/-- A reset that hits no live call finds none. -/
theorem not_attended_of_resets {s : Sys} {a : Action} {j : UUID}
    (hr : a.resetsLive s j = false) (ha : a.resets s j = true) :
    ∀ k e, s.proc k = some (.exec e) → e.jobId = j → ¬ e.stage ≠ .ended := by
  intro k e hk hj hl
  simp only [Action.resetsLive, ha, Bool.true_and, Bool.not_eq_false'] at hr
  have hno := (s.clients_all_iff (fun p => !p.attends j)).mp hr k _ hk
  simp [Proc.attends, hj, hl] at hno

/-- A job in the hands of a live call is not reset. -/
theorem not_resets_of_live {s : Sys} {a : Action} {j : UUID} (hr : a.resetsLive s j = false)
    {k : Nat} {e : Exec} (hk : s.proc k = some (.exec e)) (hj : e.jobId = j)
    (hl : e.stage ≠ .ended) : a.resets s j = false := by
  rw [Bool.eq_false_iff]
  exact fun ha => not_attended_of_resets hr ha k e hk hj hl

theorem Action.not_resetsLive {s : Sys} {a : Action} {j : UUID} (hr : a.resets s j = false) :
    a.resetsLive s j = false := by
  simp [Action.resetsLive, hr]

/-- One step keeps the live call of a job unique, unless it resets the job under it. -/
theorem activations_step {cfg : Config} {s s' : Sys} {a : Action} {j : UUID} (hP : Pending s)
    (hA : Activations j s) (hr : a.resetsLive s j = false) (h : step cfg s a = some s') :
    Activations j s' :=
  have hH := held_step Stage.relying_live hP hA.held (not_attended_of_resets hr) h
  ⟨hH.row, hH.unique⟩

/-! ## §5. Along runs. -/

/-- Without manual requests no step of the run resets a job. -/
theorem not_resets_run {cfg : Config} {s₀ s : Sys} {tr : List (Sys × Action)}
    (hM : ManualFree s₀) (h : SysRun cfg s₀ tr s) (hm : ∀ p ∈ tr, p.2.manual = false) :
    ∀ p ∈ tr, ∀ j, p.2.resets p.1 j = false := by
  intro p hp j
  have hMp : ManualFree p.1 := h.invariant_at (G := fun _ a => a.manual = false)
    (fun _ _ _ hI hg hs => manualFree_step hI hg hs) hm hM p hp
  exact hMp.not_resets p.2 j

end JobScheduler
