/-
  JobScheduler.System.Progress
  ────────────────────────────
  Every call comes to its end.  A program has a rank, lowered by each statement
  of its own whether it is carried out or rejected: the phase it is in, and the
  elements that its loop has still to visit.  Only claims hold locks between two
  statements, so when none is open nobody waits.
-/
import Mathlib.Order.WithBot
import JobScheduler.Claiming.Deadlock
import JobScheduler.Library.Termination

namespace JobScheduler

open Relational Transition

/-! ## §1. Ranks. -/

/-- A phase of a program, and what is left to do in it. -/
abbrev Rank := ℕ ×ₗ ℕ

/-- The rank of a place: its phase, then what its loop has still before it. -/
def rankAt (phase todo : ℕ) : Rank := toLex (phase, todo)

@[simp] theorem rankAt_lt {p t p' t' : ℕ} : rankAt p t < rankAt p' t' ↔ p < p' ∨ p = p' ∧ t < t' := by
  simp [rankAt, Prod.Lex.toLex_lt_toLex]

/-- The finalisation branch is entered after the success path or after the
dead-letter path. -/
def BatchResult.floor : BatchResult → ℕ
  | .completed => 16
  | .failed => 3

/-- A `publishEvent` call is two statements. -/
def PublishSite.rank (left : ℕ) : PublishSite → Rank
  | .running => rankAt 28 left
  | .completed => rankAt 22 left
  | .released _ rest => rankAt 20 (3 * rest.length + left)
  | .batchCompleted result _ => rankAt (result.floor + 1) left
  | .retryScheduled _ => rankAt 11 left
  | .deadLettered _ => rankAt 7 left

/-- The rank of a call at this `logJob`. -/
def LogSite.rank : LogSite → Rank
  | .started => rankAt 26 0
  | .succeeded => rankAt 22 2
  | .released _ rest => rankAt 20 (3 * rest.length + 2)
  | .attemptFailed _ => rankAt 14 0
  | .retryScheduled _ _ _ => rankAt 11 2
  | .movedToDlq _ => rankAt 8 0
  | .failureSummary _ => rankAt 7 2

/-- The rank of an `executeJob` call; every statement lowers it. -/
def ExecPc.rank : ExecPc → Rank
  | .acquire => rankAt 30 0
  | .setRunning => rankAt 29 0
  | .publish site => site.rank 1
  | .notify site => site.rank 0
  | .insertExecution => rankAt 27 0
  | .log site => site.rank
  | .handler => rankAt 25 0
  | .setCompleted _ => rankAt 24 0
  | .executionCompleted _ => rankAt 23 0
  | .unblock => rankAt 21 0
  | .batchProgress result => rankAt (result.floor + 3) 0
  | .batchStatus result _ => rankAt (result.floor + 2) 0
  | .callback result _ => rankAt result.floor 0
  | .executionFailed _ => rankAt 15 0
  | .selectPolicy _ => rankAt 13 0
  | .requeue _ _ _ => rankAt 12 0
  | .deadLetter _ => rankAt 10 0
  | .insertDeadLetter _ => rankAt 9 0
  | .release => rankAt 2 0
  | .returned => rankAt 0 0

/-- A claim goes on as the activation of its job. -/
def ClaimPc.rank : ClaimPc → Rank
  | .selecting => rankAt 35 0
  | .locking todo => rankAt 34 todo.length
  | .counting _ rest => rankAt 33 (rest.length + 1)
  | .updating => rankAt 32 0
  | .committing _ => rankAt 31 0
  | .returned _ => rankAt 0 0

/-- A job of a request with `edges` prerequisites is one INSERT and one for each
edge. -/
def SubmitPc.rank (edges : ℕ) : SubmitPc → Rank
  | .checkQueue => rankAt 6 0
  | .checkDependencies => rankAt 5 0
  | .insertBatch | .insertSchedule => rankAt 4 0
  | .insertJob _ rest => rankAt 3 ((rest.length + 1) * (edges + 1))
  | .attach _ _ todo rest => rankAt 3 (rest.length * (edges + 1) + todo.length + 1)
  | .publish _ => rankAt 2 0
  | .notify _ => rankAt 1 0
  | .replied _ => rankAt 0 0

/-- The rank of a retry request. -/
def RetryPc.rank : RetryPc → Rank
  | .select => rankAt 5 0
  | .update => rankAt 4 0
  | .log _ => rankAt 3 0
  | .publish _ => rankAt 2 0
  | .notify _ => rankAt 1 0
  | .replied _ => rankAt 0 0

/-- The rank of a replay request. -/
def ReplayPc.rank : ReplayPc → Rank
  | .select => rankAt 6 0
  | .update _ => rankAt 5 0
  | .log _ _ | .insert _ _ => rankAt 4 0
  | .delete _ => rankAt 3 0
  | .publish _ => rankAt 2 0
  | .notify _ => rankAt 1 0
  | .replied _ => rankAt 0 0

/-- The rank of a batch cancellation. -/
def CancelPc.rank : CancelPc → Rank
  | .select => rankAt 5 0
  | .updateBatch => rankAt 4 0
  | .updateJobs _ => rankAt 3 0
  | .publish _ => rankAt 2 0
  | .notify _ => rankAt 1 0
  | .replied _ => rankAt 0 0

/-- The rank of a queue update. -/
def PatchPc.rank : PatchPc → Rank
  | .update => rankAt 3 0
  | .publish _ => rankAt 2 0
  | .notify _ => rankAt 1 0
  | .replied _ => rankAt 0 0

/-- A due schedule is four statements. -/
def TickPc.rank : TickPc → Rank
  | .acquire => rankAt 9 0
  | .flip => rankAt 8 0
  | .publishReleased _ => rankAt 7 0
  | .notifyReleased _ => rankAt 6 0
  | .selectDue => rankAt 5 0
  | .insertJob _ _ rest => rankAt 4 (4 * rest.length + 4)
  | .advance _ _ _ rest => rankAt 4 (4 * rest.length + 3)
  | .publishDispatched _ _ _ rest => rankAt 4 (4 * rest.length + 2)
  | .notifyDispatched _ _ _ rest => rankAt 4 (4 * rest.length + 1)
  | .release => rankAt 1 0
  | .returned => rankAt 0 0

/-- The rank of a client; every statement lowers it. -/
def Proc.rank : Proc → Rank
  | .claim c => c.pc.rank
  | .exec e => e.pc.rank
  | .submit r => r.pc.rank r.body.dependsOn.length
  | .retry r => r.pc.rank
  | .replay r => r.pc.rank
  | .cancel r => r.pc.rank
  | .patch r => r.pc.rank
  | .tick t => t.pc.rank

/-! ## §2. The statements of `executeJob`. -/

/-- The loop over the released rows is below the point that enters it. -/
theorem Exec.releaseLoop_rank {e : Exec} {rows : List (UUID × Job)} {r : Rank}
    (hloop : ∀ job rest, rows = job :: rest → rankAt 20 (3 * rest.length + 2) < r)
    (hend : rankAt 19 0 < r) : (e.releaseLoop rows).rank < r := by
  cases rows with
  | nil =>
      unfold releaseLoop afterDependents
      cases e.job.batchId
      · exact lt_trans (by simp [ExecPc.rank]) hend
      · exact hend
  | cons job rest => exact hloop job rest rfl

/-- Whichever branch follows the increment, the rank is lower. -/
theorem Exec.afterProgress_rank (e : Exec) (env : Env) (db : Db) (result : BatchResult) :
    (e.afterProgress env db result).rank < rankAt (result.floor + 3) 0 := by
  have hfloor : 3 ≤ result.floor := by cases result <;> decide
  unfold afterProgress
  split
  · simp [ExecPc.rank]
  · split <;> simp [ExecPc.rank]

/-- A statement of `executeJob` that is carried out. -/
theorem Exec.next_rank (env : Env) (e : Exec) (db : Db) (hpc : e.pc ≠ .returned) :
    (e.next env db).pc.rank < e.pc.rank := by
  cases he : e.pc <;> simp only [Exec.next, he, Exec.goto]
  case acquire => split <;> simp [ExecPc.rank]
  case publish site => cases site <;> simp [ExecPc.rank, PublishSite.rank]
  case notify site =>
    cases site <;> simp only [Exec.afterPublish]
    case running | completed | retryScheduled delay => simp [ExecPc.rank, PublishSite.rank]
    case released job rest =>
      refine e.releaseLoop_rank (fun job' rest' hrest => ?_) (by simp [ExecPc.rank, PublishSite.rank])
      subst hrest
      exact rankAt_lt.mpr (.inr ⟨rfl, by simp; omega⟩)
    case batchCompleted result batch =>
      have hfloor : 3 ≤ result.floor := by cases result <;> decide
      cases batch.callbackUrl <;> simp only [ExecPc.rank, PublishSite.rank, rankAt_lt] <;> omega
    case deadLettered error =>
      unfold Exec.afterDeadLetter
      cases e.job.batchId <;> simp [ExecPc.rank, PublishSite.rank, BatchResult.floor]
  case log site => cases site <;> simp [Exec.afterLog, ExecPc.rank, PublishSite.rank, LogSite.rank]
  case handler => cases env.handler <;> simp [ExecPc.rank]
  case unblock => exact e.releaseLoop_rank (fun _ _ _ => by simp [ExecPc.rank]) (by simp [ExecPc.rank])
  case batchProgress result => exact e.afterProgress_rank env db result
  case batchStatus result batch => simp [ExecPc.rank, PublishSite.rank]
  case callback result batch =>
    have hfloor : 3 ≤ result.floor := by cases result <;> decide
    simp only [ExecPc.rank, rankAt_lt]
    omega
  case selectPolicy error =>
    unfold Exec.afterPolicy
    dsimp only
    split <;> simp [ExecPc.rank]
  case returned => exact absurd he hpc
  all_goals simp [ExecPc.rank, PublishSite.rank, LogSite.rank]

/-- A rejection leads down as well: to the `catch` block, past a log, or to the end. -/
theorem onThrow_rank (error : String) (pc : ExecPc) (hpc : pc ≠ .returned) :
    (Exec.onThrow error pc).rank < pc.rank := by
  cases pc with
  | publish site | notify site =>
      cases site with
      | batchCompleted result batch =>
          cases result <;>
            simp [Exec.onThrow, Exec.throwPublish, ExecPc.rank, PublishSite.rank, BatchResult.floor]
      | _ => simp [Exec.onThrow, Exec.throwPublish, ExecPc.rank, PublishSite.rank]
  | log site =>
      cases site <;> simp [Exec.onThrow, Exec.afterLog, ExecPc.rank, PublishSite.rank, LogSite.rank]
  | batchProgress result | batchStatus result batch | callback result batch =>
      cases result <;> simp [Exec.onThrow, ExecPc.rank, BatchResult.floor]
  | returned => exact absurd rfl hpc
  | _ => simp [Exec.onThrow, ExecPc.rank]

theorem Exec.step_rank {cfg : Config} {ctx : Ctx} {env : Env} {e e' : Exec} {db db' : Db}
    (h : e.step cfg ctx env db = some (db', e')) : e'.pc.rank < e.pc.rank := by
  obtain ⟨hready, hcase⟩ := Exec.step_cases h
  have hpc : e.pc ≠ .returned := fun hret => by simp [Exec.ready, hret] at hready
  rcases hcase with ⟨_, _, rfl⟩ | ⟨_, _, rfl⟩
  · exact onThrow_rank env.error e.pc hpc
  · exact e.next_rank env db hpc

/-! ## §3. The statements of the other programs. -/

section
variable {cfg : Config} {ctx : Ctx} {env : Env} {db db' : Db}

theorem Claim.enterCounting_rank (c : Claim) (todo : List LockedQueue) :
    (c.enterCounting todo).pc.rank < rankAt 33 (todo.length + 1) := by
  unfold enterCounting
  split
  · rename_i q rest hdrop
    have hle : (q :: rest).length ≤ todo.length := hdrop ▸ (List.dropWhile_sublist _).length_le
    exact rankAt_lt.mpr (.inr ⟨rfl, by simp at hle ⊢; omega⟩)
  · split <;> simp [ClaimPc.rank]

theorem Claim.enterLocking_rank (c : Claim) (todo : List UUID) :
    (c.enterLocking todo).pc.rank < rankAt 34 (todo.length + 1) := by
  unfold enterLocking
  split
  · exact (c.enterCounting_rank _).trans (by simp)
  · simp [ClaimPc.rank]

/-- A statement of a claim lowers its rank, also where the claim turns into a call. -/
theorem Claim.step_rank {c c' : Claim} (h : c.step ctx env db = some (db', c')) :
    c'.toProc.rank < c.pc.rank := by
  -- a claim that has not returned a job stays a claim
  have hstay : (∀ job, c'.pc ≠ .returned (some job)) → c'.toProc.rank = c'.pc.rank := by
    intro hno
    unfold toProc
    split
    · rename_i id row hret
      exact absurd hret (hno (id, row))
    · rfl
  cases stepped h with
  | rolledBack =>
      have hpc : ∀ job, c.pc ≠ .returned job := fun job hret => by simp [step, hret] at h
      rw [hstay (by simp [rollback])]
      cases hc : c.pc <;> simp [rollback, ClaimPc.rank]
      exact hpc _ hc
  | selected hpc =>
      obtain ⟨pc, he, hpc'⟩ := c.enterLocking_entered (c.lockOrder db)
      rw [hstay (by rw [he]; exact fun job => (hpc'.no_job job).2), hpc]
      exact (c.enterLocking_rank _).trans (by simp [ClaimPc.rank])
  | locked id rest hpc _ =>
      obtain ⟨pc, he, hpc'⟩ := (c.lockRow db id).enterLocking_entered rest
      rw [hstay (by rw [he]; exact fun job => (hpc'.no_job job).2), hpc]
      exact (c.lockRow db id).enterLocking_rank rest
  | counted q rest hpc =>
      obtain ⟨pc, he, hpc'⟩ := (c.countRow db q).enterCounting_entered rest
      rw [hstay (by rw [he]; exact fun job => (hpc'.no_job job).2), hpc]
      exact (c.countRow db q).enterCounting_rank rest
  | took hpc _ => rw [hstay (by simp), hpc]; simp [ClaimPc.rank]
  | nothing hpc => rw [hstay (by simp), hpc]; simp [ClaimPc.rank]
  | committed id row hpc _ => rw [hpc]; simp [toProc, Proc.rank, ExecPc.rank, ClaimPc.rank]

theorem Submit.nextItem_rank (r : Submit) (edges : ℕ) (rest : List JobItem) :
    (r.nextItem rest).rank edges < rankAt 3 (rest.length * (edges + 1) + 1) := by
  cases rest with
  | nil => simp [nextItem, SubmitPc.rank]
  | cons item rest => simp [nextItem, SubmitPc.rank]

theorem Submit.nextEdge_rank (r : Submit) (edges : ℕ) (jobId : UUID) (todo : List UUID)
    (rest : List JobItem) :
    (r.nextEdge jobId todo rest).rank edges
      < rankAt 3 (rest.length * (edges + 1) + todo.length + 1) := by
  cases todo with
  | nil => exact r.nextItem_rank edges rest
  | cons d ds => simp [nextEdge, SubmitPc.rank]

/-- A statement of a submission lowers its rank: an edge, an item or a phase is done. -/
theorem Submit.step_rank {r r' : Submit} (h : r.step cfg env db = some (db', r')) :
    (Proc.submit r').rank < (Proc.submit r).rank := by
  simp only [Proc.rank]
  cases stepped h with
  | failed err _ =>
      have hpc : ∀ reply, r.pc ≠ .replied reply := fun reply hrep => by simp [step, hrep] at h
      cases hr : r.pc <;> simp [fail, goto, SubmitPc.rank]
      exact hpc _ hr
  | queueChecked hpc => simp [hpc, SubmitPc.rank]
  | dependenciesChecked hpc satisfied _ =>
      obtain ⟨pc, he, hd⟩ := dispatch_eq cfg env.now
        { r with initialStatus := initialJobStatus r.body.type satisfied }
      rw [he, hpc]
      cases hd <;> simp [goto, SubmitPc.rank]
  | batchInserted hpc _ r₁ hr₁ =>
      subst hr₁
      rw [hpc]
      exact (nextItem_rank _ _ _).trans (by simp [SubmitPc.rank])
  | jobInserted item rest hpc _ r₁ hr₁ =>
      subst hr₁
      rw [hpc]
      refine (nextEdge_rank _ _ _ _ _).trans_le (le_of_eq ?_)
      rw [SubmitPc.rank, add_one_mul, add_assoc]
      rfl
  | attached jobId d todo rest hpc _ =>
      rw [hpc]
      exact nextEdge_rank _ _ _ _ _
  | scheduleInserted hpc _ => simp [hpc, goto, SubmitPc.rank]
  | published ev hpc => simp [hpc, goto, SubmitPc.rank]
  | replied ev hpc => simp [hpc, goto, SubmitPc.rank]

theorem Retry.step_rank {r r' : Retry} (h : r.step cfg ctx env db = some (db', r')) :
    r'.pc.rank < r.pc.rank := by
  cases stepped h with
  | failed err =>
      have hpc : ∀ reply, r.pc ≠ .replied reply := fun reply hrep => by simp [step, hrep] at h
      cases hr : r.pc <;> simp [fail, goto, RetryPc.rank]
      exact hpc _ hr
  | selected hpc | updated hpc | logged _ hpc | published _ _ hpc | replied _ hpc =>
      simp [hpc, goto, RetryPc.rank]

theorem Replay.afterSelect_rank (r : Replay) (entry : DeadLetterEntry) :
    (r.afterSelect entry).pc.rank < rankAt 6 0 := by
  unfold afterSelect
  split <;> simp [fail, goto, ReplayPc.rank]

theorem Replay.step_rank {r r' : Replay} (h : r.step cfg ctx env db = some (db', r')) :
    r'.pc.rank < r.pc.rank := by
  cases stepped h with
  | failed err _ =>
      have hpc : ∀ reply, r.pc ≠ .replied reply := fun reply hrep => by simp [step, hrep] at h
      cases hr : r.pc <;> simp [fail, goto, ReplayPc.rank]
      exact hpc _ hr
  | selected hpc _ entry => rw [hpc]; exact r.afterSelect_rank entry
  | updated _ hpc | logged _ _ hpc | nothing _ _ hpc | inserted _ _ hpc | deleted _ hpc
  | published _ _ hpc | replied _ hpc => simp [hpc, goto, ReplayPc.rank]

theorem Cancel.step_rank {r r' : Cancel} (h : r.step cfg ctx env db = some (db', r')) :
    r'.pc.rank < r.pc.rank := by
  cases stepped h with
  | failed err =>
      have hpc : ∀ reply, r.pc ≠ .replied reply := fun reply hrep => by simp [step, hrep] at h
      cases hr : r.pc <;> simp [fail, goto, CancelPc.rank]
      exact hpc _ hr
  | selected hpc | rowUpdated hpc | jobsUpdated _ hpc | published _ _ hpc | replied _ hpc =>
      simp [hpc, goto, CancelPc.rank]

theorem Patch.step_rank {r r' : Patch} (h : r.step cfg ctx env db = some (db', r')) :
    r'.pc.rank < r.pc.rank := by
  cases stepped h with
  | failed err =>
      have hpc : ∀ reply, r.pc ≠ .replied reply := fun reply hrep => by simp [step, hrep] at h
      cases hr : r.pc <;> simp [fail, goto, PatchPc.rank]
      exact hpc _ hr
  | updated _ hpc | published _ _ hpc | replied _ hpc => simp [hpc, goto, PatchPc.rank]

/-- The loop over the due rows begins below the SELECT. -/
theorem Tick.loop_rank (due : List (UUID × ScheduledJob)) :
    (loop due).rank < rankAt 4 (4 * due.length + 1) := by
  cases due with
  | nil => simp [loop, TickPc.rank]
  | cons sj rest => exact rankAt_lt.mpr (.inr ⟨rfl, by simp; omega⟩)

/-- The loop goes on below every statement for the schedule before. -/
theorem Tick.loop_rank_lt (rest : List (UUID × ScheduledJob)) {left : ℕ} (h : 1 ≤ left) :
    (loop rest).rank < rankAt 4 (4 * rest.length + left) :=
  (loop_rank rest).trans_le (Prod.Lex.toLex_le_toLex.mpr (.inr ⟨rfl, by simpa using h⟩))

/-- A rejection goes down as well. -/
theorem Tick.onThrow_rank (pc : TickPc) (hpc : pc ≠ .returned) : (onThrow pc).rank < pc.rank := by
  cases pc with
  | insertJob id sj rest | advance id sj nextRun rest | publishDispatched id sj nextRun rest
  | notifyDispatched id sj nextRun rest => exact loop_rank_lt rest (by decide)
  | returned => exact absurd rfl hpc
  | _ => simp [onThrow, TickPc.rank]

theorem Tick.next_rank (t : Tick) (hpc : t.pc ≠ .returned) :
    (t.next cfg env db).rank < t.pc.rank := by
  cases ht : t.pc <;> simp only [next, ht]
  case acquire => split <;> simp [TickPc.rank]
  case flip => split <;> simp [TickPc.rank]
  case selectDue => exact (loop_rank _).trans (by simp [TickPc.rank])
  case insertJob id sj rest =>
    unfold afterInsert
    split
    · simp [TickPc.rank]
    · exact loop_rank_lt rest (by decide)
  case notifyDispatched id sj nextRun rest => exact loop_rank_lt rest (by decide)
  case returned => exact absurd ht hpc
  all_goals simp [TickPc.rank]

theorem Tick.step_rank {t t' : Tick} (h : t.step cfg ctx env db = some (db', t')) :
    t'.pc.rank < t.pc.rank := by
  obtain ⟨hready, hcase⟩ := Tick.step_cases h
  have hpc : t.pc ≠ .returned := fun hret => by simp [ready, hret] at hready
  rcases hcase with ⟨_, _, rfl⟩ | ⟨_, _, rfl⟩
  · exact onThrow_rank t.pc hpc
  · exact t.next_rank hpc

/-- **Every statement lowers the rank of its program.** -/
theorem Proc.step_rank {p p' : Proc} (h : p.step cfg ctx env db = some (db', p')) :
    p'.rank < p.rank := by
  cases Proc.stepped h with
  | claim c c' hq => exact Claim.step_rank hq
  | exec e e' hq => exact Exec.step_rank hq
  | submit r r' hq => exact Submit.step_rank hq
  | retry r r' hq => exact Retry.step_rank hq
  | replay r r' hq => exact Replay.step_rank hq
  | cancel r r' hq => exact Cancel.step_rank hq
  | patch r r' hq => exact Patch.step_rank hq
  | tick t t' hq => exact Tick.step_rank hq

end

/-! ## §4. Nobody waits but for an open claim. -/

/-- The call has returned or answered. -/
def Proc.finished : Proc → Bool
  | .claim c => !c.isOpen
  | .exec e => (match e.pc with
      | .returned => true
      | _ => false)
  | .submit r => (match r.pc with
      | .replied _ => true
      | _ => false)
  | .retry r => (match r.pc with
      | .replied _ => true
      | _ => false)
  | .replay r => (match r.pc with
      | .replied _ => true
      | _ => false)
  | .cancel r => (match r.pc with
      | .replied _ => true
      | _ => false)
  | .patch r => (match r.pc with
      | .replied _ => true
      | _ => false)
  | .tick t => (match t.pc with
      | .returned => true
      | _ => false)

/-- `gen_random_uuid()` finds an id that no table uses. -/
theorem exists_fresh (db : Db) : ∃ id, id ∉ db.jobs ∧ id ∉ db.batches ∧ id ∉ db.jobExecutions ∧
    id ∉ db.scheduledJobs ∧ id ∉ db.deadLetterQueue := by
  obtain ⟨id, hid⟩ := Infinite.exists_notMem_finset (db.jobs.keys ++ db.batches.keys
    ++ db.jobExecutions.keys ++ db.scheduledJobs.keys ++ db.deadLetterQueue.keys).toFinset
  simp only [List.mem_toFinset, List.mem_append, not_or] at hid
  obtain ⟨⟨⟨⟨hj, hb⟩, hx⟩, hs⟩, hd⟩ := hid
  exact ⟨id, hj, hb, hx, hs, hd⟩

section
variable {ctx : Ctx}

/-- With every row unlocked the next statement of an unfinished call can be executed. -/
theorem Proc.exists_step (cfg : Config) (db : Db) {p : Proc} (now : Timestamp)
    (hq : ∀ id, ctx.queueFree id = true)
    (hj : ∀ id, ctx.jobFree id = true) (hp : p.finished = false) (hc : ∀ c, p ≠ .claim c) :
    ∃ env, env.now = now ∧ env.fails = false ∧ (p.step cfg ctx env db).isSome = true := by
  obtain ⟨id, hjobs, hbatches, hexecutions, hschedules, hentries⟩ := exists_fresh db
  have hall : ∀ ids : List UUID, ids.all ctx.jobFree = true :=
    fun ids => List.all_eq_true.mpr (fun id _ => hj id)
  refine ⟨{ now := now, fresh := id }, rfl, rfl, ?_⟩
  cases p with
  | claim c => exact absurd rfl (hc c)
  | exec e =>
      have hready : e.ready ctx { now := now, fresh := id } db = true := by
        unfold Exec.ready
        split
        · rename_i hpc; simp [finished, hpc] at hp
        · exact decide_eq_true hexecutions
        · exact decide_eq_true hentries
        · exact hall _
      simp only [step, Exec.step, hready, if_true, Option.isSome_map]
      split <;> rfl
  | tick t =>
      have hready : t.ready ctx { now := now, fresh := id } db = true := by
        unfold Tick.ready
        split
        · rename_i hpc; simp [finished, hpc] at hp
        · exact decide_eq_true hjobs
        · exact hall _
      simp only [step, Tick.step, hready, if_true, Option.isSome_map]
      split <;> rfl
  | submit r =>
      simp only [step, Option.isSome_map]
      cases hpc : r.pc <;> simp only [Submit.step, hpc, hbatches, hjobs, hschedules, if_false] <;>
        first | (simp [finished, hpc] at hp; done) | ((repeat' split) <;> rfl)
  | retry r =>
      simp only [step, Option.isSome_map, Retry.step, hj, if_true]
      split
      · rename_i hpc; simp [finished, hpc] at hp
      all_goals (repeat' split) <;> rfl
  | replay r =>
      simp only [step, Option.isSome_map, Replay.step, hj, hjobs, if_true, if_false]
      split
      · rename_i hpc; simp [finished, hpc] at hp
      all_goals (repeat' split) <;> rfl
  | cancel r =>
      simp only [step, Option.isSome_map, Cancel.step, hall, if_true]
      split
      · rename_i hpc; simp [finished, hpc] at hp
      all_goals (repeat' split) <;> rfl
  | patch r =>
      simp only [step, Option.isSome_map, Patch.step, hq, if_true]
      split
      · rename_i hpc; simp [finished, hpc] at hp
      all_goals (repeat' split) <;> rfl

end

/-! ## §5. The system. -/

/-- Client `k` is a call that has not returned. -/
def Sys.Unfinished (s : Sys) (k : Nat) : Prop := ∃ p, s.proc k = some p ∧ p.finished = false

theorem Claim.holdsJob_open {c : Claim} {id : UUID} (h : c.holdsJob id = true) : c.isOpen = true := by
  obtain ⟨row, hpc⟩ := Claim.holdsJob_iff.mp h
  simp [isOpen, hpc]

/-- Between two statements only open claims hold locks. -/
theorem Sys.free_of_no_claim {s : Sys} (hno : ¬ ∃ k, s.Claiming k) (id : UUID) :
    s.ctx.queueFree id = true ∧ s.ctx.jobFree id = true := by
  have hclosed : ∀ k c, s.proc k = some (.claim c) → c.isOpen ≠ true :=
    fun k c hk ho => hno ⟨k, c, hk, ho⟩
  constructor
  · refine (s.queueFree_iff id).mpr (fun k p hk => ?_)
    cases p with
    | claim c => exact eq_false_of_ne_true (fun hh => hclosed k c hk ((c.holdsQueue_iff id).mp hh).1)
    | _ => rfl
  · refine (s.jobFree_iff id).mpr (fun k p hk => ?_)
    cases p with
    | claim c => exact eq_false_of_ne_true (fun hh => hclosed k c hk (Claim.holdsJob_open hh))
    | _ => rfl

/-- **Progress.**  Some unfinished call can execute its next statement. -/
theorem LocksInOrder.progress (cfg : Config) {s : Sys} (hI : LocksInOrder s) {k : Nat}
    (hk : s.Unfinished k) :
    ∃ l env s', s.Unfinished l ∧ env.fails = false ∧ step cfg s (.run l env) = some s' := by
  by_cases hclaim : ∃ l, s.Claiming l
  · have hstep : ∃ l env s', s.Claiming l ∧ env.fails = false ∧ step cfg s (.run l env) = some s' :=
      hI.exists_step hclaim
    obtain ⟨l, env, s', ⟨c, hl, ho⟩, hf, hs⟩ := hstep
    exact ⟨l, env, s', ⟨_, hl, by simp [Proc.finished, ho]⟩, hf, hs⟩
  · obtain ⟨p, hp, hopen⟩ := hk
    have hfree := s.free_of_no_claim hclaim
    obtain ⟨env, hnow, hf, hs⟩ := Proc.exists_step cfg s.db s.clock
      (fun id => (hfree id).1) (fun id => (hfree id).2) hopen
      (fun c hc => hclaim ⟨k, c, hc ▸ hp, by simpa [hc, Proc.finished] using hopen⟩)
    obtain ⟨⟨db', p'⟩, hs⟩ := Option.isSome_iff_exists.mp hs
    obtain ⟨client, hclient, hproc⟩ := Option.map_eq_some_iff.mp hp
    refine ⟨k, env, s.put k db' p', ⟨p, hp, hopen⟩, hf, ?_⟩
    simp only [step, hclient, hproc, hs, Option.map_some]
    rw [if_pos ⟨hnow.symm ▸ hI.issued k client hclient, hnow.le⟩]

/-- The rank of client `k`, which is above all ranks until it is started. -/
def Sys.rankOf (s : Sys) (k : Nat) : WithTop Rank :=
  (s.proc k).elim ⊤ (fun p => (p.rank : WithTop Rank))

section
variable {cfg : Config} {s s' : Sys} {a : Action}

/-- A client that does not move keeps its rank. -/
theorem rankOf_idle {k : Nat} (h : step cfg s a = some s') (hk : ∀ env, a ≠ .run k env)
    (hs : ∀ request, a ≠ .start k request) : s'.rankOf k = s.rankOf k := by
  unfold Sys.rankOf
  cases stepped h with
  | wait ms => rfl
  | start pid request _ =>
      have hne : k ≠ pid := by rintro rfl; exact hs request rfl
      rw [Sys.put_proc_ne _ _ _ hne]
  | run pid env p p' db' _ _ _ =>
      have hne : k ≠ pid := by rintro rfl; exact hk env rfl
      rw [Sys.put_proc_ne _ _ _ hne]

theorem rankOf_run {k : Nat} {env : Env} (h : step cfg s (.run k env) = some s') :
    s'.rankOf k < s.rankOf k := by
  cases stepped h with
  | run _ _ p p' db' hp _ hstep =>
      unfold Sys.rankOf
      rw [Sys.put_proc_self, hp]
      exact WithTop.coe_lt_coe.mpr (Proc.step_rank hstep)

/-- No step raises the rank of a client that is there. -/
theorem rankOf_step (k : Nat) (h : step cfg s a = some s') : s'.rankOf k ≤ s.rankOf k := by
  by_cases hrun : ∃ env, a = .run k env
  · obtain ⟨env, rfl⟩ := hrun
    exact (rankOf_run h).le
  by_cases hstart : ∃ request, a = .start k request
  · obtain ⟨request, rfl⟩ := hstart
    cases stepped h with
    | start _ _ hfree => simp [Sys.rankOf, hfree]
  · exact (rankOf_idle h (fun env ha => hrun ⟨env, ha⟩) (fun r ha => hstart ⟨r, ha⟩)).le

/-- Running clients starts none. -/
theorem run_clients {k l : Nat} {env : Env} (h : step cfg s (.run l env) = some s') :
    (s'.proc k).isSome = (s.proc k).isSome := by
  cases stepped h with
  | run _ _ p p' db' hp _ _ =>
      rw [Sys.put_proc]
      split
      · rename_i hkl
        rw [hkl, hp]
        rfl
      · rfl

end

/-- What the system owes its clients in a state. -/
structure Serves (cfg : Config) (s : Sys) : Prop where
  /-- While a call is unfinished, some unfinished call can go on. -/
  progress : ∀ k, s.Unfinished k →
    ∃ l env s', s.Unfinished l ∧ env.fails = false ∧ step cfg s (.run l env) = some s'
  /-- The calls in flight can all be carried to their ends. -/
  rest : ∃ tr s', SysRun cfg s tr s' ∧
    (∀ q ∈ tr, ∃ l env, q.2 = .run l env ∧ env.fails = false) ∧ ∀ k, ¬ s'.Unfinished k
  /-- No call goes on forever, whatever the others do and whatever fails. -/
  finite : ∀ states acts, Forever (step cfg) states acts → states 0 = s →
    ∀ k, {n | ∃ env, acts n = .run k env}.Finite

/-- From every such state all calls can be brought to their end. -/
theorem LocksInOrder.rest {cfg : Config} {s : Sys} (hI : LocksInOrder s) :
    ∃ tr s', SysRun cfg s tr s' ∧ (∀ q ∈ tr, ∃ l env, q.2 = .run l env ∧ env.fails = false) ∧
      ∀ k, ¬ s'.Unfinished k := by
  -- the clients that exist now, each with its rank
  let clients := s.clients.keys.toFinset
  have hclients : ∀ k, (s.proc k).isSome = true → k ∈ clients := by
    intro k hk
    obtain ⟨p, hp⟩ := Option.isSome_iff_exists.mp hk
    obtain ⟨client, hc, _⟩ := Option.map_eq_some_iff.mp hp
    exact List.mem_toFinset.mpr (AList.mem_keys.mp
      (AList.lookup_isSome.mp (Option.isSome_of_eq_some hc)))
  refine exists_run_of_descent (I := fun t => LocksInOrder t ∧ ∀ k, (t.proc k).isSome = true →
    k ∈ clients)
    (G := fun _ a => ∃ l env, a = Action.run l env ∧ env.fails = false)
    (fun t (k : clients) => t.rankOf k) ?_ s ⟨hI, hclients⟩
  rintro t ⟨hIt, hkeys⟩ hopen
  obtain ⟨k, hk⟩ := not_forall_not.mp hopen
  obtain ⟨l, env, t', ⟨p, hl, _⟩, hf, hs⟩ := hIt.progress cfg hk
  refine ⟨.run l env, t', ⟨l, env, rfl, hf⟩, hs,
    ⟨locksInOrder_step hIt hs, fun k hk => hkeys k ((run_clients hs) ▸ hk)⟩, ?_⟩
  refine pi_lt_of_move (⟨l, hkeys l (by rw [hl]; rfl)⟩ : clients) (rankOf_run hs) (fun m hm => ?_)
  refine rankOf_idle hs (fun env' ha => hm ?_) (fun request ha => by cases ha)
  cases ha
  rfl

/-- **Every call comes to its end.**  In every reachable state, with any number of
calls of any kind in flight: the system is not deadlocked, the calls can all be
carried to their ends, and in no continuation does a call execute infinitely many
statements. -/
theorem every_call_ends {cfg : Config} {clock : Timestamp} {db : Db} {s : Sys}
    {tr : List (Sys × Action)} (hrun : SysRun cfg (Sys.atRest clock db) tr s) : Serves cfg s := by
  have hI := locksInOrder_run (locksInOrder_atRest clock db) hrun
  refine ⟨fun k hk => hI.progress cfg hk, hI.rest, ?_⟩
  intro states acts hforever _ k
  refine finite_descents (fun n => (states n).rankOf k)
    (fun n => rankOf_step k (hforever n)) (fun n hn => ?_)
  obtain ⟨env, hact⟩ := hn
  exact rankOf_run (hact ▸ hforever n)

/-- Worker 6 waits for the queue row that the claim of worker 5 has locked. -/
theorem every_call_ends_crossing : Serves Config.small Sys.crossing :=
  every_call_ends (Transition.run_of_play (step Config.small)
    (Sys.atRest 0 { Db.small 1 [] with
      queues := (Db.small 1 []).queues.insert 2 (Queue.small 1) })
    [.start 0 (.claim 5 (some [1, 2]) none), .start 1 (.claim 6 (some [2, 1]) none),
      .run 0 { now := 0 }, .run 0 { now := 0 }, .run 1 { now := 0 }] (by rfl))

end JobScheduler
