/-
  JobScheduler.Engine.ControlFlow
  ───────────────────────────────
  The control flow graph of `executeJob`, said once: `Exec.Flow` lists the edges
  that a statement takes when it is carried out, `onThrow_cases` those of a
  rejection.  A fact about the way a call can come to a program point is a case
  analysis of the graph.
-/
import JobScheduler.Engine.Executor

namespace JobScheduler

/-- The edges of the statements that are carried out. -/
inductive Exec.Flow (env : Env) (e : Exec) (db : Db) : ExecPc → ExecPc → Prop
  | acquired (h : e.acquires env db = true) : Flow env e db .acquire .setRunning
  | refused (h : e.acquires env db = false) : Flow env e db .acquire .returned
  | started : Flow env e db .setRunning (.publish .running)
  | published (site : PublishSite) : Flow env e db (.publish site) (.notify site)
  | announced : Flow env e db (.notify .running) .insertExecution
  | recorded : Flow env e db .insertExecution (.log .started)
  | logged (site : LogSite) : Flow env e db (.log site) (afterLog site)
  | returned (result : Json) : Flow env e db .handler (.setCompleted result)
  | threw (message : String) : Flow env e db .handler (.executionFailed message)
  | completed (result : Json) : Flow env e db (.setCompleted result) (.executionCompleted result)
  | stored (result : Json) : Flow env e db (.executionCompleted result) (.log .succeeded)
  | unblocks : Flow env e db (.notify .completed) .unblock
  /-- The loop over the released rows. -/
  | looped (pc : ExecPc) (hpc : pc = .unblock ∨ ∃ job rest, pc = .notify (.released job rest))
      (job : UUID × Job) (rest : List (UUID × Job)) : Flow env e db pc (.log (.released job rest))
  | counts (pc : ExecPc) (hpc : pc = .unblock ∨ ∃ job rest, pc = .notify (.released job rest)) :
      Flow env e db pc (.batchProgress .completed)
  | uncounted (pc : ExecPc) (hpc : pc = .unblock ∨ ∃ job rest, pc = .notify (.released job rest))
      (hb : e.job.batchId = none) : Flow env e db pc .release
  | countsFailed (error : String) :
      Flow env e db (.notify (.deadLettered error)) (.batchProgress .failed)
  | uncountedFailed (error : String) (hb : e.job.batchId = none) :
      Flow env e db (.notify (.deadLettered error)) .release
  | unfinished (result : BatchResult) : Flow env e db (.batchProgress result) .release
  | finished (result : BatchResult) (batch : Batch) (hp : e.progressed env db result = some batch)
      (hf : batch.isFinished = true) : Flow env e db (.batchProgress result) (.batchStatus result batch)
  | finalised (result : BatchResult) (batch : Batch) :
      Flow env e db (.batchStatus result batch)
        (.publish (.batchCompleted result { batch with status := finalStatus batch }))
  | calls (result : BatchResult) (batch : Batch) :
      Flow env e db (.notify (.batchCompleted result batch)) (.callback result batch)
  | uncalled (result : BatchResult) (batch : Batch) :
      Flow env e db (.notify (.batchCompleted result batch)) .release
  | called (result : BatchResult) (batch : Batch) : Flow env e db (.callback result batch) .release
  | failed (error : String) : Flow env e db (.executionFailed error) (.log (.attemptFailed error))
  | retries (error : String) (delay : Int) (n : Nat) (st : RetryStrategy)
      (h : e.attemptNumber < e.maxAttempts (getRetryPolicyForQueue db e.job.queueId)) :
      Flow env e db (.selectPolicy error) (.requeue delay n st)
  | exhausted (error : String) : Flow env e db (.selectPolicy error) (.deadLetter error)
  | requeued (delay : Int) (n : Nat) (st : RetryStrategy) :
      Flow env e db (.requeue delay n st) (.log (.retryScheduled delay n st))
  | rescheduled (delay : Int) : Flow env e db (.notify (.retryScheduled delay)) .release
  | deadLettered (error : String) : Flow env e db (.deadLetter error) (.insertDeadLetter error)
  | buried (error : String) : Flow env e db (.insertDeadLetter error) (.log (.movedToDlq error))
  | released : Flow env e db .release .returned
  | ended : Flow env e db .returned .returned

/-- The loop over the released rows stays on the success path. -/
theorem Exec.releaseLoop_flow {env : Env} {e : Exec} {db : Db} {pc : ExecPc}
    (hpc : pc = .unblock ∨ ∃ job rest, pc = .notify (.released job rest))
    (rows : List (UUID × Job)) : Exec.Flow env e db pc (e.releaseLoop rows) := by
  cases rows with
  | nil =>
      cases hb : e.job.batchId <;> simp only [Exec.releaseLoop, Exec.afterDependents, hb]
      · exact .uncounted pc hpc hb
      · exact .counts pc hpc
  | cons job rest => exact .looped pc hpc job rest

/-- **Every statement that is carried out follows the graph.** -/
theorem Exec.flow (env : Env) (e : Exec) (db : Db) :
    Exec.Flow env e db e.pc (e.next env db).pc := by
  cases hpc : e.pc <;> simp only [Exec.next, hpc, Exec.goto]
  case acquire =>
    split
    · rename_i h; exact .acquired h
    · rename_i h; exact .refused (by simpa using h)
  case setRunning => exact .started
  case publish site => exact .published site
  case notify site =>
    cases site <;> simp only [Exec.afterPublish]
    case running => exact .announced
    case completed => exact .unblocks
    case released job rest => exact Exec.releaseLoop_flow (.inr ⟨job, rest, rfl⟩) rest
    case batchCompleted result batch =>
      cases batch.callbackUrl
      · exact .uncalled result batch
      · exact .calls result batch
    case retryScheduled delay => exact .rescheduled delay
    case deadLettered error =>
      cases hb : e.job.batchId <;> simp only [Exec.afterDeadLetter, hb]
      · exact .uncountedFailed error hb
      · exact .countsFailed error
  case insertExecution => exact .recorded
  case log site => exact .logged site
  case handler =>
    cases env.handler with
    | ok result => exact .returned result
    | error message => exact .threw message
  case setCompleted result => exact .completed result
  case executionCompleted result => exact .stored result
  case unblock => exact Exec.releaseLoop_flow (.inl rfl) _
  case batchProgress result =>
    unfold Exec.afterProgress
    split
    · exact .unfinished result
    · rename_i batch hp
      split
      · rename_i hf; exact .finished result batch hp hf
      · exact .unfinished result
  case batchStatus result batch => exact .finalised result batch
  case callback result batch => exact .called result batch
  case executionFailed error => exact .failed error
  case selectPolicy error =>
    unfold Exec.afterPolicy
    dsimp only
    split
    · rename_i h; exact .retries error _ _ _ h
    · exact .exhausted error
  case requeue delay n st => exact .requeued delay n st
  case deadLetter error => exact .deadLettered error
  case insertDeadLetter error => exact .buried error
  case release => exact .released
  case returned => simpa [hpc] using Exec.Flow.ended

/-- Between the comparison with `total_jobs` and the end of the finalisation
branch. -/
def ExecPc.finalising : ExecPc → Bool
  | .batchStatus _ _ | .publish (.batchCompleted _ _) | .notify (.batchCompleted _ _)
  | .callback _ _ => true
  | _ => false

/-- A rejection gives up, enters the `catch` block, or is swallowed. -/
theorem onThrow_cases (error : String) (pc : ExecPc) :
    Exec.onThrow error pc = .release ∨ Exec.onThrow error pc = .returned ∨
      Exec.onThrow error pc = .executionFailed error ∨
      ∃ site, pc = .log site ∧ Exec.onThrow error pc = Exec.afterLog site := by
  cases pc with
  | publish site | notify site =>
      cases site with
      | batchCompleted result batch => cases result <;> simp [Exec.onThrow, Exec.throwPublish]
      | _ => simp [Exec.onThrow, Exec.throwPublish]
  | log site => exact .inr (.inr (.inr ⟨site, rfl, rfl⟩))
  | batchProgress result | batchStatus result _ => cases result <;> simp [Exec.onThrow]
  | _ => simp [Exec.onThrow]

end JobScheduler
