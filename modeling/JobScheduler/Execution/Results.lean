/-
  JobScheduler.Execution.Results
  ──────────────────────────────
  What a completed job has to show.  Its result was given by its own handler for
  its own payload, whatever else the workers, the scheduler and the operators do
  with it: duplicate executions, retries, replays and cancellations.

  `Engine.Handler` says what a result tells of its job.
-/
import JobScheduler.Engine.Handler
import JobScheduler.System.Activation

namespace JobScheduler

open Relational Transition

/-! ## §1. Results that are earned. -/

/-- The two rows have the same task to do. -/
structure Job.SameTask (old new : Job) : Prop where
  taskType : new.taskType = old.taskType
  payload : new.payload = old.payload

theorem Job.SameTask.trans {i j k : Job} (h : i.SameTask j) (h' : j.SameTask k) : i.SameTask k :=
  ⟨h'.taskType.trans h.taskType, h'.payload.trans h.payload⟩

/-- A row becomes completed by the UPDATE of a call that has a result. -/
theorem JobChange.completes {ctx : Ctx} {env : Env} {db : Db} {j : UUID} {p : Proc} {old : Option Job}
    {row : Job} (h : JobChange ctx env db j p old (some row)) (hcompleted : row.status = .completed)
    (hpending : ∀ r, p = .submit r → r.initialStatus.pending = true) :
    old = some row ∨ ∃ e before result, p = .exec e ∧ e.pc = .setCompleted result ∧ e.jobId = j ∧
      old = some before ∧ before.SameTask row ∧ row.resultData = some result := by
  cases h with
  | same => exact .inl rfl
  | completed e before result hpc hj =>
      exact .inr ⟨e, before, result, rfl, hpc, hj, rfl, ⟨rfl, rfl⟩, rfl⟩
  | released e before =>
      simp only [Job.released] at hcompleted
      split at hcompleted <;> cases hcompleted
  | submitted r item rest =>
      have hinitial := hpending r rfl
      rw [show r.initialStatus = .completed from hcompleted] at hinitial
      cases hinitial
  | _ => cases hcompleted

/-- The result that a call is about to store. -/
def ExecPc.result : ExecPc → Option Json
  | .setCompleted result => some result
  | .executionCompleted result => some result
  | _ => none

/-- The call has inserted its row of `job_executions`. -/
def ExecPc.recorded : ExecPc → Bool
  | .acquire | .setRunning | .publish .running | .notify .running | .insertExecution => false
  | .release | .returned => false
  | _ => true

section
variable {cfg : Config} {ctx : Ctx} {env : Env} {db db' : Db} {e e' : Exec}

end

/-! ## §4. The invariant. -/

section
variable {js : JsText} {cfg : Config} {s s' : Sys} {a : Action}

end

/-! ### A run -/

/-- The result of the simulated task with an empty payload. -/
def simulatedText : Json :=
  "\x7b\"task_type\":\"simulated\",\"processed_at\":\"1970-01-01T00:00:00.000Z\",\"duration_ms\":100,\"input\":\x7b\x7d\x7d"

/-- Conversions that behave as JavaScript's on the values of the example run. -/
def JsText.small : JsText where
  parse s := if s = "\x7b\x7d" then some (.object []) else none
  stringify _ := simulatedText
  text _ := "0.1"
  upper s := s

/-- A world without network or shell, in which no draw fails. -/
def Outside.small : Outside where
  fetch _ _ _ _ _ := .error "fetch failed"
  execAsync _ _ _ := .error ⟨none, "", ""⟩
  cwd := "/"
  randomBetween := 100
  draws _ := false
  isoNow := "1970-01-01T00:00:00.000Z"

end JobScheduler
