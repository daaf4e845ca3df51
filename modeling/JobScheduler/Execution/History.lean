/-
  JobScheduler.Execution.History
  ──────────────────────────────
  The execution history of a job: its rows in `job_executions`, numbered by the
  snapshot of the claim and dated by the INSERT.  As long as the counter
  `attempts` only grows, a call numbers its row above all the others; a manual
  retry or a replay sets it back to zero and leaves the rows.
-/
import JobScheduler.DeadLetter.Revival
import JobScheduler.Execution.Attempts
import JobScheduler.Library.Chronicle
import JobScheduler.Routes.Reads
import Mathlib.Data.Int.ConditionallyCompleteOrder

namespace JobScheduler

open Relational Transition Chronicle

/-! ## §1. The history of a job. -/

/-- A row of the history as a record of the chronicle. -/
def JobExecution.record (row : JobExecution) : Record Timestamp where
  number := row.attemptNumber
  date := row.startedAt

/-- The execution rows of job `j`. -/
def Db.history (db : Db) (j : UUID) : Log UUID Timestamp := fun x =>
  ((db.jobExecutions.lookup x).filter (fun row => decide (row.jobId = j))).map JobExecution.record

/-- Job `j` has no execution row. -/
def Db.unexecuted (db : Db) (j : UUID) : Bool :=
  db.jobExecutions.all (fun _ row => decide (row.jobId ≠ j))

/-- The history of a job holds the rows of `job_executions` that name it. -/
theorem Db.history_eq_some {db : Db} {j x : UUID} {r : Record Timestamp} :
    db.history j x = some r ↔
      ∃ row, db.jobExecutions.lookup x = some row ∧ row.jobId = j ∧ row.record = r := by
  simp only [Db.history, Option.map_eq_some_iff, Option.filter_eq_some_iff, decide_eq_true_eq]
  constructor
  · rintro ⟨row, ⟨hrow, hj⟩, hr⟩
    exact ⟨row, hrow, hj, hr⟩
  · rintro ⟨row, hrow, hj, hr⟩
    exact ⟨row, ⟨hrow, hj⟩, hr⟩

theorem Db.unexecuted_iff {db : Db} {j : UUID} :
    db.unexecuted j = true ↔ ∀ x, db.history j x = none := by
  simp only [Db.unexecuted, Table.all_iff, decide_eq_true_eq]
  constructor
  · intro h x
    rw [Option.eq_none_iff_forall_ne_some]
    intro r hr
    obtain ⟨row, hrow, hj, _⟩ := Db.history_eq_some.mp hr
    exact h x row hrow hj
  · intro h x row hrow hj
    have hsome : db.history j x = some row.record := Db.history_eq_some.mpr ⟨row, hrow, hj, rfl⟩
    rw [h x] at hsome
    cases hsome

/-- The row that a call inserts. -/
def Exec.execution (e : Exec) (now : Timestamp) : JobExecution where
  jobId := e.jobId
  workerId := e.workerId
  attemptNumber := e.attemptNumber
  status := .running
  startedAt := now
  finishedAt := none
  errorMessage := none
  result := none

/-- An INSERT adds a record to the history of its job alone. -/
theorem insertExecution_history (db : Db) (x : UUID) (row : JobExecution) (j : UUID)
    (hx : x ∉ db.jobExecutions) :
    (db.insertExecution x row).history j
      = if row.jobId = j then (db.history j).add x row.record else db.history j := by
  funext y
  have hnone : db.jobExecutions.lookup x = none := AList.lookup_eq_none.mpr hx
  by_cases hy : y = x
  · subst hy
    by_cases hj : row.jobId = j <;>
      simp [Db.history, Db.insertExecution, Log.add, hj, hnone]
  · by_cases hj : row.jobId = j <;>
      simp [Db.history, Db.insertExecution, Log.add, hj, hy]

/-- The later statements of a call keep what the history keeps of its row. -/
theorem updateExecution_history (db : Db) (x : UUID) (f : JobExecution → JobExecution) (j : UUID)
    (hj : ∀ row, (f row).jobId = row.jobId) (hr : ∀ row, (f row).record = row.record) :
    (db.updateExecution x f).history j = db.history j := by
  funext y
  simp only [Db.history, Db.updateExecution, Table.lookup_update]
  cases db.jobExecutions.lookup y with
  | none => rfl
  | some row =>
      by_cases hy : y = x
      · simp only [hy, decide_true, if_true, Option.map_some, Option.filter_some, hj]
        split <;> simp [hr]
      · simp [hy]

section
variable {cfg : Config} {ctx : Ctx} {env : Env} {db db' : Db}

/-- No other statement of `executeJob` writes the history. -/
theorem Exec.effect_history {e : Exec} (env : Env) (db : Db) (h : e.pc ≠ .insertExecution)
    (j : UUID) : (e.effect env db).history j = db.history j := by
  cases hpc : e.pc <;> simp only [Exec.effect, hpc] <;> try rfl
  case insertExecution => exact absurd hpc h
  case executionCompleted result =>
    exact updateExecution_history db _ _ j (fun _ => rfl) (fun _ => rfl)
  case executionFailed error =>
    exact updateExecution_history db _ _ j (fun _ => rfl) (fun _ => rfl)

/-- A call either leaves a history alone or adds its own record to that of its job. -/
theorem Exec.step_history {e e' : Exec} (h : e.step cfg ctx env db = some (db', e')) (j : UUID) :
    db'.history j = db.history j ∨
      (e.pc = .insertExecution ∧ e.jobId = j ∧ e'.pc = .log .started ∧ db'.jobs = db.jobs ∧
        db'.history j = (db.history j).add env.fresh ⟨e.attemptNumber, env.now⟩) := by
  obtain ⟨hready, ⟨_, rfl, _⟩ | ⟨_, rfl, rfl⟩⟩ := Exec.step_cases h
  · exact .inl rfl
  by_cases hpc : e.pc = .insertExecution
  · have hfresh : env.fresh ∉ db.jobExecutions := by simpa [Exec.ready, hpc] using hready
    have hins : (e.effect env db).history j = if e.jobId = j then
        (db.history j).add env.fresh ⟨e.attemptNumber, env.now⟩ else db.history j := by
      simp only [Exec.effect, hpc]
      exact insertExecution_history db env.fresh (e.execution env.now) j hfresh
    by_cases hj : e.jobId = j
    · rw [if_pos hj] at hins
      exact .inr ⟨hpc, hj, by simp [Exec.next, hpc], by simp [Exec.effect, hpc, Db.insertExecution], hins⟩
    · rw [if_neg hj] at hins
      exact .inl hins
  · exact .inl (e.effect_history env db hpc j)

/-- Only the calls of `executeJob` write the table. -/
theorem Proc.step_history {p p' : Proc} (h : p.step cfg ctx env db = some (db', p')) (j : UUID) :
    db'.history j = db.history j ∨
      ∃ e e', p = .exec e ∧ p' = .exec e' ∧ e.pc = .insertExecution ∧ e.jobId = j ∧
        e'.pc = .log .started ∧ db'.jobs = db.jobs ∧
        db'.history j = (db.history j).add env.fresh ⟨e.attemptNumber, env.now⟩ := by
  cases Proc.stepped h with
  | claim c c' hq => cases Claim.stepped hq <;> exact .inl rfl
  | exec e e' hq =>
      rcases Exec.step_history hq j with heq | hins
      · exact .inl heq
      · exact .inr ⟨e, e', rfl, rfl, hins⟩
  | submit r r' hq => cases Submit.stepped hq <;> exact .inl rfl
  | retry r r' hq => cases Retry.stepped hq <;> exact .inl rfl
  | replay r r' hq => cases Replay.stepped hq <;> exact .inl rfl
  | cancel r r' hq => cases Cancel.stepped hq <;> exact .inl rfl
  | patch r r' hq => cases Patch.stepped hq <;> exact .inl rfl
  | tick t t' hq =>
      obtain ⟨_, ⟨_, rfl, _⟩ | ⟨_, rfl, _⟩⟩ := Tick.step_cases hq
      · exact .inl rfl
      · unfold Tick.effect
        split <;> first | exact .inl rfl | (split <;> exact .inl rfl)

end

/-! ## §2. The times of the clients. -/

/-- When the client's previous statement took effect. -/
def Sys.since (s : Sys) (pid : Nat) : Option Timestamp := (s.clients.lookup pid).map (·.since)

theorem Sys.put_since (s : Sys) (pid k : Nat) (db : Db) (p : Proc) :
    (s.put pid db p).since k = if k = pid then some s.clock else s.since k := by
  unfold since put
  rw [Table.lookup_insert_ite]
  split <;> rfl

section
variable {cfg : Config} {s s' : Sys} {a : Action} {k : Nat} {t : Timestamp}

/-- A client that idles keeps its time, the others have the time of the step. -/
theorem since_origin (h : step cfg s a = some s') (ht : s'.since k = some t) :
    (s.since k = some t ∧ ∀ env, a ≠ .run k env) ∨ t = s.clock := by
  cases stepped h with
  | wait ms => exact .inl ⟨ht, by simp⟩
  | start pid request _ =>
      rw [Sys.put_since] at ht
      split at ht
      · exact .inr (Option.some.inj ht).symm
      · exact .inl ⟨ht, by simp⟩
  | run pid env p p' db' _ _ _ =>
      rw [Sys.put_since] at ht
      split at ht
      · exact .inr (Option.some.inj ht).symm
      · rename_i hne
        exact .inl ⟨ht, fun env' heq => hne (by cases heq; rfl)⟩

/-- A statement is issued after the previous one took effect, and in the past. -/
theorem issued {env : Env} (h : step cfg s (.run k env) = some s') (ht : s.since k = some t) :
    t ≤ env.now ∧ env.now ≤ s.clock := by
  obtain ⟨client, hclient, rfl⟩ := Option.map_eq_some_iff.mp ht
  simp only [step, hclient] at h
  split at h
  · assumption
  · cases h

/-- Every client has a time of its last statement. -/
theorem since_of_proc {p : Proc} (hk : s.proc k = some p) : ∃ t, s.since k = some t := by
  obtain ⟨client, hclient, _⟩ := Option.map_eq_some_iff.mp hk
  exact ⟨client.since, by simp [Sys.since, hclient]⟩

end

/-! ## §3. The invariant. -/

/-- The call has yet to insert its execution row. -/
def ExecPc.opening : ExecPc → Bool
  | .acquire | .setRunning | .publish .running | .notify .running | .insertExecution => true
  | _ => false

/-- It has written `attempts` already. -/
def ExecPc.counted : ExecPc → Bool
  | .publish .running | .notify .running | .insertExecution => true
  | _ => false

/-- A call that opens its attempt, with the history it will find. -/
structure Opening (j : UUID) (s : Sys) (e : Exec) (since : Timestamp) : Prop where
  above : Within (s.db.history j) e.job.attempts since
  counted : e.pc.counted = true →
    ∃ row, s.db.jobs.lookup j = some row ∧ e.attemptNumber ≤ row.attempts

/-- The history of job `j`, its counter and its calls. -/
structure Chronicled (j : UUID) (s : Sys) : Prop where
  faithful : Faithful (s.db.history j)
  /-- The counter is not behind the history. -/
  numbered : ∀ x r, s.db.history j x = some r →
    ∃ row, s.db.jobs.lookup j = some row ∧ r.number ≤ row.attempts
  past : ∀ x r, s.db.history j x = some r → r.date ≤ s.clock
  call : ∀ k e t, s.proc k = some (.exec e) → s.since k = some t → e.jobId = j →
    e.pc.opening = true → Opening j s e t

theorem ExecPc.opening_live {pc : ExecPc} (h : pc.opening = true) : pc.stage ≠ .ended := by
  unfold ExecPc.opening at h
  split at h <;> simp_all [ExecPc.stage, PublishSite.stage]

/-- A job without a history and without a call. -/
theorem chronicled_fresh {s : Sys} {j : UUID} (hnone : ∀ x, s.db.history j x = none)
    (hended : ∀ k e, s.proc k = some (.exec e) → e.jobId = j → e.stage = .ended) :
    Activations j s ∧ Chronicled j s := by
  refine ⟨⟨?_, ?_⟩, ?_, ?_, ?_, ?_⟩
  · intro k e hk hj hl
    exact absurd (hended k e hk hj) hl
  · intro k l e f hk _ hj _ hl
    exact absurd (hended k e hk hj) hl
  · rw [show s.db.history j = fun _ => none from funext hnone]
    exact faithful_empty
  · intro x r hx
    rw [hnone] at hx
    cases hx
  · intro x r hx
    rw [hnone] at hx
    cases hx
  · intro k e t hk _ hj hop
    exact absurd (hended k e hk hj) (ExecPc.opening_live hop)

/-- A job without executions has an empty history. -/
theorem chronicled_atRest {db : Db} {j : UUID} (clock : Timestamp) (hdb : db.unexecuted j = true) :
    Chronicled j (Sys.atRest clock db) := by
  refine (chronicled_fresh (Db.unexecuted_iff.mp hdb) ?_).2
  intro k e hk
  simp at hk

/-- The action carries out a reset of `j`, which has an execution row or a call that is
not over. -/
def Action.rewrites (s : Sys) (j : UUID) (a : Action) : Bool :=
  a.revives s j && !(s.db.unexecuted j && s.clients.all (fun _ c => !c.proc.attends j))

/-! ## §4. One step. -/

/-- A call opens its attempt from its start. -/
theorem Exec.step_opening {cfg : Config} {ctx : Ctx} {env : Env} {e e' : Exec} {db db' : Db}
    (h : e.step cfg ctx env db = some (db', e')) (ho : e'.pc.opening = true) :
    e.pc.opening = true := by
  obtain ⟨_, ⟨_, _, rfl⟩ | ⟨_, _, rfl⟩⟩ := Exec.step_cases h
  · rcases onThrow_cases env.error e.pc with heq | heq | heq | ⟨site, _, heq⟩ <;>
      simp only [Exec.goto, heq, ExecPc.opening, Bool.false_eq_true] at ho
    cases site <;> simp [Exec.afterLog] at ho
  · have hflow := e.flow env db
    generalize e.pc = pc at hflow ⊢
    generalize (e.next env db).pc = pc' at hflow ho
    cases hflow with
    | acquired | started | announced => rfl
    | published site => cases site <;> first | rfl | cases ho
    | logged site => cases site <;> cases ho
    | _ => cases ho

/-- It counts the attempt by `setRunning`. -/
theorem Exec.step_counted {cfg : Config} {ctx : Ctx} {env : Env} {e e' : Exec} {db db' : Db}
    (h : e.step cfg ctx env db = some (db', e')) (hc : e'.pc.counted = true) :
    e.pc.counted = true ∨ (e.pc = .setRunning ∧ db' = e.effect env db) := by
  obtain ⟨_, ⟨_, _, rfl⟩ | ⟨_, hdb, rfl⟩⟩ := Exec.step_cases h
  · rcases onThrow_cases env.error e.pc with heq | heq | heq | ⟨site, _, heq⟩ <;>
      simp only [Exec.goto, heq, ExecPc.counted, Bool.false_eq_true] at hc
    cases site <;> simp [Exec.afterLog] at hc
  · have hflow := e.flow env db
    generalize e.pc = pc at hflow ⊢
    generalize (e.next env db).pc = pc' at hflow hc
    cases hflow with
    | started => exact .inr ⟨rfl, hdb⟩
    | announced => exact .inl rfl
    | published site => cases site <;> first | exact .inl rfl | cases hc
    | logged site => cases site <;> cases hc
    | _ => cases hc

section
variable {cfg : Config} {s s' : Sys} {a : Action} {j : UUID}

/-- What an action does to the history of job `j`: nothing, or the INSERT of a call. -/
theorem step_history (h : step cfg s a = some s') (j : UUID) :
    s'.db.history j = s.db.history j ∨
      ∃ k env e e', a = .run k env ∧ s.proc k = some (.exec e) ∧ s'.proc k = some (.exec e') ∧
        e.pc = .insertExecution ∧ e.jobId = j ∧ e'.pc = .log .started ∧ s'.db.jobs = s.db.jobs ∧
        s'.db.history j = (s.db.history j).add env.fresh ⟨e.attemptNumber, env.now⟩ := by
  cases stepped h with
  | wait | start => exact .inl rfl
  | run pid env p p' db' hp _ hstep =>
      rcases Proc.step_history hstep j with heq | ⟨e, e', rfl, rfl, hins⟩
      · exact .inl heq
      · exact .inr ⟨pid, env, e, e', rfl, hp, Sys.put_proc_self _ _ _ _, hins⟩

/-- The counter stays, or is set by a call, when nobody resets the job. -/
theorem counter_kept {old : Job} (hr : a.resets s j = false) (h : step cfg s a = some s')
    (hold : s.db.jobs.lookup j = some old) :
    ∃ new, s'.db.jobs.lookup j = some new ∧ (new.attempts = old.attempts ∨
      ∃ k env e, a = .run k env ∧ s.proc k = some (.exec e) ∧ e.jobId = j ∧ e.pc = .setRunning ∧
        new.attempts = e.attemptNumber) := by
  obtain ⟨new, hnew⟩ := row_stays h ⟨old, hold⟩
  refine ⟨new, hnew, ?_⟩
  rcases step_row h j with heq | ⟨pid, env, p, rfl, hp, _, hch⟩
  · rw [hnew, hold] at heq
    exact .inl (by rw [Option.some.inj heq])
  rw [hold, hnew] at hch
  cases hch with
  | running e _ hpc hj => exact .inr ⟨pid, env, e, rfl, hp, hj, hpc, rfl⟩
  | retried r _ hpc hj => simp [Action.resets, hp, Proc.resets, hpc, hj] at hr
  | replayed r _ hpc => simp [Action.resets, hp, Proc.resets, hpc] at hr
  | _ => exact .inl rfl

/-- The records of the job are in the past. -/
theorem Chronicled.within (hC : Chronicled j s) {n : Nat}
    (hn : ∀ x r, s.db.history j x = some r → r.number ≤ n) : Within (s.db.history j) n s.clock :=
  fun x r hx => ⟨hn x r hx, hC.past x r hx⟩

/-- A call that idles. -/
theorem opening_idle {k : Nat} {e : Exec} {t : Timestamp} (hA : Activations j s) (hC : Chronicled j s)
    (hr : a.resets s j = false) (h : step cfg s a = some s')
    (hsame : s'.db.history j = s.db.history j) (hk : s.proc k = some (.exec e))
    (hne : ∀ env, a ≠ .run k env) (ht : s'.since k = some t) (hj : e.jobId = j)
    (ho : e.pc.opening = true) : Opening j s' e t := by
  obtain ⟨t₀, ht₀⟩ := since_of_proc hk
  have hO := hC.call k e t₀ hk ht₀ hj ho
  refine ⟨?_, fun hcnt => ?_⟩
  · rw [hsame]
    rcases since_origin h ht with ⟨ht', _⟩ | rfl
    · exact (hC.call k e t hk ht' hj ho).above
    · exact hC.within (fun x r hx => (hO.above x r hx).1)
  · obtain ⟨old, hold, hle⟩ := hO.counted hcnt
    obtain ⟨new, hnew, hatt | ⟨l, env, f, ha, hl, hfj, hpc, _⟩⟩ := counter_kept hr h hold
    · exact ⟨new, hnew, hatt ▸ hle⟩
    · -- no other call counts an attempt of the job
      have hlive : f.stage ≠ .ended := ExecPc.opening_live (by rw [hpc]; rfl)
      have hkl := hA.unique k l e f hk hl hj hfj (ExecPc.opening_live ho) hlive
      exact absurd ha (hkl ▸ hne env)

/-- A call that executes its next statement. -/
theorem opening_stepped {k : Nat} {env : Env} {e e' : Exec} {t : Timestamp} (hA : Activations j s)
    (hC : Chronicled j s) (hr : a.resets s j = false) (h : step cfg s a = some s')
    (hsame : s'.db.history j = s.db.history j) (ha : a = .run k env) (hk : s.proc k = some (.exec e))
    (hs : e.step cfg s.ctx env s.db = some (s'.db, e')) (ht : s'.since k = some t)
    (hj : e'.jobId = j) (ho : e'.pc.opening = true) : Opening j s' e' t := by
  obtain ⟨hid, hjob, _⟩ := Exec.step_params hs
  have hej : e.jobId = j := hid ▸ hj
  have hopen := Exec.step_opening hs ho
  obtain ⟨t₀, ht₀⟩ := since_of_proc hk
  have hO := hC.call k e t₀ hk ht₀ hej hopen
  refine ⟨?_, fun hcnt => ?_⟩
  · rw [hsame, hjob]
    rcases since_origin h ht with ⟨_, hne⟩ | rfl
    · exact absurd ha (hne env)
    · exact hC.within (fun x r hx => (hO.above x r hx).1)
  · rw [show e'.attemptNumber = e.attemptNumber by rw [Exec.attemptNumber, hjob]; rfl]
    obtain ⟨old, hold, _⟩ := hA.row k e hk hej (ExecPc.opening_live hopen)
    rcases Exec.step_counted hs hcnt with hc | ⟨hpc, hdb⟩
    · obtain ⟨row, hrow, hle⟩ := hO.counted hc
      obtain ⟨new, hnew, hatt | ⟨l, _, f, _, hl, hfj, hpc, hatt⟩⟩ := counter_kept hr h hrow
      · exact ⟨new, hnew, hatt ▸ hle⟩
      · have hlive : f.stage ≠ .ended := ExecPc.opening_live (by rw [hpc]; rfl)
        obtain rfl := hA.unique k l e f hk hl hej hfj (ExecPc.opening_live hopen) hlive
        rw [hk] at hl
        cases hl
        exact ⟨new, hnew, hatt.ge⟩
    · subst hej
      rw [hdb, Exec.effect, hpc]
      exact ⟨_, updateJob_lookup_self _ hold, le_refl _⟩

/-- A call that begins: its snapshot has the counter of the row. -/
theorem opening_committed {k : Nat} {env : Env} {c : Claim} {row : Job} {t : Timestamp} (hP : Pending s)
    (hC : Chronicled j s) (h : step cfg s a = some s') (hsame : s'.db.history j = s.db.history j)
    (ha : a = .run k env) (hk : s.proc k = some (.claim c)) (hpc : c.pc = .committing (some (j, row)))
    (ht : s'.since k = some t) :
    Opening j s' { jobId := j, job := row, workerId := c.workerId } t := by
  obtain ⟨old, hold, _, hrow⟩ := hP.queued k c j row hk hpc
  refine ⟨?_, fun hcnt => by cases hcnt⟩
  rw [hsame]
  rcases since_origin h ht with ⟨_, hne⟩ | rfl
  · exact absurd ha (hne env)
  · refine hC.within (fun x r hx => ?_)
    obtain ⟨o, ho, hle⟩ := hC.numbered x r hx
    rw [hold] at ho
    cases ho
    rw [hrow]
    exact hle

/-- **A step that adds no record** and does not reset the job. -/
theorem chronicled_quiet (hP : Pending s) (hA : Activations j s) (hC : Chronicled j s)
    (hr : a.resets s j = false) (h : step cfg s a = some s')
    (hsame : s'.db.history j = s.db.history j) : Chronicled j s' := by
  refine ⟨?_, ?_, ?_, ?_⟩
  · rw [hsame]
    exact hC.faithful
  · intro x r hx
    rw [hsame] at hx
    obtain ⟨old, hold, hle⟩ := hC.numbered x r hx
    obtain ⟨new, hnew, hatt | ⟨k, env, e, _, hk, hj, hpc, hatt⟩⟩ := counter_kept hr h hold
    · exact ⟨new, hnew, hatt ▸ hle⟩
    · -- the call that counts its attempt has read a number that is not behind
      obtain ⟨t, ht⟩ := since_of_proc hk
      have hO := hC.call k e t hk ht hj (by rw [hpc]; rfl)
      exact ⟨new, hnew, by rw [hatt]; exact ((hO.above x r hx).1).trans (Nat.le_succ _)⟩
  · intro x r hx
    rw [hsame] at hx
    exact (hC.past x r hx).trans (clock_mono h)
  · intro k e' t' hk ht hj hop
    cases exec_origin h hk with
    | idle hk₀ hne => exact opening_idle hA hC hr h hsame hk₀ hne ht hj hop
    | stepped env e ha hk₀ hs => exact opening_stepped hA hC hr h hsame ha hk₀ hs ht hj hop
    | committed env c i row ha hk₀ hpc _ he =>
        subst he
        obtain rfl : i = j := hj
        exact opening_committed hP hC h hsame ha hk₀ hpc ht

/-- **The INSERT of a call.** -/
theorem chronicled_insert {k : Nat} {env : Env} {e e' : Exec} (hA : Activations j s)
    (hC : Chronicled j s) (h : step cfg s (.run k env) = some s') (hk : s.proc k = some (.exec e))
    (hk' : s'.proc k = some (.exec e')) (hpc : e.pc = .insertExecution) (hj : e.jobId = j)
    (hpc' : e'.pc = .log .started) (hjobs : s'.db.jobs = s.db.jobs)
    (hadd : s'.db.history j = (s.db.history j).add env.fresh ⟨e.attemptNumber, env.now⟩) :
    Chronicled j s' := by
  obtain ⟨t, ht⟩ := since_of_proc hk
  have hO := hC.call k e t hk ht hj (by rw [hpc]; rfl)
  obtain ⟨hafter, hbefore⟩ := issued h ht
  have hlive : e.stage ≠ .ended := ExecPc.opening_live (by rw [hpc]; rfl)
  refine ⟨?_, ?_, ?_, ?_⟩
  · rw [hadd]
    exact hC.faithful.add hO.above (Nat.lt_succ_self _) hafter
  · intro x r hx
    rw [hadd] at hx
    rw [hjobs]
    rcases Log.add_eq_some.mp hx with ⟨_, rfl⟩ | ⟨_, hx'⟩
    · exact hO.counted (by rw [hpc]; rfl)
    · exact hC.numbered x r hx'
  · intro x r hx
    rw [hadd] at hx
    refine le_trans ?_ (clock_mono h)
    rcases Log.add_eq_some.mp hx with ⟨_, rfl⟩ | ⟨_, hx'⟩
    · exact hbefore
    · exact hC.past x r hx'
  · -- the only call that could open an attempt has just done so
    intro l f u hl _ hfj hop
    cases exec_origin h hl with
    | idle hl₀ hne =>
        have hkl := hA.unique k l e f hk hl₀ hj hfj hlive (ExecPc.opening_live hop)
        exact absurd rfl (hkl ▸ hne env)
    | stepped env' f₀ ha _ _ =>
        cases ha
        rw [hk'] at hl
        cases hl
        rw [hpc'] at hop
        cases hop
    | committed env' c i row ha hl₀ =>
        cases ha
        rw [hk] at hl₀
        cases hl₀

/-- A manual request moves no call. -/
theorem exec_of_manual {pid k : Nat} {env : Env} {p : Proc} {e : Exec} (hp : s.proc pid = some p)
    (hm : p.manual = true) (h : step cfg s (.run pid env) = some s')
    (hk : s'.proc k = some (.exec e)) : s.proc k = some (.exec e) := by
  cases exec_origin h hk with
  | idle hk₀ _ => exact hk₀
  | stepped env' f ha hk₀ _ =>
      cases ha
      rw [hp] at hk₀
      cases hk₀
      cases hm
  | committed env' c i row ha hk₀ =>
      cases ha
      rw [hp] at hk₀
      cases hk₀
      cases hm

/-- A rejected statement of a manual request leaves the database and the calls as they are. -/
theorem chronicled_rejected {pid : Nat} {env : Env} {p : Proc} (hA : Activations j s)
    (hC : Chronicled j s) (hp : s.proc pid = some p) (hm : p.manual = true) (hf : env.fails = true)
    (h : step cfg s (.run pid env) = some s') (hsame : s'.db.history j = s.db.history j) :
    Activations j s' ∧ Chronicled j s' := by
  have hcalls : ∀ {k e}, s'.proc k = some (.exec e) → s.proc k = some (.exec e) :=
    fun hk => exec_of_manual hp hm h hk
  obtain ⟨p', _, hstep⟩ := proc_run h hp
  have hdb : s'.db = s.db := Proc.step_failed hstep hf
  refine ⟨⟨?_, ?_⟩, ?_, ?_, ?_, ?_⟩
  · intro k e hk hj hl
    rw [hdb]
    exact hA.row k e (hcalls hk) hj hl
  · intro k l e f hk hl hej hfj hel hfl
    exact hA.unique k l e f (hcalls hk) (hcalls hl) hej hfj hel hfl
  · rw [hdb]
    exact hC.faithful
  · rw [hdb]
    exact hC.numbered
  · rw [hdb]
    exact fun x r hx => (hC.past x r hx).trans (clock_mono h)
  · intro k e t' hk ht hj hop
    obtain ⟨t, ht₀⟩ := since_of_proc (hcalls hk)
    have hO := hC.call k e t (hcalls hk) ht₀ hj hop
    refine ⟨?_, by rw [hdb]; exact hO.counted⟩
    rw [hsame]
    rcases since_origin h ht with ⟨ht', _⟩ | rfl
    · exact (hC.call k e t' (hcalls hk) ht' hj hop).above
    · exact hC.within (fun x r hx => (hO.above x r hx).1)

/-- **A reset** is rejected, or finds the job without a history and without a call. -/
theorem chronicled_reset (hA : Activations j s) (hC : Chronicled j s) (hres : a.resets s j = true)
    (hr : a.rewrites s j = false) (h : step cfg s a = some s')
    (hsame : s'.db.history j = s.db.history j) : Activations j s' ∧ Chronicled j s' := by
  obtain ⟨pid, env, p, rfl, hp, hpres⟩ : ∃ pid env p, a = .run pid env ∧ s.proc pid = some p ∧
      p.resets j = true := by
    cases a with
    | run pid env =>
        obtain ⟨p, hp, hpres⟩ := (Option.any_eq_true _ _).mp hres
        exact ⟨pid, env, p, rfl, hp, hpres⟩
    | _ => cases hres
  have hm : p.manual = true := by
    rcases Proc.resets_iff.mp hpres with ⟨r, rfl, _⟩ | ⟨r, rfl, _⟩ <;> rfl
  by_cases hf : env.fails = true
  · exact chronicled_rejected hA hC hp hm hf h hsame
  · -- carried out
    have hrev : (Action.run pid env).revives s j = true := by
      simp [Action.revives, hres, hf]
    simp only [Action.rewrites, hrev, Bool.true_and, Bool.not_eq_false', Bool.and_eq_true] at hr
    obtain ⟨hun, hclients⟩ := hr
    refine chronicled_fresh ?_ ?_
    · rw [hsame]
      exact Db.unexecuted_iff.mp hun
    · intro k e hk hj
      have hk₀ := exec_of_manual hp hm h hk
      have hno := (s.clients_all_iff (fun p => !p.attends j)).mp hclients k _ hk₀
      simpa [Proc.attends, hj] using hno

/-- One step keeps the history chronicled, unless it resets the job and so restarts the numbering.
-/
theorem chronicled_step (hP : Pending s) (hA : Activations j s) (hC : Chronicled j s)
    (hr : a.rewrites s j = false) (h : step cfg s a = some s') :
    Activations j s' ∧ Chronicled j s' := by
  rcases step_history h j with hsame | ⟨k, env, e, e', rfl, hk, hk', hpc, hj, hpc', hjobs, hadd⟩
  · by_cases hres : a.resets s j = true
    · exact chronicled_reset hA hC hres hr h hsame
    · have hno : a.resets s j = false := by simpa using hres
      exact ⟨activations_step hP hA (Action.not_resetsLive hno) h, chronicled_quiet hP hA hC hno h hsame⟩
  · have hno : (Action.run k env).resets s j = false := by simp [Action.resets, hk, Proc.resets]
    exact ⟨activations_step hP hA (Action.not_resetsLive hno) h,
      chronicled_insert hA hC h hk hk' hpc hj hpc' hjobs hadd⟩

end

/-! ## §5. What GET /jobs/:id/executions lists. -/

/-- The rows of job `j` bear distinct numbers, and every listing of them is in the order of
`started_at`. -/
structure Db.FaithfulHistory (db : Db) (j : UUID) : Prop where
  distinct : ∀ x y row row', db.jobExecutions.lookup x = some row →
    db.jobExecutions.lookup y = some row' → row.jobId = j → row'.jobId = j →
    row.attemptNumber = row'.attemptNumber → x = y
  listed : ∀ (snap : Snapshot) (userId : UUID) (now : Timestamp) (rows : List ExecutionView),
    snap.db = db → (ReadRequest.executions (.uuid j)).Replies snap userId now (.executions rows) →
    rows.Pairwise (fun a b => a.row.startedAt ≤ b.row.startedAt)

/-- What the route shows is a row of the job. -/
theorem mem_executions {snap : Snapshot} {userId j : UUID} {v : ExecutionView}
    (h : v ∈ snap.executions userId j) :
    snap.db.jobExecutions.lookup v.id = some v.row ∧ v.row.jobId = j := by
  obtain ⟨⟨x, row⟩, hx, rfl⟩ := List.mem_map.mp h
  obtain ⟨hrow, hsel⟩ := (Table.mem_select_iff _ _ _ _).mp hx
  exact ⟨hrow, by simpa using (Bool.and_eq_true_iff.mp hsel).1⟩

/-- The route shows no row twice. -/
theorem executions_nodup (snap : Snapshot) (userId j : UUID) :
    ((snap.executions userId j).map ExecutionView.id).Nodup := by
  unfold Snapshot.executions
  rw [List.map_map]
  exact Table.nodup_select _ _

/-- A faithful chronicle is a faithful answer of the route. -/
theorem faithfulHistory_of_faithful {db : Db} {j : UUID} (h : Faithful (db.history j)) :
    db.FaithfulHistory j where
  distinct := by
    intro x y row row' hx hy hj hj' heq
    exact h.distinct x y row.record row'.record (Db.history_eq_some.mpr ⟨row, hx, hj, rfl⟩)
      (Db.history_eq_some.mpr ⟨row', hy, hj', rfl⟩) heq
  listed := by
    rintro snap userId now rows rfl ⟨l, hl, heq⟩
    cases heq
    refine h.listed ExecutionView.id (fun v => v.row.record) ?_ ?_ ?_
    · intro v hv
      obtain ⟨hrow, hj⟩ := mem_executions (hl.perm.mem_iff.mp hv)
      exact Db.history_eq_some.mpr ⟨v.row, hrow, hj, rfl⟩
    · exact (hl.perm.map ExecutionView.id).nodup_iff.mpr (executions_nodup snap userId j)
    · exact hl.sorted.imp (fun hab => of_decide_eq_true hab)

/-- **Execution history is faithful** in every state that a run reaches from a state where
job `j` has no execution row, as long as no reset of the job is carried out while it has
one, or has a call that is not over. -/
theorem history_faithful {cfg : Config} {clock : Timestamp} {db : Db} {j : UUID}
    {tr : List (Sys × Action)} {s : Sys} (hrun : SysRun cfg (Sys.atRest clock db) tr s)
    (hdb : db.unexecuted j = true) (hre : ∀ p ∈ tr, p.2.rewrites p.1 j = false) :
    s.db.FaithfulHistory j := by
  have hC := hrun.invariant (I := fun s => Pending s ∧ Activations j s ∧ Chronicled j s)
    (G := fun s a => a.rewrites s j = false)
    (fun _ _ _ hI hg hs => ⟨pending_step hI.1 hs, chronicled_step hI.1 hI.2.1 hI.2.2 hg hs⟩)
    hre ⟨pending_atRest clock db, activations_atRest j clock db, chronicled_atRest clock hdb⟩
  exact faithfulHistory_of_faithful hC.2.2.faithful

/-- Both attempts of job 7 fail; it is retried by hand and attempted once more. -/
def retryDeadActions : List Action :=
  failTwiceActions ++ [.wait 3, .start 2 (.retry 1 7)]
    ++ Action.runs 2 { now := 4 } 5
    ++ .start 3 (.claim 5 none none)
    :: Action.runs 3 { now := 4, pick := some 7, fresh := 102 } 10

theorem history_faithful_twice :
    (play (step Config.small) (Sys.atRest 0 Db.smallTwice) failTwiceActions).db.FaithfulHistory 7 :=
  history_faithful
    (run_of_play (step Config.small) (Sys.atRest 0 Db.smallTwice) failTwiceActions (by rfl))
    (by decide) (by decide)

/-- The tables that GET /jobs/:id/executions reads, as the retried job leaves them. -/
def Snapshot.retried : Snapshot where
  db := (play (step Config.small) (Sys.atRest 0 Db.smallTwice) retryDeadActions).db
  directory := { users := ∅, organizations := ∅, projectNames := ∅ }
  workerNames := ∅
  policyNames := ∅
  jobLogs := ∅
  createdAt := fun _ => 0

/-- The attempt after the manual retry is number one again, and is listed before the second
attempt of the time before. -/
theorem retry_repeats_number :
    SysRun Config.small (Sys.atRest 0 Db.smallTwice)
      (trace (step Config.small) (Sys.atRest 0 Db.smallTwice) retryDeadActions)
      (play (step Config.small) (Sys.atRest 0 Db.smallTwice) retryDeadActions) ∧
    Db.smallTwice.unexecuted 7 = true ∧
    (∃ rows, (ReadRequest.executions (.uuid 7)).Replies Snapshot.retried 1 4 (.executions rows) ∧
      rows.map (fun v => (v.id, v.row.attemptNumber, v.row.startedAt)) =
        [(100, 1, 0), (102, 1, 4), (101, 2, 1)]) ∧
    ¬ (play (step Config.small) (Sys.atRest 0 Db.smallTwice) retryDeadActions).db.FaithfulHistory 7 := by
  refine ⟨run_of_play _ _ _ (by rfl), by decide, ?_, fun h => ?_⟩
  · let rows := Snapshot.retried.executions 1 7
    have hperm : (rows.drop 2 ++ rows.take 2).Perm rows :=
      List.perm_append_comm.trans (by rw [List.take_append_drop])
    exact ⟨rows.drop 2 ++ rows.take 2, ⟨_, ⟨hperm, by decide⟩, rfl⟩, by rfl⟩
  · exact absurd (h.distinct 100 102 _ _ rfl rfl rfl rfl rfl) (by decide)

end JobScheduler
