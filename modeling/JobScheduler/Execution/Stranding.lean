/-
  JobScheduler.Execution.Stranding
  ────────────────────────────────
  Who looks after an active job.  A job becomes claimed or running by the COMMIT
  of a claim or by the first UPDATE of an activation; the client that did so
  last is the one that must bring it out of these statuses again.  The only way
  it can drop the job, when no statement fails, is the early return of
  `executeJob` on a lock that is held.
-/
import JobScheduler.System.Activation

namespace JobScheduler

open Relational Transition

/-! ## §1. The claim that put a job there. -/

/-- The client's next statement sets job `j` to claimed or running. -/
def Proc.activates (cfg : Config) (env : Env) (j : UUID) : Proc → Bool
  | .claim c => !env.fails && c.holdsJob j
  | .exec e =>
      match e.pc with
      | .setRunning => !(env.fails || e.overflows cfg) && decide (e.jobId = j)
      | _ => false
  | _ => false

/-- What an action makes of the client that put job `j` into claimed or running last. -/
def Action.setterAfter (cfg : Config) (s : Sys) (j : UUID) (setter : Option Nat) :
    Action → Option Nat
  | .run pid env => if (s.proc pid).any (Proc.activates cfg env j) then some pid else setter
  | _ => setter

/-- The client whose claim put job `j` into claimed or running last. -/
def lastSetter (cfg : Config) (tr : List (Sys × Action)) (j : UUID) : Option Nat :=
  tr.foldl (fun setter p => p.2.setterAfter cfg p.1 j setter) none

/-- The action is the early return of `executeJob` for job `j`: the lock is refused. -/
def Action.refused (s : Sys) (j : UUID) : Action → Bool
  | .run pid env =>
      match s.proc pid with
      | some (.exec e) =>
          (match e.pc with
            | .acquire => !e.acquires env s.db
            | _ => false) && decide (e.jobId = j)
      | _ => false
  | _ => false

/-- The lock of `j` is refused to an activation while `j` is still as this very
client's claim left it. -/
def Action.strands (cfg : Config) (tr : List (Sys × Action)) (s : Sys) (j : UUID) (a : Action) :
    Bool :=
  a.refused s j && (s.db.jobs.lookup j).any (·.status.active) &&
    match a with
    | .run pid _ => decide (lastSetter cfg tr j = some pid)
    | _ => false

theorem lastSetter_snoc (cfg : Config) (tr : List (Sys × Action)) (s : Sys) (a : Action) (j : UUID) :
    lastSetter cfg (tr ++ [(s, a)]) j = a.setterAfter cfg s j (lastSetter cfg tr j) := by
  unfold lastSetter
  rw [List.foldl_append]
  rfl

/-! ## §2. One statement of the client in charge. -/

/-- The call has the job in its hands. -/
def Exec.working (e : Exec) : Bool :=
  match e.stage with
  | .claimed | .running | .caught => true
  | _ => false

/-- A statement that is carried out leaves the job in the call's hands, takes it
out of claimed and running, or is a refused acquire. -/
theorem Exec.next_working (env : Env) (e : Exec) (db : Db) (hw : e.working = true) :
    (e.next env db).working = true ∨ (e.pc = .acquire ∧ e.acquires env db = false) ∨
      ∀ row, (e.effect env db).jobs.lookup e.jobId = some row → row.status.active = false := by
  have hwrite : ∀ f : Job → Job, (∀ j, (f j).status.active = false) →
      ∀ row, (db.updateJob e.jobId f).jobs.lookup e.jobId = some row →
        row.status.active = false := by
    intro f hf row hrow
    simp only [updateJob_lookup, if_true, Option.map_eq_some_iff] at hrow
    obtain ⟨o, _, rfl⟩ := hrow
    exact hf o
  unfold Exec.working Exec.stage at hw ⊢
  cases hpc : e.pc <;> rw [hpc] at hw <;> simp only [ExecPc.stage] at hw <;> try cases hw
  case acquire =>
    cases hacq : e.acquires env db with
    | true => left; simp [Exec.next, hpc, hacq, ExecPc.stage]
    | false => exact .inr (.inl ⟨rfl, rfl⟩)
  case setRunning => left; simp [Exec.next, hpc, Exec.goto, ExecPc.stage, PublishSite.stage]
  case publish site => left; simp only [Exec.next, hpc, Exec.goto, ExecPc.stage]; exact hw
  case notify site =>
    left
    cases site <;> simp only [PublishSite.stage] at hw <;> try cases hw
    · simp [Exec.next, hpc, Exec.goto, Exec.afterPublish, ExecPc.stage]
    · rename_i result batch
      cases result <;> cases hw
  case insertExecution => left; simp [Exec.next, hpc, ExecPc.stage, LogSite.stage]
  case handler =>
    left
    cases hh : env.handler <;> simp [Exec.next, hpc, hh, Exec.goto, ExecPc.stage]
  case log site =>
    left
    cases site <;> simp only [LogSite.stage] at hw <;> try cases hw
    · simp [Exec.next, hpc, Exec.goto, Exec.afterLog, ExecPc.stage]
    · simp [Exec.next, hpc, Exec.goto, Exec.afterLog, ExecPc.stage]
  -- the three UPDATEs that end the attempt
  case setCompleted result =>
    right; right
    simp only [Exec.effect, hpc]
    exact hwrite _ (fun _ => rfl)
  case batchProgress result | batchStatus result batch | callback result batch =>
    cases result <;> cases hw
  case executionFailed error =>
    left; simp [Exec.next, hpc, Exec.goto, ExecPc.stage, LogSite.stage]
  case selectPolicy error =>
    left; simp [Exec.next, hpc, Exec.goto, e.afterPolicy_stage env db error]
  case requeue delay n st =>
    right; right
    simp only [Exec.effect, hpc]
    exact hwrite _ (fun _ => rfl)
  case deadLetter error =>
    right; right
    simp only [Exec.effect, hpc]
    exact hwrite _ (fun _ => rfl)

/-- A client that activates a job is its activation afterwards. -/
theorem Proc.step_activates {cfg : Config} {ctx : Ctx} {env : Env} {db db' : Db} {p p' : Proc}
    {j : UUID} (h : p.step cfg ctx env db = some (db', p')) (ha : p.activates cfg env j = true) :
    ∃ e, p' = .exec e ∧ e.jobId = j ∧ e.working = true := by
  cases p <;> simp only [Proc.activates, Bool.false_eq_true] at ha
  case claim c =>
    obtain ⟨hf, hholds⟩ := Bool.and_eq_true_iff.mp ha
    obtain ⟨row, hpc⟩ := Claim.holdsJob_iff.mp hholds
    have hfails : env.fails = false := by simpa using hf
    simp only [Proc.step, Claim.step, hpc, hfails, Bool.false_eq_true, if_false,
      Option.map_some, Option.some.injEq, Prod.mk.injEq] at h
    exact ⟨_, h.2.symm, rfl, rfl⟩
  case exec e =>
    split at ha
    · rename_i hpc
      obtain ⟨hacc, hj⟩ := Bool.and_eq_true_iff.mp ha
      obtain ⟨⟨d, e'⟩, hs, he⟩ := Option.map_eq_some_iff.mp h
      cases he
      refine ⟨e', rfl, (Exec.step_params hs).1.trans (of_decide_eq_true hj), ?_⟩
      obtain ⟨_, ⟨hr, _⟩ | ⟨_, _, rfl⟩⟩ := Exec.step_cases hs
      · simp [hr] at hacc
      · simp [Exec.working, Exec.stage, Exec.next, hpc, Exec.goto, ExecPc.stage, PublishSite.stage]
    · cases ha

/-- A job that a statement leaves active was active, or has just been activated. -/
theorem Proc.step_active {cfg : Config} {s : Sys} {env : Env} {pid : Nat} {p p' : Proc} {db' : Db}
    {j : UUID} {row : Job} (hI : InsertsPending s) (hp : s.proc pid = some p)
    (hacc : (Action.run pid env).rejected cfg s = false)
    (h : p.step cfg s.ctx env s.db = some (db', p')) (hrow : db'.jobs.lookup j = some row)
    (ha : row.status.active = true) :
    p.activates cfg env j = true ∨
      ∃ old, s.db.jobs.lookup j = some old ∧ old.status.active = true := by
  have hch := Proc.step_jobs (j := j) h
  rw [hrow] at hch
  rcases hch.active ha with ⟨o, ho, _, hoa⟩ | ⟨c, r, o, rfl, hpc, ho, _⟩ |
    ⟨e, o, rfl, hpc, hej, _, _⟩ | ⟨r, rfl, hr⟩
  · exact .inr ⟨o, ho, hoa⟩
  · cases hf : env.fails with
    | false => exact .inl (by simp [Proc.activates, hf, Claim.holdsJob_iff.mpr ⟨r, hpc⟩])
    | true =>
        -- a COMMIT that fails leaves the row alone
        simp only [Proc.step, Claim.step, hpc, hf, if_true, Option.map_some, Option.some.injEq,
          Prod.mk.injEq] at h
        exact .inr ⟨row, h.1 ▸ hrow, ha⟩
  · left
    simp only [Action.rejected, hp] at hacc
    simp [Proc.activates, hpc, hacc, hej]
  · rw [JobStatus.active_of_pending (hI pid r hp)] at hr
    cases hr

/-! ## §3. The invariant. -/

/-- An active job is in the hands of the client that made it active last. -/
def Attended (cfg : Config) (j : UUID) (tr : List (Sys × Action)) (s : Sys) : Prop :=
  ∀ row, s.db.jobs.lookup j = some row → row.status.active = true →
    ∃ k e, lastSetter cfg tr j = some k ∧ s.proc k = some (.exec e) ∧ e.jobId = j ∧
      e.working = true

/-- One step keeps every active job attended, unless it strands it. -/
theorem attended_step {cfg : Config} {s s' : Sys} {a : Action} {j : UUID}
    {tr : List (Sys × Action)} (hI : InsertsPending s) (hA : Attended cfg j tr s)
    (hacc : a.rejected cfg s = false) (hst : a.strands cfg tr s j = false)
    (h : step cfg s a = some s') : Attended cfg j (tr ++ [(s, a)]) s' := by
  intro row hrow hactive
  rw [lastSetter_snoc]
  cases stepped h with
  | wait ms => exact hA row hrow hactive
  | start pid request hfree =>
      obtain ⟨k, e, hset, hk, hrest⟩ := hA row hrow hactive
      have hne : k ≠ pid := by rintro rfl; rw [hk] at hfree; cases hfree
      exact ⟨k, e, hset, by rw [Sys.put_proc_ne _ _ _ hne]; exact hk, hrest⟩
  | run pid env p p' db' hp hnow hstep =>
      rw [Sys.put_db] at hrow
      cases hact : p.activates cfg env j with
      | true =>
          obtain ⟨e, rfl, hej, hew⟩ := Proc.step_activates hstep hact
          exact ⟨pid, e, by simp [Action.setterAfter, hp, hact], Sys.put_proc_self _ _ _ _, hej, hew⟩
      | false =>
          -- not activated by this step, so it was active before
          obtain ⟨old, hold, hoa⟩ :=
            (Proc.step_active hI hp hacc hstep hrow hactive).resolve_left (by simp [hact])
          obtain ⟨k, e, hset, hk, hej, hew⟩ := hA old hold hoa
          have hsetter : (Action.run pid env).setterAfter cfg s j (lastSetter cfg tr j) = some k := by
            simpa [Action.setterAfter, hp, hact] using hset
          refine ⟨k, ?_⟩
          by_cases hkp : k = pid
          · -- the client in charge moves: only a refused acquire drops the job
            subst hkp
            rw [hk] at hp
            cases hp
            obtain ⟨⟨d, e'⟩, hs, he⟩ := Option.map_eq_some_iff.mp hstep
            cases he
            obtain ⟨_, hdb, rfl⟩ := Exec.step_accepted hk hacc hs
            refine ⟨_, hsetter, Sys.put_proc_self _ _ _ _, (Exec.step_params hs).1.trans hej, ?_⟩
            subst hdb hej
            rcases e.next_working env s.db hew with hok | ⟨hpc, hrefused⟩ | hinactive
            · exact hok
            · simp [Action.strands, Action.refused, hk, hpc, hrefused, hold, hoa, hset] at hst
            · rw [hinactive row hrow] at hactive
              cases hactive
          · exact ⟨e, hsetter, by rw [Sys.put_proc_ne _ _ _ hkp]; exact hk, hej, hew⟩

/-! ## §4. No stranded job. -/

/-- **An active job is attended, unless its own claim was turned away.**  In
every run of the whole system without a rejected statement of `executeJob`: if
no activation is refused the lock of `j` while `j` is still as that activation's
claim left it, then whenever `j` is claimed or running, the activation of the
claim that put it there has not returned. -/
theorem active_job_attended {cfg : Config} {clock : Timestamp} {db : Db} {j : UUID} {s : Sys}
    {tr : List (Sys × Action)} (hrun : SysRun cfg (Sys.atRest clock db) tr s)
    (hinit : ∀ row, db.jobs.lookup j = some row → row.status.active = false)
    (hacc : ∀ p ∈ tr, p.2.rejected cfg p.1 = false)
    (hcond : ∀ tr₁ t a tr₂, tr = tr₁ ++ (t, a) :: tr₂ → a.strands cfg tr₁ t j = false) :
    ∀ row, s.db.jobs.lookup j = some row → row.status.active = true →
      ∃ k e, lastSetter cfg tr j = some k ∧ s.proc k = some (.exec e) ∧ e.jobId = j ∧
        e.pc ≠ .returned := by
  have hA : InsertsPending s ∧ Attended cfg j tr s := by
    induction hrun with
    | nil =>
        refine ⟨insertsPending_atRest clock db, ?_⟩
        intro row hrow ha
        rw [hinit row hrow] at ha
        cases ha
    | @snoc tr s s' a _ hs ih =>
        obtain ⟨hI, hA⟩ := ih (fun p hp => hacc p (List.mem_append_left _ hp))
          (fun tr₁ t b tr₂ htr => hcond tr₁ t b (tr₂ ++ [(s, a)]) (by simp [htr]))
        exact ⟨insertsPending_step hI hs, attended_step hI hA
          (hacc (s, a) (List.mem_append_right _ List.mem_cons_self)) (hcond tr s a [] rfl) hs⟩
  intro row hrow ha
  obtain ⟨k, e, hset, hk, hej, hew⟩ := hA.2 row hrow ha
  refine ⟨k, e, hset, hk, hej, ?_⟩
  intro hpc
  simp [Exec.working, Exec.stage, hpc, ExecPc.stage] at hew

/-- Worker 5 has claimed job 7 and started its attempt. -/
def startedActions : List Action :=
  .start 0 (.claim 5 none none) :: Action.runs 0 { now := 0, pick := some 7 } 7

theorem active_job_attended_seven :
    ∃ k e, (play (step Config.small) (Sys.atRest 0 (Db.small 1 [(7, Job.small .queued)]))
        startedActions).proc k = some (.exec e) ∧ e.jobId = 7 ∧ e.pc ≠ .returned := by
  have hrun := run_of_play (step Config.small)
    (Sys.atRest 0 (Db.small 1 [(7, Job.small .queued)])) startedActions (by rfl)
  have hnone : ∀ p ∈ trace (step Config.small)
      (Sys.atRest 0 (Db.small 1 [(7, Job.small .queued)])) startedActions,
      p.2.refused p.1 7 = false := by decide
  obtain ⟨k, e, _, hk, hej, hpc⟩ := active_job_attended (j := 7) hrun
    (by intro row h; cases h; rfl) (by decide)
    (fun tr₁ t a tr₂ htr => by simp [Action.strands, hnone (t, a) (by rw [htr]; simp)])
    { Job.small .running with workerId := some 5, attempts := 1 } rfl rfl
  exact ⟨k, e, hk, hej, hpc⟩

/-- Worker 5 fails its attempt of job 7 and requeues the job; before it releases
the lock, worker 6 claims the job and is turned away. -/
def strandingActions : List Action :=
  .start 0 (.claim 5 none none)
    :: Action.runs 0 { now := 0, pick := some 7, fresh := 100, handler := .error "" } 16
    ++ [.wait 1, .start 1 (.claim 6 none none)]
    ++ Action.runs 1 { now := 1, pick := some 7 } 6 ++ Action.runs 0 { now := 1 } 4

/-- No statement fails, both calls have returned, and job 7 is left claimed. -/
theorem claimed_job_stranded :
    ∃ tr s e f, SysRun Config.small (Sys.atRest 0 (Db.small 1 [(7, Job.small .queued)])) tr s ∧
      (∀ p ∈ tr, p.2.rejected Config.small p.1 = false) ∧ s.clients.keys = [0, 1] ∧
      s.proc 0 = some (.exec e) ∧ e.pc = .returned ∧ s.proc 1 = some (.exec f) ∧
      f.pc = .returned ∧ s.db.statusOf 7 = some .claimed := by
  exact ⟨_, _, _, _, run_of_play _ _ strandingActions (by rfl), by decide, rfl, rfl, rfl, rfl,
    rfl, rfl⟩

end JobScheduler
