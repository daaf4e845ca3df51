/-
  JobScheduler.Workflow.Dependencies
  ──────────────────────────────────
  Blocked jobs and the statement that releases them.  A prerequisite owes its
  dependents an `unblockDependentJobs` statement until its run has executed it;
  a blocked job with a recorded prerequisite that still owes one keeps such a
  prerequisite for as long as it stays blocked.
-/
import JobScheduler.System.Activation

namespace JobScheduler

open Relational

/-! ## §1. Completed jobs stay completed. -/

/-- Without rejections the `catch` block is entered from a failed handler only,
and does not touch the job before its final UPDATE. -/
theorem Exec.next_caught {env : Env} {e : Exec} {db : Db}
    (h : (e.next env db).stage = .caught) :
    (e.stage = .running ∨ e.stage = .caught) ∧ (e.effect env db).jobs = db.jobs := by
  have hn := e.next_stage env db
  rw [h] at hn
  have hstage : e.stage = .running ∨ e.stage = .caught := by
    cases hs : e.stage <;> rw [hs] at hn <;> cases hn <;> simp
  refine ⟨hstage, ?_⟩
  unfold Exec.stage at hstage
  cases hpc : e.pc <;> rw [hpc] at hstage <;> simp only [ExecPc.stage, reduceCtorEq, or_self] at hstage
  case setCompleted result => simp [Exec.stage, Exec.next, hpc, Exec.goto, ExecPc.stage] at h
  case requeue delay n st =>
    simp [Exec.stage, Exec.next, hpc, Exec.goto, ExecPc.stage, LogSite.stage] at h
  case deadLetter error => simp [Exec.stage, Exec.next, hpc, Exec.goto, ExecPc.stage] at h
  all_goals simp only [Exec.effect, hpc, Db.insertEvent, Db.insertExecution, Db.insertJobLog,
    Db.updateBatch, Db.updateExecution]

/-- The activations of job `d` in a run that neither resets `d` nor rejects a
statement of `executeJob`. -/
structure Steady (d : UUID) (s : Sys) : Prop extends Activations d s where
  /-- The `catch` block serves failed handlers only. -/
  caught : ∀ k e, s.proc k = some (.exec e) → e.jobId = d → e.stage = .caught →
    s.db.statusOf d = some .running

theorem steady_atRest (d : UUID) (clock : Timestamp) (db : Db) :
    Steady d (Sys.atRest clock db) where
  toActivations := activations_atRest d clock db
  caught := by intro k e h; simp at h

/-- One step keeps a completed job completed. -/
theorem steady_step {cfg : Config} {s s' : Sys} {a : Action} {d : UUID} (hP : Pending s)
    (hS : Steady d s) (hr : a.resetsLive s d = false) (hacc : a.rejected cfg s = false)
    (h : step cfg s a = some s') : Steady d s' where
  toActivations := activations_step hP hS.toActivations hr h
  caught := by
    intro k e' hk hj hg
    have hl : e'.stage ≠ .ended := by rw [hg]; simp
    cases exec_origin h hk with
    | committed _ _ _ _ _ _ _ _ he => subst he; simp [Exec.stage, ExecPc.stage] at hg
    | idle hk₀ hne =>
        have hrun := hS.caught k e' hk₀ hj hg
        rcases step_row h d with heq | ⟨pid, env, p, rfl, hp, _, hch⟩
        · simpa [Db.statusOf, heq] using hrun
        · have hres := not_resets_of_live hr hk₀ hj hl
          have hframe := hS.toActivations.held.frame Stage.relying_live hP hk₀ hj hl hp
            (fun hpk => hne env (hpk ▸ rfl)) (by simpa [Action.resets, hp] using hres) hch
          simpa [Db.statusOf, hframe] using hrun
    | stepped env e ha hk₀ hs =>
        subst ha
        obtain ⟨_, hdb, rfl⟩ := Exec.step_accepted hk₀ hacc hs
        have hej : e.jobId = d := (Exec.step_params hs).1 ▸ hj
        obtain ⟨hstage, hjobs⟩ := Exec.next_caught hg
        have hst : s'.db.statusOf d = s.db.statusOf d := by
          unfold Db.statusOf
          rw [hdb, hjobs]
        rw [hst]
        rcases hstage with hrun | hcaught
        · obtain ⟨old, hold, hallow⟩ := hS.row k e hk₀ hej (by rw [hrun]; simp)
          rw [hrun] at hallow
          simp only [Db.statusOf, hold, Option.map_some, Option.some.injEq]
          exact hallow
        · exact hS.caught k e hk₀ hej hcaught

/-- The statuses in which the run of a job ends: no claim takes the job from there. -/
def JobStatus.terminal : JobStatus → Bool
  | .completed | .deadLetter => true
  | _ => false

/-- The final UPDATE of the `catch` block. -/
def ExecPc.failsJob : ExecPc → Bool
  | .requeue _ _ _ | .deadLetter _ => true
  | _ => false

/-- The `catch` block requeues or dead-letters job `d` although it is completed. -/
def Action.setsBack (cfg : Config) (s : Sys) (d : UUID) (a : Action) : Bool :=
  a.ofExec s (fun env e => e.pc.failsJob && !(env.fails || e.overflows cfg) && decide (e.jobId = d))
    && decide (s.db.statusOf d = some .completed)

/-- A prerequisite is set back by the failure of its own call. -/
theorem setsBack_iff {cfg : Config} {s : Sys} {a : Action} {d : UUID} :
    a.setsBack cfg s d = true ↔
      ∃ k env e, a = .run k env ∧ s.proc k = some (.exec e) ∧ e.pc.failsJob = true ∧
        (env.fails || e.overflows cfg) = false ∧ e.jobId = d ∧ s.db.statusOf d = some .completed := by
  unfold Action.setsBack
  rw [Bool.and_eq_true, ofExec_iff, decide_eq_true_eq]
  simp only [Bool.and_eq_true, Bool.not_eq_true', decide_eq_true_eq]
  constructor
  · rintro ⟨⟨k, env, e, ha, hk, ⟨hpc, hacc⟩, hj⟩, hc⟩
    exact ⟨k, env, e, ha, hk, hpc, hacc, hj, hc⟩
  · rintro ⟨k, env, e, ha, hk, hpc, hacc, hj, hc⟩
    exact ⟨⟨k, env, e, ha, hk, ⟨hpc, hacc⟩, hj⟩, hc⟩

/-- **A finished job keeps its status**, whatever the other clients do, unless
its own activation sets it back. -/
theorem Activations.finished_stays {cfg : Config} {s s' : Sys} {a : Action} {d : UUID}
    {st : JobStatus} (hP : Pending s) (hA : Activations d s) (hr : a.resets s d = false)
    (hback : a.setsBack cfg s d = false) (h : step cfg s a = some s') (hact : st.active = false)
    (hpend : st.pending = false) (hc : s.db.statusOf d = some st) : s'.db.statusOf d = some st := by
  obtain ⟨old, hold, hst⟩ := Option.map_eq_some_iff.mp hc
  cases stepped h with
  | wait | start => exact hc
  | run pid env p p' db' hp hnow hstep =>
      have hch := Proc.step_jobs (j := d) hstep
      have hres : p.resets d = false := by simpa [Action.resets, hp] using hr
      -- an activation at one of the program points that write has its job claimed or running
      have hlive : ∀ (e : Exec) (o : Job), p = .exec e → e.jobId = d → e.stage ≠ .ended →
          s.db.jobs.lookup d = some o → e.stage.allows o.status := by
        rintro e o rfl hj hl ho
        obtain ⟨row, hrow, hallow⟩ := hA.row pid e hp hj hl
        rw [ho] at hrow
        cases hrow
        exact hallow
      rw [Sys.put_db]
      generalize hnew : db'.jobs.lookup d = new at hch
      rw [hold] at hch
      cases hch with
      | same => simp [Db.statusOf, hnew, hst]
      | claimed c row _ hpc =>
          obtain ⟨o, ho, hq, _⟩ := hP.queued pid c d row hp hpc
          rw [hold] at ho
          cases ho
          rw [← hst, hq] at hpend
          cases hpend
      | running e _ hpc hj | completed e _ _ hpc hj =>
          have hallow := hlive e old rfl hj (by simp [Exec.stage, hpc, ExecPc.stage]) hold
          simp only [Exec.stage, hpc, ExecPc.stage, Stage.allows] at hallow
          rw [← hst, hallow] at hact
          cases hact
      -- the `catch` block may follow the `completed` UPDATE
      | requeued e _ _ _ _ hpc hj | deadLettered e _ _ hpc hj =>
          have hallow := hlive e old rfl hj (by simp [Exec.stage, hpc, ExecPc.stage]) hold
          simp only [Exec.stage, hpc, ExecPc.stage, Stage.allows] at hallow
          rcases hallow with hrun | hcomp
          · rw [← hst, hrun] at hact
            cases hact
          · -- the UPDATE that would set the job back is rejected
            have hrej : (env.fails || e.overflows cfg) = true := by
              by_contra hacc
              rw [setsBack_iff.mpr ⟨pid, env, e, rfl, hp, by simp [hpc, ExecPc.failsJob],
                by simpa using hacc, hj, by rw [hc, ← hst, hcomp]⟩] at hback
              cases hback
            obtain ⟨⟨db₁, e'⟩, hs, he⟩ := Option.map_eq_some_iff.mp hstep
            cases he
            obtain ⟨_, ⟨_, rfl, _⟩ | ⟨hacc, _⟩⟩ := Exec.step_cases hs
            · exact hc
            · rw [hacc] at hrej
              cases hrej
      | released e _ hpc hw =>
          simp only [Db.releasable, Bool.and_eq_true, decide_eq_true_eq] at hw
          rw [← hst, hw.1.1] at hpend
          cases hpend
      | retried r _ hpc hrj => simp [Proc.resets, hpc, hrj] at hres
      | replayed r _ hpc => simp [Proc.resets, hpc] at hres
      | cancelled r _ _ hpc hw =>
          have hwait : old.status.pending = true := by
            simpa using (Bool.and_eq_true_iff.mp hw).2
          rw [hst, hpend] at hwait
          cases hwait
      | flipped t _ hpc hw =>
          simp only [Tick.flips, Bool.and_eq_true, decide_eq_true_eq] at hw
          rw [← hst, hw.1] at hpend
          cases hpend

/-- Without rejections no job is set back. -/
theorem Steady.not_setsBack {cfg : Config} {s : Sys} {d : UUID} (hS : Steady d s) (a : Action) :
    a.setsBack cfg s d = false := by
  cases hback : a.setsBack cfg s d with
  | false => rfl
  | true =>
      obtain ⟨k, env, e, rfl, hk, hf, _, hj, hc⟩ := setsBack_iff.mp hback
      have hcaught : e.stage = .caught := by
        unfold ExecPc.failsJob at hf
        unfold Exec.stage
        split at hf
        · rename_i hpc; rw [hpc]; rfl
        · rename_i hpc; rw [hpc]; rfl
        · cases hf
      have hrun := hS.caught k e hk hj hcaught
      rw [hc] at hrun
      cases hrun

/-- **A job whose run has ended keeps its status.** -/
theorem Steady.terminal_stays {cfg : Config} {s s' : Sys} {a : Action} {d : UUID} {st : JobStatus}
    (hP : Pending s) (hS : Steady d s) (hr : a.resets s d = false) (h : step cfg s a = some s')
    (ht : st.terminal = true) (hc : s.db.statusOf d = some st) : s'.db.statusOf d = some st := by
  refine hS.toActivations.finished_stays hP hr (hS.not_setsBack a) h ?_ ?_ hc
  · cases st <;> first | rfl | cases ht
  · cases st <;> first | rfl | cases ht

/-- **A completed job stays completed.** -/
theorem Steady.completed_stays {cfg : Config} {s s' : Sys} {a : Action} {d : UUID} (hP : Pending s)
    (hS : Steady d s) (hr : a.resets s d = false) (h : step cfg s a = some s')
    (hc : s.db.statusOf d = some .completed) : s'.db.statusOf d = some .completed :=
  hS.terminal_stays hP hr h rfl hc

/-! ## §2. Owing an unblock statement. -/

/-- On the success path, before or at `unblockDependentJobs`. -/
def ExecPc.beforeUnblock : ExecPc → Bool
  | .executionCompleted _ | .log .succeeded | .publish .completed | .notify .completed
  | .unblock => true
  | _ => false

theorem ExecPc.beforeUnblock_stage {pc : ExecPc} (h : pc.beforeUnblock = true) :
    pc.stage = .completed := by
  unfold ExecPc.beforeUnblock at h
  split at h <;> first | rfl | cases h

/-- Job `d` is not completed, or its run has not executed its unblock statement. -/
def Sys.Owes (s : Sys) (d : UUID) : Prop :=
  s.db.statusOf d ≠ some .completed ∨
    ∃ k e, s.proc k = some (.exec e) ∧ e.jobId = d ∧ e.pc.beforeUnblock = true

/-- The action is the unblock statement of a run of `d`. -/
def Action.unblocks (s : Sys) (d : UUID) : Action → Bool
  | .run pid _ =>
      match s.proc pid with
      | some (.exec e) =>
          (match e.pc with
            | .unblock => true
            | _ => false) && decide (e.jobId = d)
      | _ => false
  | _ => false

/-- Dependents are released by the call of the prerequisite. -/
theorem unblocks_iff {s : Sys} {a : Action} {d : UUID} :
    a.unblocks s d = true ↔
      ∃ k env e, a = .run k env ∧ s.proc k = some (.exec e) ∧ e.pc = .unblock ∧ e.jobId = d := by
  constructor
  · intro h
    cases a with
    | run pid env =>
        simp only [Action.unblocks] at h
        split at h
        · rename_i e hp
          obtain ⟨hpc, hj⟩ := Bool.and_eq_true_iff.mp h
          split at hpc
          · rename_i hun
            exact ⟨pid, env, e, rfl, hp, hun, of_decide_eq_true hj⟩
          · cases hpc
        · cases h
    | _ => cases h
  · rintro ⟨k, env, e, rfl, hk, hpc, hj⟩
    simp [Action.unblocks, hk, hpc, hj]

/-- The four statements before the unblock statement lead to it. -/
theorem Exec.Flow.to_unblock {env : Env} {e : Exec} {db : Db} {pc pc' : ExecPc}
    (hf : Exec.Flow env e db pc pc') (h : pc.beforeUnblock = true) (hu : pc ≠ .unblock) :
    pc'.beforeUnblock = true := by
  cases hf with
  | stored | unblocks => rfl
  | published site => cases site <;> first | rfl | cases h
  | logged site => cases site <;> first | rfl | cases h
  | looped _ hpc | counts _ hpc | uncounted _ hpc =>
      obtain rfl | ⟨_, _, rfl⟩ := hpc
      · exact absurd rfl hu
      · cases h
  | _ => cases h

/-- The way to the unblock statement starts at the `completed` UPDATE. -/
theorem Exec.Flow.of_beforeUnblock {env : Env} {e : Exec} {db : Db} {pc pc' : ExecPc}
    (hf : Exec.Flow env e db pc pc') (h : pc'.beforeUnblock = true) :
    pc.stage = .running ∨ (pc.beforeUnblock = true ∧ pc ≠ .unblock) := by
  cases hf with
  | completed => exact .inl rfl
  | stored | unblocks => exact .inr ⟨rfl, by simp⟩
  | published site => cases site <;> first | exact .inr ⟨rfl, by simp⟩ | cases h
  | logged site => cases site <;> first | exact .inr ⟨rfl, by simp⟩ | cases h
  | _ => cases h

theorem Exec.step_beforeUnblock {cfg : Config} {ctx : Ctx} {env : Env} {e e' : Exec} {db db' : Db}
    (h : e.step cfg ctx env db = some (db', e')) (hb : e'.pc.beforeUnblock = true) :
    e.stage = .running ∨ (e.pc.beforeUnblock = true ∧ e.pc ≠ .unblock) := by
  obtain ⟨_, ⟨_, _, rfl⟩ | ⟨_, _, rfl⟩⟩ := Exec.step_cases h
  · have hb' : (onThrow env.error e.pc).beforeUnblock = true := hb
    rcases onThrow_cases env.error e.pc with ho | ho | ho | ⟨site, hpc, ho⟩ <;> rw [ho] at hb'
    · cases hb'
    · cases hb'
    · cases hb'
    · -- a job log that fails changes nothing
      rw [hpc]
      cases site <;> first | exact .inr ⟨rfl, by simp⟩ | cases hb'
  · exact (e.flow env db).of_beforeUnblock hb

section
variable {cfg : Config} {s s' : Sys} {a : Action} {d j : UUID}

/-- **A debt paid is never incurred again.** -/
theorem Steady.owes_antitone (hP : Pending s) (hS : Steady d s) (hr : a.resets s d = false)
    (h : step cfg s a = some s') (ho : s'.Owes d) : s.Owes d := by
  by_contra hno
  obtain ⟨hc, hnone⟩ := not_or.mp hno
  rw [not_not] at hc
  rcases ho with hne | ⟨k, e', hk, hj, hb⟩
  · exact hne (hS.completed_stays hP hr h hc)
  -- a new debt would come from a run that completes the job again
  · cases exec_origin h hk with
    | idle hk₀ _ => exact hnone ⟨k, e', hk₀, hj, hb⟩
    | committed _ _ _ _ _ _ _ _ he => subst he; cases hb
    | stepped env e _ hk₀ hs =>
        have hej : e.jobId = d := (Exec.step_params hs).1 ▸ hj
        rcases Exec.step_beforeUnblock hs hb with hrun | ⟨hb₀, _⟩
        · obtain ⟨old, hold, hallow⟩ := hS.row k e hk₀ hej (by rw [hrun]; simp)
          rw [hrun] at hallow
          have hst : old.status = .completed := by simpa [Db.statusOf, hold] using hc
          exact absurd (hst.symm.trans hallow) (by simp)
        · exact hnone ⟨k, e, hk₀, hej, hb₀⟩

/-- **The unblock statement pays the debt.** -/
theorem Steady.unblocks_pays (hP : Pending s) (hS : Steady d s) (hr : a.resets s d = false)
    (hacc : a.rejected cfg s = false) (hu : a.unblocks s d = true)
    (h : step cfg s a = some s') : ¬ s'.Owes d := by
  obtain ⟨k, env, e, rfl, hk, hpc, hj⟩ := unblocks_iff.mp hu
  have hlive : e.stage ≠ .ended := by simp [Exec.stage, hpc, ExecPc.stage]
  obtain ⟨old, hold, hallow⟩ := hS.row k e hk hj hlive
  have hc : s.db.statusOf d = some .completed := by
    have hst : old.status = .completed := by
      simpa [Exec.stage, hpc, ExecPc.stage, Stage.allows] using hallow
    simp [Db.statusOf, hold, hst]
  rintro (hne | ⟨l, f', hl, hfj, hb⟩)
  · exact hne (hS.completed_stays hP hr h hc)
  · have hfl : f'.stage ≠ .ended := by
      rw [show f'.stage = .completed from ExecPc.beforeUnblock_stage hb]; simp
    cases exec_origin h hl with
    | committed _ _ _ _ _ _ _ _ he => subst he; cases hb
    -- the job has one live run, and that one has just paid
    | idle hl₀ hne => exact hne env (by rw [hS.unique k l e f' hk hl₀ hj hfj hlive hfl])
    | stepped env' f ha hl₀ hs =>
        cases ha
        rw [hk] at hl₀
        cases hl₀
        rcases Exec.step_beforeUnblock hs hb with hrun | ⟨_, hne⟩
        · simp [Exec.stage, hpc, ExecPc.stage] at hrun
        · exact hne hpc

/-- A debt stays until the unblock statement. -/
theorem Steady.owes_stays (hI : InsertsPending s) (hacc : a.rejected cfg s = false)
    (hu : a.unblocks s d = false) (h : step cfg s a = some s') (ho : s.Owes d) : s'.Owes d := by
  rcases ho with hne | ⟨k, e, hk, hj, hb⟩
  · by_cases hc : s'.db.statusOf d = some .completed
    · -- the job has just been completed: its run is before its unblock statement
      right
      obtain ⟨new, hnew, hst⟩ := Option.map_eq_some_iff.mp hc
      rcases step_row h d with heq | ⟨pid, env, p, rfl, hp, _, hch⟩
      · exact absurd (by simpa [Db.statusOf, heq] using hc) hne
      rw [hnew] at hch
      generalize hold : s.db.jobs.lookup d = old at hch
      cases hch with
      | same => exact absurd (by simp [Db.statusOf, hold, hst]) hne
      | completed e o result hpc hej =>
          exact ⟨pid, _, (exec_accepted h hp hacc).2, by simp [Exec.next, hpc, Exec.goto, hej],
            by simp [Exec.next, hpc, Exec.goto, ExecPc.beforeUnblock]⟩
      | submitted r item rest =>
          have hpend := hI pid r hp
          rw [show r.initialStatus = .completed from hst] at hpend
          cases hpend
      | released e o hpc hw =>
          simp only [Job.released] at hst
          split at hst <;> cases hst
      | claimed | running | requeued | deadLettered | retried | replayed | recreated | cancelled
      | flipped | dispatched => cases hst
    · exact .inl hc
  · right
    rcases exec_next h hk with ⟨hk', _⟩ | ⟨env, e', rfl, hk', hs⟩
    · exact ⟨k, e, hk', hj, hb⟩
    · obtain ⟨_, _, rfl⟩ := Exec.step_accepted hk hacc hs
      have hnot : e.pc ≠ .unblock := by
        intro hpc
        rw [unblocks_iff.mpr ⟨k, env, e, rfl, hk, hpc, hj⟩] at hu
        cases hu
      exact ⟨k, _, hk', (Exec.next_params env e s.db).1.trans hj, (e.flow env s.db).to_unblock hb hnot⟩

end

/-! ## §3. Edges. -/

/-- Only the attach loop of a request touches `job_dependencies`. -/
theorem Proc.step_dependencies {cfg : Config} {ctx : Ctx} {env : Env} {db db' : Db} {p p' : Proc}
    (h : p.step cfg ctx env db = some (db', p')) :
    db'.jobDependencies = db.jobDependencies ∨
      ∃ r j d todo rest, p = .submit r ∧ r.pc = .attach j d todo rest ∧ d ∈ db.jobs ∧
        db' = db.insertDependency j d := by
  cases Proc.stepped h with
  | claim c c' hq => cases Claim.stepped hq <;> exact .inl rfl
  | exec e e' hq =>
      obtain ⟨_, ⟨_, rfl, _⟩ | ⟨_, rfl, _⟩⟩ := Exec.step_cases hq
      · exact .inl rfl
      · unfold Exec.effect
        split <;> exact .inl rfl
  | submit r r' hq =>
      cases Submit.stepped hq with
      | attached j d todo rest hpc hd => exact .inr ⟨r, j, d, todo, rest, rfl, hpc, hd, rfl⟩
      | _ => exact .inl rfl
  | retry r r' hq => cases Retry.stepped hq <;> exact .inl rfl
  | replay r r' hq => cases Replay.stepped hq <;> exact .inl rfl
  | cancel r r' hq => cases Cancel.stepped hq <;> exact .inl rfl
  | patch r r' hq => cases Patch.stepped hq <;> exact .inl rfl
  | tick t t' hq =>
      obtain ⟨_, ⟨_, rfl, _⟩ | ⟨_, rfl, _⟩⟩ := Tick.step_cases hq
      · exact .inl rfl
      · unfold Tick.effect
        split <;> first | exact .inl rfl | (split <;> exact .inl rfl)

@[simp] theorem mem_insertDependency {db : Db} {j d : UUID} {edge : UUID × UUID} :
    edge ∈ (db.insertDependency j d).jobDependencies ↔ edge ∈ db.jobDependencies ∨ edge = (j, d) := by
  unfold Db.insertDependency
  dsimp only
  split
  · rename_i hmem
    exact ⟨.inl, fun h => h.elim id (fun he => he ▸ hmem)⟩
  · simp

/-- The action inserts the edge from `j` to its prerequisite `d`. -/
def Action.Attaches (s : Sys) (a : Action) (j d : UUID) : Prop :=
  ∃ k env r todo rest, a = .run k env ∧ s.proc k = some (.submit r) ∧
    r.pc = .attach j d todo rest

/-- An edge after a step was there before, or has just been attached. -/
theorem edge_origin {cfg : Config} {s s' : Sys} {a : Action} {j d : UUID}
    (h : step cfg s a = some s') (he : (j, d) ∈ s'.db.jobDependencies) :
    (j, d) ∈ s.db.jobDependencies ∨ (a.Attaches s j d ∧ d ∈ s.db.jobs ∧ s'.db.jobs = s.db.jobs) := by
  cases stepped h with
  | wait | start => exact .inl he
  | run pid env p p' db' hp _ hstep =>
      rw [Sys.put_db] at he ⊢
      rcases Proc.step_dependencies hstep with heq | ⟨r, i, x, todo, rest, rfl, hpc, hx, rfl⟩
      · exact .inl (heq ▸ he)
      · rcases mem_insertDependency.mp he with hold | hnew
        · exact .inl hold
        · obtain ⟨rfl, rfl⟩ := Prod.mk.inj hnew
          exact .inr ⟨⟨pid, env, r, todo, rest, rfl, hp, hpc⟩, hx, rfl⟩

/-- A recorded dependency stays. -/
theorem edge_stays {cfg : Config} {s s' : Sys} {a : Action} {j d : UUID}
    (h : step cfg s a = some s') (he : (j, d) ∈ s.db.jobDependencies) :
    (j, d) ∈ s'.db.jobDependencies := by
  cases stepped h with
  | wait | start => exact he
  | run pid env p p' db' hp _ hstep =>
      rw [Sys.put_db]
      rcases Proc.step_dependencies hstep with heq | ⟨_, _, _, _, _, _, _, _, rfl⟩
      · exact heq ▸ he
      · exact mem_insertDependency.mpr (.inl he)

theorem mem_prerequisites {db : Db} {j d : UUID} :
    d ∈ db.prerequisites j ↔ (j, d) ∈ db.jobDependencies := by
  simp only [Db.prerequisites, List.mem_map, List.mem_filter, beq_iff_eq]
  constructor
  · rintro ⟨⟨a, b⟩, ⟨hm, rfl⟩, rfl⟩
    exact hm
  · intro hm
    exact ⟨(j, d), ⟨hm, rfl⟩, rfl⟩

/-! ## §4. Blocked jobs. -/

/-- The action is the UPDATE with which a batch cancellation fails its jobs. -/
def Action.cancelsJobs (s : Sys) : Action → Bool
  | .run pid _ =>
      match s.proc pid with
      | some (.cancel r) => (match r.pc with
          | .updateJobs _ => true
          | _ => false)
      | _ => false
  | _ => false

section
variable {cfg : Config} {s s' : Sys} {a : Action} {d j : UUID}

/-- No statement puts an existing job back to blocked. -/
theorem blocked_before (h : step cfg s a = some s') (hold : ∃ old, s.db.jobs.lookup j = some old)
    (hb : s'.db.statusOf j = some .blocked) : s'.db.jobs.lookup j = s.db.jobs.lookup j := by
  obtain ⟨old, hold⟩ := hold
  obtain ⟨new, hnew, hst⟩ := Option.map_eq_some_iff.mp hb
  rcases step_row h j with heq | ⟨pid, env, p, rfl, hp, _, hch⟩
  · exact heq
  rw [hold, hnew] at hch
  rw [hold, hnew]
  cases hch with
  | same => rfl
  | released e _ _ _ =>
      simp only [Job.released] at hst
      split at hst <;> cases hst
  | claimed | running | completed | requeued | deadLettered | retried | replayed | cancelled
  | flipped => cases hst

/-- A blocked job is released by an unblock statement of a recorded prerequisite
that finds every recorded prerequisite completed, or failed by a cancellation. -/
theorem released_or_cancelled (hP : Pending s) (hA : Activations j s) (hr : a.resets s j = false)
    (h : step cfg s a = some s') (hb : s.db.statusOf j = some .blocked) :
    s'.db.jobs.lookup j = s.db.jobs.lookup j ∨
    (∃ k env e old, a = .run k env ∧ s.proc k = some (.exec e) ∧ e.pc = .unblock ∧
      s.db.jobs.lookup j = some old ∧ s.db.releasable e.jobId j old = true ∧
      s'.db.jobs.lookup j = some (old.released env.now)) ∨
    (a.cancelsJobs s = true ∧ s'.db.statusOf j = some .failed) := by
  obtain ⟨old, hold, hst⟩ := Option.map_eq_some_iff.mp hb
  rcases step_row h j with heq | ⟨pid, env, p, rfl, hp, _, hch⟩
  · exact .inl heq
  have hres : p.resets j = false := by simpa [Action.resets, hp] using hr
  have hlive : ∀ e : Exec, p = .exec e → e.jobId = j → e.stage ≠ .ended → False := by
    rintro e rfl hj hl
    obtain ⟨o, ho, hallow⟩ := hA.row pid e hp hj hl
    rw [hold] at ho
    cases ho
    exact (Stage.allows_not_pending hallow hl).2.2 hst
  generalize hnew : s'.db.jobs.lookup j = new at hch
  rw [hold] at hch
  cases hch with
  | same => exact .inl hold.symm
  | released e _ hpc hw => exact .inr (.inl ⟨pid, env, e, old, rfl, hp, hpc, hold, hw, rfl⟩)
  | cancelled r _ _ hpc =>
      exact .inr (.inr ⟨by simp [Action.cancelsJobs, hp, hpc],
        by simp [Db.statusOf, hnew, Cancel.cancelledJob]⟩)
  | claimed c row _ hpc =>
      obtain ⟨o, ho, hq, _⟩ := hP.queued pid c j row hp hpc
      rw [hold] at ho
      cases ho
      rw [hst] at hq
      cases hq
  | running e _ hpc hj | completed e _ _ hpc hj | requeued e _ _ _ _ hpc hj
  | deadLettered e _ _ hpc hj =>
      exact (hlive e rfl hj (by simp [Exec.stage, hpc, ExecPc.stage])).elim
  | retried r _ hpc hrj => simp [Proc.resets, hpc, hrj] at hres
  | replayed r _ hpc => simp [Proc.resets, hpc] at hres
  | flipped t _ hpc hw => simp [Tick.flips, hst] at hw

/-- **A blocked job is released by an unblock statement only**, one of a recorded
prerequisite that finds every recorded prerequisite completed. -/
theorem leaves_blocked (hP : Pending s) (hA : Activations j s) (hr : a.resets s j = false)
    (hc : a.cancelsJobs s = false) (h : step cfg s a = some s')
    (hb : s.db.statusOf j = some .blocked) :
    s'.db.jobs.lookup j = s.db.jobs.lookup j ∨
    ∃ k env e old, a = .run k env ∧ s.proc k = some (.exec e) ∧ e.pc = .unblock ∧
      s.db.jobs.lookup j = some old ∧ s.db.releasable e.jobId j old = true ∧
      s'.db.jobs.lookup j = some (old.released env.now) := by
  rcases released_or_cancelled hP hA hr h hb with heq | hrel | ⟨hcancel, _⟩
  · exact .inl heq
  · exact .inr hrel
  · rw [hc] at hcancel
    cases hcancel

/-- Some recorded prerequisite of `j` still owes its unblock statement. -/
def Sys.Awaits (s : Sys) (j : UUID) : Prop := ∃ d, (j, d) ∈ s.db.jobDependencies ∧ s.Owes d

/-- **A blocked job that awaits a release goes on to await one**: an unblock
statement that does not release it has found another prerequisite that is not
completed. -/
theorem awaits_step (hI : InsertsPending s) (hacc : a.rejected cfg s = false)
    (h : step cfg s a = some s') (hold : ∃ old, s.db.jobs.lookup j = some old)
    (hb : s'.db.statusOf j = some .blocked) (hw : s.Awaits j) : s'.Awaits j := by
  obtain ⟨d, hedge, ho⟩ := hw
  cases hu : a.unblocks s d with
  | false => exact ⟨d, edge_stays h hedge, Steady.owes_stays hI hacc hu h ho⟩
  | true =>
      obtain ⟨k, env, e, rfl, hk, hpc, rfl⟩ := unblocks_iff.mp hu
      obtain ⟨old, hold⟩ := hold
      have hdb : s'.db = s.db.updateJobsWhere (s.db.releasable e.jobId) (Job.released env.now) := by
        rw [(exec_accepted h hk hacc).1]
        simp [Exec.effect, hpc]
      -- the statement has left `j` alone, so a recorded prerequisite is pending
      have hpend : s.db.noPendingPrerequisite j = false := by
        have heq := blocked_before h ⟨old, hold⟩ hb
        have hst : old.status = .blocked := by
          simp only [Db.statusOf, heq, hold, Option.map_some, Option.some.injEq] at hb
          exact hb
        by_contra hno
        -- otherwise the UPDATE would have taken the row
        have hrel : s.db.releasable e.jobId j old = true := by
          simp [Db.releasable, hst, hedge, Bool.not_eq_false _ ▸ hno]
        simp only [hdb, updateJobsWhere_lookup, hold, hrel, Option.map_some, if_true,
          Option.some.injEq] at heq
        have := congrArg Job.status heq
        rw [hst] at this
        simp only [Job.released] at this
        split at this <;> cases this
      obtain ⟨x, hx, hxp⟩ : ∃ x, (j, x) ∈ s.db.jobDependencies ∧
          ∃ dep, s.db.jobs.lookup x = some dep ∧ dep.status ≠ .completed := by
        unfold Db.noPendingPrerequisite at hpend
        rw [List.all_eq_false] at hpend
        obtain ⟨x, hx, hxp⟩ := hpend
        refine ⟨x, mem_prerequisites.mp hx, ?_⟩
        split at hxp
        · rename_i dep hdep
          exact ⟨dep, hdep, by simpa using hxp⟩
        · simp at hxp
      obtain ⟨dep, hdep, hne⟩ := hxp
      refine ⟨x, edge_stays h hx, .inl ?_⟩
      rw [hdb]
      simp only [Db.statusOf, updateJobsWhere_lookup, hdep, Option.map_some, Option.some.injEq, ne_eq]
      split
      · unfold Job.released
        dsimp only
        split <;> simp
      · exact hne

/-- A blocked job that awaits nothing stays blocked. -/
theorem stays_blocked (hP : Pending s) (hA : Activations j s) (hr : a.resets s j = false)
    (hc : a.cancelsJobs s = false) (h : step cfg s a = some s')
    (hb : s.db.statusOf j = some .blocked) (hw : ¬ s.Awaits j) :
    s'.db.statusOf j = some .blocked := by
  rcases leaves_blocked hP hA hr hc h hb with heq | ⟨k, env, e, old, _, hk, hpc, _, hrel, _⟩
  · simpa [Db.statusOf, heq] using hb
  · have hedge : (j, e.jobId) ∈ s.db.jobDependencies := by
      simp only [Db.releasable, Bool.and_eq_true, decide_eq_true_eq] at hrel
      exact hrel.1.2
    exact absurd ⟨e.jobId, hedge, .inr ⟨k, e, hk, rfl, by rw [hpc]; rfl⟩⟩ hw

end

end JobScheduler
