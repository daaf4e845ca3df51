/-
  JobScheduler.System.Pending
  ───────────────────────────
  The row lock between the UPDATE of a claim and its COMMIT.  In every run of
  the whole system (failures, manual retries and replays included) a claim that
  is about to commit job `j` still finds `j` queued, and no two claims are
  about to commit the same job.
-/
import JobScheduler.System.Effects

namespace JobScheduler

open Relational

/-! ## §1. The columns no statement changes. -/

/-- The two rows agree on every column that is written at INSERT only. -/
structure Job.SameDefinition (old new : Job) : Prop where
  queueId : new.queueId = old.queueId
  batchId : new.batchId = old.batchId
  maxAttempts : new.maxAttempts = old.maxAttempts

theorem Job.SameDefinition.refl (j : Job) : j.SameDefinition j := ⟨rfl, rfl, rfl⟩

theorem Job.SameDefinition.trans {i j k : Job} (h : i.SameDefinition j) (h' : j.SameDefinition k) :
    i.SameDefinition k :=
  ⟨h'.queueId.trans h.queueId, h'.batchId.trans h.batchId, h'.maxAttempts.trans h.maxAttempts⟩

/-- No statement deletes a job row or redefines it. -/
theorem JobChange.sameDefinition {ctx : Ctx} {env : Env} {db : Db} {j : UUID} {p : Proc}
    {old : Job} {new : Option Job} (h : JobChange ctx env db j p (some old) new) :
    ∃ row, new = some row ∧ old.SameDefinition row := by
  cases h <;> exact ⟨_, rfl, ⟨rfl, rfl, rfl⟩⟩

/-! ## §2. Taking a job. -/

/-- A claim does not leave its loops with a job. -/
theorem Claim.Entered.no_job {queues : List LockedQueue} {pc : ClaimPc}
    (h : Claim.Entered queues pc) (job : UUID × Job) :
    pc ≠ .committing (some job) ∧ pc ≠ .returned (some job) := by
  cases h <;> simp

/-- The UPDATE of a claim takes a queued row that no other transaction has
locked, and leaves the committed database alone. -/
theorem Claim.step_committing {ctx : Ctx} {env : Env} {db db' : Db} {c c' : Claim} {j : UUID}
    {row : Job} (h : c.step ctx env db = some (db', c'))
    (hpc : c'.pc = .committing (some (j, row))) :
    db' = db ∧ c.pc = .updating ∧ c' = { c with pc := .committing (some (j, row)) } ∧
      ∃ old, db.jobs.lookup j = some old ∧ c.candidate ctx j old = true ∧ row = c.claimed old := by
  cases Claim.stepped h with
  | rolledBack => simp [Claim.rollback] at hpc
  | selected _ =>
      obtain ⟨pc, he, hpc'⟩ := c.enterLocking_entered (c.lockOrder db)
      rw [he] at hpc
      exact absurd hpc (hpc'.no_job _).1
  | locked id rest _ _ =>
      obtain ⟨pc, he, hpc'⟩ := (c.lockRow db id).enterLocking_entered rest
      rw [he] at hpc
      exact absurd hpc (hpc'.no_job _).1
  | counted q rest _ =>
      obtain ⟨pc, he, hpc'⟩ := (c.countRow db q).enterCounting_entered rest
      rw [he] at hpc
      exact absurd hpc (hpc'.no_job _).1
  | nothing _ => simp at hpc
  | committed _ _ _ _ => simp at hpc
  -- the UPDATE is the only way into COMMIT with a job
  | took hupd hpicks =>
      simp only [ClaimPc.committing.injEq] at hpc
      obtain ⟨id, hid, hj⟩ := Option.bind_eq_some_iff.mp hpc
      obtain ⟨old, hold, he⟩ := Option.map_eq_some_iff.mp hj
      obtain ⟨rfl, rfl⟩ := Prod.mk.injEq .. ▸ he
      refine ⟨rfl, hupd, by simp [Claim.taken, hid, hold], old, hold, ?_, rfl⟩
      simp only [Claim.picks, hid, hold, Bool.and_eq_true] at hpicks
      exact hpicks.1

/-- A claim returns a job by its COMMIT, which writes exactly the row taken. -/
theorem Claim.step_returned {ctx : Ctx} {env : Env} {db db' : Db} {c c' : Claim} {j : UUID}
    {row : Job} (h : c.step ctx env db = some (db', c'))
    (hpc : c'.pc = .returned (some (j, row))) :
    c.pc = .committing (some (j, row)) ∧ db' = db.updateJob j c.claimed ∧
      c'.workerId = c.workerId := by
  cases Claim.stepped h with
  | rolledBack => simp [Claim.rollback] at hpc
  | selected _ =>
      obtain ⟨pc, he, hpc'⟩ := c.enterLocking_entered (c.lockOrder db)
      rw [he] at hpc
      exact absurd hpc (hpc'.no_job _).2
  | locked id rest _ _ =>
      obtain ⟨pc, he, hpc'⟩ := (c.lockRow db id).enterLocking_entered rest
      rw [he] at hpc
      exact absurd hpc (hpc'.no_job _).2
  | counted q rest _ =>
      obtain ⟨pc, he, hpc'⟩ := (c.countRow db q).enterCounting_entered rest
      rw [he] at hpc
      exact absurd hpc (hpc'.no_job _).2
  | took _ _ => simp at hpc
  | nothing _ => simp at hpc
  | committed id row' hcommit _ =>
      simp only [ClaimPc.returned.injEq, Option.some.injEq, Prod.mk.injEq] at hpc
      obtain ⟨rfl, rfl⟩ := hpc
      exact ⟨hcommit, rfl, rfl⟩

/-- What a candidate row satisfies. -/
theorem Claim.candidate_iff {c : Claim} {ctx : Ctx} {id : UUID} {j : Job} :
    c.candidate ctx id j = true ↔
      j.queueId ∈ c.eligibleQueueIds ∧ j.status = .queued ∧ j.runAt ≤ c.now ∧
        ctx.jobFree id = true := by
  simp [Claim.candidate, and_assoc]

/-- A claim holds the job that it is about to commit. -/
theorem Claim.holdsJob_iff {c : Claim} {id : UUID} :
    c.holdsJob id = true ↔ ∃ row, c.pc = .committing (some (id, row)) := by
  unfold Claim.holdsJob
  split
  · rename_i j row hpc
    constructor
    · intro h
      exact ⟨row, of_decide_eq_true h ▸ hpc⟩
    · rintro ⟨row', hpc'⟩
      rw [hpc] at hpc'
      simp only [ClaimPc.committing.injEq, Option.some.injEq, Prod.mk.injEq] at hpc'
      exact decide_eq_true hpc'.1
  · rename_i hne
    constructor
    · intro h; cases h
    · rintro ⟨row, hpc⟩
      exact absurd hpc (hne id row)

/-! ## §3. The invariant. -/

/-- Claims between UPDATE and COMMIT. -/
structure Pending (s : Sys) : Prop where
  /-- The committed row is still the queued one that was taken. -/
  queued : ∀ k c j row, s.proc k = some (.claim c) → c.pc = .committing (some (j, row)) →
    ∃ old, s.db.jobs.lookup j = some old ∧ old.status = .queued ∧ row = c.claimed old
  /-- A job is taken by at most one claim. -/
  unique : ∀ k l c d j row row', s.proc k = some (.claim c) → s.proc l = some (.claim d) →
    c.pc = .committing (some (j, row)) → d.pc = .committing (some (j, row')) → k = l

theorem pending_atRest (clock : Timestamp) (db : Db) : Pending (Sys.atRest clock db) where
  queued := by intro k c j row h; simp at h
  unique := by intro k l c d j row row' h; simp at h

/-- No client starts with a job taken. -/
theorem Request.start_not_committing {now : Timestamp} {r : Request} {c : Claim}
    {job : Option (UUID × Job)} (h : r.start now = .claim c) : c.pc ≠ .committing job := by
  cases r <;> cases h
  simp

/-- The other clients cannot touch a job that a claim holds. -/
theorem Pending.frame {s : Sys} {env : Env} {k pid : Nat} {c : Claim} {p : Proc} {j : UUID}
    {row : Job} {old new : Option Job} (hP : Pending s) (hk : s.proc k = some (.claim c))
    (hpc : c.pc = .committing (some (j, row))) (hp : s.proc pid = some p) (hne : k ≠ pid)
    (hold : old = s.db.jobs.lookup j)
    (h : JobChange s.ctx env s.db j p old new) : new = old := by
  obtain ⟨o, ho, _, _⟩ := hP.queued k c j row hk hpc
  have hheld : s.ctx.jobFree j ≠ true := by
    intro hfree
    have hnot := (s.jobFree_iff j).mp hfree k _ hk
    have hholds : c.holdsJob j = true := Claim.holdsJob_iff.mpr ⟨row, hpc⟩
    simp [Proc.holdsJob, hholds] at hnot
  -- every other write needs the row lock, every INSERT a new key
  rw [ho] at hold
  cases h with
  | same => rfl
  | claimed d row' _ hpc' => exact absurd (hP.unique k pid c d j row row' hk hp hpc hpc') hne
  | submitted | recreated | dispatched => cases hold
  | running _ _ _ _ hfree | completed _ _ _ _ _ hfree | released _ _ _ _ hfree
  | requeued _ _ _ _ _ _ _ hfree | deadLettered _ _ _ _ _ hfree | retried _ _ _ _ hfree
  | replayed _ _ _ hfree | cancelled _ _ _ _ _ hfree | flipped _ _ _ _ hfree =>
      exact absurd hfree hheld

/-- A claim that is about to commit after a step was so before, or has just
taken an unlocked queued job. -/
theorem claim_committing_of_step {cfg : Config} {s : Sys} {env : Env} {p : Proc} {db' : Db}
    {c' : Claim} {j : UUID} {row : Job}
    (h : p.step cfg s.ctx env s.db = some (db', .claim c'))
    (hpc : c'.pc = .committing (some (j, row))) :
    ∃ c, p = .claim c ∧ db' = s.db ∧ c' = { c with pc := .committing (some (j, row)) } ∧
      ∃ old, s.db.jobs.lookup j = some old ∧ c.candidate s.ctx j old = true ∧
        row = c.claimed old := by
  obtain ⟨c, rfl, hq⟩ := claim_of_step h
  obtain ⟨hdb, _, hq', hold⟩ := Claim.step_committing hq hpc
  exact ⟨c, rfl, hdb, hq', hold⟩

/-- The job that a claim holds stays queued until its COMMIT. -/
theorem pending_step {cfg : Config} {s s' : Sys} {a : Action} (hP : Pending s)
    (h : step cfg s a = some s') : Pending s' := by
  cases stepped h with
  | wait ms => exact ⟨hP.queued, hP.unique⟩
  | start pid request hfree =>
      have hold : ∀ k c j row, (s.put pid s.db (request.start s.clock)).proc k = some (.claim c) →
          c.pc = .committing (some (j, row)) → s.proc k = some (.claim c) := by
        intro k c j row hk hpc
        by_cases hkp : k = pid
        · subst hkp
          rw [Sys.put_proc_self] at hk
          exact absurd hpc (Request.start_not_committing (Option.some.inj hk))
        · rwa [Sys.put_proc_ne _ _ _ hkp] at hk
      exact ⟨fun k c j row hk hpc => hP.queued k c j row (hold k c j row hk hpc) hpc,
        fun k l c d j row row' hk hl hc hd =>
          hP.unique k l c d j row row' (hold k c j row hk hc) (hold l d j row' hl hd) hc hd⟩
  | run pid env p p' db' hp _ hstep =>
      have hjobs : ∀ j, JobChange s.ctx env s.db j p (s.db.jobs.lookup j) (db'.jobs.lookup j) :=
        fun j => Proc.step_jobs hstep
      -- a claim other than `pid` keeps its row; `pid` itself has just taken one
      have hnew : ∀ k c j row, (s.put pid db' p').proc k = some (.claim c) →
          c.pc = .committing (some (j, row)) →
          (k ≠ pid ∧ s.proc k = some (.claim c)) ∨
          (k = pid ∧ s.ctx.jobFree j = true ∧
            ∃ old, db'.jobs.lookup j = some old ∧ old.status = .queued ∧ row = c.claimed old) := by
        intro k c j row hk hpc
        by_cases hkp : k = pid
        · subst hkp
          rw [Sys.put_proc_self] at hk
          cases hk
          obtain ⟨d, rfl, rfl, hcd, old, hold, hcand, hrow⟩ := claim_committing_of_step hstep hpc
          obtain ⟨_, hq, _, hfree⟩ := Claim.candidate_iff.mp hcand
          exact .inr ⟨rfl, hfree, old, hold, hq, by rw [hrow, hcd]; rfl⟩
        · exact .inl ⟨hkp, by rwa [Sys.put_proc_ne _ _ _ hkp] at hk⟩
      refine ⟨?_, ?_⟩
      · intro k c j row hk hpc
        rcases hnew k c j row hk hpc with ⟨hne, hk₀⟩ | ⟨_, _, hold⟩
        · have hframe := hP.frame hk₀ hpc hp hne rfl (hjobs j)
          rw [Sys.put_db, hframe]
          exact hP.queued k c j row hk₀ hpc
        · exact hold
      · intro k l c d j row row' hk hl hc hd
        have hclash : ∀ {m : Nat} {e : Claim} {r : Job}, s.proc m = some (.claim e) →
            e.pc = .committing (some (j, r)) → s.ctx.jobFree j = true → False := by
          intro m e r hm he hfree
          have := (s.jobFree_iff j).mp hfree m _ hm
          simp [Proc.holdsJob, Claim.holdsJob_iff.mpr ⟨r, he⟩] at this
        -- SKIP LOCKED: the mover cannot take what another claim holds
        rcases hnew k c j row hk hc with ⟨_, hk₀⟩ | ⟨rfl, hfree, _⟩ <;>
          rcases hnew l d j row' hl hd with ⟨_, hl₀⟩ | ⟨rfl, hfree', _⟩
        · exact hP.unique k l c d j row row' hk₀ hl₀ hc hd
        · exact (hclash hk₀ hc hfree').elim
        · exact (hclash hl₀ hd hfree).elim
        · rfl

/-- The invariant holds along every run from rest. -/
theorem pending_run {cfg : Config} {s₀ s : Sys} {tr : List (Sys × Action)} (h₀ : Pending s₀)
    (h : SysRun cfg s₀ tr s) : Pending s :=
  h.invariant (G := fun _ _ => True) (fun _ _ _ hP _ hs => pending_step hP hs)
    (fun _ _ => trivial) h₀

/-! ## §4. Active jobs. -/

/-- Who can make a job active: a COMMIT, an activation that starts its attempt,
or a request that inserts it so. -/
theorem JobChange.active {ctx : Ctx} {env : Env} {db : Db} {p : Proc} {j : UUID}
    {old : Option Job} {row : Job} (h : JobChange ctx env db j p old (some row))
    (ha : row.status.active = true) :
    (∃ o, old = some o ∧ o.queueId = row.queueId ∧ o.status.active = true) ∨
    (∃ c r o, p = .claim c ∧ c.pc = .committing (some (j, r)) ∧ old = some o ∧ row = c.claimed o) ∨
    (∃ e o, p = .exec e ∧ e.pc = .setRunning ∧ e.jobId = j ∧ old = some o ∧
      row.queueId = o.queueId) ∨
    (∃ r, p = .submit r ∧ r.initialStatus.active = true) := by
  cases h with
  | same => exact .inl ⟨row, rfl, rfl, ha⟩
  | claimed c r o hpc => exact .inr (.inl ⟨c, r, o, rfl, hpc, rfl, rfl⟩)
  | running e o hpc hj => exact .inr (.inr (.inl ⟨e, o, rfl, hpc, hj, rfl, rfl⟩))
  | submitted r item rest => exact .inr (.inr (.inr ⟨r, rfl, ha⟩))
  | released e o => simp only [Job.released] at ha; split at ha <;> cases ha
  | completed | requeued | deadLettered | retried | replayed | recreated | cancelled | flipped
  | dispatched => cases ha

theorem JobStatus.active_of_pending {st : JobStatus} (h : st.pending = true) : st.active = false := by
  cases st <;> first | rfl | cases h

/-- Every request inserts its jobs blocked, queued or scheduled. -/
def InsertsPending (s : Sys) : Prop :=
  ∀ k r, s.proc k = some (.submit r) → r.initialStatus.pending = true

theorem insertsPending_atRest (clock : Timestamp) (db : Db) :
    InsertsPending (Sys.atRest clock db) := by
  intro k r h
  simp at h

/-- The initial status is decided by the dependency check, and then kept. -/
theorem Submit.step_initialStatus {cfg : Config} {env : Env} {db db' : Db} {r r' : Submit}
    (h : r.step cfg env db = some (db', r')) :
    r'.initialStatus = r.initialStatus ∨
      ∃ satisfied, r'.initialStatus = initialJobStatus r.body.type satisfied := by
  cases Submit.stepped h with
  | dependenciesChecked _ satisfied _ =>
      obtain ⟨pc, hpc, _⟩ := Submit.dispatch_eq cfg env.now
        { r with initialStatus := initialJobStatus r.body.type satisfied }
      exact .inr ⟨satisfied, by rw [hpc]; rfl⟩
  | batchInserted _ _ r' hr => subst hr; exact .inl rfl
  | jobInserted _ _ _ _ r' hr => subst hr; exact .inl rfl
  | _ => exact .inl rfl

/-- A job is inserted with a pending status. -/
theorem insertsPending_step {cfg : Config} {s s' : Sys} {a : Action} (hI : InsertsPending s)
    (h : step cfg s a = some s') : InsertsPending s' := by
  intro k r' hk
  cases origin h hk with
  | idle hk₀ _ => exact hI k r' hk₀
  | started request _ hp _ => cases request <;> cases hp; rfl
  | moved env p _ hk₀ hs =>
      obtain ⟨r, rfl, hr⟩ := submit_of_step hs
      rcases Submit.step_initialStatus hr with heq | ⟨satisfied, heq⟩
      · rw [heq]; exact hI k r hk₀
      · rw [heq]
        unfold initialJobStatus
        (repeat' split) <;> rfl

end JobScheduler
