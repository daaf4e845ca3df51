/-
  JobScheduler.Claiming.Limit
  ───────────────────────────
  What `concurrency_limit` bounds.  The capacity check of a claim counts rows by
  their status; what executes are calls of `executeJob`.  As long as no retry or
  replay resets a job under a call that still works on it, the row of every such
  call is active, and two calls have two rows: the COUNT bounds the calls.
-/
import JobScheduler.Claiming.Capacity
import JobScheduler.DeadLetter.Revival

namespace JobScheduler

open Relational Transition

/-! ## §1. Calls that execute. -/

/-- Between setting the job `running` and the end of its handler. -/
def ExecPc.executing : ExecPc → Bool
  | .publish .running | .notify .running | .insertExecution | .log .started | .handler => true
  | _ => false

/-- The client executes a job of the queue. -/
def Proc.executes (queueId : UUID) : Proc → Bool
  | .exec e => e.pc.executing && decide (e.job.queueId = queueId)
  | _ => false

/-- The number of calls that execute a job of the queue. -/
def Sys.executing (s : Sys) (queueId : UUID) : Nat :=
  s.clients.count (fun _ c => c.proc.executes queueId)

/-- The client is a call of `executeJob` that may still write the status of job `j`. -/
def Proc.worksOn (j : UUID) : Proc → Bool
  | .exec e => decide (e.jobId = j) && decide e.stage.writing
  | _ => false

/-- The job that the client's next statement resets. -/
def Proc.resetJob : Proc → Option UUID
  | .retry r => (match r.pc with
      | .update => some r.jobId
      | _ => none)
  | .replay r => (match r.pc with
      | .update j => some j
      | _ => none)
  | _ => none

/-- The action resets a job while a call of `executeJob` still works on it. -/
def Action.undercuts (s : Sys) : Action → Bool
  | .run pid env => !env.fails && ((s.proc pid).bind Proc.resetJob).any
      (fun j => !s.clients.all (fun _ c => !c.proc.worksOn j))
  | _ => false

/-- The action is the UPDATE of a queue that sets its `concurrency_limit`. -/
def Action.setsLimit (s : Sys) : Action → Bool
  | .run pid _ => (match s.proc pid with
      | some (.patch r) => (match r.pc with
          | .update => r.updates.concurrencyLimit.isSome
          | _ => false)
      | _ => false)
  | _ => false

theorem Proc.resetJob_eq_some {p : Proc} {j : UUID} : p.resetJob = some j ↔ p.resets j = true := by
  rw [Proc.resets_iff]
  constructor
  · intro h
    cases p with
    | retry r =>
        simp only [Proc.resetJob] at h
        split at h
        · rename_i hpc
          exact .inl ⟨r, rfl, hpc, Option.some.inj h⟩
        · cases h
    | replay r =>
        simp only [Proc.resetJob] at h
        split at h
        · rename_i i hpc
          exact .inr ⟨r, rfl, Option.some.inj h ▸ hpc⟩
        · cases h
    | _ => cases h
  · rintro (⟨r, rfl, hpc, rfl⟩ | ⟨r, rfl, hpc⟩) <;> simp [Proc.resetJob, hpc]

theorem ExecPc.stage_of_executing {pc : ExecPc} (h : pc.executing = true) : pc.stage = .running := by
  unfold ExecPc.executing at h
  split at h <;> first | rfl | cases h

/-! ## §2. Single steps. -/

section
variable {cfg : Config} {s s' : Sys} {a : Action} {j : UUID}

/-- A reset that is rejected touches neither the rows nor the calls. -/
theorem held_rejected {live : Stage → Prop} {pid : Nat} {env : Env} {p : Proc} (hH : Held live j s)
    (h : step cfg s (.run pid env) = some s') (hp : s.proc pid = some p) (hm : p.manual = true)
    (hf : env.fails = true) : Held live j s' := by
  obtain ⟨p', _, hs⟩ := proc_run h hp
  have hdb := Proc.step_failed hs hf
  have hexec : ∀ k e, s'.proc k = some (.exec e) → s.proc k = some (.exec e) := by
    intro k e hk
    cases exec_origin h hk with
    | idle hk₀ _ => exact hk₀
    | stepped _ _ ha hk₀ _ | committed _ _ _ _ ha hk₀ _ _ _ =>
        cases ha
        rw [hp] at hk₀
        cases hk₀
        cases hm
  -- neither the row nor a call has changed
  refine ⟨fun k e hk hj hl => ?_, fun k l e f hk hl => hH.unique k l e f (hexec k e hk) (hexec l f hl)⟩
  rw [hdb]
  exact hH.row k e (hexec k e hk) hj hl

/-- Rows and working calls stay together, unless a reset undercuts a call. -/
theorem held_writing_step (hP : Pending s) (hH : Held Stage.writing j s) (hu : a.undercuts s = false)
    (h : step cfg s a = some s') : Held Stage.writing j s' := by
  by_cases hres : a.resets s j = true
  · cases a with
    | run pid env =>
        obtain ⟨p, hp, hpr⟩ := (Option.any_eq_true _ _).mp hres
        cases hf : env.fails with
        | true =>
            refine held_rejected hH h hp ?_ hf
            rcases Proc.resets_iff.mp hpr with ⟨r, rfl, _⟩ | ⟨r, rfl, _⟩ <;> rfl
        | false =>
            refine held_step Stage.relying_writing hP hH (fun _ k e hk hj hl => ?_) h
            simp only [Action.undercuts, hf, hp, Option.bind_some, Proc.resetJob_eq_some.mpr hpr,
              Option.any_some, Bool.not_false, Bool.true_and, Bool.not_eq_false'] at hu
            -- `undercuts` excludes a call that still works on the job
            have hno := (s.clients_all_iff (fun p => !p.worksOn j)).mp hu k _ hk
            simp [Proc.worksOn, hj, hl] at hno
    | _ => cases hres
  · exact held_step Stage.relying_writing hP hH (fun hr => absurd hr hres) h

/-- No other statement changes a limit. -/
theorem limit_stays (hl : a.setsLimit s = false) (h : step cfg s a = some s') {id : UUID} {q' : Queue}
    (hq' : s'.db.queues.lookup id = some q') :
    ∃ q, s.db.queues.lookup id = some q ∧ q.concurrencyLimit = q'.concurrencyLimit := by
  cases stepped h with
  | wait | start => exact ⟨q', hq', rfl⟩
  | run pid env p p' db' hp _ hs =>
      rw [Sys.put_db] at hq'
      rcases Proc.step_queue hs id with heq | ⟨r, rfl, hpc, _, heq⟩
      · exact ⟨q', heq ▸ hq', rfl⟩
      · rw [heq] at hq'
        obtain ⟨q, hq, rfl⟩ := Option.map_eq_some_iff.mp hq'
        refine ⟨q, hq, ?_⟩
        -- a PATCH of other fields
        have hnone : r.updates.concurrencyLimit = none := by
          simpa [Action.setsLimit, hp, hpc] using hl
        simp [UpdateQueueInput.apply, hnone]

/-- The COMMIT of a claim writes its row, or is rejected. -/
theorem Claim.commit_db {ctx : Ctx} {env : Env} {c c' : Claim} {db db' : Db} {row : Job}
    (h : c.step ctx env db = some (db', c')) (hpc : c.pc = .committing (some (j, row))) :
    db' = db.updateJob j c.claimed ∨ db' = db := by
  cases Claim.stepped h with
  | committed id row' hpc' _ =>
      rw [hpc] at hpc'
      cases hpc'
      exact .inl rfl
  | _ => exact .inr rfl

end

/-! ## §3. The invariant. -/

/-- Rows, calls and limits: a queue holds no more active jobs than its limit, or
nothing of it executes. -/
structure Limited (s : Sys) : Prop where
  basis : CountBasis s
  defined : Defined s
  held : ∀ j, Held Stage.writing j s
  within : ∀ id q, s.db.queues.lookup id = some q → s.db.activeCount id ≤ q.concurrencyLimit ∨
    ∀ k e, s.proc k = some (.exec e) → e.job.queueId = id → e.stage ≠ .claimed ∧ e.stage ≠ .running

theorem limited_atRest (clock : Timestamp) (db : Db) : Limited (Sys.atRest clock db) where
  basis := (claimable_atRest clock db).basis
  defined := defined_atRest clock db
  held j := held_atRest _ j clock db
  within id q hq := .inr (by intro k e h; simp at h)

section
variable {cfg : Config} {s s' : Sys} {a : Action}

/-- The job of a call that is about to start is claimed. -/
theorem starting_of_held (hH : ∀ j, Held Stage.writing j s) {k : Nat} {e : Exec}
    (hk : s.proc k = some (.exec e)) (hpc : e.pc = .setRunning) :
    s.db.statusOf e.jobId = some .claimed := by
  have hl : e.stage.writing := by rw [Exec.stage, hpc]; decide
  obtain ⟨old, hold, hallow⟩ := (hH e.jobId).row k e hk rfl hl
  rw [Exec.stage, hpc] at hallow
  rw [Db.statusOf, hold]
  exact congrArg some hallow

/-- A call comes to an early stage by a COMMIT only. -/
theorem stage_early {ctx : Ctx} {env : Env} {e e' : Exec} {db db' : Db}
    (h : e.step cfg ctx env db = some (db', e')) (he : e.stage ≠ .claimed ∧ e.stage ≠ .running) :
    e'.stage ≠ .claimed ∧ e'.stage ≠ .running := by
  rcases Exec.step_stage h with hnext | ⟨_, hcaught⟩
  · generalize e.stage = g at hnext he
    generalize e'.stage = g' at hnext ⊢
    cases hnext with
    | same => exact he
    | start => exact absurd rfl he.1
    | _ => simp
  · simp [hcaught]

/-- The COUNT after a step that executes no COMMIT for the queue is not larger. -/
theorem activeCount_step (hI : CountBasis s) (h : step cfg s a = some s') {id : UUID} {q : Queue}
    (hq : s.db.queues.lookup id = some q) :
    s'.db.activeCount id ≤ s.db.activeCount id ∨ s'.db.activeCount id ≤ q.concurrencyLimit := by
  cases stepped h with
  | wait | start => exact .inl le_rfl
  | run pid env p p' db' hp _ hs =>
      rw [Sys.put_db]
      by_cases hcommit : ∃ c j row old, p = .claim c ∧ c.pc = .committing (some (j, row)) ∧
          s.db.jobs.lookup j = some old ∧ old.queueId = id
      · obtain ⟨c, j, row, old, rfl, hpc, hold, rfl⟩ := hcommit
        obtain ⟨⟨d, c'⟩, hc, he⟩ := Option.map_eq_some_iff.mp hs
        cases he
        -- the claim has counted under the lock of the queue row
        rcases Claim.commit_db hc hpc with rfl | rfl
        · obtain ⟨o, q', ho, hq', _, _, hle⟩ := hI.commit_within hp hpc
          rw [hold] at ho
          cases ho
          rw [hq] at hq'
          cases hq'
          exact .inr hle
        · exact .inl le_rfl
      · left
        refine hI.activeCount_le hp hs ?_
        intro c j row old hc hpc hold hid
        exact hcommit ⟨c, j, row, old, hc, hpc, hold, hid⟩

/-- One step keeps the limit, unless it resets a job under a live call or lowers the limit. -/
theorem limited_step (hI : Limited s) (hu : a.undercuts s = false) (hl : a.setsLimit s = false)
    (h : step cfg s a = some s') : Limited s' := by
  have hheld : ∀ j, Held Stage.writing j s' := fun j => held_writing_step hI.basis.pending (hI.held j) hu h
  refine ⟨⟨pending_step hI.basis.pending h, insertsPending_step hI.basis.inserts h,
    capacity_step hI.basis h, fun k e hk hpc => starting_of_held hheld hk hpc⟩,
    defined_step hI.basis.pending hI.defined h, hheld, ?_⟩
  intro id q' hq'
  obtain ⟨q, hq, hlimit⟩ := limit_stays hl h hq'
  rw [← hlimit]
  by_cases hle : s'.db.activeCount id ≤ q.concurrencyLimit
  · exact .inl hle
  -- the COUNT was too large before, and no claim has committed a job of the queue
  have hnone := (hI.within id q hq).resolve_left (fun hwas =>
    (activeCount_step hI.basis h hq).elim (fun hmono => hle (hmono.trans hwas)) hle)
  right
  intro k e hk hid
  cases exec_origin h hk with
  | idle hk₀ _ => exact hnone k e hk₀ hid
  | stepped env e₀ _ hk₀ hs =>
      exact stage_early hs (hnone k e₀ hk₀ ((Exec.step_params hs).2.1 ▸ hid))
  | committed env c j row _ hk₀ hpc hdb he =>
      -- a COMMIT leaves the COUNT within the limit, which it is not
      obtain ⟨old, q₀, hold, hq₀, _, _, hwithin⟩ := hI.basis.commit_within hk₀ hpc
      obtain ⟨o, ho, _, hrow⟩ := hI.basis.pending.queued k c j row hk₀ hpc
      rw [hold] at ho
      cases ho
      subst he
      have hqueue : old.queueId = id := by rw [← hid]; simp [hrow, Claim.claimed]
      rw [hqueue, hq] at hq₀
      cases hq₀
      rw [hqueue, ← hdb] at hwithin
      exact absurd hwithin hle

/-- A client counted for the queue is a running call of one of its jobs. -/
theorem exec_of_executes {id : UUID} {k : Nat}
    (hk : k ∈ Table.keysWhere (fun _ c => c.proc.executes id) s.clients) :
    ∃ e, s.proc k = some (.exec e) ∧ e.stage = .running ∧ e.job.queueId = id := by
  obtain ⟨c, hc, hw⟩ := (Table.mem_keysWhere _ _ _).mp hk
  cases hp : c.proc <;> rw [hp] at hw <;> try cases hw
  rename_i e
  obtain ⟨hpc, hid⟩ := Bool.and_eq_true_iff.mp hw
  exact ⟨e, by simp [Sys.proc, hc, hp], ExecPc.stage_of_executing hpc, of_decide_eq_true hid⟩

/-- The job of a call of `executeJob`. -/
def Proc.callJob : Proc → UUID
  | .exec e => e.jobId
  | _ => 0

/-- The job of the `executeJob` call of the client `k`. -/
def Sys.callJob (s : Sys) (k : Nat) : UUID := ((s.proc k).map Proc.callJob).getD 0

/-- The calls that execute have active rows, one each. -/
theorem Limited.executing_le (hI : Limited s) (id : UUID) :
    s.executing id ≤ s.db.activeCount id := by
  have hjob : ∀ {k e}, s.proc k = some (.exec e) → s.callJob k = e.jobId := by
    intro k e hk
    unfold Sys.callJob
    rw [hk]
    rfl
  refine Table.count_le_of_injOn s.callJob ?_ ?_
  · intro k hk
    obtain ⟨e, hp, hst, hid⟩ := exec_of_executes hk
    obtain ⟨old, hold, hallow⟩ := (hI.held e.jobId).row k e hp rfl (by rw [hst]; decide)
    obtain ⟨o, ho, hdef⟩ := hI.defined k e hp
    rw [hold] at ho
    cases ho
    have hrunning : old.status = .running := by rwa [hst] at hallow
    refine (Table.mem_keysWhere _ _ _).mpr ⟨old, hjob hp ▸ hold, ?_⟩
    simp [hdef.queueId, hid, hrunning, JobStatus.active]
  · intro k hk l hl heq
    obtain ⟨e, hp, hst, _⟩ := exec_of_executes hk
    obtain ⟨f, hq, hst', _⟩ := exec_of_executes hl
    rw [hjob hp, hjob hq] at heq
    exact (hI.held e.jobId).unique k l e f hp hq rfl heq.symm (by rw [hst]; decide) (by rw [hst']; decide)

end

/-! ## §4. Every run. -/

/-- **The limit bounds what executes.**  In every run in which no PATCH sets a limit
and no retry or replay resets a job under a call of `executeJob` that still works on
it: at most `concurrency_limit` calls of a queue's jobs stand between setting
`running` and the end of their handler. -/
theorem executing_within_limit {cfg : Config} {clock : Timestamp} {db : Db} {s : Sys}
    {tr : List (Sys × Action)} (hrun : SysRun cfg (Sys.atRest clock db) tr s)
    (hl : ∀ p ∈ tr, p.2.setsLimit p.1 = false) (hu : ∀ p ∈ tr, p.2.undercuts p.1 = false)
    {id : UUID} {q : Queue} (hq : s.db.queues.lookup id = some q) :
    s.executing id ≤ q.concurrencyLimit := by
  have hI : Limited s := hrun.invariant (G := fun s a => a.setsLimit s = false ∧ a.undercuts s = false)
    (fun _ _ _ hI hg hs => limited_step hI hg.2 hg.1 hs) (fun p hp => ⟨hl p hp, hu p hp⟩)
    (limited_atRest clock db)
  rcases hI.within id q hq with hle | hnone
  · exact (hI.executing_le id).trans hle
  · -- nothing of the queue executes
    have hempty : Table.keysWhere (fun _ c => c.proc.executes id) s.clients = ∅ := by
      refine Finset.eq_empty_of_forall_notMem (fun k hk => ?_)
      obtain ⟨e, hp, hst, hid⟩ := exec_of_executes hk
      exact (hnone k e hp hid).2 hst
    rw [Sys.executing, Table.count, hempty, Finset.card_empty]
    exact Nat.zero_le _

/-- Job 7 is replayed from its entry 3 and then executed. -/
def replayThenRunActions : List Action :=
  .start 0 (.replay 1 3) :: Action.runs 0 { now := 0 } 6
    ++ .start 1 (.claim 5 none none) :: Action.runs 1 { now := 0, pick := some 7 } 11

theorem executing_within_limit_replayed :
    (play (step Config.small) (Sys.atRest 0 (Db.smallDead 1)) replayThenRunActions).executing 1 ≤ 1 :=
  executing_within_limit (q := Queue.small 1)
    (run_of_play (step Config.small) (Sys.atRest 0 (Db.smallDead 1)) replayThenRunActions (by rfl))
    (by decide) (by decide) rfl

/-- Two jobs wait in a queue with one slot; entry 3 is about job 7. -/
def Db.smallPair : Db :=
  { Db.small 1 [(7, Job.small .queued), (8, Job.small .queued)] with
    deadLetterQueue := (Db.smallReplayable 1).deadLetterQueue }

/-- A replay resets job 7 while its handler runs; a second worker finds the slot free
and starts job 8. -/
def replayRunningActions : List Action :=
  .start 0 (.claim 5 none none) :: Action.runs 0 { now := 0, pick := some 7 } 11
    ++ .start 1 (.replay 1 3) :: Action.runs 1 { now := 0 } 2
    ++ .start 2 (.claim 6 none none) :: Action.runs 2 { now := 0, pick := some 8, fresh := 1 } 11

/-- Two jobs execute in a queue with one slot. -/
theorem replay_exceeds_limit :
    ∃ tr s q, SysRun Config.small (Sys.atRest 0 Db.smallPair) tr s ∧
      (∀ p ∈ tr, p.2.setsLimit p.1 = false) ∧ s.db.queues.lookup 1 = some q ∧
      q.concurrencyLimit < s.executing 1 :=
  ⟨_, _, _, run_of_play _ _ replayRunningActions (by rfl), by decide, rfl, by decide⟩

end JobScheduler
