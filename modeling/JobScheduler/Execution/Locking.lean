/-
  JobScheduler.Execution.Locking
  ──────────────────────────────
  The lock `job:<id>` as the second line of defence against duplicate
  execution.  The lock is owned by a WORKER and is re-entrant for its owner, so
  two activations of one worker may hold it together, and the first to finish
  deletes it under the second.  As long as no activation re-enters, the lock
  excludes: one activation in the handler at a time, and only the activation
  whose acquire wrote the row removes it.
-/
import JobScheduler.System.Activation

namespace JobScheduler

open Relational Transition

/-! ## §1. Holding the lock. -/

namespace Exec

/-- Between the acquire and the release. -/
def holding (e : Exec) : Bool :=
  match e.pc with
  | .acquire | .returned => false
  | _ => true

/-- From the acquire to the end of the handler. -/
def guarded (e : Exec) : Bool :=
  match e.pc with
  | .setRunning | .publish .running | .notify .running | .insertExecution | .log .started
  | .handler => true
  | _ => false

/-- The statement takes the lock. -/
def takesLock (env : Env) (db : Db) (e : Exec) : Bool :=
  match e.pc with
  | .acquire => !env.fails && e.acquires env db
  | _ => false

end Exec

/-- The client is an activation of `j` by worker `w` that holds the lock. -/
def Proc.holdsLock (j w : UUID) : Proc → Bool
  | .exec e => e.holding && decide (e.jobId = j) && decide (e.workerId = w)
  | _ => false

/-- The action takes the lock of `j` while another activation of the same worker
holds it. -/
def Action.reenters (s : Sys) (j : UUID) : Action → Bool
  | .run pid env =>
      match s.proc pid with
      | some (.exec e) =>
          e.takesLock env s.db && decide (e.jobId = j) &&
            !s.clients.all (fun _ c => !c.proc.holdsLock j e.workerId)
      | _ => false
  | _ => false

/-- A guarded activation is within the lease it took. -/
def Proc.timely (clock : Timestamp) : Proc → Bool
  | .exec e => !e.guarded || decide (clock < e.leaseUntil)
  | _ => true

/-- Handlers finish within the lease that their activation took. -/
def Sys.timely (s : Sys) : Bool := s.clients.all (fun _ c => c.proc.timely s.clock)

/-- The activation whose acquire wrote the lock row of `j` last, given the
holder before the action. -/
def Action.holderAfter (s : Sys) (j : UUID) (holder : Option Nat) : Action → Option Nat
  | .run pid env =>
      match s.proc pid with
      | some (.exec e) => if e.takesLock env s.db ∧ e.jobId = j then some pid else holder
      | _ => holder
  | _ => holder

/-- The activation that holds the lock of `j` after the recorded steps. -/
def lockHolder (tr : List (Sys × Action)) (j : UUID) : Option Nat :=
  tr.foldl (fun holder p => p.2.holderAfter p.1 j holder) none

/-! ## §2. Steps. -/

section
variable {cfg : Config} {ctx : Ctx} {env : Env} {db db' : Db} {e e' : Exec}

/-- A call that is guarded holds its lock. -/
theorem Exec.guarded_holding (h : e.guarded = true) : e.holding = true := by
  unfold Exec.guarded at h
  unfold Exec.holding
  cases hpc : e.pc <;> simp_all

/-- The guarded part of a call ends before the job is completed. -/
theorem Exec.guarded_stage (h : e.guarded = true) : e.stage = .claimed ∨ e.stage = .running := by
  unfold Exec.guarded at h
  unfold Exec.stage
  split at h <;> rename_i hpc
  case h_7 => cases h
  all_goals rw [hpc]; simp [ExecPc.stage, PublishSite.stage, LogSite.stage]

/-- A call that holds the lock held it before, or has just taken it. -/
theorem Exec.step_holding (h : e.step cfg ctx env db = some (db', e'))
    (hh : e'.holding = true) :
    e.holding = true ∨ e.takesLock env db = true ∧
      e' = { e with pc := .setRunning, leaseUntil := env.now + lockTtlMs } := by
  by_cases hpc : e.pc = .acquire
  · obtain ⟨_, ⟨_, _, rfl⟩ | ⟨hf, _, rfl⟩⟩ := Exec.step_cases h
    · simp [Exec.holding, Exec.goto, Exec.onThrow, hpc] at hh
    · right
      simp only [Exec.next, hpc] at hh ⊢
      split at hh
      · rename_i hacq
        rw [if_pos hacq]
        exact ⟨by simpa [Exec.takesLock, hpc, hacq] using (Bool.or_eq_false_iff.mp hf).1, rfl⟩
      · simp [Exec.holding, Exec.goto] at hh
  · left
    unfold Exec.holding
    split
    · contradiction
    · rename_i hret
      have hready := (Exec.step_cases h).1
      simp [Exec.ready, hret] at hready
    · rfl

/-- The way to the handler is one way: a guarded call was guarded before, with
the same lease, or has just taken the lock. -/
theorem Exec.step_guarded (h : e.step cfg ctx env db = some (db', e'))
    (hg : e'.guarded = true) :
    (e.guarded = true ∧ e'.leaseUntil = e.leaseUntil) ∨ e.takesLock env db = true ∧
      e' = { e with pc := .setRunning, leaseUntil := env.now + lockTtlMs } := by
  have hstage : e.stage = .claimed ∨ e.stage = .running := by
    rcases Exec.step_stage h with hn | ⟨_, hc⟩
    · rcases Exec.guarded_stage hg with hs | hs <;> rw [hs] at hn <;>
        cases he : e.stage <;> rw [he] at hn <;> cases hn <;> simp
    · rcases Exec.guarded_stage hg with hs | hs <;> rw [hs] at hc <;> cases hc
  by_cases hacq : e.pc = .acquire
  · refine .inr ((Exec.step_holding h (Exec.guarded_holding hg)).resolve_left ?_)
    simp [Exec.holding, hacq]
  by_cases hset : ∃ result, e.pc = .setCompleted result
  -- the success path has left the guarded part
  · obtain ⟨result, hpc⟩ := hset
    obtain ⟨_, ⟨_, _, rfl⟩ | ⟨_, _, rfl⟩⟩ := Exec.step_cases h
    · simp [Exec.guarded, Exec.goto, Exec.onThrow, hpc] at hg
    · simp [Exec.guarded, Exec.next, Exec.goto, hpc] at hg
  left
  -- the remaining program points of the two stages are the guarded ones
  have hguarded : e.guarded = true := by
    unfold Exec.stage at hstage
    unfold Exec.guarded
    cases hpc : e.pc <;> simp only [hpc, ExecPc.stage, reduceCtorEq, or_self] at hstage ⊢
    case acquire => exact hacq hpc
    case setCompleted result => exact hset ⟨result, hpc⟩
    case publish site | notify site =>
      cases site <;> simp [PublishSite.stage] at hstage ⊢
      rename_i result batch
      cases result <;> simp [BatchResult.stage] at hstage
    case log site => cases site <;> simp [LogSite.stage] at hstage ⊢
    case batchProgress result | batchStatus result batch | callback result batch =>
      cases result <;> simp [BatchResult.stage] at hstage
  refine ⟨hguarded, ?_⟩
  obtain ⟨_, ⟨_, _, rfl⟩ | ⟨_, _, rfl⟩⟩ := Exec.step_cases h
  · rfl
  · cases hpc : e.pc <;> simp only [Exec.next, hpc] <;> try rfl
    case acquire => exact absurd hpc hacq
    case handler => cases env.handler <;> rfl

/-- What a statement does to the lock row of job `j`. -/
inductive LockChange (env : Env) (db : Db) (j : UUID) :
    Proc → Option DistributedLock → Option DistributedLock → Prop
  | same (p : Proc) (o : Option DistributedLock) (hp : ∀ e, p = .exec e → e.jobId = j →
      e.takesLock env db = false) : LockChange env db j p o o
  | acquired (e : Exec) (o : Option DistributedLock) (ht : e.takesLock env db = true)
      (hj : e.jobId = j) (hold : ∀ held, o = some held →
        held.expiresAt ≤ env.now ∨ held.ownerId = e.owner) :
      LockChange env db j (.exec e) o (some
        { ownerId := e.owner, expiresAt := env.now + Exec.lockTtlMs, acquiredAt := env.now })
  | released (e : Exec) (held : DistributedLock) (hpc : e.pc = .release) (hj : e.jobId = j)
      (ho : held.ownerId = e.owner) : LockChange env db j (.exec e) (some held) none

/-- A statement that is not on `distributed_locks` leaves the table alone. -/
theorem Exec.effect_locks (env : Env) (e : Exec) (db : Db) (h₁ : e.pc ≠ .acquire)
    (h₂ : e.pc ≠ .release) : (e.effect env db).distributedLocks = db.distributedLocks := by
  unfold Exec.effect
  split <;> first | rfl | contradiction

theorem Exec.locks_same {j : UUID} (hno : e.takesLock env db = false ∨ e.jobId ≠ j)
    (o : Option DistributedLock) : LockChange env db j (.exec e) o o := by
  refine .same _ _ (fun f hf hj => ?_)
  cases hf
  exact hno.resolve_right (not_not.mpr hj)

/-- The acquire that is not rejected. -/
theorem Exec.acquire_locks (hpc : e.pc = .acquire) (hf : env.fails = false) (j : UUID) :
    LockChange env db j (.exec e) (db.distributedLocks.lookup (.job j))
      ((e.effect env db).distributedLocks.lookup (.job j)) := by
  have heff : (e.effect env db).distributedLocks
      = (acquireDistributedLock env.now e.lockKey e.owner Exec.lockTtlMs db.distributedLocks).1 := by
    simp [Exec.effect, hpc, Db.setLocks]
  rw [heff]
  by_cases hj : e.jobId = j
  · have hkey : LockKey.job j = e.lockKey := by rw [← hj]; rfl
    rw [hkey]
    cases hok : e.acquires env db with
    | true =>
        rw [acquire_true hok]
        refine .acquired e _ (by simp [Exec.takesLock, hpc, hf, hok]) hj ?_
        intro held hheld
        exact acquire_takes hok hheld
    | false =>
        rw [(acquire_false hok).1, ← hkey]
        exact Exec.locks_same (.inl (by simp [Exec.takesLock, hpc, hok])) _
  · rw [acquire_other _ _ _ _ (by simp [Exec.lockKey, Ne.symm hj])]
    exact Exec.locks_same (.inr hj) _

/-- The release that is not rejected: it deletes a row of its own worker alone. -/
theorem Exec.release_locks (hpc : e.pc = .release) (j : UUID) :
    LockChange env db j (.exec e) (db.distributedLocks.lookup (.job j))
      ((e.effect env db).distributedLocks.lookup (.job j)) := by
  have hno : e.takesLock env db = false := by simp [Exec.takesLock, hpc]
  have heff : (e.effect env db).distributedLocks
      = releaseDistributedLock e.lockKey e.owner db.distributedLocks := by
    simp [Exec.effect, hpc, Db.setLocks]
  rw [heff]
  by_cases hj : e.jobId = j
  · have hkey : LockKey.job j = e.lockKey := by rw [← hj]; rfl
    rw [hkey, release_self]
    cases hl : db.distributedLocks.lookup e.lockKey with
    | none => exact Exec.locks_same (.inl hno) _
    | some held =>
        by_cases ho : held.ownerId = e.owner
        · rw [Option.filter_some, if_neg (by simpa using ho)]
          exact .released e held hpc hj ho
        · rw [Option.filter_some, if_pos (by simpa using ho)]
          exact Exec.locks_same (.inl hno) _
  · rw [release_other _ _ (by simp [Exec.lockKey, Ne.symm hj])]
    exact Exec.locks_same (.inr hj) _

/-- What a statement of `executeJob` does to the lock of one job. -/
theorem Exec.step_locks (h : e.step cfg ctx env db = some (db', e')) (j : UUID) :
    LockChange env db j (.exec e) (db.distributedLocks.lookup (.job j))
      (db'.distributedLocks.lookup (.job j)) := by
  obtain ⟨_, ⟨hf, rfl, _⟩ | ⟨hacc, rfl, _⟩⟩ := Exec.step_cases h
  · -- a rejected statement takes nothing
    refine Exec.locks_same (.inl ?_) _
    unfold Exec.takesLock
    split
    · rename_i hpc
      simp only [Exec.overflows, hpc, Bool.or_false] at hf
      simp [hf]
    · rfl
  · by_cases hacq : e.pc = .acquire
    · exact e.acquire_locks hacq (Bool.or_eq_false_iff.mp hacc).1 j
    by_cases hrel : e.pc = .release
    · exact e.release_locks hrel j
    rw [e.effect_locks env db hacq hrel]
    refine Exec.locks_same (.inl ?_) _
    unfold Exec.takesLock
    split
    · contradiction
    · rfl

/-- A tick touches no lock of a job. -/
theorem Tick.step_locks {t t' : Tick} (h : t.step cfg ctx env db = some (db', t')) (j : UUID) :
    db'.distributedLocks.lookup (.job j) = db.distributedLocks.lookup (.job j) := by
  obtain ⟨_, ⟨_, rfl, _⟩ | ⟨_, rfl, _⟩⟩ := Tick.step_cases h
  · rfl
  · unfold Tick.effect
    split
    · exact acquire_other _ _ _ _ (by simp)
    · rfl
    · rfl
    · split <;> rfl
    · rfl
    · rfl
    · exact release_other _ _ (by simp)
    all_goals rfl

/-- Only activations and ticks use `distributed_locks`. -/
theorem Proc.step_distributedLocks {p p' : Proc} (h : p.step cfg ctx env db = some (db', p'))
    (hexec : ∀ e, p ≠ .exec e) (htick : ∀ t, p ≠ .tick t) :
    db'.distributedLocks = db.distributedLocks := by
  cases Proc.stepped h with
  | exec e e' hq => exact absurd rfl (hexec e)
  | tick t t' hq => exact absurd rfl (htick t)
  | claim c c' hq => cases Claim.stepped hq <;> rfl
  | submit r r' hq => cases Submit.stepped hq <;> rfl
  | retry r r' hq => cases Retry.stepped hq <;> rfl
  | replay r r' hq => cases Replay.stepped hq <;> rfl
  | cancel r r' hq => cases Cancel.stepped hq <;> rfl
  | patch r r' hq => cases Patch.stepped hq <;> rfl

/-- **Only acquire and release of the job's own activations touch its lock row.** -/
theorem Proc.step_locks {p p' : Proc} (h : p.step cfg ctx env db = some (db', p')) (j : UUID) :
    LockChange env db j p (db.distributedLocks.lookup (.job j))
      (db'.distributedLocks.lookup (.job j)) := by
  by_cases hexec : ∃ e, p = .exec e
  · obtain ⟨e, rfl⟩ := hexec
    obtain ⟨⟨d, e'⟩, he, heq⟩ := Option.map_eq_some_iff.mp h
    cases heq
    exact Exec.step_locks he j
  · have hne : ∀ e, p ≠ .exec e := fun e he => hexec ⟨e, he⟩
    have hsame : db'.distributedLocks.lookup (.job j) = db.distributedLocks.lookup (.job j) := by
      by_cases htick : ∃ t, p = .tick t
      · obtain ⟨t, rfl⟩ := htick
        obtain ⟨⟨d, t'⟩, ht, heq⟩ := Option.map_eq_some_iff.mp h
        cases heq
        exact Tick.step_locks ht j
      · rw [Proc.step_distributedLocks h hne (fun t ht => htick ⟨t, ht⟩)]
    rw [hsame]
    exact .same _ _ (fun e he => absurd he (hne e))

end

/-! ## §3. The invariant. -/

/-- The lock row of job `j` after the recorded steps `tr`. -/
structure Leases (j : UUID) (tr : List (Sys × Action)) (s : Sys) : Prop where
  /-- A guarded activation's lease is the one in the table. -/
  guarded : ∀ k e, s.proc k = some (.exec e) → e.jobId = j → e.guarded = true →
    ∃ held, s.db.distributedLocks.lookup (.job j) = some held ∧
      held.ownerId = e.owner ∧ held.expiresAt = e.leaseUntil
  /-- A worker has at most one activation that holds the lock. -/
  unique : ∀ k l e f, s.proc k = some (.exec e) → s.proc l = some (.exec f) →
    e.jobId = j → f.jobId = j → e.holding = true → f.holding = true →
    e.workerId = f.workerId → k = l
  /-- A row that an activation could delete is the one it wrote. -/
  holder : ∀ k e held, s.proc k = some (.exec e) → e.jobId = j → e.holding = true →
    s.db.distributedLocks.lookup (.job j) = some held → held.ownerId = e.owner →
    lockHolder tr j = some k

/-- No lock is held by a call yet. -/
theorem leases_atRest (j : UUID) (clock : Timestamp) (db : Db) :
    Leases j [] (Sys.atRest clock db) where
  guarded := by intro k e h; simp at h
  unique := by intro k l e f h; simp at h
  holder := by intro k e held h; simp at h

theorem lockHolder_snoc (tr : List (Sys × Action)) (s : Sys) (a : Action) (j : UUID) :
    lockHolder (tr ++ [(s, a)]) j = a.holderAfter s j (lockHolder tr j) := by
  unfold lockHolder
  rw [List.foldl_append]
  rfl

/-- Two calls share an owner exactly when they run in one worker. -/
theorem owner_eq_iff {e f : Exec} : e.owner = f.owner ↔ e.workerId = f.workerId := by
  simp [Exec.owner]

/-- Without a re-entry whoever holds the lock that is taken runs in another worker. -/
theorem not_reenters {s : Sys} {pid l : Nat} {env : Env} {e f : Exec} {j : UUID}
    (hr : (Action.run pid env).reenters s j = false) (hp : s.proc pid = some (.exec e))
    (ht : e.takesLock env s.db = true) (hj : e.jobId = j) (hl : s.proc l = some (.exec f))
    (hfj : f.jobId = j) (hh : f.holding = true) : f.workerId ≠ e.workerId := by
  intro hw
  simp only [Action.reenters, hp, ht, hj, decide_true, Bool.true_and, Bool.not_eq_false'] at hr
  have := (s.clients_all_iff (fun p => !p.holdsLock j e.workerId)).mp hr l _ hl
  simp [Proc.holdsLock, hh, hfj, hw] at this

section
variable {cfg : Config} {s s' : Sys} {a : Action} {j : UUID} {tr : List (Sys × Action)} {pid : Nat}
  {env : Env} {p p' : Proc} {db' : Db}

/-- A holder after a step held the lock before it, or took it in this step. -/
theorem holder_origin {k : Nat} {e' : Exec} (h : step cfg s a = some s')
    (hk : s'.proc k = some (.exec e')) (hj : e'.jobId = j) (hh : e'.holding = true) :
    (∃ e, s.proc k = some (.exec e) ∧ e.jobId = j ∧ e.workerId = e'.workerId ∧
      e.holding = true) ∨
    ∃ env e, a = .run k env ∧ s.proc k = some (.exec e) ∧ e.jobId = j ∧
      e.workerId = e'.workerId ∧ e.takesLock env s.db = true := by
  cases exec_origin h hk with
  | idle hk₀ _ => exact .inl ⟨e', hk₀, hj, rfl, hh⟩
  | stepped env e ha hk₀ hs =>
      obtain ⟨hej, _, hew⟩ := Exec.step_params hs
      rcases Exec.step_holding hs hh with hold | ⟨htakes, _⟩
      · exact .inl ⟨e, hk₀, hej ▸ hj, hew.symm, hold⟩
      · exact .inr ⟨env, e, ha, hk₀, hej ▸ hj, hew.symm, htakes⟩
  | committed _ _ _ _ _ _ _ _ he => subst he; simp [Exec.holding] at hh

/-- Two holders of one lock are one call, after a step without a re-entry. -/
theorem Leases.unique_step (hL : Leases j tr s) (hr : a.reenters s j = false)
    (h : step cfg s a = some s') :
    ∀ k l e f, s'.proc k = some (.exec e) → s'.proc l = some (.exec f) →
      e.jobId = j → f.jobId = j → e.holding = true → f.holding = true →
      e.workerId = f.workerId → k = l := by
  intro k l e f hk hl hej hfj hhe hhf hw
  rcases holder_origin h hk hej hhe with ⟨e₀, hk₀, he₀, hwe, hh₀⟩ | ⟨env, e₀, ha, hk₀, he₀, hwe, ht₀⟩ <;>
    rcases holder_origin h hl hfj hhf with ⟨f₀, hl₀, hf₀, hwf, hg₀⟩ | ⟨env', f₀, ha', hl₀, hf₀, hwf, ht₁⟩
  · exact hL.unique k l e₀ f₀ hk₀ hl₀ he₀ hf₀ hh₀ hg₀ (hwe.trans (hw.trans hwf.symm))
  -- one of the two took the lock in this step, which would re-enter the other's
  · subst ha'
    exact absurd (hwe.trans (hw.trans hwf.symm)) (not_reenters hr hl₀ ht₁ hf₀ hk₀ he₀ hh₀)
  · subst ha
    exact absurd (hwf.trans (hw.symm.trans hwe.symm)) (not_reenters hr hk₀ ht₀ he₀ hl₀ hf₀ hg₀)
  · rw [ha] at ha'
    cases ha'
    rfl

/-- The row that activation `e` needs in the table of the locks. -/
def Exec.Leased (e : Exec) (db : Db) : Prop :=
  ∃ held, db.distributedLocks.lookup (.job e.jobId) = some held ∧
    held.ownerId = e.owner ∧ held.expiresAt = e.leaseUntil

/-- **No other client takes or deletes the row of a lease in time.** -/
theorem Leases.leased_idle (hL : Leases j tr s) (ht : s.timely = true)
    (hr : (Action.run pid env).reenters s j = false) (hp : s.proc pid = some p)
    (hnow : env.now ≤ s.clock) (hstep : p.step cfg s.ctx env s.db = some (db', p')) {k : Nat}
    {e : Exec} (hk : s.proc k = some (.exec e)) (hne : pid ≠ k) (hj : e.jobId = j)
    (hg : e.guarded = true) : e.Leased db' := by
  obtain ⟨held, hheld, ho, hexp⟩ := hL.guarded k e hk hj hg
  have hlease : s.clock < held.expiresAt := by
    have := (s.clients_all_iff (Proc.timely s.clock)).mp ht k _ hk
    rw [hexp]
    simpa [Proc.timely, hg] using this
  have hchange := Proc.step_locks hstep j
  rw [hheld] at hchange
  unfold Exec.Leased
  rw [hj]
  generalize hnew : db'.distributedLocks.lookup (.job j) = new at hchange
  cases hchange with
  | same => exact ⟨held, rfl, ho, hexp⟩
  | acquired f _ htakes hfj hold =>
      -- the lease has not expired, and its owner does not re-enter
      rcases hold held rfl with hle | hown
      · exact absurd (hle.trans hnow) (not_le.mpr hlease)
      · exact absurd (owner_eq_iff.mp (ho.symm.trans hown))
          (not_reenters hr hp htakes hfj hk hj (Exec.guarded_holding hg))
  | released f _ hrel hfj hown =>
      -- the owner has no second activation that could release
      have hfh : f.holding = true := by simp [Exec.holding, hrel]
      exact absurd (hL.unique pid k f e hp hk hfj hj hfh (Exec.guarded_holding hg)
        (owner_eq_iff.mp (hown.symm.trans ho))) hne

/-- A guarded activation goes on with the lease it has, or has just written it. -/
theorem Exec.leased_step {ctx : Ctx} {db : Db} {e e' : Exec}
    (h : e.step cfg ctx env db = some (db', e')) (hg : e'.guarded = true)
    (hold : e.guarded = true → e.Leased db) : e'.Leased db' := by
  obtain ⟨hej, _, hew⟩ := Exec.step_params h
  have hchange := Exec.step_locks h e.jobId
  unfold Exec.Leased
  rw [hej]
  rcases Exec.step_guarded h hg with ⟨hg₀, hlease⟩ | ⟨htakes, he'⟩
  · obtain ⟨held, hheld, ho, hexp⟩ := hold hg₀
    rw [hheld] at hchange
    generalize hnew : db'.distributedLocks.lookup (.job e.jobId) = new at hchange
    cases hchange with
    | same => exact ⟨held, rfl, by rw [ho, owner_eq_iff, hew], by rw [hexp, hlease]⟩
    | acquired _ _ htakes _ _ =>
        -- an activation that is about to acquire is not guarded yet
        unfold Exec.takesLock at htakes
        unfold Exec.guarded at hg₀
        split at htakes
        · rename_i hacq; simp [hacq] at hg₀
        · cases htakes
    -- the acquire of this step writes the lease
    | released _ _ hrel _ _ => simp [Exec.guarded, hrel] at hg₀
  · generalize hnew : db'.distributedLocks.lookup (.job e.jobId) = new at hchange
    generalize hold : db.distributedLocks.lookup (.job e.jobId) = old at hchange
    cases hchange with
    | same _ _ hno => rw [hno e rfl rfl] at htakes; cases htakes
    | acquired _ _ _ _ _ => exact ⟨_, rfl, by rw [he']; rfl, by rw [he']⟩
    | released _ _ hrel _ _ => simp [Exec.takesLock, hrel] at htakes

/-- A statement that takes no lock of `j` leaves its holder. -/
theorem holderAfter_same (hp : s.proc pid = some p)
    (hno : ∀ e, p = .exec e → e.jobId = j → e.takesLock env s.db = false) (holder : Option Nat) :
    (Action.run pid env).holderAfter s j holder = holder := by
  cases p with
  | exec e =>
      have hnot : ¬ (e.takesLock env s.db = true ∧ e.jobId = j) := by
        rintro ⟨htakes, hej⟩
        rw [hno e rfl hej] at htakes
        cases htakes
      simp only [Action.holderAfter, hp, if_neg hnot]
  | _ => simp only [Action.holderAfter, hp]

/-- Whoever holds the lock after a statement took it last. -/
theorem Leases.holder_run (hL : Leases j tr s) (hr : (Action.run pid env).reenters s j = false)
    (h : step cfg s (.run pid env) = some s') (hp : s.proc pid = some p)
    (hstep : p.step cfg s.ctx env s.db = some (s'.db, p')) {k : Nat} {e' : Exec} {held : DistributedLock}
    (hk : s'.proc k = some (.exec e')) (hj : e'.jobId = j) (hh : e'.holding = true)
    (hl : s'.db.distributedLocks.lookup (.job j) = some held) (ho : held.ownerId = e'.owner) :
    (Action.run pid env).holderAfter s j (lockHolder tr j) = some k := by
  have hchange := Proc.step_locks hstep j
  rw [hl] at hchange
  generalize hold : s.db.distributedLocks.lookup (.job j) = old at hchange
  cases hchange with
  | same _ _ hno =>
      rw [holderAfter_same hp hno]
      rcases holder_origin h hk hj hh with ⟨e, hk₀, hej, hw, hh₀⟩ | ⟨env', e, ha, hk₀, hej, _, htakes⟩
      · exact hL.holder k e held hk₀ hej hh₀ hold (ho.trans (owner_eq_iff.mpr hw.symm))
      · cases ha
        rw [hp] at hk₀
        cases hk₀
        rw [hno e rfl hej] at htakes
        cases htakes
  | acquired f _ htakes hfj _ =>
      have hholder : (Action.run pid env).holderAfter s j (lockHolder tr j) = some pid := by
        simp [Action.holderAfter, hp, htakes, hfj]
      rw [hholder]
      rcases holder_origin h hk hj hh with ⟨e, hk₀, hej, hw, hh₀⟩ | ⟨env', e, ha, _, _, _, _⟩
      -- the old holder would be of the same worker, which `reenters` excludes
      · have hwf : e.workerId = f.workerId := hw.trans (owner_eq_iff.mp ho).symm
        exact absurd hwf (not_reenters hr hp htakes hfj hk₀ hej hh₀)
      · cases ha
        rfl

/-- One timely step without a re-entry keeps the leases. -/
theorem leases_step (hL : Leases j tr s) (ht : s.timely = true) (hr : a.reenters s j = false)
    (h : step cfg s a = some s') : Leases j (tr ++ [(s, a)]) s' := by
  have hunique := hL.unique_step hr h
  cases stepped h with
  | wait ms =>
      exact ⟨hL.guarded, hL.unique, fun k e held hk hj hh hl ho => by
        rw [lockHolder_snoc]; exact hL.holder k e held hk hj hh hl ho⟩
  | start pid request hfree =>
      have hold : ∀ k e, (s.put pid s.db (request.start s.clock)).proc k = some (.exec e) →
          s.proc k = some (.exec e) := by
        intro k e hk
        rw [Sys.put_proc] at hk
        split at hk
        · exact absurd (Option.some.inj hk) (Request.start_ne_exec _ _ _)
        · exact hk
      exact ⟨fun k e hk => hL.guarded k e (hold k e hk), hunique, fun k e held hk hj hh hl ho => by
        rw [lockHolder_snoc]; exact hL.holder k e held (hold k e hk) hj hh hl ho⟩
  | run pid env p p' db' hp hnow hstep =>
      refine ⟨?_, hunique, ?_⟩
      · intro k e' hk hj hg
        subst hj
        cases exec_origin h hk with
        | committed _ _ _ _ _ _ _ _ he => subst he; simp [Exec.guarded] at hg
        | idle hk₀ hne =>
            exact hL.leased_idle ht hr hp hnow hstep hk₀ (fun hpk => hne env (hpk ▸ rfl)) rfl hg
        | stepped env' e ha hk₀ hs =>
            cases ha
            have hej := (Exec.step_params hs).1
            refine Exec.leased_step hs hg (fun hg₀ => ?_)
            unfold Exec.Leased
            rw [← hej]
            exact hL.guarded pid e hk₀ hej.symm hg₀
      · intro k e' held hk hj hh hl ho
        rw [lockHolder_snoc]
        exact hL.holder_run hr h hp hstep hk hj hh hl ho

end

/-! ## §4. Mutual exclusion. -/

/-- **The lock excludes, unless a worker re-enters it.**  In every run of the
whole system in which handlers finish within the lease of their activation and
no activation takes the lock of `j` while another one of the same worker holds
it: at most one activation of `j` is executing its handler, and the lock row of
`j` is removed only by the activation that holds it. -/
theorem no_duplicate_execution {cfg : Config} {clock : Timestamp} {db : Db} {j : UUID} {s : Sys}
    {tr : List (Sys × Action)} (hrun : SysRun cfg (Sys.atRest clock db) tr s)
    (htimely : ∀ p ∈ tr, p.1.timely = true) (hcond : ∀ p ∈ tr, p.2.reenters p.1 j = false) :
    (∀ k l e f, s.proc k = some (.exec e) → s.proc l = some (.exec f) → e.jobId = j →
      f.jobId = j → e.pc = .handler → f.pc = .handler → k = l) ∧
    (∀ a s', step cfg s a = some s' →
      (s.db.distributedLocks.lookup (.job j)).isSome = true →
      s'.db.distributedLocks.lookup (.job j) = none →
      ∃ k env, a = .run k env ∧ lockHolder tr j = some k) := by
  have hL : Leases j tr s := by
    induction hrun with
    | nil => exact leases_atRest j clock db
    | @snoc tr s s' a hpre hs ih =>
        have hlast : (s, a) ∈ tr ++ [(s, a)] := List.mem_append_right _ List.mem_cons_self
        have hL := ih (fun p hp => htimely p (List.mem_append_left _ hp))
          (fun p hp => hcond p (List.mem_append_left _ hp))
        exact leases_step hL (htimely _ hlast) (hcond _ hlast) hs
  refine ⟨?_, ?_⟩
  · intro k l e f hk hl hej hfj hpe hpf
    have hge : e.guarded = true := by simp [Exec.guarded, hpe]
    have hgf : f.guarded = true := by simp [Exec.guarded, hpf]
    obtain ⟨held, hheld, ho, _⟩ := hL.guarded k e hk hej hge
    obtain ⟨held', hheld', ho', _⟩ := hL.guarded l f hl hfj hgf
    rw [hheld] at hheld'
    cases hheld'
    exact hL.unique k l e f hk hl hej hfj (Exec.guarded_holding hge) (Exec.guarded_holding hgf)
      (owner_eq_iff.mp (ho.symm.trans ho'))
  · intro a s' hs hsome hnone
    cases stepped hs with
    | wait | start => simp_all
    | run pid env p p' db' hp _ hstep =>
        have hchange := Proc.step_locks hstep j
        rw [Sys.put_db] at hnone
        rw [hnone] at hchange
        generalize hold : s.db.distributedLocks.lookup (.job j) = old at hchange
        cases hchange with
        | same => simp [hold] at hsome
        | released f held hpc hfj ho =>
            exact ⟨pid, env, rfl, hL.holder pid f held hp hfj (by simp [Exec.holding, hpc]) hold ho⟩

/-- Worker 5 executes job 7 up to the release of its lock. -/
def aloneActions : List Action :=
  .start 0 (.claim 5 none none) :: Action.runs 0 { now := 0, pick := some 7, fresh := 100 } 18

theorem no_duplicate_execution_alone :
    ∃ k env, Action.run 0 { now := 0 } = .run k env ∧
      lockHolder (trace (step Config.small) (Sys.atRest 0 (Db.smallReplayable 2)) aloneActions) 7
        = some k := by
  have hrun := run_of_play (step Config.small) (Sys.atRest 0 (Db.smallReplayable 2))
    aloneActions (by rfl)
  obtain ⟨s', hs'⟩ := Option.isSome_iff_exists.mp
    (show (step Config.small (play (step Config.small) (Sys.atRest 0 (Db.smallReplayable 2))
      aloneActions) (.run 0 { now := 0 })).isSome = true by rfl)
  have hgone : s'.db.distributedLocks.lookup (.job 7) = none := by
    have : some s' = some _ := hs'.symm.trans rfl
    rw [Option.some.inj this]
    rfl
  exact (no_duplicate_execution (j := 7) hrun (by decide) (by decide)).2 _ s' hs' (by rfl) hgone

/-- Worker 5 reaches the handler of job 7, a replay requeues the job, and worker
5 claims it again and takes its own lock again. -/
def reentryActions : List Action :=
  [.start 2 (.replay 1 3), .run 2 { now := 0 }, .start 0 (.claim 5 none none)]
    ++ Action.runs 0 { now := 0, pick := some 7, fresh := 100 } 11
    ++ [.run 2 { now := 0 }, .start 1 (.claim 5 none none)]
    ++ Action.runs 1 { now := 0, pick := some 7, fresh := 101 } 11

/-- Two activations of job 7 execute their handlers at the same time, both
within their leases. -/
theorem reentry_runs_handler_twice :
    ∃ tr s e f, SysRun Config.small (Sys.atRest 0 (Db.smallReplayable 2)) tr s ∧
      (∀ p ∈ tr, p.1.timely = true) ∧ s.timely = true ∧
      s.proc 0 = some (.exec e) ∧ s.proc 1 = some (.exec f) ∧ e.jobId = 7 ∧ f.jobId = 7 ∧
      e.pc = .handler ∧ f.pc = .handler := by
  refine ⟨_, _, _, _, run_of_play _ _ reentryActions (by rfl), by decide, by decide,
    rfl, rfl, rfl, rfl, rfl, rfl⟩

end JobScheduler
