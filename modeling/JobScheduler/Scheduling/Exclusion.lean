/-
  JobScheduler.Scheduling.Exclusion
  ─────────────────────────────────
  The lock `scheduler:tick`.  Its owner is `scheduler-<pid>`, so it is re-entrant for
  every tick of every process with that pid.  As long as no tick acquires it over
  another one of its own pid, and ticks are done within the lease, the lock excludes:
  one tick at a time, the last that acquired it.
-/
import JobScheduler.Scheduling.Dispatch
import JobScheduler.Execution.Locking

namespace JobScheduler

open Relational Transition Succession

/-! ## §1. Time and re-entrance. -/

/-- When client `k` acquired the lock of the scheduler last. -/
def acquiredAt (cfg : Config) (tr : List (Sys × Action)) (k : Nat) : Option Timestamp :=
  ((tr.filterMap (fun p => p.2.takesTick cfg p.1)).filter (fun q => q.1 == k)).getLast?.map Prod.snd

/-- Every tick that has not released the lock is within the lease it acquired. -/
def Sys.ticksOnTime (cfg : Config) (before : List (Sys × Action)) (s : Sys) : Bool :=
  s.clients.all (fun k c => !c.proc.ticking ||
    (acquiredAt cfg before k).all (fun since => decide (s.clock < since + Tick.lockTtlMs)))

/-- No tick runs longer than the lease. -/
def WithinLease (cfg : Config) (tr : List (Sys × Action)) : Prop :=
  AtEach (fun before p => p.1.ticksOnTime cfg before = true) tr

instance (cfg : Config) (tr : List (Sys × Action)) : Decidable (WithinLease cfg tr) :=
  inferInstanceAs (Decidable (AtEach _ tr))

/-- The client is a tick of a process with this pid that has not released the lock. -/
def Proc.ticksFor (processId : Nat) : Proc → Bool
  | .tick t => t.pc.critical && decide (t.processId = processId)
  | _ => false

/-- The acquire is next. -/
def Tick.acquiring (t : Tick) : Bool :=
  match t.pc with
  | .acquire => true
  | _ => false

/-- The action carries out the acquire of a tick while another one of a process with the
same pid has not released the lock. -/
def Action.reentersTick (cfg : Config) (s : Sys) (a : Action) : Bool :=
  (a.carries cfg s).any (fun p => p.2.acquiring &&
    !s.clients.all (fun _ c => !c.proc.ticksFor p.2.processId))

/-- At most one tick is between a successful acquire and its release. -/
def Sys.Exclusive (s : Sys) : Prop :=
  ∀ k l t u, s.proc k = some (.tick t) → s.proc l = some (.tick u) →
    t.pc.critical = true → u.pc.critical = true → k = l

/-! ## §2. The lock row of the scheduler. -/

/-- What a statement does to the lock row of the scheduler. -/
inductive TickLockChange (env : Env) (db : Db) :
    Proc → Option DistributedLock → Option DistributedLock → Prop
  | same (p : Proc) (o : Option DistributedLock) : TickLockChange env db p o o
  | acquired (t : Tick) (o : Option DistributedLock) (hpc : t.pc = .acquire) (hf : env.fails = false)
      (hacq : t.acquires env db = true) :
      TickLockChange env db (.tick t) o (some
        { ownerId := t.owner, expiresAt := env.now + Tick.lockTtlMs, acquiredAt := env.now })
  | released (t : Tick) (o : Option DistributedLock) (hpc : t.pc = .release) :
      TickLockChange env db (.tick t) o none

section
variable {cfg : Config} {ctx : Ctx} {env : Env} {db db' : Db}

/-- A statement of a tick that is not on `distributed_locks` leaves the table alone. -/
theorem Tick.effect_locks (env : Env) (t : Tick) (db : Db) (h₁ : t.pc ≠ .acquire)
    (h₂ : t.pc ≠ .release) : (t.effect env db).distributedLocks = db.distributedLocks := by
  unfold Tick.effect
  split <;> first | rfl | contradiction | (split <;> rfl)

/-- What a statement of a tick does to the lock of the ticks. -/
theorem Tick.step_tickLock {t t' : Tick} (h : t.step cfg ctx env db = some (db', t')) :
    TickLockChange env db (.tick t) (db.distributedLocks.lookup .schedulerTick)
      (db'.distributedLocks.lookup .schedulerTick) := by
  obtain ⟨_, ⟨_, rfl, _⟩ | ⟨hacc, rfl, _⟩⟩ := Tick.step_cases h
  · exact .same _ _
  by_cases hacq : t.pc = .acquire
  · have heff : (t.effect env db).distributedLocks
        = (acquireDistributedLock env.now .schedulerTick t.owner lockTtlMs db.distributedLocks).1 := by
      simp [Tick.effect, hacq, Db.setLocks]
    rw [heff]
    cases hok : t.acquires env db with
    | true =>
        rw [acquire_true hok]
        -- ON CONFLICT DO UPDATE writes the whole row
        exact .acquired t _ hacq (Bool.or_eq_false_iff.mp hacc).1 hok
    | false =>
        rw [(acquire_false hok).1]
        exact .same _ _
  by_cases hrel : t.pc = .release
  · have heff : (t.effect env db).distributedLocks
        = releaseDistributedLock .schedulerTick t.owner db.distributedLocks := by
      simp [Tick.effect, hrel, Db.setLocks]
    rw [heff, release_self]
    cases hl : db.distributedLocks.lookup .schedulerTick with
    | none => exact .same _ _
    | some held =>
        by_cases ho : held.ownerId = t.owner
        -- the DELETE names the owner, so the row of another one stays
        · rw [Option.filter_some, if_neg (by simpa using ho)]
          exact .released t _ hrel
        · rw [Option.filter_some, if_pos (by simpa using ho)]
          exact .same _ _
  rw [t.effect_locks env db hacq hrel]
  exact .same _ _

/-- `executeJob` leaves the lock of the ticks alone. -/
theorem Exec.step_tickLock {e e' : Exec} (h : e.step cfg ctx env db = some (db', e')) :
    db'.distributedLocks.lookup .schedulerTick = db.distributedLocks.lookup .schedulerTick := by
  obtain ⟨_, ⟨_, rfl, _⟩ | ⟨_, rfl, _⟩⟩ := Exec.step_cases h
  · rfl
  by_cases hacq : e.pc = .acquire
  · simp only [Exec.effect, hacq, Db.setLocks]
    -- `lock:job:<id>` is another key
    exact acquire_other _ _ _ _ (by simp [Exec.lockKey])
  by_cases hrel : e.pc = .release
  · simp only [Exec.effect, hrel, Db.setLocks]
    exact release_other _ _ (by simp [Exec.lockKey])
  rw [e.effect_locks env db hacq hrel]

/-- **Only acquire and release of ticks touch the lock row of the scheduler.** -/
theorem Proc.step_tickLock {p p' : Proc} (h : p.step cfg ctx env db = some (db', p')) :
    TickLockChange env db p (db.distributedLocks.lookup .schedulerTick)
      (db'.distributedLocks.lookup .schedulerTick) := by
  by_cases htick : ∃ t, p = .tick t
  · obtain ⟨t, rfl⟩ := htick
    obtain ⟨⟨d, t'⟩, ht, heq⟩ := Option.map_eq_some_iff.mp h
    cases heq
    exact Tick.step_tickLock ht
  have hsame : db'.distributedLocks.lookup .schedulerTick
      = db.distributedLocks.lookup .schedulerTick := by
    by_cases hexec : ∃ e, p = .exec e
    · obtain ⟨e, rfl⟩ := hexec
      obtain ⟨⟨d, e'⟩, he, heq⟩ := Option.map_eq_some_iff.mp h
      cases heq
      exact Exec.step_tickLock he
    · rw [Proc.step_distributedLocks h (fun e he => hexec ⟨e, he⟩) (fun t ht => htick ⟨t, ht⟩)]
  rw [hsame]
  exact .same _ _

end

/-! ## §3. The lock excludes. -/

/-- A tick that has not released the lock is the last that acquired it, and the row is
its lease. -/
def Led (holder : Option (Nat × Timestamp)) (s : Sys) : Prop :=
  ∀ k t, s.proc k = some (.tick t) → t.pc.critical = true → ∃ since, holder = some (k, since) ∧
    s.db.distributedLocks.lookup .schedulerTick
      = some { ownerId := t.owner, expiresAt := since + Tick.lockTtlMs, acquiredAt := since }

theorem led_atRest (clock : Timestamp) (db : Db) : Led none (Sys.atRest clock db) := by
  intro k t hk
  simp at hk

/-- Led by one tick, no two are in the critical part. -/
theorem Led.exclusive {holder : Option (Nat × Timestamp)} {s : Sys} (hL : Led holder s) :
    s.Exclusive := by
  intro k l t u hk hl ht hu
  obtain ⟨_, hholder, _⟩ := hL k t hk ht
  obtain ⟨_, hholder', _⟩ := hL l u hl hu
  rw [hholder] at hholder'
  cases hholder'
  rfl

section
variable {cfg : Config} {s s' : Sys} {a : Action} {holder : Option (Nat × Timestamp)} {k : Nat}
  {env : Env} {t : Tick}

/-- The state after a statement of client `k`. -/
theorem run_now (h : step cfg s (.run k env) = some s') : env.now ≤ s.clock := by
  cases stepped h with
  | run _ _ _ _ _ _ hnow _ => exact hnow

theorem reentersTick_iff : a.reentersTick cfg s = true ↔ ∃ k env t l u,
    a = .run k env ∧ s.proc k = some (.tick t) ∧ t.pc = .acquire ∧ env.fails = false ∧
      s.proc l = some (.tick u) ∧ u.pc.critical = true ∧ u.processId = t.processId := by
  simp only [Action.reentersTick, Option.any_eq_true, Prod.exists, carries_eq_some,
    Bool.and_eq_true]
  constructor
  · rintro ⟨env, t, ⟨k, rfl, hk, hacc⟩, hacq, hall⟩
    have hpc : t.pc = .acquire := by
      unfold Tick.acquiring at hacq
      split at hacq
      · assumption
      · cases hacq
    have hsome : ¬ ∀ l p, s.proc l = some p → (!p.ticksFor t.processId) = true := by
      rw [← s.clients_all_iff (fun p => !p.ticksFor t.processId)]
      simpa using hall
    push Not at hsome
    obtain ⟨l, p, hl, hp⟩ := hsome
    cases p with
    | tick u =>
        simp only [Proc.ticksFor, ne_eq, Bool.not_eq_true', Bool.not_eq_false, Bool.and_eq_true,
          decide_eq_true_eq] at hp
        exact ⟨k, env, t, l, u, rfl, hk, hpc, (Bool.or_eq_false_iff.mp hacc).1, hl, hp.1, hp.2⟩
    | _ => simp [Proc.ticksFor] at hp
  · rintro ⟨k, env, t, l, u, rfl, hk, hpc, hf, hl, hcrit, hpid⟩
    refine ⟨env, t, ⟨k, rfl, hk, by simp [hf, Tick.overflows, hpc]⟩, by simp [Tick.acquiring, hpc], ?_⟩
    rw [Bool.not_eq_true']
    by_contra hall
    have hfree := (s.clients_all_iff (fun p => !p.ticksFor t.processId)).mp (by simpa using hall) l _ hl
    simp [Proc.ticksFor, hcrit, hpid] at hfree

/-- A tick is between its acquire and its release since before, or since its acquire. -/
theorem Tick.step_critical {ctx : Ctx} {db db' : Db} {t' : Tick}
    (h : t.step cfg ctx env db = some (db', t')) (hcrit : t'.pc.critical = true) :
    (t.pc.critical = true ∧ db'.distributedLocks = db.distributedLocks ∧ t'.owner = t.owner) ∨
      t.pc = .acquire ∧ env.fails = false ∧ t.acquires env db = true := by
  obtain ⟨_, ⟨_, rfl, rfl⟩ | ⟨hacc, rfl, rfl⟩⟩ := Tick.step_cases h
  · refine .inl ⟨?_, rfl, rfl⟩
    cases hpc : t.pc <;> first | rfl | (simp [Tick.goto, Tick.onThrow, hpc, TickPc.critical] at hcrit)
  · by_cases hacq : t.pc = .acquire
    · cases hok : t.acquires env db with
      | true => exact .inr ⟨hacq, (Bool.or_eq_false_iff.mp hacc).1, rfl⟩
      | false => simp [Tick.goto, Tick.next, hacq, hok, TickPc.critical] at hcrit
    by_cases hrel : t.pc = .release
    · simp [Tick.goto, Tick.next, hrel, TickPc.critical] at hcrit
    refine .inl ⟨?_, t.effect_locks env db hacq hrel, rfl⟩
    cases hpc : t.pc <;> first | rfl | exact absurd hpc hacq |
      (simp [Tick.goto, Tick.next, hpc, TickPc.critical] at hcrit)

/-- A tick that acquires the lock over another one found its lease expired, or re-entered. -/
theorem takes_over (hL : Led holder s) (h : step cfg s (.run k env) = some s')
    (hontime : ∀ l u since, s.proc l = some (.tick u) → u.pc.critical = true →
      holder = some (l, since) → s.clock < since + Tick.lockTtlMs)
    (hr : (Action.run k env).reentersTick cfg s = false)
    (hk : s.proc k = some (.tick t)) (hpc : t.pc = .acquire) (hf : env.fails = false)
    (hacq : t.acquires env s.db = true) {l : Nat} {u : Tick} (hl : s.proc l = some (.tick u)) :
    u.pc.critical = false := by
  by_contra hcrit
  rw [Bool.not_eq_false] at hcrit
  obtain ⟨since, hholder, hrow⟩ := hL l u hl hcrit
  -- the two disjuncts of the WHERE clause of the acquire
  rcases acquire_takes hacq hrow with hexpired | howner
  · have hlive := hontime l u since hl hcrit hholder
    exact absurd (hexpired.trans (run_now h)) (not_le.mpr hlive)
  · have hpid : u.processId = t.processId := by simpa [Tick.owner] using howner
    rw [reentersTick_iff.mpr ⟨k, env, t, l, u, rfl, hk, hpc, hf, hl, hcrit, hpid⟩] at hr
    cases hr

/-- One step keeps the leader, unless its process enters the lock a second time. -/
theorem led_step (hL : Led holder s)
    (hontime : ∀ l u since, s.proc l = some (.tick u) → u.pc.critical = true →
      holder = some (l, since) → s.clock < since + Tick.lockTtlMs)
    (hr : a.reentersTick cfg s = false) (h : step cfg s a = some s') :
    Led ((a.takesTick cfg s).or holder) s' := by
  intro k t' hk hcrit
  cases htakes : a.takesTick cfg s with
  | some taken =>
      -- an acquire is carried out: whoever holds the lock afterwards is the one that took it
      obtain ⟨k₀, now⟩ := taken
      obtain ⟨env, t₀, rfl, hk₀, hf, hpc, hacq, rfl⟩ := takesTick_eq_some.mp htakes
      cases tick_origin h hk with
      | idle hkold _ =>
          have hover := takes_over hL h hontime hr hk₀ hpc hf hacq hkold
          rw [hcrit] at hover
          cases hover
      | started hacquire => rw [hacquire] at hcrit; cases hcrit
      | stepped env' t ha hkt hs =>
          cases ha
          rw [hk₀] at hkt
          cases hkt
          refine ⟨env.now, rfl, ?_⟩
          obtain ⟨_, ⟨hrej, _⟩ | ⟨_, hdb, rfl⟩⟩ := Tick.step_cases hs
          · simp [hf, Tick.overflows, hpc] at hrej
          · rw [hdb]
            simp only [Tick.effect, hpc, Db.setLocks]
            exact acquire_true hacq
  | none =>
      -- no acquire: the holder is the old one, and nobody else touches its row
      rw [Option.none_or]
      cases tick_origin h hk with
      | idle hkold hne =>
          obtain ⟨since, hholder, hrow⟩ := hL k t' hkold hcrit
          refine ⟨since, hholder, ?_⟩
          cases stepped h with
          | wait | start => exact hrow
          | run pid env p p' db' hp _ hstep =>
              have hchange := Proc.step_tickLock hstep
              rw [hrow] at hchange
              rw [Sys.put_db]
              generalize hnew : db'.distributedLocks.lookup .schedulerTick = new at hchange
              cases hchange with
              | same => rfl
              | acquired t _ hpc hf hacq =>
                  rw [takesTick_eq_some.mpr ⟨env, t, rfl, hp, hf, hpc, hacq, rfl⟩] at htakes
                  cases htakes
              | released t _ hpc =>
                  -- only the holder has a release to execute
                  obtain ⟨_, hholder', _⟩ := hL pid t hp (by rw [hpc]; rfl)
                  rw [hholder] at hholder'
                  cases hholder'
                  exact absurd rfl (hne env)
      | started hacquire => rw [hacquire] at hcrit; cases hcrit
      | stepped env t ha hkt hs =>
          subst ha
          rcases Tick.step_critical hs hcrit with ⟨hold, hlocks, howner⟩ | ⟨hpc, hf, hacq⟩
          · obtain ⟨since, hholder, hrow⟩ := hL k t hkt hold
            exact ⟨since, hholder, by rw [hlocks, howner]; exact hrow⟩
          · rw [takesTick_eq_some.mpr ⟨env, t, rfl, hkt, hf, hpc, hacq, rfl⟩] at htakes
            cases htakes

end

section
variable {cfg : Config} {tr : List (Sys × Action)} {s s' : Sys}

/-- The last tick acquired the lock when it did so last. -/
theorem acquiredAt_of_holder {k : Nat} {since : Timestamp}
    (h : tickHolder cfg tr = some (k, since)) : acquiredAt cfg tr k = some since := by
  obtain ⟨init, hinit⟩ := List.getLast?_eq_some_iff.mp h
  rw [acquiredAt, hinit, List.filter_append]
  simp

theorem ticksOnTime_live {before : List (Sys × Action)} (h : s.ticksOnTime cfg before = true) {l : Nat}
    {u : Tick} {since : Timestamp} (hl : s.proc l = some (.tick u)) (hcrit : u.pc.critical = true)
    (hholder : tickHolder cfg before = some (l, since)) : s.clock < since + Tick.lockTtlMs := by
  obtain ⟨c, hc, hp⟩ := Option.map_eq_some_iff.mp hl
  have hlive := (Table.all_iff _ _).mp h l c hc
  simpa [hp, Proc.ticking, hcrit, acquiredAt_of_holder hholder] using hlive

/-- **Along a run** without re-entrance the lock excludes. -/
theorem led_run {clock : Timestamp} {db : Db} (h : SysRun cfg (Sys.atRest clock db) tr s)
    (hlease : WithinLease cfg tr) (hr : ∀ p ∈ tr, p.2.reentersTick cfg p.1 = false) :
    Led (tickHolder cfg tr) s := by
  -- on the run; the lease of the holder covers the time of every step
  induction h with
  | nil => exact led_atRest clock db
  | @snoc tr s s' a hpre hs ih =>
      obtain ⟨hbefore, hnow⟩ := atEach_snoc.mp hlease
      have hL := ih hbefore (fun p hp => hr p (List.mem_append_left _ hp))
      rw [tickHolder_snoc]
      exact led_step hL (fun l u since hl hcrit hholder => ticksOnTime_live hnow hl hcrit hholder)
        (hr (s, a) (List.mem_append_right _ (List.mem_singleton_self _))) hs

/-- A tick that re-enters is the second one. -/
theorem not_exclusive_of_reenters {a : Action} {holder : Option (Nat × Timestamp)} (hL : Led holder s)
    (h : step cfg s a = some s') (hr : a.reentersTick cfg s = true) : ¬ s'.Exclusive := by
  obtain ⟨k, env, t, l, u, rfl, hk, hpc, hf, hl, hcrit, hpid⟩ := reentersTick_iff.mp hr
  obtain ⟨since, _, hrow⟩ := hL l u hl hcrit
  -- the row is a lease of the same owner, so the acquire is let in
  have hacq : t.acquires env s.db = true := by
    by_contra hcon
    obtain ⟨_, held, hheld, _, howner⟩ := acquire_false (by simpa [Tick.acquires] using hcon)
    rw [hrow] at hheld
    cases hheld
    exact howner (by simp [Tick.owner, hpid])
  have hne : l ≠ k := by
    rintro rfl
    rw [hk] at hl
    cases hl
    rw [hpc] at hcrit
    cases hcrit
  intro hexcl
  rcases tick_next h hk with ⟨_, hidle⟩ | ⟨env', t', heq, hk', hstep⟩
  · exact hidle env rfl
  cases heq
  rcases tick_next h hl with ⟨hl', _⟩ | ⟨_, _, heq, _, _⟩
  · refine hne (hexcl l k u t' hl' hk' hcrit ?_)
    obtain ⟨_, ⟨hrej, _⟩ | ⟨_, _, rfl⟩⟩ := Tick.step_cases hstep
    · simp [hf, Tick.overflows, hpc] at hrej
    · simp [Tick.goto, Tick.next, hpc, hacq, TickPc.critical]
  · cases heq
    exact hne rfl

/-- A leader works alone. -/
theorem Led.solo {holder : Option (Nat × Timestamp)} (hL : Led holder s) : Solo holder s := by
  intro k t hk hcrit
  obtain ⟨since, hholder, _⟩ := hL k t hk hcrit
  exact ⟨since, hholder⟩

/-- Ticks that exclude each other do not overlap. -/
theorem nonOverlapping_of_led {clock : Timestamp} {db : Db} (h : SysRun cfg (Sys.atRest clock db) tr s)
    (hlease : WithinLease cfg tr) (hr : ∀ p ∈ tr, p.2.reentersTick cfg p.1 = false) :
    NonOverlapping cfg tr := by
  induction h with
  | nil => exact atEach_nil
  | @snoc tr s s' a hpre hs ih =>
      obtain ⟨hbefore, _⟩ := atEach_snoc.mp hlease
      have hr₀ : ∀ p ∈ tr, p.2.reentersTick cfg p.1 = false :=
        fun p hp => hr p (List.mem_append_left _ hp)
      exact atEach_snoc.mpr ⟨ih hbefore hr₀, (led_run hpre hbefore hr₀).solo.inTurn a⟩

/-- Exclusion in every run within the lease and without a re-entry. -/
theorem exclusive_run {clock : Timestamp} {db : Db} (h : SysRun cfg (Sys.atRest clock db) tr s)
    (hlease : WithinLease cfg tr) (hr : ∀ p ∈ tr, p.2.reentersTick cfg p.1 = false) :
    ∀ p ∈ tr, p.1.Exclusive := by
  induction h with
  | nil => intro p hp; exact absurd hp List.not_mem_nil
  | @snoc tr s s' a hpre hs ih =>
      obtain ⟨hbefore, _⟩ := atEach_snoc.mp hlease
      have hr₀ : ∀ p ∈ tr, p.2.reentersTick cfg p.1 = false :=
        fun p hp => hr p (List.mem_append_left _ hp)
      intro p hp
      rcases List.mem_append.mp hp with hold | hnew
      · exact ih hbefore hr₀ p hold
      · obtain rfl := List.mem_singleton.mp hnew
        exact (led_run hpre hbefore hr₀).exclusive

/-- Exclusion at every moment leaves no room for a re-entry. -/
theorem not_reenters_of_exclusive {clock : Timestamp} {db : Db}
    (h : SysRun cfg (Sys.atRest clock db) tr s) (hlease : WithinLease cfg tr)
    (hall : ∀ p ∈ tr, p.1.Exclusive) (hlast : s.Exclusive) :
    ∀ p ∈ tr, p.2.reentersTick cfg p.1 = false := by
  induction h with
  | nil => intro p hp; exact absurd hp List.not_mem_nil
  | @snoc tr s s' a hpre hs ih =>
      obtain ⟨hbefore, _⟩ := atEach_snoc.mp hlease
      have hr₀ := ih hbefore (fun p hp => hall p (List.mem_append_left _ hp))
        (hall (s, a) (List.mem_append_right _ (List.mem_singleton_self _)))
      intro p hp
      rcases List.mem_append.mp hp with hold | hnew
      · exact hr₀ p hold
      · obtain rfl := List.mem_singleton.mp hnew
        by_contra hcon
        exact not_exclusive_of_reenters (led_run hpre hbefore hr₀) hs (by simpa using hcon) hlast

end

/-- **Mutual exclusion of ticks**, exactly: ticks that are done within the lease exclude each
other when and only when none acquires the lock over another one of its own pid.  Then no
occurrence is dispatched twice, unless an advance is lost. -/
theorem ticks_exclude (cfg : Config) {clock : Timestamp} {db : Db} {tr : List (Sys × Action)} {s : Sys}
    (h : SysRun cfg (Sys.atRest clock db) tr s) (hfk : db.SchedulesRefer) (hlease : WithinLease cfg tr)
    (hcron : ∀ e t n, cfg.cronNext e t = some n → t < n) :
    (((∀ p ∈ tr, p.1.Exclusive) ∧ s.Exclusive) ↔ ∀ p ∈ tr, p.2.reentersTick cfg p.1 = false) ∧
    ((∀ p ∈ tr, p.2.reentersTick cfg p.1 = false) → ∀ id, lost cfg tr id = 0 →
      (dispatchedTimes cfg tr id).Nodup) := by
  refine ⟨⟨fun ⟨hall, hlast⟩ => ?_, fun hr => ⟨?_, (led_run h hlease hr).exclusive⟩⟩,
    fun hr id hlost => ?_⟩
  · exact not_reenters_of_exclusive h hlease hall hlast
  · exact exclusive_run h hlease hr
  · have hA : ¬ Abandoned (tickHolder cfg tr) s id := (led_run h hlease hr).solo.not_abandoned id
    exact (inOrder_run h hfk (nonOverlapping_of_led h hlease hr) hlost hA).nodup hcron

/-- Two ticks of different processes, one after the other: the second one finds the lock
taken and gives up. -/
def twoTicksActions : List Action :=
  .start 0 (.tick 1) :: .start 1 (.tick 2) :: Action.runs 0 { now := 0, fresh := 100 } 3 ++
    .run 1 { now := 0 } :: Action.runs 0 { now := 0, fresh := 100 } 5

theorem ticks_exclude_two :
    let tr := trace (step Config.smallCron) (Sys.atRest 0 Db.smallSchedule) twoTicksActions
    let s := play (step Config.smallCron) (Sys.atRest 0 Db.smallSchedule) twoTicksActions
    (∀ p ∈ tr, p.2.reentersTick Config.smallCron p.1 = false) ∧
    (((∀ p ∈ tr, p.1.Exclusive) ∧ s.Exclusive) ↔
      ∀ p ∈ tr, p.2.reentersTick Config.smallCron p.1 = false) ∧
    ((∀ p ∈ tr, p.2.reentersTick Config.smallCron p.1 = false) → ∀ id,
      lost Config.smallCron tr id = 0 → (dispatchedTimes Config.smallCron tr id).Nodup) :=
  ⟨by decide, ticks_exclude Config.smallCron (run_of_play _ _ _ (by rfl)) Db.smallSchedule_refers
    (by decide) (fun _ t n hn => by cases hn; exact Int.lt_succ t)⟩

/-- Two ticks of processes with the same pid: the second acquire succeeds. -/
def equalPidsActions : List Action :=
  .start 0 (.tick 1) :: .start 1 (.tick 1) :: Action.runs 0 { now := 0 } 3 ++
    Action.runs 1 { now := 0 } 3 ++ [.run 0 { now := 0, fresh := 100 }, .run 1 { now := 0, fresh := 101 }]

theorem equal_pids_overlap : ∃ tr s, SysRun Config.smallCron (Sys.atRest 0 Db.smallSchedule) tr s ∧
    WithinLease Config.smallCron tr ∧ ¬ s.Exclusive ∧ lost Config.smallCron tr 5 = 0 ∧
    ¬ (dispatchedTimes Config.smallCron tr 5).Nodup := by
  refine ⟨_, _, run_of_play (step Config.smallCron) _ equalPidsActions (by rfl), by decide, ?_,
    by rfl, by decide⟩
  intro hexcl
  exact absurd (hexcl 0 1 _ _ rfl rfl rfl rfl) (by decide)

end JobScheduler
