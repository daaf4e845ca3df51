/-
  JobScheduler.Scheduling.Order
  ─────────────────────────────
  The dispatch of one schedule is an INSERT and an UPDATE, each committed on its own.
  What is inserted, advanced and lost is counted in the steps of a run; the difference
  is always what stands between the two statements.  When nothing is lost, the
  occurrences dispatched for a schedule follow each other in the cron order, and the
  row names the next one.
-/
import JobScheduler.Scheduling.Schedules
import JobScheduler.Library.Succession

namespace JobScheduler

open Relational Transition Succession

/-! ## §1. The balance. -/

section
variable {cfg : Config} {s s' : Sys} {a : Action} {id : UUID}

theorem Tick.not_advancing_loop (t : Tick) (rows : List (UUID × ScheduledJob)) :
    (t.goto (loop rows)).advancing id = false := by
  cases rows <;> rfl

/-- One statement of a tick: what is inserted is advanced, lost, or still owed. -/
theorem tick_balance {pid : Nat} {env : Env} {t t' : Tick} {db' : Db} (hS : Scheduled cfg s)
    (hk : s.proc pid = some (.tick t)) (h : t.step cfg s.ctx env s.db = some (db', t')) (id : UUID) :
    (t'.advancing id).toNat + ((Action.run pid env).advances cfg s id).toNat
        + ((Action.run pid env).loses cfg s id).toNat
      = (t.advancing id).toNat + ((Action.run pid env).dispatches cfg s id).isSome.toNat := by
  obtain ⟨_, ⟨hr, _, rfl⟩ | ⟨hacc, _, rfl⟩⟩ := Tick.step_cases h
  · have hnone : (Action.run pid env).carries cfg s = none := by simp [Action.carries, hk, hr]
    -- the catch goes on with the next schedule, so a rejected advance is lost
    have hnew : (t.goto (Tick.onThrow t.pc)).advancing id = false := by
      cases hpc : t.pc <;> first | rfl | exact Tick.not_advancing_loop t _
    simp [Action.advances, Action.loses, Action.dispatches, hnone, hnew, hk, hr]
  · have hsome : (Action.run pid env).carries cfg s = some (env, t) := by
      simp [Action.carries, hk, hacc]
    simp only [Action.advances, Action.loses, Action.dispatches, hsome, hk, hacc, Option.any_some,
      Option.bind_some, Bool.and_false, Bool.or_false]
    cases hpc : t.pc with
    | insertJob i sj rest =>
        obtain ⟨_, hqueue, _⟩ := (hS.copies pid t hk).todo i sj (by simp [hpc, TickPc.todo])
        have hold : t.advancing id = false := by simp [Tick.advancing, hpc]
        have hnext : t.goto (t.next cfg env s.db) = t.goto (Tick.afterInsert cfg i sj rest) := by
          simp [Tick.next, hpc]
        rw [hnext, hold]
        simp only [Tick.inserting, hpc, hqueue, and_true]
        -- after the INSERT the advance is owed, or the cron expression has ended
        unfold Tick.afterInsert
        cases hcron : sj.nextRunAt.bind (cfg.cronNext sj.cronExpression) with
        | none => by_cases hi : i = id <;> simp [hi, hcron, Tick.not_advancing_loop]
        | some nextRun => by_cases hi : i = id <;> simp [hi, hcron, Tick.advancing, Tick.goto]
    | advance i sj nextRun rest => simp [Tick.advancing, Tick.inserting, hpc, Tick.next, Tick.goto]
    | selectDue | notifyDispatched =>
        have hold : t.advancing id = false := by simp [Tick.advancing, hpc]
        simp [Tick.inserting, Tick.next, hpc, Tick.not_advancing_loop, hold]
    | acquire =>
        simp only [Tick.inserting, Tick.next, Tick.advancing, Tick.goto, hpc]
        cases t.acquires env s.db <;> rfl
    | flip =>
        simp only [Tick.inserting, Tick.next, Tick.advancing, Tick.goto, hpc]
        cases Decidable.em (0 < s.db.jobs.count (Tick.flips env.now)) with
        | inl hpos => simp [hpos]
        | inr hzero => simp [hzero]
    | _ => simp [Tick.inserting, Tick.next, Tick.advancing, Tick.goto, hpc]

/-- COUNT over the clients after one of them has moved. -/
theorem count_put (f : Proc → Bool) (s : Sys) (pid : Nat) (db : Db) (p' : Proc) :
    (s.put pid db p').clients.count (fun _ c => f c.proc) + ((s.proc pid).any f).toNat
      = s.clients.count (fun _ c => f c.proc) + (f p').toNat := by
  have hcount := Table.count_insert (fun _ (c : Client) => f c.proc) s.clients pid
    { since := s.clock, proc := p' }
  simp only [Bool.toNat, Bool.cond_eq_ite]
  simpa [Sys.put, Sys.proc, Option.any_map, Function.comp_def] using hcount

/-- **One step of the system** keeps the balance. -/
theorem balance_step (hS : Scheduled cfg s) (h : step cfg s a = some s') (id : UUID) :
    s'.owing id + (a.advances cfg s id).toNat + (a.loses cfg s id).toNat
      = s.owing id + (a.dispatches cfg s id).isSome.toNat := by
  cases stepped h with
  | wait ms => rfl
  | start pid request hfree =>
      have hput := count_put (Proc.owes id) s pid s.db (request.start s.clock)
      have hnew : (request.start s.clock).owes id = false := by cases request <;> rfl
      simp only [hfree, hnew, Option.any_none, Bool.toNat_false, Nat.add_zero] at hput
      exact hput
  | run pid env p p' db' hp hnow hstep =>
      have hput := count_put (Proc.owes id) s pid db' p'
      rw [hp, Option.any_some] at hput
      simp only [Sys.owing]
      by_cases htick : ∃ t, p = .tick t
      · obtain ⟨t, rfl⟩ := htick
        obtain ⟨⟨d, t'⟩, ht, he⟩ := Option.map_eq_some_iff.mp hstep
        obtain ⟨rfl, rfl⟩ : d = db' ∧ .tick t' = p' := Prod.mk.inj he
        have hbal := tick_balance hS hp ht id
        change _ + (t.advancing id).toNat = _ + (t'.advancing id).toNat at hput
        omega
      · have hnone : (Action.run pid env).carries cfg s = none := by
          simp only [Action.carries, hp]
          split
          · rename_i t heq
            exact absurd ⟨t, Option.some.inj heq⟩ htick
          · rfl
        have hold : p.owes id = false := by cases p <;> simp [Proc.owes] at htick ⊢
        have hnew : p'.owes id = false := by
          by_contra hcon
          obtain ⟨t', rfl⟩ : ∃ t', p' = .tick t' := by
            cases p' <;> simp [Proc.owes] at hcon ⊢
          obtain ⟨t, rfl, _⟩ := tick_of_step hstep
          exact htick ⟨t, rfl⟩
        have hlose : (Action.run pid env).loses cfg s id = false := by
          simp only [Action.loses, Action.dispatches, hnone, hp]
          cases p <;> simp at htick ⊢
        simp only [hold, hnew, Bool.toNat_false, Nat.add_zero] at hput
        simp [Action.advances, Action.dispatches, hnone, hlose, hput]

end

/-- **Along a run**: the jobs inserted are those advanced, lost or still owed. -/
theorem balance_run {cfg : Config} {clock : Timestamp} {db : Db} {tr : List (Sys × Action)} {s : Sys}
    (h : SysRun cfg (Sys.atRest clock db) tr s) (hfk : db.SchedulesRefer) (id : UUID) :
    (dispatched cfg tr id).length = advanced cfg tr id + lost cfg tr id + s.owing id := by
  induction h with
  | nil => rfl
  | @snoc tr s s' a hpre hs ih =>
      -- the three counts of one more step
      have hbal := balance_step (scheduled_run hpre hfk) hs id
      have hdisp : (dispatched cfg (tr ++ [(s, a)]) id).length
          = (dispatched cfg tr id).length + (a.dispatches cfg s id).isSome.toNat := by
        unfold dispatched
        rw [List.filterMap_append, List.length_append]
        cases hd : a.dispatches cfg s id <;> simp [hd]
      have hadv : advanced cfg (tr ++ [(s, a)]) id
          = advanced cfg tr id + (a.advances cfg s id).toNat := by
        unfold advanced
        rw [List.countP_append]
        cases hd : a.advances cfg s id <;> simp [hd]
      have hlost : lost cfg (tr ++ [(s, a)]) id = lost cfg tr id + (a.loses cfg s id).toNat := by
        unfold lost
        rw [List.countP_append]
        cases hd : a.loses cfg s id <;> simp [hd]
      omega

/-! ## §2. Ticks that do not overlap. -/

/-- The acquire succeeds. -/
def Tick.taking (env : Env) (db : Db) (t : Tick) : Bool :=
  match t.pc with
  | .acquire => t.acquires env db
  | _ => false

/-- The client that acquires the lock of the scheduler by the action, and when. -/
def Action.takesTick (cfg : Config) (s : Sys) (a : Action) : Option (Nat × Timestamp) :=
  match a with
  | .run k env => if (a.carries cfg s).any (fun p => p.2.taking env s.db) then some (k, env.now) else none
  | _ => none

/-- The tick that acquired the lock last, and when. -/
def tickHolder (cfg : Config) (tr : List (Sys × Action)) : Option (Nat × Timestamp) :=
  (tr.filterMap (fun p => p.2.takesTick cfg p.1)).getLast?

/-- A tick between its acquire and its release goes on only as the last one that
acquired the lock. -/
def Action.inTurn (s : Sys) (holder : Option (Nat × Timestamp)) : Action → Bool
  | .run k _ =>
      match s.proc k with
      | some (.tick t) => !t.pc.critical || holder.any (fun h => h.1 == k)
      | _ => true
  | _ => true

/-- No tick goes on once another one has acquired the lock; it may have been cut
short anywhere. -/
def NonOverlapping (cfg : Config) (tr : List (Sys × Action)) : Prop :=
  AtEach (fun before p => p.2.inTurn p.1 (tickHolder cfg before) = true) tr

/-- A tick between its acquire and its release is the last that acquired the lock. -/
def Solo (holder : Option (Nat × Timestamp)) (s : Sys) : Prop :=
  ∀ k t, s.proc k = some (.tick t) → t.pc.critical = true → ∃ since, holder = some (k, since)

theorem Solo.inTurn {holder : Option (Nat × Timestamp)} {s : Sys} (hS : Solo holder s) (a : Action) :
    a.inTurn s holder = true := by
  cases a with
  | run k env =>
      simp only [Action.inTurn]
      split
      · rename_i t hk
        cases hcrit : t.pc.critical with
        | false => rfl
        | true =>
            obtain ⟨since, hholder⟩ := hS k t hk hcrit
            simp [hholder]
      · rfl
  | _ => rfl

instance (cfg : Config) (tr : List (Sys × Action)) : Decidable (NonOverlapping cfg tr) :=
  inferInstanceAs (Decidable (AtEach _ tr))

theorem tickHolder_snoc (cfg : Config) (tr : List (Sys × Action)) (s : Sys) (a : Action) :
    tickHolder cfg (tr ++ [(s, a)]) = (a.takesTick cfg s).or (tickHolder cfg tr) := by
  unfold tickHolder
  rw [List.filterMap_append, List.getLast?_append]
  cases ha : a.takesTick cfg s <;> simp [ha]

/-- A tick takes the lock by its first statement. -/
theorem takesTick_eq_some {cfg : Config} {s : Sys} {a : Action} {k : Nat} {now : Timestamp} :
    a.takesTick cfg s = some (k, now) ↔ ∃ env t, a = .run k env ∧ s.proc k = some (.tick t) ∧
      env.fails = false ∧ t.pc = .acquire ∧ t.acquires env s.db = true ∧ env.now = now := by
  constructor
  · intro h
    cases a with
    | run pid env =>
        simp only [Action.takesTick, Option.any_eq_true, Option.ite_none_right_eq_some] at h
        obtain ⟨⟨⟨e, t⟩, hc, htaking⟩, heq⟩ := h
        cases heq
        obtain ⟨_, heq, hk, hacc⟩ := carries_eq_some.mp hc
        cases heq
        simp only [Tick.taking] at htaking
        split at htaking
        · rename_i hpc
          exact ⟨env, t, rfl, hk, (Bool.or_eq_false_iff.mp hacc).1, hpc, htaking, rfl⟩
        · cases htaking
    | _ => cases h
  · rintro ⟨env, t, rfl, hk, hfails, hpc, hacq, rfl⟩
    have hc : (Action.run k env).carries cfg s = some (env, t) :=
      carries_eq_some.mpr ⟨k, rfl, hk, by simp [hfails, Tick.overflows, hpc]⟩
    simp [Action.takesTick, hc, Tick.taking, hpc, hacq]

/-- A tick that goes on does not acquire the lock. -/
theorem takesTick_critical (cfg : Config) {s : Sys} {k : Nat} (env : Env) {t : Tick}
    (hk : s.proc k = some (.tick t)) (hcrit : t.pc.critical = true) :
    (Action.run k env).takesTick cfg s = none := by
  refine Option.eq_none_iff_forall_ne_some.mpr (fun taken htaken => ?_)
  obtain ⟨_, u, heq, hu, _, hacquire, _⟩ := takesTick_eq_some.mp htaken
  cases heq
  rw [hk] at hu
  cases hu
  rw [hacquire] at hcrit
  cases hcrit

/-! ## §3. The copies of the last tick are the rows. -/

section
variable {cfg : Config} {s s' : Sys} {a : Action} {id : UUID}

/-- A schedule is advanced by the last UPDATE of its dispatch. -/
theorem advances_eq_true : a.advances cfg s id = true ↔ ∃ k env t sj nextRun rest,
    a = .run k env ∧ s.proc k = some (.tick t) ∧ t.pc = .advance id sj nextRun rest ∧
      (env.fails || t.overflows cfg) = false := by
  simp only [Action.advances, Option.any_eq_true, Prod.exists, carries_eq_some]
  constructor
  · rintro ⟨env, t, ⟨k, rfl, hk, hacc⟩, hadv⟩
    unfold Tick.advancing at hadv
    split at hadv
    · rename_i i sj nextRun rest hpc
      obtain rfl := of_decide_eq_true hadv
      exact ⟨k, env, t, sj, nextRun, rest, rfl, hk, hpc, hacc⟩
    · cases hadv
  · rintro ⟨k, env, t, sj, nextRun, rest, rfl, hk, hpc, hacc⟩
    exact ⟨env, t, ⟨k, rfl, hk, hacc⟩, by simp [Tick.advancing, hpc]⟩

/-- A schedule is dispatched by the INSERT of its job. -/
theorem dispatches_eq_some {sj : ScheduledJob} : a.dispatches cfg s id = some sj ↔ ∃ k env t rest,
    a = .run k env ∧ s.proc k = some (.tick t) ∧ t.pc = .insertJob id sj rest ∧
      sj.queueId ∈ s.db.queues ∧ (env.fails || t.overflows cfg) = false := by
  simp only [Action.dispatches, Option.bind_eq_some_iff, Prod.exists, carries_eq_some]
  constructor
  · rintro ⟨env, t, ⟨k, rfl, hk, hacc⟩, hins⟩
    unfold Tick.inserting at hins
    split at hins
    · rename_i i sj' rest hpc
      split at hins
      · rename_i hcond
        cases hins
        exact ⟨k, env, t, rest, rfl, hk, hcond.1 ▸ hpc, hcond.2, hacc⟩
      · cases hins
    · cases hins
  · rintro ⟨k, env, t, rest, rfl, hk, hpc, hqueue, hacc⟩
    exact ⟨env, t, ⟨k, rfl, hk, hacc⟩, by simp [Tick.inserting, hpc, hqueue]⟩

/-- What one action does to the schedule `id`. -/
inductive RowStep (cfg : Config) (s s' : Sys) (a : Action) (id : UUID) : Prop
  | kept (hrow : s'.db.scheduledJobs.lookup id = s.db.scheduledJobs.lookup id)
      (hadv : a.advances cfg s id = false)
  | created (k : Nat) (env : Env) (r : Submit) (ha : a = .run k env)
      (hk : s.proc k = some (.submit r)) (hpc : r.pc = .insertSchedule) (hid : env.fresh = id)
      (hold : s.db.scheduledJobs.lookup id = none)
      (hnew : s'.db.scheduledJobs.lookup id = some (r.schedule cfg env.now))
  | advanced (k : Nat) (env : Env) (t : Tick) (sj : ScheduledJob) (nextRun : Timestamp)
      (rest : List (UUID × ScheduledJob)) (old : ScheduledJob) (ha : a = .run k env)
      (hk : s.proc k = some (.tick t)) (hpc : t.pc = .advance id sj nextRun rest)
      (hacc : (env.fails || t.overflows cfg) = false)
      (hold : s.db.scheduledJobs.lookup id = some old)
      (hnew : s'.db.scheduledJobs.lookup id
        = some { old with lastRunAt := some env.now, nextRunAt := some nextRun })

/-- What one step does to the row of a schedule. -/
theorem row_step (hS : Scheduled cfg s) (h : step cfg s a = some s') (id : UUID) :
    RowStep cfg s s' a id := by
  cases hadv : a.advances cfg s id with
  | true =>
      obtain ⟨k, env, t, sj, nextRun, rest, rfl, hk, hpc, hacc⟩ := advances_eq_true.mp hadv
      obtain ⟨hid, _⟩ := (hS.copies k t hk).advance id sj nextRun rest hpc
      obtain ⟨old, hold⟩ := Option.isSome_iff_exists.mp (AList.lookup_isSome.mpr hid)
      -- the copy has a row, so the UPDATE hits it
      refine .advanced k env t sj nextRun rest old rfl hk hpc hacc hold ?_
      rcases tick_next h hk with ⟨_, hne⟩ | ⟨env', t', heq, _, hstep⟩
      · exact absurd rfl (hne env)
      cases heq
      obtain ⟨_, ⟨hrej, _⟩ | ⟨_, hdb, _⟩⟩ := Tick.step_cases hstep
      · rw [hacc] at hrej; cases hrej
      · rw [hdb]
        simp [Tick.effect, hpc, Db.updateSchedule, Table.lookup_update, hold]
  | false =>
      rcases step_schedule h id with heq | ⟨k, env, p, rfl, hk, hch⟩
      · exact .kept heq hadv
      generalize hold : s.db.scheduledJobs.lookup id = old at hch
      generalize hnew : s'.db.scheduledJobs.lookup id = new at hch
      cases hch with
      | same => exact .kept (hnew.trans hold.symm) hadv
      | created r hpc hid => exact .created k env r rfl hk hpc hid hold hnew
      | advanced t sj nextRun rest hpc hacc old =>
          have htrue : (Action.run k env).advances cfg s id = true :=
            advances_eq_true.mpr ⟨k, env, t, sj, nextRun, rest, rfl, hk, hpc, hacc⟩
          rw [hadv] at htrue
          cases htrue

/-- An existing row changes only by being advanced. -/
theorem row_kept (hS : Scheduled cfg s) (h : step cfg s a = some s')
    (hadv : a.advances cfg s id = false) {sj : ScheduledJob}
    (hrow : s.db.scheduledJobs.lookup id = some sj) : s'.db.scheduledJobs.lookup id = some sj := by
  cases row_step hS h id with
  | kept heq _ => exact heq.trans hrow
  | created _ _ _ _ _ _ _ hold _ => rw [hrow] at hold; cases hold
  | advanced k env t sj' nextRun rest _ ha hk hpc hacc _ _ =>
      rw [advances_eq_true.mpr ⟨k, env, t, sj', nextRun, rest, ha, hk, hpc, hacc⟩] at hadv
      cases hadv

end

/-- The copies of rows that have not been advanced yet. -/
def TickPc.unadvanced : TickPc → List (UUID × ScheduledJob)
  | .insertJob id sj rest | .advance id sj _ rest => (id, sj) :: rest
  | .publishDispatched _ _ _ rest | .notifyDispatched _ _ _ rest => rest
  | _ => []

@[simp] theorem Tick.loop_unadvanced (rows : List (UUID × ScheduledJob)) :
    (loop rows).unadvanced = rows := by
  cases rows <;> rfl

/-- The copies of the tick that acquired the lock last are the rows. -/
def Current (holder : Option (Nat × Timestamp)) (s : Sys) : Prop :=
  ∀ k t now, s.proc k = some (.tick t) → t.pc.critical = true → holder = some (k, now) →
    ∀ r ∈ t.pc.unadvanced, s.db.scheduledJobs.lookup r.1 = some r.2

/-- The copies that a tick has still to advance are current. -/
theorem Tick.step_unadvanced {cfg : Config} {ctx : Ctx} {env : Env} {t t' : Tick} {db db' : Db}
    (hcur : ∀ r ∈ t.pc.unadvanced, db.scheduledJobs.lookup r.1 = some r.2)
    (h : t.step cfg ctx env db = some (db', t')) :
    ∀ r ∈ t'.pc.unadvanced, db.scheduledJobs.lookup r.1 = some r.2 := by
  obtain ⟨_, ⟨_, _, rfl⟩ | ⟨_, _, rfl⟩⟩ := Tick.step_cases h
  · cases hpc : t.pc <;> simp only [Tick.goto, Tick.onThrow] <;> rw [hpc] at hcur
    case insertJob id sj rest | advance id sj _ rest =>
      rw [Tick.loop_unadvanced]
      exact fun r hr => hcur r (List.mem_cons_of_mem _ hr)
    case publishDispatched _ _ _ rest | notifyDispatched _ _ _ rest =>
      rw [Tick.loop_unadvanced]
      exact hcur
    all_goals exact fun r hr => absurd hr List.not_mem_nil
  · cases hpc : t.pc <;> simp only [Tick.goto, Tick.next, hpc] <;> rw [hpc] at hcur
    case acquire | flip => split <;> exact fun r hr => absurd hr List.not_mem_nil
    case selectDue =>
      rw [Tick.loop_unadvanced]
      exact fun r hr => ((Table.mem_select_iff _ _ _ _).mp hr).1
    case insertJob id sj rest =>
      unfold Tick.afterInsert
      split
      · exact hcur
      · rw [Tick.loop_unadvanced]
        exact fun r hr => hcur r (List.mem_cons_of_mem _ hr)
    case advance id sj nextRun rest => exact fun r hr => hcur r (List.mem_cons_of_mem _ hr)
    case publishDispatched id sj nextRun rest => exact hcur
    case notifyDispatched id sj nextRun rest => rw [Tick.loop_unadvanced]; exact hcur
    all_goals exact fun r hr => absurd hr List.not_mem_nil

section
variable {cfg : Config} {s s' : Sys} {a : Action} {id : UUID} {holder : Option (Nat × Timestamp)}

/-- The tick that advances a row keeps no other copy of it. -/
theorem not_unadvanced_of_advances {k : Nat} {env : Env} {t t' : Tick} (hS : Scheduled cfg s)
    (hk : s.proc k = some (.tick t)) (hs : t.step cfg s.ctx env s.db = some (s'.db, t'))
    (hadv : (Action.run k env).advances cfg s id = true) : id ∉ t'.pc.unadvanced.map Prod.fst := by
  obtain ⟨_, _, u, sj, nextRun, rest, heq, hu, hpc, hacc⟩ := advances_eq_true.mp hadv
  cases heq
  rw [hk] at hu
  cases hu
  obtain ⟨_, ⟨hrej, _⟩ | ⟨_, _, rfl⟩⟩ := Tick.step_cases hs
  · rw [hacc] at hrej; cases hrej
  · simpa [Tick.goto, Tick.next, hpc, TickPc.unadvanced] using
      ((hS.copies k t hk).advance id sj nextRun rest hpc).2.1

theorem holder_of_inTurn {k : Nat} {env : Env} {t : Tick}
    (hturn : (Action.run k env).inTurn s holder = true) (hk : s.proc k = some (.tick t))
    (hcrit : t.pc.critical = true) : ∃ now, holder = some (k, now) := by
  simp only [Action.inTurn, hk, hcrit, Bool.not_true, Bool.false_or, Option.any_eq_true,
    beq_iff_eq] at hturn
  obtain ⟨⟨k', now⟩, rfl, rfl⟩ := hturn
  exact ⟨now, rfl⟩

/-- Only the last tick advances rows. -/
theorem holder_of_advances (hturn : a.inTurn s holder = true) (hadv : a.advances cfg s id = true) :
    ∃ k env now, a = .run k env ∧ holder = some (k, now) := by
  obtain ⟨k, env, t, sj, nextRun, rest, rfl, hk, hpc, _⟩ := advances_eq_true.mp hadv
  obtain ⟨now, hnow⟩ := holder_of_inTurn hturn hk (by rw [hpc]; rfl)
  exact ⟨k, env, now, rfl, hnow⟩

/-- A step in turn keeps the copies of the holder current. -/
theorem current_step (hS : Scheduled cfg s) (hC : Current holder s) (hturn : a.inTurn s holder = true)
    (h : step cfg s a = some s') : Current ((a.takesTick cfg s).or holder) s' := by
  intro k t' now hk hcrit hnow r hr
  cases htakes : a.takesTick cfg s with
  | some taken =>
      -- the tick that has just acquired the lock has no copies yet
      rw [htakes, Option.some_or] at hnow
      cases hnow
      obtain ⟨env, t, rfl, hk₀, hfails, hpc, hacq, _⟩ := takesTick_eq_some.mp htakes
      cases tick_origin h hk with
      | idle _ hne => exact absurd rfl (hne env)
      | started hacquire => rw [hacquire] at hr; exact absurd hr List.not_mem_nil
      | stepped env' t₁ ha hk₁ hs =>
          cases ha
          rw [hk₀] at hk₁
          cases hk₁
          obtain ⟨_, ⟨hrej, _⟩ | ⟨_, _, rfl⟩⟩ := Tick.step_cases hs
          · simp [hfails, Tick.overflows, hpc] at hrej
          · simp [Tick.goto, Tick.next, hpc, hacq, TickPc.unadvanced] at hr
  | none =>
      rw [htakes, Option.none_or] at hnow
      cases tick_origin h hk with
      | idle hk₀ hne =>
          -- an advance would be a step of the holder, which is idle
          refine row_kept hS h ?_ (hC k t' now hk₀ hcrit hnow r hr)
          by_contra hadv
          obtain ⟨k', env, now', rfl, hnow'⟩ := holder_of_advances hturn (by simpa using hadv)
          rw [hnow] at hnow'
          cases hnow'
          exact hne env rfl
      | started hacquire => rw [hacquire] at hr; exact absurd hr List.not_mem_nil
      | stepped env t ha hk₀ hs =>
          subst ha
          refine row_kept hS h ?_ ?_
          · by_contra hadv
            -- the holder advanced the row and keeps no copy of it
            exact not_unadvanced_of_advances hS hk₀ hs (by simpa using hadv)
              (List.mem_map_of_mem hr)
          · refine Tick.step_unadvanced (fun q hq => hC k t now hk₀ ?_ hnow q hq) hs r hr
            cases hpc : t.pc <;> simp [hpc, TickPc.unadvanced] at hq <;> rfl

theorem current_run {clock : Timestamp} {db : Db} {tr : List (Sys × Action)}
    (h : SysRun cfg (Sys.atRest clock db) tr s) (hfk : db.SchedulesRefer)
    (hno : NonOverlapping cfg tr) : Current (tickHolder cfg tr) s := by
  induction h with
  | nil => intro k t now hk; simp at hk
  | @snoc tr s s' a hpre hs ih =>
      obtain ⟨hbefore, hturn⟩ := atEach_snoc.mp hno
      rw [tickHolder_snoc]
      exact current_step (scheduled_run hpre hfk) (ih hbefore) hturn hs

end

/-! ## §4. The order of the occurrences. -/

theorem clients_count_ne_zero (s : Sys) (f : Proc → Bool) :
    s.clients.count (fun _ c => f c.proc) ≠ 0 ↔ ∃ k p, s.proc k = some p ∧ f p = true := by
  rw [Table.count_ne_zero]
  unfold Sys.proc
  constructor
  · rintro ⟨k, c, hc, hf⟩
    exact ⟨k, c.proc, by simp [hc], hf⟩
  · rintro ⟨k, p, hp, hf⟩
    obtain ⟨c, hc, rfl⟩ := Option.map_eq_some_iff.mp hp
    exact ⟨k, c, hc, hf⟩

/-- A schedule is owed while a tick stands before its advance. -/
theorem owing_ne_zero {s : Sys} {id : UUID} :
    s.owing id ≠ 0 ↔ ∃ k t, s.proc k = some (.tick t) ∧ t.advancing id = true := by
  refine (clients_count_ne_zero s (Proc.owes id)).trans ⟨?_, ?_⟩
  · rintro ⟨k, p, hk, howes⟩
    cases p <;> try cases howes
    case tick t => exact ⟨k, t, hk, howes⟩
  · rintro ⟨k, t, hk, hadv⟩
    exact ⟨k, .tick t, hk, hadv⟩

/-- A tick was cut short between the INSERT of a job for the schedule `id` and the
advance, and another one has acquired the lock since. -/
def Abandoned (holder : Option (Nat × Timestamp)) (s : Sys) (id : UUID) : Prop :=
  ∃ k t, s.proc k = some (.tick t) ∧ t.advancing id = true ∧ ∀ now, holder ≠ some (k, now)

theorem Tick.critical_of_advancing {t : Tick} {id : UUID} (h : t.advancing id = true) :
    t.pc.critical = true := by
  unfold Tick.advancing at h
  split at h
  · rename_i hpc
    rw [hpc]
    rfl
  · cases h

/-- A tick that works alone has abandoned nothing. -/
theorem Solo.not_abandoned {holder : Option (Nat × Timestamp)} {s : Sys} (hS : Solo holder s)
    (id : UUID) : ¬ Abandoned holder s id := by
  rintro ⟨k, t, hk, hadv, hnot⟩
  obtain ⟨since, hholder⟩ := hS k t hk (Tick.critical_of_advancing hadv)
  exact hnot since hholder

/-- The client is a tick between its acquire and its release. -/
def Proc.ticking : Proc → Bool
  | .tick t => t.pc.critical
  | _ => false

/-- No tick is between its acquire and its release. -/
def Sys.quiet (s : Sys) : Bool := s.clients.all (fun _ c => !c.proc.ticking)

/-- Quiet means that no tick is in its critical part. -/
theorem quiet_iff {s : Sys} :
    s.quiet = true ↔ ∀ k t, s.proc k = some (.tick t) → t.pc.critical = false := by
  refine (s.clients_all_iff (fun p => !p.ticking)).trans ⟨fun h k t hk => ?_, fun h k p hk => ?_⟩
  · simpa [Proc.ticking] using h k (.tick t) hk
  · cases p <;> try rfl
    case tick t => simpa [Proc.ticking] using h k t hk

theorem owing_of_quiet {s : Sys} (h : s.quiet = true) (id : UUID) : s.owing id = 0 := by
  by_contra howing
  obtain ⟨k, t, hk, hadv⟩ := owing_ne_zero.mp howing
  have hcrit := Tick.critical_of_advancing hadv
  rw [quiet_iff.mp h k t hk] at hcrit
  cases hcrit

/-- What was abandoned stays so. -/
theorem abandoned_step {cfg : Config} {s s' : Sys} {a : Action} {id : UUID}
    {holder : Option (Nat × Timestamp)} (hA : Abandoned holder s id) (hturn : a.inTurn s holder = true)
    (h : step cfg s a = some s') : Abandoned ((a.takesTick cfg s).or holder) s' id := by
  obtain ⟨k, t, hk, hadv, hnot⟩ := hA
  rcases tick_next h hk with ⟨hk', hne⟩ | ⟨env, t', rfl, _, _⟩
  · refine ⟨k, t, hk', hadv, fun now heq => ?_⟩
    cases htakes : a.takesTick cfg s with
    | none => rw [htakes, Option.none_or] at heq; exact hnot now heq
    | some taken =>
        rw [htakes, Option.some_or] at heq
        cases heq
        obtain ⟨env, _, ha, _⟩ := takesTick_eq_some.mp htakes
        exact hne env ha
  -- the tick that was cut short would have to hold the lock
  · obtain ⟨now, heq⟩ := holder_of_inTurn hturn hk (Tick.critical_of_advancing hadv)
    exact absurd heq (hnot now)

/-- The row of the schedule `id` when it is first there. -/
def firstRow (tr : List (Sys × Action)) (s : Sys) (id : UUID) : Option ScheduledJob :=
  (tr.map Prod.fst ++ [s]).findSome? (fun t => t.db.scheduledJobs.lookup id)

theorem firstRow_snoc (tr : List (Sys × Action)) (s s' : Sys) (a : Action) (id : UUID) :
    firstRow (tr ++ [(s, a)]) s' id = (firstRow tr s id).or (s'.db.scheduledJobs.lookup id) := by
  unfold firstRow
  rw [List.map_append, List.findSome?_append]
  simp

/-- The cron occurrences of the schedule `id` are dispatched one after the other: each
is the successor of the one before, and the row names the next. -/
structure InOrder (cfg : Config) (tr : List (Sys × Action)) (s : Sys) (id : UUID) : Prop where
  absent : s.db.scheduledJobs.lookup id = none →
    dispatchedTimes cfg tr id = [] ∧ firstRow tr s id = none
  unset : ∀ row, s.db.scheduledJobs.lookup id = some row → row.nextRunAt = none →
    dispatchedTimes cfg tr id = []
  walk : ∀ row w, s.db.scheduledJobs.lookup id = some row → row.nextRunAt = some w →
    ∃ before, dispatchedTimes cfg tr id = before ++ (if s.owing id = 0 then [] else [w]) ∧
      Walk (cfg.cronNext row.cronExpression) (before ++ [w]) ∧
      (before ++ [w]).head? = (firstRow tr s id).bind (·.nextRunAt)

section
variable {cfg : Config} {tr : List (Sys × Action)} {s s' : Sys} {a : Action} {id : UUID}
  {holder : Option (Nat × Timestamp)}

theorem dispatchedTimes_snoc : dispatchedTimes cfg (tr ++ [(s, a)]) id
    = dispatchedTimes cfg tr id ++ ((a.dispatches cfg s id).bind (·.nextRunAt)).toList := by
  unfold dispatchedTimes dispatched
  rw [List.filterMap_append, List.filterMap_append]
  cases ha : a.dispatches cfg s id with
  | none => simp [ha]
  | some sj => cases hv : sj.nextRunAt <;> simp [ha, hv]

theorem Scheduled.mem_of_advancing {k : Nat} {t : Tick} (hS : Scheduled cfg s)
    (hk : s.proc k = some (.tick t)) (hadv : t.advancing id = true) : id ∈ s.db.scheduledJobs := by
  unfold Tick.advancing at hadv
  split at hadv
  · rename_i i sj nextRun rest hpc
    obtain rfl := of_decide_eq_true hadv
    exact ((hS.copies k t hk).advance i sj nextRun rest hpc).1
  · cases hadv

/-- What the last tick works on. -/
theorem working_of_owing (hA : ¬ Abandoned holder s id) (h : s.owing id ≠ 0) :
    ∃ k t now, holder = some (k, now) ∧ s.proc k = some (.tick t) ∧ t.advancing id = true := by
  obtain ⟨k, t, hk, hadv⟩ := owing_ne_zero.mp h
  by_contra hcon
  exact hA ⟨k, t, hk, hadv, fun now heq => hcon ⟨k, t, now, heq, hk, hadv⟩⟩

/-- An INSERT of a job: the row names the occurrence, and nothing was owed. -/
theorem inOrder_dispatch {k : Nat} {env : Env} {t : Tick} {sj : ScheduledJob}
    {rest : List (UUID × ScheduledJob)} (hS : Scheduled cfg s) (hC : Current holder s)
    (hturn : (Action.run k env).inTurn s holder = true) (hA : ¬ Abandoned holder s id)
    (hk : s.proc k = some (.tick t)) (hpc : t.pc = .insertJob id sj rest) :
    s.db.scheduledJobs.lookup id = some sj ∧ s.owing id = 0 ∧ ∃ v, sj.nextRunAt = some v := by
  obtain ⟨now, hholder⟩ := holder_of_inTurn hturn hk (by rw [hpc]; rfl)
  refine ⟨hC k t now hk (by rw [hpc]; rfl) hholder (id, sj) (by simp [hpc, TickPc.unadvanced]), ?_, ?_⟩
  · by_contra howing
    obtain ⟨k', t', _, hholder', hk', hadv⟩ := working_of_owing hA howing
    rw [hholder] at hholder'
    cases hholder'
    rw [hk] at hk'
    cases hk'
    simp [Tick.advancing, hpc] at hadv
  · obtain ⟨_, _, v, hv, _⟩ := (hS.copies k t hk).todo id sj (by simp [hpc, TickPc.todo])
    exact ⟨v, hv⟩

theorem Tick.unadvanced_of_advancing {t : Tick} (h : t.advancing id = true) :
    id ∈ t.pc.unadvanced.map Prod.fst := by
  unfold Tick.advancing at h
  split at h
  · rename_i i _ _ _ hpc
    obtain rfl := of_decide_eq_true h
    simp [hpc, TickPc.unadvanced]
  · cases h

/-- An UPDATE of the row: the copy is the row, and nothing is owed afterwards. -/
theorem inOrder_advance {k : Nat} {env : Env} {t : Tick} {sj : ScheduledJob} {nextRun : Timestamp}
    {rest : List (UUID × ScheduledJob)} (hS : Scheduled cfg s) (hC : Current holder s)
    (hturn : (Action.run k env).inTurn s holder = true)
    (h : step cfg s (.run k env) = some s')
    (hA' : ¬ Abandoned (((Action.run k env).takesTick cfg s).or holder) s' id)
    (hk : s.proc k = some (.tick t)) (hpc : t.pc = .advance id sj nextRun rest)
    (hadv : (Action.run k env).advances cfg s id = true) :
    s.db.scheduledJobs.lookup id = some sj ∧ s'.owing id = 0 ∧
      ∃ v, sj.nextRunAt = some v ∧ cfg.cronNext sj.cronExpression v = some nextRun := by
  obtain ⟨now, hholder⟩ := holder_of_inTurn hturn hk (by rw [hpc]; rfl)
  refine ⟨hC k t now hk (by rw [hpc]; rfl) hholder (id, sj) (by simp [hpc, TickPc.unadvanced]), ?_, ?_⟩
  · by_contra howing
    obtain ⟨k', t', now', hholder', hk', hadv'⟩ := working_of_owing hA' howing
    have hnone := takesTick_critical cfg env hk (by rw [hpc]; rfl)
    rw [hnone, Option.none_or, hholder] at hholder'
    cases hholder'
    rcases tick_next h hk with ⟨_, hne⟩ | ⟨env', t₁, heq, hk₁, hstep⟩
    · exact hne env rfl
    · cases heq
      rw [hk'] at hk₁
      cases hk₁
      exact not_unadvanced_of_advances hS hk hstep hadv (Tick.unadvanced_of_advancing hadv')
  · obtain ⟨_, _, v, hv, _, hcron⟩ := (hS.copies k t hk).advance id sj nextRun rest hpc
    exact ⟨v, hv, hcron⟩

/-- Once the row is there, the first row is known. -/
theorem firstRow_append {rest : List (Sys × Action)} {row : ScheduledJob}
    (hrow : s.db.scheduledJobs.lookup id = some row) :
    firstRow (tr ++ (s, a) :: rest) s' id = firstRow tr s id := by
  have hsome : (firstRow tr s id).isSome = true := by
    unfold firstRow
    rw [List.findSome?_append]
    simp [hrow]
  have hsplit : firstRow (tr ++ (s, a) :: rest) s' id
      = (firstRow tr s id).or ((rest.map Prod.fst ++ [s']).findSome?
          (fun t => t.db.scheduledJobs.lookup id)) := by
    unfold firstRow
    rw [← List.findSome?_append]
    simp
  rw [hsplit]
  exact Option.or_of_isSome hsome

/-- A job is inserted for the occurrence the row names. -/
theorem InOrder.dispatch {row : ScheduledJob} {v : Timestamp} (hI : InOrder cfg tr s id)
    (hrow : s.db.scheduledJobs.lookup id = some row) (hv : row.nextRunAt = some v)
    (howing : s.owing id = 0) (hdisp : a.dispatches cfg s id = some row)
    (hrow' : s'.db.scheduledJobs.lookup id = some row) (howing' : s'.owing id = 1) :
    InOrder cfg (tr ++ [(s, a)]) s' id where
  absent hnone := by rw [hrow'] at hnone; cases hnone
  unset r hr hw := by
    rw [hrow'] at hr
    cases hr
    rw [hv] at hw
    cases hw
  walk r w hr hw := by
    rw [hrow'] at hr
    cases hr
    rw [hv] at hw
    cases hw
    obtain ⟨before, htimes, hchain, hhead⟩ := hI.walk row v hrow hv
    refine ⟨before, ?_, hchain, by rw [firstRow_append hrow]; exact hhead⟩
    rw [dispatchedTimes_snoc, htimes, hdisp, howing, howing']
    simp [hv]

/-- The row is advanced to the successor of the occurrence it named. -/
theorem InOrder.advance {row new : ScheduledJob} {v nextRun : Timestamp} (hI : InOrder cfg tr s id)
    (hrow : s.db.scheduledJobs.lookup id = some row) (hv : row.nextRunAt = some v)
    (howing : s.owing id ≠ 0) (hdisp : a.dispatches cfg s id = none)
    (hcron : cfg.cronNext row.cronExpression v = some nextRun)
    (hnew : s'.db.scheduledJobs.lookup id = some new)
    (hexp : new.cronExpression = row.cronExpression) (hnext : new.nextRunAt = some nextRun)
    (howing' : s'.owing id = 0) : InOrder cfg (tr ++ [(s, a)]) s' id where
  absent hnone := by rw [hnew] at hnone; cases hnone
  unset r hr hw := by
    rw [hnew] at hr
    cases hr
    rw [hnext] at hw
    cases hw
  walk r w hr hw := by
    rw [hnew] at hr
    cases hr
    rw [hnext] at hw
    cases hw
    obtain ⟨before, htimes, hchain, hhead⟩ := hI.walk row v hrow hv
    refine ⟨before ++ [v], ?_, ?_, ?_⟩
    · rw [dispatchedTimes_snoc, htimes, hdisp, howing', if_neg howing]
      simp
    · rw [hexp]
      exact hchain.snoc hcron
    · rw [firstRow_append hrow, ← hhead]
      cases before <;> rfl

/-- A new row starts with nothing dispatched. -/
theorem InOrder.create {new : ScheduledJob} (hI : InOrder cfg tr s id)
    (hold : s.db.scheduledJobs.lookup id = none) (hdisp : a.dispatches cfg s id = none)
    (hnew : s'.db.scheduledJobs.lookup id = some new) (howing' : s'.owing id = 0) :
    InOrder cfg (tr ++ [(s, a)]) s' id := by
  obtain ⟨hempty, hno⟩ := hI.absent hold
  have htimes : dispatchedTimes cfg (tr ++ [(s, a)]) id = [] := by
    rw [dispatchedTimes_snoc, hempty, hdisp]
    rfl
  refine ⟨fun hnone => ?_, fun _ _ _ => htimes, fun r w hr hw => ⟨[], ?_, ?_, ?_⟩⟩
  · rw [hnew] at hnone; cases hnone
  · rw [htimes, howing']; rfl
  · exact walk_singleton _ w
  · rw [firstRow_snoc, hno, hr]
    exact hw.symm

/-- A step that leaves the schedule alone keeps its order. -/
theorem InOrder.keep (hI : InOrder cfg tr s id)
    (hrow : s'.db.scheduledJobs.lookup id = s.db.scheduledJobs.lookup id)
    (hdisp : a.dispatches cfg s id = none) (howing : s'.owing id = s.owing id) :
    InOrder cfg (tr ++ [(s, a)]) s' id := by
  have htimes : dispatchedTimes cfg (tr ++ [(s, a)]) id = dispatchedTimes cfg tr id := by
    rw [dispatchedTimes_snoc, hdisp]
    simp
  refine ⟨fun hnone => ?_, fun r hr hw => ?_, fun r w hr hw => ?_⟩
  · obtain ⟨hempty, hno⟩ := hI.absent (hrow ▸ hnone)
    exact ⟨htimes.trans hempty, by rw [firstRow_snoc, hno, hnone]; rfl⟩
  · exact htimes.trans (hI.unset r (hrow ▸ hr) hw)
  · rw [htimes, howing, firstRow_append (hrow ▸ hr)]
    exact hI.walk r w (hrow ▸ hr) hw

/-- **One step of the system** keeps the order, as long as nothing is lost. -/
theorem inOrder_step (hS : Scheduled cfg s) (hC : Current holder s) (hturn : a.inTurn s holder = true)
    (h : step cfg s a = some s') (hA : ¬ Abandoned holder s id)
    (hA' : ¬ Abandoned ((a.takesTick cfg s).or holder) s' id) (hlost : a.loses cfg s id = false)
    (hI : InOrder cfg tr s id) : InOrder cfg (tr ++ [(s, a)]) s' id := by
  have hbal := balance_step hS h id
  rw [hlost, Bool.toNat_false, Nat.add_zero] at hbal
  cases row_step hS h id with
  | kept heq hadv =>
      rw [hadv, Bool.toNat_false, Nat.add_zero] at hbal
      cases hdisp : a.dispatches cfg s id with
      | none => exact hI.keep heq hdisp (by simpa [hdisp] using hbal)
      | some sj =>
          obtain ⟨k, env, t, rest, rfl, hk, hpc, _, _⟩ := dispatches_eq_some.mp hdisp
          -- an INSERT: the balance owes the advance from here on
          obtain ⟨hrow, howing, v, hv⟩ := inOrder_dispatch hS hC hturn hA hk hpc
          exact hI.dispatch hrow hv howing hdisp (heq.trans hrow) (by simpa [hdisp, howing] using hbal)
  | created k env r ha hk hpc hid hold hnew =>
      subst ha
      have hnone : (Action.run k env).carries cfg s = none := by simp [Action.carries, hk]
      have hdisp : (Action.run k env).dispatches cfg s id = none := by simp [Action.dispatches, hnone]
      -- nothing is owed for a schedule that is not there
      have howing : s.owing id = 0 := by
        by_contra hcon
        obtain ⟨k', t, hk', hadv⟩ := owing_ne_zero.mp hcon
        have hmem := hS.mem_of_advancing hk' hadv
        rw [← AList.lookup_isSome, hold] at hmem
        cases hmem
      refine hI.create hold hdisp hnew ?_
      simpa [Action.advances, hnone, hdisp, howing] using hbal
  | advanced k env t sj nextRun rest old ha hk hpc hacc hold hnew =>
      subst ha
      have hadv : (Action.run k env).advances cfg s id = true :=
        advances_eq_true.mpr ⟨k, env, t, sj, nextRun, rest, rfl, hk, hpc, hacc⟩
      obtain ⟨hrow, howing', v, hv, hcron⟩ := inOrder_advance hS hC hturn h hA' hk hpc hadv
      rw [hrow] at hold
      cases hold
      have hdisp : (Action.run k env).dispatches cfg s id = none := by
        refine Option.eq_none_iff_forall_ne_some.mpr (fun sj' hsj => ?_)
        obtain ⟨_, _, u, _, heq, hu, hinsert, _⟩ := dispatches_eq_some.mp hsj
        cases heq
        rw [hk] at hu
        cases hu
        rw [hpc] at hinsert
        cases hinsert
      -- the advance settles what the INSERT has owed
      refine hI.advance hrow hv ?_ hdisp hcron hnew rfl rfl howing'
      rw [hadv, hdisp, howing'] at hbal
      simp at hbal
      omega

/-- **Along a run** of ticks that do not overlap the order is kept, unless an advance was
lost or a tick was cut short before it. -/
theorem inOrder_run {clock : Timestamp} {db : Db} (h : SysRun cfg (Sys.atRest clock db) tr s)
    (hfk : db.SchedulesRefer) (hno : NonOverlapping cfg tr) (hlost : lost cfg tr id = 0)
    (hA : ¬ Abandoned (tickHolder cfg tr) s id) : InOrder cfg tr s id := by
  induction h with
  | nil =>
      refine ⟨fun hnone => ⟨rfl, by simpa [firstRow] using hnone⟩, fun _ _ _ => rfl, ?_⟩
      intro row w hrow hw
      exact ⟨[], rfl, walk_singleton _ w, by simp [firstRow, hrow, hw]⟩
  | @snoc tr s s' a hpre hs ih =>
      obtain ⟨hbefore, hturn⟩ := atEach_snoc.mp hno
      obtain ⟨hlost₀, hlosta⟩ : lost cfg tr id = 0 ∧ a.loses cfg s id = false := by
        unfold lost at hlost ⊢
        rw [List.countP_append, Nat.add_eq_zero_iff] at hlost
        exact ⟨hlost.1, by simpa using hlost.2⟩
      rw [tickHolder_snoc] at hA
      -- a tick that was cut short stays so, and there is none at the end
      have hA₀ : ¬ Abandoned (tickHolder cfg tr) s id := fun hcon =>
        hA (abandoned_step hcon hturn hs)
      exact inOrder_step (scheduled_run hpre hfk) (current_run hpre hfk hbefore) hturn hs hA₀ hA hlosta
        (ih hbefore hlost₀ hA₀)

end

end JobScheduler
