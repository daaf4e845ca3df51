/-
  JobScheduler.Scheduling.Schedules
  ─────────────────────────────────
  The table `scheduled_jobs` and the ticks that dispatch from it.  A tick SELECTs
  the due rows once and works through its copies, one INSERT and one UPDATE for
  each; a submission inserts rows; nobody else writes the table.
-/
import JobScheduler.Claiming.Capacity

namespace JobScheduler

open Relational Transition

/-! ## §1. Steps of a tick. -/

section
variable {cfg : Config} {ctx : Ctx} {env : Env} {db db' : Db}

theorem tick_of_step {p : Proc} {t' : Tick} (h : p.step cfg ctx env db = some (db', .tick t')) :
    ∃ t, p = .tick t ∧ t.step cfg ctx env db = some (db', t') := by
  cases p <;> obtain ⟨⟨d, q⟩, hq, he⟩ := Option.map_eq_some_iff.mp h <;>
    simp only [Prod.mk.injEq, reduceCtorEq, and_false] at he
  case tick t => exact ⟨t, rfl, he.1 ▸ Proc.tick.inj he.2 ▸ hq⟩
  case claim c =>
    unfold Claim.toProc at he
    split at he <;> simp at he

end

section
variable {cfg : Config} {s s' : Sys} {a : Action} {k : Nat}

/-- The ticks of the next state: an idle one, one that has just started, or the one
that took the step. -/
inductive TickOrigin (cfg : Config) (s s' : Sys) (a : Action) (k : Nat) (t' : Tick) : Prop
  | idle (hk : s.proc k = some (.tick t')) (hne : ∀ env, a ≠ .run k env)
  | started (hpc : t'.pc = .acquire)
  | stepped (env : Env) (t : Tick) (ha : a = .run k env) (hk : s.proc k = some (.tick t))
      (hs : t.step cfg s.ctx env s.db = some (s'.db, t'))

theorem tick_origin {t' : Tick} (h : step cfg s a = some s') (hk : s'.proc k = some (.tick t')) :
    TickOrigin cfg s s' a k t' := by
  cases origin h hk with
  | idle hk₀ hne => exact .idle hk₀ hne
  | started request _ hp _ => cases request <;> cases hp; exact .started rfl
  | moved env p ha hk₀ hs =>
      obtain ⟨t, rfl, ht⟩ := tick_of_step hs
      exact .stepped env t ha hk₀ ht

/-- A tick idles or executes its next statement. -/
theorem tick_next {t : Tick} (h : step cfg s a = some s') (hk : s.proc k = some (.tick t)) :
    (s'.proc k = some (.tick t) ∧ ∀ env, a ≠ .run k env) ∨
      ∃ env t', a = .run k env ∧ s'.proc k = some (.tick t') ∧
        t.step cfg s.ctx env s.db = some (s'.db, t') := by
  rcases proc_next h hk with hidle | ⟨env, p', ha, hk', hstep⟩
  · exact .inl hidle
  · obtain ⟨⟨d, t'⟩, ht, he⟩ := Option.map_eq_some_iff.mp hstep
    obtain ⟨rfl, rfl⟩ := Prod.mk.inj he
    exact .inr ⟨env, t', ha, hk', ht⟩

end

/-- Between the acquire and the release. -/
def TickPc.critical : TickPc → Bool
  | .acquire | .returned => false
  | _ => true

/-- The copies of due rows that are still to be dispatched. -/
def TickPc.todo : TickPc → List (UUID × ScheduledJob)
  | .insertJob id sj rest => (id, sj) :: rest
  | .advance _ _ _ rest | .publishDispatched _ _ _ rest | .notifyDispatched _ _ _ rest => rest
  | _ => []

@[simp] theorem Tick.loop_todo (rows : List (UUID × ScheduledJob)) : (loop rows).todo = rows := by
  cases rows <;> rfl

/-! ## §2. The rows of `scheduled_jobs`. -/

/-- `ScheduleChange cfg env id p old new`: the step of client `p` turns the schedule
`id` from `old` into `new`. -/
inductive ScheduleChange (cfg : Config) (env : Env) (id : UUID) :
    Proc → Option ScheduledJob → Option ScheduledJob → Prop
  | same (p : Proc) (o : Option ScheduledJob) : ScheduleChange cfg env id p o o
  | created (r : Submit) (hpc : r.pc = .insertSchedule) (hid : env.fresh = id) :
      ScheduleChange cfg env id (.submit r) none (some (r.schedule cfg env.now))
  | advanced (t : Tick) (sj : ScheduledJob) (nextRun : Timestamp) (rest : List (UUID × ScheduledJob))
      (hpc : t.pc = .advance id sj nextRun rest) (hacc : (env.fails || t.overflows cfg) = false)
      (old : ScheduledJob) :
      ScheduleChange cfg env id (.tick t) (some old)
        (some { old with lastRunAt := some env.now, nextRunAt := some nextRun })

section
variable {cfg : Config} {ctx : Ctx} {env : Env} {db db' : Db} {id : UUID}

/-- What a statement of a submission does to one schedule. -/
theorem Submit.step_schedules {r r' : Submit} (h : r.step cfg env db = some (db', r')) :
    ScheduleChange cfg env id (.submit r) (db.scheduledJobs.lookup id)
      (db'.scheduledJobs.lookup id) := by
  by_cases hpc : r.pc = .insertSchedule
  · simp only [Submit.step, hpc] at h
    repeat' split at h
    all_goals cases h
    · exact .same _ _
    · rename_i hfresh
      -- the INSERT takes a primary key that is not there yet
      by_cases hid : id = env.fresh
      · subst hid
        simp only [Db.insertSchedule, AList.lookup_insert]
        rw [AList.lookup_eq_none.mpr hfresh]
        exact .created r hpc rfl
      · simp only [Db.insertSchedule, AList.lookup_insert_ne hid]
        exact .same _ _
  · cases Submit.stepped h with
    | scheduleInserted hpc' => exact absurd hpc' hpc
    | _ => exact .same _ _

/-- What a statement of a tick does to one schedule. -/
theorem Tick.step_schedules {t t' : Tick} (h : t.step cfg ctx env db = some (db', t')) :
    ScheduleChange cfg env id (.tick t) (db.scheduledJobs.lookup id)
      (db'.scheduledJobs.lookup id) := by
  obtain ⟨_, ⟨_, rfl, _⟩ | ⟨hacc, rfl, _⟩⟩ := Tick.step_cases h
  · exact .same _ _
  · cases hpc : t.pc <;> simp only [Tick.effect, hpc] <;> try exact .same _ _
    case insertJob i sj rest => split <;> exact .same _ _
    case advance i sj nextRun rest =>
      -- the UPDATE names the row by its id and keeps the other columns
      simp only [Db.updateSchedule, Table.lookup_update]
      by_cases hid : id = i
      · subst hid
        cases hl : db.scheduledJobs.lookup id with
        | none => exact .same _ _
        | some old => simpa using ScheduleChange.advanced t sj nextRun rest hpc hacc old
      · simpa [hid] using ScheduleChange.same (.tick t) (db.scheduledJobs.lookup id)

/-- **Every statement of every client changes schedules only as `ScheduleChange` says.** -/
theorem Proc.step_schedules {p p' : Proc} (h : p.step cfg ctx env db = some (db', p')) :
    ScheduleChange cfg env id p (db.scheduledJobs.lookup id) (db'.scheduledJobs.lookup id) := by
  cases Proc.stepped h with
  | claim c c' hq => cases Claim.stepped hq <;> exact .same _ _
  | exec e e' hq =>
      obtain ⟨_, ⟨_, rfl, _⟩ | ⟨_, rfl, _⟩⟩ := Exec.step_cases hq
      · exact .same _ _
      · unfold Exec.effect
        split <;> exact .same _ _
  | submit r r' hq => exact Submit.step_schedules hq
  | retry r r' hq => cases Retry.stepped hq <;> exact .same _ _
  | replay r r' hq => cases Replay.stepped hq <;> exact .same _ _
  | cancel r r' hq => cases Cancel.stepped hq <;> exact .same _ _
  | patch r r' hq => cases Patch.stepped hq <;> exact .same _ _
  | tick t t' hq => exact Tick.step_schedules hq

end

/-- What one step does to one schedule. -/
theorem step_schedule {cfg : Config} {s s' : Sys} {a : Action} (h : step cfg s a = some s') (id : UUID) :
    s'.db.scheduledJobs.lookup id = s.db.scheduledJobs.lookup id ∨
    ∃ pid env p, a = .run pid env ∧ s.proc pid = some p ∧
      ScheduleChange cfg env id p (s.db.scheduledJobs.lookup id) (s'.db.scheduledJobs.lookup id) := by
  cases stepped h with
  | wait ms => exact .inl rfl
  | start pid request hfree => exact .inl rfl
  | run pid env p p' db' hp hnow hstep =>
      exact .inr ⟨pid, env, p, rfl, hp, Proc.step_schedules hstep⟩

/-! ## §3. What is dispatched, advanced and lost. -/

/-- The statement of a tick that the action carries out. -/
def Action.carries (cfg : Config) (s : Sys) : Action → Option (Env × Tick)
  | .run pid env =>
      match s.proc pid with
      | some (.tick t) => if env.fails || t.overflows cfg then none else some (env, t)
      | _ => none
  | _ => none

/-- The copy of the schedule `id` whose INSERT of a job is next. -/
def Tick.inserting (db : Db) (id : UUID) (t : Tick) : Option ScheduledJob :=
  match t.pc with
  | .insertJob i sj _ => if i = id ∧ sj.queueId ∈ db.queues then some sj else none
  | _ => none

/-- The next statement is the UPDATE of the schedule `id`. -/
def Tick.advancing (id : UUID) (t : Tick) : Bool :=
  match t.pc with
  | .advance i _ _ _ => decide (i = id)
  | _ => false

/-- The action inserts a job for the schedule `id`, from this copy of its row. -/
def Action.dispatches (cfg : Config) (s : Sys) (id : UUID) (a : Action) : Option ScheduledJob :=
  (a.carries cfg s).bind (fun p => p.2.inserting s.db id)

/-- The action advances the schedule `id`. -/
def Action.advances (cfg : Config) (s : Sys) (id : UUID) (a : Action) : Bool :=
  (a.carries cfg s).any (fun p => p.2.advancing id)

/-- The action drops the advance of the schedule `id` after its job was inserted: the
cron expression has no next occurrence, or the UPDATE is rejected. -/
def Action.loses (cfg : Config) (s : Sys) (id : UUID) (a : Action) : Bool :=
  match a with
  | .run pid env =>
      (a.dispatches cfg s id).any
          (fun sj => (sj.nextRunAt.bind (cfg.cronNext sj.cronExpression)).isNone)
        || (match s.proc pid with
          | some (.tick t) => t.advancing id && (env.fails || t.overflows cfg)
          | _ => false)
  | _ => false

/-- The copies from which jobs were inserted for the schedule `id`, in order. -/
def dispatched (cfg : Config) (tr : List (Sys × Action)) (id : UUID) : List ScheduledJob :=
  tr.filterMap (fun p => p.2.dispatches cfg p.1 id)

/-- The occurrences they were inserted for. -/
def dispatchedTimes (cfg : Config) (tr : List (Sys × Action)) (id : UUID) : List Timestamp :=
  (dispatched cfg tr id).filterMap (·.nextRunAt)

/-- How often the run set the schedule's `next_run_at` forward. -/
def advanced (cfg : Config) (tr : List (Sys × Action)) (id : UUID) : Nat :=
  tr.countP (fun p => p.2.advances cfg p.1 id)

/-- How often the run dropped the advance of the schedule after its job was inserted. -/
def lost (cfg : Config) (tr : List (Sys × Action)) (id : UUID) : Nat :=
  tr.countP (fun p => p.2.loses cfg p.1 id)

/-- The client has inserted a job for the schedule `id` and not advanced it yet. -/
def Proc.owes (id : UUID) : Proc → Bool
  | .tick t => t.advancing id
  | _ => false

/-- How many ticks have inserted a job for the schedule and not advanced it yet. -/
def Sys.owing (s : Sys) (id : UUID) : Nat := s.clients.count (fun _ c => c.proc.owes id)

/-- A statement of a tick that is carried out. -/
theorem carries_eq_some {cfg : Config} {s : Sys} {a : Action} {env : Env} {t : Tick} :
    a.carries cfg s = some (env, t) ↔ ∃ k, a = .run k env ∧ s.proc k = some (.tick t) ∧
      (env.fails || t.overflows cfg) = false := by
  constructor
  · intro h
    cases a with
    | run pid env' =>
        simp only [Action.carries] at h
        split at h
        · rename_i u hp
          split at h
          · cases h
          · rename_i hacc
            cases h
            exact ⟨pid, rfl, hp, by simpa using hacc⟩
        · cases h
    | _ => cases h
  · rintro ⟨k, rfl, hk, hacc⟩
    simp [Action.carries, hk, hacc]

/-! ## §4. The copies of a tick. -/

/-- Foreign key `scheduled_jobs.queue_id`. -/
def Db.SchedulesRefer (db : Db) : Prop :=
  ∀ id sj, db.scheduledJobs.lookup id = some sj → sj.queueId ∈ db.queues

/-- The copies are of different schedules that exist, each due at the time `now`. -/
structure TickPc.Copies (cfg : Config) (now : Timestamp) (db : Db) (pc : TickPc) : Prop where
  todo : ∀ id sj, (id, sj) ∈ pc.todo → id ∈ db.scheduledJobs ∧ sj.queueId ∈ db.queues ∧
    ∃ v, sj.nextRunAt = some v ∧ v ≤ now
  distinct : (pc.todo.map Prod.fst).Nodup
  advance : ∀ id sj nextRun rest, pc = .advance id sj nextRun rest → id ∈ db.scheduledJobs ∧
    id ∉ rest.map Prod.fst ∧
    ∃ v, sj.nextRunAt = some v ∧ v ≤ now ∧ cfg.cronNext sj.cronExpression v = some nextRun

theorem TickPc.copies_none {cfg : Config} {now : Timestamp} {db : Db} {pc : TickPc} (h : pc.todo = [])
    (ha : ∀ id sj nextRun rest, pc ≠ .advance id sj nextRun rest) : pc.Copies cfg now db where
  todo := by simp [h]
  distinct := by simp [h]
  advance id sj nextRun rest hpc := absurd hpc (ha id sj nextRun rest)

theorem TickPc.copies_loop {cfg : Config} {now : Timestamp} {db : Db}
    {rows : List (UUID × ScheduledJob)}
    (h : ∀ id sj, (id, sj) ∈ rows → id ∈ db.scheduledJobs ∧ sj.queueId ∈ db.queues ∧
      ∃ v, sj.nextRunAt = some v ∧ v ≤ now)
    (hd : (rows.map Prod.fst).Nodup) : (Tick.loop rows).Copies cfg now db where
  todo := by simpa using h
  distinct := by simpa using hd
  advance := by cases rows <;> simp [Tick.loop]

/-- The copies of a tick stay good while no row is lost. -/
theorem TickPc.Copies.mono {cfg : Config} {now now' : Timestamp} {db db' : Db} {pc : TickPc}
    (h : pc.Copies cfg now db) (hn : now ≤ now')
    (hs : ∀ id, id ∈ db.scheduledJobs → id ∈ db'.scheduledJobs)
    (hq : ∀ id, id ∈ db.queues → id ∈ db'.queues) : pc.Copies cfg now' db' where
  todo id sj hr := by
    obtain ⟨hid, hqueue, v, hv, hle⟩ := h.todo id sj hr
    exact ⟨hs id hid, hq _ hqueue, v, hv, hle.trans hn⟩
  distinct := h.distinct
  advance id sj nextRun rest hpc := by
    obtain ⟨hid, hrest, v, hv, hle, hcron⟩ := h.advance id sj nextRun rest hpc
    exact ⟨hs id hid, hrest, v, hv, hle.trans hn, hcron⟩

/-- What is left to do. -/
theorem TickPc.Copies.rest {cfg : Config} {now : Timestamp} {db : Db} {pc : TickPc}
    (h : pc.Copies cfg now db) : (Tick.loop pc.todo).Copies cfg now db :=
  TickPc.copies_loop h.todo h.distinct

/-- What is left after the first copy. -/
theorem TickPc.Copies.tail {cfg : Config} {now : Timestamp} {db : Db} {id : UUID} {sj : ScheduledJob}
    {rest : List (UUID × ScheduledJob)} (h : (TickPc.insertJob id sj rest).Copies cfg now db) :
    (Tick.loop rest).Copies cfg now db :=
  TickPc.copies_loop (fun i x hi => h.todo i x (List.mem_cons_of_mem _ hi))
    (List.nodup_cons.mp h.distinct).2

/-- One statement of the tick. -/
theorem Tick.step_copies {cfg : Config} {ctx : Ctx} {env : Env} {t t' : Tick} {db db' : Db}
    {now : Timestamp} (hfk : db.SchedulesRefer) (hn : env.now ≤ now) (hC : t.pc.Copies cfg now db)
    (h : t.step cfg ctx env db = some (db', t')) : t'.pc.Copies cfg now db := by
  obtain ⟨_, ⟨_, _, rfl⟩ | ⟨_, _, rfl⟩⟩ := Tick.step_cases h
  · cases hpc : t.pc <;> simp only [Tick.goto, Tick.onThrow] <;> rw [hpc] at hC
    case insertJob id sj rest => exact hC.tail
    case advance id sj nextRun rest | publishDispatched id sj nextRun rest
      | notifyDispatched id sj nextRun rest => exact hC.rest
    all_goals exact TickPc.copies_none rfl (by simp)
  · cases hpc : t.pc <;> simp only [Tick.goto, Tick.next, hpc] <;> rw [hpc] at hC
    case acquire | flip => split <;> exact TickPc.copies_none rfl (by simp)
    case selectDue =>
      -- the WHERE clause of the SELECT: active, and `next_run_at <= NOW()`
      refine TickPc.copies_loop (fun id sj hr => ?_) (Table.nodup_select _ _)
      obtain ⟨hrow, hdue⟩ := (Table.mem_select_iff _ _ _ _).mp hr
      obtain ⟨v, hv, hle⟩ := (Option.any_eq_true _ _).mp (Bool.and_eq_true_iff.mp hdue).2
      exact ⟨AList.lookup_isSome.mp (by simp [hrow]), hfk id sj hrow, v, hv,
        (of_decide_eq_true hle).trans hn⟩
    case insertJob id sj rest =>
      obtain ⟨hid, hqueue, v, hv, hle⟩ := hC.todo id sj List.mem_cons_self
      unfold Tick.afterInsert
      split
      · rename_i nextRun hcron
        -- `next_run_at` of the copy is what the next run is computed from
        refine ⟨fun i x hi => hC.todo i x (List.mem_cons_of_mem _ hi),
          (List.nodup_cons.mp hC.distinct).2, ?_⟩
        rintro i x n l heq
        cases heq
        exact ⟨hid, (List.nodup_cons.mp hC.distinct).1, v, hv, hle, by simpa [hv] using hcron⟩
      · exact hC.tail
    case advance id sj nextRun rest | publishDispatched id sj nextRun rest =>
      exact ⟨hC.todo, hC.distinct, by simp⟩
    case notifyDispatched id sj nextRun rest => exact hC.rest
    all_goals exact TickPc.copies_none rfl (by simp)

/-- The loops of a submission do not lead back. -/
theorem Submit.nextItem_ne (r : Submit) (items : List JobItem) :
    ¬ (r.nextItem items = .checkDependencies ∨ r.nextItem items = .insertSchedule) := by
  cases items <;> simp [Submit.nextItem]

theorem Submit.nextEdge_ne (r : Submit) (id : UUID) (todo : List UUID) (rest : List JobItem) :
    ¬ (r.nextEdge id todo rest = .checkDependencies ∨ r.nextEdge id todo rest = .insertSchedule) := by
  cases todo with
  | nil => exact r.nextItem_ne rest
  | cons => simp [Submit.nextEdge]

/-- A submission goes on when its queue exists. -/
theorem Submit.step_queue_checked {cfg : Config} {env : Env} {r r' : Submit} {db db' : Db}
    (h : r.step cfg env db = some (db', r'))
    (hpc' : r'.pc = .checkDependencies ∨ r'.pc = .insertSchedule) :
    r'.queueId = r.queueId ∧ (r.queueId ∈ db.queues ∨ r.pc = .checkDependencies) := by
  by_cases hpc : r.pc = .checkQueue
  · simp only [Submit.step, hpc] at h
    (repeat' split at h) <;> cases h
    · rcases hpc' with hpc' | hpc' <;> cases hpc'
    · rename_i hop
      refine ⟨rfl, .inl (AList.lookup_isSome.mp ?_)⟩
      -- the access check joins through the row of the queue
      cases hq : db.queues.lookup r.queueId with
      | none => simp [Db.canOperate, Db.orgOfQueue, hq] at hop
      | some q => rfl
    · rcases hpc' with hpc' | hpc' <;> cases hpc'
  cases Submit.stepped h with
  | queueChecked hq => exact absurd hq hpc
  | dependenciesChecked hdep satisfied _ =>
      obtain ⟨pc, he, _⟩ := Submit.dispatch_eq cfg env.now
        { r with initialStatus := initialJobStatus r.body.type satisfied }
      exact ⟨by rw [he]; rfl, .inr hdep⟩
  | batchInserted _ _ r' _ => exact absurd hpc' (r'.nextItem_ne _)
  | jobInserted _ _ _ _ r' _ => exact absurd hpc' (r'.nextEdge_ne _ _ _)
  | attached => exact absurd hpc' (r.nextEdge_ne _ _ _)
  | _ => rcases hpc' with hpc' | hpc' <;> cases hpc'

/-! ## §5. In every reachable state. -/

/-- Schedules and copies refer to what exists. -/
structure Scheduled (cfg : Config) (s : Sys) : Prop where
  queues : s.db.SchedulesRefer
  submits : ∀ k r, s.proc k = some (.submit r) → r.pc = .checkDependencies ∨ r.pc = .insertSchedule →
    r.queueId ∈ s.db.queues
  copies : ∀ k t, s.proc k = some (.tick t) → t.pc.Copies cfg s.clock s.db

theorem scheduled_atRest (cfg : Config) (clock : Timestamp) {db : Db} (hfk : db.SchedulesRefer) :
    Scheduled cfg (Sys.atRest clock db) where
  queues := hfk
  submits := by intro k r h; simp at h
  copies := by intro k t h; simp at h

section
variable {cfg : Config} {s s' : Sys} {a : Action}

theorem queue_stays (h : step cfg s a = some s') {id : UUID} (hq : id ∈ s.db.queues) :
    id ∈ s'.db.queues := by
  cases stepped h with
  | wait | start => exact hq
  | run pid env p p' db' hp _ hs =>
      rw [← AList.lookup_isSome] at hq ⊢
      rw [Sys.put_db]
      rcases Proc.step_queue hs id with heq | ⟨r, _, _, _, heq⟩
      · rw [heq]; exact hq
      · rw [heq, Option.isSome_map]; exact hq

/-- What no statement changes in a schedule: it is still there, for the same occurrences. -/
structure ScheduledJob.Stays (old new : ScheduledJob) : Prop where
  queueId : new.queueId = old.queueId
  cronExpression : new.cronExpression = old.cronExpression
  isActive : new.isActive = old.isActive
  nextRunAt : old.nextRunAt.isSome = true → new.nextRunAt.isSome = true

theorem ScheduledJob.Stays.refl (sj : ScheduledJob) : sj.Stays sj := ⟨rfl, rfl, rfl, id⟩

theorem ScheduledJob.Stays.trans {old mid new : ScheduledJob} (h : old.Stays mid) (h' : mid.Stays new) :
    old.Stays new where
  queueId := h'.queueId.trans h.queueId
  cronExpression := h'.cronExpression.trans h.cronExpression
  isActive := h'.isActive.trans h.isActive
  nextRunAt hsome := h'.nextRunAt (h.nextRunAt hsome)

/-- No statement deletes a schedule or changes what it dispatches. -/
theorem schedule_stays (h : step cfg s a = some s') {id : UUID} {old : ScheduledJob}
    (hold : s.db.scheduledJobs.lookup id = some old) :
    ∃ new, s'.db.scheduledJobs.lookup id = some new ∧ old.Stays new := by
  rcases step_schedule h id with heq | ⟨_, _, _, _, _, hch⟩
  · exact ⟨old, heq.trans hold, .refl old⟩
  · rw [hold] at hch
    generalize s'.db.scheduledJobs.lookup id = new at hch ⊢
    cases hch with
    | same => exact ⟨old, rfl, .refl old⟩
    | advanced => exact ⟨_, rfl, rfl, rfl, rfl, fun _ => rfl⟩

theorem mem_schedules_stays (h : step cfg s a = some s') {id : UUID} (hid : id ∈ s.db.scheduledJobs) :
    id ∈ s'.db.scheduledJobs := by
  obtain ⟨old, hold⟩ := Option.isSome_iff_exists.mp (AList.lookup_isSome.mpr hid)
  obtain ⟨new, hnew, _⟩ := schedule_stays h hold
  exact AList.lookup_isSome.mp (by simp [hnew])

/-- One step keeps the copies of every tick good. -/
theorem scheduled_step (hS : Scheduled cfg s) (h : step cfg s a = some s') : Scheduled cfg s' where
  queues := by
    intro id sj hsj
    rcases step_schedule h id with heq | ⟨pid, env, p, rfl, hp, hch⟩
    · exact queue_stays h (hS.queues id sj (heq ▸ hsj))
    rw [hsj] at hch
    generalize hold : s.db.scheduledJobs.lookup id = o at hch
    cases hch with
    | same => exact queue_stays h (hS.queues id sj hold)
    | created r hpc => exact queue_stays h (hS.submits pid r hp (.inr hpc))
    | advanced t _ _ _ _ _ old => exact queue_stays h (hS.queues id old hold)
  submits := by
    intro k r' hk hpc
    refine queue_stays h ?_
    cases origin h hk with
    | idle hk₀ _ => exact hS.submits k r' hk₀ hpc
    | started request _ hp _ =>
        cases request <;> cases hp
        rcases hpc with hpc | hpc <;> cases hpc
    | moved env p _ hk₀ hs =>
        obtain ⟨r, rfl, hr⟩ := submit_of_step hs
        obtain ⟨hid, hq | hdep⟩ := Submit.step_queue_checked hr hpc
        · exact hid ▸ hq
        · exact hid ▸ hS.submits k r hk₀ (.inl hdep)
  copies := by
    intro k t' hk
    -- schedules and queues stay, and the clock only goes on
    suffices hcopies : t'.pc.Copies cfg s.clock s.db from
      hcopies.mono (clock_mono h) (fun _ => mem_schedules_stays h) (fun _ => queue_stays h)
    cases tick_origin h hk with
    | idle hk₀ _ => exact hS.copies k t' hk₀
    | started hpc => exact TickPc.copies_none (by rw [hpc]; rfl) (by simp [hpc])
    | stepped env t ha hk₀ hs =>
        subst ha
        cases stepped h with
        | run _ _ _ _ _ _ hnow _ => exact Tick.step_copies hS.queues hnow (hS.copies k t hk₀) hs

theorem scheduled_run {clock : Timestamp} {db : Db} {tr : List (Sys × Action)}
    (h : SysRun cfg (Sys.atRest clock db) tr s) (hfk : db.SchedulesRefer) : Scheduled cfg s :=
  h.invariant (G := fun _ _ => True) (fun _ _ _ hS _ => scheduled_step hS) (fun _ _ => trivial)
    (scheduled_atRest cfg clock hfk)

end

end JobScheduler
