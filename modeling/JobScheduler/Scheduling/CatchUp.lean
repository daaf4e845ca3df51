/-
  JobScheduler.Scheduling.CatchUp
  ───────────────────────────────
  Complete ticks, one after the other, of which nothing is rejected.  The next run is
  computed from the occurrence just dispatched, not from the present time, so after
  any gap the occurrences are made up for in order, one for each tick.
-/
import JobScheduler.Scheduling.Exclusion
import Mathlib.Data.Int.Interval

namespace JobScheduler

open Relational Transition Succession

/-! ## §1. Orderly runs. -/

/-- A tick acquires the lock only when the ones before have released it, and no
statement of a tick is rejected. -/
structure Orderly (cfg : Config) (tr : List (Sys × Action)) : Prop where
  complete : ∀ p ∈ tr, (p.2.takesTick cfg p.1).isSome = true → p.1.quiet = true
  errorFree : ∀ p ∈ tr, p.2.throws cfg p.1 = false

section
variable {cfg : Config} {tr tr₁ : List (Sys × Action)} {s s' : Sys} {a : Action} {id : UUID}
  {clock : Timestamp} {db : Db}

theorem Orderly.of_subset (h : Orderly cfg tr) (hsub : ∀ p ∈ tr₁, p ∈ tr) : Orderly cfg tr₁ where
  complete p hp := h.complete p (hsub p hp)
  errorFree p hp := h.errorFree p (hsub p hp)

/-- A tick that takes the lock while the others are quiet is alone. -/
theorem solo_step {holder : Option (Nat × Timestamp)} (hS : Solo holder s)
    (hquiet : (a.takesTick cfg s).isSome = true → s.quiet = true) (h : step cfg s a = some s') :
    Solo ((a.takesTick cfg s).or holder) s' := by
  intro k t' hk hcrit
  cases tick_origin h hk with
  | started hacquire => rw [hacquire] at hcrit; cases hcrit
  | idle hk₀ hne =>
      cases htakes : a.takesTick cfg s with
      | none => exact hS k t' hk₀ hcrit
      | some taken =>
          -- the acquire comes only when no other tick is under way
          have hfree := quiet_iff.mp (hquiet (by rw [htakes]; rfl)) k t' hk₀
          rw [hcrit] at hfree
          cases hfree
  | stepped env t ha hk₀ hs =>
      subst ha
      rcases Tick.step_critical hs hcrit with ⟨hold, _⟩ | ⟨hpc, hf, hacq⟩
      · rw [takesTick_critical cfg env hk₀ hold]
        exact hS k t hk₀ hold
      · rw [takesTick_eq_some.mpr ⟨env, t, rfl, hk₀, hf, hpc, hacq, rfl⟩]
        exact ⟨env.now, rfl⟩

/-- In an orderly run one tick works at a time. -/
theorem solo_run (h : SysRun cfg (Sys.atRest clock db) tr s) (hord : Orderly cfg tr) :
    Solo (tickHolder cfg tr) s ∧ NonOverlapping cfg tr := by
  induction h with
  | nil => exact ⟨fun k t hk => by simp at hk, atEach_nil⟩
  | @snoc tr s s' a hpre hs ih =>
      obtain ⟨hsolo, hno⟩ := ih (hord.of_subset (fun p hp => List.mem_append_left _ hp))
      rw [tickHolder_snoc]
      refine ⟨solo_step hsolo ?_ hs, atEach_snoc.mpr ⟨hno, hsolo.inTurn a⟩⟩
      exact hord.complete (s, a) (List.mem_append_right _ (List.mem_singleton_self _))

/-! ## §2. The row of a schedule from its creation on. -/

/-- The first row stays. -/
theorem firstRow_now (h : SysRun cfg (Sys.atRest clock db) tr s) {first : ScheduledJob}
    (hfirst : firstRow tr s id = some first) :
    ∃ row, s.db.scheduledJobs.lookup id = some row ∧ first.Stays row := by
  induction h with
  | nil => exact ⟨first, by simpa [firstRow] using hfirst, .refl first⟩
  | @snoc tr s s' a _ hs ih =>
      rw [firstRow_snoc] at hfirst
      cases hbefore : firstRow tr s id with
      | none =>
          rw [hbefore, Option.none_or] at hfirst
          exact ⟨first, hfirst, .refl first⟩
      | some first' =>
          rw [hbefore, Option.some_or] at hfirst
          cases hfirst
          obtain ⟨row, hrow, hstays⟩ := ih hbefore
          obtain ⟨row', hrow', hstays'⟩ := schedule_stays hs hrow
          exact ⟨row', hrow', hstays.trans hstays'⟩

/-- The INSERT of a recurring submission is where the schedule is first there. -/
theorem firstRow_created (h : SysRun cfg (Sys.atRest clock db) tr s) {t₀ : Sys} {k₀ : Nat} {env₀ : Env}
    {r : Submit} (hcreated : (t₀, Action.run k₀ env₀) ∈ tr) (hr : t₀.proc k₀ = some (.submit r))
    (hpc : r.pc = .insertSchedule) (hins : env₀.fails = false) :
    firstRow tr s env₀.fresh = some (r.schedule cfg env₀.now) := by
  obtain ⟨tr₁, tr₂, rfl⟩ := List.append_of_mem hcreated
  obtain ⟨t', hpre, hstep, hrest⟩ := h.split_cons
  obtain ⟨p', _, hp⟩ := proc_run hstep hr
  obtain ⟨⟨d, r'⟩, hs, he⟩ := Option.map_eq_some_iff.mp hp
  obtain ⟨rfl, rfl⟩ : d = t'.db ∧ .submit r' = p' := Prod.mk.inj he
  simp only [Submit.step, hpc, hins, Bool.false_eq_true, if_false] at hs
  split at hs
  · cases hs
  rename_i hfresh
  have hdb : t'.db = t₀.db.insertSchedule env₀.fresh (r.schedule cfg env₀.now) :=
    (Prod.mk.inj (Option.some.inj hs)).1.symm
  have hnew : t'.db.scheduledJobs.lookup env₀.fresh = some (r.schedule cfg env₀.now) := by
    rw [hdb]
    simp [Db.insertSchedule]
  -- a row that was ever there would still be there, and the INSERT takes a new key
  have hnone : firstRow tr₁ t₀ env₀.fresh = none := by
    refine Option.eq_none_iff_forall_ne_some.mpr (fun first hfirst => ?_)
    obtain ⟨row, hrow, _⟩ := firstRow_now hpre hfirst
    exact hfresh (AList.lookup_isSome.mp (by simp [hrow]))
  have hhere : firstRow (tr₁ ++ [(t₀, .run k₀ env₀)]) t' env₀.fresh
      = some (r.schedule cfg env₀.now) := by
    rw [firstRow_snoc, hnone, hnew]
    rfl
  cases tr₂ with
  | nil =>
      obtain rfl := hrest.eq_of_nil
      exact hhere
  | cons q rest =>
      obtain ⟨u, b⟩ := q
      obtain rfl := hrest.start_eq
      rw [← List.singleton_append, ← List.append_assoc, firstRow_append hnew]
      exact hhere

/-- In an orderly run nothing of a schedule with a next occurrence is lost. -/
theorem lost_eq_zero (h : SysRun cfg (Sys.atRest clock db) tr s) (hfk : db.SchedulesRefer)
    (hord : Orderly cfg tr) {first : ScheduledJob} (hfirst : firstRow tr s id = some first)
    (hnext : ∀ t, (cfg.cronNext first.cronExpression t).isSome = true) : lost cfg tr id = 0 := by
  refine List.countP_eq_zero.mpr ?_
  rintro ⟨u, a⟩ hp
  obtain ⟨tr₁, tr₂, rfl⟩ := List.append_of_mem hp
  obtain ⟨_, hpre, _, _⟩ := h.split_cons
  have hsub : ∀ p ∈ tr₁, p ∈ tr₁ ++ (u, a) :: tr₂ := fun p hp => List.mem_append_left _ hp
  have hthrows := hord.errorFree (u, a) hp
  cases a with
  | wait | start => simp [Action.loses]
  | run k env =>
      intro hloses
      rcases (Bool.or_eq_true _ _).mp hloses with hended | hrejected
      -- the cron expression of the row is the one of the submission, and it has a next occurrence
      · obtain ⟨sj, hdisp, hnone⟩ := (Option.any_eq_true _ _).mp hended
        obtain ⟨_, _, t, rest, heq, hk, hpc, _, _⟩ := dispatches_eq_some.mp hdisp
        cases heq
        obtain ⟨hsolo, hno⟩ := solo_run hpre (hord.of_subset hsub)
        obtain ⟨hrow, _, v, hv⟩ := inOrder_dispatch (scheduled_run hpre hfk)
          (current_run hpre hfk hno) (hsolo.inTurn (.run k env)) (hsolo.not_abandoned id) hk hpc
        rw [firstRow_append hrow] at hfirst
        obtain ⟨row, hrow', hstays⟩ := firstRow_now hpre hfirst
        rw [hrow] at hrow'
        cases hrow'
        have hsome := hnext v
        rw [← hstays.cronExpression] at hsome
        rw [hv, Option.bind_some, Option.isNone_iff_eq_none] at hnone
        rw [hnone] at hsome
        cases hsome
      -- a rejected advance is a rejected statement of a tick
      · simp only [Action.throws] at hthrows
        split at hrejected
        · rename_i t hk
          rw [hk] at hthrows
          have hacc : (env.fails || t.overflows cfg) = false := hthrows
          rw [hacc, Bool.and_false] at hrejected
          cases hrejected
        · cases hrejected

/-- **The walk of a schedule** in every state of an orderly run. -/
theorem walk_run (h : SysRun cfg (Sys.atRest clock db) tr s) (hfk : db.SchedulesRefer)
    (hord : Orderly cfg tr) {first : ScheduledJob} {c : Timestamp} {occ : Set Timestamp}
    (hfirst : firstRow tr s id = some first)
    (hc : first.nextRunAt = cfg.cronNext first.cronExpression c)
    (hfind : FindsLeast (cfg.cronNext first.cronExpression) occ) :
    ∃ row w before, s.db.scheduledJobs.lookup id = some row ∧ first.Stays row ∧
      row.nextRunAt = some w ∧
      dispatchedTimes cfg tr id = before ++ (if s.owing id = 0 then [] else [w]) ∧
      Walk (cfg.cronNext first.cronExpression) (before ++ [w]) ∧
      (before ++ [w]).head? = cfg.cronNext first.cronExpression c := by
  have hsome : ∀ t, (cfg.cronNext first.cronExpression t).isSome = true := by
    intro t
    obtain ⟨n, hn, _⟩ := hfind t
    rw [hn]
    rfl
  obtain ⟨hsolo, hno⟩ := solo_run h hord
  obtain ⟨row, hrow, hstays⟩ := firstRow_now h hfirst
  obtain ⟨w, hw⟩ := Option.isSome_iff_exists.mp (hstays.nextRunAt (by rw [hc]; exact hsome c))
  have hlost := lost_eq_zero h hfk hord hfirst hsome
  obtain ⟨before, htimes, hwalk, hhead⟩ :=
    (inOrder_run h hfk hno hlost (hsolo.not_abandoned id)).walk row w hrow hw
  rw [hfirst, Option.bind_some, hc] at hhead
  rw [hstays.cronExpression] at hwalk
  exact ⟨row, w, before, hrow, hstays, hw, htimes, hwalk, hhead⟩

end

/-! ## §3. What is selected is dispatched. -/

/-- The client is a tick that has still to dispatch the schedule `id`. -/
def Proc.awaits (id : UUID) (p : Proc) : Bool := decide (id ∈ p.todo.map Prod.fst)

/-- How many ticks have selected the schedule and not dispatched it yet. -/
def Sys.waiting (s : Sys) (id : UUID) : Nat := s.clients.count (fun _ c => c.proc.awaits id)

/-- The action is the INSERT of a job for the schedule `id`, carried out or not. -/
def Action.triesFor (s : Sys) (id : UUID) (a : Action) : Bool :=
  match a with
  | .run k _ => (a.tries s k).any (fun r => decide (r.1 = id))
  | _ => false

/-- The action is a SELECT that returns the schedule `id`. -/
def Action.selectsFor (cfg : Config) (s : Sys) (id : UUID) (a : Action) : Bool :=
  match a with
  | .run k _ => decide (id ∈ (a.selects cfg s k).map Prod.fst)
  | _ => false

section
variable {cfg : Config} {tr : List (Sys × Action)} {s s' : Sys} {a : Action} {id : UUID}
  {clock : Timestamp} {db : Db}

/-- In two lists of which each names `id` at most once, and which together are two others. -/
theorem toNat_mem_append {l₁ l₂ l₃ l₄ : List UUID} (h : l₁ ++ l₂ = l₃ ++ l₄) (h₁ : l₁.Nodup)
    (h₂ : l₂.Nodup) (h₃ : l₃.Nodup) (h₄ : l₄.Nodup) (id : UUID) :
    (decide (id ∈ l₁)).toNat + (decide (id ∈ l₂)).toNat
      = (decide (id ∈ l₃)).toNat + (decide (id ∈ l₄)).toNat := by
  have hcount : ∀ {l : List UUID}, l.Nodup → (decide (id ∈ l)).toNat = l.count id := by
    intro l hl
    by_cases hmem : id ∈ l
    · simp [hmem, List.count_eq_one_of_mem hl hmem]
    · simp [hmem, List.count_eq_zero_of_not_mem hmem]
  rw [hcount h₁, hcount h₂, hcount h₃, hcount h₄, ← List.count_append, ← List.count_append, h]

/-- No tick has a schedule twice before it. -/
theorem Scheduled.todo_nodup (hS : Scheduled cfg s) (k : Nat) : ((s.todo k).map Prod.fst).Nodup := by
  unfold Sys.todo
  cases hk : s.proc k with
  | none => exact List.nodup_nil
  | some p =>
      cases p with
      | tick t => exact (hS.copies k t hk).distinct
      | _ => exact List.nodup_nil

/-- No SELECT returns a schedule twice. -/
theorem selects_nodup (cfg : Config) (s : Sys) (k : Nat) (a : Action) :
    ((a.selects cfg s k).map Prod.fst).Nodup := by
  unfold Action.selects
  split
  · split
    · exact Table.nodup_select _ _
    · exact List.nodup_nil
  · exact List.nodup_nil

/-- One step: a selected schedule waits until the INSERT of its job is executed. -/
theorem waiting_step (hS : Scheduled cfg s) (h : step cfg s a = some s') (id : UUID) :
    s'.waiting id + (a.triesFor s id).toNat = s.waiting id + (a.selectsFor cfg s id).toNat := by
  cases stepped h with
  | wait ms => rfl
  | start pid request hfree =>
      have hput := count_put (Proc.awaits id) s pid s.db (request.start s.clock)
      have hnew : (request.start s.clock).awaits id = false := by cases request <;> rfl
      simp only [hfree, hnew, Option.any_none, Bool.toNat_false, Nat.add_zero] at hput
      exact hput
  | run pid env p p' db' hp _ hstep =>
      have hput := count_put (Proc.awaits id) s pid db' p'
      rw [hp, Option.any_some] at hput
      -- the lists of the client, key by key
      have htodo := congrArg (List.map Prod.fst) (todo_step (k := pid) h)
      rw [List.map_append, List.map_append] at htodo
      have hS' := scheduled_step hS h
      have hone : (((Action.run pid env).tries s pid).toList.map Prod.fst).Nodup := by
        cases (Action.run pid env).tries s pid <;> simp
      have hkeys := toNat_mem_append htodo hone (hS'.todo_nodup pid) (hS.todo_nodup pid)
        (selects_nodup cfg s pid (.run pid env)) id
      have hold : (s.todo pid) = p.todo := by simp [Sys.todo, hp]
      have hnew : ((s.put pid db' p').todo pid) = p'.todo := by simp [Sys.todo]
      rw [hold, hnew] at hkeys
      have htries : (Action.run pid env).triesFor s id
          = decide (id ∈ ((Action.run pid env).tries s pid).toList.map Prod.fst) := by
        simp only [Action.triesFor]
        cases (Action.run pid env).tries s pid <;> simp [eq_comm]
      rw [htries]
      simp only [Sys.waiting, Action.selectsFor, Proc.awaits] at hput ⊢
      omega

/-- What was selected has been tried or is still waiting. -/
theorem waiting_run (h : SysRun cfg (Sys.atRest clock db) tr s) (hfk : db.SchedulesRefer) (id : UUID) :
    tr.countP (fun p => p.2.triesFor p.1 id) + s.waiting id
      = tr.countP (fun p => p.2.selectsFor cfg p.1 id) := by
  induction h with
  | nil => rfl
  | @snoc tr s s' a hpre hs ih =>
      have hstep := waiting_step (scheduled_run hpre hfk) hs id
      rw [List.countP_append, List.countP_append, List.countP_singleton, List.countP_singleton]
      simp only [Bool.toNat, Bool.cond_eq_ite] at hstep ⊢
      omega

theorem waiting_of_quiet (h : s.quiet = true) (id : UUID) : s.waiting id = 0 := by
  by_contra hwaiting
  obtain ⟨k, p, hk, hawaits⟩ := (clients_count_ne_zero s (Proc.awaits id)).mp hwaiting
  cases p with
  | tick t =>
      have hcrit := quiet_iff.mp h k t hk
      cases hpc : t.pc <;> rw [hpc] at hcrit <;> try cases hcrit
      all_goals simp [Proc.awaits, Proc.todo, hpc, TickPc.todo] at hawaits
  | _ => simp [Proc.awaits, Proc.todo] at hawaits

/-- A job is inserted for an occurrence that is due. -/
theorem dispatches_due {sj : ScheduledJob} (hS : Scheduled cfg s)
    (hdisp : a.dispatches cfg s id = some sj) : ∃ o, sj.nextRunAt = some o ∧ o ≤ s.clock := by
  obtain ⟨k, env, t, rest, _, hk, hpc, _, _⟩ := dispatches_eq_some.mp hdisp
  exact ((hS.copies k t hk).todo id sj (by simp [hpc, TickPc.todo])).2.2

/-- What is selected, and tried without being rejected, is dispatched. -/
theorem selectsFor_le_dispatched (h : SysRun cfg (Sys.atRest clock db) tr s) (hfk : db.SchedulesRefer)
    (hord : Orderly cfg tr) (hquiet : s.quiet = true) (id : UUID) :
    tr.countP (fun p => p.2.selectsFor cfg p.1 id) ≤ (dispatchedTimes cfg tr id).length := by
  have hwaiting := waiting_run h hfk id
  -- no tick is under way: every schedule that was selected has been tried
  rw [waiting_of_quiet hquiet, Nat.add_zero] at hwaiting
  rw [← hwaiting, dispatchedTimes, dispatched, List.filterMap_filterMap,
    List.length_filterMap_eq_countP]
  refine List.countP_mono_left (fun p hp htries => ?_)
  obtain ⟨u, a⟩ := p
  obtain ⟨tr₁, _, hpre, _, _⟩ := h.of_mem hp
  have hS := scheduled_run hpre hfk
  cases a with
  | run k env =>
      obtain ⟨⟨i, sj⟩, hsj, hi⟩ := (Option.any_eq_true _ _).mp htries
      obtain rfl := of_decide_eq_true hi
      have hdisp := dispatches_of_tries hS hsj (hord.errorFree _ hp)
      obtain ⟨o, ho, _⟩ := dispatches_due hS hdisp
      simp [hdisp, ho]
  | _ => cases htries

/-! ## §4. A tick selects once. -/

/-- The SELECT of the due rows is still to come. -/
def TickPc.unselected : TickPc → Bool
  | .acquire | .flip | .publishReleased _ | .notifyReleased _ | .selectDue => true
  | _ => false

theorem Tick.loop_unselected (rows : List (UUID × ScheduledJob)) : (loop rows).unselected = false := by
  cases rows <;> rfl

theorem Tick.step_unselected {ctx : Ctx} {env : Env} {db db' : Db} {t t' : Tick}
    (h : t.step cfg ctx env db = some (db', t')) (hu : t'.pc.unselected = true) :
    t.pc.unselected = true ∧ t.pc ≠ .selectDue := by
  -- a rejection ends the tick or goes on with the next schedule
  have hthrow : (onThrow t.pc).unselected = false := by
    cases t.pc <;> first | rfl | exact Tick.loop_unselected _
  obtain ⟨_, ⟨_, _, rfl⟩ | ⟨_, _, rfl⟩⟩ := Tick.step_cases h
  · rw [show (t.goto (onThrow t.pc)).pc = onThrow t.pc from rfl, hthrow] at hu
    cases hu
  · have hlate : t.pc.unselected = false ∨ t.pc = .selectDue → (t.next cfg env db).unselected = false := by
      rintro hpc
      unfold Tick.next
      split <;> rename_i heq <;> simp only [heq, TickPc.unselected, Bool.true_eq_false, false_or,
        reduceCtorEq, or_self] at hpc
      · exact Tick.loop_unselected _
      · unfold Tick.afterInsert
        split
        · rfl
        · exact Tick.loop_unselected _
      all_goals first | rfl | exact Tick.loop_unselected _
    have hnext : (t.next cfg env db).unselected = true := hu
    constructor
    · by_contra hcon
      rw [hlate (.inl (by simpa using hcon))] at hnext
      cases hnext
    · intro hsel
      rw [hlate (.inr hsel)] at hnext
      cases hnext

theorem selects_ne_nil {k : Nat} (h : a.selects cfg s k ≠ []) :
    ∃ env t, a = .run k env ∧ s.proc k = some (.tick t) ∧ t.pc = .selectDue := by
  unfold Action.selects at h
  split at h
  · split at h
    · rename_i hcond
      obtain ⟨rfl, hany⟩ := hcond
      obtain ⟨⟨e, t⟩, hcarries, hsel⟩ := (Option.any_eq_true _ _).mp hany
      obtain ⟨_, heq, hk, _⟩ := carries_eq_some.mp hcarries
      cases heq
      unfold Tick.selecting at hsel
      split at hsel
      · rename_i hpc
        exact ⟨_, t, rfl, hk, hpc⟩
      · cases hsel
    · exact absurd rfl h
  · exact absurd rfl h

/-- **A tick selects each schedule at most once.** -/
theorem selected_once (h : SysRun cfg (Sys.atRest clock db) tr s) (k : Nat) :
    ((selected cfg tr k).map Prod.fst).Nodup ∧
    ((∀ t, s.proc k = some (.tick t) → t.pc.unselected = true) → selected cfg tr k = []) := by
  induction h with
  | nil => exact ⟨List.nodup_nil, fun _ => rfl⟩
  | @snoc tr s s' a _ hs ih =>
      obtain ⟨hnodup, hnone⟩ := ih
      have hsnoc : selected cfg (tr ++ [(s, a)]) k = selected cfg tr k ++ a.selects cfg s k := by
        unfold selected
        simp
      rw [hsnoc]
      by_cases hnil : a.selects cfg s k = []
      · rw [hnil, List.append_nil]
        refine ⟨hnodup, fun hlater => hnone (fun t hk => ?_)⟩
        rcases tick_next hs hk with ⟨hk', _⟩ | ⟨_, t', _, hk', hstep⟩
        · exact hlater t hk'
        · exact (Tick.step_unselected hstep (hlater t' hk')).1
      · obtain ⟨env, t, rfl, hk, hpc⟩ := selects_ne_nil hnil
        -- before its SELECT the tick has selected nothing
        have hempty : selected cfg tr k = [] := by
          refine hnone (fun u hu => ?_)
          rw [hk] at hu
          cases hu
          rw [hpc]
          rfl
        rw [hempty, List.nil_append]
        refine ⟨selects_nodup cfg s k _, fun hlater => ?_⟩
        rcases tick_next hs hk with ⟨_, hne⟩ | ⟨_, t', _, hk', hstep⟩
        · exact absurd rfl (hne env)
        · exact absurd hpc (Tick.step_unselected hstep (hlater t' hk')).2

end

/-! ## §5. Catching up. -/

/-- The action is a step of client `k`. -/
def Action.ofClient (k : Nat) : Action → Bool
  | .run pid _ => decide (pid = k)
  | _ => false

/-- What client `k` dispatched for the schedule `id`. -/
def dispatchedBy (cfg : Config) (tr : List (Sys × Action)) (k : Nat) (id : UUID) : List ScheduledJob :=
  dispatched cfg (tr.filter (fun p => p.2.ofClient k)) id

/-- The number of ticks that selected the due rows at time `t` or later, since the
schedule `id` is there. -/
def ticksAt (cfg : Config) (tr : List (Sys × Action)) (id : UUID) (t : Timestamp) : Nat :=
  tr.countP (fun p => (p.2.carries cfg p.1).any (fun q => q.2.selecting && decide (t ≤ q.1.now))
    && decide (id ∈ p.1.db.scheduledJobs))

/-- The schedule `id`, created at time `c`, has been caught up with: `occ` are the
occurrences of its cron expression. -/
structure CaughtUp (cfg : Config) (tr : List (Sys × Action)) (s : Sys) (id : UUID)
    (occ : Set Timestamp) (c : Timestamp) : Prop where
  /-- The occurrences dispatched are those up to the one that the row names. -/
  segment : ∃ row w, s.db.scheduledJobs.lookup id = some row ∧ row.nextRunAt = some w ∧
    w ∈ occ ∧ c < w ∧ ∀ o, o ∈ dispatchedTimes cfg tr id ↔ o ∈ occ ∧ c < o ∧ o < w
  /-- Each once, and in order. -/
  ordered : (dispatchedTimes cfg tr id).Pairwise (· < ·)
  /-- None before it is due. -/
  due : ∀ p ∈ tr, ∀ sj, p.2.dispatches cfg p.1 id = some sj →
    ∃ o, sj.nextRunAt = some o ∧ o ≤ p.1.clock
  /-- At most one for each tick. -/
  once : ∀ k, (dispatchedBy cfg tr k id).length ≤ 1
  /-- As many ticks at time `t` as there are occurrences up to `t` dispatch all of them. -/
  caught : ∀ t, {o | o ∈ occ ∧ c < o ∧ o ≤ t}.ncard ≤ ticksAt cfg tr id t →
    ∀ o ∈ occ, c < o → o ≤ t → o ∈ dispatchedTimes cfg tr id

section
variable {cfg : Config} {tr : List (Sys × Action)} {s s' : Sys} {a : Action} {id : UUID}
  {clock : Timestamp} {db : Db}

/-- A tick dispatches a schedule at most once. -/
theorem dispatchedBy_le_one (h : SysRun cfg (Sys.atRest clock db) tr s) (k : Nat) (id : UUID) :
    (dispatchedBy cfg tr k id).length ≤ 1 := by
  -- a dispatch of client `k` is a try, and no schedule is tried twice
  have hnodup := (selected_once h k).1
  rw [← todo_run h k, List.map_append] at hnodup
  have htried : ((tried tr k).map Prod.fst).count id ≤ 1 :=
    List.nodup_iff_count_le_one.mp hnodup.of_append_left id
  refine le_trans ?_ htried
  rw [dispatchedBy, dispatched, List.length_filterMap_eq_countP, List.countP_filter, List.count,
    List.countP_map, tried, List.countP_filterMap]
  refine List.countP_mono_left (fun p _ hp => ?_)
  obtain ⟨hdisp, hclient⟩ := (Bool.and_eq_true_iff).mp hp
  obtain ⟨sj, hsj⟩ := Option.isSome_iff_exists.mp hdisp
  obtain ⟨k', env, t, rest, ha, hk, hpc, _, _⟩ := dispatches_eq_some.mp hsj
  rw [ha] at hclient ⊢
  obtain rfl := of_decide_eq_true hclient
  simp [Action.tries, hk, hpc]

/-- A tick that selects when the row names an occurrence that is due selects the schedule. -/
theorem selectsFor_of_due {t : Timestamp} {row : ScheduledJob} {w : Timestamp}
    (hrow : s.db.scheduledJobs.lookup id = some row) (hactive : row.isActive = true)
    (hw : row.nextRunAt = some w) (hwt : w ≤ t)
    (hsel : (a.carries cfg s).any (fun q => q.2.selecting && decide (t ≤ q.1.now)) = true) :
    a.selectsFor cfg s id = true := by
  obtain ⟨⟨env, u⟩, hcarries, hcond⟩ := (Option.any_eq_true _ _).mp hsel
  obtain ⟨hselecting, htime⟩ := Bool.and_eq_true_iff.mp hcond
  obtain ⟨k, rfl, hk, hacc⟩ := carries_eq_some.mp hcarries
  have hdue : Tick.due env.now id row = true := by
    simp [Tick.due, hactive, hw, hwt.trans (of_decide_eq_true htime)]
  have hmem : (id, row) ∈ (Action.run k env).selects cfg s k := by
    simp only [Action.selects, hcarries, Option.any_some, hselecting, and_self, if_true]
    exact (Table.mem_select_iff _ _ _ _).mpr ⟨hrow, hdue⟩
  exact decide_eq_true (List.mem_map_of_mem hmem)

/-- Along an orderly run the row of a schedule names later and later occurrences. -/
theorem nextRunAt_mono {tr₁ tr₂ : List (Sys × Action)} {u : Sys} {first row : ScheduledJob}
    {c w w₀ : Timestamp} {occ : Set Timestamp} {before : List Timestamp}
    (h : SysRun cfg (Sys.atRest clock db) tr₁ u) (hfk : db.SchedulesRefer) (hord : Orderly cfg tr₁)
    (hfirst : firstRow tr₁ u id = some first)
    (hc : first.nextRunAt = cfg.cronNext first.cronExpression c)
    (hfind : FindsLeast (cfg.cronNext first.cronExpression) occ)
    (hrow : u.db.scheduledJobs.lookup id = some row) (hw₀ : row.nextRunAt = some w₀)
    (htimes : dispatchedTimes cfg (tr₁ ++ tr₂) id = before)
    (hwalk : Walk (cfg.cronNext first.cronExpression) (before ++ [w]))
    (hhead : (before ++ [w]).head? = cfg.cronNext first.cronExpression c) : w₀ ≤ w := by
  obtain ⟨row', w', earlier, hrow', _, hw', htimes₁, hwalk₁, hhead₁⟩ := walk_run h hfk hord hfirst hc hfind
  rw [hrow] at hrow'
  cases hrow'
  rw [hw₀] at hw'
  cases hw'
  obtain ⟨_, hmem₁⟩ := hwalk₁.mem_iff hfind hhead₁
  obtain ⟨⟨hocc, hcw⟩, hmem⟩ := hwalk.mem_iff hfind hhead
  by_contra hlt
  -- otherwise the earlier state had already dispatched the occurrence
  have hearlier : w ∈ earlier := (hmem₁ w).mpr ⟨hocc, hcw, not_le.mp hlt⟩
  have hsub : w ∈ before := by
    rw [← htimes, dispatchedTimes, dispatched, List.filterMap_append, List.filterMap_append]
    refine List.mem_append_left _ ?_
    change w ∈ dispatchedTimes cfg tr₁ id
    rw [htimes₁]
    exact List.mem_append_left _ hearlier
  exact lt_irrefl w ((hmem w).mp hsub).2.2

/-- **Catch-up is exact and in order.** -/
theorem catch_up_exact (cfg : Config) {clock : Timestamp} {db : Db} {tr : List (Sys × Action)} {s : Sys}
    (h : SysRun cfg (Sys.atRest clock db) tr s) (hfk : db.SchedulesRefer) (hord : Orderly cfg tr)
    (hquiet : s.quiet = true) {t₀ : Sys} {k₀ : Nat} {env₀ : Env} {r : Submit} {occ : Set Timestamp}
    (hcreated : (t₀, Action.run k₀ env₀) ∈ tr) (hr : t₀.proc k₀ = some (.submit r))
    (hpc : r.pc = .insertSchedule) (hins : env₀.fails = false)
    (hfind : FindsLeast (cfg.cronNext (r.body.cronExpression.getD "")) occ) :
    CaughtUp cfg tr s env₀.fresh occ env₀.now := by
  have hfirst := firstRow_created h hcreated hr hpc hins
  obtain ⟨row, w, before, hrow, _, hw, htimes, hwalk, hhead⟩ :=
    walk_run h hfk hord hfirst rfl hfind
  -- between ticks nothing is owed: the dispatched occurrences are the walk up to the row
  rw [if_pos (owing_of_quiet hquiet _), List.append_nil] at htimes
  obtain ⟨⟨hocc, hcw⟩, hmem⟩ := hwalk.mem_iff hfind hhead
  constructor
  · exact ⟨row, w, hrow, hw, hocc, hcw, by rw [htimes]; exact hmem⟩
  · rw [htimes]
    exact (List.pairwise_append.mp (hwalk.pairwise_lt hfind.lt)).1
  · rintro ⟨u, a⟩ hp sj hdisp
    obtain ⟨tr₁, _, hpre, _, _⟩ := h.of_mem hp
    exact dispatches_due (scheduled_run hpre hfk) hdisp
  · exact fun k => dispatchedBy_le_one h k _
  · intro t henough o ho hco hot
    rw [htimes]
    refine (hmem o).mpr ⟨ho, hco, hot.trans_lt ?_⟩
    by_contra hwt
    rw [not_lt] at hwt
    -- as long as an occurrence up to `t` is left, every such tick dispatches one
    have hsome : ticksAt cfg tr env₀.fresh t ≤ before.length := by
      rw [← htimes]
      refine le_trans (List.countP_mono_left ?_) (selectsFor_le_dispatched h hfk hord hquiet _)
      rintro ⟨u, a⟩ hp hsel
      obtain ⟨hselects, hthere⟩ := Bool.and_eq_true_iff.mp hsel
      obtain ⟨rowu, hrowu⟩ := Option.isSome_iff_exists.mp
        (AList.lookup_isSome.mpr (of_decide_eq_true hthere))
      obtain ⟨tr₁, tr₂, rfl⟩ := List.append_of_mem hp
      obtain ⟨_, hpre, _, _⟩ := h.split_cons
      have hordu := hord.of_subset (fun p hp => List.mem_append_left ((u, a) :: tr₂) hp)
      have hfirstu := hfirst
      rw [firstRow_append hrowu] at hfirstu
      obtain ⟨row', wu, _, hrow', hstays, hwu, _, _, _⟩ := walk_run hpre hfk hordu hfirstu rfl hfind
      rw [hrowu] at hrow'
      cases hrow'
      have hle := nextRunAt_mono hpre hfk hordu hfirstu rfl hfind hrowu hwu htimes hwalk hhead
      exact selectsFor_of_due hrowu hstays.isActive hwu (hle.trans hwt) hselects
    have hfin : {o | o ∈ occ ∧ env₀.now < o ∧ o ≤ t}.Finite :=
      (Set.finite_Ioc env₀.now t).subset (fun o ho => ⟨ho.2.1, ho.2.2⟩)
    have hlt := hwalk.length_lt_ncard hfind hhead hwt hfin
    omega

end

/-- A recurring submission up to its INSERT. -/
def recurringActions : List Action :=
  .start 0 (.submit 1 1 CreateJobInput.smallRecurring) :: Action.runs 0 { now := 0, fresh := 5 } 2

/-- The rest of the submission, and two ticks after two milliseconds. -/
def twoLateTicksActions : List Action :=
  Action.runs 0 { now := 0 } 2 ++ .wait 2 :: .start 1 (.tick 1) ::
    Action.runs 1 { now := 2, fresh := 100 } 8 ++
    .start 2 (.tick 1) :: Action.runs 2 { now := 2, fresh := 101 } 8

theorem catch_up_exact_twice :
    let s₀ := Sys.atRest 0 (Db.small 1 [])
    let insert : Action := .run 0 { now := 0, fresh := 5 }
    let tr := trace (step Config.smallCron) s₀ recurringActions ++
      (play (step Config.smallCron) s₀ recurringActions, insert) ::
        trace (step Config.smallCron) (play (step Config.smallCron) s₀ (recurringActions ++ [insert]))
          twoLateTicksActions
    let s := play (step Config.smallCron) s₀ (recurringActions ++ insert :: twoLateTicksActions)
    dispatchedTimes Config.smallCron tr 5 = [1, 2] ∧ CaughtUp Config.smallCron tr s 5 Set.univ 0 := by
  refine ⟨by rfl, catch_up_exact Config.smallCron
    (run_of_play_at (step Config.smallCron) (Sys.atRest 0 (Db.small 1 [])) recurringActions
      (.run 0 { now := 0, fresh := 5 }) twoLateTicksActions (by rfl))
    ?_ ⟨by decide, by decide⟩ (by decide) (List.mem_append_right _ List.mem_cons_self) rfl rfl rfl ?_⟩
  · intro id sj hrow
    cases hrow
  · intro a
    refine ⟨a + 1, rfl, ⟨trivial, Int.lt_succ a⟩, fun o ho => ?_⟩
    exact Int.add_one_le_iff.mpr ho.2

end JobScheduler
