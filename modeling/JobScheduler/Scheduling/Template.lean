/-
  JobScheduler.Scheduling.Template
  ────────────────────────────────
  From a recurring submission to the jobs dispatched for it: the API stores the
  definition of the job as a template, ticks copy due rows and insert jobs from the
  copies.  The template reaches the scheduler unchanged; what the scheduler makes of
  it is `Tick.recurringRow`.
-/
import JobScheduler.Scheduling.Schedules

namespace JobScheduler

open Relational Transition

/-! ## §1. The definition of a job. -/

/-- The columns that say what a job does. -/
structure JobDefinition where
  taskType : TaskType
  payload : Json
  priority : Nat
  maxAttempts : Nat
  deriving DecidableEq, Repr

/-- What a dispatched row takes from its template. -/
def Job.definition (j : Job) : JobDefinition := ⟨j.taskType, j.payload, j.priority, j.maxAttempts⟩

/-- The same body, submitted as an immediate job. -/
def CreateJobInput.asImmediate (body : CreateJobInput) : CreateJobInput :=
  { body with
    type := .immediate
    delayed_has_delay := by simp
    scheduled_has_runAt := by simp
    recurring_has_cron := by simp
    batch_nonempty := by simp }

/-- The row that the request would insert had its type been `immediate`. -/
def Submit.immediateRow (r : Submit) (now : Timestamp) : Job :=
  { r with body := r.body.asImmediate : Submit }.row now (r.body.asImmediate.item .now)

/-- **Storing and dispatching a template** is the identity on everything but the
task type, which the column default replaces. -/
theorem dispatched_definition (cfg : Config) (r : Submit) (submitted now now' : Timestamp)
    {sj : ScheduledJob} (q : Queue) (ht : sj.jobTemplate = (r.schedule cfg submitted).jobTemplate) :
    (Tick.recurringRow now sj q).definition = { (r.immediateRow now').definition with taskType := .simulated } := by
  have hpos : r.body.maxAttempts ≠ 0 := Nat.one_le_iff_ne_zero.mp r.body.maxAttempts_pos
  simp [Job.definition, Tick.recurringRow, ht, Submit.schedule, Submit.immediateRow, Submit.row,
    CreateJobInput.item, CreateJobInput.asImmediate, hpos]

theorem immediateRow_taskType (r : Submit) (now : Timestamp) :
    (r.immediateRow now).definition.taskType = r.body.taskType := rfl

/-! ## §2. The template on its way. -/

/-- The columns of a schedule that no statement changes after the INSERT. -/
def ScheduledJob.source (sj : ScheduledJob) : UUID × JobTemplate := (sj.queueId, sj.jobTemplate)

section
variable {cfg : Config} {s s' : Sys} {a : Action} {id : UUID} {source : UUID × JobTemplate}

/-- The schedule `id` is stored with this queue and template. -/
def Db.Stores (db : Db) (id : UUID) (source : UUID × JobTemplate) : Prop :=
  ∃ row, db.scheduledJobs.lookup id = some row ∧ row.source = source

/-- A stored template is never rewritten. -/
theorem stores_step (h : step cfg s a = some s') (hs : s.db.Stores id source) :
    s'.db.Stores id source := by
  obtain ⟨old, hold, rfl⟩ := hs
  rcases step_schedule h id with heq | ⟨_, _, _, _, _, hch⟩
  · exact ⟨old, heq.trans hold, rfl⟩
  · rw [hold] at hch
    unfold Db.Stores
    generalize s'.db.scheduledJobs.lookup id = new at hch ⊢
    cases hch with
    | same => exact ⟨old, rfl, rfl⟩
    | advanced => exact ⟨_, rfl, rfl⟩

/-- A stored template is the same over the whole run. -/
theorem stores_run {tr : List (Sys × Action)} (h : SysRun cfg s tr s') (hs : s.db.Stores id source) :
    s'.db.Stores id source :=
  h.invariant (I := fun s => s.db.Stores id source) (G := fun _ _ => True)
    (fun _ _ _ hI _ hstep => stores_step hstep hI) (fun _ _ => trivial) hs

/-- Every copy that a tick still has to dispatch is of a stored schedule, with its
queue and template. -/
def Copied (s : Sys) : Prop :=
  ∀ k t, s.proc k = some (.tick t) → ∀ id sj, (id, sj) ∈ t.pc.todo → s.db.Stores id sj.source

/-- No tick holds a copy yet. -/
theorem copied_atRest (clock : Timestamp) (db : Db) : Copied (Sys.atRest clock db) := by
  intro k t h
  simp at h

/-- The copies of a tick after one statement: old ones, or rows just selected. -/
theorem Tick.todo_origin {ctx : Ctx} {env : Env} {t t' : Tick} {db db' : Db} {sj : ScheduledJob}
    (h : t.step cfg ctx env db = some (db', t')) (hm : (id, sj) ∈ t'.pc.todo) :
    (id, sj) ∈ t.pc.todo ∨ db.scheduledJobs.lookup id = some sj := by
  obtain ⟨_, ⟨_, _, rfl⟩ | ⟨_, _, rfl⟩⟩ := Tick.step_cases h
  · cases hpc : t.pc <;> simp only [Tick.goto, Tick.onThrow, hpc, Tick.loop_todo] at hm
    case insertJob => exact .inl (List.mem_cons_of_mem _ hm)
    case advance | publishDispatched | notifyDispatched => exact .inl hm
    all_goals cases hm
  · cases hpc : t.pc <;> simp only [Tick.goto, Tick.next, hpc, Tick.loop_todo] at hm
    case selectDue => exact .inr ((Table.mem_select_iff _ _ _ _).mp hm).1
    case insertJob i x rest =>
      left
      unfold Tick.afterInsert at hm
      split at hm
      · exact List.mem_cons_of_mem _ hm
      · rw [Tick.loop_todo] at hm
        exact List.mem_cons_of_mem _ hm
    case advance | publishDispatched | notifyDispatched => exact .inl hm
    case acquire | flip => split at hm <;> cases hm
    all_goals cases hm

/-- A tick copies the stored template, and keeps its copy. -/
theorem copied_step (hC : Copied s) (h : step cfg s a = some s') : Copied s' := by
  intro k t' hk id sj hm
  refine stores_step h ?_
  cases tick_origin h hk with
  | idle hk₀ _ => exact hC k t' hk₀ id sj hm
  | started hpc => rw [hpc] at hm; cases hm
  | stepped env t _ hk₀ hs =>
      rcases Tick.todo_origin hs hm with hold | hsel
      · exact hC k t hk₀ id sj hold
      · exact ⟨sj, hsel, rfl⟩

theorem copied_run {clock : Timestamp} {db : Db} {tr : List (Sys × Action)}
    (h : SysRun cfg (Sys.atRest clock db) tr s) : Copied s :=
  h.invariant (G := fun _ _ => True) (fun _ _ _ hC _ => copied_step hC) (fun _ _ => trivial)
    (copied_atRest clock db)

end

/-! ## §3. From the submission to the job. -/

/-- The submission stores its template. -/
theorem Submit.stores_template {cfg : Config} {ctx : Ctx} {env : Env} {r : Submit} {db db' : Db} {p' : Proc}
    (h : (Proc.submit r).step cfg ctx env db = some (db', p')) (hpc : r.pc = .insertSchedule)
    (hok : env.fails = false) : db'.Stores env.fresh (r.schedule cfg env.now).source := by
  obtain ⟨⟨d, r'⟩, hr, he⟩ := Option.map_eq_some_iff.mp h
  obtain rfl : d = db' := congrArg Prod.fst he
  simp only [Submit.step, hpc, hok, Bool.false_eq_true, if_false] at hr
  split at hr <;> cases hr
  exact ⟨_, AList.lookup_insert _, rfl⟩

/-- The job inserted from a copy. -/
theorem Action.inserts_job {cfg : Config} {s s' : Sys} {l : Nat} {env : Env} {id : UUID} {sj : ScheduledJob}
    (h : step cfg s (.run l env) = some s')
    (hd : (Action.run l env).dispatches cfg s id = some sj) :
    ∃ t rest q, s.proc l = some (.tick t) ∧ t.pc = .insertJob id sj rest ∧
      s.db.queues.lookup sj.queueId = some q ∧ s.db.jobs.lookup env.fresh = none ∧
      s'.db.jobs.lookup env.fresh = some (Tick.recurringRow env.now sj q) := by
  obtain ⟨⟨env', t⟩, hcar, hins⟩ := Option.bind_eq_some_iff.mp hd
  obtain ⟨k, ha, hk, hacc⟩ := carries_eq_some.mp hcar
  cases ha
  obtain ⟨p', _, hstep⟩ := proc_run h hk
  obtain ⟨⟨d, t'⟩, ht, he⟩ := Option.map_eq_some_iff.mp hstep
  obtain rfl : d = s'.db := congrArg Prod.fst he
  unfold Tick.inserting at hins
  split at hins
  · rename_i i x rest hpc
    change t.pc = _ at hpc
    split at hins
    · rename_i hi
      obtain ⟨rfl, hq⟩ := hi
      cases hins
      obtain ⟨q, hq⟩ := Option.isSome_iff_exists.mp (AList.lookup_isSome.mpr hq)
      obtain ⟨hready, ⟨hrej, _⟩ | ⟨_, heff, _⟩⟩ := Tick.step_cases ht
      · rw [hacc] at hrej
        cases hrej
      · simp only [Tick.ready, hpc, decide_eq_true_eq] at hready
        refine ⟨t, rest, q, hk, hpc, hq, AList.lookup_eq_none.mpr hready, ?_⟩
        rw [heff]
        simp [Tick.effect, hpc, hq]
    · cases hins
  · cases hins

/-- **Template fidelity.**  In every run, a job that a tick inserts for the schedule
of a recurring submission has the queue of the submission and the shard of that
queue, and the definition that an immediate job with the same body would have had
exactly when the body asks for the task type `simulated`. -/
theorem template_fidelity_iff {cfg : Config} {clock : Timestamp} {db : Db} {tr₁ tr₂ : List (Sys × Action)}
    {s₁ s s' : Sys} {k l : Nat} {env₁ env₂ : Env} {r : Submit} {sj : ScheduledJob} (submitted : Timestamp)
    (h : SysRun cfg (Sys.atRest clock db) (tr₁ ++ (s₁, .run k env₁) :: tr₂) s)
    (hk : s₁.proc k = some (.submit r)) (hpc : r.pc = .insertSchedule) (hok : env₁.fails = false)
    (hstep : step cfg s (.run l env₂) = some s')
    (hl : (Action.run l env₂).dispatches cfg s env₁.fresh = some sj) :
    ∃ row q, s.db.jobs.lookup env₂.fresh = none ∧ s'.db.jobs.lookup env₂.fresh = some row ∧
      row.queueId = r.queueId ∧ s.db.queues.lookup r.queueId = some q ∧ row.shardKey = q.shardKey ∧
      (row.definition = (r.immediateRow submitted).definition ↔ r.body.taskType = .simulated) := by
  obtain ⟨s₁', h₁, hstep₁, hmid⟩ := h.split_cons
  obtain ⟨p', _, hsub⟩ := proc_run hstep₁ hk
  -- the row that the submission inserts is the one the tick's copy comes from
  obtain ⟨stored, hy, hys⟩ := stores_run hmid (Submit.stores_template hsub hpc hok)
  obtain ⟨t, rest, q, ht, htpc, hq, hnew, hrow⟩ := Action.inserts_job hstep hl
  obtain ⟨copied, hx, hxs⟩ := copied_run h l t ht env₁.fresh sj (by simp [htpc, TickPc.todo])
  obtain rfl : copied = stored := Option.some.inj (hx.symm.trans hy)
  obtain ⟨hqueue, htemplate⟩ := Prod.mk.inj (hxs.symm.trans hys)
  refine ⟨_, q, hnew, hrow, hqueue, by rw [← hq, hqueue]; rfl, rfl, ?_⟩
  rw [dispatched_definition cfg r env₁.now env₂.now submitted q htemplate,
    ← immediateRow_taskType r submitted]
  constructor
  · intro heq
    exact (congrArg JobDefinition.taskType heq).symm
  · intro heq
    rw [← heq]

/-- A recurring job with the given task type. -/
def CreateJobInput.smallTask (taskType : TaskType) : CreateJobInput :=
  { CreateJobInput.smallRecurring with taskType := taskType }

/-- A recurring submission up to its INSERT. -/
def templateActions (taskType : TaskType) : List Action :=
  .start 0 (.submit 1 1 (CreateJobInput.smallTask taskType)) :: Action.runs 0 { now := 0, fresh := 5 } 2

/-- The rest of the submission, and a tick after one millisecond up to its INSERT. -/
def templateDispatchActions : List Action :=
  Action.runs 0 { now := 0 } 2 ++ .wait 1 :: .start 1 (.tick 1) :: Action.runs 1 { now := 1 } 3

theorem template_fidelity_iff_simulated :
    let s₀ := Sys.atRest 0 (Db.small 1 [])
    let insert : Action := .run 0 { now := 0, fresh := 5 }
    let s := play (step Config.smallCron) s₀
      (templateActions .simulated ++ insert :: templateDispatchActions)
    let s' := play (step Config.smallCron) s [.run 1 { now := 1, fresh := 100 }]
    ∃ row q, s.db.jobs.lookup 100 = none ∧ s'.db.jobs.lookup 100 = some row ∧ row.queueId = 1 ∧
      s.db.queues.lookup 1 = some q ∧ row.shardKey = q.shardKey ∧
      (row.definition = ({ userId := 1, queueId := 1, body := .smallTask .simulated : Submit}.immediateRow 0).definition ↔
        TaskType.simulated = .simulated) :=
  template_fidelity_iff (r := { userId := 1, queueId := 1, body := .smallTask .simulated, pc := .insertSchedule })
    0
    (run_of_play_at (step Config.smallCron) (Sys.atRest 0 (Db.small 1 [])) (templateActions .simulated)
      (.run 0 { now := 0, fresh := 5 }) templateDispatchActions (by rfl))
    rfl rfl rfl (step_of_play (a := Action.run 1 { now := 1, fresh := 100 }) (by rfl)) rfl

/-- A recurring `http` job is dispatched as a `simulated` one. -/
theorem http_template_dispatched_simulated :
    ¬ (∀ (cfg : Config) (clock : Timestamp) (db : Db) (tr₁ tr₂ : List (Sys × Action)) (s₁ s s' : Sys)
        (k l : Nat) (env₁ env₂ : Env) (r : Submit) (sj : ScheduledJob) (submitted : Timestamp),
        SysRun cfg (Sys.atRest clock db) (tr₁ ++ (s₁, .run k env₁) :: tr₂) s →
        s₁.proc k = some (.submit r) → r.pc = .insertSchedule → env₁.fails = false →
        step cfg s (.run l env₂) = some s' →
        (Action.run l env₂).dispatches cfg s env₁.fresh = some sj →
        ∃ row, s'.db.jobs.lookup env₂.fresh = some row ∧
          row.definition = (r.immediateRow submitted).definition) := by
  intro hclaim
  obtain ⟨row, hrow, hdef⟩ := hclaim Config.smallCron 0 (Db.small 1 []) _ _ _ _ _ 0 1 _
    { now := 1, fresh := 100 } { userId := 1, queueId := 1, body := .smallTask .http, pc := .insertSchedule } _ 0
    (run_of_play_at (step Config.smallCron) _ (templateActions .http) (.run 0 { now := 0, fresh := 5 })
      templateDispatchActions (by rfl))
    rfl rfl rfl (step_of_play (by rfl)) rfl
  have htask : row.taskType = .simulated := by
    cases hrow
    rfl
  have hhttp : row.taskType = .http := congrArg JobDefinition.taskType hdef
  rw [htask] at hhttp
  cases hhttp

end JobScheduler
