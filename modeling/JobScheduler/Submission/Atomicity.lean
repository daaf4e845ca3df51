/-
  JobScheduler.Submission.Atomicity
  ─────────────────────────────────
  Is POST /queues/:queueId/jobs all or nothing?  Each of its statements commits on
  its own, so a rejection leaves behind what the request has inserted before.  The
  rows that a client has added are filed against what the request remembers; a 201
  comes with exactly the rows that the body asks for, an error without any row
  exactly when no statement was rejected after the first INSERT.
-/
import JobScheduler.Submission.Rows

namespace JobScheduler

open Relational Transition

/-! ## §1. The statements at issue. -/

/-- The request has inserted a row. -/
def Submit.underway (r : Submit) : Bool :=
  r.batch.isSome || !r.created.isEmpty || (match r.pc with
    | .publish _ | .notify _ => true
    | _ => false)

/-- The action is a rejected statement of the request `k`, which has inserted a row. -/
def Action.failsUnderway (cfg : Config) (s : Sys) (k : Nat) : Action → Bool
  | .run pid env => decide (pid = k) && (match s.proc pid with
      | some (.submit r) => r.underway && r.rejects cfg env s.db
      | _ => false)
  | _ => false

/-- The rows that the body asks for are the rows that the client has added. -/
structure Fulfilled (cfg : Config) (tr : List (Sys × Action)) (s : Sys) (k : Nat) (r : Submit) :
    Prop where
  items : r.RowsFor (r.body.items (r.batch.map Prod.fst)) r.created
  distinct : (r.created.map Prod.fst).Nodup
  jobs : ∀ id row, Added cfg tr k (.job id row) ↔ (id, row) ∈ r.created
  batchRow : ∀ B b, r.batch = some (B, b) → ∃ now, b = r.batchRow now
  batch : ∀ B b, Added cfg tr k (.batch B b) ↔ r.batch = some (B, b)
  typed : r.batch.isSome ↔ r.body.type = .batch
  dependencies : ∀ j d, Added cfg tr k (.dependency j d) ↔ r.Created j ∧ d ∈ r.body.dependsOn
  schedule : r.body.type = .recurring → ∃ id now, ∀ id' sj,
    Added cfg tr k (.schedule id' sj) ↔ id' = id ∧ sj = r.schedule cfg now
  noSchedule : r.body.type ≠ .recurring → ∀ id sj, ¬ Added cfg tr k (.schedule id sj)
  /-- `total_jobs` is the number of jobs that carry the batch id. -/
  total : ∀ B b, r.batch = some (B, b) →
    ∃ row, s.db.batches.lookup B = some row ∧ row.totalJobs = s.db.batchSize B

/-- An error adds nothing, and a success exactly what is asked for. -/
def AllOrNothing (cfg : Config) (tr : List (Sys × Action)) (s : Sys) (k : Nat) (r : Submit) : Prop :=
  (∀ err, r.pc = .replied (.failure err) → ∀ row, ¬ Added cfg tr k row) ∧
  ∀ code, r.pc = .replied (.success code) → code = 201 ∧ Fulfilled cfg tr s k r

/-! ## §2. Added rows along a run. -/

section
variable {cfg : Config} {s s' : Sys} {a : Action} {tr : List (Sys × Action)} {k : Nat}
  {env : Env} {r r' : Submit} {row : TableRow}

/-- The other clients add nothing in the request's name. -/
theorem added_idle (hne : ∀ env, a ≠ .run k env) :
    Added cfg (tr ++ [(s, a)]) k row ↔ Added cfg tr k row := by
  constructor
  · rintro ⟨t, env, t', hmem, hs, hadd⟩
    rcases List.mem_append.mp hmem with hmem | hmem
    · exact ⟨t, env, t', hmem, hs, hadd⟩
    · cases List.mem_singleton.mp hmem
      exact absurd rfl (hne env)
  · rintro ⟨t, env, t', hmem, hs, hadd⟩
    exact ⟨t, env, t', List.mem_append_left _ hmem, hs, hadd⟩

/-- What a statement of the request adds. -/
theorem added_run (h : step cfg s (.run k env) = some s') :
    Added cfg (tr ++ [(s, .run k env)]) k row ↔ Added cfg tr k row ∨ s.db.Adds s'.db row := by
  constructor
  · rintro ⟨t, env', t', hmem, hs, hadd⟩
    rcases List.mem_append.mp hmem with hmem | hmem
    · exact .inl ⟨t, env', t', hmem, hs, hadd⟩
    · cases List.mem_singleton.mp hmem
      rw [h] at hs
      cases hs
      exact .inr hadd
  · rintro (⟨t, env', t', hmem, hs, hadd⟩ | hadd)
    · exact ⟨t, env', t', List.mem_append_left _ hmem, hs, hadd⟩
    · exact ⟨s, env, s', List.mem_append_right _ List.mem_cons_self, h, hadd⟩

/-- Past the checks, a request fails by the rejection of its statement. -/
theorem Submit.rejects_iff {db db' : Db} (h : r.step cfg env db = some (db', r'))
    (hpc : r.pc ≠ .checkQueue ∧ r.pc ≠ .checkDependencies) :
    r.rejects cfg env db = true ↔ ∃ err, r'.pc = .replied (.failure err) := by
  have hitem : ∀ (q : Submit) items err, q.nextItem items ≠ .replied (.failure err) := by
    intro q items err
    cases items <;> simp [Submit.nextItem]
  have hedge : ∀ (q : Submit) j ds items err, q.nextEdge j ds items ≠ .replied (.failure err) := by
    intro q j ds items err
    cases ds with
    | nil => exact hitem q items err
    | cons d ds => simp [Submit.nextEdge]
  cases hq : r.pc <;> simp only [hq, ne_eq, not_true_eq_false, reduceCtorEq, not_false_eq_true,
    and_self, and_true, and_false] at hpc <;> simp only [Submit.step, hq] at h <;>
    simp only [Submit.rejects, hq] <;> (repeat' split at h) <;> cases h <;>
    simp_all [Submit.fail, Submit.goto]

/-- The rows that client `k` has added are those that its request remembers. -/
structure Filed (cfg : Config) (tr : List (Sys × Action)) (k : Nat) (s : Sys) (r : Submit) : Prop where
  distinct : (r.created.map Prod.fst).Nodup
  jobs : ∀ id row, Added cfg tr k (.job id row) ↔ (id, row) ∈ r.created
  batchRow : ∀ B b, r.batch = some (B, b) → ∃ now, b = r.batchRow now
  batch : ∀ B b, Added cfg tr k (.batch B b) ↔ r.batch = some (B, b)
  dependencies : ∀ j d, Added cfg tr k (.dependency j d) ↔
    r.Created j ∧ (j, d) ∈ s.db.jobDependencies

theorem filed_start (hc : r.created = []) (hb : r.batch = none)
    (hno : ∀ row, ¬ Added cfg tr k row) : Filed cfg tr k s r where
  distinct := by simp [hc]
  jobs id row := by simp [hc, hno]
  batchRow B b h := by simp [hb] at h
  batch B b := by simp [hb, hno]
  dependencies j d := by simp [Submit.Created, hc, hno]

/-- The edges of a job that the request has created are its own. -/
theorem Filed.idle (hR : Requests s) (hF : Filed cfg tr k s r) (hk : s.proc k = some (.submit r))
    (hne : ∀ env, a ≠ .run k env) (h : step cfg s a = some s') :
    Filed cfg (tr ++ [(s, a)]) k s' r where
  distinct := hF.distinct
  jobs id row := (added_idle hne).trans (hF.jobs id row)
  batchRow := hF.batchRow
  batch B b := (added_idle hne).trans (hF.batch B b)
  dependencies j d := by
    rw [added_idle hne, hF.dependencies]
    refine and_congr_right (fun hc => ⟨edge_stays h, fun he => ?_⟩)
    rcases edge_origin h he with hold | ⟨⟨l, env, q, todo, rest, rfl, hl, hpc⟩, _, _⟩
    · exact hold
    -- another client would attach an edge to a job of this request
    · obtain rfl := hR.disjoint k l r q j hk hl hc (hR.attach l q j d todo rest hl hpc).1
      exact absurd rfl (hne env)

/-- A statement that adds nothing. -/
theorem Filed.kept (hF : Filed cfg tr k s r) (h : step cfg s (.run k env) = some s')
    (hno : ∀ row, ¬ s.db.Adds s'.db row) (hd : s'.db.jobDependencies = s.db.jobDependencies)
    (hc : r'.created = r.created) (hb : r'.batch = r.batch) (hbody : r'.body = r.body)
    (hq : r'.queueId = r.queueId) : Filed cfg (tr ++ [(s, .run k env)]) k s' r' where
  distinct := hc ▸ hF.distinct
  jobs id row := by simp [added_run h, hno, hF.jobs, hc]
  batchRow B b hB := by
    obtain ⟨now, rfl⟩ := hF.batchRow B b (hb ▸ hB)
    exact ⟨now, by simp [Submit.batchRow, hbody, hq]⟩
  batch B b := by simp [added_run h, hno, hF.batch, hb]
  dependencies j d := by simp [added_run h, hno, hF.dependencies, Submit.Created, hc, hd]

/-- The INSERT of a job that has no edges yet. -/
theorem Filed.jobInserted {row : Job} (hR : Requests s) (hF : Filed cfg tr k s r)
    (hk : s.proc k = some (.submit r)) (h : step cfg s (.run k env) = some s')
    (hfresh : env.fresh ∉ s.db.jobs) (hdb : s'.db = s.db.insertJob env.fresh row)
    (hc : r'.created = r.created ++ [(env.fresh, row)]) (hb : r'.batch = r.batch)
    (hbody : r'.body = r.body) (hq : r'.queueId = r.queueId) :
    Filed cfg (tr ++ [(s, .run k env)]) k s' r' where
  distinct := by
    -- the INSERT takes a new primary key
    have hnew : ¬ r.Created env.fresh := fun hcr => hfresh (hR.created k r _ hk hcr)
    rw [hc, List.map_append]
    refine List.nodup_append.mpr ⟨hF.distinct, List.nodup_singleton _, ?_⟩
    intro x hx y hy hxy
    simp only [List.map_cons, List.map_nil, List.mem_singleton] at hy
    rw [hxy, hy] at hx
    exact hnew hx
  jobs id row' := by
    rw [added_run h, hdb, adds_insertJob hfresh, hF.jobs, hc]
    simp
  batchRow B b hB := by
    obtain ⟨now, rfl⟩ := hF.batchRow B b (hb ▸ hB)
    exact ⟨now, by simp [Submit.batchRow, hbody, hq]⟩
  batch B b := by
    rw [added_run h, hdb, adds_insertJob hfresh, hF.batch, hb]
    simp
  dependencies j d := by
    -- foreign key `job_dependencies.job_id`
    have hedge : (env.fresh, d) ∉ s.db.jobDependencies := fun he => hfresh (hR.edges _ _ he).1
    have hdeps : s'.db.jobDependencies = s.db.jobDependencies := by rw [hdb]; rfl
    rw [added_run h, hF.dependencies, hdeps, hdb, adds_insertJob hfresh]
    simp only [Submit.Created, hc, reduceCtorEq, or_false, List.map_append, List.mem_append,
      List.map_cons, List.map_nil, List.mem_singleton]
    constructor
    · rintro ⟨hcr, he⟩
      exact ⟨.inl hcr, he⟩
    · rintro ⟨hcr | rfl, he⟩
      · exact ⟨hcr, he⟩
      · exact absurd he hedge

/-- The INSERT of an edge of a job that the request has created. -/
theorem Filed.attached {i x : UUID} (hF : Filed cfg tr k s r)
    (h : step cfg s (.run k env) = some s') (hown : r.Created i)
    (hdb : s'.db = s.db.insertDependency i x) (hc : r'.created = r.created)
    (hb : r'.batch = r.batch) (hbody : r'.body = r.body) (hq : r'.queueId = r.queueId) :
    Filed cfg (tr ++ [(s, .run k env)]) k s' r' where
  distinct := hc ▸ hF.distinct
  jobs id row := by
    rw [added_run h, hdb, adds_insertDependency, hF.jobs, hc]
    simp
  batchRow B b hB := by
    obtain ⟨now, rfl⟩ := hF.batchRow B b (hb ▸ hB)
    exact ⟨now, by simp [Submit.batchRow, hbody, hq]⟩
  batch B b := by
    rw [added_run h, hdb, adds_insertDependency, hF.batch, hb]
    simp
  dependencies j d := by
    rw [added_run h, hF.dependencies, hdb, adds_insertDependency, mem_insertDependency]
    simp only [Submit.Created, hc, TableRow.dependency.injEq, Prod.mk.injEq]
    constructor
    · rintro (⟨hcr, he⟩ | ⟨_, rfl, rfl⟩)
      · exact ⟨hcr, .inl he⟩
      · exact ⟨hown, .inr ⟨rfl, rfl⟩⟩
    · rintro ⟨hcr, he | ⟨rfl, rfl⟩⟩
      · exact .inl ⟨hcr, he⟩
      · -- the edge may be there already
        by_cases hold : (j, d) ∈ s.db.jobDependencies
        · exact .inl ⟨hcr, hold⟩
        · exact .inr ⟨hold, rfl, rfl⟩

/-- A statement of the request files the row that it inserts. -/
theorem Filed.run (hR : Requests s) (hF : Filed cfg tr k s r) (hS : r.Shape)
    (hk : s.proc k = some (.submit r)) (h : step cfg s (.run k env) = some s')
    (hs : Submit.Stepped cfg env r s.db s'.db r') :
    Filed cfg (tr ++ [(s, .run k env)]) k s' r' := by
  have hself := not_adds_self s.db
  generalize hdb : s'.db = db' at hs
  have hadds : ∀ row, Added cfg (tr ++ [(s, .run k env)]) k row ↔
      Added cfg tr k row ∨ s.db.Adds db' row := fun row => hdb ▸ added_run h
  cases hs with
  | failed err | queueChecked | replied => exact hF.kept h (hdb ▸ hself) (by rw [hdb]) rfl rfl rfl rfl
  | dependenciesChecked hpc satisfied _ =>
      obtain ⟨pc, heq, _⟩ := Submit.dispatch_eq cfg env.now
        { r with initialStatus := initialJobStatus r.body.type satisfied }
      rw [heq]
      exact hF.kept h (hdb ▸ hself) (by rw [hdb]) rfl rfl rfl rfl
  | published ev hpc =>
      exact hF.kept h (hdb ▸ not_adds_event s.db ev) (by rw [hdb]; rfl) rfl rfl rfl rfl
  | batchInserted hpc hfresh q hq =>
      subst hq
      obtain ⟨hb, hc⟩ := hS.fresh (.inl (by rw [hpc]; rfl))
      refine ⟨hF.distinct, ?_, ?_, ?_, ?_⟩
      · intro id row
        simp [hadds, adds_insertBatch hfresh, hF.jobs, Submit.goto]
      · intro B b hB
        cases hB
        exact ⟨env.now, rfl⟩
      · intro B b
        simp [hadds, adds_insertBatch hfresh, hF.batch, Submit.goto, hb, eq_comm]
      · intro j d
        have hdeps : s'.db.jobDependencies = s.db.jobDependencies := by rw [hdb]; rfl
        simp [hadds, adds_insertBatch hfresh, hF.dependencies, Submit.Created, Submit.goto, hdeps]
  | jobInserted item rest hpc hfresh q hq =>
      subst hq
      exact hF.jobInserted hR hk h hfresh hdb rfl rfl rfl rfl
  | attached i x todo rest hpc hx =>
      exact hF.attached h (hR.attach k r i x todo rest hk hpc).1 hdb rfl rfl rfl rfl
  | scheduleInserted hpc ev =>
      -- the INSERT into `scheduled_jobs` adds no other row
      have hother : ∀ row, (∀ id sj, row ≠ .schedule id sj) →
          ¬ s.db.Adds (s.db.insertSchedule env.fresh (r.schedule cfg env.now)) row := by
        intro row hne
        cases row with
        | schedule id sj => exact absurd rfl (hne id sj)
        | _ => exact fun hadd => hadd.1 hadd.2
      refine ⟨hF.distinct, ?_, hF.batchRow, ?_, ?_⟩
      · intro id row
        simp [hadds, hother, hF.jobs, Submit.goto]
      · intro B b
        simp [hadds, hother, hF.batch, Submit.goto]
      · intro j d
        have hdeps : s'.db.jobDependencies = s.db.jobDependencies := by rw [hdb]; rfl
        simp [hadds, hother, hF.dependencies, hdeps, Submit.Created, Submit.goto]

/-! ## §3. Edges and schedules. -/

/-- All rows are inserted. -/
def SubmitPc.recorded : SubmitPc → Bool
  | .publish _ | .notify _ | .replied (.success _) => true
  | _ => false

theorem SubmitPc.writing_of_recorded {pc : SubmitPc} (h : pc.recorded = true) : pc.writing = true := by
  cases pc with
  | publish | notify => rfl
  | replied reply => cases reply with
    | success => rfl
    | failure => cases h
  | _ => cases h

theorem Submit.todo_of_recorded {q : Submit} (h : q.pc.recorded = true) : q.todo = [] := by
  unfold Submit.todo
  split <;> rename_i hpc
  · rw [hpc] at h; cases h
  · rw [hpc] at h; cases h
  · rfl

/-- How far the edges and the schedule are. -/
structure Listed (cfg : Config) (tr : List (Sys × Action)) (k : Nat) (s : Sys) (r : Submit) :
    Prop where
  attached : r.pc.writing = true → ∀ j, r.Created j → ∀ d ∈ r.body.dependsOn,
    (j, d) ∈ s.db.jobDependencies ∨ ∃ x todo rest, r.pc = .attach j x todo rest ∧ d ∈ x :: todo
  scheduled : r.pc.recorded = true → r.body.type = .recurring → ∃ id now, ∀ id' sj,
    Added cfg tr k (.schedule id' sj) ↔ id' = id ∧ sj = r.schedule cfg now
  unscheduled : r.body.type ≠ .recurring ∨ r.pc.early = true ∨ r.pc = .insertSchedule →
    ∀ id sj, ¬ Added cfg tr k (.schedule id sj)

theorem listed_start (hpc : r.pc = .checkQueue) (hno : ∀ row, ¬ Added cfg tr k row) :
    Listed cfg tr k s r where
  attached h := by simp [hpc, SubmitPc.writing] at h
  scheduled h := by simp [hpc, SubmitPc.recorded] at h
  unscheduled _ _ _ := hno _

/-- Edges and schedules of the request stay when others move. -/
theorem Listed.idle (hL : Listed cfg tr k s r) (hne : ∀ env, a ≠ .run k env)
    (h : step cfg s a = some s') : Listed cfg (tr ++ [(s, a)]) k s' r where
  attached hw j hc d hd := (hL.attached hw j hc d hd).imp_left (edge_stays h)
  scheduled hr ht := by
    obtain ⟨id, now, hall⟩ := hL.scheduled hr ht
    exact ⟨id, now, fun id' sj => (added_idle hne).trans (hall id' sj)⟩
  unscheduled hu id sj := by
    rw [added_idle hne]
    exact hL.unscheduled hu id sj

/-- Statements before the first INSERT and after the last. -/
theorem Listed.kept (hL : Listed cfg tr k s r) (h : step cfg s (.run k env) = some s')
    (hno : ∀ id sj, ¬ s.db.Adds s'.db (.schedule id sj)) (hbody : r'.body = r.body)
    (hq : r'.queueId = r.queueId) (hc : r'.created = r.created)
    (hwriting : r'.pc.writing = true → r.created = [] ∨
      (r.pc.writing = true ∧ ∀ j x todo rest, r.pc ≠ .attach j x todo rest))
    (hrecorded : r'.pc.recorded = true → r.body.type = .recurring → r.pc.recorded = true)
    (hearly : r'.pc.early = true ∨ r'.pc = .insertSchedule → r.pc.early = true) :
    Listed cfg (tr ++ [(s, .run k env)]) k s' r' where
  attached hw j hj d hd := by
    rcases hwriting hw with hnil | ⟨hw₀, hat⟩
    · simp [Submit.Created, hc, hnil] at hj
    · rcases hL.attached hw₀ j (by simpa [Submit.Created, hc] using hj) d (hbody ▸ hd) with he | ⟨_, _, _, hpc, _⟩
      · exact .inl (edge_stays h he)
      · exact absurd hpc (hat _ _ _ _)
  scheduled hr ht := by
    obtain ⟨id, now, hall⟩ := hL.scheduled (hrecorded hr (hbody ▸ ht)) (hbody ▸ ht)
    refine ⟨id, now, fun id' sj => ?_⟩
    simp [added_run h, hno, hall, Submit.schedule, hbody, hq]
  unscheduled hu id sj := by
    rw [added_run h]
    rintro (hadd | hadd)
    · rw [hbody] at hu
      exact hL.unscheduled (hu.imp_right (fun he => .inl (hearly he))) id sj hadd
    · exact hno id sj hadd

/-- The INSERT of a job: its edges come next. -/
theorem Listed.jobInserted {q : Submit} {item : JobItem} {rest : List JobItem} {row : Job}
    (hL : Listed cfg tr k s r) (ht : r.body.type ≠ .recurring) (hpc : r.pc = .insertJob item rest)
    (h : step cfg s (.run k env) = some s') (hfresh : env.fresh ∉ s.db.jobs)
    (hdb : s'.db = s.db.insertJob env.fresh row)
    (hc : r'.created = r.created ++ [(env.fresh, row)]) (hbody : r'.body = r.body)
    (hnext : r'.pc = q.nextEdge env.fresh r.body.dependsOn rest) :
    Listed cfg (tr ++ [(s, .run k env)]) k s' r' where
  attached _ j hj d hd := by
    rw [hbody] at hd
    simp only [Submit.Created, hc, List.map_append, List.mem_append, List.map_cons, List.map_nil,
      List.mem_singleton] at hj
    rcases hj with hj | rfl
    · rcases hL.attached (by rw [hpc]; rfl) j hj d hd with he | ⟨_, _, _, hpc', _⟩
      · exact .inl (edge_stays h he)
      · rw [hpc] at hpc'
        cases hpc'
    · right
      -- the edges of the new job come next
      cases hlist : r.body.dependsOn with
      | nil => rw [hlist] at hd; cases hd
      | cons x xs => exact ⟨x, xs, rest, by rw [hnext, hlist]; rfl, hlist ▸ hd⟩
  scheduled _ hrec := absurd (hbody ▸ hrec) ht
  unscheduled _ id sj := by
    rw [added_run h, hdb, adds_insertJob hfresh]
    simpa using hL.unscheduled (.inl ht) id sj

/-- The INSERT of an edge: the ones after it are still to come. -/
theorem Listed.attachedOne {i x : UUID} {todo : List UUID} {rest : List JobItem}
    (hL : Listed cfg tr k s r) (ht : r.body.type ≠ .recurring) (hpc : r.pc = .attach i x todo rest)
    (h : step cfg s (.run k env) = some s') (hdb : s'.db = s.db.insertDependency i x)
    (hc : r'.created = r.created) (hbody : r'.body = r.body)
    (hnext : r'.pc = r.nextEdge i todo rest) : Listed cfg (tr ++ [(s, .run k env)]) k s' r' where
  attached _ j hj d hd := by
    rw [hbody] at hd
    rw [Submit.Created, hc] at hj
    rcases hL.attached (by rw [hpc]; rfl) j hj d hd with he | ⟨y, ys, rest', hpc', hmem⟩
    · exact .inl (edge_stays h he)
    · rw [hpc] at hpc'
      cases hpc'
      rcases List.mem_cons.mp hmem with rfl | hmem
      -- this edge is there now, the others are still in the list
      · exact .inl (by rw [hdb]; exact mem_insertDependency.mpr (.inr rfl))
      · right
        cases todo with
        | nil => cases hmem
        | cons y ys => exact ⟨y, ys, rest, hnext, hmem⟩
  scheduled _ hrec := absurd (hbody ▸ hrec) ht
  unscheduled _ id sj := by
    rw [added_run h, hdb, adds_insertDependency]
    simpa using hL.unscheduled (.inl ht) id sj

/-- The INSERT of the schedule of a request that has created no job. -/
theorem Listed.scheduleInserted (hL : Listed cfg tr k s r) (ht : r.body.type = .recurring)
    (hpc : r.pc = .insertSchedule) (h : step cfg s (.run k env) = some s')
    (hadds : ∀ id sj, s.db.Adds s'.db (.schedule id sj) ↔ id = env.fresh ∧ sj = r.schedule cfg env.now)
    (hnil : r'.created = []) (hbody : r'.body = r.body) (hq : r'.queueId = r.queueId)
    (hrec : r'.pc.recorded = true) : Listed cfg (tr ++ [(s, .run k env)]) k s' r' where
  attached _ j hj := by simp [Submit.Created, hnil] at hj
  scheduled _ _ := by
    refine ⟨env.fresh, env.now, fun id sj => ?_⟩
    have hno := hL.unscheduled (.inr (.inr hpc)) id sj
    rw [added_run h, hadds]
    simp [hno, Submit.schedule, hbody, hq]
  unscheduled hu := by
    rcases hu with hno | hpc' | hpc'
    · exact absurd (hbody ▸ ht) hno
    · cases hp : r'.pc <;> simp_all [SubmitPc.early, SubmitPc.recorded]
    · rw [hpc'] at hrec
      cases hrec

/-- A statement of the request lists what it inserts. -/
theorem Listed.run (hL : Listed cfg tr k s r) (hS : r.Shape)
    (h : step cfg s (.run k env) = some s') (hstep : r.step cfg env s.db = some (s'.db, r')) :
    Listed cfg (tr ++ [(s, .run k env)]) k s' r' := by
  have hself := not_adds_self s.db
  have hs := Submit.stepped hstep
  generalize hdb : s'.db = db' at hs
  cases hs with
  | failed err =>
      exact hL.kept h (fun id sj => hdb ▸ hself _) rfl rfl rfl (by simp [Submit.fail, Submit.goto, SubmitPc.writing])
        (by simp [Submit.fail, Submit.goto, SubmitPc.recorded])
        (by simp [Submit.fail, Submit.goto, SubmitPc.early])
  | queueChecked hpc shardKey =>
      exact hL.kept h (fun id sj => hdb ▸ hself _) rfl rfl rfl (by simp [SubmitPc.writing])
        (by simp [SubmitPc.recorded]) (by simp [hpc, SubmitPc.early])
  | dependenciesChecked hpc satisfied _ =>
      obtain ⟨_, hc⟩ := hS.fresh (.inl (by rw [hpc]; rfl))
      obtain ⟨pc, heq, hd⟩ := Submit.dispatch_eq cfg env.now
        { r with initialStatus := initialJobStatus r.body.type satisfied }
      rw [heq]
      exact hL.kept h (fun id sj => hdb ▸ hself _) rfl rfl rfl (fun _ => .inl hc)
        (by cases hd <;> simp [Submit.goto, SubmitPc.recorded]) (by simp [hpc, SubmitPc.early])
  | batchInserted hpc hfresh q hq =>
      obtain ⟨_, hc⟩ := hS.fresh (.inl (by rw [hpc]; rfl))
      subst hq
      refine hL.kept h (fun id sj => ?_) rfl rfl rfl (fun _ => .inl hc) ?_ (by simp [hpc, SubmitPc.early])
      · rw [hdb, adds_insertBatch hfresh]
        simp
      · simp [hS.typed hpc]
  | jobInserted item rest hpc hfresh q hq =>
      subst hq
      exact hL.jobInserted (hS.concrete (.inl ⟨item, rest, hpc⟩)) hpc h hfresh hdb rfl rfl rfl
  | attached i x todo rest hpc hx =>
      exact hL.attachedOne (hS.concrete (.inr ⟨i, x, todo, rest, hpc⟩)) hpc h hdb rfl rfl rfl
  | scheduleInserted hpc ev =>
      obtain ⟨_, hc⟩ := hS.fresh (.inr hpc)
      -- the INSERT itself was carried out, since the request goes on to publish
      have hcarried : r.rejects cfg env s.db = false := by
        rw [Bool.eq_false_iff]
        intro hrej
        obtain ⟨err, herr⟩ := (Submit.rejects_iff hstep (by simp [hpc])).mp hrej
        cases herr
      refine hL.scheduleInserted (hS.recurring hpc) hpc h (fun id sj => ?_) hc rfl rfl rfl
      rw [Submit.step_adds hstep, hcarried]
      simp only [true_and, Submit.inserts, hpc, Option.some.injEq, TableRow.schedule.injEq]
      constructor
      · rintro ⟨rfl, rfl⟩
        exact ⟨rfl, rfl⟩
      · rintro ⟨rfl, rfl⟩
        exact ⟨rfl, rfl⟩
  | published ev hpc =>
      exact hL.kept h (fun id sj => hdb ▸ not_adds_event s.db ev _) rfl rfl rfl
        (fun _ => .inr (by simp [hpc, SubmitPc.writing])) (fun _ _ => by rw [hpc]; rfl)
        (by simp [Submit.goto, SubmitPc.early])
  | replied ev hpc =>
      exact hL.kept h (fun id sj => hdb ▸ hself _) rfl rfl rfl
        (fun _ => .inr (by simp [hpc, SubmitPc.writing])) (fun _ _ => by rw [hpc]; rfl)
        (by simp [Submit.goto, SubmitPc.early])

/-! ## §4. The outcome. -/

/-- Every body asks for a row. -/
theorem CreateJobInput.items_ne_nil {body : CreateJobInput} {B : Option UUID}
    (ht : body.type ≠ .recurring) (hB : B.isSome ↔ body.type = .batch) : body.items B ≠ [] := by
  cases htype : body.type <;> simp only [CreateJobInput.items, htype]
  case recurring => exact absurd htype ht
  case batch =>
    obtain ⟨b, rfl⟩ := Option.isSome_iff_exists.mp (hB.mpr htype)
    simpa using body.batch_nonempty htype
  all_goals simp

/-- A request in flight is underway once it has added a row. -/
theorem underway_iff (hS : r.Shape) (hF : Filed cfg tr k s r) (hL : Listed cfg tr k s r)
    (hpc : ∀ reply, r.pc ≠ .replied reply) :
    r.underway = true ↔ ∃ row, Added cfg tr k row := by
  constructor
  · intro hu
    by_cases hb : r.batch.isSome = true
    · obtain ⟨⟨B, b⟩, hB⟩ := Option.isSome_iff_exists.mp hb
      exact ⟨_, (hF.batch B b).mpr hB⟩
    by_cases hc : r.created = []
    · -- nothing but a schedule is left
      have hrec : r.pc.recorded = true := by
        simp only [Submit.underway, hb, hc] at hu
        split at hu
        · rename_i hpub; rw [hpub]; rfl
        · rename_i hnot; rw [hnot]; rfl
        · cases hu
      have hw := SubmitPc.writing_of_recorded hrec
      by_cases ht : r.body.type = .recurring
      · obtain ⟨id, now, hall⟩ := hL.scheduled hrec ht
        exact ⟨_, (hall id _).mpr ⟨rfl, rfl⟩⟩
      · obtain ⟨done, hitems, hrows⟩ := hS.items hw
        rw [Submit.todo_of_recorded hrec, List.append_nil] at hitems
        rw [hc] at hrows
        cases hrows
        exact absurd hitems (CreateJobInput.items_ne_nil ht (by
          rw [Option.isSome_map]; exact hS.batch hw))
    · obtain ⟨⟨id, row⟩, rest, hcons⟩ := List.exists_cons_of_ne_nil hc
      exact ⟨_, (hF.jobs id row).mpr (by rw [hcons]; exact List.mem_cons_self)⟩
  · rintro ⟨row, hadd⟩
    cases row with
    | job id row =>
        have hmem := (hF.jobs id row).mp hadd
        have hc : r.created ≠ [] := List.ne_nil_of_mem hmem
        simp [Submit.underway, hc]
    | batch B b => simp [Submit.underway, (hF.batch B b).mp hadd]
    | dependency j d =>
        have hc : r.created ≠ [] := by
          rintro hnil
          have hj := ((hF.dependencies j d).mp hadd).1
          simp [Submit.Created, hnil] at hj
        simp [Submit.underway, hc]
    | schedule id sj =>
        cases hq : r.pc <;>
          first
          | exact absurd hadd (hL.unscheduled (.inr (.inl (by rw [hq]; rfl))) id sj)
          | exact absurd hadd (hL.unscheduled (.inr (.inr hq)) id sj)
          | exact absurd hq (hpc _)
          | simp [Submit.underway, hq]
        · exact absurd hadd (hL.unscheduled (.inl (hS.concrete (.inl ⟨_, _, hq⟩))) id sj)
        · exact absurd hadd (hL.unscheduled (.inl (hS.concrete (.inr ⟨_, _, _, _, hq⟩))) id sj)

/-- A rejection after the first row is answered with an error, and the only way to an
error with a row. -/
structure Settled (cfg : Config) (tr : List (Sys × Action)) (k : Nat) (r : Submit) : Prop where
  answered : (∃ p ∈ tr, p.2.failsUnderway cfg p.1 k = true) → ∃ err, r.pc = .replied (.failure err)
  outcome : (∃ err, r.pc = .replied (.failure err)) →
    ((∃ row, Added cfg tr k row) ↔ ∃ p ∈ tr, p.2.failsUnderway cfg p.1 k = true)

theorem not_failsUnderway (hne : ∀ env, a ≠ .run k env) : a.failsUnderway cfg s k = false := by
  cases a with
  | run pid env =>
      have hpk : pid ≠ k := fun heq => hne env (heq ▸ rfl)
      simp [Action.failsUnderway, hpk]
  | _ => rfl

theorem exists_snoc_iff {P : Sys × Action → Prop} {x : Sys × Action} :
    (∃ p ∈ tr ++ [x], P p) ↔ (∃ p ∈ tr, P p) ∨ P x := by
  simp only [List.mem_append, List.mem_singleton]
  constructor
  · rintro ⟨p, hp | rfl, hP⟩
    · exact .inl ⟨p, hp, hP⟩
    · exact .inr hP
  · rintro (⟨p, hp, hP⟩ | hP)
    · exact ⟨p, .inl hp, hP⟩
    · exact ⟨x, .inr rfl, hP⟩

theorem Settled.idle (hT : Settled cfg tr k r) (hne : ∀ env, a ≠ .run k env) :
    Settled cfg (tr ++ [(s, a)]) k r := by
  have hsame : (∃ p ∈ tr ++ [(s, a)], p.2.failsUnderway cfg p.1 k = true) ↔
      ∃ p ∈ tr, p.2.failsUnderway cfg p.1 k = true := by
    rw [exists_snoc_iff, not_failsUnderway hne]
    simp
  have hrow : (∃ row, Added cfg (tr ++ [(s, a)]) k row) ↔ ∃ row, Added cfg tr k row :=
    exists_congr (fun row => added_idle hne)
  exact ⟨fun h => hT.answered (hsame.mp h), fun h => by rw [hrow, hsame]; exact hT.outcome h⟩

/-- A rejection under way ends the request with an error, and no other error leaves a row. -/
theorem Settled.run (hT : Settled cfg tr k r) (hS : r.Shape) (hF : Filed cfg tr k s r)
    (hL : Listed cfg tr k s r) (hk : s.proc k = some (.submit r))
    (h : step cfg s (.run k env) = some s') (hstep : r.step cfg env s.db = some (s'.db, r')) :
    Settled cfg (tr ++ [(s, .run k env)]) k r' := by
  -- a request that has replied takes no step
  have hpc : ∀ reply, r.pc ≠ .replied reply := by
    intro reply hq
    simp [Submit.step, hq] at hstep
  have hnone : ¬ ∃ p ∈ tr, p.2.failsUnderway cfg p.1 k = true := by
    intro hp
    obtain ⟨err, herr⟩ := hT.answered hp
    exact hpc _ herr
  have hnow : (Action.run k env).failsUnderway cfg s k = true ↔
      r.underway = true ∧ r.rejects cfg env s.db = true := by
    simp [Action.failsUnderway, hk]
  have hlate : r.underway = true → r.pc ≠ .checkQueue ∧ r.pc ≠ .checkDependencies := by
    intro hu
    refine ⟨?_, ?_⟩ <;> intro hq <;> obtain ⟨hb, hc⟩ := hS.fresh (.inl (by rw [hq]; rfl)) <;>
      simp [Submit.underway, hb, hc, hq] at hu
  refine ⟨?_, ?_⟩
  · rw [exists_snoc_iff, hnow]
    rintro (hp | ⟨hu, hrej⟩)
    · exact absurd hp hnone
    · exact (Submit.rejects_iff hstep (hlate hu)).mp hrej
  · rintro ⟨err, herr⟩
    rw [exists_snoc_iff, hnow, or_iff_right hnone]
    have hno : ∀ row, ¬ s.db.Adds s'.db row := by
      intro row hadd
      obtain ⟨hcarried, hins⟩ := (Submit.step_adds hstep row).mp hadd
      have hearly : r.pc ≠ .checkQueue ∧ r.pc ≠ .checkDependencies := by
        constructor <;> rintro hq <;> simp [Submit.inserts, hq] at hins
      rw [(Submit.rejects_iff hstep hearly).mpr ⟨err, herr⟩] at hcarried
      cases hcarried
    have hrow : (∃ row, Added cfg (tr ++ [(s, .run k env)]) k row) ↔ ∃ row, Added cfg tr k row :=
      exists_congr (fun row => by rw [added_run h, or_iff_left (hno row)])
    rw [hrow, ← underway_iff hS hF hL hpc]
    refine ⟨fun hu => ⟨hu, (Submit.rejects_iff hstep (hlate hu)).mpr ⟨err, herr⟩⟩, And.left⟩

end

/-! ## §5. Whole runs. -/

/-- No statement changes the size of a batch. -/
theorem BatchChange.total {env : Env} {B : UUID} {p : Proc} {old : Batch} {new : Option Batch}
    (h : BatchChange env B p (some old) new) :
    ∃ row, new = some row ∧ row.totalJobs = old.totalJobs := by
  cases h with
  | progressed e result => exact ⟨_, rfl, by cases result <;> rfl⟩
  | _ => exact ⟨_, rfl, rfl⟩

/-- Batches, their rows and their jobs. -/
structure Stocked (s : Sys) : Prop where
  batches : Batches s
  rows : ∀ k r B b, s.proc k = some (.submit r) → r.batch = some (B, b) →
    (∃ row, s.db.batches.lookup B = some row ∧ row.totalJobs = b.totalJobs) ∧
      Roster B s r b.totalJobs

/-- One step keeps the sizes of the batches. -/
theorem stocked_step {cfg : Config} {s s' : Sys} {a : Action} (hK : Stocked s)
    (h : step cfg s a = some s') : Stocked s' := by
  refine ⟨batches_step hK.batches h, ?_⟩
  intro k r' B b hk hb
  rcases batch_origin h hk hb with ⟨r, hk₀, hb₀⟩ | ⟨env, r, _, hk₀, hpc, hfresh, rfl, hdb, ht⟩
  · obtain ⟨⟨row, hrow, htotal⟩, hR⟩ := hK.rows k r B b hk₀ hb₀
    obtain ⟨q, hq, _, hR'⟩ := roster_step hK.batches hk₀ hb₀ hR h
    rw [hk] at hq
    cases hq
    refine ⟨?_, hR'⟩
    rcases step_batch h B with heq | ⟨_, _, _, _, _, hch⟩
    · exact ⟨row, heq.trans hrow, htotal⟩
    · rw [hrow] at hch
      obtain ⟨row', hrow', htotal'⟩ := hch.total
      exact ⟨row', hrow', htotal'.trans htotal⟩
  · exact ⟨⟨_, by rw [hdb]; simp, rfl⟩, roster_created hK.batches hfresh hdb ht⟩

/-- Every request of the run is accounted for. -/
structure Submissions (cfg : Config) (tr : List (Sys × Action)) (s : Sys) : Prop where
  requests : Requests s
  stocked : Stocked s
  /-- Clients are never forgotten. -/
  absent : ∀ k, s.proc k = none → ∀ p ∈ tr, ∀ env, p.2 ≠ .run k env
  filed : ∀ k r, s.proc k = some (.submit r) →
    r.Shape ∧ Filed cfg tr k s r ∧ Listed cfg tr k s r ∧ Settled cfg tr k r

section
variable {cfg : Config} {s s' : Sys} {a : Action} {tr : List (Sys × Action)} {k : Nat} {r : Submit}

theorem submissions_start (hpc : r.pc = .checkQueue) (hc : r.created = []) (hb : r.batch = none)
    (hno : ∀ p ∈ tr, ∀ env, p.2 ≠ .run k env) :
    r.Shape ∧ Filed cfg tr k s r ∧ Listed cfg tr k s r ∧ Settled cfg tr k r := by
  have hadd : ∀ row, ¬ Added cfg tr k row := by
    rintro row ⟨t, env, t', hmem, _⟩
    exact hno _ hmem env rfl
  refine ⟨Submit.shape_fresh hb hc (.inl hpc), filed_start hc hb hadd, listed_start hpc hadd, ?_, ?_⟩
  · rintro ⟨p, hp, hf⟩
    rw [not_failsUnderway (hno p hp)] at hf
    cases hf
  · rintro ⟨err, herr⟩
    rw [hpc] at herr
    cases herr

/-- One step keeps the account of every request. -/
theorem submissions_step (hU : Submissions cfg tr s) (h : step cfg s a = some s') :
    Submissions cfg (tr ++ [(s, a)]) s' where
  requests := requests_step hU.requests h
  stocked := stocked_step hU.stocked h
  absent := by
    intro k hk
    have hidle : s.proc k = none ∧ ∀ env, a ≠ .run k env := by
      cases hk₀ : s.proc k with
      | none =>
          refine ⟨rfl, ?_⟩
          rintro env rfl
          cases stepped h with
          | run _ _ _ _ _ hp => rw [hk₀] at hp; cases hp
      | some p =>
          rcases proc_next h hk₀ with ⟨hk', _⟩ | ⟨_, _, _, hk', _⟩ <;> rw [hk'] at hk <;> cases hk
    intro p hp env
    rcases List.mem_append.mp hp with hp | hp
    · exact hU.absent k hidle.1 p hp env
    · cases List.mem_singleton.mp hp
      exact hidle.2 env
  filed := by
    intro k r' hk
    cases origin h hk with
    | idle hk₀ hne =>
        obtain ⟨hS, hF, hL, hT⟩ := hU.filed k r' hk₀
        exact ⟨hS, hF.idle hU.requests hk₀ hne h, hL.idle hne h, hT.idle hne⟩
    | started request ha hp _ =>
        subst ha
        cases request <;> cases hp
        have hfree : s.proc k = none := by
          cases stepped h with
          | start _ _ hfree => exact hfree
        refine submissions_start rfl rfl rfl (fun p hp env => ?_)
        rcases List.mem_append.mp hp with hp | hp
        · exact hU.absent k hfree p hp env
        · cases List.mem_singleton.mp hp
          simp
    | moved env p ha hk₀ hs =>
        subst ha
        obtain ⟨r, rfl, hstep⟩ := submit_of_step hs
        obtain ⟨hS, hF, hL, hT⟩ := hU.filed k r hk₀
        have hst := Submit.stepped hstep
        exact ⟨hS.step hst, hF.run hU.requests hS hk₀ h hst, hL.run hS h hstep,
          hT.run hS hF hL hk₀ h hstep⟩

end

/-- The account of every request in every run. -/
theorem submissions_run {cfg : Config} {clock : Timestamp} {db : Db} {s : Sys}
    {tr : List (Sys × Action)}
    (hedges : ∀ j d, (j, d) ∈ db.jobDependencies → j ∈ db.jobs ∧ d ∈ db.jobs)
    (hfk : ∀ j B, db.InBatch B j → B ∈ db.batches)
    (hrun : SysRun cfg (Sys.atRest clock db) tr s) : Submissions cfg tr s := by
  induction hrun with
  | nil =>
      refine ⟨requests_atRest clock db hedges, ⟨batches_atRest clock db hfk, ?_⟩, ?_, ?_⟩
      · intro k r B b hk; simp at hk
      · intro k _ p hp; cases hp
      · intro k r hk; simp at hk
  | snoc _ hs ih => exact submissions_step ih hs

/-- The rows of a request that has answered 201. -/
theorem Submissions.fulfilled {cfg : Config} {s : Sys} {tr : List (Sys × Action)} {k : Nat}
    {r : Submit} {code : Nat} (hU : Submissions cfg tr s) (hk : s.proc k = some (.submit r))
    (hpc : r.pc = .replied (.success code)) : Fulfilled cfg tr s k r := by
  obtain ⟨hS, hF, hL, _⟩ := hU.filed k r hk
  have hw : r.pc.writing = true := by rw [hpc]; rfl
  have htodo : r.todo = [] := Submit.todo_of_recorded (by rw [hpc]; rfl)
  obtain ⟨done, hitems, hrows⟩ := hS.items hw
  rw [htodo, List.append_nil] at hitems
  refine ⟨hitems ▸ hrows, hF.distinct, hF.jobs, hF.batchRow, hF.batch, hS.batch hw, ?_,
    hL.scheduled (by rw [hpc]; rfl), fun ht => hL.unscheduled (.inl ht), ?_⟩
  · intro j d
    rw [hF.dependencies]
    refine and_congr_right (fun hc => ⟨hU.requests.listed k r j d hk hc, fun hd => ?_⟩)
    rcases hL.attached hw j hc d hd with he | ⟨_, _, _, hat, _⟩
    · exact he
    · rw [hpc] at hat
      cases hat
  · intro B b hb
    obtain ⟨⟨row, hrow, htotal⟩, hR⟩ := hU.stocked.rows k r B b hk hb
    refine ⟨row, hrow, ?_⟩
    have hroom := hR.room
    have hfull := hR.full (by simp [hpc])
    rw [htodo] at hroom hfull
    simp only [List.length_nil, Nat.add_zero] at hroom hfull
    omega

/-- All or nothing, exactly when no statement was rejected once a row was inserted. -/
theorem Submissions.allOrNothing_iff {cfg : Config} {s : Sys} {tr : List (Sys × Action)} {k : Nat}
    {r : Submit} (hU : Submissions cfg tr s) (hk : s.proc k = some (.submit r)) :
    AllOrNothing cfg tr s k r ↔ ∀ p ∈ tr, p.2.failsUnderway cfg p.1 k = false := by
  obtain ⟨hS, _, _, hT⟩ := hU.filed k r hk
  constructor
  · rintro ⟨hnothing, -⟩ p hp
    rw [Bool.eq_false_iff]
    intro hf
    obtain ⟨err, herr⟩ := hT.answered ⟨p, hp, hf⟩
    obtain ⟨row, hadd⟩ := (hT.outcome ⟨err, herr⟩).mpr ⟨p, hp, hf⟩
    exact hnothing err herr row hadd
  · intro hno
    refine ⟨fun err herr row hadd => ?_, fun code hcode => ⟨hS.code code hcode, hU.fulfilled hk hcode⟩⟩
    obtain ⟨p, hp, hf⟩ := (hT.outcome ⟨err, herr⟩).mp ⟨row, hadd⟩
    rw [hno p hp] at hf
    cases hf

/-- **Submission is all or nothing exactly when no statement is rejected after the
first INSERT.**  In every run of the whole system and for every request: an error
answer comes with no added row of the four tables, and a 201 with exactly the rows
that the body asks for, if and only if the request has met no rejection (a failing
statement, an idempotency key in use, a missing prerequisite, an event that
pg_notify does not take) after it had inserted a row. -/
theorem submission_all_or_nothing_iff {cfg : Config} {clock : Timestamp} {db : Db} {s : Sys}
    {tr : List (Sys × Action)} {k : Nat} {r : Submit}
    (hedges : ∀ j d, (j, d) ∈ db.jobDependencies → j ∈ db.jobs ∧ d ∈ db.jobs)
    (hfk : ∀ j B, db.InBatch B j → B ∈ db.batches)
    (hrun : SysRun cfg (Sys.atRest clock db) tr s) (hk : s.proc k = some (.submit r)) :
    AllOrNothing cfg tr s k r ↔ ∀ p ∈ tr, p.2.failsUnderway cfg p.1 k = false :=
  (submissions_run hedges hfk hrun).allOrNothing_iff hk

/-- Nothing is in the system but the queue. -/
theorem noBatch_small (limit : Nat) (j B : UUID) (h : (Db.small limit []).InBatch B j) :
    B ∈ (Db.small limit []).batches := by
  obtain ⟨row, hrow, _⟩ := h
  cases hrow

/-- Job 7 is submitted and answered with 201. -/
def submitJobActions : List Action :=
  .start 0 (.submit 1 1 (.small [])) :: Action.runs 0 { now := 0, fresh := 7 } 5

theorem submission_all_or_nothing_accepted :
    ∃ tr s r, SysRun Config.small (Sys.atRest 0 (Db.small 1 [])) tr s ∧
      s.proc 0 = some (.submit r) ∧ r.created.map Prod.fst = [7] ∧
      AllOrNothing Config.small tr s 0 r :=
  have hrun := run_of_play (step Config.small) (Sys.atRest 0 (Db.small 1 [])) submitJobActions (by rfl)
  ⟨_, _, _, hrun, rfl, rfl,
    (submission_all_or_nothing_iff (edges_small 1 []) (noBatch_small 1) hrun rfl).mpr (by decide)⟩

/-- Every event has 8000 bytes. -/
def Config.large : Config := { Config.small with notifyBytes := fun _ => 8000 }

/-- The event of job 7 is too long for pg_notify: the answer is 500, and the job is
there. -/
theorem rejected_submission_adds_job :
    ∃ tr s r, SysRun Config.large (Sys.atRest 0 (Db.small 1 [])) tr s ∧
      s.proc 0 = some (.submit r) ∧ s.db.statusOf 7 = some .queued ∧
      ¬ AllOrNothing Config.large tr s 0 r := by
  have hrun := run_of_play (step Config.large) (Sys.atRest 0 (Db.small 1 [])) submitJobActions (by rfl)
  refine ⟨_, _, _, hrun, rfl, rfl, fun h => ?_⟩
  have hno := ((submissions_run (edges_small 1 []) (noBatch_small 1) hrun).allOrNothing_iff rfl).mp h
  exact absurd hno (by decide)

end JobScheduler
