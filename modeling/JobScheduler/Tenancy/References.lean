/-
  JobScheduler.Tenancy.References
  ───────────────────────────────
  References stay inside an organisation.  Queues belong to projects, jobs and
  batches to queues; a job shares its queue with its batch and with its
  dead-letter entry, and its organisation with its prerequisites.  This holds in
  every run of the whole service, project deletions included.

  A client that carries an id must not be misled by a row that is created later
  under that id: every id it carries names a row that exists, or is retired.
-/
import JobScheduler.Batch.Rows
import JobScheduler.Claiming.Capacity
import JobScheduler.DeadLetter.Revival
import JobScheduler.System.Service

namespace JobScheduler

open Relational Transition

/-! ## §1. The database. -/

/-- The organisation a job belongs to. -/
def Db.orgOfJob (db : Db) (jobId : UUID) : Option UUID :=
  (db.jobs.lookup jobId).bind (fun j => db.orgOfQueue j.queueId)

/-- Foreign keys, and what the references have in common with their targets. -/
structure Db.Tenanted (db : Db) : Prop where
  queues : ∀ q row, db.queues.lookup q = some row → row.projectId ∈ db.projects
  batches : ∀ b row, db.batches.lookup b = some row → row.queueId ∈ db.queues
  jobs : ∀ j row, db.jobs.lookup j = some row → row.queueId ∈ db.queues
  /-- A job and its batch sit in one queue. -/
  batchOf : ∀ j row b, db.jobs.lookup j = some row → row.batchId = some b →
    ∃ batch, db.batches.lookup b = some batch ∧ batch.queueId = row.queueId
  /-- So do a dead-letter entry and its job. -/
  entryOf : ∀ x entry j, db.deadLetterQueue.lookup x = some entry → entry.originalJobId = some j →
    ∃ row, db.jobs.lookup j = some row ∧ entry.queueId = some row.queueId
  /-- Both ends of an edge belong to queues of the same organisation. -/
  edges : ∀ j d, (j, d) ∈ db.jobDependencies →
    ∃ org, db.orgOfJob j = some org ∧ db.orgOfJob d = some org

/-- Every queue lies in an organisation. -/
theorem Db.Tenanted.orgOfQueue {db : Db} (hT : db.Tenanted) {q : UUID} (hq : q ∈ db.queues) :
    ∃ org, db.orgOfQueue q = some org := by
  obtain ⟨row, hrow⟩ := Option.isSome_iff_exists.mp (AList.lookup_isSome.mpr hq)
  obtain ⟨p, hp⟩ := Option.isSome_iff_exists.mp (AList.lookup_isSome.mpr (hT.queues q row hrow))
  exact ⟨p.orgId, by simp [Db.orgOfQueue, hrow, hp]⟩

/-- A job lies where its queue does. -/
theorem Db.orgOfJob_of_lookup {db : Db} {j : UUID} {row : Job} (h : db.jobs.lookup j = some row) :
    db.orgOfJob j = db.orgOfQueue row.queueId := by
  simp [Db.orgOfJob, h]

/-! ## §2. What a step does to the rows that others refer to. -/

/-- The rows of `u` are rows of `t` that refer to the same, or one row under a
fresh key. -/
def KeysFollow {α β : Type} (fresh : UUID) (ref : α → β) (t u : Table UUID α) : Prop :=
  ∀ k row, u.lookup k = some row →
    (∃ old, t.lookup k = some old ∧ ref row = ref old) ∨ (k = fresh ∧ k ∉ t)

theorem KeysFollow.refl {α β : Type} (fresh : UUID) (ref : α → β) (t : Table UUID α) :
    KeysFollow fresh ref t t := fun _ row h => .inl ⟨row, h, rfl⟩

theorem KeysFollow.of_lookup {α β : Type} {fresh : UUID} {ref : α → β} {t u : Table UUID α}
    (h : ∀ k, u.lookup k = t.lookup k) : KeysFollow fresh ref t u :=
  fun k row hk => .inl ⟨row, (h k).symm.trans hk, rfl⟩

/-- A new row under a new id keeps the references of the others. -/
theorem KeysFollow.insert {α β : Type} {fresh : UUID} {ref : α → β} {t : Table UUID α} {row : α}
    (hfresh : fresh ∉ t) : KeysFollow fresh ref t (t.insert fresh row) := by
  intro k r hk
  rcases Table.lookup_insert_eq_some.mp hk with ⟨rfl, _⟩ | ⟨_, hold⟩
  · exact .inr ⟨rfl, hfresh⟩
  · exact .inl ⟨r, hold, rfl⟩

/-- The id names a row of the table, or a deleted one. -/
def KnownId {α : Type} (retired : Finset UUID) (t : Table UUID α) (id : UUID) : Prop :=
  id ∈ t ∨ id ∈ retired

/-- A row under an id that was known is an old row. -/
theorem KeysFollow.old {α β : Type} {fresh : UUID} {ref : α → β} {t u : Table UUID α}
    {retired : Finset UUID} {k : UUID} {row : α} (h : KeysFollow fresh ref t u)
    (hfresh : fresh ∉ retired) (hk : KnownId retired t k) (hrow : u.lookup k = some row) :
    ∃ old, t.lookup k = some old ∧ ref row = ref old := by
  rcases h k row hrow with hold | ⟨rfl, hno⟩
  · exact hold
  · exact (hk.elim hno hfresh).elim

/-- How one step of the service changes the rows that others refer to. -/
structure Db.Follows (fresh : UUID) (retired : Finset UUID) (db : Db) (retired' : Finset UUID)
    (db' : Db) : Prop where
  unused : fresh ∉ retired
  projects : KeysFollow fresh Project.orgId db.projects db'.projects
  queues : KeysFollow fresh Queue.projectId db.queues db'.queues
  jobs : KeysFollow fresh Job.queueId db.jobs db'.jobs
  batches : KeysFollow fresh Batch.queueId db.batches db'.batches
  knownProjects : ∀ p, KnownId retired db.projects p → KnownId retired' db'.projects p
  knownQueues : ∀ q, KnownId retired db.queues q → KnownId retired' db'.queues q
  knownJobs : ∀ j, KnownId retired db.jobs j → KnownId retired' db'.jobs j
  knownBatches : ∀ b, KnownId retired db.batches b → KnownId retired' db'.batches b

section
variable {fresh : UUID} {retired retired' : Finset UUID} {db db' : Db}

/-- A queue that is still there belongs to the same organisation. -/
theorem Db.Follows.orgOfQueue (hF : Db.Follows fresh retired db retired' db') (hT : db.Tenanted)
    (hqueues : ∀ q row, db'.queues.lookup q = some row → row.projectId ∈ db'.projects) {q : UUID}
    (hknown : KnownId retired db.queues q) (hq : q ∈ db'.queues) :
    q ∈ db.queues ∧ db'.orgOfQueue q = db.orgOfQueue q := by
  obtain ⟨row', hrow'⟩ := Option.isSome_iff_exists.mp (AList.lookup_isSome.mpr hq)
  obtain ⟨row, hrow, hsame⟩ := hF.queues.old hF.unused hknown hrow'
  obtain ⟨p', hp'⟩ :=
    Option.isSome_iff_exists.mp (AList.lookup_isSome.mpr (hqueues q row' hrow'))
  have hproject : KnownId retired db.projects row'.projectId := by
    rw [hsame]
    exact .inl (hT.queues q row hrow)
  obtain ⟨p, hp, horg⟩ := hF.projects.old hF.unused hproject hp'
  refine ⟨AList.lookup_isSome.mp (by simp [hrow]), ?_⟩
  simp [Db.orgOfQueue, hrow', hrow, hp', hsame ▸ hp, horg]

/-- A job keeps its organisation as long as it is there. -/
theorem Db.Follows.orgOfJob (hF : Db.Follows fresh retired db retired' db') (hT : db.Tenanted)
    (hqueues : ∀ q row, db'.queues.lookup q = some row → row.projectId ∈ db'.projects)
    (hjobs : ∀ j row, db'.jobs.lookup j = some row → row.queueId ∈ db'.queues) {j : UUID}
    (hknown : KnownId retired db.jobs j) (hj : j ∈ db'.jobs) :
    j ∈ db.jobs ∧ db'.orgOfJob j = db.orgOfJob j := by
  obtain ⟨row', hrow'⟩ := Option.isSome_iff_exists.mp (AList.lookup_isSome.mpr hj)
  obtain ⟨row, hrow, hsame⟩ := hF.jobs.old hF.unused hknown hrow'
  refine ⟨AList.lookup_isSome.mp (by simp [hrow]), ?_⟩
  have hq' := hjobs j row' hrow'
  rw [Db.orgOfJob_of_lookup hrow', Db.orgOfJob_of_lookup hrow, ← hsame]
  exact (hF.orgOfQueue hT hqueues (.inl (hsame ▸ hT.jobs j row hrow)) hq').2

end

/-! ## §3. What the clients carry. -/

/-- The job a client carries, and the queue of the row it has read. -/
def CarriesJob (retired : Finset UUID) (db : Db) (jobId queueId : UUID) : Prop :=
  KnownId retired db.jobs jobId ∧ ∀ row, db.jobs.lookup jobId = some row → row.queueId = queueId

/-- A submission that has passed its first check and still inserts. -/
def SubmitPc.admitted : SubmitPc → Bool
  | .checkDependencies | .insertBatch | .insertJob _ _ | .attach _ _ _ _ => true
  | _ => false

/-- A submission that has passed both checks and still inserts. -/
def SubmitPc.building : SubmitPc → Bool
  | .insertBatch | .insertJob _ _ | .attach _ _ _ _ => true
  | _ => false

/-- A listed prerequisite belongs to the organisation of the target queue, as
long as both exist. -/
def Submit.InOrg (retired : Finset UUID) (db : Db) (r : Submit) (d : UUID) : Prop :=
  KnownId retired db.jobs d ∧ ∀ row, db.jobs.lookup d = some row → r.queueId ∈ db.queues →
    db.orgOfQueue row.queueId = db.orgOfQueue r.queueId

/-- The invariant of a submission: what it has created lies in its queue, and what it depends on
in the queue's organisation. -/
structure Submit.Tenanted (retired : Finset UUID) (db : Db) (r : Submit) : Prop where
  queue : r.pc.admitted = true → KnownId retired db.queues r.queueId
  early : r.pc = .checkQueue ∨ r.pc = .checkDependencies → r.created = []
  created : ∀ j, r.Created j → CarriesJob retired db j r.queueId
  attach : ∀ j d todo rest, r.pc = .attach j d todo rest →
    r.Created j ∧ ∀ x ∈ d :: todo, x ∈ r.body.dependsOn
  dependencies : r.pc.building = true → ∀ d ∈ r.body.dependsOn, r.InOrg retired db d
  items : ∀ item ∈ r.todo, ∀ b, item.batchId = some b →
    KnownId retired db.batches b ∧ ∀ batch, db.batches.lookup b = some batch → batch.queueId = r.queueId

/-- What a client carries agrees with the database. -/
def Proc.Tenanted (retired : Finset UUID) (db : Db) : Proc → Prop
  | .claim c => ∀ j row, c.pc = .committing (some (j, row)) → CarriesJob retired db j row.queueId
  | .exec e => CarriesJob retired db e.jobId e.job.queueId
  | .submit r => r.Tenanted retired db
  | _ => True

/-- References stay inside an organisation. -/
structure Tenancy (v : Service) : Prop where
  db : v.sys.db.Tenanted
  clients : ∀ k p, v.sys.proc k = some p → p.Tenanted v.retired v.sys.db

section
variable {fresh : UUID} {retired retired' : Finset UUID} {db db' : Db}

/-- What a request has created stays in its queue. -/
theorem CarriesJob.follows (hF : Db.Follows fresh retired db retired' db') {jobId queueId : UUID}
    (hC : CarriesJob retired db jobId queueId) : CarriesJob retired' db' jobId queueId := by
  refine ⟨hF.knownJobs _ hC.1, fun row' hrow' => ?_⟩
  obtain ⟨row, hrow, hsame⟩ := hF.jobs.old hF.unused hC.1 hrow'
  exact hsame.trans (hC.2 row hrow)

/-- A dependency stays in the organisation. -/
theorem Submit.InOrg.follows (hF : Db.Follows fresh retired db retired' db') (hT : db.Tenanted)
    (hT' : db'.Tenanted) {r : Submit} (hqueue : KnownId retired db.queues r.queueId) {d : UUID}
    (hO : r.InOrg retired db d) : r.InOrg retired' db' d := by
  refine ⟨hF.knownJobs _ hO.1, fun row' hrow' hq' => ?_⟩
  obtain ⟨row, hrow, hsame⟩ := hF.jobs.old hF.unused hO.1 hrow'
  obtain ⟨hq, hleft⟩ := hF.orgOfQueue hT hT'.queues hqueue hq'
  have hright := hF.orgOfQueue hT hT'.queues (.inl (hsame ▸ hT.jobs d row hrow)) (hT'.jobs d row' hrow')
  rw [hleft, hright.2, hsame]
  exact hO.2 row hrow hq

theorem SubmitPc.admitted_of_building {pc : SubmitPc} (h : pc.building = true) :
    pc.admitted = true := by
  cases pc <;> first | rfl | cases h

/-- A submission that does not move keeps its invariant. -/
theorem Submit.Tenanted.follows (hF : Db.Follows fresh retired db retired' db') (hT : db.Tenanted)
    (hT' : db'.Tenanted) {r : Submit} (hR : r.Tenanted retired db) : r.Tenanted retired' db' where
  queue hpc := hF.knownQueues _ (hR.queue hpc)
  early := hR.early
  created j hj := (hR.created j hj).follows hF
  attach := hR.attach
  dependencies hpc d hd :=
    (hR.dependencies hpc d hd).follows hF hT hT' (hR.queue (SubmitPc.admitted_of_building hpc))
  items item hitem b hb := by
    obtain ⟨hknown, hsame⟩ := hR.items item hitem b hb
    refine ⟨hF.knownBatches _ hknown, fun batch' hbatch' => ?_⟩
    obtain ⟨batch, hbatch, heq⟩ := hF.batches.old hF.unused hknown hbatch'
    exact heq.trans (hsame batch hbatch)

/-- A client that does not move keeps what it carries. -/
theorem Proc.Tenanted.follows (hF : Db.Follows fresh retired db retired' db') (hT : db.Tenanted)
    (hT' : db'.Tenanted) {p : Proc} (hp : p.Tenanted retired db) : p.Tenanted retired' db' := by
  cases p with
  | claim c => exact fun j row hpc => (hp j row hpc).follows hF
  | exec e => exact CarriesJob.follows hF hp
  | submit r => exact Submit.Tenanted.follows hF hT hT' hp
  | retry | replay | cancel | patch | tick => trivial

end

/-! ## §4. Steps of the clients. -/

section
variable {cfg : Config} {ctx : Ctx} {env : Env} {db db' : Db} {p p' : Proc} {retired : Finset UUID}

/-- No statement of these clients writes `projects` or `organization_members`. -/
theorem Proc.step_accounts (h : p.step cfg ctx env db = some (db', p')) :
    db'.projects = db.projects ∧ db'.members = db.members := by
  cases Proc.stepped h with
  | claim c c' hq => cases Claim.stepped hq <;> exact ⟨rfl, rfl⟩
  | exec e e' hq =>
      obtain ⟨_, ⟨_, rfl, _⟩ | ⟨_, rfl, _⟩⟩ := Exec.step_cases hq
      · exact ⟨rfl, rfl⟩
      · unfold Exec.effect
        split <;> exact ⟨rfl, rfl⟩
  | submit r r' hq => cases Submit.stepped hq <;> exact ⟨rfl, rfl⟩
  | retry r r' hq => cases Retry.stepped hq <;> exact ⟨rfl, rfl⟩
  | replay r r' hq => cases Replay.stepped hq <;> exact ⟨rfl, rfl⟩
  | cancel r r' hq => cases Cancel.stepped hq <;> exact ⟨rfl, rfl⟩
  | patch r r' hq => cases Patch.stepped hq <;> exact ⟨rfl, rfl⟩
  | tick t t' hq =>
      obtain ⟨_, ⟨_, rfl, _⟩ | ⟨_, rfl, _⟩⟩ := Tick.step_cases hq
      · exact ⟨rfl, rfl⟩
      · unfold Tick.effect
        split <;> first | exact ⟨rfl, rfl⟩ | (split <;> exact ⟨rfl, rfl⟩)

/-- A queue keeps its project, and none is inserted. -/
theorem Proc.step_queueProject (h : p.step cfg ctx env db = some (db', p')) {q : UUID} {row' : Queue}
    (hq : db'.queues.lookup q = some row') :
    ∃ row, db.queues.lookup q = some row ∧ row'.projectId = row.projectId := by
  rcases Proc.step_queue h q with heq | ⟨r, _, _, _, heq⟩
  · exact ⟨row', heq ▸ hq, rfl⟩
  · rw [heq] at hq
    obtain ⟨row, hrow, rfl⟩ := Option.map_eq_some_iff.mp hq
    exact ⟨row, hrow, rfl⟩

/-- The clients insert and delete no queues. -/
theorem Proc.step_mem_queues (h : p.step cfg ctx env db = some (db', p')) (q : UUID) :
    q ∈ db'.queues ↔ q ∈ db.queues := by
  rw [← AList.lookup_isSome, ← AList.lookup_isSome]
  rcases Proc.step_queue h q with heq | ⟨_, _, _, _, heq⟩ <;> rw [heq]
  simp

/-- A job that a statement inserts goes into an existing queue; only a submission
puts it into a batch. -/
theorem Proc.step_inserted (h : p.step cfg ctx env db = some (db', p'))
    (href : p.referencesHold db = true) {j : UUID} {row : Job} (hold : db.jobs.lookup j = none)
    (hnew : db'.jobs.lookup j = some row) :
    j = env.fresh ∧ row.queueId ∈ db.queues ∧ (row.batchId = none ∨
      ∃ r item rest, p = .submit r ∧ r.pc = .insertJob item rest ∧ row = r.row env.now item) := by
  have hch := Proc.step_jobs (j := j) h
  rw [hold, hnew] at hch
  generalize hrow : some row = new at hch
  generalize hnone : (none : Option Job) = old at hch
  cases hch with
  | same => rw [← hrow] at hnone; cases hnone
  | submitted r item rest hpc hj =>
      cases hrow
      simp only [Proc.referencesHold, hpc, Bool.and_eq_true, decide_eq_true_eq] at href
      exact ⟨hj.symm, href.1, .inr ⟨r, item, rest, rfl, hpc, rfl⟩⟩
  | recreated r queueId payload q hpc hj =>
      cases hrow
      refine ⟨hj.symm, ?_, .inl rfl⟩
      -- the row comes from the SELECT on `queues`
      obtain ⟨⟨d, r'⟩, hr, he⟩ := Option.map_eq_some_iff.mp h
      cases he
      simp only [Replay.step, hpc] at hr
      (repeat' split at hr) <;> cases hr
      · rw [hold] at hnew; cases hnew
      · rw [hold] at hnew; cases hnew
      · exact AList.lookup_isSome.mp (by simp [Replay.replayedRow, ‹db.queues.lookup queueId = _›])
  | dispatched t id sj rest q hpc hj =>
      cases hrow
      refine ⟨hj.symm, ?_, .inl rfl⟩
      obtain ⟨⟨d, t'⟩, ht, he⟩ := Option.map_eq_some_iff.mp h
      cases he
      obtain ⟨_, ⟨_, hdb, _⟩ | ⟨_, hdb, _⟩⟩ := Tick.step_cases ht
      · rw [hdb, hold] at hnew
        cases hnew
      · simp only [Tick.effect, hpc] at hdb
        cases hq : db.queues.lookup sj.queueId with
        | none =>
            simp only [hq] at hdb
            rw [hdb, hold] at hnew
            cases hnew
        | some _ => exact AList.lookup_isSome.mp (by simp [Tick.recurringRow, hq])
  | claimed | running | completed | released | requeued | deadLettered | retried | replayed
  | cancelled | flipped => cases hnone

/-- An existing job keeps its queue and its batch. -/
theorem Proc.step_definition (h : p.step cfg ctx env db = some (db', p')) {j : UUID} {old : Job}
    (hold : db.jobs.lookup j = some old) :
    ∃ row, db'.jobs.lookup j = some row ∧ old.SameDefinition row := by
  have hch := Proc.step_jobs (j := j) h
  rw [hold] at hch
  exact hch.sameDefinition

/-- What a statement does to a batch row. -/
theorem Proc.step_batchQueue (h : p.step cfg ctx env db = some (db', p')) {b : UUID} {row' : Batch}
    (hb : db'.batches.lookup b = some row') :
    (∃ row, db.batches.lookup b = some row ∧ row'.queueId = row.queueId) ∨
      (b = env.fresh ∧ b ∉ db.batches ∧
        ∃ r, p = .submit r ∧ r.pc = .insertBatch ∧ row' = r.batchRow env.now) := by
  have hch := Proc.step_batches (B := b) h
  rw [hb] at hch
  generalize hold : db.batches.lookup b = old at hch
  generalize hnew : some row' = new at hch
  cases hch with
  | same => exact .inl ⟨row', hnew.symm, rfl⟩
  | inserted r hpc hf =>
      cases hnew
      exact .inr ⟨hf.symm, AList.lookup_eq_none.mp hold, r, rfl, hpc, rfl⟩
  | progressed e result old =>
      cases hnew
      exact .inl ⟨old, rfl, by cases result <;> rfl⟩
  | finalised | cancelled => cases hnew; exact .inl ⟨_, rfl, rfl⟩

/-- A batch stays in its queue. -/
theorem Proc.step_batchStays (h : p.step cfg ctx env db = some (db', p')) {b : UUID} {row : Batch}
    (hb : db.batches.lookup b = some row) :
    ∃ row', db'.batches.lookup b = some row' ∧ row'.queueId = row.queueId := by
  have hch := Proc.step_batches (B := b) h
  rw [hb] at hch
  generalize hnew : db'.batches.lookup b = new at hch
  generalize hold : some row = old at hch
  cases hch with
  | same => exact ⟨row, hold.symm, rfl⟩
  | inserted => cases hold
  | progressed e result old => cases hold; exact ⟨_, rfl, by cases result <;> rfl⟩
  | finalised | cancelled => cases hold; exact ⟨_, rfl, rfl⟩

/-- The statement of a client keeps all references. -/
theorem Proc.step_follows (h : p.step cfg ctx env db = some (db', p')) (hfresh : env.fresh ∉ retired) :
    Db.Follows env.fresh retired db retired db' where
  unused := hfresh
  projects := .of_lookup (fun k => by rw [(Proc.step_accounts h).1])
  queues := fun q row hq => .inl (Proc.step_queueProject h hq)
  jobs := by
    intro j row hrow
    cases hold : db.jobs.lookup j with
    | some old =>
        obtain ⟨row', hrow', hsame⟩ := Proc.step_definition h hold
        rw [hrow] at hrow'
        cases hrow'
        exact .inl ⟨old, rfl, hsame.queueId⟩
    | none =>
        have hch := Proc.step_jobs (j := j) h
        rw [hold, hrow] at hch
        refine .inr ⟨?_, AList.lookup_eq_none.mp hold⟩
        generalize hr : some row = new at hch
        generalize hn : (none : Option Job) = old at hch
        cases hch with
        | same => rw [← hr] at hn; cases hn
        | submitted _ _ _ _ hj | recreated _ _ _ _ _ hj | dispatched _ _ _ _ _ _ hj => exact hj.symm
        | _ => cases hn
  batches := by
    intro b row hb
    rcases Proc.step_batchQueue h hb with hold | ⟨hf, hno, _⟩
    · exact .inl hold
    · exact .inr ⟨hf, hno⟩
  knownProjects := fun p hp => by rw [(Proc.step_accounts h).1]; exact hp
  knownQueues := fun q hq => hq.imp_left (Proc.step_mem_queues h q).mpr
  knownJobs := by
    intro j hj
    refine hj.imp_left (fun hmem => ?_)
    obtain ⟨old, hold⟩ := Option.isSome_iff_exists.mp (AList.lookup_isSome.mpr hmem)
    obtain ⟨row, hrow, _⟩ := Proc.step_definition h hold
    exact AList.lookup_isSome.mp (by simp [hrow])
  knownBatches := by
    intro b hb
    refine hb.imp_left (fun hmem => ?_)
    obtain ⟨old, hold⟩ := Option.isSome_iff_exists.mp (AList.lookup_isSome.mpr hmem)
    obtain ⟨row, hrow, _⟩ := Proc.step_batchStays h hold
    exact AList.lookup_isSome.mp (by simp [hrow])

end

/-! ## §5. The references after a step of a client. -/

section
variable {cfg : Config} {ctx : Ctx} {env : Env} {db db' : Db} {p p' : Proc} {retired : Finset UUID}

/-- Queues, jobs and batches go where their foreign keys point. -/
theorem Db.Tenanted.keys_step (hT : db.Tenanted) (h : p.step cfg ctx env db = some (db', p'))
    (href : p.referencesHold db = true) :
    (∀ q row, db'.queues.lookup q = some row → row.projectId ∈ db'.projects) ∧
      (∀ j row, db'.jobs.lookup j = some row → row.queueId ∈ db'.queues) ∧
      (∀ b row, db'.batches.lookup b = some row → row.queueId ∈ db'.queues) := by
  refine ⟨?_, ?_, ?_⟩
  · intro q row' hq
    obtain ⟨row, hrow, hsame⟩ := Proc.step_queueProject h hq
    rw [(Proc.step_accounts h).1, hsame]
    exact hT.queues q row hrow
  · intro j row hrow
    rw [Proc.step_mem_queues h]
    cases hold : db.jobs.lookup j with
    | none => exact (Proc.step_inserted h href hold hrow).2.1
    | some old =>
        obtain ⟨row', hrow', hsame⟩ := Proc.step_definition h hold
        rw [hrow] at hrow'
        cases hrow'
        rw [hsame.queueId]
        exact hT.jobs j old hold
  · intro b row hb
    rw [Proc.step_mem_queues h]
    rcases Proc.step_batchQueue h hb with ⟨old, hold, hsame⟩ | ⟨_, _, r, rfl, hpc, rfl⟩
    · rw [hsame]
      exact hT.batches b old hold
    · simpa [Proc.referencesHold, hpc, Submit.batchRow] using href

/-- A job shares its queue with its batch. -/
theorem Db.Tenanted.batchOf_step (hT : db.Tenanted) (hp : p.Tenanted retired db)
    (h : p.step cfg ctx env db = some (db', p')) (href : p.referencesHold db = true) {j b : UUID}
    {row : Job} (hrow : db'.jobs.lookup j = some row) (hb : row.batchId = some b) :
    ∃ batch, db'.batches.lookup b = some batch ∧ batch.queueId = row.queueId := by
  have hstays : ∀ batch, db.batches.lookup b = some batch → batch.queueId = row.queueId →
      ∃ batch', db'.batches.lookup b = some batch' ∧ batch'.queueId = row.queueId := by
    intro batch hbatch hq
    obtain ⟨batch', hbatch', hsame⟩ := Proc.step_batchStays h hbatch
    exact ⟨batch', hbatch', hsame.trans hq⟩
  cases hold : db.jobs.lookup j with
  | some old =>
      obtain ⟨row', hrow', hsame⟩ := Proc.step_definition h hold
      rw [hrow] at hrow'
      cases hrow'
      rw [hsame.batchId] at hb
      obtain ⟨batch, hbatch, hq⟩ := hT.batchOf j old b hold hb
      exact hstays batch hbatch (hq.trans hsame.queueId.symm)
  | none =>
      rcases (Proc.step_inserted h href hold hrow).2.2 with hno | ⟨r, item, rest, rfl, hpc, rfl⟩
      · rw [hno] at hb
        cases hb
      · -- the item names a batch that the same request has inserted
        simp only [Proc.referencesHold, hpc, Bool.and_eq_true] at href
        have hmem : b ∈ db.batches := by
          have hall := href.2
          rw [show item.batchId = some b from hb] at hall
          exact of_decide_eq_true hall
        obtain ⟨batch, hbatch⟩ := Option.isSome_iff_exists.mp (AList.lookup_isSome.mpr hmem)
        have hitem := Submit.Tenanted.items hp item (by simp [Submit.todo, hpc]) b hb
        exact hstays batch hbatch (hitem.2 batch hbatch)

/-- A dead-letter entry shares its queue with its job. -/
theorem Db.Tenanted.entryOf_step (hT : db.Tenanted) (hp : p.Tenanted retired db)
    (h : p.step cfg ctx env db = some (db', p')) (href : p.referencesHold db = true) {x j : UUID}
    {entry : DeadLetterEntry} (hentry : db'.deadLetterQueue.lookup x = some entry)
    (hj : entry.originalJobId = some j) :
    ∃ row, db'.jobs.lookup j = some row ∧ entry.queueId = some row.queueId := by
  have hstays : ∀ row, db.jobs.lookup j = some row → entry.queueId = some row.queueId →
      ∃ row', db'.jobs.lookup j = some row' ∧ entry.queueId = some row'.queueId := by
    intro row hrow hq
    obtain ⟨row', hrow', hsame⟩ := Proc.step_definition h hrow
    exact ⟨row', hrow', hsame.queueId ▸ hq⟩
  have hch := Proc.step_deadLetters (x := x) h
  rw [hentry] at hch
  generalize hold : db.deadLetterQueue.lookup x = old at hch
  generalize hnew : some entry = new at hch
  cases hch with
  | same =>
      obtain ⟨row, hrow, hq⟩ := hT.entryOf x entry j (hold.trans hnew.symm) hj
      exact hstays row hrow hq
  | deleted => cases hnew
  | buried e error hpc =>
      cases hnew
      obtain rfl := Option.some.inj hj
      simp only [Proc.referencesHold, hpc, Bool.and_eq_true, decide_eq_true_eq] at href
      obtain ⟨row, hrow⟩ := Option.isSome_iff_exists.mp (AList.lookup_isSome.mpr href.1)
      have hcarries : CarriesJob retired db e.jobId e.job.queueId := hp
      exact hstays row hrow (by rw [hcarries.2 row hrow]; rfl)

/-- An edge joins two jobs of one organisation. -/
theorem Db.Tenanted.edges_step (hT : db.Tenanted) (hp : p.Tenanted retired db)
    (h : p.step cfg ctx env db = some (db', p')) (href : p.referencesHold db = true)
    (hF : Db.Follows env.fresh retired db retired db') {j d : UUID}
    (he : (j, d) ∈ db'.jobDependencies) :
    ∃ org, db'.orgOfJob j = some org ∧ db'.orgOfJob d = some org := by
  have hkeys := hT.keys_step h href
  have hkeep : ∀ i org, db.orgOfJob i = some org → db'.orgOfJob i = some org := by
    intro i org hi
    obtain ⟨row, hrow, _⟩ := Option.bind_eq_some_iff.mp hi
    obtain ⟨row', hrow', _⟩ := Proc.step_definition h hrow
    rw [(hF.orgOfJob hT hkeys.1 hkeys.2.1 (.inl (AList.lookup_isSome.mp (by simp [hrow])))
      (AList.lookup_isSome.mp (by simp [hrow']))).2, hi]
  have hold : (j, d) ∈ db.jobDependencies → ∃ org, db'.orgOfJob j = some org ∧ db'.orgOfJob d = some org := by
    intro hmem
    obtain ⟨org, hj, hd⟩ := hT.edges j d hmem
    exact ⟨org, hkeep j org hj, hkeep d org hd⟩
  rcases Proc.step_dependencies h with heq | ⟨r, i, x, todo, rest, rfl, hpc, hx, rfl⟩
  · exact hold (heq ▸ he)
  · rcases mem_insertDependency.mp he with hmem | hnew
    · exact hold hmem
    · obtain ⟨rfl, rfl⟩ := Prod.mk.inj hnew
      -- the foreign key finds the job that the request has created
      simp only [Proc.referencesHold, hpc, decide_eq_true_eq] at href
      obtain ⟨row, hrow⟩ := Option.isSome_iff_exists.mp (AList.lookup_isSome.mpr href)
      obtain ⟨drow, hdrow⟩ := Option.isSome_iff_exists.mp (AList.lookup_isSome.mpr hx)
      obtain ⟨hcreated, hlist⟩ := Submit.Tenanted.attach hp j d todo rest hpc
      have hqueue : row.queueId = r.queueId := (Submit.Tenanted.created hp j hcreated).2 row hrow
      have hmem : r.queueId ∈ db.queues := hqueue ▸ hT.jobs j row hrow
      obtain ⟨org, horg⟩ := hT.orgOfQueue hmem
      have hsame := (Submit.Tenanted.dependencies hp (by rw [hpc]; rfl) d
        (hlist d List.mem_cons_self)).2 drow hdrow hmem
      refine ⟨org, hkeep j org ?_, hkeep d org ?_⟩
      · rw [Db.orgOfJob_of_lookup hrow, hqueue, horg]
      · rw [Db.orgOfJob_of_lookup hdrow, hsame, horg]

/-- **A statement of a client keeps references inside an organisation.** -/
theorem Db.Tenanted.proc_step (hT : db.Tenanted) (hp : p.Tenanted retired db)
    (h : p.step cfg ctx env db = some (db', p')) (hfresh : env.fresh ∉ retired)
    (href : env.fails = false → p.referencesHold db = true) : db'.Tenanted := by
  cases hf : env.fails with
  | true =>
      rw [Proc.step_failed h hf]
      exact hT
  | false =>
      have hR := href hf
      obtain ⟨hqueues, hjobs, hbatches⟩ := hT.keys_step h hR
      exact {
        queues := hqueues
        jobs := hjobs
        batches := hbatches
        batchOf := fun j row b hrow hb => hT.batchOf_step hp h hR hrow hb
        entryOf := fun x entry j hentry hj => hT.entryOf_step hp h hR hentry hj
        edges := fun j d he => hT.edges_step hp h hR (Proc.step_follows h hfresh) he }

/-! ## §6. What a client carries after its own statement. -/

/-- `dependenciesAreSatisfied` answers for jobs of the organisation only. -/
theorem dependenciesAreSatisfied_org {queueId userId : UUID} {dependsOn : List UuidText}
    {satisfied : Bool} (h : dependenciesAreSatisfied db queueId userId dependsOn = some satisfied)
    {d : UUID} (hd : d ∈ dependsOn.map (·.value)) :
    ∃ row, db.jobs.lookup d = some row ∧ db.orgOfQueue row.queueId = db.orgOfQueue queueId := by
  obtain ⟨x, hx, rfl⟩ := List.mem_map.mp hd
  obtain ⟨row, hrow, _⟩ := dependencyRow_of_satisfied h hx
  obtain ⟨hlook, org, horg, horg', _⟩ := dependencyRow_eq_some hrow
  exact ⟨row, hlook, horg'.trans horg.symm⟩

end

section
variable {cfg : Config} {env : Env} {db db' : Db} {r r' : Submit} {retired : Finset UUID}

/-- A statement leaves the request as it came in. -/
theorem Submit.Stepped.params (h : Submit.Stepped cfg env r db db' r') :
    r'.queueId = r.queueId ∧ r'.userId = r.userId := by
  cases h with
  | dependenciesChecked _ satisfied _ =>
      obtain ⟨pc, hpc, _⟩ := Submit.dispatch_eq cfg env.now
        { r with initialStatus := initialJobStatus r.body.type satisfied }
      rw [hpc]
      exact ⟨rfl, rfl⟩
  | batchInserted _ _ q hq | jobInserted _ _ _ _ q hq => subst hq; exact ⟨rfl, rfl⟩
  | _ => exact ⟨rfl, rfl⟩

/-- A request comes to its INSERTs through its two checks. -/
theorem Submit.Stepped.building (h : Submit.Stepped cfg env r db db' r')
    (hpc : r'.pc.building = true) :
    r.pc.building = true ∨ r.pc = .checkDependencies ∧ db' = db ∧
      ∃ satisfied, dependenciesAreSatisfied db r.queueId r.userId r.body.dependsOnTexts = some satisfied := by
  cases h with
  | failed | queueChecked | scheduleInserted | published | replied => cases hpc
  | dependenciesChecked hq satisfied hs => exact .inr ⟨hq, rfl, satisfied, hs⟩
  | batchInserted hq => exact .inl (by rw [hq]; rfl)
  | jobInserted _ _ hq => exact .inl (by rw [hq]; rfl)
  | attached _ _ _ _ hq => exact .inl (by rw [hq]; rfl)

theorem Submit.Stepped.admitted (h : Submit.Stepped cfg env r db db' r')
    (hpc : r'.pc.admitted = true) :
    r.pc.admitted = true ∨ r.pc = .checkQueue ∧ r'.pc = .checkDependencies := by
  cases h with
  | failed | scheduleInserted | published | replied => cases hpc
  | queueChecked hq => exact .inr ⟨hq, rfl⟩
  | dependenciesChecked hq => exact .inl (by rw [hq]; rfl)
  | batchInserted hq => exact .inl (by rw [hq]; rfl)
  | jobInserted _ _ hq => exact .inl (by rw [hq]; rfl)
  | attached _ _ _ _ hq => exact .inl (by rw [hq]; rfl)

/-- The first check passes for an existing queue only. -/
theorem Submit.step_checkQueue (h : r.step cfg env db = some (db', r')) (hpc : r.pc = .checkQueue)
    (hpc' : r'.pc = .checkDependencies) : db.canOperate r.queueId r.userId = true := by
  simp only [Submit.step, hpc] at h
  split at h
  · cases h
    simp [Submit.fail, Submit.goto] at hpc'
  · split at h
    · assumption
    · cases h
      simp [Submit.fail, Submit.goto] at hpc'

/-- Who may operate a queue has found it. -/
theorem Db.mem_queues_of_canOperate {queueId userId : UUID}
    (h : db.canOperate queueId userId = true) : queueId ∈ db.queues := by
  unfold Db.canOperate at h
  split at h
  · cases h
  · rename_i horg
    obtain ⟨q, hq, _⟩ := Option.bind_eq_some_iff.mp horg
    exact AList.lookup_isSome.mp (by simp [hq])

/-- The jobs a request has created are in its queue. -/
theorem Submit.Tenanted.created_step (hR : r.Tenanted retired db')
    (h : Submit.Stepped cfg env r db db' r') {j : UUID} (hj : r'.Created j) :
    CarriesJob retired db' j r'.queueId := by
  have hparams := h.params
  rw [hparams.1]
  by_cases hold : r.Created j
  · exact hR.created j hold
  · cases h with
    | dependenciesChecked _ satisfied _ =>
        obtain ⟨pc, hpc, _⟩ := Submit.dispatch_eq cfg env.now
          { r with initialStatus := initialJobStatus r.body.type satisfied }
        rw [hpc] at hj
        exact absurd hj hold
    | batchInserted _ _ q hq => subst hq; exact absurd hj hold
    | jobInserted item rest _ _ q hq =>
        subst hq
        simp only [Submit.Created, Submit.goto, List.map_append, List.map_cons, List.map_nil,
          List.mem_append, List.mem_singleton] at hj
        obtain rfl := hj.resolve_left hold
        refine ⟨.inl (AList.lookup_isSome.mp (by simp)), fun row hrow => ?_⟩
        rw [insertJob_lookup, if_pos rfl] at hrow
        obtain rfl := Option.some.inj hrow
        rfl
    | _ => exact absurd hj hold

/-- Its items go into its batch, which is in its queue. -/
theorem Submit.Tenanted.items_step (hR : r.Tenanted retired db')
    (h : Submit.Stepped cfg env r db db' r') {item : JobItem} (hitem : item ∈ r'.todo) {b : UUID}
    (hb : item.batchId = some b) :
    KnownId retired db'.batches b ∧
      ∀ batch, db'.batches.lookup b = some batch → batch.queueId = r'.queueId := by
  rw [h.params.1]
  cases h.moved with
  | kept _ ht _ _ => exact hR.items item (ht ▸ hitem) b hb
  | failed _ _ ht _ _ => rw [ht] at hitem; cases hitem
  | dispatched _ _ ht _ => rw [ht item hitem] at hb; cases hb
  | created _ _ _ ht hdb =>
      rw [ht] at hitem
      obtain ⟨bj, _, rfl⟩ := List.mem_map.mp hitem
      obtain rfl := Option.some.inj hb
      subst hdb
      refine ⟨.inl (AList.lookup_isSome.mp (by simp)), fun batch hbatch => ?_⟩
      rw [insertBatch_lookup, if_pos rfl] at hbatch
      obtain rfl := Option.some.inj hbatch
      rfl
  | inserted first htodo _ _ _ => exact hR.items item (by rw [htodo]; exact List.mem_cons_of_mem _ hitem) b hb

/-- What a request carries after its own statement. -/
theorem Submit.Tenanted.step (hR : r.Tenanted retired db') (h : r.step cfg env db = some (db', r')) :
    r'.Tenanted retired db' := by
  have hs := Submit.stepped h
  have hbody := (hs.created 0).1
  refine ⟨?_, ?_, ?_, ?_, ?_, ?_⟩
  · intro hpc
    rw [hs.params.1]
    rcases hs.admitted hpc with hold | ⟨hq, hq'⟩
    · exact hR.queue hold
    · have hmem := Db.mem_queues_of_canOperate (Submit.step_checkQueue h hq hq')
      simp only [Submit.step, hq] at h
      (repeat' split at h) <;> cases h <;> exact .inl hmem
  · intro hpc
    obtain ⟨hq, hsame⟩ := hs.early hpc
    rw [hsame]
    exact hR.early (.inl hq)
  · intro j hj
    exact hR.created_step hs hj
  · intro j d todo rest hpc
    rcases hs.attach hpc with ⟨hc, _, hlist⟩ | ⟨x, hat, _⟩
    · exact ⟨hc, fun y hy => by rw [hbody, ← hlist]; exact hy⟩
    · obtain ⟨hc, hsub⟩ := hR.attach j x (d :: todo) rest hat
      exact ⟨(hs.created j).2.1 hc, fun y hy => hbody ▸ hsub y (List.mem_cons_of_mem _ hy)⟩
  · intro hpc d hd
    rw [hbody] at hd
    unfold Submit.InOrg
    rw [hs.params.1]
    rcases hs.building hpc with hold | ⟨_, rfl, satisfied, hsat⟩
    · exact hR.dependencies hold d hd
    · obtain ⟨row, hrow, horg⟩ := dependenciesAreSatisfied_org hsat hd
      refine ⟨.inl (AList.lookup_isSome.mp (by simp [hrow])), fun row' hrow' _ => ?_⟩
      rw [hrow] at hrow'
      cases hrow'
      exact horg
  · intro item hitem b hb
    exact hR.items_step hs hitem hb

end

section
variable {cfg : Config} {ctx : Ctx} {env : Env} {db db' : Db} {p p' : Proc} {retired : Finset UUID}

theorem Request.start_tenanted (now : Timestamp) (r : Request) : (r.start now).Tenanted retired db := by
  cases r with
  | claim workerId queueIds shardKey =>
      intro j row hpc
      cases hpc
  | submit userId queueId body =>
      exact {
        queue := fun h => by cases h
        early := fun _ => rfl
        created := fun j hj => by simp [Submit.Created] at hj
        attach := fun _ _ _ _ h => by cases h
        dependencies := fun h => by cases h
        items := fun item hitem => by simp [Submit.todo] at hitem }
  | retry | replay | cancel | patch | tick => trivial

/-- The row that a claim takes is in the queue that its copy names, and so is the
job of the execution that the COMMIT starts. -/
theorem Claim.tenanted_step {c c' : Claim} (h : c.step ctx env db = some (db', c'))
    (hp : (Proc.claim c).Tenanted retired db') : c'.toProc.Tenanted retired db' := by
  have hcommit : ∀ j row, c'.pc = .committing (some (j, row)) → CarriesJob retired db' j row.queueId := by
    intro j row hpc
    obtain ⟨rfl, _, _, old, hold, _, rfl⟩ := Claim.step_committing h hpc
    refine ⟨.inl (AList.lookup_isSome.mp (by simp [hold])), fun row' hrow' => ?_⟩
    rw [hold] at hrow'
    cases hrow'
    rfl
  unfold Claim.toProc
  split
  · rename_i j row hpc
    exact hp j row (Claim.step_returned h hpc).1
  · exact hcommit

/-- What a client carries after its own statement. -/
theorem Proc.Tenanted.step (hp : p.Tenanted retired db')
    (h : p.step cfg ctx env db = some (db', p')) : p'.Tenanted retired db' := by
  cases Proc.stepped h with
  | claim c c' hq => exact Claim.tenanted_step hq hp
  | exec e e' hq =>
      have hsame := Exec.step_params hq
      have hcarries : CarriesJob retired db' e.jobId e.job.queueId := hp
      change CarriesJob retired db' e'.jobId e'.job.queueId
      rw [hsame.1, hsame.2.1]
      exact hcarries
  | submit r r' hq => exact Submit.Tenanted.step hp hq
  | _ => trivial

end

/-! ## §7. The small system. -/

theorem Db.small_lookup {limit : Nat} {jobs : List (UUID × Job)} {j : UUID} {row : Job}
    (h : (Db.small limit jobs).jobs.lookup j = some row) : (j, row) ∈ jobs := by
  induction jobs with
  | nil => cases h
  | cons x xs ih =>
      change ((Db.small limit xs).jobs.insert x.1 x.2).lookup j = some row at h
      rcases Table.lookup_insert_eq_some.mp h with ⟨rfl, rfl⟩ | ⟨_, hold⟩
      · exact List.mem_cons_self
      · exact List.mem_cons_of_mem _ (ih hold)

theorem Db.small_tenanted (limit : Nat) (jobs : List (UUID × Job))
    (h : ∀ x ∈ jobs, x.2.queueId = 1 ∧ x.2.batchId = none) : (Db.small limit jobs).Tenanted where
  queues := by
    intro q row hq
    change ((∅ : Table UUID Queue).insert 1 (Queue.small limit)).lookup q = some row at hq
    rcases Table.lookup_insert_eq_some.mp hq with ⟨_, rfl⟩ | ⟨_, hold⟩
    · exact (AList.mem_insert _).mpr (.inl rfl)
    · cases hold
  batches := by intro b row hb; cases hb
  jobs := by
    intro j row hj
    rw [(h _ (Db.small_lookup hj)).1]
    exact (AList.mem_insert _).mpr (.inl rfl)
  batchOf := by
    intro j row b hj hb
    rw [(h _ (Db.small_lookup hj)).2] at hb
    cases hb
  entryOf := by intro x entry j hx; cases hx
  edges := by intro j d he; cases he

end JobScheduler
