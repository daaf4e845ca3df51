/-
  JobScheduler.Tenancy.Runs
  ─────────────────────────
  The references of `Tenancy.References` in runs of the whole service: what the
  account requests add, what the DELETE of a project takes away, and the
  invariant rule over any interleaving of statements.
-/
import JobScheduler.Tenancy.References

namespace JobScheduler

open Relational Transition

/-! ## §1. Account requests. -/

section
variable {ctx : Ctx} {env : Env} {st st' : Store} {a : AccountCall} {retired : Finset UUID}
variable {db db' : Db} {projectId : UUID}

/-- A known id stays known when rows are lost and their ids retired. -/
theorem KnownId.lost {α : Type} {t u : Table UUID α} {retired lost : Finset UUID}
    (hlost : lostKeys t u ⊆ lost) (id : UUID) (h : KnownId retired t id) :
    KnownId (retired ∪ lost) u id := by
  rcases h with hmem | hret
  · by_cases hu : id ∈ u
    · exact .inl hu
    · refine .inr (Finset.mem_union_right _ (hlost ?_))
      rw [lostKeys, Finset.mem_sdiff, List.mem_toFinset, List.mem_toFinset]
      exact ⟨hmem, hu⟩
  · exact .inr (Finset.mem_union_left _ hret)

/-- A statement that deletes rows retires their ids. -/
theorem Db.Follows.of_lost {fresh : UUID} (hfresh : fresh ∉ retired)
    (projects : KeysFollow fresh Project.orgId db.projects db'.projects)
    (queues : KeysFollow fresh Queue.projectId db.queues db'.queues)
    (jobs : KeysFollow fresh Job.queueId db.jobs db'.jobs)
    (batches : KeysFollow fresh Batch.queueId db.batches db'.batches) :
    Db.Follows fresh retired db (retired ∪ db.lost db') db' where
  unused := hfresh
  projects := projects
  queues := queues
  jobs := jobs
  batches := batches
  knownProjects := KnownId.lost (fun _ h => Finset.mem_union_left _
    (Finset.mem_union_left _ (Finset.mem_union_left _ h)))
  knownQueues := KnownId.lost (fun _ h => Finset.mem_union_left _
    (Finset.mem_union_left _ (Finset.mem_union_right _ h)))
  knownJobs := KnownId.lost (fun _ h => Finset.mem_union_right _ h)
  knownBatches := KnownId.lost (fun _ h => Finset.mem_union_left _ (Finset.mem_union_right _ h))

/-! ## §2. The rows that are left when a project is deleted. -/

theorem withoutProject_project {p : UUID} {row : Project}
    (h : (db.withoutProject projectId).projects.lookup p = some row) :
    p ≠ projectId ∧ db.projects.lookup p = some row :=
  Table.lookup_erase_eq_some.mp h

/-- A queue that is left was there, outside the project. -/
theorem withoutProject_queue {q : UUID} {row : Queue}
    (h : (db.withoutProject projectId).queues.lookup q = some row) :
    db.queues.lookup q = some row ∧ db.queueOfProject projectId q = false :=
  Table.lookup_delete_eq_some.mp h

theorem withoutProject_queue_stays {q : UUID} {row : Queue} (h : db.queues.lookup q = some row)
    (hq : db.queueOfProject projectId q = false) :
    (db.withoutProject projectId).queues.lookup q = some row := by
  simp [Db.withoutProject, Table.lookup_delete, h, hq]

/-- A batch that is left was there, outside the project. -/
theorem withoutProject_batch {b : UUID} {row : Batch}
    (h : (db.withoutProject projectId).batches.lookup b = some row) :
    db.batches.lookup b = some row ∧ db.queueOfProject projectId row.queueId = false := by
  obtain ⟨hrow, hkeep⟩ := Table.lookup_delete_eq_some.mp h
  refine ⟨hrow, ?_⟩
  simpa [Db.batchOfProject, hrow] using hkeep

/-- A job that is left keeps its columns, but for a batch that is gone. -/
theorem withoutProject_row {j : UUID} {row' : Job}
    (h : (db.withoutProject projectId).jobs.lookup j = some row') :
    ∃ row, db.jobs.lookup j = some row ∧ db.queueOfProject projectId row.queueId = false ∧
      row'.queueId = row.queueId ∧ ∀ b, row'.batchId = some b →
        row.batchId = some b ∧ db.batchOfProject projectId b = false := by
  simp only [Db.withoutProject, Table.lookup_update] at h
  obtain ⟨row, hrow, rfl⟩ := Option.map_eq_some_iff.mp h
  obtain ⟨hrow, hkeep⟩ := Table.lookup_delete_eq_some.mp hrow
  refine ⟨row, hrow, by simpa [Db.jobOfProject, hrow] using hkeep, ?_, ?_⟩
  · split <;> rfl
  · intro b hb
    split at hb
    · cases hb
    · rename_i hbatch
      exact ⟨hb, by simpa [hb] using hbatch⟩

theorem withoutProject_row_stays {j : UUID} {row : Job} (h : db.jobs.lookup j = some row)
    (hq : db.queueOfProject projectId row.queueId = false) :
    ∃ row', (db.withoutProject projectId).jobs.lookup j = some row' ∧ row'.queueId = row.queueId := by
  have hj : db.jobOfProject projectId j = false := by simpa [Db.jobOfProject, h] using hq
  simp only [Db.withoutProject, Table.lookup_update, Table.lookup_delete, h, Option.filter_some, hj,
    Bool.not_false, if_true, Option.map_some]
  exact ⟨_, rfl, by split <;> rfl⟩

/-- **Every statement of every account request follows.** -/
theorem AccountCall.Written.follows (h : AccountCall.Written ctx env st a st')
    (hfresh : env.fresh ∉ retired) :
    Db.Follows env.fresh retired st.db (retired ∪ st.db.lost st'.db) st'.db := by
  have hsame : ∀ d : Db, d.projects = st.db.projects → d.queues = st.db.queues →
      d.jobs = st.db.jobs → d.batches = st.db.batches →
      Db.Follows env.fresh retired st.db (retired ∪ st.db.lost d) d := by
    intro d hp hq hj hb
    exact .of_lost hfresh (hp ▸ .refl _ _ _) (hq ▸ .refl _ _ _) (hj ▸ .refl _ _ _) (hb ▸ .refl _ _ _)
  cases h with
  | nothing | event | organization | member => exact hsame _ rfl rfl rfl rfl
  | owner _ _ _ d hdb => rcases hdb with rfl | rfl <;> exact hsame _ rfl rfl rfl rfl
  | project _ _ _ _ hno =>
      exact .of_lost hfresh (.insert hno) (.refl _ _ _) (.refl _ _ _) (.refl _ _ _)
  | firstQueue _ _ _ _ _ hno | queue _ _ _ hno =>
      exact .of_lost hfresh (.refl _ _ _) (.insert hno) (.refl _ _ _) (.refl _ _ _)
  | deleted r =>
      refine .of_lost hfresh ?_ ?_ ?_ ?_
      · intro p row hp
        exact .inl ⟨row, (withoutProject_project hp).2, rfl⟩
      · intro q row hq
        exact .inl ⟨row, (withoutProject_queue hq).1, rfl⟩
      · intro j row' hj
        obtain ⟨row, hrow, _, hsame, _⟩ := withoutProject_row hj
        exact .inl ⟨row, hrow, hsame⟩
      · intro b row hb
        exact .inl ⟨row, (withoutProject_batch hb).1, rfl⟩

/-- Edges between jobs that are left still join one organisation. -/
theorem Db.Tenanted.edges_follow {fresh : UUID} {retired' : Finset UUID} (hT : db.Tenanted)
    (hF : Db.Follows fresh retired db retired' db')
    (hqueues : ∀ q row, db'.queues.lookup q = some row → row.projectId ∈ db'.projects)
    (hjobs : ∀ j row, db'.jobs.lookup j = some row → row.queueId ∈ db'.queues)
    (hedges : ∀ j d, (j, d) ∈ db'.jobDependencies →
      (j, d) ∈ db.jobDependencies ∧ j ∈ db'.jobs ∧ d ∈ db'.jobs) {j d : UUID}
    (he : (j, d) ∈ db'.jobDependencies) :
    ∃ org, db'.orgOfJob j = some org ∧ db'.orgOfJob d = some org := by
  obtain ⟨hmem, hj, hd⟩ := hedges j d he
  obtain ⟨org, horg, horg'⟩ := hT.edges j d hmem
  have hknown : ∀ {i : UUID}, db.orgOfJob i = some org → KnownId retired db.jobs i := by
    intro i hi
    obtain ⟨row, hrow, _⟩ := Option.bind_eq_some_iff.mp hi
    exact .inl (AList.lookup_isSome.mp (by simp [hrow]))
  exact ⟨org, (hF.orgOfJob hT hqueues hjobs (hknown horg) hj).2.trans horg,
    (hF.orgOfJob hT hqueues hjobs (hknown horg') hd).2.trans horg'⟩

/-- Both ends of a dependency are jobs. -/
theorem Db.Tenanted.mem_jobs_of_edge (hT : db.Tenanted) {j d : UUID}
    (he : (j, d) ∈ db.jobDependencies) : j ∈ db.jobs ∧ d ∈ db.jobs := by
  obtain ⟨org, hj, hd⟩ := hT.edges j d he
  obtain ⟨_, hrow, _⟩ := Option.bind_eq_some_iff.mp hj
  obtain ⟨_, hrow', _⟩ := Option.bind_eq_some_iff.mp hd
  exact ⟨AList.lookup_isSome.mp (by simp [hrow]), AList.lookup_isSome.mp (by simp [hrow'])⟩

/-- A statement that only adds projects and queues. -/
theorem Db.Tenanted.grow {fresh : UUID} {retired' : Finset UUID} (hT : db.Tenanted)
    (hF : Db.Follows fresh retired db retired' db')
    (hqueues : ∀ q row, db'.queues.lookup q = some row → row.projectId ∈ db'.projects)
    (hmem : ∀ q, q ∈ db.queues → q ∈ db'.queues) (hjobs : db'.jobs = db.jobs)
    (hbatches : db'.batches = db.batches) (hentries : db'.deadLetterQueue = db.deadLetterQueue)
    (hedges : db'.jobDependencies = db.jobDependencies) : db'.Tenanted := by
  have hkeys : ∀ j row, db'.jobs.lookup j = some row → row.queueId ∈ db'.queues :=
    fun j row hrow => hmem _ (hT.jobs j row (hjobs ▸ hrow))
  refine ⟨hqueues, fun b row hb => hmem _ (hT.batches b row (hbatches ▸ hb)), hkeys, ?_, ?_, ?_⟩
  · rw [hjobs, hbatches]
    exact hT.batchOf
  · rw [hjobs, hentries]
    exact hT.entryOf
  · intro j d he
    refine hT.edges_follow hF hqueues hkeys (fun i x hix => ?_) he
    rw [hedges] at hix
    rw [hjobs]
    exact ⟨hix, hT.mem_jobs_of_edge hix⟩

/-- The DELETE of a project leaves no reference to what it removes. -/
theorem Db.Tenanted.withoutProject {fresh : UUID} {retired' : Finset UUID} (hT : db.Tenanted)
    (hF : Db.Follows fresh retired db retired' (db.withoutProject projectId)) :
    (db.withoutProject projectId).Tenanted := by
  have hqueue : ∀ {q}, q ∈ db.queues → db.queueOfProject projectId q = false →
      q ∈ (db.withoutProject projectId).queues := by
    intro q hq hkeep
    obtain ⟨row, hrow⟩ := Option.isSome_iff_exists.mp (AList.lookup_isSome.mpr hq)
    exact AList.lookup_isSome.mp (by simp [withoutProject_queue_stays hrow hkeep])
  have hqueues : ∀ q row, (db.withoutProject projectId).queues.lookup q = some row →
      row.projectId ∈ (db.withoutProject projectId).projects := by
    intro q row hq
    obtain ⟨hrow, hkeep⟩ := withoutProject_queue hq
    have hne : row.projectId ≠ projectId := by simpa [Db.queueOfProject, hrow] using hkeep
    exact AList.mem_erase.mpr ⟨hne, hT.queues q row hrow⟩
  have hjobs : ∀ j row, (db.withoutProject projectId).jobs.lookup j = some row →
      row.queueId ∈ (db.withoutProject projectId).queues := by
    intro j row' hj
    obtain ⟨row, hrow, hkeep, hsame, _⟩ := withoutProject_row hj
    rw [hsame]
    exact hqueue (hT.jobs j row hrow) hkeep
  refine ⟨hqueues, ?_, hjobs, ?_, ?_, ?_⟩
  · intro b row hb
    obtain ⟨hrow, hkeep⟩ := withoutProject_batch hb
    exact hqueue (hT.batches b row hrow) hkeep
  · intro j row' b hj hb
    obtain ⟨row, hrow, hkeep, hsame, hbatch⟩ := withoutProject_row hj
    obtain ⟨hb, hleft⟩ := hbatch b hb
    obtain ⟨batch, hlook, hq⟩ := hT.batchOf j row b hrow hb
    refine ⟨batch, ?_, hq.trans hsame.symm⟩
    simp [Db.withoutProject, Table.lookup_delete, hlook, hleft]
  · intro x entry' j hx hj
    rw [withoutProject_entry] at hx
    obtain ⟨entry, hentry, rfl⟩ := Option.map_eq_some_iff.mp hx
    obtain ⟨hj, hleft⟩ := Option.filter_eq_some_iff.mp hj
    obtain ⟨row, hrow, hq⟩ := hT.entryOf x entry j hentry hj
    -- the job is left, and so is its queue
    have hkeep : db.queueOfProject projectId row.queueId = false := by
      simpa [Db.jobOfProject, hrow] using hleft
    obtain ⟨row', hrow', hsame⟩ := withoutProject_row_stays hrow hkeep
    refine ⟨row', hrow', ?_⟩
    rw [hsame]
    simp [Db.orphaned, hq, hkeep]
  · intro j d he
    refine hT.edges_follow hF hqueues hjobs (fun i x hix => ?_) he
    simp only [Db.withoutProject, List.mem_filter, Bool.and_eq_true, Bool.not_eq_true'] at hix
    obtain ⟨hix, hi, hx⟩ := hix
    have hstays : ∀ {y : UUID}, y ∈ db.jobs → db.jobOfProject projectId y = false →
        y ∈ (db.withoutProject projectId).jobs := by
      intro y hy hkeep
      obtain ⟨row, hrow⟩ := Option.isSome_iff_exists.mp (AList.lookup_isSome.mpr hy)
      obtain ⟨row', hrow', _⟩ := withoutProject_row_stays hrow
        (by simpa [Db.jobOfProject, hrow] using hkeep)
      exact AList.lookup_isSome.mp (by simp [hrow'])
    have hends := hT.mem_jobs_of_edge hix
    exact ⟨hix, hstays hends.1 hi, hstays hends.2 hx⟩

/-- **A statement of an account request keeps references inside an organisation.** -/
theorem AccountCall.Written.tenanted (h : AccountCall.Written ctx env st a st') (hT : st.db.Tenanted)
    (hfresh : env.fresh ∉ retired) : st'.db.Tenanted := by
  have hF := h.follows hfresh
  cases h with
  | nothing | event | organization | member => exact hT.grow hF hT.queues (fun _ => id) rfl rfl rfl rfl
  | owner _ _ _ d hdb => rcases hdb with rfl | rfl <;> exact hT.grow hF hT.queues (fun _ => id) rfl rfl rfl rfl
  | project _ _ _ _ hno =>
      refine hT.grow hF (fun q row hq => ?_) (fun _ => id) rfl rfl rfl rfl
      exact (AList.mem_insert _).mpr (.inr (hT.queues q row hq))
  | firstQueue _ project _ _ hproject hno =>
      refine hT.grow hF (fun q row hq => ?_) (fun _ hq => (AList.mem_insert _).mpr (.inr hq)) rfl rfl rfl rfl
      rcases Table.lookup_insert_eq_some.mp hq with ⟨_, rfl⟩ | ⟨_, hold⟩
      · exact hproject
      · exact hT.queues q row hold
  | queue r _ hproject hno =>
      refine hT.grow hF (fun q row hq => ?_) (fun _ hq => (AList.mem_insert _).mpr (.inr hq)) rfl rfl rfl rfl
      rcases Table.lookup_insert_eq_some.mp hq with ⟨_, rfl⟩ | ⟨_, hold⟩
      · exact hproject
      · exact hT.queues q row hold
  | deleted r => exact hT.withoutProject hF

end

/-! ## §3. Runs of the service. -/

theorem tenancy_atRest (clock : Timestamp) {db : Db} (directory : Directory) (hT : db.Tenanted) :
    Tenancy (Service.atRest clock db directory) where
  db := hT
  clients := by intro k p h; cases h

/-- One step of the service keeps the references of the database, and every client
keeps what it carries. -/
theorem tenancy_step {cfg : Config} {v v' : Service} {o : ServiceAction} (hV : Tenancy v)
    (h : v.step cfg o = some v') : Tenancy v' := by
  cases Service.stepped h with
  | requested pid r hfree =>
      refine ⟨hV.db, fun k p hp => ?_⟩
      have hret : (v.put pid v.store r.start).retired = v.retired := by
        simp [Service.put, Service.store, Db.lost, lostKeys]
      rw [hret]
      exact hV.clients k p hp
  | served pid env a a' st' ha hfresh hs =>
      have hw := AccountCall.step_written hs
      have hT' := hw.tenanted hV.db hfresh
      exact ⟨hT', fun k p hp => (hV.clients k p hp).follows (hw.follows hfresh) hV.db hT'⟩
  | acted a s' hadm hs =>
      cases hst : JobScheduler.stepped hs with
      | wait ms => exact ⟨hV.db, hV.clients⟩
      | start pid request hfree =>
          refine ⟨hV.db, fun k p hp => ?_⟩
          rw [Sys.put_proc] at hp
          split at hp
          · obtain rfl := Option.some.inj hp
            exact request.start_tenanted _
          · exact hV.clients k p hp
      | run pid env p p' db' hp hnow hstep =>
          obtain ⟨hfresh, href⟩ := Service.admits_run hadm hp
          have hT' := hV.db.proc_step (hV.clients pid p hp) hstep hfresh href
          have hF := Proc.step_follows hstep hfresh
          refine ⟨hT', fun k q hq => ?_⟩
          rw [Sys.put_proc] at hq
          split at hq
          · obtain rfl := Option.some.inj hq
            exact ((hV.clients pid p hp).follows hF hV.db hT').step hstep
          · exact (hV.clients k q hq).follows hF hV.db hT'

/-- Tenancy in every run of the service. -/
theorem tenancy_run {cfg : Config} {v₀ v : Service} {tr : List (Service × ServiceAction)}
    (h : ServiceRun cfg v₀ tr v) (h₀ : Tenancy v₀) : Tenancy v :=
  h.invariant (G := fun _ _ => True) (fun _ _ _ hV _ => tenancy_step hV) (fun _ _ => trivial) h₀

end JobScheduler
