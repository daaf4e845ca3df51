/-
  JobScheduler.Tenancy.Writes
  ───────────────────────────
  Whose rows a statement changes.  Every row of a tenant belongs to one
  organisation, by way of its queue and its project; `Db.Permits` says that a
  user's role suffices for every row in which two databases differ.

  A request looks at the role once and writes afterwards.  `Proc.Entitled` is
  what it has established at each of its program points.
-/
import JobScheduler.Tenancy.Runs
import JobScheduler.Tenancy.Entities

namespace JobScheduler

open Relational

/-! ## §1. The roles that rows ask for. -/

/-- `admin` for deleting a project and for memberships, `operator` for the rest. -/
def Entity.required (db' : Db) : Entity → OrgRole
  | .project id => if id ∈ db'.projects then .operator else .admin
  | .membership _ _ => .admin
  | _ => .operator

/-- The user's role suffices for every row that differs. -/
def Db.Permits (db : Db) (userId : UUID) (db' : Db) : Prop :=
  ∀ e O, ¬ db.SameRow db' e → db.orgOf e = some O ∨ db'.orgOf e = some O →
    (db.roleIn O userId).any (fun role => role.hasRoleAtLeast (e.required db')) = true

theorem OrgRole.canOperate_eq (role : OrgRole) : role.canOperate = role.hasRoleAtLeast .operator := by
  cases role <;> rfl

theorem OrgRole.canDelete_eq (role : OrgRole) : role.canDelete = role.hasRoleAtLeast .admin := by
  cases role <;> rfl

theorem OrgRole.any_canOperate {role : Option OrgRole} (h : role.any OrgRole.canOperate = true) :
    role.any (fun r => r.hasRoleAtLeast .operator) = true := by
  simpa only [← OrgRole.canOperate_eq] using h

/-- An admin may do what an operator may. -/
theorem OrgRole.hasRoleAtLeast_admin {role : OrgRole} (h : role.hasRoleAtLeast .admin = true)
    (e : Entity) (db' : Db) : role.hasRoleAtLeast (e.required db') = true := by
  have hreq : (e.required db').rank ≤ OrgRole.admin.rank := by
    cases e <;> simp only [Entity.required] <;> (try split) <;> decide
  exact decide_eq_true (hreq.trans (of_decide_eq_true h))

section
variable {db db' : Db} {userId q : UUID}

theorem Db.permits_of_same (h : ∀ e, db.SameRow db' e) : db.Permits userId db' :=
  fun e _ hne => absurd (h e) hne

/-- Events and logs are no rows of a tenant. -/
theorem Db.permits_report (db : Db) (userId : UUID) (events : List SystemEvent) (logs : List JobLog) :
    db.Permits userId { db with systemEvents := events, jobLogs := logs } :=
  Db.permits_of_same (fun e => by cases e <;> rfl)

/-- Rows that are all in the organisation of a queue which the user may operate. -/
theorem Db.permits_of_queue (hq : db.canOperate q userId = true)
    (h : ∀ e, ¬ db.SameRow db' e → e.required db' = .operator ∧
      ∀ O, db.orgOf e = some O ∨ db'.orgOf e = some O → db.orgOfQueue q = some O) :
    db.Permits userId db' := by
  intro e O hne horg
  obtain ⟨hreq, hin⟩ := h e hne
  rw [hreq]
  unfold Db.canOperate at hq
  rw [hin O horg] at hq
  exact OrgRole.any_canOperate hq

/-- Who may operate a queue depends on its organisation and the members only. -/
theorem Db.canOperate_congr (horg : ∀ q, db'.orgOfQueue q = db.orgOfQueue q)
    (hmembers : db'.members = db.members) (q u : UUID) : db'.canOperate q u = db.canOperate q u := by
  unfold Db.canOperate Db.roleIn
  rw [horg, hmembers]

end

/-! ## §2. Which row a write hits. -/

section
variable {db : Db} {e : Entity} {id : UUID}

/-- An UPDATE of jobs hits the rows of its WHERE clause. -/
theorem hit_updateJobsWhere {w : UUID → Job → Bool} {f : Job → Job}
    (h : ¬ db.SameRow (db.updateJobsWhere w f) e) :
    ∃ j row, e = .job j ∧ db.jobs.lookup j = some row ∧ w j row = true := by
  cases e with
  | job j =>
      simp only [Db.SameRow, updateJobsWhere_lookup] at h
      cases hrow : db.jobs.lookup j with
      | none => simp [hrow] at h
      | some row =>
          refine ⟨j, row, rfl, hrow, ?_⟩
          by_contra hw
          simp [hrow, hw] at h
  | dependency => exact absurd Iff.rfl h
  | _ => exact absurd rfl h

theorem hit_updateJob {f : Job → Job} (h : ¬ db.SameRow (db.updateJob id f) e) : e = .job id := by
  obtain ⟨j, row, rfl, _, hw⟩ := hit_updateJobsWhere (w := fun i _ => decide (i = id)) h
  rw [of_decide_eq_true hw]

theorem hit_insertJob {row : Job} (h : ¬ db.SameRow (db.insertJob id row) e) : e = .job id := by
  cases e with
  | job j =>
      by_contra hne
      exact h (AList.lookup_insert_ne (fun heq => hne (by rw [heq])))
  | dependency => exact absurd Iff.rfl h
  | _ => exact absurd rfl h

theorem hit_insertDependency {j d : UUID} (h : ¬ db.SameRow (db.insertDependency j d) e) :
    e = .dependency j d := by
  cases e with
  | dependency i x =>
      by_contra hne
      refine h ⟨fun hmem => ?_, fun hmem => mem_insertDependency.mpr (.inl hmem)⟩
      refine (mem_insertDependency.mp hmem).resolve_right (fun heq => hne ?_)
      obtain ⟨rfl, rfl⟩ := Prod.mk.inj heq
      rfl
  | _ => exact absurd rfl h

theorem hit_insertBatch {row : Batch} (h : ¬ db.SameRow (db.insertBatch id row) e) : e = .batch id := by
  cases e with
  | batch b =>
      by_contra hne
      exact h (AList.lookup_insert_ne (fun heq => hne (by rw [heq])))
  | dependency => exact absurd Iff.rfl h
  | _ => exact absurd rfl h

theorem hit_updateBatch {f : Batch → Batch} (h : ¬ db.SameRow (db.updateBatch (some id) f) e) :
    e = .batch id := by
  cases e with
  | batch b =>
      by_contra hne
      refine h ?_
      simp only [Db.SameRow, Db.updateBatch, Table.lookup_update, Option.some.injEq]
      rw [decide_eq_false (fun heq => hne (by rw [heq]))]
      simp
  | dependency => exact absurd Iff.rfl h
  | _ => exact absurd rfl h

theorem hit_insertSchedule {row : ScheduledJob} (h : ¬ db.SameRow (db.insertSchedule id row) e) :
    e = .schedule id := by
  cases e with
  | schedule b =>
      by_contra hne
      exact h (AList.lookup_insert_ne (fun heq => hne (by rw [heq])))
  | dependency => exact absurd Iff.rfl h
  | _ => exact absurd rfl h

theorem hit_deleteDeadLetter (h : ¬ db.SameRow (db.deleteDeadLetter id) e) : e = .entry id := by
  cases e with
  | entry x =>
      by_contra hne
      exact h (AList.lookup_erase_ne (fun heq => hne (by rw [heq])))
  | dependency => exact absurd Iff.rfl h
  | _ => exact absurd rfl h

theorem hit_updateQueue {f : Queue → Queue} (h : ¬ db.SameRow (db.updateQueue id f) e) :
    e = .queue id := by
  cases e with
  | queue q =>
      by_contra hne
      refine h ?_
      simp only [Db.SameRow, Db.updateQueue, Table.lookup_update]
      rw [decide_eq_false (fun heq => hne (by rw [heq]))]
      simp
  | dependency => exact absurd Iff.rfl h
  | _ => exact absurd rfl h

theorem hit_insertQueue {row : Queue} (h : ¬ db.SameRow (db.insertQueue id row) e) : e = .queue id := by
  cases e with
  | queue q =>
      by_contra hne
      exact h (AList.lookup_insert_ne (fun heq => hne (by rw [heq])))
  | dependency => exact absurd Iff.rfl h
  | _ => exact absurd rfl h

end

/-! ## §3. The operator requests. -/

/-- The user may operate the queue of the job, if it is there. -/
def Db.JobOperable (db : Db) (userId jobId : UUID) : Prop :=
  ∀ row, db.jobs.lookup jobId = some row → db.canOperate row.queueId userId = true

/-- The user may operate the queue of the batch. -/
def Db.BatchOperable (db : Db) (userId batchId : UUID) : Prop :=
  ∀ row, db.batches.lookup batchId = some row → db.canOperate row.queueId userId = true

/-- The user may operate the queue of the dead letter entry. -/
def Db.EntryOperable (db : Db) (userId entryId : UUID) : Prop :=
  ∀ entry, db.deadLetterQueue.lookup entryId = some entry →
    ∃ q, entry.queueId = some q ∧ db.canOperate q userId = true

/-- A submission that has passed the check of its queue and still writes. -/
def SubmitPc.passed (pc : SubmitPc) : Prop := pc.admitted = true ∨ pc = .insertSchedule

/-- What a request of the user has established about what it still writes. -/
def Proc.Entitled (userId : UUID) (db : Db) : Proc → Prop
  | .submit r => r.userId = userId ∧ (r.pc.passed → db.canOperate r.queueId userId = true)
  | .retry r => r.userId = userId ∧ (r.pc = .update → db.JobOperable userId r.jobId)
  | .replay r => r.userId = userId ∧ (∀ j, r.pc = .update j → db.JobOperable userId j) ∧
      (∀ q payload, r.pc = .insert q payload → db.canOperate q userId = true) ∧
      (r.pc.replaying = true ∨ r.pc.deleting = true → db.EntryOperable userId r.entryId)
  | .cancel r => r.userId = userId ∧
      (r.pc = .updateBatch ∨ (∃ b, r.pc = .updateJobs b) → db.BatchOperable userId r.batchId)
  -- the check and the UPDATE are one statement
  | .patch r => r.userId = userId
  | .claim _ | .exec _ | .tick _ => False

/-- The user who sends the request; a worker and the scheduler act for nobody. -/
def Request.userId : Request → Option UUID
  | .submit userId _ _ | .retry userId _ | .replay userId _ | .cancel userId _ | .patch userId _ _ =>
      some userId
  | .claim _ _ _ | .tick _ => none

/-- A request is entitled before its first statement. -/
theorem Request.start_entitled {userId : UUID} {r : Request} (h : r.userId = some userId)
    (now : Timestamp) (db : Db) : (r.start now).Entitled userId db := by
  cases r <;> simp only [Request.userId, Option.some.injEq, reduceCtorEq] at h
  case submit => exact ⟨h, by rintro (hpc | hpc) <;> cases hpc⟩
  case retry => exact ⟨h, by intro hpc; cases hpc⟩
  case replay =>
    exact ⟨h, fun _ hpc => (by cases hpc), fun _ _ hpc => (by cases hpc),
      by rintro (hpc | hpc) <;> cases hpc⟩
  case cancel => exact ⟨h, by rintro (hpc | ⟨_, hpc⟩) <;> cases hpc⟩
  case patch => exact h

section
variable {cfg : Config} {ctx : Ctx} {env : Env} {db db' : Db} {p p' : Proc} {userId : UUID}
variable {retired : Finset UUID}

/-- No statement of these clients moves a queue to another organisation. -/
theorem Proc.step_orgOfQueue (h : p.step cfg ctx env db = some (db', p')) (q : UUID) :
    db'.orgOfQueue q = db.orgOfQueue q := by
  unfold Db.orgOfQueue
  rw [(Proc.step_accounts h).1]
  cases hold : db.queues.lookup q with
  | none =>
      have hno : q ∉ db'.queues := fun hq =>
        AList.lookup_eq_none.mp hold ((Proc.step_mem_queues h q).mp hq)
      rw [AList.lookup_eq_none.mpr hno]
  | some row =>
      have hmem : q ∈ db'.queues :=
        (Proc.step_mem_queues h q).mpr (AList.lookup_isSome.mp (by rw [hold]; rfl))
      obtain ⟨row', hrow'⟩ := Option.isSome_iff_exists.mp (AList.lookup_isSome.mpr hmem)
      obtain ⟨old, hold', hsame⟩ := Proc.step_queueProject h hrow'
      rw [hold] at hold'
      cases hold'
      rw [hrow']
      change (db.projects.lookup row'.projectId).bind _ = (db.projects.lookup row.projectId).bind _
      rw [hsame]

/-- No client changes who may operate a queue. -/
theorem Proc.step_canOperate (h : p.step cfg ctx env db = some (db', p')) (q u : UUID) :
    db'.canOperate q u = db.canOperate q u :=
  Db.canOperate_congr (Proc.step_orgOfQueue h) (Proc.step_accounts h).2 q u

/-! ## §4. What a request establishes. -/

theorem Submit.Stepped.passed {r r' : Submit} (h : Submit.Stepped cfg env r db db' r')
    (hpc : r'.pc.passed) : r.pc.passed ∨ r.pc = .checkQueue ∧ r'.pc = .checkDependencies := by
  rcases hpc with hpc | hpc
  · exact (h.admitted hpc).imp_left .inl
  · refine .inl (.inl ?_)
    cases h with
    | dependenciesChecked hq => rw [hq]; rfl
    | batchInserted hq => rw [hq]; rfl
    | jobInserted _ _ hq => rw [hq]; rfl
    | attached _ _ _ _ hq => rw [hq]; rfl
    | queueChecked | failed | scheduleInserted | published | replied => cases hpc

/-- A submission stays entitled. -/
theorem Submit.entitled_step {r r' : Submit} (hE : (Proc.submit r).Entitled userId db)
    (h : (Proc.submit r).step cfg ctx env db = some (db', .submit r')) :
    (Proc.submit r').Entitled userId db' := by
  obtain ⟨r₀, hr, hs⟩ := submit_of_step h
  cases hr
  have hparams := (Submit.stepped hs).params
  refine ⟨hparams.2.trans hE.1, fun hpc => ?_⟩
  rw [hparams.1, Proc.step_canOperate h]
  rcases (Submit.stepped hs).passed hpc with hold | ⟨hq, hq'⟩
  · exact hE.2 hold
  · exact hE.1 ▸ Submit.step_checkQueue hs hq hq'

/-- The SELECT of a retry finds a job that the user may operate. -/
theorem Retry.step_select {r r' : Retry} (h : r.step cfg ctx env db = some (db', r'))
    (hpc : r.pc = .select) (hpc' : r'.pc = .update) : db' = db ∧ db.JobOperable r.userId r.jobId := by
  simp only [Retry.step, hpc] at h
  (repeat' split at h) <;> cases h <;> cases hpc'
  rename_i hjob hcan _
  refine ⟨rfl, fun row hrow => ?_⟩
  obtain rfl := Option.some.inj (hjob.symm.trans hrow)
  simpa using hcan

theorem Retry.entitled_step {r r' : Retry} (hE : (Proc.retry r).Entitled userId db)
    (h : r.step cfg ctx env db = some (db', r')) : (Proc.retry r').Entitled userId db' := by
  cases Retry.stepped h with
  | selected hpc => exact ⟨hE.1, fun _ => hE.1 ▸ (Retry.step_select h hpc rfl).2⟩
  | _ => exact ⟨hE.1, fun hpc => (by cases hpc)⟩

/-- An entry and its job are in one queue, so the check of the entry is one of the
job. -/
theorem Replay.entitled_step {r r' : Replay} (hE : (Proc.replay r).Entitled userId db)
    (hT : db.Tenanted) (h : r.step cfg ctx env db = some (db', r')) :
    (Proc.replay r').Entitled userId db' := by
  obtain ⟨huser, -, -, hentry⟩ := hE
  have hs : (Proc.replay r).step cfg ctx env db = some (db', .replay r') := by simp [Proc.step, h]
  have hcan := Proc.step_canOperate hs
  -- the entry stays until the DELETE
  have hkeep : r.pc.replaying = true ∨ r.pc.deleting = true →
      db'.deadLetterQueue = db.deadLetterQueue → db'.EntryOperable userId r.entryId := by
    intro hpc hsame entry hlook
    obtain ⟨q, hq, hcanq⟩ := hentry hpc entry (hsame ▸ hlook)
    exact ⟨q, hq, (hcan q userId).trans hcanq⟩
  cases Replay.stepped h with
  | failed | published | replied | deleted =>
      exact ⟨huser, fun _ hpc => (by cases hpc), fun _ _ hpc => (by cases hpc),
        by rintro (hpc | hpc) <;> cases hpc⟩
  | updated j hpc | logged j row hpc | nothing q payload hpc | inserted q payload hpc =>
      exact ⟨huser, fun _ hpc' => (by cases hpc'), fun _ _ hpc' => (by cases hpc'),
        fun _ => hkeep (by simp [hpc, ReplayPc.replaying, ReplayPc.deleting]) rfl⟩
  | selected hpc hf entry hlook hvisible =>
      have hop : db.EntryOperable userId r.entryId := by
        intro entry' hlook'
        obtain rfl := Option.some.inj (hlook.symm.trans hlook')
        obtain ⟨q, hq, hcanq⟩ := Option.any_eq_true _ _ |>.mp hvisible
        exact ⟨q, hq, huser ▸ hcanq⟩
      obtain ⟨q, hq, hcanq⟩ := hop entry hlook
      unfold Replay.afterSelect
      split
      · rename_i j horig
        refine ⟨huser, fun i hpc' row hrow => ?_, fun _ _ hpc' => (by cases hpc'), fun _ => hop⟩
        cases hpc'
        obtain ⟨row', hrow', hsame⟩ := hT.entryOf _ entry j hlook horig
        obtain rfl := Option.some.inj (hrow'.symm.trans hrow)
        rw [hq] at hsame
        exact Option.some.inj hsame ▸ hcanq
      · rename_i q' payload _ hq' _
        refine ⟨huser, fun _ hpc' => (by cases hpc'), fun _ _ hpc' => ?_, fun _ => hop⟩
        cases hpc'
        rw [hq] at hq'
        exact Option.some.inj hq' ▸ hcanq
      · exact ⟨huser, fun _ hpc' => (by cases hpc'), fun _ _ hpc' => (by cases hpc'),
          by rintro (hpc' | hpc') <;> cases hpc'⟩

theorem Cancel.entitled_step {r r' : Cancel} (hE : (Proc.cancel r).Entitled userId db)
    (h : r.step cfg ctx env db = some (db', r')) : (Proc.cancel r').Entitled userId db' := by
  have hs : (Proc.cancel r).step cfg ctx env db = some (db', .cancel r') := by simp [Proc.step, h]
  have hcan := Proc.step_canOperate hs
  -- the row keeps its queue
  have hkeep : r.pc = .updateBatch → db'.BatchOperable userId r.batchId := by
    intro hpc row' hrow'
    rcases Proc.step_batchQueue hs hrow' with ⟨row, hrow, hsame⟩ | ⟨_, _, _, hr, _⟩
    · rw [hcan, hsame]
      exact hE.2 (.inl hpc) row hrow
    · cases hr
  cases hpc : r.pc <;> simp only [Cancel.step, hpc] at h <;> (repeat' split at h) <;> cases h
  case h_2.isTrue.refl batch hbatch hop =>
    refine ⟨hE.1, fun _ row hrow => ?_⟩
    obtain rfl := Option.some.inj (hbatch.symm.trans hrow)
    rw [← hE.1]
    exact hop
  case updateBatch.isFalse.refl => exact ⟨hE.1, fun _ => hkeep hpc⟩
  all_goals exact ⟨hE.1, by rintro (hpc' | ⟨_, hpc'⟩) <;> cases hpc'⟩

/-- A request stays entitled to what it still writes. -/
theorem Proc.Entitled.step (hE : p.Entitled userId db) (hT : db.Tenanted)
    (h : p.step cfg ctx env db = some (db', p')) : p'.Entitled userId db' := by
  cases p with
  | claim | exec | tick => exact hE.elim
  | submit r =>
      obtain ⟨⟨d, q⟩, hq, he⟩ := Option.map_eq_some_iff.mp h
      cases he
      exact Submit.entitled_step hE h
  | retry r =>
      obtain ⟨⟨d, q⟩, hq, he⟩ := Option.map_eq_some_iff.mp h
      cases he
      exact Retry.entitled_step hE hq
  | replay r =>
      obtain ⟨⟨d, q⟩, hq, he⟩ := Option.map_eq_some_iff.mp h
      cases he
      exact Replay.entitled_step hE hT hq
  | cancel r =>
      obtain ⟨⟨d, q⟩, hq, he⟩ := Option.map_eq_some_iff.mp h
      cases he
      exact Cancel.entitled_step hE hq
  | patch r =>
      obtain ⟨⟨d, q⟩, hq, he⟩ := Option.map_eq_some_iff.mp h
      cases he
      have huser : q.userId = r.userId := by cases Patch.stepped hq <;> rfl
      exact huser.trans hE

/-! ## §5. What a request writes. -/

/-- A write to one job, which stays in its queue. -/
theorem Db.permits_updateJob {j : UUID} {f : Job → Job} (hf : ∀ row, (f row).queueId = row.queueId)
    (hop : db.JobOperable userId j) : db.Permits userId (db.updateJob j f) := by
  cases hrow : db.jobs.lookup j with
  | none =>
      refine Db.permits_of_same (fun e => ?_)
      by_contra hne
      obtain ⟨i, row, rfl, hi, hw⟩ := hit_updateJobsWhere (w := fun i _ => decide (i = j)) hne
      rw [of_decide_eq_true hw, hrow] at hi
      cases hi
  | some row =>
      refine Db.permits_of_queue (hop row hrow) (fun e hne => ?_)
      obtain rfl := hit_updateJob hne
      refine ⟨rfl, fun O horg => ?_⟩
      rcases horg with horg | horg
      · exact (Db.orgOfJob_of_lookup hrow).symm.trans horg
      · have hnew := updateJob_lookup_self f hrow
        have hjob := (Db.orgOfJob_of_lookup hnew).symm.trans horg
        rw [hf] at hjob
        exact hjob

/-- An entitled submission writes what its user may. -/
theorem Submit.permits {r r' : Submit} (hE : (Proc.submit r).Entitled userId db)
    (hR : r.Tenanted retired db) (h : r.step cfg env db = some (db', r')) : db.Permits userId db' := by
  obtain ⟨huser, hpassed⟩ := hE
  cases Submit.stepped h with
  | failed | queueChecked | dependenciesChecked | published | replied =>
      exact Db.permits_report _ _ _ _
  | batchInserted hpc hfresh =>
      refine Db.permits_of_queue (hpassed (.inl (by rw [hpc]; rfl))) (fun e hne => ?_)
      obtain rfl := hit_insertBatch hne
      refine ⟨rfl, fun O horg => ?_⟩
      simpa [Db.orgOf, AList.lookup_eq_none.mpr hfresh, Db.insertBatch, Db.orgOfQueue,
        Submit.batchRow] using horg
  | jobInserted item rest hpc hfresh =>
      refine Db.permits_of_queue (hpassed (.inl (by rw [hpc]; rfl))) (fun e hne => ?_)
      obtain rfl := hit_insertJob hne
      refine ⟨rfl, fun O horg => ?_⟩
      simpa [Db.orgOf, Db.orgOfJob, AList.lookup_eq_none.mpr hfresh, Db.insertJob, Db.orgOfQueue,
        Submit.row] using horg
  | attached j d todo rest hpc hd =>
      refine Db.permits_of_queue (hpassed (.inl (by rw [hpc]; rfl))) (fun e hne => ?_)
      obtain rfl := hit_insertDependency hne
      -- the request has created the job itself, in its own queue
      have hcarries := hR.created j (hR.attach j d todo rest hpc).1
      refine ⟨rfl, fun O horg => ?_⟩
      obtain ⟨row, hrow, hO⟩ := Db.orgOfJob_eq_some.mp (horg.elim id id)
      rw [← hcarries.2 row hrow]
      exact hO
  | scheduleInserted hpc =>
      refine Db.permits_of_queue (hpassed (.inr hpc)) (fun e hne => ?_)
      obtain rfl := hit_insertSchedule hne
      refine ⟨rfl, fun O horg => ?_⟩
      have hfresh : env.fresh ∉ db.scheduledJobs := by
        intro hmem
        cases hf : env.fails <;> simp [Submit.step, hpc, hf, hmem, Submit.fail, Submit.goto] at h
      simpa [Db.orgOf, AList.lookup_eq_none.mpr hfresh, Db.insertSchedule, Db.orgOfQueue,
        Submit.schedule] using horg

theorem Retry.permits {r r' : Retry} (hE : (Proc.retry r).Entitled userId db)
    (h : r.step cfg ctx env db = some (db', r')) : db.Permits userId db' := by
  cases Retry.stepped h with
  | updated hpc => exact Db.permits_updateJob (fun _ => rfl) (hE.2 hpc)
  | _ => exact Db.permits_report _ _ _ _

theorem Replay.permits {r r' : Replay} (hE : (Proc.replay r).Entitled userId db)
    (h : r.step cfg ctx env db = some (db', r')) : db.Permits userId db' := by
  obtain ⟨-, hjob, hqueue, hentry⟩ := hE
  cases Replay.stepped h with
  | updated j hpc => exact Db.permits_updateJob (fun _ => rfl) (hjob j hpc)
  | inserted q payload hpc hf hfresh row =>
      refine Db.permits_of_queue (hqueue q payload hpc) (fun e hne => ?_)
      obtain rfl := hit_insertJob hne
      refine ⟨rfl, fun O horg => ?_⟩
      simpa [Db.orgOf, Db.orgOfJob, AList.lookup_eq_none.mpr hfresh, Db.insertJob, Db.orgOfQueue,
        Replay.replayedRow] using horg
  | deleted row hpc =>
      intro e O hne horg
      obtain rfl := hit_deleteDeadLetter hne
      rcases horg with horg | horg
      · obtain ⟨entry, hlook, hO⟩ := Option.bind_eq_some_iff.mp horg
        obtain ⟨q, hq, hcan⟩ := hentry (.inr (by rw [hpc]; rfl)) entry hlook
        rw [hq] at hO
        refine Db.permits_of_queue hcan (fun e hne => ?_) (.entry r.entryId) O hne (.inl horg)
        obtain rfl := hit_deleteDeadLetter hne
        refine ⟨rfl, fun O' horg' => ?_⟩
        simpa [Db.orgOf, hlook, hq, Db.deleteDeadLetter, Db.orgOfQueue] using horg'
      · simp [Db.orgOf, Db.deleteDeadLetter] at horg
  | _ => exact Db.permits_report _ _ _ _

theorem Cancel.permits {r r' : Cancel} (hE : (Proc.cancel r).Entitled userId db) (hT : db.Tenanted)
    (h : r.step cfg ctx env db = some (db', r')) : db.Permits userId db' := by
  cases Cancel.stepped h with
  | rowUpdated hpc =>
      intro e O hne horg
      obtain rfl := hit_updateBatch hne
      cases hrow : db.batches.lookup r.batchId with
      | none => simp [Db.orgOf, Db.updateBatch, Table.lookup_update, hrow] at horg
      | some row =>
          refine Db.permits_of_queue (hE.2 (.inl hpc) row hrow) (fun e hne => ?_) (.batch r.batchId) O
            hne horg
          obtain rfl := hit_updateBatch hne
          refine ⟨rfl, fun O' horg' => ?_⟩
          simpa [Db.orgOf, hrow, Db.updateBatch, Table.lookup_update, Cancel.cancelledBatch,
            Db.orgOfQueue] using horg'
  | jobsUpdated batch hpc =>
      intro e O hne horg
      obtain ⟨j, row, rfl, hrow, hw⟩ := hit_updateJobsWhere hne
      -- the job is in the queue of its batch
      simp only [Cancel.cancels, Bool.and_eq_true, decide_eq_true_eq] at hw
      obtain ⟨b, hb, hsame⟩ := hT.batchOf j row r.batchId hrow hw.1
      refine Db.permits_of_queue (hE.2 (.inr ⟨batch, hpc⟩) b hb) (fun e hne => ?_) (.job j) O hne horg
      obtain ⟨i, row', rfl, hrow', hw'⟩ := hit_updateJobsWhere hne
      simp only [Cancel.cancels, Bool.and_eq_true, decide_eq_true_eq] at hw'
      obtain ⟨b', hb', hsame'⟩ := hT.batchOf i row' r.batchId hrow' hw'.1
      obtain rfl := Option.some.inj (hb.symm.trans hb')
      refine ⟨rfl, fun O' horg' => ?_⟩
      rw [hsame']
      rcases horg' with horg' | horg'
      · exact (Db.orgOfJob_of_lookup hrow').symm.trans horg'
      · obtain ⟨new, hnew, hO⟩ := Db.orgOfJob_eq_some.mp horg'
        rw [updateJobsWhere_lookup, hrow'] at hnew
        obtain rfl := Option.some.inj hnew
        rw [apply_ite Job.queueId] at hO
        exact (by simpa [Cancel.cancelledJob] using hO :
          (db.updateJobsWhere _ (Cancel.cancelledJob env.now)).orgOfQueue row'.queueId = some O')
  | _ => exact Db.permits_report _ _ _ _

/-- The UPDATE of a PATCH carries its own check. -/
theorem Patch.step_update {r r' : Patch} (h : r.step cfg ctx env db = some (db', r'))
    (hpc : r.pc = .update) {row : Queue} (hpc' : r'.pc = .publish row) :
    db.canOperate r.queueId r.userId = true := by
  simp only [Patch.step, hpc] at h
  (repeat' split at h) <;> cases h <;> cases hpc'
  simpa using ‹¬(!db.canOperate r.queueId r.userId) = true›

theorem Patch.permits {r r' : Patch} (hE : (Proc.patch r).Entitled userId db)
    (h : r.step cfg ctx env db = some (db', r')) : db.Permits userId db' := by
  cases Patch.stepped h with
  | updated q hpc hfree =>
      have hcan := Patch.step_update h hpc rfl
      have hs : (Proc.patch r).step cfg ctx env db = some (db.updateQueue r.queueId r.updates.apply,
          .patch (r.goto (.publish (r.updates.apply q)))) := by
        rw [Proc.step, h]
        rfl
      have horg := Proc.step_orgOfQueue hs
      refine Db.permits_of_queue (hE ▸ hcan) (fun e hne => ?_)
      obtain rfl := hit_updateQueue hne
      exact ⟨rfl, fun O hO => hO.elim id (fun hO => (horg _).symm.trans hO)⟩
  | _ => exact Db.permits_report _ _ _ _

/-- **A request that is entitled to what it writes has the role for it.** -/
theorem Proc.Entitled.permits (hE : p.Entitled userId db) (hT : db.Tenanted)
    (hp : p.Tenanted retired db) (h : p.step cfg ctx env db = some (db', p')) :
    db.Permits userId db' := by
  cases p <;> try exact hE.elim
  all_goals
    obtain ⟨⟨d, q⟩, hq, he⟩ := Option.map_eq_some_iff.mp h
    cases he
  case submit r => exact Submit.permits hE hp hq
  case retry r => exact Retry.permits hE hq
  case replay r => exact Replay.permits hE hq
  case cancel r => exact Cancel.permits hE hT hq
  case patch r => exact Patch.permits hE hq

end

end JobScheduler
