/-
  JobScheduler.Tenancy.Isolation
  ──────────────────────────────
  Read isolation: two states of the database that agree on the rows of a user's
  organisations give the same replies to every GET request of the user.

  Three endpoints join a second row by its id alone, without scoping it again: the
  prerequisites of a job, the jobs of a batch and the job of a dead-letter entry.
  They rely on the references of the tables staying inside an organisation.
-/
import JobScheduler.Routes.Reads
import JobScheduler.Tenancy.Runs

namespace JobScheduler

open Relational

/-! ## §1. States that look the same to a user. -/

/-- The user is a member of the organisation. -/
def Snapshot.visible (s : Snapshot) (userId O : UUID) : Prop := (s.db.roleIn O userId).isSome = true

/-- In one of the two states the row belongs to a visible organisation. -/
def Snapshot.Concerns (s : Snapshot) (userId : UUID) (org org' : Option UUID) : Prop :=
  ∃ O, s.visible userId O ∧ (org = some O ∨ org' = some O)

/-- The states agree on the rows of the user's organisations, on the user's
memberships and on the global tables. -/
structure Snapshot.Agree (userId : UUID) (s s' : Snapshot) : Prop where
  memberships : ∀ O, s'.db.roleIn O userId = s.db.roleIn O userId
  organizations : ∀ O, s.visible userId O →
    s'.directory.organizations.lookup O = s.directory.organizations.lookup O
  rows : ∀ e, s.Concerns userId (s.db.orgOf e) (s'.db.orgOf e) →
    s.db.SameRow s'.db e ∧ s'.createdAt e = s.createdAt e
  projectNames : ∀ p, s.Concerns userId (s.db.orgOf (.project p)) (s'.db.orgOf (.project p)) →
    s'.directory.projectNames.lookup p = s.directory.projectNames.lookup p
  executions : ∀ x, s.Concerns userId
      ((s.db.jobExecutions.lookup x).bind (fun row => s.db.orgOfJob row.jobId))
      ((s'.db.jobExecutions.lookup x).bind (fun row => s'.db.orgOfJob row.jobId)) →
    s'.db.jobExecutions.lookup x = s.db.jobExecutions.lookup x
  logs : ∀ x, s.Concerns userId ((s.jobLogs.lookup x).bind (fun row => s.db.orgOfJob row.1.jobId))
      ((s'.jobLogs.lookup x).bind (fun row => s'.db.orgOfJob row.1.jobId)) →
    s'.jobLogs.lookup x = s.jobLogs.lookup x
  workers : ∀ w, s'.workerNames.lookup w = s.workerNames.lookup w
  policies : ∀ p, s'.db.retryPolicies.lookup p = s.db.retryPolicies.lookup p
  policyNames : ∀ p, s'.policyNames.lookup p = s.policyNames.lookup p

section
variable {userId : UUID} {s s' : Snapshot}

theorem Db.SameRow.symm {db db' : Db} {e : Entity} (h : db.SameRow db' e) : db'.SameRow db e := by
  cases e with
  | dependency => exact Iff.symm h
  | _ => exact Eq.symm h

namespace Snapshot.Agree

/-- Two snapshots that agree show the user the same organisations. -/
theorem visible_iff (h : Agree userId s s') (O : UUID) : s'.visible userId O ↔ s.visible userId O := by
  unfold visible
  rw [h.memberships]

theorem concerns_symm (h : Agree userId s s') {org org' : Option UUID}
    (hc : s'.Concerns userId org' org) : s.Concerns userId org org' := by
  obtain ⟨O, hO, horg⟩ := hc
  exact ⟨O, (h.visible_iff O).mp hO, horg.symm⟩

theorem symm (h : Agree userId s s') : Agree userId s' s where
  memberships O := (h.memberships O).symm
  organizations O hO := (h.organizations O ((h.visible_iff O).mp hO)).symm
  rows e hc := ⟨(h.rows e (h.concerns_symm hc)).1.symm, (h.rows e (h.concerns_symm hc)).2.symm⟩
  projectNames p hc := (h.projectNames p (h.concerns_symm hc)).symm
  executions x hc := (h.executions x (h.concerns_symm hc)).symm
  logs x hc := (h.logs x (h.concerns_symm hc)).symm
  workers w := (h.workers w).symm
  policies p := (h.policies p).symm
  policyNames p := (h.policyNames p).symm

/-! ## §2. The rows that a join chain reaches. -/

/-- A row of a visible organisation is in both states. -/
theorem row (h : Agree userId s s') {e : Entity} {O : UUID} (horg : s.db.orgOf e = some O)
    (hO : s.visible userId O) : s.db.SameRow s'.db e ∧ s'.createdAt e = s.createdAt e :=
  h.rows e ⟨O, hO, .inl horg⟩

theorem orgOfQueue (h : Agree userId s s') {q O : UUID} (horg : s.db.orgOfQueue q = some O)
    (hO : s.visible userId O) : s'.db.orgOfQueue q = some O := by
  obtain ⟨row, p, hrow, hp, rfl⟩ := Db.orgOfQueue_eq_some.mp horg
  have hq := (h.row (e := .queue q) horg hO).1
  have hproject := (h.row (e := .project row.projectId) (O := p.orgId)
    (by simp only [Db.orgOf, hp]; rfl) hO).1
  exact Db.orgOfQueue_eq_some.mpr ⟨row, p, hq.trans hrow, hproject.trans hp, rfl⟩

theorem orgOfJob (h : Agree userId s s') {j O : UUID} (horg : s.db.orgOfJob j = some O)
    (hO : s.visible userId O) : s'.db.orgOfJob j = some O := by
  obtain ⟨row, hrow, hq⟩ := Db.orgOfJob_eq_some.mp horg
  have hjob := (h.row (e := .job j) horg hO).1
  exact Db.orgOfJob_eq_some.mpr ⟨row, hjob.trans hrow, h.orgOfQueue hq hO⟩

end Snapshot.Agree

/-- The joins from a queue to the user's memberships. -/
theorem Snapshot.reaches_iff {q : UUID} :
    s.reaches userId q = true ↔ ∃ O, s.db.orgOfQueue q = some O ∧ s.visible userId O := by
  simp [reaches, visible, Option.any_eq_true]

theorem Snapshot.reachesByOrg_iff {q : UUID} :
    s.reachesByOrg userId q = true ↔ ∃ O, s.db.orgOfQueue q = some O ∧ s.visible userId O ∧
      O ∈ s.directory.organizations := by
  simp [reachesByOrg, visible, Option.any_eq_true, and_comm]

theorem Snapshot.reachesJob_iff {j : UUID} :
    s.reachesJob userId j = true ↔ ∃ O, s.db.orgOfJob j = some O ∧ s.visible userId O := by
  simp only [reachesJob, Option.any_eq_true, reaches_iff, Db.orgOfJob_eq_some]
  constructor
  · rintro ⟨row, hrow, O, hq, hO⟩
    exact ⟨O, ⟨row, hrow, hq⟩, hO⟩
  · rintro ⟨O, ⟨row, hrow, hq⟩, hO⟩
    exact ⟨row, hrow, O, hq, hO⟩

theorem Snapshot.reaches_of_byOrg {q : UUID} (h : s.reachesByOrg userId q = true) :
    s.reaches userId q = true := by
  obtain ⟨O, hq, hO, _⟩ := reachesByOrg_iff.mp h
  exact reaches_iff.mpr ⟨O, hq, hO⟩

namespace Snapshot.Agree

/-- The user reaches a queue in one snapshot as in the other. -/
theorem reaches (h : Agree userId s s') {q : UUID} (hq : s.reaches userId q = true) :
    s'.reaches userId q = true := by
  obtain ⟨O, horg, hO⟩ := reaches_iff.mp hq
  exact reaches_iff.mpr ⟨O, h.orgOfQueue horg hO, (h.visible_iff O).mpr hO⟩

theorem reachesByOrg (h : Agree userId s s') {q : UUID} (hq : s.reachesByOrg userId q = true) :
    s'.reachesByOrg userId q = true := by
  obtain ⟨O, horg, hO, hmem⟩ := reachesByOrg_iff.mp hq
  refine reachesByOrg_iff.mpr ⟨O, h.orgOfQueue horg hO, (h.visible_iff O).mpr hO, ?_⟩
  rw [← AList.lookup_isSome] at hmem ⊢
  rwa [h.organizations O hO]

/-- The user reaches a job in one snapshot as in the other. -/
theorem reachesJob (h : Agree userId s s') {j : UUID} (hj : s.reachesJob userId j = true) :
    s'.reachesJob userId j = true := by
  obtain ⟨O, horg, hO⟩ := reachesJob_iff.mp hj
  exact reachesJob_iff.mpr ⟨O, h.orgOfJob horg hO, (h.visible_iff O).mpr hO⟩

theorem reachesByOrg_eq (h : Agree userId s s') (q : UUID) :
    s'.reachesByOrg userId q = s.reachesByOrg userId q :=
  Bool.eq_iff_iff.mpr ⟨h.symm.reachesByOrg, h.reachesByOrg⟩

theorem reachesJob_eq (h : Agree userId s s') (j : UUID) :
    s'.reachesJob userId j = s.reachesJob userId j :=
  Bool.eq_iff_iff.mpr ⟨h.symm.reachesJob, h.reachesJob⟩

theorem queue (h : Agree userId s s') {q : UUID} (hq : s.reaches userId q = true) :
    s'.db.queues.lookup q = s.db.queues.lookup q ∧ s'.createdAt (.queue q) = s.createdAt (.queue q) := by
  obtain ⟨O, horg, hO⟩ := reaches_iff.mp hq
  exact h.row (e := .queue q) horg hO

theorem job (h : Agree userId s s') {j : UUID} {row : Job} (hrow : s.db.jobs.lookup j = some row)
    (hq : s.reaches userId row.queueId = true) :
    s'.db.jobs.lookup j = some row ∧ s'.jobRow (j, row) = s.jobRow (j, row) := by
  obtain ⟨O, horg, hO⟩ := reaches_iff.mp hq
  have hsame := h.row (e := .job j) (Db.orgOfJob_eq_some.mpr ⟨row, hrow, horg⟩) hO
  exact ⟨hsame.1.trans hrow, by rw [jobRow, jobRow, hsame.2]⟩

theorem batch (h : Agree userId s s') {b : UUID} {row : Batch} (hrow : s.db.batches.lookup b = some row)
    (hq : s.reaches userId row.queueId = true) :
    s'.db.batches.lookup b = some row ∧ s'.createdAt (.batch b) = s.createdAt (.batch b) := by
  obtain ⟨O, horg, hO⟩ := reaches_iff.mp hq
  have hsame := h.row (e := .batch b) (O := O) (by simp only [Db.orgOf, hrow]; exact horg) hO
  exact ⟨hsame.1.trans hrow, hsame.2⟩

/-! ## §3. The queries. -/

theorem queueName (h : Agree userId s s') {q : UUID} (hq : s.reaches userId q = true) :
    s.queueName q = s'.queueName q := by
  rw [Snapshot.queueName, Snapshot.queueName, (h.queue hq).1]

theorem jobs_select (h : Agree userId s s') (f : JobFilter) :
    Selects s.db.jobs (fun _ j => s.reaches userId j.queueId && f.admits j)
      s'.db.jobs (fun _ j => s'.reaches userId j.queueId && f.admits j) := by
  intro id row hrow hp
  rw [Bool.and_eq_true] at hp ⊢
  exact ⟨(h.job hrow hp.1).1, h.reaches hp.1, hp.2⟩

theorem jobs_perm (h : Agree userId s s') (f : JobFilter) :
    (s.jobs userId f).Perm (s'.jobs userId f) := by
  refine select_map_perm (h.jobs_select f) (h.symm.jobs_select f) (fun id row hrow hp => ?_)
  rw [Bool.and_eq_true] at hp
  rw [jobView, jobView, (h.job hrow hp.1).2, h.queueName hp.1]

theorem executions_select (h : Agree userId s s') (j : UUID) :
    Selects s.db.jobExecutions (fun _ x => decide (x.jobId = j) && s.reachesJob userId j)
      s'.db.jobExecutions (fun _ x => decide (x.jobId = j) && s'.reachesJob userId j) := by
  intro x row hrow hp
  rw [Bool.and_eq_true, decide_eq_true_eq] at hp
  obtain ⟨O, horg, hO⟩ := reachesJob_iff.mp hp.2
  have hsame := h.executions x ⟨O, hO, .inl (by rw [hrow, ← horg, ← hp.1]; rfl)⟩
  exact ⟨hsame.trans hrow, by simp [hp.1, h.reachesJob hp.2]⟩

theorem executions_perm (h : Agree userId s s') (j : UUID) :
    (s.executions userId j).Perm (s'.executions userId j) := by
  refine select_map_perm (h.executions_select j) (h.symm.executions_select j) (fun x row _ _ => ?_)
  rw [h.workers]

theorem logs_select (h : Agree userId s s') (j : UUID) :
    Selects s.jobLogs (fun _ l => decide (l.1.jobId = j) && s.reachesJob userId j)
      s'.jobLogs (fun _ l => decide (l.1.jobId = j) && s'.reachesJob userId j) := by
  intro x row hrow hp
  rw [Bool.and_eq_true, decide_eq_true_eq] at hp
  obtain ⟨O, horg, hO⟩ := reachesJob_iff.mp hp.2
  have hsame := h.logs x ⟨O, hO, .inl (by rw [hrow, ← horg, ← hp.1]; rfl)⟩
  exact ⟨hsame.trans hrow, by simp [hp.1, h.reachesJob hp.2]⟩

theorem logs_perm (h : Agree userId s s') (j : UUID) :
    (s.logs userId j).Perm (s'.logs userId j) :=
  select_map_perm (h.logs_select j) (h.symm.logs_select j) (fun _ _ _ _ => rfl)

theorem mem_prerequisites {db : Db} {j d : UUID} :
    d ∈ db.prerequisites j ↔ (j, d) ∈ db.jobDependencies := by
  simp [Db.prerequisites]

/-- The prerequisites of a job are in its organisation. -/
theorem dependencies_perm (h : Agree userId s s') (hT : s.db.Tenanted) (j : UUID) :
    (s.dependencies userId j).Perm (s'.dependencies userId j) := by
  unfold dependencies
  rw [h.reachesJob_eq]
  split
  · rename_i hj
    obtain ⟨O, horg, hO⟩ := reachesJob_iff.mp hj
    have hedge : ∀ d, s.db.SameRow s'.db (.dependency j d) ∧
        s'.createdAt (.dependency j d) = s.createdAt (.dependency j d) :=
      fun d => h.row (e := .dependency j d) horg hO
    have hids : (s.db.prerequisites j).dedup.Perm (s'.db.prerequisites j).dedup := by
      rw [List.perm_ext_iff_of_nodup (List.nodup_dedup _) (List.nodup_dedup _)]
      intro d
      rw [List.mem_dedup, List.mem_dedup, mem_prerequisites, mem_prerequisites]
      exact (hedge d).1.symm
    refine List.Perm.trans ?_ (hids.filterMap _)
    rw [List.filterMap_congr]
    intro d hd
    obtain ⟨org, hjorg, hdorg⟩ := hT.edges j d (mem_prerequisites.mp (List.mem_dedup.mp hd))
    obtain rfl := Option.some.inj (hjorg.symm.trans horg)
    rw [(h.row (e := .job d) hdorg hO).1, (hedge d).2]
  · exact List.Perm.refl _

theorem batches_select (h : Agree userId s s') (queueId : Option IdText) :
    Selects s.db.batches
      (fun _ b => s.reaches userId b.queueId && queueId.all (fun t => t.is b.queueId)) s'.db.batches
      (fun _ b => s'.reaches userId b.queueId && queueId.all (fun t => t.is b.queueId)) := by
  intro id row hrow hp
  rw [Bool.and_eq_true] at hp ⊢
  exact ⟨(h.batch hrow hp.1).1, h.reaches hp.1, hp.2⟩

theorem batchView (h : Agree userId s s') {b : UUID} {row : Batch}
    (hrow : s.db.batches.lookup b = some row) (hq : s.reaches userId row.queueId = true) :
    s.batchView (b, row) = s'.batchView (b, row) := by
  rw [Snapshot.batchView, Snapshot.batchView, (h.batch hrow hq).2, h.queueName hq]

theorem batches_perm (h : Agree userId s s') (queueId : Option IdText) :
    (s.batches userId queueId).Perm (s'.batches userId queueId) := by
  refine select_map_perm (h.batches_select queueId) (h.symm.batches_select queueId)
    (fun id row hrow hp => ?_)
  rw [Bool.and_eq_true] at hp
  exact h.batchView hrow hp.1

/-- The jobs of a batch are in its queue. -/
theorem batchJobs_reaches (hT : s.db.Tenanted) {b j : UUID} {row : Job}
    (hrow : s.db.jobs.lookup j = some row)
    (hp : (decide (row.batchId = some b)
      && (s.db.batches.lookup b).any (fun b => s.reaches userId b.queueId)) = true) :
    s.reaches userId row.queueId = true := by
  rw [Bool.and_eq_true, decide_eq_true_eq] at hp
  obtain ⟨batch, hbatch, hsame⟩ := hT.batchOf j row b hrow hp.1
  rw [hbatch, Option.any_some, hsame] at hp
  exact hp.2

theorem batchJobs_select (h : Agree userId s s') (hT : s.db.Tenanted) (b : UUID) :
    Selects s.db.jobs (fun _ j => decide (j.batchId = some b)
        && (s.db.batches.lookup b).any (fun b => s.reaches userId b.queueId))
      s'.db.jobs (fun _ j => decide (j.batchId = some b)
        && (s'.db.batches.lookup b).any (fun b => s'.reaches userId b.queueId)) := by
  intro id row hrow hp
  refine ⟨(h.job hrow (batchJobs_reaches hT hrow hp)).1, ?_⟩
  rw [Bool.and_eq_true, Option.any_eq_true] at hp ⊢
  obtain ⟨hb, batch, hbatch, hq⟩ := hp
  exact ⟨hb, batch, (h.batch hbatch hq).1, h.reaches hq⟩

theorem batchJobs_perm (h : Agree userId s s') (hT : s.db.Tenanted) (hT' : s'.db.Tenanted) (b : UUID) :
    (s.batchJobs userId b).Perm (s'.batchJobs userId b) :=
  select_map_perm (h.batchJobs_select hT b) (h.symm.batchJobs_select hT' b)
    (fun _ _ hrow hp => (h.job hrow (batchJobs_reaches hT hrow hp)).2.symm)

theorem queues_select (h : Agree userId s s') (projectId : Option IdText) :
    Selects s.db.queues
      (fun id q => s.reachesByOrg userId id && projectId.all (fun t => t.is q.projectId)) s'.db.queues
      (fun id q => s'.reachesByOrg userId id && projectId.all (fun t => t.is q.projectId)) := by
  intro id row hrow hp
  rw [Bool.and_eq_true] at hp ⊢
  exact ⟨(h.queue (reaches_of_byOrg hp.1)).1.trans hrow, h.reachesByOrg hp.1, hp.2⟩

theorem queueView (h : Agree userId s s') {q : UUID} {row : Queue}
    (hrow : s.db.queues.lookup q = some row) (hq : s.reaches userId q = true) :
    s.queueView (q, row) = s'.queueView (q, row) := by
  obtain ⟨O, horg, hO⟩ := reaches_iff.mp hq
  obtain ⟨row', p, hrow', hp, rfl⟩ := Db.orgOfQueue_eq_some.mp horg
  obtain rfl := Option.some.inj (hrow.symm.trans hrow')
  have hname := h.projectNames row.projectId ⟨p.orgId, hO, .inl (by simp only [Db.orgOf, hp]; rfl)⟩
  have hpolicy : row.retryPolicyId.bind s'.db.retryPolicies.lookup
      = row.retryPolicyId.bind s.db.retryPolicies.lookup := by cases row.retryPolicyId <;> simp [h.policies]
  have hpname : row.retryPolicyId.bind s'.policyNames.lookup
      = row.retryPolicyId.bind s.policyNames.lookup := by cases row.retryPolicyId <;> simp [h.policyNames]
  simp only [Snapshot.queueView, hname, hpolicy, hpname, (h.queue hq).2]

theorem queues_perm (h : Agree userId s s') (projectId : Option IdText) :
    (s.queues userId projectId).Perm (s'.queues userId projectId) := by
  refine select_map_perm (h.queues_select projectId) (h.symm.queues_select projectId)
    (fun id row hrow hp => ?_)
  rw [Bool.and_eq_true] at hp
  exact h.queueView hrow (reaches_of_byOrg hp.1)

theorem entry (h : Agree userId s s') {x q : UUID} {row : DeadLetterEntry}
    (hrow : s.db.deadLetterQueue.lookup x = some row) (hqueue : row.queueId = some q)
    (hq : s.reaches userId q = true) :
    s'.db.deadLetterQueue.lookup x = some row ∧ s'.createdAt (.entry x) = s.createdAt (.entry x) := by
  obtain ⟨O, horg, hO⟩ := reaches_iff.mp hq
  have hsame := h.row (e := .entry x) (O := O) (by simp only [Db.orgOf, hrow, Option.bind_some, hqueue]; exact horg) hO
  exact ⟨hsame.1.trans hrow, hsame.2⟩

theorem deadLetters_select (h : Agree userId s s') (queueId : Option IdText) :
    Selects s.db.deadLetterQueue (fun _ x => x.queueId.any (fun q => s.reaches userId q)
        && queueId.all (fun t => x.queueId.any (fun q => t.is q)))
      s'.db.deadLetterQueue (fun _ x => x.queueId.any (fun q => s'.reaches userId q)
        && queueId.all (fun t => x.queueId.any (fun q => t.is q))) := by
  intro x row hrow hp
  rw [Bool.and_eq_true, Option.any_eq_true] at hp ⊢
  obtain ⟨⟨q, hqueue, hq⟩, hfilter⟩ := hp
  exact ⟨(h.entry hrow hqueue hq).1, ⟨q, hqueue, h.reaches hq⟩, hfilter⟩

/-- The job of an entry is in its queue. -/
theorem deadLetters_perm (h : Agree userId s s') (hT : s.db.Tenanted) (queueId : Option IdText) :
    (s.deadLetters userId queueId).Perm (s'.deadLetters userId queueId) := by
  refine select_map_perm (h.deadLetters_select queueId) (h.symm.deadLetters_select queueId)
    (fun x row hrow hp => ?_)
  rw [Bool.and_eq_true, Option.any_eq_true] at hp
  obtain ⟨⟨q, hqueue, hq⟩, -⟩ := hp
  have hjob : row.originalJobId.bind s'.db.jobs.lookup = row.originalJobId.bind s.db.jobs.lookup := by
    cases horig : row.originalJobId with
    | none => rfl
    | some j =>
        obtain ⟨job, hlook, hsame⟩ := hT.entryOf x row j hrow horig
        rw [hqueue] at hsame
        obtain rfl := Option.some.inj hsame
        rw [Option.bind_some, Option.bind_some, (h.job hlook hq).1, hlook]
  simp only [Snapshot.entryView, hqueue, Option.bind_some, h.queueName hq, hjob,
    (h.entry hrow hqueue hq).2]

/-! ## §4. The endpoints of one entity. -/

/-- A row that a join chain lets through is the same in both states. -/
theorem filter_eq {α : Type} {p q : α → Bool} {x y : Option α}
    (h : ∀ a, x = some a → p a = true → y = some a ∧ q a = true)
    (h' : ∀ a, y = some a → q a = true → x = some a ∧ p a = true) : x.filter p = y.filter q := by
  refine Option.ext (fun a => ?_)
  rw [Option.filter_eq_some_iff, Option.filter_eq_some_iff]
  exact ⟨fun ⟨hx, hp⟩ => h a hx hp, fun ⟨hy, hq⟩ => h' a hy hq⟩

theorem job_eq (h : Agree userId s s') (id : UUID) : s.job userId id = s'.job userId id := by
  have hsame : (s.db.jobs.lookup id).filter (fun j => s.reachesByOrg userId j.queueId)
      = (s'.db.jobs.lookup id).filter (fun j => s'.reachesByOrg userId j.queueId) :=
    filter_eq
      (fun _ hrow hq => ⟨(h.job hrow (reaches_of_byOrg hq)).1, h.reachesByOrg hq⟩)
      (fun _ hrow hq => ⟨(h.symm.job hrow (reaches_of_byOrg hq)).1, h.symm.reachesByOrg hq⟩)
  unfold Snapshot.job
  rw [← hsame]
  split
  · rfl
  · rename_i row hfound
    obtain ⟨hrow, hq⟩ := Option.filter_eq_some_iff.mp hfound
    have hreach := reaches_of_byOrg hq
    rw [jobView, jobView, (h.job hrow hreach).2, h.queueName hreach]

theorem batch_eq (h : Agree userId s s') (id : UUID) : s.batch userId id = s'.batch userId id := by
  have hsame : (s.db.batches.lookup id).filter (fun b => s.reaches userId b.queueId)
      = (s'.db.batches.lookup id).filter (fun b => s'.reaches userId b.queueId) :=
    filter_eq (fun _ hrow hq => ⟨(h.batch hrow hq).1, h.reaches hq⟩)
      (fun _ hrow hq => ⟨(h.symm.batch hrow hq).1, h.symm.reaches hq⟩)
  unfold Snapshot.batch
  rw [← hsame]
  split
  · rfl
  · rename_i row hfound
    obtain ⟨hrow, hq⟩ := Option.filter_eq_some_iff.mp hfound
    rw [h.batchView hrow hq]

theorem queue_eq (h : Agree userId s s') (id : UUID) :
    Snapshot.queue s userId id = Snapshot.queue s' userId id := by
  have hsame : (s.db.queues.lookup id).filter (fun _ => s.reachesByOrg userId id)
      = (s'.db.queues.lookup id).filter (fun _ => s'.reachesByOrg userId id) :=
    filter_eq
      (fun _ hrow hq => ⟨(h.queue (reaches_of_byOrg hq)).1.trans hrow, h.reachesByOrg hq⟩)
      (fun _ hrow hq => ⟨(h.symm.queue (reaches_of_byOrg hq)).1.trans hrow, h.symm.reachesByOrg hq⟩)
  unfold Snapshot.queue
  rw [← hsame]
  split
  · rfl
  · rename_i row hfound
    obtain ⟨hrow, hq⟩ := Option.filter_eq_some_iff.mp hfound
    have hpolicy : row.retryPolicyId.bind s'.db.retryPolicies.lookup
        = row.retryPolicyId.bind s.db.retryPolicies.lookup := by
      cases row.retryPolicyId <;> simp [h.policies]
    rw [h.queueView hrow (reaches_of_byOrg hq), hpolicy]

/-- The jobs of a visible queue. -/
theorem count_eq (h : Agree userId s s') {q : UUID} (hq : s.reaches userId q = true) (p : Job → Bool) :
    s.db.jobs.count (fun _ j => decide (j.queueId = q) && p j)
      = s'.db.jobs.count (fun _ j => decide (j.queueId = q) && p j) := by
  have hone : ∀ {t t' : Snapshot}, Agree userId t t' → t.reaches userId q = true →
      Selects t.db.jobs (fun _ j => decide (j.queueId = q) && p j)
        t'.db.jobs (fun _ j => decide (j.queueId = q) && p j) := by
    intro t t' ht htq id row hrow hp
    rw [Bool.and_eq_true, decide_eq_true_eq] at hp
    exact ⟨(ht.job hrow (hp.1.symm ▸ htq)).1, by simp [hp]⟩
  exact select_count (hone h hq) (hone h.symm (h.reaches hq))

theorem durations_perm (h : Agree userId s s') {q : UUID} (hq : s.reaches userId q = true) :
    (s.durations q).Perm (s'.durations q) := by
  have hone : ∀ {t t' : Snapshot}, Agree userId t t' → t.reaches userId q = true →
      Selects t.db.jobExecutions (fun _ x =>
          (t.db.jobs.lookup x.jobId).any (fun j => decide (j.queueId = q))
            && decide (x.status = .completed) && x.finishedAt.isSome)
        t'.db.jobExecutions (fun _ x =>
          (t'.db.jobs.lookup x.jobId).any (fun j => decide (j.queueId = q))
            && decide (x.status = .completed) && x.finishedAt.isSome) := by
    intro t t' ht htq id row hrow hp
    simp only [Bool.and_eq_true, Option.any_eq_true, decide_eq_true_eq] at hp ⊢
    obtain ⟨⟨⟨job, hjob, hsame⟩, hst⟩, hfin⟩ := hp
    have hreach : t.reaches userId job.queueId = true := hsame.symm ▸ htq
    obtain ⟨O, horg, hO⟩ := reaches_iff.mp hreach
    refine ⟨?_, ⟨⟨job, (ht.job hjob hreach).1, hsame⟩, hst⟩, hfin⟩
    refine (ht.executions id ⟨O, hO, .inl ?_⟩).trans hrow
    rw [hrow, Option.bind_some]
    exact Db.orgOfJob_eq_some.mpr ⟨job, hjob, horg⟩
  exact select_map_perm (hone h hq) (hone h.symm (h.reaches hq)) (fun _ _ _ _ => rfl)

/-- The figures of a queue agree. -/
theorem stats_eq (h : Agree userId s s') {q : UUID} (hq : s.reaches userId q = true)
    (now : Timestamp) : s.stats now q = s'.stats now q := by
  have hcount : s.statusCount q = s'.statusCount q := by
    funext st
    exact h.count_eq hq (fun j => decide (j.status = st))
  have hrecent : s.recentlyCompleted now q = s'.recentlyCompleted now q := by
    have hsame := h.count_eq hq
      (fun j => decide (j.status = .completed) && decide (now - 300000 ≤ j.updatedAt))
    simpa only [recentlyCompleted, Bool.and_assoc] using hsame
  have hperm := h.durations_perm hq
  have hempty : s.durations q = [] ↔ s'.durations q = [] := by
    rw [← List.length_eq_zero_iff, hperm.length_eq, List.length_eq_zero_iff]
  unfold Snapshot.stats
  rw [hcount, hrecent, hperm.sum_eq, hperm.length_eq]
  simp only [hempty]

theorem queueStats_eq (h : Agree userId s s') (now : Timestamp) (id : UUID) :
    s.queueStats userId now id = s'.queueStats userId now id := by
  unfold Snapshot.queueStats
  rw [h.reachesByOrg_eq]
  split
  · rename_i hq
    rw [h.stats_eq (reaches_of_byOrg hq)]
  · rfl

theorem project_eq (h : Agree userId s s') (id : UUID) : s.project userId id = s'.project userId id := by
  have hone : ∀ {t t' : Snapshot}, Agree userId t t' → ∀ view, t.project userId id = .project view →
      t'.project userId id = .project view := by
    intro t t' ht view hview
    unfold Snapshot.project at hview
    split at hview
    · cases hview
    · rename_i p hp
      split at hview
      · rename_i org role horg hrole
        cases hview
        have hO : t.visible userId p.orgId := by rw [visible, hrole]; rfl
        have horgOf : t.db.orgOf (.project id) = some p.orgId := by simp only [Db.orgOf, hp]; rfl
        have hsame := ht.row (e := .project id) horgOf hO
        have hrow : t'.db.projects.lookup id = some p := hsame.1.trans hp
        have hrole' : t'.db.roleIn p.orgId userId = some role := (ht.memberships _).trans hrole
        have horg' : t'.directory.organizations.lookup p.orgId = some org :=
          (ht.organizations _ hO).trans horg
        have hname := ht.projectNames id ⟨p.orgId, hO, .inl horgOf⟩
        unfold Snapshot.project
        simp only [hrow, horg', hrole', hname, hsame.2]
      · cases hview
  have hcases : ∀ t : Snapshot, (∃ view, t.project userId id = .project view) ∨
      t.project userId id = .failure ⟨404, "NOT_FOUND", "Project not found"⟩ := by
    intro t
    unfold Snapshot.project
    split
    · exact .inr rfl
    · split
      · exact .inl ⟨_, rfl⟩
      · exact .inr rfl
  rcases hcases s with ⟨view, hview⟩ | hnone
  · rw [hview, hone h view hview]
  · rcases hcases s' with ⟨view, hview⟩ | hnone'
    · rw [hone h.symm view hview] at hnone
      cases hnone
    · rw [hnone, hnone']

end Snapshot.Agree

theorem listing_congr {α : Type} {casts : List (Option IdText)} {le : α → α → Bool} {rows rows' : List α}
    {body : List α → ReadReply} {reply : ReadReply} (h : rows.Perm rows') :
    listing casts le rows body reply ↔ listing casts le rows' body reply := by
  unfold listing
  split
  · exact Iff.rfl
  · exact exists_congr (fun _ => and_congr_left' (OrderedBy.congr h))

theorem IdText.answer_congr {id : IdText} {f g : UUID → ReadReply → Prop} {reply : ReadReply}
    (h : ∀ i, f i reply ↔ g i reply) : id.answer f reply ↔ id.answer g reply := by
  cases id with
  | uuid i => exact h i
  | malformed text => exact Iff.rfl

theorem IdText.answer_eq {id : IdText} {f g : UUID → ReadReply} {reply : ReadReply}
    (h : ∀ i, f i = g i) :
    id.answer (fun i r => r = f i) reply ↔ id.answer (fun i r => r = g i) reply :=
  IdText.answer_congr (fun i => by rw [h i])

/-! ## §5. Ids. -/

/-- The endpoints whose path holds an id. -/
inductive IdEndpoint
  | job
  | executions
  | logs (page : PageQuery)
  | dependencies
  | batch
  | batchJobs (page : PageQuery)
  | queue
  | queueStats
  | project

/-- The read request of an endpoint for one id. -/
def IdEndpoint.request (id : UUID) : IdEndpoint → ReadRequest
  | .job => .job (.uuid id)
  | .executions => .executions (.uuid id)
  | .logs page => .logs (.uuid id) page
  | .dependencies => .dependencies (.uuid id)
  | .batch => .batch (.uuid id)
  | .batchJobs page => .batchJobs (.uuid id) page
  | .queue => .queue (.uuid id)
  | .queueStats => .queueStats (.uuid id)
  | .project => .project (.uuid id)

/-- What the id in the path names. -/
def IdEndpoint.entity (id : UUID) : IdEndpoint → Entity
  | .job | .executions | .logs _ | .dependencies => .job id
  | .batch | .batchJobs _ => .batch id
  | .queue | .queueStats => .queue id
  | .project => .project id

/-- There is no such row, or it belongs to no organisation of the user. -/
def Snapshot.Hidden (s : Snapshot) (userId : UUID) (e : Entity) : Prop :=
  ∀ O, s.db.orgOf e = some O → ¬ s.visible userId O

/-- The reply for an id that names nothing. -/
def IdEndpoint.nothing : IdEndpoint → ReadReply
  | .job => .failure ⟨404, "NOT_FOUND", "Job not found"⟩
  | .executions => .executions []
  | .logs page => .logs (page.parse.paginated [])
  | .dependencies => .dependencies []
  | .batch => .failure ⟨404, "NOT_FOUND", "Batch not found"⟩
  | .batchJobs page => .batchJobs (page.parse.paginated [])
  | .queue | .queueStats => .failure ⟨404, "NOT_FOUND", "Queue not found"⟩
  | .project => .failure ⟨404, "NOT_FOUND", "Project not found"⟩

theorem listing_nil {α : Type} {le : α → α → Bool} {body : List α → ReadReply} {reply : ReadReply} :
    listing [] le [] body reply ↔ reply = body [] := by
  constructor
  · rintro ⟨l, ho, rfl⟩
    rw [List.perm_nil.mp ho.perm]
  · rintro rfl
    exact ⟨[], ⟨List.Perm.refl _, List.Pairwise.nil⟩, rfl⟩

theorem select_false {ι α : Type} (t : Table ι α) {p : ι → α → Bool} (h : ∀ k a, p k a = false) :
    t.select p = [] := by
  simp [Table.select, h]

section
variable {id : UUID} {now : Timestamp} {reply : ReadReply}

theorem Snapshot.Hidden.job (h : s.Hidden userId (.job id)) : s.reachesJob userId id = false := by
  rw [Bool.eq_false_iff]
  intro hj
  obtain ⟨O, horg, hO⟩ := Snapshot.reachesJob_iff.mp hj
  exact h O horg hO

theorem Snapshot.Hidden.queue (h : s.Hidden userId (.queue id)) : s.reachesByOrg userId id = false := by
  rw [Bool.eq_false_iff]
  intro hq
  obtain ⟨O, horg, hO, _⟩ := Snapshot.reachesByOrg_iff.mp hq
  exact h O horg hO

theorem Snapshot.Hidden.batch (h : s.Hidden userId (.batch id)) {b : Batch}
    (hb : s.db.batches.lookup id = some b) : s.reaches userId b.queueId = false := by
  rw [Bool.eq_false_iff]
  intro hq
  obtain ⟨O, horg, hO⟩ := Snapshot.reaches_iff.mp hq
  exact h O (by simp only [Db.orgOf, hb]; exact horg) hO

/-- **The id of a hidden row gets the reply for an id that names nothing.** -/
theorem IdEndpoint.hidden {e : IdEndpoint} (h : s.Hidden userId (e.entity id)) :
    (e.request id).Replies s userId now reply ↔ reply = e.nothing := by
  cases e with
  | job =>
      have hnone : (s.db.jobs.lookup id).filter (fun j => s.reachesByOrg userId j.queueId) = none := by
        rw [Option.filter_eq_none_iff]
        intro row hrow hq
        have hj : s.reachesJob userId id = true := by
          rw [Snapshot.reachesJob, hrow]
          exact Snapshot.reaches_of_byOrg hq
        rw [h.job] at hj
        cases hj
      change reply = s.job userId id ↔ _
      rw [Snapshot.job, hnone]
      rfl
  | executions =>
      change listing [] _ (s.executions userId id) _ reply ↔ _
      rw [Snapshot.executions, h.job, select_false _ (fun _ _ => Bool.and_false _)]
      exact listing_nil
  | logs page =>
      change listing [] _ (s.logs userId id) _ reply ↔ _
      rw [Snapshot.logs, h.job, select_false _ (fun _ _ => Bool.and_false _)]
      exact listing_nil
  | dependencies =>
      change listing [] _ (s.dependencies userId id) _ reply ↔ _
      rw [Snapshot.dependencies, h.job]
      exact listing_nil
  | batch =>
      have hnone : (s.db.batches.lookup id).filter (fun b => s.reaches userId b.queueId) = none := by
        rw [Option.filter_eq_none_iff]
        intro row hrow hq
        rw [h.batch hrow] at hq
        cases hq
      change reply = s.batch userId id ↔ _
      rw [Snapshot.batch, hnone]
      rfl
  | batchJobs page =>
      have hnone : (s.db.batches.lookup id).any (fun b => s.reaches userId b.queueId) = false := by
        cases hb : s.db.batches.lookup id with
        | none => rfl
        | some b => exact h.batch hb
      change listing [] _ (s.batchJobs userId id) _ reply ↔ _
      rw [Snapshot.batchJobs, hnone, select_false _ (fun _ _ => Bool.and_false _)]
      exact listing_nil
  | queue =>
      change reply = Snapshot.queue s userId id ↔ _
      have hnone : (s.db.queues.lookup id).filter (fun _ => s.reachesByOrg userId id) = none := by
        rw [h.queue]
        cases s.db.queues.lookup id <;> rfl
      rw [Snapshot.queue, hnone]
      rfl
  | queueStats =>
      change reply = s.queueStats userId now id ↔ _
      rw [Snapshot.queueStats, h.queue]
      rfl
  | project =>
      have hnone : s.project userId id = .failure ⟨404, "NOT_FOUND", "Project not found"⟩ := by
        unfold Snapshot.project
        split
        · rfl
        · rename_i p hp
          split
          · rename_i org role _ hrole
            exact absurd (by rw [Snapshot.visible, hrole]; rfl)
              (h p.orgId (by simp only [IdEndpoint.entity, Db.orgOf, hp]; rfl))
          · rfl
      change reply = s.project userId id ↔ _
      rw [hnone]
      rfl

end

/-! ## §6. Isolation. -/

/-- One of the two states is enough to reply. -/
theorem Snapshot.Agree.replies (h : Agree userId s s') (hT : s.db.Tenanted) (hT' : s'.db.Tenanted)
    (now : Timestamp) (r : ReadRequest) (reply : ReadReply) :
    r.Replies s userId now reply ↔ r.Replies s' userId now reply := by
  cases r with
  | jobs page f => exact listing_congr (h.jobs_perm f)
  | job id => exact IdText.answer_eq h.job_eq
  | executions id => exact IdText.answer_congr (fun i => listing_congr (h.executions_perm i))
  | logs id page => exact IdText.answer_congr (fun i => listing_congr (h.logs_perm i))
  | dependencies id => exact IdText.answer_congr (fun i => listing_congr (h.dependencies_perm hT i))
  | batches page queueId => exact listing_congr (h.batches_perm queueId)
  | batch id => exact IdText.answer_eq h.batch_eq
  | batchJobs id page => exact IdText.answer_congr (fun i => listing_congr (h.batchJobs_perm hT hT' i))
  | queues page projectId => exact listing_congr (h.queues_perm projectId)
  | queue id => exact IdText.answer_eq h.queue_eq
  | queueStats id => exact IdText.answer_eq (h.queueStats_eq now)
  | deadLetters page queueId => exact listing_congr (h.deadLetters_perm hT queueId)
  | project id => exact IdText.answer_eq h.project_eq

end

/-- **Read isolation.**  Two states whose references stay inside an organisation,
as they do in every state of a run (`tenancy_run`), and which agree on the rows of
the user's organisations, on the user's memberships and on the global tables,
admit the same replies to every GET request of the user.  The id of a row of
another organisation gets the reply for an id that names nothing. -/
theorem reads_isolated {userId : UUID} {s s' : Snapshot} (hT : s.db.Tenanted) (hT' : s'.db.Tenanted)
    (h : Snapshot.Agree userId s s') (now : Timestamp) :
    (∀ r reply, ReadRequest.Replies s userId now r reply ↔ ReadRequest.Replies s' userId now r reply) ∧
    ∀ (e : IdEndpoint) (id id' : UUID), s.Hidden userId (e.entity id) → s.Hidden userId (e.entity id') →
      ∀ reply, (e.request id).Replies s userId now reply ↔ (e.request id').Replies s userId now reply :=
  ⟨h.replies hT hT' now, fun _ _ _ hid hid' _ => (IdEndpoint.hidden hid).trans (IdEndpoint.hidden hid').symm⟩

/-! ## §7. Two tenants. -/

/-- User 1 is a member of organisation 1 with job 7, and not of organisation 2
with job 8. -/
def Db.neighbours (edges : List (UUID × UUID)) (foreign : JobStatus) : Db :=
  { Db.small 1 [(7, Job.small .queued)] with
    projects := ((∅ : Table UUID Project).insert 1 ⟨1⟩).insert 2 ⟨2⟩
    queues := ((∅ : Table UUID Queue).insert 1 (Queue.small 1)).insert 2 { Queue.small 1 with projectId := 2 }
    jobs := ((∅ : Table UUID Job).insert 7 (Job.small .queued)).insert 8
      { Job.small foreign with queueId := 2 }
    jobDependencies := edges }

/-- A snapshot of two organisations, with the given dependencies between their jobs. -/
def Snapshot.neighbours (edges : List (UUID × UUID)) (foreign : JobStatus) : Snapshot where
  db := Db.neighbours edges foreign
  directory := Directory.small
  workerNames := ∅
  policyNames := ∅
  jobLogs := ∅
  createdAt := fun _ => 0

/-- The status of job 8 is none of the user's business. -/
theorem Snapshot.neighbours_agree (edges : List (UUID × UUID)) (st st' : JobStatus) :
    Snapshot.Agree 1 (Snapshot.neighbours edges st) (Snapshot.neighbours edges st') where
  memberships := fun _ => rfl
  organizations := fun _ _ => rfl
  rows := by
    intro e hc
    refine ⟨?_, rfl⟩
    cases e with
    | job id =>
        by_cases hid : id = 8
        · subst hid
          obtain ⟨O, hO, horg | horg⟩ := hc
          all_goals
            obtain rfl : 2 = O := Option.some.inj horg
            cases hO
        · simp [Db.SameRow, Snapshot.neighbours, Db.neighbours, AList.lookup_insert_ne hid]
    | dependency => exact Iff.rfl
    | _ => rfl
  projectNames := fun _ _ => rfl
  executions := fun _ _ => rfl
  logs := fun _ _ => rfl
  workers := fun _ => rfl
  policies := fun _ => rfl
  policyNames := fun _ => rfl

/-- Keys 1 and 2 of a table of two rows. -/
theorem mem_two {α : Type} (a b : α) {k : UUID} (h : k = 1 ∨ k = 2) :
    k ∈ ((∅ : Table UUID α).insert 1 a).insert 2 b :=
  (AList.mem_insert _).mpr (h.symm.imp_right (fun h₁ => (AList.mem_insert _).mpr (.inl h₁)))

theorem Db.neighbours_tenanted (st : JobStatus) : (Db.neighbours [] st).Tenanted where
  queues := by
    intro q row hq
    simp only [Db.neighbours, Table.lookup_insert_ite] at hq
    (repeat' split at hq) <;> cases hq
    · exact mem_two _ _ (.inr rfl)
    · exact mem_two _ _ (.inl rfl)
  batches := by intro b row hb; cases hb
  jobs := by
    intro j row hj
    simp only [Db.neighbours, Table.lookup_insert_ite] at hj
    (repeat' split at hj) <;> cases hj
    · exact mem_two _ _ (.inr rfl)
    · exact mem_two _ _ (.inl rfl)
  batchOf := by
    intro j row b hj hb
    simp only [Db.neighbours, Table.lookup_insert_ite] at hj
    (repeat' split at hj) <;> cases hj <;> cases hb
  entryOf := by intro x entry j hx; cases hx
  edges := by intro j d he; cases he

/-- GET /jobs/8 of user 1 has the same replies whatever the status of job 8. -/
theorem reads_isolated_neighbours :
    {reply | (ReadRequest.job (.uuid 8)).Replies (Snapshot.neighbours [] .queued) 1 0 reply} =
      {reply | (ReadRequest.job (.uuid 8)).Replies (Snapshot.neighbours [] .completed) 1 0 reply} :=
  Set.ext (fun reply =>
    (reads_isolated (Db.neighbours_tenanted .queued) (Db.neighbours_tenanted .completed)
      (Snapshot.neighbours_agree [] .queued .completed) 0).1 (.job (.uuid 8)) reply)

/-- With an edge from job 7 to job 8, GET /jobs/7/dependencies tells user 1 the
status of job 8. -/
theorem foreign_prerequisite_seen :
    ∃ s s' reply, Snapshot.Agree 1 s s' ∧
      (ReadRequest.dependencies (.uuid 7)).Replies s 1 0 reply ∧
      ¬ (ReadRequest.dependencies (.uuid 7)).Replies s' 1 0 reply := by
  refine ⟨Snapshot.neighbours [(7, 8)] .queued, Snapshot.neighbours [(7, 8)] .completed,
    .dependencies [⟨8, .queued, .immediate, 2, 0⟩], Snapshot.neighbours_agree _ _ _, ?_, ?_⟩
  · exact ⟨_, ⟨List.Perm.refl _, List.pairwise_singleton _ _⟩, rfl⟩
  · rintro ⟨l, ho, he⟩
    have hrows : (Snapshot.neighbours [(7, 8)] .completed).dependencies 1 7
        = [⟨8, .completed, .immediate, 2, 0⟩] := rfl
    rw [hrows] at ho
    rw [List.perm_singleton.mp ho.perm] at he
    cases he

end JobScheduler
