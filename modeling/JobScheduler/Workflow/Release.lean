/-
  JobScheduler.Workflow.Release
  ─────────────────────────────
  Release over a workflow graph whose edges are recorded before any prerequisite
  completes.  Completion and release are separate statements of each run; the
  last unblock statement sees every completion, an earlier one releases nothing,
  and a job leaves `blocked` once.
-/
import JobScheduler.Workflow.Submission

namespace JobScheduler

open Relational Transition

/-! ## §1. Recorded graphs. -/

/-- All edges of job `j` are recorded: it exists, and no request is attaching to it. -/
structure Recorded (j : UUID) (s : Sys) : Prop where
  mem : j ∈ s.db.jobs
  attached : ∀ k r d todo rest, s.proc k = some (.submit r) → r.pc ≠ .attach j d todo rest

theorem recorded_step {cfg : Config} {s s' : Sys} {a : Action} {j : UUID} (hR : Recorded j s)
    (h : step cfg s a = some s') : Recorded j s' where
  mem := mem_jobs_stays h hR.mem
  attached := by
    intro k r' d todo rest hk hpc
    cases submit_origin h hk with
    | idle hk₀ _ => exact hR.attached k r' d todo rest hk₀ hpc
    | started _ _ hq _ => rw [hq] at hpc; cases hpc
    | stepped env r _ hk₀ hs =>
        rcases hs.attach hpc with ⟨_, hfresh, _⟩ | ⟨x, hat, _⟩
        · exact hfresh hR.mem
        · exact hR.attached k r x (d :: todo) rest hk₀ hat

/-- The prerequisites of a recorded job do not change. -/
theorem Recorded.edges {cfg : Config} {s s' : Sys} {a : Action} {j d : UUID} (hR : Recorded j s)
    (h : step cfg s a = some s') : (j, d) ∈ s'.db.jobDependencies ↔ (j, d) ∈ s.db.jobDependencies := by
  refine ⟨fun he => ?_, edge_stays h⟩
  rcases edge_origin h he with hold | ⟨⟨k, env, r, todo, rest, _, hk, hpc⟩, _, _⟩
  · exact hold
  · exact absurd hpc (hR.attached k r d todo rest hk)

/-! ## §2. Runs over a recorded graph. -/

/-- What an undisturbed run from `s₁` keeps about the recorded job `j`. -/
structure Graph (j : UUID) (s₁ s : Sys) : Prop where
  workflow : Workflow s
  recorded : Recorded j s
  edges : ∀ d, (j, d) ∈ s.db.jobDependencies ↔ (j, d) ∈ s₁.db.jobDependencies

/-- One step keeps the graph above the job. -/
theorem graph_step {cfg : Config} {s₁ s s' : Sys} {a : Action} {j : UUID} (hG : Graph j s₁ s)
    (hm : a.manual = false) (hacc : a.rejected cfg s = false) (h : step cfg s a = some s') :
    Graph j s₁ s' where
  workflow := workflow_step hG.workflow hm hacc h
  recorded := recorded_step hG.recorded h
  edges d := (hG.recorded.edges h).trans (hG.edges d)

/-- The graph above the job in every undisturbed run. -/
theorem graph_run {cfg : Config} {s₁ s t : Sys} {tr : List (Sys × Action)} {j : UUID}
    (h₁ : Graph j s₁ t) (h : SysRun cfg t tr s) (hU : Undisturbed cfg tr) : Graph j s₁ s :=
  h.invariant (G := fun s a => a.manual = false ∧ a.rejected cfg s = false)
    (fun _ _ _ hI hg hs => graph_step hI hg.1 hg.2 hs)
    (fun p hp => ⟨hU.manual p hp, hU.rejected p hp⟩) h₁

/-- Both parts of an undisturbed run are undisturbed. -/
theorem Undisturbed.append {cfg : Config} {tr tr' : List (Sys × Action)}
    (h : Undisturbed cfg (tr ++ tr')) : Undisturbed cfg tr ∧ Undisturbed cfg tr' :=
  ⟨⟨fun p hp => h.manual p (List.mem_append_left _ hp),
    fun p hp => h.cancels p (List.mem_append_left _ hp),
    fun p hp => h.rejected p (List.mem_append_left _ hp)⟩,
   ⟨fun p hp => h.manual p (List.mem_append_right _ hp),
    fun p hp => h.cancels p (List.mem_append_right _ hp),
    fun p hp => h.rejected p (List.mem_append_right _ hp)⟩⟩

/-- The step takes job `j` out of blocked. -/
def Action.Frees (cfg : Config) (s : Sys) (a : Action) (j : UUID) : Prop :=
  s.db.statusOf j = some .blocked ∧
    ∃ s', step cfg s a = some s' ∧ s'.db.statusOf j ≠ some .blocked

/-- A job that is not blocked does not become blocked again. -/
theorem unblocked_run {cfg : Config} {s t : Sys} {tr : List (Sys × Action)} {j : UUID}
    (h : SysRun cfg t tr s) (hj : j ∈ t.db.jobs) (hne : t.db.statusOf j ≠ some .blocked) :
    s.db.statusOf j ≠ some .blocked :=
  (h.invariant (I := fun s => j ∈ s.db.jobs ∧ s.db.statusOf j ≠ some .blocked)
    (G := fun _ _ => True)
    (fun u a u' hI _ hs => by
      refine ⟨mem_jobs_stays hs hI.1, fun hb => hI.2 ?_⟩
      have heq := blocked_before hs
        (Option.isSome_iff_exists.mp (AList.lookup_isSome.mpr hI.1)) hb
      simpa [Db.statusOf, heq] using hb)
    (fun _ _ => trivial) ⟨hj, hne⟩).2

/-- A debt that an unblock statement of the run has paid is not owed at its end. -/
theorem not_owes_of_unblocks {cfg : Config} {s t : Sys} {tr : List (Sys × Action)} {d : UUID}
    (hW : Workflow t) (h : SysRun cfg t tr s) (hU : Undisturbed cfg tr)
    (hd : ∃ p ∈ tr, p.2.unblocks p.1 d = true) : ¬ s.Owes d := by
  obtain ⟨⟨u, a⟩, hmem, hun⟩ := hd
  obtain ⟨pre, post, rfl⟩ := List.append_of_mem hmem
  obtain ⟨u', hpre, hs, hpost⟩ := h.split_cons
  obtain ⟨hUpre, hUrest⟩ := hU.append
  have hWu := workflow_run hW hpre hUpre
  have hacc := hUrest.rejected (u, a) List.mem_cons_self
  have hm := hUrest.manual (u, a) List.mem_cons_self
  have hpaid : ¬ u'.Owes d :=
    (hWu.steady d).unblocks_pays hWu.pending (hWu.manualFree.not_resets a d) hacc hun hs
  have hWu' := workflow_step hWu hm hacc hs
  exact (hpost.invariant (I := fun s => Workflow s ∧ ¬ s.Owes d)
    (G := fun s b => b.manual = false ∧ b.rejected cfg s = false)
    (fun v b v' hI hg hvs => ⟨workflow_step hI.1 hg.1 hg.2 hvs, fun ho =>
      hI.2 ((hI.1.steady d).owes_antitone hI.1.pending (hI.1.manualFree.not_resets b d) hvs ho)⟩)
    (fun p hp => ⟨hUrest.manual p (List.mem_cons_of_mem _ hp),
      hUrest.rejected p (List.mem_cons_of_mem _ hp)⟩) ⟨hWu', hpaid⟩).2

/-! ## §3. Exactly one release. -/

/-- A recorded job leaves blocked in an unblock statement that has found all its
prerequisites completed. -/
theorem Graph.leaves {cfg : Config} {s₁ t t' : Sys} {a : Action} {j : UUID} (hG : Graph j s₁ t)
    (hc : a.cancelsJobs t = false) (h : step cfg t a = some t')
    (hb : t.db.statusOf j = some .blocked) (hnb : t'.db.statusOf j ≠ some .blocked) :
    (∀ d ∈ s₁.db.prerequisites j, t.db.statusOf d = some .completed) ∧
    ∃ k env e row, a = .run k env ∧ t.proc k = some (.exec e) ∧ e.pc = .unblock ∧
      e.jobId ∈ s₁.db.prerequisites j ∧ t.db.jobs.lookup j = some row ∧
      t'.db.statusOf j = some (if row.runAt ≤ env.now then .queued else .scheduled) := by
  rcases leaves_blocked hG.workflow.pending (hG.workflow.steady j).toActivations
    (hG.workflow.manualFree.not_resets a j) hc h hb with
    heq | ⟨k, env, e, old, rfl, hk, hpc, hold, hrel, hnew⟩
  · exact absurd (by simpa [Db.statusOf, heq] using hb) hnb
  · simp only [Db.releasable, Bool.and_eq_true, decide_eq_true_eq] at hrel
    obtain ⟨⟨_, hedge⟩, hpend⟩ := hrel
    refine ⟨?_, k, env, e, old, rfl, hk, hpc, ?_, hold, ?_⟩
    · intro d hd
      have hdt : (j, d) ∈ t.db.jobDependencies := (hG.edges d).mpr (mem_prerequisites.mp hd)
      -- the edge refers to a row, and the statement has seen no row pending
      obtain ⟨row, hrow⟩ := Option.isSome_iff_exists.mp
        (AList.lookup_isSome.mpr (hG.workflow.requests.edges j d hdt).2)
      simp [Db.statusOf, hrow, noPendingPrerequisite_iff.mp hpend d row hdt hrow]
    · exact mem_prerequisites.mpr ((hG.edges _).mp hedge)
    · simp [Db.statusOf, hnew, Job.released]

/-- As long as a recorded job is blocked, some prerequisite owes its unblock statement. -/
theorem Graph.awaits_run {cfg : Config} {s₁ s : Sys} {tr : List (Sys × Action)} {j : UUID}
    (hG₁ : Graph j s₁ s₁) (hw : s₁.Awaits j) (h : SysRun cfg s₁ tr s) (hU : Undisturbed cfg tr)
    (hb : s.db.statusOf j = some .blocked) : s.Awaits j := by
  have hinv := h.invariant
    (I := fun s => Graph j s₁ s ∧ (s.db.statusOf j = some .blocked → s.Awaits j))
    (G := fun s a => a.manual = false ∧ a.rejected cfg s = false)
    (fun t a t' hI hg hs => by
      refine ⟨graph_step hI.1 hg.1 hg.2 hs, fun hbt' => ?_⟩
      have hin := Option.isSome_iff_exists.mp (AList.lookup_isSome.mpr hI.1.recorded.mem)
      have heq := blocked_before hs hin hbt'
      have hbt : t.db.statusOf j = some .blocked := by simpa [Db.statusOf, heq] using hbt'
      exact awaits_step hI.1.workflow.inserts hg.2 hs hin hbt' (hI.2 hbt))
    (fun p hp => ⟨hU.manual p hp, hU.rejected p hp⟩) ⟨hG₁, fun _ => hw⟩
  exact hinv.2 hb

/-- **Exactly-once release.**  Let an undisturbed run reach a state `s₁` in which
job `j` is blocked, its edges are recorded, and none of its prerequisites is
completed.  Then, in every undisturbed continuation: `j` leaves blocked only in
the unblock statement of a prerequisite's run, with all prerequisites completed,
to queued if its `run_at` has come and to scheduled otherwise; it leaves blocked
at most once; and once the run of every prerequisite has executed its unblock
statement, it has left it. -/
theorem release_exactly_once {cfg : Config} {clock : Timestamp} {db : Db} {s₁ s : Sys}
    {tr₁ tr₂ : List (Sys × Action)} {j : UUID}
    (hedges : ∀ i d, (i, d) ∈ db.jobDependencies → i ∈ db.jobs ∧ d ∈ db.jobs)
    (hrun₁ : SysRun cfg (Sys.atRest clock db) tr₁ s₁) (hU₁ : Undisturbed cfg tr₁)
    (hrun₂ : SysRun cfg s₁ tr₂ s) (hU₂ : Undisturbed cfg tr₂)
    (hb : s₁.db.statusOf j = some .blocked) (hne : s₁.db.prerequisites j ≠ [])
    (hrec : ∀ k r d todo rest, s₁.proc k = some (.submit r) → r.pc ≠ .attach j d todo rest)
    (hnone : ∀ d ∈ s₁.db.prerequisites j, s₁.db.statusOf d ≠ some .completed) :
    (∀ t a t', (t, a) ∈ tr₂ → step cfg t a = some t' → t.db.statusOf j = some .blocked →
      t'.db.statusOf j ≠ some .blocked →
      (∀ d ∈ s₁.db.prerequisites j, t.db.statusOf d = some .completed) ∧
      ∃ k env e row, a = .run k env ∧ t.proc k = some (.exec e) ∧ e.pc = .unblock ∧
        e.jobId ∈ s₁.db.prerequisites j ∧ t.db.jobs.lookup j = some row ∧
        t'.db.statusOf j = some (if row.runAt ≤ env.now then .queued else .scheduled)) ∧
    (∀ pre t a mid u b post, tr₂ = pre ++ (t, a) :: (mid ++ (u, b) :: post) →
      a.Frees cfg t j → ¬ b.Frees cfg u j) ∧
    ((∀ d ∈ s₁.db.prerequisites j, ∃ p ∈ tr₂, p.2.unblocks p.1 d = true) →
      s.db.statusOf j ≠ some .blocked ∧ ∃ p ∈ tr₂, p.2.Frees cfg p.1 j) := by
  have hW₁ := workflow_run (workflow_atRest clock db hedges) hrun₁ hU₁
  have hG₁ : Graph j s₁ s₁ := ⟨hW₁, ⟨mem_jobs_of_statusOf hb, hrec⟩, fun _ => Iff.rfl⟩
  refine ⟨?_, ?_, ?_⟩
  · intro t a t' hmem hs hbt hnb
    obtain ⟨pre, post, rfl⟩ := List.append_of_mem hmem
    obtain ⟨_, hpre, _, _⟩ := hrun₂.split_cons
    obtain ⟨hUpre, hUrest⟩ := hU₂.append
    exact (graph_run hG₁ hpre hUpre).leaves (hUrest.cancels (t, a) List.mem_cons_self) hs hbt hnb
  · -- after the first release the job never becomes blocked again
    rintro pre t a mid u b post rfl ⟨_, t', hs, hnb⟩ ⟨hbu, _⟩
    obtain ⟨hUpre, _⟩ := hU₂.append
    obtain ⟨v, hpre, hsv, hrest⟩ := hrun₂.split_cons
    obtain ⟨_, hmid, _, _⟩ := hrest.split_cons
    rw [hs] at hsv
    cases hsv
    exact unblocked_run hmid
      (mem_jobs_stays hs (graph_run hG₁ hpre hUpre).recorded.mem) hnb hbu
  · intro hall
    have hnb : s.db.statusOf j ≠ some .blocked := by
      intro hbs
      obtain ⟨d₀, hd₀⟩ := List.exists_mem_of_ne_nil _ hne
      have hw₁ : s₁.Awaits j := ⟨d₀, mem_prerequisites.mp hd₀, .inl (hnone d₀ hd₀)⟩
      -- every debt has been paid, yet a blocked job awaits one
      obtain ⟨d, hd, ho⟩ := hG₁.awaits_run hw₁ hrun₂ hU₂ hbs
      have hd₁ : d ∈ s₁.db.prerequisites j :=
        mem_prerequisites.mpr (((graph_run hG₁ hrun₂ hU₂).edges d).mp hd)
      exact not_owes_of_unblocks hW₁ hrun₂ hU₂ (hall d hd₁) ho
    refine ⟨hnb, ?_⟩
    obtain ⟨pre, t, a, post, t', rfl, _, hbt, hs, hnbt⟩ :=
      hrun₂.exists_change (P := fun s => s.db.statusOf j ≠ some .blocked) (fun h => h hb) hnb
    exact ⟨(t, a), by simp, not_not.mp hbt, t', hs, hnbt⟩

/-- Jobs 6 and 7 are prerequisites of the blocked job 8. -/
def Db.smallGraph : Db :=
  { Db.small 2 [(6, Job.small .queued), (7, Job.small .queued), (8, Job.small .blocked)] with
    jobDependencies := [(8, 6), (8, 7)] }

/-- The runs of 6 and 7 both complete before either executes its unblock statement. -/
def racingActions : List Action :=
  .start 0 (.claim 5 none none) :: Action.runs 0 { now := 0, pick := some 6, fresh := 100 } 17
    ++ .start 1 (.claim 5 none none) :: Action.runs 1 { now := 0, pick := some 7, fresh := 101 } 18
    ++ Action.runs 0 { now := 0 } 1

/-- Job 8 is released once. -/
theorem release_exactly_once_racing :
    ∃ p ∈ trace (step Config.small) (Sys.atRest 0 Db.smallGraph) racingActions,
      p.2.Frees Config.small p.1 8 := by
  have hrun := run_of_play (step Config.small) (Sys.atRest 0 Db.smallGraph) racingActions
    (by rfl)
  have hedges : ∀ i d, (i, d) ∈ Db.smallGraph.jobDependencies →
      i ∈ Db.smallGraph.jobs ∧ d ∈ Db.smallGraph.jobs := by
    intro i d h
    have hall : ∀ e ∈ Db.smallGraph.jobDependencies,
        e.1 ∈ Db.smallGraph.jobs ∧ e.2 ∈ Db.smallGraph.jobs := by decide
    exact hall (i, d) h
  refine ((release_exactly_once (j := 8) hedges Run.nil ⟨by simp, by simp, by simp⟩ hrun
    ⟨by decide, by decide, by decide⟩ rfl (by decide) (by intro k r d todo rest h; simp at h)
    (by decide)).2.2 (by decide)).2

end JobScheduler
