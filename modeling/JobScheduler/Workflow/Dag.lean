/-
  JobScheduler.Workflow.Dag
  ─────────────────────────
  The relation `job_dependencies` has no cycle of any length, and its edges stay
  inside one organisation.  The schema forbids an edge from a job to itself and
  nothing more; the rest follows from the order in which a submission checks its
  prerequisites, inserts its job and records its edges.

  The invariant is a rank of the jobs that every edge decreases.  A job that a
  submission inserts is ranked above the prerequisites it lists: these existed
  before, and no row comes back under the id of a deleted one.
-/
import JobScheduler.Library.Graph
import JobScheduler.Tenancy.Runs

namespace JobScheduler

open Relational Transition

/-- The edge `(job_id, depends_on_job_id)` is recorded. -/
def Db.DependsOn (db : Db) (j d : UUID) : Prop := (j, d) ∈ db.jobDependencies

/-- The workflow graph is a DAG inside one organisation. -/
structure Db.WorkflowDag (db : Db) : Prop where
  /-- There is no cycle of any length. -/
  acyclic : Graph.Acyclic db.DependsOn
  /-- No set of jobs waits only on itself. -/
  no_deadlock : ∀ T : Set UUID, T.Nonempty → ∃ j ∈ T, ∀ d, db.DependsOn j d → d ∉ T
  /-- Both ends of an edge belong to queues of one organisation. -/
  one_org : ∀ j d, db.DependsOn j d → ∃ row dep org,
    db.jobs.lookup j = some row ∧ db.jobs.lookup d = some dep ∧
      db.orgOfQueue row.queueId = some org ∧ db.orgOfQueue dep.queueId = some org

/-! ## §1. The rank. -/

/-- Every recorded edge decreases the rank, and so does every edge that a
submission may still record. -/
structure Ranking (rank : UUID → ℕ) (v : Service) : Prop where
  edges : Graph.Ranked v.sys.db.DependsOn rank
  requests : ∀ k r, v.sys.proc k = some (.submit r) → r.pc.building = true →
    ∀ j, r.Created j → ∀ d ∈ r.body.dependsOn, rank d < rank j

/-- An edge after a step of a client was there, or its submission has just
attached it. -/
theorem Proc.step_edge {cfg : Config} {ctx : Ctx} {env : Env} {db db' : Db} {p p' : Proc}
    (h : p.step cfg ctx env db = some (db', p')) {j d : UUID} (he : db'.DependsOn j d) :
    db.DependsOn j d ∨ ∃ r todo rest, p = .submit r ∧ r.pc = .attach j d todo rest := by
  rcases Proc.step_dependencies h with heq | ⟨r, i, x, todo, rest, rfl, hpc, _, rfl⟩
  · exact .inl (by unfold Db.DependsOn at he ⊢; rwa [← heq])
  · rcases mem_insertDependency.mp he with hold | hnew
    · exact .inl hold
    · obtain ⟨rfl, rfl⟩ := Prod.mk.inj hnew
      exact .inr ⟨r, todo, rest, rfl, hpc⟩

/-- Recorded edges after any statement of a client are ranked. -/
theorem Ranking.edges_step {cfg : Config} {v : Service} {env : Env} {pid : Nat} {p p' : Proc}
    {db' : Db} {rank : UUID → ℕ} (hV : Tenancy v) (hR : Ranking rank v)
    (hp : v.sys.proc pid = some p) (h : p.step cfg v.sys.ctx env v.sys.db = some (db', p')) :
    Graph.Ranked db'.DependsOn rank := by
  intro j d he
  rcases Proc.step_edge h he with hold | ⟨r, todo, rest, rfl, hpc⟩
  · exact hR.edges j d hold
  · have hT : r.Tenanted v.retired v.sys.db := hV.clients pid _ hp
    obtain ⟨hcreated, hlist⟩ := hT.attach j d todo rest hpc
    exact hR.requests pid r hp (by rw [hpc]; rfl) j hcreated d (hlist d List.mem_cons_self)

/-- The ids that the rank speaks about are known. -/
theorem Ranking.known {v : Service} (hV : Tenancy v) {k : Nat} {r : Submit}
    (hk : v.sys.proc k = some (.submit r)) (hb : r.pc.building = true) :
    (∀ j, r.Created j → KnownId v.retired v.sys.db.jobs j) ∧
      ∀ d ∈ r.body.dependsOn, KnownId v.retired v.sys.db.jobs d := by
  have hT : r.Tenanted v.retired v.sys.db := hV.clients k _ hk
  exact ⟨fun j hj => (hT.created j hj).1, fun d hd => (hT.dependencies hb d hd).1⟩

/-- A job that a request has created after a statement was created before, or is
the one just inserted. -/
theorem Submit.Stepped.created_fresh {cfg : Config} {env : Env} {db db' : Db} {r r' : Submit} {j : UUID}
    (h : Submit.Stepped cfg env r db db' r') (hj : r'.Created j) : r.Created j ∨ j = env.fresh := by
  cases h with
  | dependenciesChecked _ satisfied _ =>
      obtain ⟨pc, hpc, _⟩ := Submit.dispatch_eq cfg env.now
        { r with initialStatus := initialJobStatus r.body.type satisfied }
      rw [hpc] at hj
      exact .inl hj
  | batchInserted _ _ q hq => subst hq; exact .inl hj
  | jobInserted _ _ _ _ q hq =>
      subst hq
      simpa [Submit.Created, Submit.goto] using hj
  | _ => exact .inl hj

section
variable {cfg : Config} {v : Service} {pid : Nat} {env : Env} {rank : UUID → ℕ}

/-- The rank that puts a new job above the prerequisites it lists. -/
def rankAbove (rank : UUID → ℕ) (j : UUID) (dependsOn : List UUID) : UUID → ℕ :=
  Function.update rank j ((dependsOn.map rank).foldr max 0 + 1)

theorem rankAbove_ne {j x : UUID} {dependsOn : List UUID} (h : x ≠ j) :
    rankAbove rank j dependsOn x = rank x :=
  Function.update_of_ne h _ _

/-- The new job ranks above what it depends on. -/
theorem lt_rankAbove {j d : UUID} {dependsOn : List UUID} (hd : d ∈ dependsOn) :
    rank d < rankAbove rank j dependsOn j := by
  rw [rankAbove, Function.update_self, Nat.lt_succ_iff]
  induction dependsOn with
  | nil => cases hd
  | cons x xs ih =>
      rw [List.map_cons, List.foldr_cons]
      rcases List.mem_cons.mp hd with rfl | hmem
      · exact le_max_left _ _
      · exact (ih hmem).trans (le_max_right _ _)

/-- A submission that inserts a job: the new id is nowhere in the graph yet. -/
theorem Ranking.insert_step {r r' : Submit} {db' : Db} {item : JobItem} {rest : List JobItem}
    (hV : Tenancy v) (hR : Ranking rank v) (hp : v.sys.proc pid = some (.submit r))
    (hpc : r.pc = .insertJob item rest) (hfresh : env.fresh ∉ v.sys.db.jobs)
    (hret : env.fresh ∉ v.retired) (h : Submit.Stepped cfg env r v.sys.db db' r')
    (hedges : Graph.Ranked db'.DependsOn rank) :
    Graph.Ranked db'.DependsOn (rankAbove rank env.fresh r.body.dependsOn) ∧
      (r'.pc.building = true → ∀ j, r'.Created j → ∀ d ∈ r'.body.dependsOn,
        rankAbove rank env.fresh r.body.dependsOn d < rankAbove rank env.fresh r.body.dependsOn j) ∧
      ∀ k q, v.sys.proc k = some (.submit q) → q.pc.building = true → ∀ j, q.Created j →
        ∀ d ∈ q.body.dependsOn,
          rankAbove rank env.fresh r.body.dependsOn d < rankAbove rank env.fresh r.body.dependsOn j := by
  have hnew : ∀ {x : UUID}, KnownId v.retired v.sys.db.jobs x → x ≠ env.fresh := by
    rintro x (hx | hx) rfl
    · exact hfresh hx
    · exact hret hx
  have hb : r.pc.building = true := by rw [hpc]; rfl
  have hothers : ∀ k q, v.sys.proc k = some (.submit q) → q.pc.building = true → ∀ j, q.Created j →
      ∀ d ∈ q.body.dependsOn,
        rankAbove rank env.fresh r.body.dependsOn d < rankAbove rank env.fresh r.body.dependsOn j := by
    intro k q hk hq j hj d hd
    obtain ⟨hc, hl⟩ := Ranking.known hV hk hq
    rw [rankAbove_ne (hnew (hc j hj)), rankAbove_ne (hnew (hl d hd))]
    exact hR.requests k q hk hq j hj d hd
  have hdeps : ∀ j d, db'.DependsOn j d → v.sys.db.DependsOn j d := by
    intro j d he
    cases h with
    | attached _ _ _ _ hq => rw [hpc] at hq; cases hq
    | _ => exact he
  refine ⟨?_, ?_, hothers⟩
  · refine hedges.update _ (fun y hy => ?_) (fun y hy => ?_)
    · exact hfresh (hV.db.mem_jobs_of_edge (hdeps _ _ hy)).1
    · exact hfresh (hV.db.mem_jobs_of_edge (hdeps _ _ hy)).2
  · intro _ j hj d hd
    rw [(h.created j).1] at hd
    have hdne := hnew ((Ranking.known hV hp hb).2 d hd)
    rcases h.created_fresh hj with hold | rfl
    · exact hothers pid r hp hb j hold d hd
    · rw [rankAbove_ne hdne]
      exact lt_rankAbove hd

end

/-! ## §2. Steps and runs. -/

/-- A submission before its first INSERT has created nothing, and any other
statement than an INSERT of a job creates nothing. -/
theorem Ranking.keep_step {cfg : Config} {v : Service} {env : Env} {pid : Nat} {r r' : Submit}
    {db' : Db} {rank : UUID → ℕ} (hV : Tenancy v) (hR : Ranking rank v)
    (hp : v.sys.proc pid = some (.submit r)) (h : Submit.Stepped cfg env r v.sys.db db' r')
    (hno : ∀ item rest, r.pc ≠ .insertJob item rest) (hb : r'.pc.building = true) :
    ∀ j, r'.Created j → ∀ d ∈ r'.body.dependsOn, rank d < rank j := by
  intro j hj d hd
  rw [(h.created j).1] at hd
  rcases (h.created j).2.2 hj with hold | ⟨_, ⟨item, rest, hpc⟩, _⟩
  · rcases h.building hb with hb₀ | ⟨hpc, _⟩
    · exact hR.requests pid r hp hb₀ j hold d hd
    · have hT : r.Tenanted v.retired v.sys.db := hV.clients pid _ hp
      rw [Submit.Created, hT.early (.inr hpc)] at hold
      cases hold
  · exact absurd hpc (hno item rest)

/-- One action of the service keeps a ranking of the jobs. -/
theorem ranking_step {cfg : Config} {v v' : Service} {o : ServiceAction} (hV : Tenancy v)
    (hR : ∃ rank, Ranking rank v) (h : v.step cfg o = some v') : ∃ rank, Ranking rank v' := by
  obtain ⟨rank, hR⟩ := hR
  cases Service.stepped h with
  | requested pid r hfree => exact ⟨rank, hR.edges, hR.requests⟩
  | served pid env a a' st' ha hfresh hs =>
      -- edges are only taken away
      refine ⟨rank, hR.edges.mono (fun j d he => ?_), hR.requests⟩
      cases AccountCall.step_written hs with
      | owner _ _ _ d hdb => rcases hdb with rfl | rfl <;> exact he
      | deleted => exact (List.mem_filter.mp he).1
      | _ => exact he
  | acted a s' hadm hs =>
      cases JobScheduler.stepped hs with
      | wait ms => exact ⟨rank, hR.edges, hR.requests⟩
      | start pid request hfree =>
          refine ⟨rank, hR.edges, fun k r hk hb => ?_⟩
          rw [Sys.put_proc] at hk
          split at hk
          · cases request <;> cases hk
            cases hb
          · exact hR.requests k r hk hb
      | run pid env p p' db' hp hnow hstep =>
          obtain ⟨hfresh, _⟩ := Service.admits_run hadm hp
          have hedges := hR.edges_step hV hp hstep
          by_cases hins : ∃ r item rest, p = .submit r ∧ r.pc = .insertJob item rest ∧
              env.fresh ∉ v.sys.db.jobs
          · obtain ⟨r, item, rest, rfl, hpc, hjobs⟩ := hins
            obtain ⟨⟨d, r'⟩, hr, he⟩ := Option.map_eq_some_iff.mp hstep
            cases he
            obtain ⟨hedges', hself, hothers⟩ :=
              hR.insert_step hV hp hpc hjobs hfresh (Submit.stepped hr) hedges
            refine ⟨_, hedges', fun k q hk hb => ?_⟩
            rw [Sys.put_proc] at hk
            split at hk
            · cases hk
              exact hself hb
            · exact hothers k q hk hb
          · refine ⟨rank, hedges, fun k q hk hb => ?_⟩
            rw [Sys.put_proc] at hk
            split at hk
            · cases hk
              obtain ⟨r, rfl, hr⟩ := submit_of_step hstep
              have hsub := Submit.stepped hr
              refine hR.keep_step hV hp hsub (fun item rest hpc => ?_) hb
              -- the INSERT is rejected, so the submission is over
              cases hsub with
              | failed => cases hb
              | jobInserted _ _ _ hjobs => exact hins ⟨r, item, rest, rfl, hpc, hjobs⟩
              | queueChecked hq | dependenciesChecked hq | batchInserted hq
              | attached _ _ _ _ hq | scheduleInserted hq | published _ hq | replied _ hq =>
                  rw [hpc] at hq
                  cases hq
            · exact hR.requests k q hk hb

/-- A ranking of the jobs in every run. -/
theorem ranking_run {cfg : Config} {v₀ v : Service} {tr : List (Service × ServiceAction)}
    (h : ServiceRun cfg v₀ tr v) (hV : Tenancy v₀) (hR : ∃ rank, Ranking rank v₀) :
    ∃ rank, Ranking rank v :=
  (h.invariant (I := fun v => Tenancy v ∧ ∃ rank, Ranking rank v) (G := fun _ _ => True)
    (fun _ _ _ hI _ hs => ⟨tenancy_step hI.1 hs, ranking_step hI.1 hI.2 hs⟩) (fun _ _ => trivial)
    ⟨hV, hR⟩).2

/-- **The workflow graph is a DAG inside one organisation**, in every state that
any interleaving of statements of submissions, executions, cancellations,
retries, replays, queue updates, scheduler ticks, membership changes, project
creations and project deletions reaches. -/
theorem workflow_dag {cfg : Config} {clock : Timestamp} {db : Db} {directory : Directory}
    {tr : List (Service × ServiceAction)} {v : Service}
    (hrefs : db.Tenanted) (hdag : Graph.Acyclic db.DependsOn)
    (hrun : ServiceRun cfg (Service.atRest clock db directory) tr v) : v.sys.db.WorkflowDag := by
  have hfinite : {e : UUID × UUID | db.DependsOn e.1 e.2}.Finite :=
    db.jobDependencies.finite_toSet.subset (fun _ he => he)
  obtain ⟨rank₀, hrank₀⟩ := hdag.exists_ranked hfinite
  have hT := tenancy_run hrun (tenancy_atRest clock directory hrefs)
  obtain ⟨rank, hrank⟩ := ranking_run hrun (tenancy_atRest clock directory hrefs)
    ⟨rank₀, hrank₀, by intro k r hk; cases hk⟩
  refine ⟨hrank.edges.acyclic, fun T hne => hrank.edges.exists_sink hne, fun j d he => ?_⟩
  obtain ⟨org, hj, hd⟩ := hT.db.edges j d he
  obtain ⟨row, hrow, hq⟩ := Option.bind_eq_some_iff.mp hj
  obtain ⟨dep, hdep, hq'⟩ := Option.bind_eq_some_iff.mp hd
  exact ⟨row, dep, org, hrow, hdep, hq, hq'⟩

/-- Request 1 creates job 8 after job 6, request 2 creates job 9 after job 8, and
user 2 becomes a member between two statements of request 1. -/
def dagActions : List ServiceAction :=
  .request 0 (.addMember 1 1 (some "b@") (some "viewer"))
    :: (.start 1 (.submit 1 1 (CreateJobInput.small [6]))
      :: Action.runs 1 { now := 0, fresh := 8 } 3).map .act
    ++ ServiceAction.serves 0 { now := 0, fresh := 20 } 2
    ++ (.start 2 (.submit 1 1 (CreateJobInput.small [8]))
      :: Action.runs 1 { now := 0, fresh := 8 } 1 ++ Action.runs 2 { now := 0, fresh := 9 } 4).map .act

theorem workflow_dag_chain :
    (play (Service.step Config.small) (Service.atRest 0 (Db.small 2 [(6, Job.small .running)])
        Directory.small) dagActions).sys.db.jobDependencies = [(8, 6), (9, 8)] ∧
      (play (Service.step Config.small) (Service.atRest 0 (Db.small 2 [(6, Job.small .running)])
        Directory.small) dagActions).sys.db.WorkflowDag := by
  refine ⟨by rfl, workflow_dag (Db.small_tenanted 2 _ (by simp [Job.small])) ?_
    (run_of_play _ _ _ (by rfl))⟩
  -- no edge is recorded at first
  have hranked : Graph.Ranked (Db.small 2 [(6, Job.small .running)]).DependsOn (fun _ => 0) := by
    intro j d he
    cases he
  exact hranked.acyclic

end JobScheduler
