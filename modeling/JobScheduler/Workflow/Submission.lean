/-
  JobScheduler.Workflow.Submission
  ────────────────────────────────
  POST /queues/:queueId/jobs with `depends_on`, raced by its prerequisites.  The
  request reads their statuses, inserts a blocked job, and only then records its
  edges, one statement each: a prerequisite that finishes in between sees some of
  the edges, or none.
-/
import JobScheduler.Workflow.Dependencies

namespace JobScheduler

open Relational Transition

/-! ## §1. What a request has created. -/

/-- The request has inserted job `j`. -/
def Submit.Created (r : Submit) (j : UUID) : Prop := j ∈ r.created.map Prod.fst

/-- Where a request after a step comes from. -/
inductive SubmitOrigin (cfg : Config) (s s' : Sys) (a : Action) (k : Nat) (r' : Submit) : Prop
  | idle (hk : s.proc k = some (.submit r')) (hne : ∀ env, a ≠ .run k env)
  | started (hc : r'.created = []) (hb : r'.batch = none) (hpc : r'.pc = .checkQueue)
      (hdb : s'.db = s.db)
  | stepped (env : Env) (r : Submit) (ha : a = .run k env) (hk : s.proc k = some (.submit r))
      (hs : Submit.Stepped cfg env r s.db s'.db r')

theorem submit_origin {cfg : Config} {s s' : Sys} {a : Action} {k : Nat} {r' : Submit}
    (h : step cfg s a = some s') (hk : s'.proc k = some (.submit r')) :
    SubmitOrigin cfg s s' a k r' := by
  cases origin h hk with
  | idle hk₀ hne => exact .idle hk₀ hne
  | started request _ hp hdb => cases request <;> cases hp; exact .started rfl rfl rfl hdb
  | moved env p ha hk₀ hs =>
      obtain ⟨r, rfl, hr⟩ := submit_of_step hs
      exact .stepped env r ha hk₀ (Submit.stepped hr)

/-- A request idles or executes its next statement. -/
theorem submit_next {cfg : Config} {s s' : Sys} {a : Action} {k : Nat} {r : Submit}
    (h : step cfg s a = some s') (hk : s.proc k = some (.submit r)) :
    (s'.proc k = some (.submit r) ∧ ∀ env, a ≠ .run k env) ∨
      ∃ env r', a = .run k env ∧ s'.proc k = some (.submit r') ∧
        Submit.Stepped cfg env r s.db s'.db r' := by
  rcases proc_next h hk with hidle | ⟨env, p', ha, hk', hstep⟩
  · exact .inl hidle
  · obtain ⟨⟨d, r'⟩, hr, he⟩ := Option.map_eq_some_iff.mp hstep
    obtain ⟨rfl, rfl⟩ := Prod.mk.inj he
    exact .inr ⟨env, r', ha, hk', Submit.stepped hr⟩

/-- The requests and the edges they record. -/
structure Requests (s : Sys) : Prop where
  /-- Foreign keys of `job_dependencies`. -/
  edges : ∀ j d, (j, d) ∈ s.db.jobDependencies → j ∈ s.db.jobs ∧ d ∈ s.db.jobs
  created : ∀ k r j, s.proc k = some (.submit r) → r.Created j → j ∈ s.db.jobs
  early : ∀ k r, s.proc k = some (.submit r) → r.pc = .checkQueue ∨ r.pc = .checkDependencies →
    r.created = []
  /-- A request attaches the prerequisites it lists to a job it has created. -/
  attach : ∀ k r j d todo rest, s.proc k = some (.submit r) → r.pc = .attach j d todo rest →
    r.Created j ∧ ∀ x ∈ d :: todo, x ∈ r.body.dependsOn
  disjoint : ∀ k l r q j, s.proc k = some (.submit r) → s.proc l = some (.submit q) →
    r.Created j → q.Created j → k = l
  listed : ∀ k r j d, s.proc k = some (.submit r) → r.Created j →
    (j, d) ∈ s.db.jobDependencies → d ∈ r.body.dependsOn

theorem requests_atRest (clock : Timestamp) (db : Db)
    (hedges : ∀ j d, (j, d) ∈ db.jobDependencies → j ∈ db.jobs ∧ d ∈ db.jobs) :
    Requests (Sys.atRest clock db) where
  edges := hedges
  created := by intro k r j h; simp at h
  early := by intro k r h; simp at h
  attach := by intro k r j d todo rest h; simp at h
  disjoint := by intro k l r q j h; simp at h
  listed := by intro k r j d h; simp at h

theorem mem_jobs_stays {cfg : Config} {s s' : Sys} {a : Action} {j : UUID}
    (h : step cfg s a = some s') (hj : j ∈ s.db.jobs) : j ∈ s'.db.jobs := by
  obtain ⟨old, hold⟩ := Option.isSome_iff_exists.mp (AList.lookup_isSome.mpr hj)
  obtain ⟨new, hnew⟩ := row_stays h ⟨old, hold⟩
  exact AList.lookup_isSome.mp (by simp [hnew])

section
variable {cfg : Config} {env : Env} {db db' : Db} {r r' : Submit}

/-- A request never forgets its body, nor a job it has created; a job it creates
is new and has the status found at the check. -/
theorem Submit.Stepped.created (h : Submit.Stepped cfg env r db db' r') (j : UUID) :
    r'.body = r.body ∧ (r.Created j → r'.Created j) ∧
      (r'.Created j → r.Created j ∨ j ∉ db.jobs ∧ (∃ item rest, r.pc = .insertJob item rest) ∧
        r'.initialStatus = r.initialStatus ∧ db'.statusOf j = some r.initialStatus) := by
  cases h with
  | dependenciesChecked _ satisfied _ =>
      obtain ⟨pc, hpc, _⟩ := Submit.dispatch_eq cfg env.now
        { r with initialStatus := initialJobStatus r.body.type satisfied }
      rw [hpc]
      exact ⟨rfl, id, .inl⟩
  | batchInserted _ _ q hq => subst hq; exact ⟨rfl, id, .inl⟩
  | jobInserted item rest hpc hfresh q hq =>
      subst hq
      refine ⟨rfl, ?_, ?_⟩
      · intro hc
        simp only [Submit.Created, Submit.goto, List.map_append]
        exact List.mem_append_left _ hc
      · intro hc
        simp only [Submit.Created, Submit.goto, List.map_append, List.map_cons, List.map_nil,
          List.mem_append, List.mem_singleton] at hc
        rcases hc with hc | rfl
        · exact .inl hc
        · exact .inr ⟨hfresh, ⟨item, rest, hpc⟩, rfl, by simp [Db.statusOf, Submit.row]⟩
  | _ => exact ⟨rfl, id, .inl⟩

theorem Submit.nextItem_pc (q : Submit) (items : List JobItem) :
    (∃ item rest, items = item :: rest ∧ q.nextItem items = .insertJob item rest) ∨
      (items = [] ∧ q.nextItem items = .publish q.createdEvent) := by
  cases items with
  | nil => exact .inr ⟨rfl, rfl⟩
  | cons item rest => exact .inl ⟨item, rest, rfl, rfl⟩

/-- A request that attaches an edge next has just created the job, or goes on
with its list. -/
theorem Submit.Stepped.attach {j d : UUID} {todo : List UUID} {rest : List JobItem}
    (h : Submit.Stepped cfg env r db db' r') (hpc : r'.pc = .attach j d todo rest) :
    (r'.Created j ∧ j ∉ db.jobs ∧ d :: todo = r.body.dependsOn) ∨
      ∃ x, r.pc = .attach j x (d :: todo) rest ∧ r'.created = r.created := by
  have hitem : ∀ (q : Submit) items, q.nextItem items ≠ .attach j d todo rest := by
    intro q items
    rcases q.nextItem_pc items with ⟨_, _, _, he⟩ | ⟨_, he⟩ <;> rw [he] <;> simp
  have hedge : ∀ (q : Submit) i xs items, q.nextEdge i xs items = .attach j d todo rest →
      i = j ∧ xs = d :: todo ∧ items = rest := by
    intro q i xs items he
    cases xs with
    | nil => exact absurd he (hitem q items)
    | cons x xs => cases he; exact ⟨rfl, rfl, rfl⟩
  cases h with
  | failed | queueChecked | scheduleInserted | published | replied => cases hpc
  | dependenciesChecked _ satisfied _ =>
      obtain ⟨pc, heq, hd⟩ := Submit.dispatch_eq cfg env.now
        { r with initialStatus := initialJobStatus r.body.type satisfied }
      rw [heq] at hpc
      cases hd <;> cases hpc
  | batchInserted _ _ q _ => exact absurd hpc (hitem q _)
  | jobInserted item rest' _ hfresh q hq =>
      obtain ⟨rfl, hlist, _⟩ := hedge _ _ _ _ hpc
      left
      rw [hq]
      exact ⟨by simp [Submit.Created, Submit.goto], hfresh, hlist.symm⟩
  | attached i x xs rest' hat _ =>
      obtain ⟨rfl, rfl, rfl⟩ := hedge _ _ _ _ hpc
      exact .inr ⟨x, hat, rfl⟩

/-- Before its first INSERT a request has created nothing. -/
theorem Submit.Stepped.early (h : Submit.Stepped cfg env r db db' r')
    (hpc : r'.pc = .checkQueue ∨ r'.pc = .checkDependencies) :
    r.pc = .checkQueue ∧ r'.created = r.created := by
  have hitem : ∀ (q : Submit) items, q.nextItem items ≠ .checkQueue ∧
      q.nextItem items ≠ .checkDependencies := by
    intro q items
    rcases q.nextItem_pc items with ⟨_, _, _, he⟩ | ⟨_, he⟩ <;> rw [he] <;> simp
  have hedge : ∀ (q : Submit) i xs items, q.nextEdge i xs items ≠ .checkQueue ∧
      q.nextEdge i xs items ≠ .checkDependencies := by
    intro q i xs items
    cases xs with
    | nil => exact hitem q items
    | cons x xs => simp [Submit.nextEdge]
  cases h with
  | queueChecked hq _ => exact ⟨hq, rfl⟩
  | failed | scheduleInserted | published | replied => rcases hpc with hpc | hpc <;> cases hpc
  | dependenciesChecked _ satisfied _ =>
      obtain ⟨pc, heq, hd⟩ := Submit.dispatch_eq cfg env.now
        { r with initialStatus := initialJobStatus r.body.type satisfied }
      rw [heq] at hpc
      cases hd <;> rcases hpc with hpc | hpc <;> cases hpc
  | batchInserted _ _ q _ =>
      rcases hpc with hpc | hpc
      · exact absurd hpc (hitem q _).1
      · exact absurd hpc (hitem q _).2
  | jobInserted _ _ _ _ q _ =>
      rcases hpc with hpc | hpc
      · exact absurd hpc (hedge q _ _ _).1
      · exact absurd hpc (hedge q _ _ _).2
  | attached =>
      rcases hpc with hpc | hpc
      · exact absurd hpc (hedge r _ _ _).1
      · exact absurd hpc (hedge r _ _ _).2

end

/-- A job that a request has created after a step was created before, or has just
been inserted with the status found at the check. -/
theorem Requests.created_origin {cfg : Config} {s s' : Sys} {a : Action} {k : Nat} {r' : Submit}
    {j : UUID} (hR : Requests s) (h : step cfg s a = some s') (hk : s'.proc k = some (.submit r'))
    (hc : r'.Created j) :
    (∃ r, s.proc k = some (.submit r) ∧ r.Created j ∧ r.body = r'.body ∧
      r.initialStatus = r'.initialStatus) ∨
    (j ∉ s.db.jobs ∧ (∃ env, a = .run k env) ∧ s'.db.statusOf j = some r'.initialStatus ∧
      ∃ r item rest, s.proc k = some (.submit r) ∧ r.pc = .insertJob item rest ∧
        r.body = r'.body ∧ r.initialStatus = r'.initialStatus) := by
  cases submit_origin h hk with
  | idle hk₀ _ => exact .inl ⟨r', hk₀, hc, rfl, rfl⟩
  | started hnil _ _ _ => simp [Submit.Created, hnil] at hc
  | stepped env r ha hk₀ hs =>
      obtain ⟨hbody, _, hnew⟩ := hs.created j
      rcases hnew hc with hold | ⟨hfresh, ⟨item, rest, hpc⟩, hinit, hst⟩
      · refine .inl ⟨r, hk₀, hold, hbody.symm, ?_⟩
        -- the status is fixed once the first job is inserted
        generalize s'.db = db' at hs
        cases hs with
        | dependenciesChecked hpc _ _ =>
            rw [Submit.Created, hR.early k r hk₀ (.inr hpc)] at hold
            simp at hold
        | batchInserted _ _ q hq => subst hq; rfl
        | jobInserted _ _ _ _ q hq => subst hq; rfl
        | _ => rfl
      · exact .inr ⟨hfresh, ⟨env, ha⟩, hst.trans (by rw [hinit]), r, item, rest, hk₀, hpc,
          hbody.symm, hinit.symm⟩

theorem mem_jobs_of_statusOf {db : Db} {j : UUID} {st : JobStatus}
    (h : db.statusOf j = some st) : j ∈ db.jobs := by
  obtain ⟨row, hrow, _⟩ := Option.map_eq_some_iff.mp h
  exact AList.lookup_isSome.mp (by simp [hrow])

/-- One step keeps what is known of every request. -/
theorem requests_step {cfg : Config} {s s' : Sys} {a : Action} (hR : Requests s)
    (h : step cfg s a = some s') : Requests s' := by
  refine ⟨?_, ?_, ?_, ?_, ?_, ?_⟩
  · intro j d he
    rcases edge_origin h he with hold | ⟨⟨k, env, r, todo, rest, _, hk, hpc⟩, hd, hjobs⟩
    · exact (hR.edges j d hold).imp (mem_jobs_stays h) (mem_jobs_stays h)
    · rw [hjobs]
      exact ⟨hR.created k r j hk (hR.attach k r j d todo rest hk hpc).1, hd⟩
  · intro k r' j hk hc
    rcases hR.created_origin h hk hc with ⟨r, hk₀, hc₀, _⟩ | ⟨_, _, hst, _⟩
    · exact mem_jobs_stays h (hR.created k r j hk₀ hc₀)
    · exact mem_jobs_of_statusOf hst
  · intro k r' hk hpc
    cases submit_origin h hk with
    | idle hk₀ _ => exact hR.early k r' hk₀ hpc
    | started hnil _ _ _ => exact hnil
    | stepped env r _ hk₀ hs =>
        obtain ⟨hpc₀, hsame⟩ := hs.early hpc
        rw [hsame]
        exact hR.early k r hk₀ (.inl hpc₀)
  · intro k r' j d todo rest hk hpc
    cases submit_origin h hk with
    | idle hk₀ _ => exact hR.attach k r' j d todo rest hk₀ hpc
    | started _ _ hq _ => rw [hq] at hpc; cases hpc
    | stepped env r _ hk₀ hs =>
        obtain ⟨hbody, hkeep, _⟩ := hs.created j
        rcases hs.attach hpc with ⟨hc, _, hlist⟩ | ⟨x, hat, _⟩
        · exact ⟨hc, fun y hy => by rw [hbody, ← hlist]; exact hy⟩
        · obtain ⟨hc, hsub⟩ := hR.attach k r j x (d :: todo) rest hk₀ hat
          exact ⟨hkeep hc, fun y hy => by rw [hbody]; exact hsub y (List.mem_cons_of_mem _ hy)⟩
  · intro k l r' q' j hk hl hcr hcq
    rcases hR.created_origin h hk hcr with ⟨r, hk₀, hr, _⟩ | ⟨hfresh, ⟨env, ha⟩, _⟩ <;>
      rcases hR.created_origin h hl hcq with ⟨q, hl₀, hq, _⟩ | ⟨hfresh', ⟨env', ha'⟩, _⟩
    · exact hR.disjoint k l r q j hk₀ hl₀ hr hq
    · exact absurd (hR.created k r j hk₀ hr) hfresh'
    · exact absurd (hR.created l q j hl₀ hq) hfresh
    · rw [ha] at ha'
      cases ha'
      rfl
  · intro k r' j d hk hc he
    rcases hR.created_origin h hk hc with ⟨r, hk₀, hc₀, hbody, _⟩ | ⟨hfresh, _⟩
    · rw [← hbody]
      rcases edge_origin h he with hold | ⟨⟨l, env, q, todo, rest, _, hl, hpc⟩, _, _⟩
      · exact hR.listed k r j d hk₀ hc₀ hold
      · obtain ⟨hcq, hsub⟩ := hR.attach l q j d todo rest hl hpc
        obtain rfl := hR.disjoint k l r q j hk₀ hl hc₀ hcq
        rw [hk₀] at hl
        cases hl
        exact hsub d List.mem_cons_self
    · exfalso
      rcases edge_origin h he with hold | ⟨⟨l, env', q, todo, rest, _, hl, hpc⟩, _, _⟩
      · exact hfresh (hR.edges j d hold).1
      · exact hfresh (hR.created l q j hl (hR.attach l q j d todo rest hl hpc).1)

/-! ## §2. The check. -/

/-- `dependenciesAreSatisfied` answers for existing jobs only, and answers yes
for completed ones only. -/
theorem dependenciesAreSatisfied_some {db : Db} {queueId userId : UUID} {dependsOn : List UuidText}
    {satisfied : Bool} (h : dependenciesAreSatisfied db queueId userId dependsOn = some satisfied) :
    ∀ d ∈ dependsOn.map (·.value),
      d ∈ db.jobs ∧ (satisfied = true → db.statusOf d = some .completed) := by
  intro d hd
  obtain ⟨x, hx, rfl⟩ := List.mem_map.mp hd
  obtain ⟨row, hrow, hst⟩ := dependencyRow_of_satisfied h hx
  have hlook := (dependencyRow_eq_some hrow).1
  exact ⟨AList.lookup_isSome.mp (by simp [hlook]), fun hs => by simp [Db.statusOf, hlook, hst hs]⟩

/-- The request has passed its check. -/
def Submit.Checked (r : Submit) : Prop :=
  r.pc = .insertBatch ∨ (∃ item rest, r.pc = .insertJob item rest) ∨ ∃ j, r.Created j

/-- The statements after `dependenciesAreSatisfied`. -/
def Submit.pastCheck (r : Submit) : Bool :=
  match r.pc with
  | .checkQueue | .checkDependencies => false
  | _ => true

/-- A checked request is past its check. -/
theorem Requests.pastCheck {s : Sys} {k : Nat} {r : Submit} (hR : Requests s)
    (hk : s.proc k = some (.submit r)) (hc : r.Checked) : r.pastCheck = true := by
  have hnot : r.pc = .checkQueue ∨ r.pc = .checkDependencies → False := by
    intro hpc
    have hnil := hR.early k r hk hpc
    rcases hc with hc | ⟨_, _, hc⟩ | ⟨j, hj⟩
    · rw [hc] at hpc
      simp at hpc
    · rw [hc] at hpc
      simp at hpc
    · simp [Submit.Created, hnil] at hj
  unfold Submit.pastCheck
  split
  · rename_i hpc; exact (hnot (.inl hpc)).elim
  · rename_i hpc; exact (hnot (.inr hpc)).elim
  · rfl

/-- The listed prerequisites of request `k` exist, and were all completed if its
check said so. -/
def ChecksHold (k : Nat) (s : Sys) : Prop :=
  ∀ r, s.proc k = some (.submit r) → r.Checked →
    (∀ d ∈ r.body.dependsOn, d ∈ s.db.jobs) ∧
    (r.initialStatus ≠ .blocked → ∀ d ∈ r.body.dependsOn, s.db.statusOf d = some .completed)

/-- A step keeps the prerequisites that request `k` has checked completed. -/
def Kept (k : Nat) (s s' : Sys) : Prop :=
  ∀ r, s.proc k = some (.submit r) → r.Checked → ∀ d ∈ r.body.dependsOn,
    s.db.statusOf d = some .completed → s'.db.statusOf d = some .completed

/-- Apart from the check itself, a statement of a checked request leaves what
was checked alone. -/
theorem Submit.Stepped.checked {cfg : Config} {env : Env} {db db' : Db} {r r' : Submit}
    (h : Submit.Stepped cfg env r db db' r')
    (hat : ∀ j d todo rest, r.pc = .attach j d todo rest → r.Created j) (hc : r'.Checked) :
    (r.Checked ∧ r'.body = r.body ∧ r'.initialStatus = r.initialStatus) ∨
    (db' = db ∧ r'.body = r.body ∧ ∃ satisfied,
      dependenciesAreSatisfied db r.queueId r.userId r.body.dependsOnTexts = some satisfied ∧
      r'.initialStatus = initialJobStatus r.body.type satisfied) := by
  have hcreated : ∀ pc, (∃ j, (r.goto pc).Created j) → r.Checked := fun _ h => .inr (.inr h)
  cases h with
  | failed err _ =>
      left
      rcases hc with hpc | ⟨_, _, hpc⟩ | hj
      · cases hpc
      · cases hpc
      · exact ⟨hcreated _ hj, rfl, rfl⟩
  | queueChecked _ _ =>
      left
      rcases hc with hpc | ⟨_, _, hpc⟩ | hj
      · cases hpc
      · cases hpc
      · exact ⟨.inr (.inr hj), rfl, rfl⟩
  | dependenciesChecked _ satisfied hs =>
      obtain ⟨pc, heq, _⟩ := Submit.dispatch_eq cfg env.now
        { r with initialStatus := initialJobStatus r.body.type satisfied }
      rw [heq]
      exact .inr ⟨rfl, rfl, satisfied, hs, rfl⟩
  | batchInserted hpc _ q hq => subst hq; exact .inl ⟨.inl hpc, rfl, rfl⟩
  | jobInserted item rest hpc _ q hq => subst hq; exact .inl ⟨.inr (.inl ⟨item, rest, hpc⟩), rfl, rfl⟩
  | attached j d todo rest hpc _ => exact .inl ⟨.inr (.inr ⟨j, hat j d todo rest hpc⟩), rfl, rfl⟩
  | scheduleInserted | published | replied =>
      left
      rcases hc with hpc | ⟨_, _, hpc⟩ | hj
      · cases hpc
      · cases hpc
      · exact ⟨hcreated _ hj, rfl, rfl⟩

/-- What the check has found stays true. -/
theorem checksHold_step {cfg : Config} {s s' : Sys} {a : Action} {k : Nat} (hR : Requests s)
    (hC : ChecksHold k s) (hkept : Kept k s s') (h : step cfg s a = some s') : ChecksHold k s' := by
  intro r' hk hc
  have hkeep : ∀ r : Submit, s.proc k = some (.submit r) → r.Checked → r'.body = r.body →
      r'.initialStatus = r.initialStatus →
      (∀ d ∈ r'.body.dependsOn, d ∈ s'.db.jobs) ∧
      (r'.initialStatus ≠ .blocked →
        ∀ d ∈ r'.body.dependsOn, s'.db.statusOf d = some .completed) := by
    intro r hk₀ hc₀ hbody hinit
    obtain ⟨hin, hcomp⟩ := hC r hk₀ hc₀
    rw [hbody, hinit]
    exact ⟨fun d hd => mem_jobs_stays h (hin d hd),
      fun hne d hd => hkept r hk₀ hc₀ d hd (hcomp hne d hd)⟩
  cases submit_origin h hk with
  | idle hk₀ _ => exact hkeep r' hk₀ hc rfl rfl
  | started hnil _ hpc _ =>
      rcases hc with hpc' | ⟨_, _, hpc'⟩ | ⟨j, hj⟩
      · rw [hpc] at hpc'; cases hpc'
      · rw [hpc] at hpc'; cases hpc'
      · simp [Submit.Created, hnil] at hj
  | stepped env r _ hk₀ hs =>
      rcases hs.checked (fun j d todo rest hpc => (hR.attach k r j d todo rest hk₀ hpc).1) hc with
        ⟨hc₀, hbody, hinit⟩ | ⟨hdb, hbody, satisfied, hsat, hinit⟩
      · exact hkeep r hk₀ hc₀ hbody hinit
      · have hall := dependenciesAreSatisfied_some hsat
        rw [hbody, hinit, hdb]
        -- the check itself: `blocked` is what it says when a prerequisite is open
        refine ⟨fun d hd => (hall d hd).1, fun hne d hd => (hall d hd).2 ?_⟩
        cases satisfied with
        | true => rfl
        | false => exact absurd rfl hne

/-! ## §3. Undisturbed runs. -/

/-- A run of requests and executors: no manual retry or replay, no cancellation,
no rejected statement of `executeJob`. -/
structure Undisturbed (cfg : Config) (tr : List (Sys × Action)) : Prop where
  manual : ∀ p ∈ tr, p.2.manual = false
  cancels : ∀ p ∈ tr, p.2.cancelsJobs p.1 = false
  rejected : ∀ p ∈ tr, p.2.rejected cfg p.1 = false

theorem Undisturbed.init {cfg : Config} {tr : List (Sys × Action)} {x : Sys × Action}
    (h : Undisturbed cfg (tr ++ [x])) : Undisturbed cfg tr where
  manual p hp := h.manual p (List.mem_append_left _ hp)
  cancels p hp := h.cancels p (List.mem_append_left _ hp)
  rejected p hp := h.rejected p (List.mem_append_left _ hp)

/-- What undisturbed runs preserve. -/
structure Workflow (s : Sys) : Prop where
  pending : Pending s
  manualFree : ManualFree s
  inserts : InsertsPending s
  steady : ∀ d, Steady d s
  requests : Requests s

theorem workflow_atRest (clock : Timestamp) (db : Db)
    (hedges : ∀ j d, (j, d) ∈ db.jobDependencies → j ∈ db.jobs ∧ d ∈ db.jobs) :
    Workflow (Sys.atRest clock db) where
  pending := pending_atRest clock db
  manualFree := manualFree_atRest clock db
  inserts := insertsPending_atRest clock db
  steady d := steady_atRest d clock db
  requests := requests_atRest clock db hedges

/-- One undisturbed step keeps the workflow invariant. -/
theorem workflow_step {cfg : Config} {s s' : Sys} {a : Action} (hW : Workflow s)
    (hm : a.manual = false) (hacc : a.rejected cfg s = false) (h : step cfg s a = some s') :
    Workflow s' where
  pending := pending_step hW.pending h
  manualFree := manualFree_step hW.manualFree hm h
  inserts := insertsPending_step hW.inserts h
  steady d := steady_step hW.pending (hW.steady d)
    (Action.not_resetsLive (hW.manualFree.not_resets a d)) hacc h
  requests := requests_step hW.requests h

/-- The workflow invariant in every undisturbed run. -/
theorem workflow_run {cfg : Config} {s₀ s : Sys} {tr : List (Sys × Action)} (h₀ : Workflow s₀)
    (h : SysRun cfg s₀ tr s) (hU : Undisturbed cfg tr) : Workflow s :=
  h.invariant (G := fun s a => a.manual = false ∧ a.rejected cfg s = false)
    (fun _ _ _ hI hg hs => workflow_step hI hg.1 hg.2 hs)
    (fun p hp => ⟨hU.manual p hp, hU.rejected p hp⟩) h₀

/-! ## §4. Jumping dependencies. -/

/-- The action is an unblock statement that finds every RECORDED prerequisite of
`j` completed, while one that request `k` lists but has not recorded yet is not. -/
def Action.jumps (s : Sys) (k : Nat) (j : UUID) : Action → Bool
  | .run pid _ =>
      match s.proc pid, s.proc k with
      | some (.exec e), some (.submit r) =>
          (match e.pc with
            | .unblock => true
            | _ => false)
          && decide ((j, e.jobId) ∈ s.db.jobDependencies) && s.db.noPendingPrerequisite j
          && r.body.dependsOn.any (fun x =>
            decide ((j, x) ∉ s.db.jobDependencies) && decide (s.db.statusOf x ≠ some .completed))
      | _, _ => false
  | _ => false

/-- Every prerequisite is completed. -/
theorem noPendingPrerequisite_iff {db : Db} {j : UUID} :
    db.noPendingPrerequisite j = true ↔
      ∀ d row, (j, d) ∈ db.jobDependencies → db.jobs.lookup d = some row → row.status = .completed := by
  unfold Db.noPendingPrerequisite
  rw [List.all_eq_true]
  constructor
  · intro h d row hd hrow
    have := h d (mem_prerequisites.mpr hd)
    rw [hrow] at this
    exact of_decide_eq_true this
  · intro h d hd
    split
    · rename_i dep hdep
      exact decide_eq_true (h d dep (mem_prerequisites.mp hd) hdep)
    · rfl

/-- The `catch` block sets back a completed prerequisite that request `k` has
checked. -/
def Action.revokes (cfg : Config) (s : Sys) (k : Nat) (a : Action) : Bool :=
  match s.proc k with
  | some (.submit r) => r.pastCheck && r.body.dependsOn.any (fun d => a.setsBack cfg s d)
  | _ => false

/-- A job that request `k` has created is blocked, or failed by one of the
cancellations `cancelled` tells of, or its prerequisites are completed. -/
def NotJumped (cancelled : Prop) (k : Nat) (j : UUID) (s : Sys) : Prop :=
  ∀ r, s.proc k = some (.submit r) → r.Created j → s.db.statusOf j ≠ some .blocked →
    (s.db.statusOf j = some .failed ∧ cancelled) ∨
      ∀ d ∈ r.body.dependsOn, s.db.statusOf d = some .completed

/-- Request `k` with its list of prerequisites, and the job `j` it creates. -/
structure Submission (cancelled : Prop) (k : Nat) (j : UUID) (dependsOn : List UUID) (s : Sys) :
    Prop where
  pending : Pending s
  requests : Requests s
  activations : ∀ i ∈ j :: dependsOn, Activations i s
  checks : ChecksHold k s
  notJumped : NotJumped cancelled k j s

theorem submission_atRest (cancelled : Prop) (k : Nat) (j : UUID) (dependsOn : List UUID)
    (clock : Timestamp) (db : Db)
    (hedges : ∀ i d, (i, d) ∈ db.jobDependencies → i ∈ db.jobs ∧ d ∈ db.jobs) :
    Submission cancelled k j dependsOn (Sys.atRest clock db) where
  pending := pending_atRest clock db
  requests := requests_atRest clock db hedges
  activations i _ := activations_atRest i clock db
  checks := by intro r h; simp at h
  notJumped := by intro r h; simp at h

section
variable {cfg : Config} {s s' : Sys} {a : Action} {k : Nat} {j : UUID} {dependsOn : List UUID}
  {cancelled : Prop}

/-- What a submission has checked and attached is kept by a step. -/
theorem Submission.kept (hS : Submission cancelled k j dependsOn s)
    (hbody : ∀ r, s.proc k = some (.submit r) → r.body.dependsOn = dependsOn)
    (hr : ∀ i ∈ j :: dependsOn, a.resets s i = false) (hrev : a.revokes cfg s k = false)
    (h : step cfg s a = some s') : Kept k s s' := by
  intro r hk hc d hd hcomp
  have hback : a.setsBack cfg s d = false := by
    simp only [Action.revokes, hk, hS.requests.pastCheck hk hc, Bool.true_and,
      List.any_eq_false] at hrev
    exact Bool.eq_false_iff.mpr (hrev d hd)
  have hmem : d ∈ j :: dependsOn := List.mem_cons_of_mem _ (hbody r hk ▸ hd)
  exact (hS.activations d hmem).finished_stays hS.pending (hr d hmem) hback h rfl rfl hcomp

/-- A blocked job is not released early, unless it is reset, cancelled or jumped. -/
theorem notJumped_step (hS : Submission cancelled k j dependsOn s) (hkept : Kept k s s')
    (hr : a.resets s j = false) (hc : a.cancelsJobs s = true → cancelled)
    (hjump : a.jumps s k j = false) (h : step cfg s a = some s') : NotJumped cancelled k j s' := by
  intro r' hk hcr hne
  have hA := hS.activations j List.mem_cons_self
  rcases hS.requests.created_origin h hk hcr with ⟨r, hk₀, hc₀, hbody, _⟩ |
    ⟨_, _, hst, r, item, rest, hk₀, hpc, hbody, hinit⟩
  · have hchecked : r.Checked := .inr (.inr ⟨j, hc₀⟩)
    rw [← hbody]
    by_cases hb : s.db.statusOf j = some .blocked
    · rcases released_or_cancelled hS.pending hA hr h hb with
        heq | ⟨l, env, e, old, rfl, hl, hpc, _, hrel, _⟩ | ⟨hcancel, hfailed⟩
      · exact absurd (by simpa [Db.statusOf, heq] using hb) hne
      · -- an unblock statement has seen only completed edges
        right
        intro d hd
        simp only [Db.releasable, Bool.and_eq_true, decide_eq_true_eq] at hrel
        obtain ⟨⟨_, hedge⟩, hnone⟩ := hrel
        apply hkept r hk₀ hchecked d hd
        -- a recorded edge was seen by NOT EXISTS; one that is not would be jumped
        by_cases hrec : (j, d) ∈ s.db.jobDependencies
        · obtain ⟨hin, _⟩ := hS.checks r hk₀ hchecked
          obtain ⟨row, hrow⟩ := Option.isSome_iff_exists.mp (AList.lookup_isSome.mpr (hin d hd))
          simp [Db.statusOf, hrow, noPendingPrerequisite_iff.mp hnone d row hrec hrow]
        · by_contra hnc
          simp only [Action.jumps, hl, hk₀, hpc, hedge, hnone, decide_true, Bool.and_self,
            Bool.true_and, List.any_eq_false] at hjump
          exact hjump d hd (by simp [hrec, hnc])
      · exact .inl ⟨hfailed, hc hcancel⟩
    · rcases hS.notJumped r hk₀ hc₀ hb with ⟨hfailed, hcancelled⟩ | hcomp
      · -- nothing but a manual retry takes a job out of failed
        have hback : a.setsBack cfg s j = false := by
          cases hback : a.setsBack cfg s j with
          | false => rfl
          | true =>
              obtain ⟨_, _, _, _, _, _, _, _, hcomp⟩ := setsBack_iff.mp hback
              rw [hfailed] at hcomp
              cases hcomp
        exact .inl ⟨hA.finished_stays hS.pending hr hback h rfl rfl hfailed, hcancelled⟩
      · exact .inr (fun d hd => hkept r hk₀ hchecked d hd (hcomp d hd))
  · -- the job has just been inserted: not blocked means that the check said yes
    have hchecked : r.Checked := .inr (.inl ⟨item, rest, hpc⟩)
    rw [hst] at hne
    obtain ⟨_, hcomp⟩ := hS.checks r hk₀ hchecked
    rw [← hbody]
    exact .inr (fun d hd => hkept r hk₀ hchecked d hd (hcomp (by rw [hinit]; simpa using hne) d hd))

/-- One step keeps the invariant of one submission. -/
theorem submission_step (hS : Submission cancelled k j dependsOn s)
    (hbody : ∀ r, s.proc k = some (.submit r) → r.body.dependsOn = dependsOn)
    (hr : ∀ i ∈ j :: dependsOn, a.resets s i = false) (hc : a.cancelsJobs s = true → cancelled)
    (hjump : a.jumps s k j = false) (hrev : a.revokes cfg s k = false)
    (h : step cfg s a = some s') : Submission cancelled k j dependsOn s' where
  pending := pending_step hS.pending h
  requests := requests_step hS.requests h
  activations i hi := activations_step hS.pending (hS.activations i hi)
    (Action.not_resetsLive (hr i hi)) h
  checks := checksHold_step hS.requests hS.checks (hS.kept hbody hr hrev h) h
  notJumped := notJumped_step hS (hS.kept hbody hr hrev h) (hr j List.mem_cons_self) hc hjump h

end

/-- A request keeps its body throughout the run. -/
theorem body_run {cfg : Config} {s₀ s t : Sys} {tr : List (Sys × Action)} {a : Action} {k : Nat}
    {r q : Submit} (h : SysRun cfg s₀ tr s) (hk : s.proc k = some (.submit r))
    (hm : (t, a) ∈ tr) (hq : t.proc k = some (.submit q)) : q.body = r.body := by
  obtain ⟨pre, post, rfl⟩ := List.append_of_mem hm
  obtain ⟨u, _, hrest⟩ := h.split pre ((t, a) :: post)
  obtain rfl := hrest.start_eq
  obtain ⟨r₁, hk₁, hbody⟩ := hrest.invariant
    (I := fun s => ∃ r₁, s.proc k = some (.submit r₁) ∧ q.body = r₁.body) (G := fun _ _ => True)
    (fun v b v' hI _ hs => by
      obtain ⟨r₁, hk₁, hbody⟩ := hI
      rcases submit_next hs hk₁ with ⟨hk', _⟩ | ⟨env, r₂, _, hk', hstep⟩
      · exact ⟨r₁, hk', hbody⟩
      · exact ⟨r₂, hk', hbody.trans (hstep.created 0).1.symm⟩)
    (fun _ _ => trivial) ⟨q, hq, rfl⟩
  rw [hk] at hk₁
  cases hk₁
  exact hbody

/-- **Dependencies are not jumped, unless an unblock statement runs over a
partial edge set.**  In every run without a manual retry or replay of the jobs
concerned, whatever fails and whatever is cancelled: if no unblock statement
finds the recorded prerequisites of `j` all completed while one that is still to
be recorded is not, and no `catch` block sets a completed prerequisite back, then
the job `j` that request `k` created is blocked until all its listed
prerequisites are completed, or a cancellation has failed it. -/
theorem dependencies_not_jumped {cfg : Config} {clock : Timestamp} {db : Db} {s : Sys}
    {tr : List (Sys × Action)} {k : Nat} {r : Submit} {j : UUID}
    (hedges : ∀ i d, (i, d) ∈ db.jobDependencies → i ∈ db.jobs ∧ d ∈ db.jobs)
    (hrun : SysRun cfg (Sys.atRest clock db) tr s) (hk : s.proc k = some (.submit r))
    (hj : r.Created j)
    (hreset : ∀ p ∈ tr, ∀ i ∈ j :: r.body.dependsOn, p.2.resets p.1 i = false)
    (hjump : ∀ p ∈ tr, p.2.jumps p.1 k j = false)
    (hrev : ∀ p ∈ tr, p.2.revokes cfg p.1 k = false) (hne : s.db.statusOf j ≠ some .blocked) :
    (s.db.statusOf j = some .failed ∧ ∃ p ∈ tr, p.2.cancelsJobs p.1 = true) ∨
      ∀ d ∈ r.body.dependsOn, s.db.statusOf d = some .completed := by
  have hbody : ∀ p ∈ tr, ∀ q, p.1.proc k = some (.submit q) →
      q.body.dependsOn = r.body.dependsOn := by
    rintro ⟨t, a⟩ hp q hq
    rw [body_run hrun hk hp hq]
  have hS := hrun.invariant
    (I := Submission (∃ p ∈ tr, p.2.cancelsJobs p.1 = true) k j r.body.dependsOn)
    (G := fun s a => (∀ q, s.proc k = some (.submit q) → q.body.dependsOn = r.body.dependsOn) ∧
      (∀ i ∈ j :: r.body.dependsOn, a.resets s i = false) ∧
      (a.cancelsJobs s = true → ∃ p ∈ tr, p.2.cancelsJobs p.1 = true) ∧
      a.jumps s k j = false ∧ a.revokes cfg s k = false)
    (fun _ _ _ hI ⟨hb, hr, hc, hju, hre⟩ hs => submission_step hI hb hr hc hju hre hs)
    (fun p hp => ⟨hbody p hp, hreset p hp, fun hc => ⟨p, hp, hc⟩, hjump p hp, hrev p hp⟩)
    (submission_atRest _ k j r.body.dependsOn clock db hedges)
  exact hS.notJumped r hk hj hne

/-- Worker 5 executes job 6 up to its unblock statement. -/
def untilUnblock : List Action :=
  .start 0 (.claim 5 none none) :: Action.runs 0 { now := 0, pick := some 6, fresh := 100 } 17

/-- Request 1 creates job 8, which lists job 6, and records its edge in time. -/
def inTimeActions : List Action :=
  untilUnblock ++ .start 1 (.submit 1 1 (CreateJobInput.small [6, 7]))
    :: Action.runs 1 { now := 0, fresh := 8 } 5 ++ [.run 0 { now := 0 }]

theorem edges_small (limit : Nat) (jobs : List (UUID × Job)) (i d : UUID)
    (h : (i, d) ∈ (Db.small limit jobs).jobDependencies) :
    i ∈ (Db.small limit jobs).jobs ∧ d ∈ (Db.small limit jobs).jobs := by
  simp [Db.small, Db.empty] at h

/-- Both edges are recorded before the unblock statement: job 8 is queued after
it, and its prerequisites are completed. -/
theorem dependencies_not_jumped_inTime :
    [6, 7].map (play (step Config.small)
      (Sys.atRest 0 (Db.small 2 [(6, Job.small .queued), (7, Job.small .completed)]))
      inTimeActions).db.statusOf = [some .completed, some .completed] := by
  have hrun := run_of_play (step Config.small)
    (Sys.atRest 0 (Db.small 2 [(6, Job.small .queued), (7, Job.small .completed)])) inTimeActions
    (by rfl)
  have hall := (dependencies_not_jumped (k := 1) (j := 8) (edges_small 2 _) hrun rfl
    (by unfold Submit.Created; decide) (by decide) (by decide) (by decide) (by decide)).resolve_left
    (by rintro ⟨hfailed, _⟩; revert hfailed; decide)
  rw [List.map_cons, List.map_cons, hall 6 List.mem_cons_self, hall 7 (by decide)]
  rfl

/-- Request 1 creates job 8 with the prerequisites 6 and 7, and has recorded the
edge to 6 only when the run of 6 executes its unblock statement. -/
def partialEdgeActions : List Action :=
  untilUnblock ++ .start 1 (.submit 1 1 (CreateJobInput.small [6, 7]))
    :: Action.runs 1 { now := 0, fresh := 8 } 4 ++ [.run 0 { now := 0 }]

/-- Job 8 is queued although its prerequisite 7 has not run. -/
theorem partial_edges_jumped :
    ∃ tr s r, SysRun Config.small
        (Sys.atRest 0 (Db.small 2 [(6, Job.small .queued), (7, Job.small .queued)])) tr s ∧
      Undisturbed Config.small tr ∧ s.proc 1 = some (.submit r) ∧ r.Created 8 ∧
      7 ∈ r.body.dependsOn ∧ s.db.statusOf 8 = some .queued ∧ s.db.statusOf 7 = some .queued := by
  refine ⟨_, _, _, run_of_play _ _ partialEdgeActions (by rfl),
    ⟨by decide, by decide, by decide⟩, rfl, ?_, ?_, rfl, rfl⟩
  · unfold Submit.Created; decide
  · decide

/-! ## §5. Losing a release. -/

/-- Some recorded step has recorded an edge of `j` to a prerequisite that still
owed its unblock statement. -/
def EdgeInTime (cfg : Config) (tr : List (Sys × Action)) (j : UUID) : Prop :=
  ∃ t a t' d, (t, a) ∈ tr ∧ step cfg t a = some t' ∧ (j, d) ∉ t.db.jobDependencies ∧
    (j, d) ∈ t'.db.jobDependencies ∧ t.Owes d

/-- The release of a job `j` that request `k` has created. -/
structure Released (cfg : Config) (k : Nat) (j : UUID) (tr : List (Sys × Action)) (s : Sys) :
    Prop where
  edge : EdgeInTime cfg tr j → ∃ d, (j, d) ∈ s.db.jobDependencies
  unblocked : ∀ r, s.proc k = some (.submit r) → r.Created j → r.initialStatus ≠ .blocked →
    s.db.statusOf j ≠ some .blocked
  awaited : ∀ r, s.proc k = some (.submit r) → r.Created j → EdgeInTime cfg tr j →
    s.db.statusOf j = some .blocked → s.Awaits j
  stuck : ∀ r, s.proc k = some (.submit r) → r.Created j → r.initialStatus = .blocked →
    ¬ EdgeInTime cfg tr j → s.db.statusOf j = some .blocked ∧ ¬ s.Awaits j

theorem EdgeInTime.of_snoc {cfg : Config} {tr : List (Sys × Action)} {s s' : Sys} {a : Action}
    {j : UUID} (h : step cfg s a = some s') (he : EdgeInTime cfg (tr ++ [(s, a)]) j) :
    EdgeInTime cfg tr j ∨ ∃ d, (j, d) ∉ s.db.jobDependencies ∧ (j, d) ∈ s'.db.jobDependencies ∧
      s.Owes d := by
  obtain ⟨t, b, t', d, hmem, hs, hno, hyes, ho⟩ := he
  rcases List.mem_append.mp hmem with hmem | hmem
  · exact .inl ⟨t, b, t', d, hmem, hs, hno, hyes, ho⟩
  · cases List.mem_singleton.mp hmem
    rw [h] at hs
    cases hs
    exact .inr ⟨d, hno, hyes, ho⟩

theorem EdgeInTime.snoc {cfg : Config} {tr : List (Sys × Action)} {j : UUID}
    (h : EdgeInTime cfg tr j) (x : Sys × Action) : EdgeInTime cfg (tr ++ [x]) j := by
  obtain ⟨t, a, t', d, hmem, hrest⟩ := h
  exact ⟨t, a, t', d, List.mem_append_left _ hmem, hrest⟩

theorem not_unblocks_of_attaches {s : Sys} {a : Action} {j d x : UUID} (h : a.Attaches s j d) :
    a.unblocks s x = false := by
  obtain ⟨k, env, r, todo, rest, rfl, hk, _⟩ := h
  simp [Action.unblocks, hk]

/-- One step keeps the account of the releases of a job. -/
theorem released_step {cfg : Config} {s s' : Sys} {a : Action} {k : Nat} {j : UUID}
    {tr : List (Sys × Action)} (hW : Workflow s) (hL : Released cfg k j tr s)
    (hacc : a.rejected cfg s = false) (hc : a.cancelsJobs s = false)
    (h : step cfg s a = some s') : Released cfg k j (tr ++ [(s, a)]) s' := by
  have hnr := hW.manualFree.not_resets a
  have hedge : EdgeInTime cfg (tr ++ [(s, a)]) j → ∃ d, (j, d) ∈ s'.db.jobDependencies := by
    intro he
    rcases he.of_snoc h with hold | ⟨d, _, hd, _⟩
    · obtain ⟨d, hd⟩ := hL.edge hold
      exact ⟨d, edge_stays h hd⟩
    · exact ⟨d, hd⟩
  -- an edge recorded by this step, to a prerequisite that owes its unblock statement
  have hnew : ∀ d, (j, d) ∉ s.db.jobDependencies → (j, d) ∈ s'.db.jobDependencies → s.Owes d →
      s'.Owes d := by
    intro d hno hyes ho
    rcases edge_origin h hyes with hold | ⟨hat, _, _⟩
    · exact absurd hold hno
    · exact Steady.owes_stays hW.inserts hacc (not_unblocks_of_attaches hat) h ho
  refine ⟨hedge, ?_, ?_, ?_⟩
  · intro r' hk hcr hne hb
    rcases hW.requests.created_origin h hk hcr with ⟨r, hk₀, hc₀, _, hinit⟩ | ⟨_, _, hst, _⟩
    · have hin := hW.requests.created k r j hk₀ hc₀
      have heq := blocked_before h (Option.isSome_iff_exists.mp (AList.lookup_isSome.mpr hin)) hb
      exact hL.unblocked r hk₀ hc₀ (by rw [hinit]; exact hne) (by simpa [Db.statusOf, heq] using hb)
    · rw [hst] at hb
      exact hne (Option.some.inj hb)
  · intro r' hk hcr he hb
    rcases hW.requests.created_origin h hk hcr with ⟨r, hk₀, hc₀, _, _⟩ | ⟨hfresh, ⟨env, ha⟩, _, r, item, rest, hk₀, hpc, _⟩
    · have hin := Option.isSome_iff_exists.mp
        (AList.lookup_isSome.mpr (hW.requests.created k r j hk₀ hc₀))
      rcases he.of_snoc h with hold | ⟨d, hno, hyes, ho⟩
      · have heq := blocked_before h hin hb
        have hb₀ : s.db.statusOf j = some .blocked := by simpa [Db.statusOf, heq] using hb
        -- an edge in time keeps the job awaiting as long as it is blocked
        exact awaits_step hW.inserts hacc h hin hb (hL.awaited r hk₀ hc₀ hold hb₀)
      · exact ⟨d, hyes, hnew d hno hyes ho⟩
    · -- a job that did not exist has no edge
      exfalso
      rcases he.of_snoc h with hold | ⟨d, hno, hyes, _⟩
      · obtain ⟨d, hd⟩ := hL.edge hold
        exact hfresh (hW.requests.edges j d hd).1
      · rcases edge_origin h hyes with hold | ⟨⟨l, env', q, todo, rest', ha', hl, hat⟩, _, _⟩
        · exact hno hold
        · exact hfresh (hW.requests.created l q j hl (hW.requests.attach l q j d todo rest' hl hat).1)
  · intro r' hk hcr hinit' hno
    have hno₀ : ¬ EdgeInTime cfg tr j := fun he => hno (he.snoc _)
    have hnoNew : ∀ d, (j, d) ∉ s.db.jobDependencies → (j, d) ∈ s'.db.jobDependencies →
        ¬ s.Owes d :=
      fun d hd hd' ho => hno ⟨s, a, s', d, List.mem_append_right _ List.mem_cons_self, h, hd, hd', ho⟩
    -- no edge was in time, so none is to a prerequisite that still owes
    have hantitone : ∀ {d}, s'.Owes d → s.Owes d :=
      fun {d} ho => (hW.steady d).owes_antitone hW.pending (hnr d) h ho
    rcases hW.requests.created_origin h hk hcr with ⟨r, hk₀, hc₀, _, hinit⟩ | ⟨hfresh, _, hst, _⟩
    · obtain ⟨hb, hnw⟩ := hL.stuck r hk₀ hc₀ (hinit.trans hinit') hno₀
      refine ⟨stays_blocked hW.pending (hW.steady j).toActivations (hnr j) hc h hb hnw, ?_⟩
      rintro ⟨d, hd, ho⟩
      by_cases hold : (j, d) ∈ s.db.jobDependencies
      · exact hnw ⟨d, hold, hantitone ho⟩
      · exact hnoNew d hold hd (hantitone ho)
    · refine ⟨by rw [hst, hinit'], ?_⟩
      rintro ⟨d, hd, ho⟩
      by_cases hold : (j, d) ∈ s.db.jobDependencies
      · exact hfresh (hW.requests.edges j d hold).1
      · exact hnoNew d hold hd (hantitone ho)

/-- The account of the releases in every run. -/
theorem released_run {cfg : Config} {clock : Timestamp} {db : Db} {s : Sys}
    {tr : List (Sys × Action)}
    (hedges : ∀ i d, (i, d) ∈ db.jobDependencies → i ∈ db.jobs ∧ d ∈ db.jobs)
    (hrun : SysRun cfg (Sys.atRest clock db) tr s) (hU : Undisturbed cfg tr) (k : Nat) (j : UUID) :
    Workflow s ∧ Released cfg k j tr s := by
  induction hrun with
  | nil =>
      refine ⟨workflow_atRest clock db hedges, ?_, ?_, ?_, ?_⟩
      · rintro ⟨t, a, t', d, hmem, _⟩
        cases hmem
      all_goals intro q h; simp at h
  | @snoc tr s s' a _ hs ih =>
      obtain ⟨hW, hL⟩ := ih hU.init
      have hlast : (s, a) ∈ tr ++ [(s, a)] := List.mem_append_right _ List.mem_cons_self
      exact ⟨workflow_step hW (hU.manual _ hlast) (hU.rejected _ hlast) hs,
        released_step hW hL (hU.rejected _ hlast) (hU.cancels _ hlast) hs⟩

/-- **A release is lost exactly when every edge came too late.**  In every
undisturbed run, for every job `j` that request `k` created (in particular once
the request has answered 201): when all listed prerequisites are completed and
their `executeJob` calls have returned, `j` is not blocked if and only if the
prerequisites were completed at the request's check, or some edge of `j` was
recorded while its prerequisite still owed its unblock statement. -/
theorem released_iff {cfg : Config} {clock : Timestamp} {db : Db} {s : Sys}
    {tr : List (Sys × Action)} {k : Nat} {r : Submit} {j : UUID}
    (hedges : ∀ i d, (i, d) ∈ db.jobDependencies → i ∈ db.jobs ∧ d ∈ db.jobs)
    (hrun : SysRun cfg (Sys.atRest clock db) tr s) (hU : Undisturbed cfg tr)
    (hk : s.proc k = some (.submit r)) (hj : r.Created j)
    (hcomp : ∀ d ∈ r.body.dependsOn, s.db.statusOf d = some .completed)
    (hret : ∀ l e, s.proc l = some (.exec e) → e.jobId ∈ r.body.dependsOn → e.pc = .returned) :
    s.db.statusOf j ≠ some .blocked ↔ r.initialStatus ≠ .blocked ∨ EdgeInTime cfg tr j := by
  obtain ⟨hW, hL⟩ := released_run hedges hrun hU k j
  -- all prerequisites are completed and their calls have returned: nothing is owed
  have hnone : ¬ s.Awaits j := by
    rintro ⟨d, hd, ho⟩
    have hlist := hW.requests.listed k r j d hk hj hd
    rcases ho with hne | ⟨l, e, hl, rfl, hb⟩
    · exact hne (hcomp d hlist)
    · rw [hret l e hl hlist] at hb
      cases hb
  constructor
  · intro hne
    by_contra hno
    obtain ⟨hinit, hedge⟩ := not_or.mp hno
    exact hne (hL.stuck r hk hj (not_not.mp hinit) hedge).1
  · rintro (hinit | hedge) hb
    · exact hL.unblocked r hk hj hinit hb
    · exact hnone (hL.awaited r hk hj hedge hb)

/-- Request 1 reads that job 6 is running; then the run of 6 finishes, and only
then the request inserts job 8 and its edge. -/
def lateEdgeActions : List Action :=
  .start 0 (.claim 5 none none) :: Action.runs 0 { now := 0, pick := some 6, fresh := 100 } 11
    ++ .start 1 (.submit 1 1 (CreateJobInput.small [6])) :: Action.runs 1 { now := 0, fresh := 8 } 2
    ++ Action.runs 0 { now := 0, fresh := 100 } 8 ++ Action.runs 1 { now := 0, fresh := 8 } 4

/-- In that run no edge was in time. -/
theorem released_iff_lateEdge :
    ¬ EdgeInTime Config.small (trace (step Config.small)
      (Sys.atRest 0 (Db.small 2 [(6, Job.small .queued)])) lateEdgeActions) 8 := by
  have hrun := run_of_play (step Config.small)
    (Sys.atRest 0 (Db.small 2 [(6, Job.small .queued)])) lateEdgeActions (by rfl)
  intro he
  exact (released_iff (k := 1) (j := 8) (edges_small 2 _) hrun ⟨by decide, by decide, by decide⟩ rfl
    (by unfold Submit.Created; decide) (by decide)
    (fun _ _ hl _ => returned_of_settled (by decide) hl)).mpr (.inr he) (by decide)

/-- Request 1 has answered 201, the run of job 6 has returned, and job 8 is left
blocked. -/
theorem late_edge_lost_release :
    ∃ tr s r e, SysRun Config.small (Sys.atRest 0 (Db.small 2 [(6, Job.small .queued)])) tr s ∧
      Undisturbed Config.small tr ∧ s.clients.keys = [1, 0] ∧ s.proc 1 = some (.submit r) ∧
      r.pc = .replied (.success 201) ∧ r.Created 8 ∧ r.body.dependsOn = [6] ∧
      s.proc 0 = some (.exec e) ∧ e.pc = .returned ∧ s.db.statusOf 6 = some .completed ∧
      s.db.statusOf 8 = some .blocked := by
  refine ⟨_, _, _, _, run_of_play _ _ lateEdgeActions (by rfl),
    ⟨by decide, by decide, by decide⟩, rfl, rfl, rfl, ?_, rfl, rfl, rfl, rfl, rfl⟩
  unfold Submit.Created
  decide

end JobScheduler
