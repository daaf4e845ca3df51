/-
  JobScheduler.Submission.Idempotency
  ───────────────────────────────────
  Duplicate submissions.  The partial unique index `idx_jobs_idempotency` stands on
  `jobs` alone: it admits one row for a key and a queue, for ever, since no statement
  rewrites a key.  Requests of the types that insert one job carry their key into
  that row; a recurring or batch request drops it.
-/
import JobScheduler.Submission.Atomicity

namespace JobScheduler

open Relational Transition

/-! ## §1. The requests at issue. -/

/-- The request is for the queue and its body carries the key at top level. -/
def Submit.Carries (r : Submit) (queueId : UUID) (key : String) : Prop :=
  r.queueId = queueId ∧ r.body.idempotencyKey = some key

/-- The types that insert one job, with the key of the body. -/
def JobType.single : JobType → Bool
  | .immediate | .delayed | .scheduled => true
  | _ => false

/-- The action turns the request `k` away before its INSERT, for another reason than
the index: its user may not use the queue, a prerequisite is not there, or the
statement fails. -/
def Action.turnsAway (s : Sys) (k : Nat) : Action → Bool
  | .run pid env => decide (pid = k) && (match s.proc pid with
      | some (.submit r) => (match r.pc with
          | .checkQueue => env.fails || !s.db.canOperate r.queueId r.userId
          | .checkDependencies => env.fails && !r.body.dependsOn.isEmpty
              || (dependenciesAreSatisfied s.db r.queueId r.userId r.body.dependsOnTexts).isNone
          | .insertJob _ _ => env.fails
          | _ => false)
      | _ => false)
  | _ => false

/-! ## §2. One statement. -/

/-- No statement rewrites a key. -/
theorem JobChange.sameKey {ctx : Ctx} {env : Env} {db : Db} {j : UUID} {p : Proc} {old : Job}
    {new : Option Job} (h : JobChange ctx env db j p (some old) new) :
    ∃ row, new = some row ∧ row.queueId = old.queueId ∧ row.idempotencyKey = old.idempotencyKey := by
  cases h <;> exact ⟨_, rfl, rfl, rfl⟩

/-- The queue has a job with the key. -/
def Db.Taken (db : Db) (queueId : UUID) (key : String) : Prop :=
  ∃ j row, db.jobs.lookup j = some row ∧ row.queueId = queueId ∧ row.idempotencyKey = some key

/-- A key that is taken stays taken. -/
theorem taken_stays {cfg : Config} {s s' : Sys} {a : Action} {queueId : UUID} {key : String}
    (h : step cfg s a = some s') (ht : s.db.Taken queueId key) : s'.db.Taken queueId key := by
  obtain ⟨j, old, hold, hq, hkey⟩ := ht
  rcases step_row h j with heq | ⟨_, _, _, _, _, _, hch⟩
  · exact ⟨j, old, heq.trans hold, hq, hkey⟩
  · rw [hold] at hch
    obtain ⟨row, hrow, hq', hkey'⟩ := hch.sameKey
    exact ⟨j, row, hrow, hq'.trans hq, hkey'.trans hkey⟩

/-- The index rejects a second row. -/
theorem not_idempotencyFree {db : Db} {queueId : UUID} {key : String} {row : Job}
    (ht : db.Taken queueId key) (hq : row.queueId = queueId) (hkey : row.idempotencyKey = some key) :
    db.idempotencyFree row = false := by
  obtain ⟨j, old, hold, hq', hkey'⟩ := ht
  rw [Bool.eq_false_iff]
  intro hfree
  simp only [Db.idempotencyFree, hkey, Table.all_iff] at hfree
  have := hfree j old hold
  simp [hq, hq', hkey'] at this

section
variable {cfg : Config} {env : Env} {db db' : Db} {r r' : Submit} {queueId : UUID} {key : String}

theorem keyOrNull_some (hkey : key ≠ "") : keyOrNull (some key) = some key := by
  simp [keyOrNull, Option.filter_some, hkey]

/-- A body that is neither batch nor recurring has one item. -/
theorem CreateJobInput.items_single {body : CreateJobInput} (ht : body.type.single = true)
    (B : Option UUID) : ∃ runAt, body.items B = [body.item runAt] := by
  cases hty : body.type <;> simp only [hty, JobType.single, Bool.false_eq_true] at ht <;>
    exact ⟨_, by simp only [CreateJobInput.items, hty]; rfl⟩

/-- The only row of a single submission carries the key of the body. -/
theorem Submit.Shape.single_item {item : JobItem} {rest : List JobItem} (hS : r.Shape)
    (ht : r.body.type.single = true) (hpc : r.pc = .insertJob item rest) :
    r.created = [] ∧ item.idempotencyKey = keyOrNull r.body.idempotencyKey := by
  obtain ⟨done, hitems, hrows⟩ := hS.items (by rw [hpc]; rfl)
  obtain ⟨runAt, hone⟩ := CreateJobInput.items_single ht (r.batch.map Prod.fst)
  rw [hone, Submit.todo, hpc] at hitems
  cases done with
  | nil =>
      obtain ⟨rfl, _⟩ := List.cons.inj hitems
      exact ⟨List.forall₂_nil_left_iff.mp hrows, rfl⟩
  | cons d ds => simp at hitems

/-- After its INSERT a single submission has a job. -/
theorem Submit.Shape.single_recorded (hS : r.Shape) (ht : r.body.type.single = true)
    (hpc : r.pc.recorded = true) : r.created ≠ [] := by
  obtain ⟨done, hitems, hrows⟩ := hS.items (SubmitPc.writing_of_recorded hpc)
  obtain ⟨runAt, hone⟩ := CreateJobInput.items_single ht (r.batch.map Prod.fst)
  rw [hone, Submit.todo_of_recorded hpc, List.append_nil] at hitems
  rintro hnil
  rw [hnil, ← hitems] at hrows
  cases hrows

/-- An INSERT that is carried out finds its key free. -/
theorem Submit.key_free {item : JobItem} {rest : List JobItem}
    (h : r.step cfg env db = some (db', r')) (hpc : r.pc = .insertJob item rest)
    (hc : r.created = []) (hc' : r'.created ≠ []) :
    db.idempotencyFree (r.row env.now item) = true := by
  simp only [Submit.step, hpc] at h
  repeat' split at h
  all_goals cases h
  · exact absurd hc hc'
  · exact absurd hc hc'
  · simpa using ‹¬(!db.idempotencyFree _) = true›

/-- A single submission that is answered without a job was turned away, or met the
index. -/
theorem Submit.step_turned {s : Sys} {k : Nat} {reply : Reply} (hk : s.proc k = some (.submit r))
    (hS : r.Shape) (hat : ∀ j d todo rest, r.pc = .attach j d todo rest → r.created ≠ [])
    (ht : r.body.type.single = true) (h : r.step cfg env s.db = some (db', r'))
    (hc : r'.created = []) (hpc' : r'.pc = .replied reply) :
    reply = .failure conflict ∨ (Action.run k env).turnsAway s k = true := by
  cases hpc : r.pc <;> simp only [Submit.step, hpc] at h <;>
    simp only [Action.turnsAway, hk, hpc, decide_true, Bool.true_and]
  case checkQueue =>
    repeat' split at h
    all_goals cases h
    · exact .inr (by simp [*])
    · cases hpc'
    · exact .inr (by simp [*])
  case checkDependencies =>
    repeat' split at h
    all_goals cases h
    · exact .inr (by simp_all)
    · exact .inr (by simp [*])
    · -- `switch (type)` goes on to the INSERT
      exfalso
      revert hpc'
      unfold dispatch
      cases hty : r.body.type <;> simp [hty, JobType.single] at ht <;> simp [goto]
  case insertJob item rest =>
    repeat' split at h
    all_goals cases h
    · exact .inr ‹_›
    · cases hpc'
      exact .inl rfl
    · simp [goto] at hc
  case insertBatch => simp [hS.typed hpc, JobType.single] at ht
  case insertSchedule => simp [hS.recurring hpc, JobType.single] at ht
  case attach j d todo rest =>
    have hne := hat j d todo rest hpc
    repeat' split at h
    all_goals cases h; exact absurd hc hne
  case publish ev =>
    have hne := hS.single_recorded ht (by rw [hpc]; rfl)
    repeat' split at h
    all_goals cases h; exact absurd hc hne
  case notify ev =>
    have hne := hS.single_recorded ht (by rw [hpc]; rfl)
    repeat' split at h
    all_goals cases h; exact absurd hc hne
  case replied => cases h

end

/-! ## §3. Along runs. -/

/-- The single submissions with the key. -/
structure Guarded (queueId : UUID) (key : String) (tr : List (Sys × Action)) (s : Sys) : Prop where
  /-- A job that one of them has inserted keeps the key taken. -/
  taken : ∀ k r, s.proc k = some (.submit r) → r.Carries queueId key → r.body.type.single = true →
    r.created ≠ [] → s.db.Taken queueId key
  /-- At most one of them has inserted a job. -/
  unique : ∀ k l r q, s.proc k = some (.submit r) → s.proc l = some (.submit q) →
    r.Carries queueId key → q.Carries queueId key → r.body.type.single = true →
    q.body.type.single = true → r.created ≠ [] → q.created ≠ [] → k = l
  bare : ∀ k r, s.proc k = some (.submit r) → r.body.type.single = true → r.batch = none
  answered : ∀ k r reply, s.proc k = some (.submit r) → r.body.type.single = true →
    r.created = [] → r.pc = .replied reply →
    reply = .failure Submit.conflict ∨ ∃ p ∈ tr, p.2.turnsAway p.1 k = true

section
variable {cfg : Config} {s s' : Sys} {a : Action} {tr : List (Sys × Action)} {queueId : UUID}
  {key : String} {k : Nat} {r' : Submit}

/-- A single submission that has inserted a job had done so before the step, or has
found the key free. -/
theorem single_origin (hkey : key ≠ "") (hS : ∀ k r, s.proc k = some (.submit r) → r.Shape)
    (h : step cfg s a = some s') (hk : s'.proc k = some (.submit r'))
    (hc : r'.Carries queueId key) (ht : r'.body.type.single = true) (hne : r'.created ≠ []) :
    (∃ r, s.proc k = some (.submit r) ∧ r.Carries queueId key ∧ r.body.type.single = true ∧
      r.created ≠ []) ∨
    ((∃ env, a = .run k env) ∧ ¬ s.db.Taken queueId key ∧ s'.db.Taken queueId key) := by
  cases origin h hk with
  | idle hk₀ _ => exact .inl ⟨r', hk₀, hc, ht, hne⟩
  | started request _ hp _ => cases request <;> cases hp; exact absurd rfl hne
  | moved env p ha hk₀ hs =>
      obtain ⟨r, rfl, hstep⟩ := submit_of_step hs
      have hst := Submit.stepped hstep
      have hfreeKey : ∀ item rest, r.pc = .insertJob item rest → r.created = [] →
          s.db.idempotencyFree (r.row env.now item) = true :=
        fun _ _ hpc hnil => Submit.key_free hstep hpc hnil hne
      generalize s'.db = db' at hst
      cases hst with
      | dependenciesChecked hpc satisfied _ =>
          obtain ⟨pc, heq, _⟩ := Submit.dispatch_eq cfg env.now
            { r with initialStatus := initialJobStatus r.body.type satisfied }
          rw [heq] at hc ht hne
          exact .inl ⟨r, hk₀, hc, ht, hne⟩
      | batchInserted _ _ q hq => subst hq; exact .inl ⟨r, hk₀, hc, ht, hne⟩
      | jobInserted item rest hpc hfresh q hq =>
          subst hq
          obtain ⟨hq, hbody⟩ := hc
          -- the row to be inserted carries the key of the body
          obtain ⟨hnil, hitem⟩ := (hS k r hk₀).single_item ht hpc
          have hrow : (r.row env.now item).idempotencyKey = some key := by
            show item.idempotencyKey = some key
            rw [hitem, show r.body.idempotencyKey = some key from hbody, keyOrNull_some hkey]
          refine .inr ⟨⟨env, ha⟩, fun htaken => ?_, ?_⟩
          · -- the index would have rejected the INSERT
            have hbusy := not_idempotencyFree htaken (show (r.row env.now item).queueId = queueId from hq) hrow
            rw [hfreeKey item rest hpc hnil] at hbusy
            cases hbusy
          · exact ⟨env.fresh, _, by rw [insertJob_lookup, if_pos rfl], hq, hrow⟩
      | _ => exact .inl ⟨r, hk₀, hc, ht, hne⟩

/-- A single submission writes no batch. -/
theorem bare_step (hS : ∀ k r, s.proc k = some (.submit r) → r.Shape) {r : Submit} {env : Env}
    {db' : Db} (hk : s.proc k = some (.submit r)) (hb : r.body.type.single = true → r.batch = none)
    (hs : Submit.Stepped cfg env r s.db db' r') (ht : r'.body.type.single = true) :
    r'.batch = none ∧ r.body.type.single = true := by
  cases hs with
  | dependenciesChecked hpc satisfied _ =>
      obtain ⟨pc, heq, _⟩ := Submit.dispatch_eq cfg env.now
        { r with initialStatus := initialJobStatus r.body.type satisfied }
      rw [heq] at ht ⊢
      exact ⟨hb ht, ht⟩
  | batchInserted hpc _ q hq =>
      subst hq
      have hbatch : r.body.type = .batch := (hS k r hk).typed hpc
      simp [Submit.goto, hbatch, JobType.single] at ht
  | jobInserted _ _ _ _ q hq => subst hq; exact ⟨hb ht, ht⟩
  | _ => exact ⟨hb ht, ht⟩

/-- One step lets at most one job in under the key. -/
theorem guarded_step (hkey : key ≠ "") (hR : Requests s)
    (hS : ∀ k r, s.proc k = some (.submit r) → r.Shape) (hG : Guarded queueId key tr s)
    (h : step cfg s a = some s') : Guarded queueId key (tr ++ [(s, a)]) s' where
  taken := by
    intro k r' hk hc ht hne
    rcases single_origin hkey hS h hk hc ht hne with ⟨r, hk₀, hc₀, ht₀, hne₀⟩ | ⟨_, _, htaken⟩
    · exact taken_stays h (hG.taken k r hk₀ hc₀ ht₀ hne₀)
    · exact htaken
  unique := by
    intro k l r' q' hk hl hcr hcq htr htq hnr hnq
    rcases single_origin hkey hS h hk hcr htr hnr with ⟨r, hk₀, hr⟩ | ⟨⟨env, ha⟩, hfree, _⟩ <;>
      rcases single_origin hkey hS h hl hcq htq hnq with ⟨q, hl₀, hq⟩ | ⟨⟨env', ha'⟩, hfree', _⟩
    · exact hG.unique k l r q hk₀ hl₀ hr.1 hq.1 hr.2.1 hq.2.1 hr.2.2 hq.2.2
    -- one of them had its job before, and the other finds the key free
    · exact absurd (hG.taken k r hk₀ hr.1 hr.2.1 hr.2.2) hfree'
    · exact absurd (hG.taken l q hl₀ hq.1 hq.2.1 hq.2.2) hfree
    -- both are the client that moves
    · rw [ha] at ha'
      cases ha'
      rfl
  bare := by
    intro k r' hk ht
    cases submit_origin h hk with
    | idle hk₀ _ => exact hG.bare k r' hk₀ ht
    | started _ hb _ _ => exact hb
    | stepped env r _ hk₀ hs => exact (bare_step hS hk₀ (hG.bare k r hk₀) hs ht).1
  answered := by
    intro k r' reply hk ht hc hpc
    cases origin h hk with
    | idle hk₀ _ =>
        exact (hG.answered k r' reply hk₀ ht hc hpc).imp_right
          (fun ⟨p, hp, hf⟩ => ⟨p, List.mem_append_left _ hp, hf⟩)
    | started request _ hp _ => cases request <;> cases hp; cases hpc
    | moved env p ha hk₀ hs =>
        obtain ⟨r, rfl, hstep⟩ := submit_of_step hs
        have ht₀ := (bare_step hS hk₀ (hG.bare k r hk₀) (Submit.stepped hstep) ht).2
        refine (Submit.step_turned hk₀ (hS k r hk₀) (fun j d todo rest hat hnil => ?_) ht₀ hstep hc
          hpc).imp_right (fun hf => ⟨(s, a), List.mem_append_right _ List.mem_cons_self, ha ▸ hf⟩)
        -- edges are attached to a job that the request has created
        have hcreated := (hR.attach k r j d todo rest hk₀ hat).1
        simp [Submit.Created, hnil] at hcreated

end

/-- At most one job under the key in every run. -/
theorem guarded_run {cfg : Config} {clock : Timestamp} {db : Db} {s : Sys}
    {tr : List (Sys × Action)} {queueId : UUID} {key : String} (hkey : key ≠ "")
    (hedges : ∀ j d, (j, d) ∈ db.jobDependencies → j ∈ db.jobs ∧ d ∈ db.jobs)
    (hfk : ∀ j B, db.InBatch B j → B ∈ db.batches)
    (hrun : SysRun cfg (Sys.atRest clock db) tr s) :
    Submissions cfg tr s ∧ Guarded queueId key tr s := by
  induction hrun with
  | nil =>
      refine ⟨submissions_run hedges hfk .nil, ?_, ?_, ?_, ?_⟩
      -- there is no request yet
      · intro k r hk; simp at hk
      · intro k l r q hk; simp at hk
      · intro k r hk; simp at hk
      · intro k r reply hk; simp at hk
  | snoc _ hs ih =>
      obtain ⟨hU, hG⟩ := ih
      exact ⟨submissions_step hU hs,
        guarded_step hkey hU.requests (fun k r hk => (hU.filed k r hk).1) hG hs⟩

/-- A single submission without a job has added nothing. -/
theorem not_added_of_single {cfg : Config} {s : Sys} {tr : List (Sys × Action)} {queueId : UUID}
    {key : String} {k : Nat} {r : Submit} (hU : Submissions cfg tr s)
    (hG : Guarded queueId key tr s) (hk : s.proc k = some (.submit r))
    (ht : r.body.type.single = true) (hc : r.created = []) (row : TableRow) :
    ¬ Added cfg tr k row := by
  obtain ⟨_, hF, hL, _⟩ := hU.filed k r hk
  cases row with
  | job id row => simp [hF.jobs, hc]
  | batch B b => simp [hF.batch, hG.bare k r hk ht]
  | dependency j d => simp [hF.dependencies, Submit.Created, hc]
  | schedule id sj =>
      exact hL.unscheduled (.inl (by rintro hrec; simp [hrec, JobType.single] at ht)) id sj

/-- **Submissions with one key take effect once.**  In every run of the whole system,
for every queue and every non-empty key: when all requests for the queue that carry
the key at top level are immediate, delayed or scheduled, at most one of them adds a
row; and each other one that has been answered, and was not turned away before its
INSERT for another reason, was answered 409 and has added nothing. -/
theorem submission_idempotent {cfg : Config} {clock : Timestamp} {db : Db} {s : Sys}
    {tr : List (Sys × Action)} {queueId : UUID} {key : String} (hkey : key ≠ "")
    (hedges : ∀ j d, (j, d) ∈ db.jobDependencies → j ∈ db.jobs ∧ d ∈ db.jobs)
    (hfk : ∀ j B, db.InBatch B j → B ∈ db.batches)
    (hrun : SysRun cfg (Sys.atRest clock db) tr s)
    (hsingle : ∀ k r, s.proc k = some (.submit r) → r.Carries queueId key →
      r.body.type.single = true) :
    (∀ k l r q row row', s.proc k = some (.submit r) → s.proc l = some (.submit q) →
      r.Carries queueId key → q.Carries queueId key → Added cfg tr k row → Added cfg tr l row' →
      k = l) ∧
    ∀ k r reply, s.proc k = some (.submit r) → r.Carries queueId key → r.pc = .replied reply →
      (∀ p ∈ tr, p.2.turnsAway p.1 k = false) →
      (∃ row, Added cfg tr k row) ∨
        (reply = .failure Submit.conflict ∧ ∀ row, ¬ Added cfg tr k row) := by
  obtain ⟨hU, hG⟩ : Submissions cfg tr s ∧ Guarded queueId key tr s := guarded_run hkey hedges hfk hrun
  refine ⟨?_, ?_⟩
  · intro k l r q row row' hk hl hcr hcq hadd hadd'
    refine hG.unique k l r q hk hl hcr hcq (hsingle k r hk hcr) (hsingle l q hl hcq) ?_ ?_
    · exact fun hnil => not_added_of_single hU hG hk (hsingle k r hk hcr) hnil row hadd
    · exact fun hnil => not_added_of_single hU hG hl (hsingle l q hl hcq) hnil row' hadd'
  · intro k r reply hk hc hpc hturn
    by_cases hnil : r.created = []
    · refine .inr ⟨?_, not_added_of_single hU hG hk (hsingle k r hk hc) hnil⟩
      refine (hG.answered k r reply hk (hsingle k r hk hc) hnil hpc).resolve_right ?_
      rintro ⟨p, hp, hf⟩
      rw [hturn p hp] at hf
      cases hf
    · obtain ⟨⟨id, row⟩, rest, hcons⟩ := List.exists_cons_of_ne_nil hnil
      exact .inl ⟨_, ((hU.filed k r hk).2.1.jobs id row).mpr (by rw [hcons]; exact List.mem_cons_self)⟩

/-! ## §4. The same key twice. -/

/-- The client is no submission of a type that drops the key. -/
def Proc.keepsKey : Proc → Bool
  | .submit r => r.body.type.single
  | _ => true

/-- Two requests for an immediate job, one after the other. -/
def submitTwiceActions : List Action :=
  .start 0 (.submit 1 1 { CreateJobInput.small [] with idempotencyKey := some "a" })
    :: Action.runs 0 { now := 0, fresh := 7 } 5
    ++ .start 1 (.submit 1 1 { CreateJobInput.small [] with idempotencyKey := some "a" })
      :: Action.runs 1 { now := 0, fresh := 8 } 3

/-- The second job with the key is refused. -/
theorem submission_idempotent_twice :
    ∃ tr s r, SysRun Config.small (Sys.atRest 0 (Db.small 1 [])) tr s ∧
      s.proc 1 = some (.submit r) ∧ r.pc = .replied (.failure Submit.conflict) ∧
      ∀ row, ¬ Added Config.small tr 1 row := by
  have hrun := run_of_play (step Config.small) (Sys.atRest 0 (Db.small 1 []))
    submitTwiceActions (by rfl)
  obtain ⟨hone, hrest⟩ := @submission_idempotent _ _ _ _ _ 1 "a" (by decide)
    (edges_small 1 []) (noBatch_small 1) hrun
    (fun k r hk _ => (Sys.clients_all_iff _ Proc.keepsKey).mp (by decide) k _ hk)
  have hfirst := ((submissions_run (edges_small 1 []) (noBatch_small 1) hrun).filed 0 _ rfl).2.1
  refine ⟨_, _, _, hrun, rfl, rfl, ?_⟩
  rcases hrest 1 _ _ rfl ⟨rfl, rfl⟩ rfl (by decide) with ⟨row, hadd⟩ | ⟨_, hno⟩
  -- the first request has added its job
  · cases hone 0 1 _ _ _ row rfl rfl ⟨rfl, rfl⟩ ⟨rfl, rfl⟩ ((hfirst.jobs _ _).mpr List.mem_cons_self) hadd
  · exact hno

/-- Two requests for a batch, one after the other. -/
def batchTwiceActions : List Action :=
  .start 0 (.submit 1 1 { CreateJobInput.smallBatch 1 Nat.one_pos with idempotencyKey := some "a" })
    :: Action.runs 0 { now := 0, fresh := 9 } 3
    ++ [.run 0 { now := 0, fresh := 7 }, .run 0 { now := 0, fresh := 8 }]
    ++ Action.runs 0 { now := 0 } 2
    ++ .start 1 (.submit 1 1 { CreateJobInput.smallBatch 1 Nat.one_pos with idempotencyKey := some "a" })
      :: Action.runs 1 { now := 0, fresh := 19 } 3
    ++ [.run 1 { now := 0, fresh := 17 }, .run 1 { now := 0, fresh := 18 }]
    ++ Action.runs 1 { now := 0 } 2

/-- Both are answered 201, and each adds its batch. -/
theorem batch_submitted_twice :
    ∃ tr s r q b c, SysRun Config.small (Sys.atRest 0 (Db.small 1 [])) tr s ∧
      s.proc 0 = some (.submit r) ∧ s.proc 1 = some (.submit q) ∧ r.Carries 1 "a" ∧ q.Carries 1 "a" ∧
      r.pc = .replied (.success 201) ∧ q.pc = .replied (.success 201) ∧
      Added Config.small tr 0 (.batch 9 b) ∧ Added Config.small tr 1 (.batch 19 c) := by
  have hrun := run_of_play (step Config.small) (Sys.atRest 0 (Db.small 1 [])) batchTwiceActions (by rfl)
  have hU := submissions_run (edges_small 1 []) (noBatch_small 1) hrun
  exact ⟨_, _, _, _, _, _, hrun, rfl, rfl, ⟨rfl, rfl⟩, ⟨rfl, rfl⟩, rfl, rfl,
    ((hU.filed 0 _ rfl).2.1.batch 9 _).mpr rfl, ((hU.filed 1 _ rfl).2.1.batch 19 _).mpr rfl⟩

end JobScheduler
