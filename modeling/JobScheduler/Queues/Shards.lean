/-
  JobScheduler.Queues.Shards
  ──────────────────────────
  `shard_key` is kept twice, in `queues` and in `jobs`.  Every INSERT INTO jobs
  copies the queue's key and no statement rewrites a job's, but PATCH
  /queues/:id rewrites the queue's.  The two agree for as long as no PATCH
  gives a new key to a queue that has jobs, or to one for which a submission
  has read the old key and has still to insert.
-/
import JobScheduler.Tenancy.Runs

namespace JobScheduler

open Relational Transition

/-! ## §1. The relation of migration 002, and the steps that break it. -/

/-- Every job carries the key of its queue. -/
def Db.ShardsAgree (db : Db) : Prop :=
  ∀ j row, db.jobs.lookup j = some row →
    ∃ q, db.queues.lookup row.queueId = some q ∧ q.shardKey = row.shardKey

/-- The UPDATE gives another key to a queue that has jobs. -/
def Patch.reshards (env : Env) (db : Db) (r : Patch) : Bool :=
  match r.pc with
  | .update =>
      !env.fails && db.canOperate r.queueId r.userId
        && (db.queues.lookup r.queueId).any (fun q =>
          r.updates.shardKey.any (fun key => decide (key ≠ q.shardKey)))
        && !db.jobs.all (fun _ j => decide (j.queueId ≠ r.queueId))
  | _ => false

/-- The INSERT copies a key that the queue no longer has. -/
def Submit.copiesStale (env : Env) (db : Db) (r : Submit) : Bool :=
  match r.pc with
  | .insertJob item _ =>
      !env.fails && db.idempotencyFree (r.row env.now item)
        && (db.queues.lookup r.queueId).any (fun q => decide (q.shardKey ≠ r.shardKey))
  | _ => false

/-- The client's next statement gives a queue a new shard, or a job the shard its queue had
before. -/
def Proc.splitsShard (env : Env) (db : Db) : Proc → Bool
  | .patch r => r.reshards env db
  | .submit r => r.copiesStale env db
  | _ => false

/-- The action runs a statement that can part a job's shard from its queue's. -/
def ServiceAction.splitsShard (v : Service) : ServiceAction → Bool
  | .act (.run pid env) => (v.sys.proc pid).any (fun p => p.splitsShard env v.sys.db)
  | _ => false

/-! ## §2. What a statement does to either copy. -/

/-- No statement rewrites the key of a job. -/
theorem JobChange.sameShard {ctx : Ctx} {env : Env} {db : Db} {j : UUID} {p : Proc} {old : Job}
    {new : Option Job} (h : JobChange ctx env db j p (some old) new) :
    ∃ row, new = some row ∧ row.queueId = old.queueId ∧ row.shardKey = old.shardKey := by
  cases h <;> exact ⟨_, rfl, rfl, rfl⟩

section
variable {cfg : Config} {ctx : Ctx} {env : Env} {db db' : Db}

/-- A PATCH updates its queue, or leaves the tables `queues` and `jobs` alone. -/
theorem Patch.step_queues {r r' : Patch} (h : r.step cfg ctx env db = some (db', r')) :
    (db'.queues = db.queues ∧ r.reshards env db = false) ∨
      (r.pc = .update ∧ env.fails = false ∧ db.canOperate r.queueId r.userId = true ∧
        db' = db.updateQueue r.queueId r.updates.apply) := by
  cases hpc : r.pc <;> simp only [Patch.step, hpc] at h
  case update =>
    split at h
    · rename_i hempty
      cases h
      left
      have hnone : r.updates.shardKey = none := by
        simp only [UpdateQueueInput.isEmpty, Bool.and_eq_true, Option.isNone_iff_eq_none] at hempty
        exact hempty.2
      refine ⟨rfl, ?_⟩
      cases hq : db.queues.lookup r.queueId <;> simp [Patch.reshards, hpc, hnone, hq]
    · split at h
      · rename_i hf
        cases h
        exact .inl ⟨rfl, by simp [Patch.reshards, hpc, hf]⟩
      · rename_i hf
        split at h
        · rename_i hnone
          cases h
          exact .inl ⟨rfl, by simp [Patch.reshards, hpc, hnone]⟩
        · split at h
          · rename_i hcan
            cases h
            have hcan' : db.canOperate r.queueId r.userId = false := by simpa using hcan
            exact .inl ⟨rfl, by simp [Patch.reshards, hpc, hcan']⟩
          · rename_i hcan
            split at h
            · cases h
              exact .inr ⟨rfl, eq_false_of_ne_true hf, by simpa using hcan, rfl⟩
            · cases h
  all_goals
    left
    refine ⟨?_, by simp [Patch.reshards, hpc]⟩
    first | cases h | (split at h <;> cases h <;> rfl)

/-- An UPDATE of one queue leaves the others. -/
theorem updateQueue_lookup (db : Db) (id q : UUID) (f : Queue → Queue) :
    (db.updateQueue id f).queues.lookup q = (db.queues.lookup q).map (fun row => if q = id then f row else row) := by
  simp [Db.updateQueue, Table.lookup_update]

/-- The key of a queue with jobs changes only in a resharding PATCH. -/
theorem Proc.step_shardKey {p p' : Proc} (h : p.step cfg ctx env db = some (db', p'))
    (hno : p.splitsShard env db = false) {j q : UUID} {job : Job} {row : Queue}
    (hjob : db.jobs.lookup j = some job) (hqueue : job.queueId = q)
    (hrow : db.queues.lookup q = some row) :
    ∃ row', db'.queues.lookup q = some row' ∧ row'.shardKey = row.shardKey := by
  rcases Proc.step_queue h q with heq | ⟨r, rfl, _⟩
  · exact ⟨row, heq.trans hrow, rfl⟩
  · cases Proc.stepped h with
    | patch _ r' hq =>
        rcases Patch.step_queues hq with ⟨heq, _⟩ | ⟨hpc, hf, hcan, rfl⟩
        · exact ⟨row, heq ▸ hrow, rfl⟩
        · rw [updateQueue_lookup, hrow]
          by_cases hid : q = r.queueId
          · refine ⟨r.updates.apply row, by simp [hid], ?_⟩
            have hbusy : db.jobs.all (fun _ i => decide (i.queueId ≠ r.queueId)) = false := by
              rw [Bool.eq_false_iff]
              intro hall
              exact of_decide_eq_true ((Table.all_iff _ _).mp hall j job hjob) (hqueue.trans hid)
            rw [hid] at hrow
            simp only [Proc.splitsShard, Patch.reshards, hpc, hf, hcan, hrow, hbusy, Option.any_some,
              Bool.not_false, Bool.true_and, Bool.and_true] at hno
            cases hkey : r.updates.shardKey with
            | none => simp [UpdateQueueInput.apply, hkey]
            | some key => simpa [UpdateQueueInput.apply, hkey] using hno
          · exact ⟨row, by simp [hid], rfl⟩

/-- An INSERT copies the key of the queue, unless a submission has read it too early. -/
theorem Proc.inserted_shardKey {p p' : Proc} (h : p.step cfg ctx env db = some (db', p'))
    (href : env.fails = false → p.referencesHold db = true) (hno : p.splitsShard env db = false)
    {j : UUID} {row : Job} (hold : db.jobs.lookup j = none) (hnew : db'.jobs.lookup j = some row) :
    ∃ q, db'.queues.lookup row.queueId = some q ∧ q.shardKey = row.shardKey := by
  have hch := Proc.step_jobs (j := j) h
  rw [hold, hnew] at hch
  generalize hrow : some row = new at hch
  generalize hnone : (none : Option Job) = old at hch
  cases hch with
  | same => rw [← hrow] at hnone; cases hnone
  | submitted r item rest hpc hj =>
      cases hrow
      cases Proc.stepped h with
      | submit _ r' hq =>
          simp only [Submit.step, hpc] at hq
          split at hq
          · cases hq; rw [hold] at hnew; cases hnew
          · rename_i hf
            split at hq
            · cases hq; rw [hold] at hnew; cases hnew
            · rename_i hfree
              split at hq <;> cases hq
              have href := href (eq_false_of_ne_true hf)
              simp only [Proc.referencesHold, hpc, Bool.and_eq_true, decide_eq_true_eq] at href
              obtain ⟨q, hlook⟩ := Option.isSome_iff_exists.mp (AList.lookup_isSome.mpr href.1)
              rw [Bool.not_eq_true', Bool.not_eq_false] at hfree
              have hkey : q.shardKey = r.shardKey := by
                simpa [Proc.splitsShard, Submit.copiesStale, hpc, hf, hfree, hlook] using hno
              exact ⟨q, hlook, hkey⟩
  | recreated r queueId payload q hpc hj =>
      cases hrow
      cases Proc.stepped h with
      | replay _ r' hq =>
          simp only [Replay.step, hpc] at hq
          (repeat' split at hq) <;> cases hq
          · rw [hold] at hnew; cases hnew
          · rw [hold] at hnew; cases hnew
          · rename_i q' hlook
            rw [insertJob_lookup, if_pos hj.symm] at hnew
            exact ⟨q', hlook, congrArg Job.shardKey (Option.some.inj hnew)⟩
  | dispatched t id sj rest q hpc hj =>
      cases hrow
      cases Proc.stepped h with
      | tick _ t' hq =>
          obtain ⟨_, ⟨_, rfl, _⟩ | ⟨_, rfl, _⟩⟩ := Tick.step_cases hq
          · rw [hold] at hnew; cases hnew
          · simp only [Tick.effect, hpc] at hnew ⊢
            cases hlook : db.queues.lookup sj.queueId with
            | none => simp only [hlook] at hnew; rw [hold] at hnew; cases hnew
            | some q' =>
                simp only [hlook] at hnew ⊢
                rw [insertJob_lookup, if_pos hj.symm] at hnew
                exact ⟨q', hlook, congrArg Job.shardKey (Option.some.inj hnew)⟩
  | claimed | running | completed | released | requeued | deadLettered | retried | replayed
  | cancelled | flipped => cases hnone

/-! ## §3. One statement. -/

/-- A statement that splits no shard keeps the agreement. -/
theorem Db.ShardsAgree.proc_step {p p' : Proc} (hA : db.ShardsAgree)
    (h : p.step cfg ctx env db = some (db', p'))
    (href : env.fails = false → p.referencesHold db = true) (hno : p.splitsShard env db = false) :
    db'.ShardsAgree := by
  intro j row hrow
  cases hold : db.jobs.lookup j with
  | none => exact Proc.inserted_shardKey h href hno hold hrow
  | some old =>
      have hch := Proc.step_jobs (j := j) h
      rw [hold, hrow] at hch
      obtain ⟨_, hnew, hqueue, hshard⟩ := hch.sameShard
      obtain rfl := Option.some.inj hnew
      obtain ⟨q, hq, hkey⟩ := hA j old hold
      obtain ⟨q', hq', hkey'⟩ := Proc.step_shardKey h hno hold hqueue.symm (hqueue ▸ hq)
      exact ⟨q', hq', hkey'.trans (hkey.trans hshard.symm)⟩

/-- A PATCH that gives a new key to a queue with jobs leaves them behind. -/
theorem Patch.reshards_splits {r r' : Patch} (hA : db.ShardsAgree)
    (h : r.step cfg ctx env db = some (db', r')) (hs : r.reshards env db = true) :
    ¬ db'.ShardsAgree := by
  rcases Patch.step_queues h with ⟨_, hno⟩ | ⟨hpc, _, _, rfl⟩
  · rw [hs] at hno; cases hno
  · simp only [Patch.reshards, hpc, Bool.and_eq_true, Option.any_eq_true, decide_eq_true_eq,
      Bool.not_eq_true', Bool.eq_false_iff, ne_eq, Table.all_iff, not_forall] at hs
    obtain ⟨⟨_, q, hq, key, hkey, hne⟩, j, job, hjob, hqueue⟩ := hs
    rw [not_not] at hqueue
    intro hA'
    obtain ⟨q₀, hq₀, hkey₀⟩ := hA j job hjob
    obtain ⟨q', hq', hkey'⟩ := hA' j job hjob
    rw [hqueue, hq] at hq₀
    cases hq₀
    rw [updateQueue_lookup, hqueue, hq, Option.map_some, if_pos rfl] at hq'
    cases hq'
    apply hne
    simpa [UpdateQueueInput.apply, hkey, hkey₀] using hkey'

/-- A submission that has read the key too early inserts a job with the old one. -/
theorem Submit.copiesStale_splits {r r' : Submit} (h : r.step cfg env db = some (db', r'))
    (hs : r.copiesStale env db = true) : ¬ db'.ShardsAgree := by
  cases hpc : r.pc with
  | insertJob item rest =>
      simp only [Submit.copiesStale, hpc, Bool.and_eq_true, Bool.not_eq_true', Option.any_eq_true,
        decide_eq_true_eq] at hs
      obtain ⟨⟨hf, hfree⟩, q, hq, hne⟩ := hs
      simp only [Submit.step, hpc, hf, hfree, Bool.not_true, Bool.false_eq_true, if_false] at h
      split at h <;> cases h
      intro hA'
      obtain ⟨q', hq', hkey⟩ := hA' env.fresh _ (by rw [insertJob_lookup, if_pos rfl])
      rw [show (db.insertJob env.fresh _).queues = db.queues from rfl] at hq'
      exact hne (by rw [← Option.some.inj (hq'.symm.trans hq)]; exact hkey)
  | _ => simp [Submit.copiesStale, hpc] at hs

/-- From an agreement, one statement loses it exactly when it splits a shard. -/
theorem Proc.shardsAgree_iff {p p' : Proc} (hA : db.ShardsAgree)
    (h : p.step cfg ctx env db = some (db', p'))
    (href : env.fails = false → p.referencesHold db = true) :
    db'.ShardsAgree ↔ p.splitsShard env db = false := by
  constructor
  · intro hA'
    rw [Bool.eq_false_iff]
    intro hs
    cases Proc.stepped h with
    | patch r r' hq => exact Patch.reshards_splits hA hq hs hA'
    | submit r r' hq => exact Submit.copiesStale_splits hq hs hA'
    | _ => cases hs
  · exact hA.proc_step h href

end

/-! ## §4. Account requests. -/

/-- A new queue has no jobs to disagree with. -/
theorem Db.ShardsAgree.insertQueue {db : Db} {id : UUID} (hA : db.ShardsAgree)
    (hfresh : id ∉ db.queues) (row : Queue) : (db.insertQueue id row).ShardsAgree := by
  intro j job hjob
  obtain ⟨q, hq, hkey⟩ := hA j job hjob
  refine ⟨q, ?_, hkey⟩
  have hne : job.queueId ≠ id := by
    rintro rfl
    rw [AList.lookup_eq_none.mpr hfresh] at hq
    cases hq
  rw [← hq]
  exact AList.lookup_insert_ne hne

/-- The jobs that a deletion leaves keep their keys. -/
theorem withoutProject_shardKey {db : Db} {projectId j : UUID} {row' : Job}
    (h : (db.withoutProject projectId).jobs.lookup j = some row') :
    ∃ row, db.jobs.lookup j = some row ∧ row'.shardKey = row.shardKey := by
  simp only [Db.withoutProject, Table.lookup_update] at h
  obtain ⟨row, hrow, rfl⟩ := Option.map_eq_some_iff.mp h
  refine ⟨row, (Table.lookup_delete_eq_some.mp hrow).1, ?_⟩
  split <;> rfl

/-- A deletion removes queues together with their jobs. -/
theorem Db.ShardsAgree.withoutProject {db : Db} (hA : db.ShardsAgree) (projectId : UUID) :
    (db.withoutProject projectId).ShardsAgree := by
  intro j row' hrow'
  obtain ⟨row, hrow, hkeep, hqueue, _⟩ := withoutProject_row hrow'
  obtain ⟨_, hsame, hshard⟩ := withoutProject_shardKey hrow'
  rw [hrow] at hsame
  obtain rfl := Option.some.inj hsame
  obtain ⟨q, hq, hkey⟩ := hA j row hrow
  exact ⟨q, hqueue ▸ withoutProject_queue_stays hq hkeep, hkey.trans hshard.symm⟩

/-- **No account request separates a job from the key of its queue.** -/
theorem AccountCall.Written.shardsAgree {ctx : Ctx} {env : Env} {st st' : Store} {a : AccountCall}
    (h : AccountCall.Written ctx env st a st') (hA : st.db.ShardsAgree) : st'.db.ShardsAgree := by
  cases h with
  | nothing | event | organization | member | project => exact hA
  | owner _ _ _ d hdb => rcases hdb with rfl | rfl <;> exact hA
  | firstQueue _ _ _ _ _ hfresh | queue _ _ _ hfresh => exact hA.insertQueue hfresh _
  | deleted r => exact hA.withoutProject r.projectId

/-! ## §5. Runs of the service. -/

theorem shardsAgree_step {cfg : Config} {v v' : Service} {o : ServiceAction}
    (hA : v.sys.db.ShardsAgree) (h : v.step cfg o = some v') :
    v'.sys.db.ShardsAgree ↔ o.splitsShard v = false := by
  cases Service.stepped h with
  | requested pid r hfree => exact iff_of_true hA rfl
  | served pid env a a' st' ha hfresh hs => exact iff_of_true ((AccountCall.step_written hs).shardsAgree hA) rfl
  | acted a s' hadm hs =>
      cases hst : JobScheduler.stepped hs with
      | wait ms => exact iff_of_true hA rfl
      | start pid request hfree => exact iff_of_true hA rfl
      | run pid env p p' db' hp hnow hstep =>
          have hrun := Proc.shardsAgree_iff hA hstep (Service.admits_run hadm hp).2
          simpa [ServiceAction.splitsShard, hp] using hrun

/-- **Every job carries the key of its queue in every state of a run if and only
if no step separates the two.** -/
theorem shards_agree_iff {cfg : Config} {clock : Timestamp} {db : Db} {directory : Directory}
    {tr : List (Service × ServiceAction)} {v : Service}
    (h : ServiceRun cfg (Service.atRest clock db directory) tr v) (h₀ : db.ShardsAgree) :
    ((∀ p ∈ tr, p.1.sys.db.ShardsAgree) ∧ v.sys.db.ShardsAgree) ↔
      ∀ p ∈ tr, p.2.splitsShard p.1 = false := by
  induction h with
  | nil => exact iff_of_true ⟨List.forall_mem_nil _, h₀⟩ (List.forall_mem_nil _)
  | @snoc tr u w o _ hs ih =>
      simp only [List.forall_mem_append, List.forall_mem_singleton]
      constructor
      · rintro ⟨⟨hbefore, hu⟩, hw⟩
        exact ⟨ih.mp ⟨hbefore, hu⟩, (shardsAgree_step hu hs).mp hw⟩
      · rintro ⟨hbefore, ho⟩
        obtain ⟨hstates, hu⟩ := ih.mpr hbefore
        exact ⟨⟨hstates, hu⟩, (shardsAgree_step hu hs).mpr ho⟩

/-- User 1 submits job 8 to queue 1. -/
def shardActions : List ServiceAction :=
  .act (.start 0 (.submit 1 1 (CreateJobInput.small []))) ::
    (Action.runs 0 { now := 0, fresh := 8 } 3).map .act

theorem Db.small_shardsAgree (limit : Nat) : (Db.small limit []).ShardsAgree := by
  intro j row hrow
  cases hrow

/-- The submission separates nothing: the new job has the key of its queue. -/
theorem shards_agree_iff_submitted :
    let v₀ := Service.atRest 0 (Db.small 1 []) Directory.small
    let tr := trace (Service.step Config.small) v₀ shardActions
    let v := play (Service.step Config.small) v₀ shardActions
    8 ∈ v.sys.db.jobs ∧ (∀ p ∈ tr, p.1.sys.db.ShardsAgree) ∧ v.sys.db.ShardsAgree := by
  intro v₀ tr v
  have hrun := run_of_play (Service.step Config.small) v₀ shardActions (by rfl)
  exact ⟨by decide, (shards_agree_iff hrun (Db.small_shardsAgree 1)).mpr (by decide)⟩

/-- Then a PATCH moves the queue to the shard `eu`. -/
def reshardActions : List ServiceAction :=
  shardActions ++ [.act (.start 1 (.patch 1 1 { shardKey := some "eu" })), .act (.run 1 { now := 0 })]

/-- Job 8 keeps the key that queue 1 has no more. -/
theorem patch_leaves_jobs_behind :
    ¬ (∀ (cfg : Config) (clock : Timestamp) (db : Db) (directory : Directory)
        (tr : List (Service × ServiceAction)) (v : Service),
        ServiceRun cfg (Service.atRest clock db directory) tr v → db.ShardsAgree →
        v.sys.db.ShardsAgree) := by
  intro hclaim
  obtain ⟨q, hq, hkey⟩ := hclaim Config.small 0 (Db.small 1 []) Directory.small _ _
    (run_of_play (Service.step Config.small) _ reshardActions (by rfl)) (Db.small_shardsAgree 1)
    8 _ rfl
  have heu : q.shardKey = "eu" := by
    cases hq
    rfl
  rw [heu] at hkey
  exact absurd hkey (by decide)

end JobScheduler
