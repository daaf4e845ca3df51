/-
  JobScheduler.Execution.Lifecycle
  ────────────────────────────────
  One job seen from outside.  Whatever claims, activations, ticks, submissions,
  cancellations and replays do statement by statement, the row of a job lives a
  life of `Library.Lifecycle`: every statement is one event of that life or none
  at all.  What holds of every such life holds of every job.
-/
import JobScheduler.DeadLetter.Revival
import JobScheduler.Execution.Attempts
import JobScheduler.Library.Lifecycle

namespace JobScheduler

open Relational Transition

/-! ## §1. The life of a row, and the events of the statements. -/

/-- A batch cancellation is the only statement that writes `failed`. -/
def JobStatus.phase : JobStatus → Lifecycle.Phase
  | .blocked => .blocked
  | .scheduled => .waiting
  | .queued => .ready
  | .claimed => .taken
  | .running => .running
  | .completed => .succeeded
  | .deadLetter => .dead
  | .failed => .cancelled

/-- What the abstract lifecycle keeps of a row. -/
def Job.life (row : Job) : Lifecycle.Life Timestamp :=
  ⟨row.status.phase, row.attempts, row.maxAttempts, row.runAt⟩

/-- The life of a job of the database, if it has a row. -/
def Db.life (db : Db) (j : UUID) : Option (Lifecycle.Life Timestamp) := (db.jobs.lookup j).map Job.life

/-- What the client's next statement, when it is carried out, is for job `j`. -/
def Proc.lifeEvent (env : Env) (db : Db) (j : UUID) : Proc → Option (Lifecycle.Event Timestamp)
  | .claim c => (match c.pc with
      | .committing (some (i, _)) => if i = j then some (.take c.now) else none
      | _ => none)
  | .exec e => (match e.pc with
      | .setRunning => if e.jobId = j then some .start else none
      | .setCompleted _ => if e.jobId = j then some .succeed else none
      | .requeue delay _ _ => if e.jobId = j then some (.retry (env.now + delay)) else none
      | .deadLetter _ => if e.jobId = j then some .die else none
      | .unblock =>
          if (db.jobs.lookup j).any (db.releasable e.jobId j) then some (.release env.now) else none
      | _ => none)
  | .submit r => (match r.pc with
      | .insertJob item _ =>
          if env.fresh = j ∧ db.idempotencyFree (r.row env.now item) = true then
            some (.create r.initialStatus.phase item.maxAttempts (item.runAt.eval env.now))
          else none
      | _ => none)
  | .replay r => (match r.pc with
      | .insert queueId _ =>
          if env.fresh = j ∧ (db.queues.lookup queueId).isSome = true then
            some (.create .ready 3 env.now)
          else none
      | _ => none)
  | .cancel r => (match r.pc with
      | .updateJobs _ =>
          if (db.jobs.lookup j).any (Cancel.cancels r.batchId j) then some .cancel else none
      | _ => none)
  | .tick t => (match t.pc with
      | .flip => if (db.jobs.lookup j).any (Tick.flips env.now j) then some (.due env.now) else none
      | .insertJob _ sj _ =>
          if env.fresh = j then
            (db.queues.lookup sj.queueId).map (fun q =>
              .create .ready (Tick.recurringRow env.now sj q).maxAttempts env.now)
          else none
      | _ => none)
  | .retry _ | .patch _ => none

/-- The event of job `j`'s life that the action is. -/
def Action.lifeEvent (s : Sys) (j : UUID) : Action → Option (Lifecycle.Event Timestamp)
  | .run pid env => if env.fails then none else (s.proc pid).bind (Proc.lifeEvent env s.db j)
  | _ => none

/-- The life of job `j` in a run. -/
def lifeOf (j : UUID) (tr : List (Sys × Action)) :
    List (Option (Lifecycle.Life Timestamp) × Lifecycle.Event Timestamp) :=
  project (fun s => some (s.db.life j)) (fun s a => a.lifeEvent s j) tr

/-- The event, or the absence of one, leads from one state of the life to the next. -/
def Follows (ev : Option (Lifecycle.Event Timestamp)) (x x' : Option (Lifecycle.Life Timestamp)) :
    Prop :=
  (ev = none ∧ x' = x) ∨ ∃ e, ev = some e ∧ Lifecycle.step x e = some x'

theorem follows_none (x : Option (Lifecycle.Life Timestamp)) : Follows none x x := .inl ⟨rfl, rfl⟩

/-- The life depends on the job's own row only. -/
theorem life_of_lookup {db db' : Db} {j : UUID} (h : db'.jobs.lookup j = db.jobs.lookup j) :
    db'.life j = db.life j := by
  unfold Db.life
  rw [h]

/-! ## §2. Claims come in time, and jobs may be attempted. -/

/-- The rows of a request that are still to be inserted. -/
def SubmitPc.items : SubmitPc → List JobItem
  | .insertJob item rest => item :: rest
  | .attach _ _ _ rest => rest
  | _ => []

/-- What the clients have checked. -/
structure Checked (s : Sys) : Prop where
  begun : ∀ k c, s.proc k = some (.claim c) → c.now ≤ s.clock
  due : ∀ k c j row, s.proc k = some (.claim c) → c.pc = .committing (some (j, row)) → row.runAt ≤ c.now
  items : ∀ k r, s.proc k = some (.submit r) → ∀ item ∈ r.pc.items, 1 ≤ item.maxAttempts

theorem checked_atRest (clock : Timestamp) (db : Db) : Checked (Sys.atRest clock db) where
  begun k c h := by simp at h
  due k c j row h := by simp at h
  items k r h := by simp at h

/-- `now()` is fixed for the whole transaction. -/
theorem Claim.step_now {ctx : Ctx} {env : Env} {c c' : Claim} {db db' : Db}
    (h : c.step ctx env db = some (db', c')) : c'.now = c.now := by
  cases stepped h with
  | rolledBack | took | nothing | committed => rfl
  | selected =>
      obtain ⟨pc, he, _⟩ := c.enterLocking_entered (c.lockOrder db)
      rw [he]
  | locked id rest =>
      obtain ⟨pc, he, _⟩ := (c.lockRow db id).enterLocking_entered rest
      rw [he]
      unfold lockRow
      split
      · rfl
      · split <;> rfl
  | counted q rest =>
      obtain ⟨pc, he, _⟩ := (c.countRow db q).enterCounting_entered rest
      rw [he]
      unfold countRow
      split <;> rfl

theorem Submit.nextItem_items (r : Submit) (rest : List JobItem) : (r.nextItem rest).items = rest := by
  cases rest <;> rfl

theorem Submit.nextEdge_items (r : Submit) (jobId : UUID) (todo : List UUID) (rest : List JobItem) :
    (r.nextEdge jobId todo rest).items = rest := by
  cases todo with
  | nil => exact r.nextItem_items rest
  | cons => rfl

/-- `createJobSchema` bounds `max_attempts` from below, in the body and in every
element of `batch_jobs`. -/
theorem Submit.step_items {cfg : Config} {env : Env} {r r' : Submit} {db db' : Db}
    (h : r.step cfg env db = some (db', r')) (hr : ∀ item ∈ r.pc.items, 1 ≤ item.maxAttempts) :
    ∀ item ∈ r'.pc.items, 1 ≤ item.maxAttempts := by
  cases stepped h with
  | failed | queueChecked | scheduleInserted | published | replied => simp [fail, goto, SubmitPc.items]
  | dependenciesChecked _ satisfied _ =>
      obtain ⟨pc, he, hd⟩ := dispatch_eq cfg env.now
        { r with initialStatus := initialJobStatus r.body.type satisfied }
      rw [he]
      cases hd with
      | job runAt =>
          intro item hitem
          obtain rfl := List.mem_singleton.mp hitem
          exact r.body.maxAttempts_pos
      | batch | schedule | failed => simp [goto, SubmitPc.items]
  | batchInserted _ _ r₁ hr₁ =>
      subst hr₁
      intro item hitem
      rw [goto, nextItem_items] at hitem
      obtain ⟨b, hb, rfl⟩ := List.mem_map.mp hitem
      unfold CreateJobInput.batchItem
      dsimp only
      split
      · exact r.body.maxAttempts_pos
      · exact r.body.batch_maxAttempts_pos b hb
  | jobInserted item rest hpc _ r₁ hr₁ =>
      subst hr₁
      rw [goto, nextEdge_items]
      exact fun x hx => hr x (by rw [hpc]; exact List.mem_cons_of_mem _ hx)
  | attached jobId d todo rest hpc _ =>
      rw [goto, nextEdge_items]
      exact fun x hx => hr x (by rw [hpc]; exact hx)

/-- One step keeps the times and items of the open calls in order. -/
theorem checked_step {cfg : Config} {s s' : Sys} {a : Action} (hC : Checked s)
    (h : step cfg s a = some s') : Checked s' where
  begun k c' hk := by
    cases origin h hk with
    | idle hk₀ _ => exact (hC.begun k c' hk₀).trans (clock_mono h)
    | started request _ hp _ =>
        cases request <;> cases hp
        exact clock_mono h
    | moved env p _ hk₀ hs =>
        obtain ⟨c, rfl, hc⟩ := claim_of_step hs
        exact ((Claim.step_now hc).le.trans (hC.begun k c hk₀)).trans (clock_mono h)
  due k c' j row hk hpc := by
    cases origin h hk with
    | idle hk₀ _ => exact hC.due k c' j row hk₀ hpc
    | started request _ hp _ =>
        cases request <;> cases hp
        cases hpc
    | moved env p _ hk₀ hs =>
        obtain ⟨c, _, _, rfl, old, _, hcand, rfl⟩ := claim_committing_of_step hs hpc
        exact (Claim.candidate_iff.mp hcand).2.2.1
  items k r' hk := by
    cases origin h hk with
    | idle hk₀ _ => exact hC.items k r' hk₀
    | started request _ hp _ =>
        cases request <;> cases hp
        simp [SubmitPc.items]
    | moved env p _ hk₀ hs =>
        obtain ⟨r, rfl, hr⟩ := submit_of_step hs
        exact Submit.step_items hr (hC.items k r hk₀)

/-! ## §3. One statement is one event. -/

section
variable {cfg : Config} {ctx : Ctx} {env : Env} {db db' : Db} {j : UUID}

/-- `UPDATE jobs ... WHERE id = $1`. -/
theorem follows_updateJob {id : UUID} {f : Job → Job} {ev : Lifecycle.Event Timestamp}
    (h : id = j → ∃ old, db.jobs.lookup j = some old ∧
      Lifecycle.step (some old.life) ev = some (some (f old).life)) :
    Follows (if id = j then some ev else none) (db.life j) ((db.updateJob id f).life j) := by
  by_cases hj : id = j
  · obtain ⟨old, hold, hs⟩ := h hj
    subst hj
    rw [if_pos rfl]
    refine .inr ⟨ev, rfl, ?_⟩
    rw [Db.life, Db.life, updateJob_lookup_self f hold, hold]
    exact hs
  · rw [if_neg hj]
    exact .inl ⟨rfl, life_of_lookup (updateJob_lookup_ne db f (fun h => hj h.symm))⟩

/-- `UPDATE jobs ... WHERE w`. -/
theorem follows_updateJobsWhere {w : UUID → Job → Bool} {f : Job → Job}
    {ev : Lifecycle.Event Timestamp}
    (h : ∀ old, w j old = true → Lifecycle.step (some old.life) ev = some (some (f old).life)) :
    Follows (if (db.jobs.lookup j).any (w j) then some ev else none) (db.life j)
      ((db.updateJobsWhere w f).life j) := by
  unfold Db.life
  rw [updateJobsWhere_lookup]
  cases hold : db.jobs.lookup j with
  | none => exact follows_none _
  | some old =>
      cases hw : w j old with
      | false => simpa [hw] using follows_none (some old.life)
      | true => exact .inr ⟨ev, by simp [hw], by simpa [hw] using h old hw⟩

/-- `INSERT INTO jobs`. -/
theorem follows_insertJob {id : UUID} {row : Job} (hfresh : id ∉ db.jobs) (ha : row.attempts = 0)
    (hp : row.status.phase.pending = true) (hb : 1 ≤ row.maxAttempts) :
    Follows (if id = j then some (.create row.status.phase row.maxAttempts row.runAt) else none)
      (db.life j) ((db.insertJob id row).life j) := by
  by_cases hj : id = j
  · subst hj
    rw [if_pos rfl]
    refine .inr ⟨_, rfl, ?_⟩
    rw [Db.life, Db.life, insertJob_lookup, if_pos rfl, AList.lookup_eq_none.mpr hfresh]
    have hlife : row.life = ⟨row.status.phase, 0, row.maxAttempts, row.runAt⟩ := by rw [Job.life, ha]
    exact Lifecycle.step_iff.mpr (hlife ▸ .created _ _ _ hp hb)
  · rw [if_neg hj]
    refine .inl ⟨rfl, life_of_lookup ?_⟩
    rw [insertJob_lookup, if_neg (fun h => hj h.symm)]

/-- The COMMIT of a claim. -/
theorem Claim.step_life {c c' : Claim} (h : c.step ctx env db = some (db', c')) (hf : env.fails = false)
    (hq : ∀ i row, c.pc = .committing (some (i, row)) →
      ∃ old, db.jobs.lookup i = some old ∧ old.status = .queued ∧ old.runAt ≤ c.now) :
    Follows ((Proc.claim c).lifeEvent env db j) (db.life j) (db'.life j) := by
  by_cases hpc : ∃ i row, c.pc = .committing (some (i, row))
  · obtain ⟨i, row, hpc⟩ := hpc
    simp only [step, hpc, hf, Bool.false_eq_true, if_false] at h
    cases h
    simp only [Proc.lifeEvent, hpc]
    refine follows_updateJob (fun hi => ?_)
    obtain ⟨old, hold, hst, hdue⟩ := hq i row hpc
    refine ⟨old, hi ▸ hold, Lifecycle.step_iff.mpr ?_⟩
    exact .taken old.life c.now (by rw [Job.life, hst]; rfl) hdue
  · have hdb : db' = db := by
      cases stepped h with
      | committed i row hcommit => exact absurd ⟨i, row, hcommit⟩ hpc
      | _ => rfl
    have hev : (Proc.claim c).lifeEvent env db j = none := by
      simp only [Proc.lifeEvent]
      split
      · rename_i i row hcommit
        exact absurd ⟨i, row, hcommit⟩ hpc
      · rfl
    rw [hev, hdb]
    exact follows_none _

/-- The release of a blocked job is an event of the lifecycle. -/
theorem Job.released_life (now : Timestamp) {old : Job} (h : old.status = .blocked) :
    Lifecycle.step (some old.life) (.release now) = some (some (old.released now).life) := by
  refine Lifecycle.step_iff.mpr ?_
  have hlife : (old.released now).life
      = { old.life with phase := if old.life.notBefore ≤ now then .ready else .waiting } := by
    unfold Job.released Job.life
    dsimp only
    split <;> rfl
  exact hlife ▸ .released old.life now (by rw [Job.life, h]; rfl)

/-- The INSERTs of a submission. -/
theorem Submit.step_life {r r' : Submit} (h : r.step cfg env db = some (db', r'))
    (hf : env.fails = false) (hst : r.initialStatus.pending = true)
    (hitems : ∀ item ∈ r.pc.items, 1 ≤ item.maxAttempts) :
    Follows ((Proc.submit r).lifeEvent env db j) (db.life j) (db'.life j) := by
  cases hpc : r.pc with
  | insertJob item rest =>
      simp only [step, hpc, hf, Bool.false_eq_true, if_false] at h
      simp only [Proc.lifeEvent, hpc]
      cases hfree : db.idempotencyFree (r.row env.now item) with
      | false =>
          simp only [hfree, Bool.not_false, if_true] at h
          cases h
          simpa using follows_none (db.life j)
      | true =>
          simp only [hfree, Bool.not_true, Bool.false_eq_true, if_false] at h
          split at h
          · cases h
          · rename_i hfresh
            cases h
            have hp : (r.row env.now item).status.phase.pending = true := by
              rw [row]
              cases hs : r.initialStatus <;>
                simp_all [JobStatus.pending, JobStatus.phase, Lifecycle.Phase.pending]
            have hins := follows_insertJob (j := j) hfresh rfl hp
              (hitems item (by rw [hpc]; exact List.mem_cons_self))
            simp only [and_true]
            exact hins
  | _ =>
      have hev : (Proc.submit r).lifeEvent env db j = none := by simp only [Proc.lifeEvent, hpc]
      rw [hev]
      refine .inl ⟨rfl, life_of_lookup ?_⟩
      cases stepped h with
      | jobInserted item rest hpc' => rw [hpc] at hpc'; cases hpc'
      | _ => rfl

/-- The UPDATE of a cancellation. -/
theorem Cancel.step_life {r r' : Cancel} (h : r.step cfg ctx env db = some (db', r'))
    (hf : env.fails = false) :
    Follows ((Proc.cancel r).lifeEvent env db j) (db.life j) (db'.life j) := by
  cases hpc : r.pc with
  | updateJobs batch =>
      simp only [step, hpc, hf, Bool.false_eq_true, if_false] at h
      split at h
      · cases h
        simp only [Proc.lifeEvent, hpc]
        refine follows_updateJobsWhere (fun old hw => Lifecycle.step_iff.mpr ?_)
        have hwait : old.status.pending = true := (Bool.and_eq_true_iff.mp hw).2
        have hp : old.life.phase.pending = true := by
          rw [Job.life]
          cases hs : old.status <;>
            simp_all [JobStatus.pending, JobStatus.phase, Lifecycle.Phase.pending]
        exact .cancelled old.life hp
      · cases h
  | _ =>
      have hev : (Proc.cancel r).lifeEvent env db j = none := by simp only [Proc.lifeEvent, hpc]
      rw [hev]
      refine .inl ⟨rfl, life_of_lookup ?_⟩
      cases stepped h with
      | jobsUpdated batch hpc' => rw [hpc] at hpc'; cases hpc'
      | _ => rfl

/-- The INSERT of a replay; its UPDATE is a reset. -/
theorem Replay.step_life {r r' : Replay} (h : r.step cfg ctx env db = some (db', r'))
    (hf : env.fails = false) (hr : (Proc.replay r).resets j = false) :
    Follows ((Proc.replay r).lifeEvent env db j) (db.life j) (db'.life j) := by
  cases hpc : r.pc with
  | insert queueId payload =>
      simp only [step, hpc, hf, Bool.false_eq_true, if_false] at h
      simp only [Proc.lifeEvent, hpc]
      split at h
      · cases h
      · rename_i hfresh
        cases hq : db.queues.lookup queueId with
        | none =>
            simp only [hq] at h
            cases h
            simpa using follows_none (db.life j)
        | some q =>
            simp only [hq] at h
            cases h
            have hmax : 1 ≤ (replayedRow env.now queueId payload q).maxAttempts := Nat.le_add_left 1 2
            have hins := follows_insertJob (j := j) hfresh rfl rfl hmax
            simp only [Option.isSome_some, and_true]
            exact hins
  | update i =>
      have hij : j ≠ i := by
        rintro rfl
        simp [Proc.resets, hpc] at hr
      have hev : (Proc.replay r).lifeEvent env db j = none := by simp only [Proc.lifeEvent, hpc]
      rw [hev]
      refine .inl ⟨rfl, life_of_lookup ?_⟩
      cases stepped h with
      | updated k hpc' =>
          rw [hpc] at hpc'
          cases hpc'
          exact updateJob_lookup_ne db _ hij
      | inserted _ _ hpc' => rw [hpc] at hpc'; cases hpc'
      | _ => rfl
  | _ =>
      have hev : (Proc.replay r).lifeEvent env db j = none := by simp only [Proc.lifeEvent, hpc]
      rw [hev]
      refine .inl ⟨rfl, life_of_lookup ?_⟩
      cases stepped h with
      | updated k hpc' => rw [hpc] at hpc'; cases hpc'
      | inserted _ _ hpc' => rw [hpc] at hpc'; cases hpc'
      | _ => rfl

/-- A retry that resets another job leaves the life alone. -/
theorem Retry.step_life {r r' : Retry} (h : r.step cfg ctx env db = some (db', r'))
    (hr : (Proc.retry r).resets j = false) : db'.life j = db.life j := by
  refine life_of_lookup ?_
  cases stepped h with
  | updated hpc =>
      have hj : j ≠ r.jobId := by
        rintro rfl
        simp [Proc.resets, hpc] at hr
      exact updateJob_lookup_ne db _ hj
  | _ => rfl

/-- The UPDATE and the INSERTs of a tick. -/
theorem Tick.step_life {t t' : Tick} (h : t.step cfg ctx env db = some (db', t'))
    (hf : env.fails = false) :
    Follows ((Proc.tick t).lifeEvent env db j) (db.life j) (db'.life j) := by
  obtain ⟨hready, hcase⟩ := Tick.step_cases h
  have hquiet : (∀ id sj rest, t.pc ≠ .insertJob id sj rest) → t.pc ≠ .flip →
      Follows ((Proc.tick t).lifeEvent env db j) (db.life j) (db'.life j) := by
    intro hins hflip
    have hev : (Proc.tick t).lifeEvent env db j = none := by
      cases hpc : t.pc with
      | flip => exact absurd hpc hflip
      | insertJob id sj rest => exact absurd hpc (hins id sj rest)
      | _ => simp only [Proc.lifeEvent, hpc]
    rw [hev]
    refine .inl ⟨rfl, life_of_lookup ?_⟩
    rcases hcase with ⟨_, rfl, _⟩ | ⟨_, rfl, _⟩
    · rfl
    · cases hpc : t.pc with
      | flip => exact absurd hpc hflip
      | insertJob id sj rest => exact absurd hpc (hins id sj rest)
      | _ => simp only [effect, hpc, Db.insertEvent, Db.updateSchedule, Db.setLocks]
  cases hpc : t.pc with
  | flip =>
      obtain ⟨_, rfl, _⟩ : _ ∧ db' = t.effect env db ∧ _ := by
        rcases hcase with ⟨hrej, _⟩ | hacc
        · simp [hf, overflows, hpc] at hrej
        · exact hacc
      simp only [Proc.lifeEvent, effect, hpc]
      refine follows_updateJobsWhere (fun old hw => Lifecycle.step_iff.mpr ?_)
      simp only [flips, Bool.and_eq_true, decide_eq_true_eq] at hw
      exact .due old.life env.now (by rw [Job.life, hw.1]; rfl) hw.2
  | insertJob id sj rest =>
      obtain ⟨_, rfl, _⟩ : _ ∧ db' = t.effect env db ∧ _ := by
        rcases hcase with ⟨hrej, _⟩ | hacc
        · simp [hf, overflows, hpc] at hrej
        · exact hacc
      have hfresh : env.fresh ∉ db.jobs := by simpa [ready, hpc] using hready
      simp only [Proc.lifeEvent, effect, hpc]
      cases hq : db.queues.lookup sj.queueId with
      | none => simpa using follows_none (db.life j)
      | some q =>
          have hmax : 1 ≤ (recurringRow env.now sj q).maxAttempts := by
            simp only [recurringRow]
            split <;> omega
          exact follows_insertJob hfresh rfl rfl hmax
  | _ => exact hquiet (by simp [hpc]) (by simp [hpc])

end

/-! ## §4. The activation lives by its row. -/

/-- A call that has failed finds its row running: a completed one has succeeded. -/
theorem running_of_caught {old : Job} {t : Invocations} (hallow : Stage.caught.allows old.status)
    (hagrees : old.Agrees t) (ht : t.succeeded = 0) : old.status = .running := by
  rcases hallow with hst | hst
  · exact hst
  · rw [Job.Agrees, hst] at hagrees
    exact absurd (ht.symm.trans hagrees.2.2.1) Nat.zero_ne_one

/-- The job, once it is there, may be attempted. -/
def Db.Attemptable (db : Db) (j : UUID) : Prop :=
  ∀ row, db.jobs.lookup j = some row → 1 ≤ row.maxAttempts

section
variable {cfg : Config} {s s' : Sys} {tr : List (Sys × Action)} {j : UUID}

/-- The UPDATEs of `executeJob`. -/
theorem Exec.effect_life {pid : Nat} {e : Exec} (env : Env) (hK : AttemptsKept j tr s)
    (hm : s.db.Attemptable j) (hk : s.proc pid = some (.exec e)) :
    Follows ((Proc.exec e).lifeEvent env s.db j) (s.db.life j) ((e.effect env s.db).life j) := by
  -- the row, its status and its account, while the call works on it
  have hrow : e.jobId = j → e.stage ≠ .ended → ∃ old, s.db.jobs.lookup j = some old ∧
      e.stage.allows old.status ∧ old.Agrees (invocations tr j) ∧ e.Agrees old (invocations tr j) := by
    intro hj hl
    obtain ⟨old, hold, hallow⟩ := hK.activations.row pid e hk hj hl
    have hT := hK.attempts.born old hold (hm old hold)
    exact ⟨old, hold, hallow, hT.agrees, hT.call pid e hk hj⟩
  have hquiet : (Proc.exec e).lifeEvent env s.db j = none → (e.effect env s.db).jobs = s.db.jobs →
      Follows ((Proc.exec e).lifeEvent env s.db j) (s.db.life j) ((e.effect env s.db).life j) := by
    intro hev hjobs
    rw [hev]
    exact .inl ⟨rfl, life_of_lookup (by rw [hjobs])⟩
  cases hpc : e.pc with
  | setRunning =>
      simp only [Proc.lifeEvent, effect, hpc]
      refine follows_updateJob (fun hj => ?_)
      obtain ⟨old, hold, hallow, hagrees, hcall⟩ := hrow hj (by simp [stage, hpc, ExecPc.stage])
      rw [stage, hpc] at hallow
      rw [Agrees, hpc] at hcall
      have hst : old.status = .claimed := hallow
      have hn : old.attempts = e.job.attempts := hcall
      obtain ⟨_, hlt⟩ := (Job.agrees_undecided (by rw [hst]; rfl)).mp hagrees
      refine ⟨old, hold, Lifecycle.step_iff.mpr ?_⟩
      have hlife := Lifecycle.Stepped.started old.life (by rw [Job.life, hst]; rfl) hlt
      simpa [Job.life, JobStatus.phase, attemptNumber, hn] using hlife
  | setCompleted result =>
      simp only [Proc.lifeEvent, effect, hpc]
      refine follows_updateJob (fun hj => ?_)
      obtain ⟨old, hold, hallow, _⟩ := hrow hj (by simp [stage, hpc, ExecPc.stage])
      rw [stage, hpc] at hallow
      have hst : old.status = .running := hallow
      exact ⟨old, hold, Lifecycle.step_iff.mpr (.succeeded old.life (by rw [Job.life, hst]; rfl))⟩
  | requeue delay n st =>
      simp only [Proc.lifeEvent, effect, hpc]
      refine follows_updateJob (fun hj => ?_)
      obtain ⟨old, hold, hallow, hagrees, hcall⟩ := hrow hj (by simp [stage, hpc, ExecPc.stage])
      rw [stage, hpc] at hallow
      rw [Agrees, hpc] at hcall
      obtain ⟨hn, ht, hlt⟩ := hcall
      have hst := running_of_caught hallow hagrees (by rw [ht])
      refine ⟨old, hold, Lifecycle.step_iff.mpr ?_⟩
      exact .retried old.life (env.now + delay) (by rw [Job.life, hst]; rfl)
        (by simp only [Job.life]; omega)
  | deadLetter error =>
      simp only [Proc.lifeEvent, effect, hpc]
      refine follows_updateJob (fun hj => ?_)
      obtain ⟨old, hold, hallow, hagrees, hcall⟩ := hrow hj (by simp [stage, hpc, ExecPc.stage])
      rw [stage, hpc] at hallow
      rw [Agrees, hpc] at hcall
      obtain ⟨hn, ht, hge⟩ := hcall
      have hst := running_of_caught hallow hagrees (by rw [ht])
      have hle := hagrees.le.1
      refine ⟨old, hold, Lifecycle.step_iff.mpr ?_⟩
      exact .died old.life (by rw [Job.life, hst]; rfl) (by simp only [Job.life]; omega)
  | unblock =>
      simp only [Proc.lifeEvent, effect, hpc]
      refine follows_updateJobsWhere (fun old hw => ?_)
      simp only [Db.releasable, Bool.and_eq_true, decide_eq_true_eq] at hw
      exact Job.released_life env.now hw.1.1
  | _ =>
      exact hquiet (by simp only [Proc.lifeEvent, hpc])
        (by simp only [effect, hpc, Db.setLocks, Db.insertEvent, Db.insertExecution, Db.insertJobLog,
          Db.updateExecution, Db.updateBatch, Db.insertDeadLetter])

/-- **One step of the system is one event of the life, or none.** -/
theorem life_step {a : Action} (hK : AttemptsKept j tr s) (hC : Checked s) (hm : s.db.Attemptable j)
    (hacc : a.rejected cfg s = false) (hres : a.resets s j = false) (h : step cfg s a = some s') :
    Follows (a.lifeEvent s j) (s.db.life j) (s'.db.life j) := by
  cases stepped h with
  | wait | start => exact follows_none _
  | run pid env p p' db' hp _ hstep =>
      rw [Sys.put_db]
      simp only [Action.lifeEvent, hp, Option.bind_some]
      cases hf : env.fails with
      | true =>
          rw [Proc.step_failed hstep hf]
          exact follows_none _
      | false =>
          have hpr : p.resets j = false := by simpa [Action.resets, hp] using hres
          cases Proc.stepped hstep with
          | claim c c' hq =>
              refine Claim.step_life hq hf (fun i row hpc => ?_)
              obtain ⟨old, hold, hst, hrow⟩ := hK.pending.queued pid c i row hp hpc
              have hdue := hC.due pid c i row hp hpc
              exact ⟨old, hold, hst, by rw [hrow] at hdue; exact hdue⟩
          | exec e e' hq =>
              obtain ⟨_, rfl, _⟩ := Exec.step_accepted hp hacc hq
              exact Exec.effect_life env hK hm hp
          | submit r r' hq => exact Submit.step_life hq hf (hK.inserts pid r hp) (hC.items pid r hp)
          | retry r r' hq => exact .inl ⟨rfl, Retry.step_life hq hpr⟩
          | replay r r' hq => exact Replay.step_life hq hf hpr
          | cancel r r' hq => exact Cancel.step_life hq hf
          | patch r r' hq => exact .inl ⟨rfl, life_of_lookup (by rw [Patch.step_jobs hq])⟩
          | tick t t' hq => exact Tick.step_life hq hf

/-- An event keeps the job attemptable. -/
theorem attemptable_step {a : Action} (hK : AttemptsKept j tr s) (hC : Checked s)
    (hm : s.db.Attemptable j) (hacc : a.rejected cfg s = false) (hres : a.resets s j = false)
    (h : step cfg s a = some s') : s'.db.Attemptable j := by
  intro row hrow
  have hlife : s'.db.life j = some row.life := by rw [Db.life, hrow]; rfl
  cases hold : s.db.jobs.lookup j with
  | some old =>
      obtain ⟨new, hnew, hdef⟩ := definition_stays h hold
      rw [hrow] at hnew
      cases hnew
      exact hdef.maxAttempts ▸ hm old hold
  | none =>
      have hnone : s.db.life j = none := by rw [Db.life, hold]; rfl
      rcases life_step hK hC hm hacc hres h with ⟨_, heq⟩ | ⟨ev, _, hs⟩
      · rw [hlife, hnone] at heq
        cases heq
      · rw [hlife, hnone] at hs
        generalize hl : row.life = l at hs
        cases Lifecycle.step_iff.mp hs with
        | created _ _ _ _ hb =>
            have hbudget : row.maxAttempts = _ := congrArg Lifecycle.Life.budget hl
            exact hbudget ▸ hb

theorem lifeOf_snoc (tr : List (Sys × Action)) (s : Sys) (a : Action) :
    lifeOf j (tr ++ [(s, a)])
      = lifeOf j tr ++ ((a.lifeEvent s j).map (fun ev => (s.db.life j, ev))).toList := by
  unfold lifeOf project
  cases hev : a.lifeEvent s j <;> simp [hev]

/-- The runs that the life follows: no statement of `executeJob` is rejected, and no
retry and no replay reopens the job. -/
structure Unrevived (cfg : Config) (j : UUID) (tr : List (Sys × Action)) : Prop where
  accepted : ∀ p ∈ tr, p.2.rejected cfg p.1 = false
  closed : ∀ p ∈ tr, p.2.reopens p.1 j = false

theorem Unrevived.left {tr₁ tr₂ : List (Sys × Action)} (h : Unrevived cfg j (tr₁ ++ tr₂)) :
    Unrevived cfg j tr₁ :=
  ⟨fun p hp => h.accepted p (List.mem_append_left _ hp),
    fun p hp => h.closed p (List.mem_append_left _ hp)⟩

/-- The rows of the job go through a run of the lifecycle. -/
theorem life_run {clock : Timestamp} {db : Db} (hdb : db.Unattempted j) (hm : db.Attemptable j)
    (h : SysRun cfg (Sys.atRest clock db) tr s) (hU : Unrevived cfg j tr) :
    Run Lifecycle.step (db.life j) (lifeOf j tr) (s.db.life j) ∧ Checked s ∧ s.db.Attemptable j := by
  induction h with
  | nil => exact ⟨.nil, checked_atRest clock db, hm⟩
  | @snoc tr s s' a hrun hs ih =>
      obtain ⟨hlife, hC, hma⟩ := ih hU.left
      have hK := attempts_run hdb hrun hU.left.accepted hU.left.closed
      have hlast : (s, a) ∈ tr ++ [(s, a)] := List.mem_append_right _ List.mem_cons_self
      have hacc := hU.accepted _ hlast
      have hres := not_resets_of_reopens (hU.closed _ hlast)
      refine ⟨?_, checked_step hC hs, attemptable_step hK hC hma hacc hres hs⟩
      rw [lifeOf_snoc]
      rcases life_step hK hC hma hacc hres hs with ⟨hev, heq⟩ | ⟨ev, hev, hstep⟩
      · rw [hev, heq]
        simpa using hlife
      · rw [hev]
        exact hlife.snoc hstep

/-- **The system refines the lifecycle.**  Seen from one job, every run is a run of the
lifecycle, from the job's first state to its last: any number of workers, activations,
ticks, submissions, cancellations and operator requests, interleaved statement by
statement, give the job no other life. -/
theorem lifecycle_refined {clock : Timestamp} {db : Db}
    (hrun : SysRun cfg (Sys.atRest clock db) tr s) (hdb : db.Unattempted j) (hm : db.Attemptable j)
    (hU : Unrevived cfg j tr) :
    Run Lifecycle.step (db.life j) (lifeOf j tr) (s.db.life j) :=
  (life_run hdb hm hrun hU).1

/-- Job 7 is claimed, fails, is claimed again, fails and dies. -/
theorem lifecycle_refined_twice :
    Run Lifecycle.step (Db.smallTwice.life 7)
      (lifeOf 7 (trace (step Config.small) (Sys.atRest 0 Db.smallTwice) failTwiceActions))
      ((play (step Config.small) (Sys.atRest 0 Db.smallTwice) failTwiceActions).db.life 7) :=
  lifecycle_refined
    (run_of_play (step Config.small) (Sys.atRest 0 Db.smallTwice) failTwiceActions (by rfl))
    Db.smallTwice_unattempted (by rintro row ⟨⟩; decide) ⟨by decide, by decide⟩

/-! ## §5. What follows for every job. -/

theorem lifeOf_append (tr₁ tr₂ : List (Sys × Action)) :
    lifeOf j (tr₁ ++ tr₂) = lifeOf j tr₁ ++ lifeOf j tr₂ := List.filterMap_append

theorem lifeOf_cons {a : Action} {ev : Lifecycle.Event Timestamp} (tr : List (Sys × Action))
    (h : a.lifeEvent s j = some ev) : lifeOf j ((s, a) :: tr) = (s.db.life j, ev) :: lifeOf j tr := by
  simp [lifeOf, project, h]

/-- An event of the life is the event of a recorded step. -/
theorem mem_lifeOf {x : Option (Lifecycle.Life Timestamp)} {ev : Lifecycle.Event Timestamp}
    (h : (x, ev) ∈ lifeOf j tr) : ∃ t a, (t, a) ∈ tr ∧ a.lifeEvent t j = some ev := by
  obtain ⟨⟨t, a⟩, hmem, heq⟩ := List.mem_filterMap.mp h
  obtain ⟨ev', hev, he⟩ := Option.map_eq_some_iff.mp heq
  cases he
  exact ⟨t, a, hmem, hev⟩

/-- A job is taken by the COMMIT of a claim. -/
theorem claim_of_take {a : Action} {now : Timestamp} (h : a.lifeEvent s j = some (.take now)) :
    ∃ k env c row, a = .run k env ∧ s.proc k = some (.claim c) ∧
      c.pc = .committing (some (j, row)) ∧ c.now = now := by
  cases a with
  | wait | start => cases h
  | run k env =>
      simp only [Action.lifeEvent] at h
      split at h
      · cases h
      obtain ⟨p, hp, hev⟩ := Option.bind_eq_some_iff.mp h
      cases p with
      | claim c =>
          simp only [Proc.lifeEvent] at hev
          split at hev
          · rename_i i row hpc
            split at hev
            · rename_i hij
              cases hev
              exact ⟨k, env, c, row, rfl, hp, hij ▸ hpc, rfl⟩
            · cases hev
          · cases hev
      | tick t =>
          simp only [Proc.lifeEvent] at hev
          (repeat' split at hev) <;> try cases hev
          obtain ⟨q, _, hq⟩ := Option.map_eq_some_iff.mp hev
          cases hq
      | _ =>
          simp only [Proc.lifeEvent] at hev
          (repeat' split at hev) <;> cases hev

theorem clock_run {s₀ : Sys} (h : SysRun cfg s₀ tr s) : s₀.clock ≤ s.clock := by
  induction h with
  | nil => exact le_refl _
  | snoc _ hs ih => exact ih.trans (clock_mono hs)

/-- The pace and the end of a job's attempts in the steps `tr`. -/
structure Paced (j : UUID) (tr : List (Sys × Action)) (s : Sys) : Prop where
  /-- An attempt that follows a retry starts at the time of that retry or later. -/
  spaced : ∀ tr₁ t a tr₂ u b tr₃ time, tr = tr₁ ++ (t, a) :: (tr₂ ++ (u, b) :: tr₃) →
    a.lifeEvent t j = some (.retry time) → b.lifeEvent u j = some .start →
    (∀ p ∈ tr₂, ∀ time', p.2.lifeEvent p.1 j ≠ some (.retry time')) → time ≤ u.clock
  /-- A job that is completed, dead or cancelled stays so. -/
  final : ∀ tr₁ t a tr₂ row, tr = tr₁ ++ (t, a) :: tr₂ → t.db.jobs.lookup j = some row →
    row.status.phase.final = true → s.db.life j = some row.life

/-- **Attempts keep their distance and end for good.** -/
theorem attempts_paced {clock : Timestamp} {db : Db} (hrun : SysRun cfg (Sys.atRest clock db) tr s)
    (hdb : db.Unattempted j) (hm : db.Attemptable j) (hU : Unrevived cfg j tr) : Paced j tr s where
  spaced := by
    rintro tr₁ t a tr₂ u b tr₃ time rfl ha hb hno
    have hlife := (life_run hdb hm hrun hU).1
    rw [lifeOf_append, lifeOf_cons _ ha, lifeOf_append, lifeOf_cons _ hb] at hlife
    have hlate : ∀ p ∈ lifeOf j tr₂, p.2.postpones = false := by
      rintro ⟨x, ev⟩ hp
      obtain ⟨v, c, hmem, hev⟩ := mem_lifeOf hp
      cases ev with
      | retry time' => exact absurd hev (hno (v, c) hmem time')
      | _ => rfl
    obtain ⟨w, now, hmem, hle⟩ := Lifecycle.spaced hlife hlate
    obtain ⟨v, c, hv, hev⟩ := mem_lifeOf hmem
    obtain ⟨l, env, d, row, _, hl, _, hnow⟩ := claim_of_take hev
    -- the claim began before the attempt started
    obtain ⟨t', hpre, hs, hrest⟩ := hrun.split_cons
    obtain ⟨u', hmid, _, _⟩ := hrest.split_cons
    obtain ⟨tr₄, tr₅, rfl⟩ := List.append_of_mem hv
    obtain ⟨v', hmid₁, hs', hmid₂⟩ := hmid.split_cons
    have hrun₁ := (hpre.snoc hs).append hmid₁
    have hbegun : d.now ≤ v.clock := (hrun₁.invariant (I := Checked) (G := fun _ _ => True)
      (fun _ _ _ hC _ hstep => checked_step hC hstep) (fun _ _ => trivial)
      (checked_atRest clock db)).begun l d hl
    have hclock : v.clock ≤ u.clock := (clock_mono hs').trans (clock_run hmid₂)
    exact (hle.trans (hnow ▸ hbegun)).trans hclock
  final := by
    rintro tr₁ t a tr₂ row rfl hrow hfin
    have hlife := (life_run hdb hm hrun hU).1
    obtain ⟨_, hpre, _, _⟩ := hrun.split_cons
    have hpre' := (life_run hdb hm hpre hU.left).1
    rw [lifeOf_append] at hlife
    obtain ⟨x, hx, hrest⟩ := hlife.split _ _
    rw [hx.unique hpre', Db.life, hrow] at hrest
    exact Lifecycle.final_stays hrest hfin

/-- The second attempt of job 7 comes one millisecond after its first has failed. -/
theorem attempts_paced_twice :
    Paced 7 (trace (step Config.small) (Sys.atRest 0 Db.smallTwice) failTwiceActions)
      (play (step Config.small) (Sys.atRest 0 Db.smallTwice) failTwiceActions) :=
  attempts_paced
    (run_of_play (step Config.small) (Sys.atRest 0 Db.smallTwice) failTwiceActions (by rfl))
    Db.smallTwice_unattempted (by rintro row ⟨⟩; decide) ⟨by decide, by decide⟩

end

end JobScheduler
