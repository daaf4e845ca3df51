/-
  JobScheduler.DeadLetter.Revival
  ───────────────────────────────
  Manual retries and DLQ replays revive dead jobs.  Both requests read first and
  reset later, with an UPDATE that names the job alone; a replay does not look at
  the job at all, and its entry outlives the reset until its DELETE.  What a
  request has read still holds at its UPDATE as long as no other reset of the job
  comes in between: nobody else touches a job that is failed or dead-lettered.
-/
import JobScheduler.DeadLetter.Rows

namespace JobScheduler

open Relational Transition

/-! ## §1. The statements at issue. -/

/-- The client's next statement replays the entry `x`. -/
def Proc.replays (x : UUID) : Proc → Bool
  | .replay r => r.pc.replaying && decide (r.entryId = x)
  | _ => false

/-- The client has replayed the entry `x` and not deleted it yet. -/
def Proc.unburies (x : UUID) : Proc → Bool
  | .replay r => r.pc.deleting && decide (r.entryId = x)
  | _ => false

/-- The client is about to reset the job, or to replay the entry, that `p` is
about to reset or to replay. -/
def Proc.collides : Proc → Proc → Bool
  | .retry r, q => (match r.pc with
      | .update => q.resets r.jobId
      | _ => false)
  | .replay r, q => (match r.pc with
      | .update j => q.resets j
      | _ => false) || r.pc.replaying && q.replays r.entryId
  | _, _ => false

/-- The action is a reset of job `j` that is carried out. -/
def Action.revives (s : Sys) (j : UUID) : Action → Bool
  | .run pid env => (Action.run pid env).resets s j && !env.fails
  | _ => false

/-- The action is a replay of the entry `x`, by UPDATE or by INSERT, that is
carried out. -/
def Action.replays (s : Sys) (x : UUID) : Action → Bool
  | .run pid env => (s.proc pid).any (Proc.replays x) && !env.fails
  | _ => false

/-- The action inserts the entry `x`. -/
def Action.buries (cfg : Config) (s : Sys) (x : UUID) (a : Action) : Bool :=
  a.ofExec s (fun env e => (match e.pc with
    | .insertDeadLetter _ => true
    | _ => false) && decide (env.fresh = x) && !(env.fails || e.overflows cfg))

/-- The action is a reset or replay that is carried out between the SELECT of
another request and its reset of the same job or its replay of the same entry. -/
def Action.overtakes (s : Sys) : Action → Bool
  | .run pid env => !env.fails && (s.proc pid).any (fun p =>
      !s.clients.all (fun k c => decide (k = pid) || !p.collides c.proc))
  | _ => false

/-- The action is the SELECT of a replay that finds an entry which satisfies `f`. -/
def Action.findsEntry (s : Sys) (f : UUID → DeadLetterEntry → Bool) : Action → Bool
  | .run pid env => !env.fails && (match s.proc pid with
      | some (.replay r) => (match r.pc with
          | .select => (s.db.deadLetterQueue.lookup r.entryId).any
              (fun entry => r.visible s.db entry && f r.entryId entry)
          | _ => false)
      | _ => false)
  | _ => false

/-- A replay finds an entry whose job is not dead. -/
def Action.findsAlive (s : Sys) (a : Action) : Bool :=
  a.findsEntry s (fun _ entry =>
    entry.originalJobId.any (fun j => (s.db.statusOf j).any (fun st => !st.retryable)))

/-- A replay finds an entry that another request has replayed. -/
def Action.findsSpent (s : Sys) (a : Action) : Bool :=
  a.findsEntry s (fun x _ => !s.clients.all (fun _ c => !c.proc.unburies x))

/-- The action is a rejected statement of a replay between its reset and the end of
its DELETE. -/
def Action.leavesEntry (s : Sys) : Action → Bool
  | .run pid env => env.fails && (match s.proc pid with
      | some (.replay r) => r.pc.deleting
      | _ => false)
  | _ => false

/-- Steps after which a request still finds what it has read. -/
structure Action.Orderly (s : Sys) (a : Action) : Prop where
  overtakes : a.overtakes s = false
  findsAlive : a.findsAlive s = false
  findsSpent : a.findsSpent s = false
  leavesEntry : a.leavesEntry s = false

instance (s : Sys) (a : Action) : Decidable (a.Orderly s) :=
  decidable_of_iff
    (a.overtakes s = false ∧ a.findsAlive s = false ∧ a.findsSpent s = false ∧ a.leavesEntry s = false)
    ⟨fun h => ⟨h.1, h.2.1, h.2.2.1, h.2.2.2⟩,
      fun h => ⟨h.overtakes, h.findsAlive, h.findsSpent, h.leavesEntry⟩⟩

/-! ## §2. Single steps. -/

theorem Proc.resets_iff {p : Proc} {j : UUID} :
    p.resets j = true ↔
      (∃ r, p = .retry r ∧ r.pc = .update ∧ r.jobId = j) ∨ ∃ r, p = .replay r ∧ r.pc = .update j := by
  constructor
  · intro h
    cases p with
    | retry r =>
        simp only [Proc.resets] at h
        split at h
        · rename_i hpc
          exact .inl ⟨r, rfl, hpc, of_decide_eq_true h⟩
        · cases h
    | replay r =>
        simp only [Proc.resets] at h
        split at h
        · rename_i i hpc
          exact .inr ⟨r, rfl, of_decide_eq_true h ▸ hpc⟩
        · cases h
    | _ => cases h
  · rintro (⟨r, rfl, hpc, hj⟩ | ⟨r, rfl, hpc⟩)
    · simp [Proc.resets, hpc, hj]
    · simp [Proc.resets, hpc]

/-- The statements of a replay before its DELETE. -/
theorem Proc.replays_iff {p : Proc} {x : UUID} :
    p.replays x = true ↔ ∃ r, p = .replay r ∧ r.pc.replaying = true ∧ r.entryId = x := by
  cases p <;> simp [Proc.replays]

theorem Proc.unburies_iff {p : Proc} {x : UUID} :
    p.unburies x = true ↔ ∃ r, p = .replay r ∧ r.pc.deleting = true ∧ r.entryId = x := by
  cases p <;> simp [Proc.unburies]

theorem Proc.collides_of_resets {p q : Proc} {j : UUID} (hp : p.resets j = true)
    (hq : q.resets j = true) : p.collides q = true := by
  rcases Proc.resets_iff.mp hp with ⟨r, rfl, hpc, rfl⟩ | ⟨r, rfl, hpc⟩
  · simp [Proc.collides, hpc, hq]
  · simp [Proc.collides, hpc, hq]

theorem Proc.collides_of_replays {p q : Proc} {x : UUID} (hp : p.replays x = true)
    (hq : q.replays x = true) : p.collides q = true := by
  obtain ⟨r, rfl, hpc, rfl⟩ := Proc.replays_iff.mp hp
  simp [Proc.collides, hpc, hq]

theorem replays_iff {s : Sys} {a : Action} {x : UUID} :
    a.replays s x = true ↔ ∃ k env r, a = .run k env ∧ s.proc k = some (.replay r) ∧
      r.pc.replaying = true ∧ r.entryId = x ∧ env.fails = false := by
  constructor
  · intro h
    cases a with
    | run pid env =>
        obtain ⟨hany, hf⟩ := Bool.and_eq_true_iff.mp h
        obtain ⟨p, hp, hr⟩ := (Option.any_eq_true _ _).mp hany
        obtain ⟨r, rfl, hpc, hx⟩ := Proc.replays_iff.mp hr
        exact ⟨pid, env, r, rfl, hp, hpc, hx, by simpa using hf⟩
    | _ => cases h
  · rintro ⟨k, env, r, rfl, hk, hpc, hx, hf⟩
    simp [Action.replays, hk, Proc.replays, hpc, hx, hf]

section
variable {cfg : Config} {s s' : Sys} {a : Action} {j x : UUID}

/-- Two requests do not stand before the same reset when one is carried out. -/
theorem not_collides {pid k : Nat} {env : Env} {p q : Proc}
    (ho : (Action.run pid env).overtakes s = false) (hf : env.fails = false)
    (hp : s.proc pid = some p) (hk : s.proc k = some q) (hne : k ≠ pid) :
    p.collides q = false := by
  simp only [Action.overtakes, hf, hp, Bool.not_false, Bool.true_and, Option.any_some,
    Bool.not_eq_false', Table.all_iff] at ho
  obtain ⟨c, hc, rfl⟩ := Option.map_eq_some_iff.mp hk
  simpa [hne] using ho k c hc

/-- The SELECT of a replay does not find what `Orderly` excludes. -/
theorem not_findsEntry {f : UUID → DeadLetterEntry → Bool} {k : Nat} {env : Env} {r : Replay}
    {entry : DeadLetterEntry} (h : (Action.run k env).findsEntry s f = false)
    (hk : s.proc k = some (.replay r)) (hpc : r.pc = .select) (hf : env.fails = false)
    (hentry : s.db.deadLetterQueue.lookup r.entryId = some entry)
    (hv : r.visible s.db entry = true) : f r.entryId entry = false := by
  simpa [Action.findsEntry, hf, hk, hpc, hentry, hv] using h

/-- A rejected statement leaves the database as it is. -/
theorem Proc.step_failed {ctx : Ctx} {env : Env} {db db' : Db} {p p' : Proc}
    (h : p.step cfg ctx env db = some (db', p')) (hf : env.fails = true) : db' = db := by
  cases Proc.stepped h with
  | claim c c' hq =>
      unfold Claim.step at hq
      split at hq <;> simp [hf] at hq <;> exact hq.1.symm
  | exec e e' hq =>
      obtain ⟨_, ⟨_, hdb, _⟩ | ⟨hacc, _, _⟩⟩ := Exec.step_cases hq
      · exact hdb
      · simp [hf] at hacc
  | submit r r' hq =>
      cases hpc : r.pc <;> simp only [Submit.step, hpc, hf, if_true, Bool.true_or] at hq
      case checkDependencies => (repeat' split at hq) <;> cases hq <;> rfl
      case replied => cases hq
      all_goals cases hq; rfl
  | retry r r' hq =>
      unfold Retry.step at hq
      split at hq <;> simp [hf] at hq <;> exact hq.1.symm
  | replay r r' hq =>
      unfold Replay.step at hq
      split at hq <;> simp [hf] at hq <;> exact hq.1.symm
  | cancel r r' hq =>
      unfold Cancel.step at hq
      split at hq <;> simp [hf] at hq <;> exact hq.1.symm
  | patch r r' hq =>
      cases hpc : r.pc <;> simp only [Patch.step, hpc, hf, if_true, Bool.true_or] at hq
      case update => split at hq <;> cases hq <;> rfl
      case replied => cases hq
      all_goals cases hq; rfl
  | tick t t' hq =>
      obtain ⟨_, ⟨_, hdb, _⟩ | ⟨hacc, _, _⟩⟩ := Tick.step_cases hq
      · exact hdb
      · simp [hf] at hacc

/-- No call that is in flight may still write a dead job. -/
theorem Held.not_writing {old : Job} (hH : Held Stage.writing j s)
    (hold : s.db.jobs.lookup j = some old) (hdead : old.status.retryable = true) :
    ∀ k e, s.proc k = some (.exec e) → e.jobId = j → ¬ e.stage.writing := by
  intro k e hk hj hg
  obtain ⟨row, hrow, hallow⟩ := hH.row k e hk hj hg
  rw [hold] at hrow
  cases hrow
  rcases Stage.writing_allows hg hallow with hst | hst | hst <;> rw [hst] at hdead <;> cases hdead

/-- **Nobody but a reset touches a dead job.** -/
theorem Held.dead_stays {old : Job} (hP : Pending s) (hH : Held Stage.writing j s)
    (h : step cfg s a = some s') (hold : s.db.jobs.lookup j = some old)
    (hdead : old.status.retryable = true) (hr : a.revives s j = false) :
    s'.db.jobs.lookup j = some old := by
  cases stepped h with
  | wait | start => exact hold
  | run pid env p p' db' hp _ hstep =>
  by_cases hres : p.resets j = true
  · -- the reset is rejected
    have hf : env.fails = true := by simpa [Action.revives, Action.resets, hp, hres] using hr
    have hm : p.manual = true := by
      rcases Proc.resets_iff.mp hres with ⟨r, rfl, _⟩ | ⟨r, rfl, _⟩ <;> rfl
    rw [Sys.put_db, Proc.step_failed hstep hf]
    exact hold
  have hwrites : ∀ e : Exec, p = .exec e → e.jobId = j → ¬ e.stage.writing := by
    rintro e rfl hj
    exact hH.not_writing hold hdead pid e hp hj
  have hch := Proc.step_jobs (j := j) hstep
  rw [Sys.put_db]
  generalize db'.jobs.lookup j = new at hch ⊢
  rw [hold] at hch
  cases hch with
  | same => rfl
  | claimed c row _ hpc =>
      -- a claim before its UPDATE holds the row lock of a queued job
      obtain ⟨o, ho, hq, _⟩ := hP.queued pid c j row hp hpc
      rw [hold] at ho
      cases ho
      rw [hq] at hdead
      cases hdead
  | running e _ hpc hj | completed e _ _ hpc hj | requeued e _ _ _ _ hpc hj
  | deadLettered e _ _ hpc hj =>
      exact absurd (by simp [Exec.stage, hpc, ExecPc.stage, Stage.writing]) (hwrites e rfl hj)
  | released e _ hpc hw =>
      simp only [Db.releasable, Bool.and_eq_true, decide_eq_true_eq] at hw
      rw [hw.1.1] at hdead
      cases hdead
  | retried r _ hpc hj => exact absurd (Proc.resets_iff.mpr (.inl ⟨r, rfl, hpc, hj⟩)) hres
  | replayed r _ hpc => exact absurd (Proc.resets_iff.mpr (.inr ⟨r, rfl, hpc⟩)) hres
  | cancelled r _ _ hpc hw =>
      have hwait : old.status.pending = true := (Bool.and_eq_true_iff.mp hw).2
      cases hst : old.status <;> simp_all [JobStatus.pending, JobStatus.retryable]
  | flipped t _ hpc hw =>
      simp only [Tick.flips, Bool.and_eq_true, decide_eq_true_eq] at hw
      rw [hw.1] at hdead
      cases hdead

/-! ## §3. A request finds at its UPDATE what it has read. -/

/-- Every request before its reset has a dead job. -/
structure Armed (s : Sys) : Prop where
  pending : Pending s
  defined : Defined s
  /-- Foreign key `dead_letter_queue.original_job_id`. -/
  entries : s.db.EntriesRefer
  held : ∀ j, Held Stage.writing j s
  dead : ∀ k p j, s.proc k = some p → p.resets j = true →
    ∃ row, s.db.jobs.lookup j = some row ∧ row.status.retryable = true

theorem armed_atRest {db : Db} (clock : Timestamp) (hfk : db.EntriesRefer) :
    Armed (Sys.atRest clock db) where
  pending := pending_atRest clock db
  defined := defined_atRest clock db
  entries := hfk
  held j := held_atRest _ j clock db
  dead := by intro k p j h; simp at h

/-- No call that may still write a job is about to be surprised by a reset. -/
theorem Armed.not_writing (hA : Armed s) (hr : a.resets s j = true) :
    ∀ k e, s.proc k = some (.exec e) → e.jobId = j → ¬ e.stage.writing := by
  cases a with
  | run pid env =>
      obtain ⟨p, hp, hres⟩ := (Option.any_eq_true _ _).mp hr
      obtain ⟨row, hrow, hdead⟩ := hA.dead pid p j hp hres
      exact (hA.held j).not_writing hrow hdead
  | _ => cases hr

/-- A request before its reset stood there before the step, or has just read a dead
job. -/
theorem Armed.resets_origin {k : Nat} {p' : Proc} (hA : Armed s) (h : step cfg s a = some s')
    (ha : a.findsAlive s = false) (hk : s'.proc k = some p') (hr : p'.resets j = true) :
    (s.proc k = some p' ∧ ∀ env, a ≠ .run k env) ∨
      (s'.db = s.db ∧ ∃ row, s.db.jobs.lookup j = some row ∧ row.status.retryable = true) := by
  rcases Proc.resets_iff.mp hr with ⟨r', rfl, hpc, hj⟩ | ⟨r', rfl, hpc⟩
  · cases retry_origin h hk with
    | idle hk₀ hne => exact .inl ⟨hk₀, hne⟩
    | started hs => rw [hpc] at hs; cases hs
    | stepped env r _ _ hs =>
        generalize s'.db = db' at hs ⊢
        cases hs with
        | selected _ _ job hjob hst =>
            subst hj
            -- the retry has just checked the status
            exact .inr ⟨rfl, job, hjob, hst⟩
        | _ => cases hpc
  · cases replay_origin h hk with
    | idle hk₀ hne => exact .inl ⟨hk₀, hne⟩
    | started hs => rw [hpc] at hs; cases hs
    | stepped env r hra hk₀ hs =>
        generalize s'.db = db' at hs ⊢
        cases hs with
        | selected hsel hf entry hentry hv =>
            subst hra
            have halive := not_findsEntry ha hk₀ hsel hf hentry hv
            unfold Replay.afterSelect at hpc
            split at hpc <;> cases hpc
            -- the replay checks nothing; `findsAlive` says that the job is dead
            rename_i ho
            obtain ⟨row, hrow⟩ := Option.isSome_iff_exists.mp
              (AList.lookup_isSome.mpr (hA.entries _ entry j hentry ho))
            exact .inr ⟨rfl, row, hrow, by simpa [ho, Db.statusOf, hrow] using halive⟩
        | _ => cases hpc

/-- An orderly step keeps the invariant. -/
theorem armed_step (hA : Armed s) (hO : a.Orderly s) (h : step cfg s a = some s') : Armed s' where
  pending := pending_step hA.pending h
  defined := defined_step hA.pending hA.defined h
  entries := entriesRefer_step hA.defined hA.entries h
  held j := held_step Stage.relying_writing hA.pending (hA.held j) hA.not_writing h
  dead := by
    intro k p j hk hr
    rcases hA.resets_origin h hO.findsAlive hk hr with ⟨hk₀, hne⟩ | ⟨hdb, hread⟩
    · -- another request does not reset the job meanwhile
      have hno : a.revives s j = false := by
        rw [Bool.eq_false_iff]
        intro hrev
        cases a with
        | run pid env =>
            obtain ⟨hres, hf⟩ := Bool.and_eq_true_iff.mp hrev
            obtain ⟨q, hq, hqr⟩ := (Option.any_eq_true _ _).mp hres
            have hpk : k ≠ pid := fun hkp => hne env (hkp ▸ rfl)
            have hcol := not_collides hO.overtakes (by simpa using hf) hq hk₀ hpk
            rw [Proc.collides_of_resets hqr hr] at hcol
            cases hcol
        | _ => cases hrev
      obtain ⟨old, hold, hdead⟩ := hA.dead k p j hk₀ hr
      exact ⟨old, (hA.held j).dead_stays hA.pending h hold hdead hno, hdead⟩
    · rw [hdb]
      exact hread

/-! ## §4. An entry is replayed once. -/

/-- An entry is inserted by the last branch of `executeJob`. -/
theorem buries_iff {cfg : Config} {s : Sys} {a : Action} {x : UUID} :
    a.buries cfg s x = true ↔ ∃ k env e error, a = .run k env ∧ s.proc k = some (.exec e) ∧
      e.pc = .insertDeadLetter error ∧ env.fresh = x ∧ (env.fails || e.overflows cfg) = false := by
  unfold Action.buries
  rw [ofExec_iff]
  simp only [Bool.and_eq_true, decide_eq_true_eq, Bool.not_eq_true']
  constructor
  · rintro ⟨k, env, e, ha, hk, ⟨hpc, hx⟩, hacc⟩
    split at hpc
    · rename_i error hins
      exact ⟨k, env, e, error, ha, hk, hins, hx, hacc⟩
    · cases hpc
  · rintro ⟨k, env, e, error, ha, hk, hpc, hx, hacc⟩
    exact ⟨k, env, e, ha, hk, ⟨by rw [hpc], hx⟩, hacc⟩

/-- The entry `x` has been replayed since it was inserted. -/
def spent (cfg : Config) (tr : List (Sys × Action)) (x : UUID) : Bool :=
  tr.foldl (fun b p => !p.2.buries cfg p.1 x && (b || p.2.replays p.1 x)) false

/-- An entry is spent by its replay, until a new burial takes its id. -/
theorem spent_snoc (tr : List (Sys × Action)) (s : Sys) (a : Action) (x : UUID) :
    spent cfg (tr ++ [(s, a)]) x = (!a.buries cfg s x && (spent cfg tr x || a.replays s x)) := by
  simp [spent, List.foldl_append]

/-- A replayed entry stays so until another one is inserted under its id. -/
theorem spent_append {tr tr' : List (Sys × Action)} (h : spent cfg tr x = true)
    (hno : ∀ p ∈ tr', p.2.buries cfg p.1 x = false) : spent cfg (tr ++ tr') x = true := by
  induction tr' using List.reverseRecOn with
  | nil => simpa using h
  -- on the later steps, from the end
  | append_singleton tr' p ih =>
      have hp := hno p (List.mem_append_right _ List.mem_cons_self)
      have hpre := ih (fun q hq => hno q (List.mem_append_left _ hq))
      rw [← List.append_assoc, show p = (p.1, p.2) from rfl, spent_snoc, hpre, hp]
      rfl

/-- A replayed entry is gone or about to be deleted, and nobody is about to replay
it. -/
structure Buried (x : UUID) (s : Sys) : Prop where
  idle : ∀ k p, s.proc k = some p → p.replays x = false
  deleted : x ∈ s.db.deadLetterQueue → ∃ k p, s.proc k = some p ∧ p.unburies x = true

/-- A request before its replay stood there before the step, or has just found the
entry. -/
theorem replays_origin {k : Nat} {p' : Proc} (h : step cfg s a = some s')
    (hk : s'.proc k = some p') (hr : p'.replays x = true) :
    (s.proc k = some p' ∧ ∀ env, a ≠ .run k env) ∨
      ∃ env r entry, a = .run k env ∧ s.proc k = some (.replay r) ∧ r.pc = .select ∧
        env.fails = false ∧ r.entryId = x ∧ s.db.deadLetterQueue.lookup x = some entry ∧
        r.visible s.db entry = true := by
  obtain ⟨r', rfl, hpc, hx⟩ := Proc.replays_iff.mp hr
  cases replay_origin h hk with
  | idle hk₀ hne => exact .inl ⟨hk₀, hne⟩
  | started hs => rw [hs] at hpc; cases hpc
  | stepped env r hra hk₀ hs =>
      generalize s'.db = db' at hs
      cases hs with
      | selected hsel hf entry hentry hv =>
          have hid : (r.afterSelect entry).entryId = r.entryId := by
            unfold Replay.afterSelect
            split <;> rfl
          rw [hid] at hx
          exact .inr ⟨env, r, entry, hra, hk₀, hsel, hf, hx, hx ▸ hentry, hv⟩
      | _ => cases hpc

/-- A replay that has not deleted its entry does so, or is rejected. -/
theorem unburies_next {k : Nat} {p : Proc} (h : step cfg s a = some s')
    (hleave : a.leavesEntry s = false) (hk : s.proc k = some p) (hu : p.unburies x = true) :
    (∃ p', s'.proc k = some p' ∧ p'.unburies x = true) ∨ x ∉ s'.db.deadLetterQueue := by
  obtain ⟨r, rfl, hpc, hx⟩ := Proc.unburies_iff.mp hu
  rcases replay_next h hk with ⟨hk', _⟩ | ⟨env, r', rfl, hk', hs⟩
  · exact .inl ⟨_, hk', hu⟩
  · generalize s'.db = db' at hs ⊢
    cases hs with
    | failed err hf =>
        -- a rejection here would leave the entry behind
        simp [Action.leavesEntry, hf (.inr hpc), hk, hpc] at hleave
    | logged j row hlog =>
        exact .inl ⟨_, hk', Proc.unburies_iff.mpr ⟨_, rfl, rfl, hx⟩⟩
    | deleted row hdel =>
        right
        rw [← AList.lookup_eq_none, deleteDeadLetter_lookup, if_pos hx.symm]
    | selected hs | updated _ hs | nothing _ _ hs | inserted _ _ hs | published _ _ hs
    | replied _ hs => rw [hs] at hpc; cases hpc

/-- The replay is not yet deleted when it is carried out. -/
theorem unburies_of_replays (h : step cfg s a = some s') (ha : a.replays s x = true) :
    ∃ k p', s'.proc k = some p' ∧ p'.unburies x = true := by
  obtain ⟨k, env, r, rfl, hk, hpc, hx, hf⟩ := replays_iff.mp ha
  rcases replay_next h hk with ⟨_, hne⟩ | ⟨_, r', he, hk', hs⟩
  · exact absurd rfl (hne env)
  · cases he
    refine ⟨k, _, hk', ?_⟩
    generalize s'.db = db' at hs
    cases hs with
    | failed err hf' => rw [hf' (.inl hpc)] at hf; cases hf
    | updated _ _ | nothing _ _ _ | inserted _ _ _ =>
        exact Proc.unburies_iff.mpr ⟨_, rfl, rfl, hx⟩
    | selected hs | logged _ _ hs | deleted _ hs | published _ _ hs | replied _ hs =>
        rw [hs] at hpc; cases hpc

/-- A spent entry is gone or about to be deleted, after one orderly step. -/
theorem buried_step {tr : List (Sys × Action)} (hO : a.Orderly s)
    (hB : spent cfg tr x = true → Buried x s) (h : step cfg s a = some s')
    (hsp : spent cfg (tr ++ [(s, a)]) x = true) : Buried x s' := by
  rw [spent_snoc, Bool.and_eq_true, Bool.or_eq_true, Bool.not_eq_true'] at hsp
  obtain ⟨hnb, hsp⟩ := hsp
  refine ⟨?_, ?_⟩
  · intro k p' hk
    rw [Bool.eq_false_iff]
    intro hr
    rcases replays_origin h hk hr with ⟨hk₀, hne⟩ | ⟨env, r, entry, rfl, hk₀, hsel, hf, rfl, hentry, hv⟩
    · rcases hsp with hsp | hnow
      · rw [(hB hsp).idle k p' hk₀] at hr
        cases hr
      · -- two requests before the replay of one entry
        obtain ⟨pid, env, r, rfl, hp, hpc, hx, hf⟩ := replays_iff.mp hnow
        have hpk : k ≠ pid := fun hkp => hne env (hkp ▸ rfl)
        have hcol := not_collides hO.overtakes hf hp hk₀ hpk
        rw [Proc.collides_of_replays (Proc.replays_iff.mpr ⟨r, rfl, hpc, hx⟩) hr] at hcol
        cases hcol
    · rcases hsp with hsp | hnow
      · -- the entry would be found before its replay has deleted it
        obtain ⟨l, q, hl, hu⟩ := (hB hsp).deleted (AList.lookup_isSome.mp (by simp [hentry]))
        have hnone := not_findsEntry hO.findsSpent hk₀ hsel hf hentry hv
        rw [Bool.not_eq_false', Sys.clients_all_iff s (fun p => !p.unburies r.entryId)] at hnone
        have hno := hnone l q hl
        rw [hu] at hno
        cases hno
      -- the client that has just read the entry is not the one that replays it
      · obtain ⟨_, _, q, he, hq, hpc, _, _⟩ := replays_iff.mp hnow
        cases he
        rw [hk₀] at hq
        cases hq
        rw [hsel] at hpc
        cases hpc
  · intro hmem
    -- an entry that is back would have been inserted by the step
    rcases hsp with hsp | hnow
    · have hmem₀ : x ∈ s.db.deadLetterQueue := by
        rw [← AList.lookup_isSome] at hmem ⊢
        rcases step_entry h x with heq | ⟨pid, env, p, rfl, hp, hch⟩
        · rw [← heq]; exact hmem
        · generalize hold : s.db.deadLetterQueue.lookup x = old at hch
          generalize s'.db.deadLetterQueue.lookup x = new at hch hmem
          cases hch with
          | same => exact hmem
          | buried e error hpc hx hacc =>
              rw [buries_iff.mpr ⟨pid, env, e, error, rfl, hp, hpc, hx, hacc⟩] at hnb
              cases hnb
          | deleted => cases hmem
      obtain ⟨k, p, hk, hu⟩ := (hB hsp).deleted hmem₀
      rcases unburies_next h hO.leavesEntry hk hu with ⟨p', hk', hu'⟩ | hgone
      · exact ⟨k, p', hk', hu'⟩
      · exact absurd hmem hgone
    · exact unburies_of_replays h hnow

end

/-- The invariant in every orderly run, with what it says of spent entries. -/
theorem revival_run {cfg : Config} {clock : Timestamp} {db : Db} {s : Sys}
    {tr : List (Sys × Action)} (hfk : db.EntriesRefer)
    (hrun : SysRun cfg (Sys.atRest clock db) tr s) (hO : ∀ p ∈ tr, p.2.Orderly p.1) :
    Armed s ∧ ∀ x, spent cfg tr x = true → Buried x s := by
  induction hrun with
  | nil => exact ⟨armed_atRest clock hfk, fun x hx => by cases hx⟩
  | @snoc tr s s' a _ hs ih =>
      obtain ⟨hA, hB⟩ := ih (fun p hp => hO p (List.mem_append_left _ hp))
      have hlast := hO (s, a) (List.mem_append_right _ List.mem_cons_self)
      exact ⟨armed_step hA hlast hs, fun x hx => buried_step hlast (hB x) hs hx⟩

/-- **Manual requests revive dead jobs only.**  In every run of the whole system in
which no reset of a job is carried out between the SELECT and the UPDATE of another
retry or replay of it, no replay finds an entry whose job is not dead or which
another replay has not finished with, and no replay is rejected between its reset
and its DELETE: every reset that is carried out finds the job failed or
dead-lettered, and between two replays of one entry id another entry has been
inserted under it. -/
theorem reset_revives_dead {cfg : Config} {clock : Timestamp} {db : Db} {s : Sys}
    {tr : List (Sys × Action)} (hfk : db.EntriesRefer)
    (hrun : SysRun cfg (Sys.atRest clock db) tr s) (hO : ∀ p ∈ tr, p.2.Orderly p.1) :
    (∀ p ∈ tr, ∀ j, p.2.revives p.1 j = true →
      ∃ row, p.1.db.jobs.lookup j = some row ∧ (row.status = .failed ∨ row.status = .deadLetter)) ∧
    (∀ tr₁ p tr₂ q tr₃ x, tr = tr₁ ++ p :: (tr₂ ++ q :: tr₃) → p.2.replays p.1 x = true →
      q.2.replays q.1 x = true → ∃ u ∈ tr₂, u.2.buries cfg u.1 x = true) := by
  refine ⟨?_, ?_⟩
  · rintro ⟨t, a⟩ hp j hrev
    obtain ⟨tr₁, _, hpre, hsub, _⟩ := hrun.of_mem hp
    have hA := (revival_run hfk hpre (fun q hq => hO q (hsub q hq))).1
    cases a with
    | run pid env =>
        obtain ⟨c, hc, hres⟩ := (Option.any_eq_true _ _).mp (Bool.and_eq_true_iff.mp hrev).1
        obtain ⟨row, hrow, hdead⟩ := hA.dead pid c j hc hres
        refine ⟨row, hrow, ?_⟩
        cases hst : row.status <;> rw [hst] at hdead <;> first | exact .inl rfl | exact .inr rfl | cases hdead
    | _ => cases hrev
  · rintro tr₁ ⟨t₁, a₁⟩ tr₂ ⟨t₂, a₂⟩ tr₃ x rfl hr₁ hr₂
    by_contra hno
    push Not at hno
    have hsplit : tr₁ ++ (t₁, a₁) :: (tr₂ ++ (t₂, a₂) :: tr₃)
        = (tr₁ ++ [(t₁, a₁)] ++ tr₂) ++ (t₂, a₂) :: tr₃ := by simp
    rw [hsplit] at hrun hO
    obtain ⟨_, hpre, _, _⟩ := hrun.split_cons
    have hspent : spent cfg (tr₁ ++ [(t₁, a₁)] ++ tr₂) x = true := by
      refine spent_append ?_ (fun u hu => by simpa using hno u hu)
      rw [spent_snoc, hr₁]
      simp only [Bool.or_true, Bool.and_true, Bool.not_eq_true']
      -- a replay is no INSERT of an entry
      rw [Bool.eq_false_iff, ne_eq, buries_iff]
      rintro ⟨_, _, _, _, rfl, hk, _⟩
      obtain ⟨_, _, _, he, hk', _⟩ := replays_iff.mp hr₁
      cases he
      rw [hk] at hk'
      cases hk'
    have hB := (revival_run hfk hpre (fun q hq => hO q (List.mem_append_left _ hq))).2 x hspent
    obtain ⟨k, env, r, rfl, hk, hpc, hx, _⟩ := replays_iff.mp hr₂
    have hidle := hB.idle k _ hk
    rw [Proc.replays_iff.mpr ⟨r, rfl, hpc, hx⟩] at hidle
    cases hidle

/-- Job 7 is dead-lettered, its entry is 3. -/
def Db.smallDead (limit : Nat) : Db :=
  { Db.small limit [(7, Job.small .deadLetter)] with
    deadLetterQueue := (Db.smallReplayable limit).deadLetterQueue }

theorem Db.smallDead_refers (limit : Nat) : (Db.smallDead limit).EntriesRefer := by
  intro x entry j hentry ho
  have hx : x = 3 := by
    by_contra hne
    rw [Db.smallDead, Db.smallReplayable, AList.lookup_insert_ne hne] at hentry
    cases hentry
  subst hx
  cases hentry
  cases ho
  exact AList.lookup_isSome.mp rfl

/-- Job 7 has one attempt. -/
def Db.smallSpent : Db :=
  { Db.smallDead 1 with
    jobs := (∅ : Table UUID Job).insert 7 { Job.small .deadLetter with maxAttempts := 1 } }

theorem Db.smallSpent_refers : Db.smallSpent.EntriesRefer := Db.smallDead_refers 1

/-- After the UPDATE of a first replay: its entry is deleted, and the job fails again and gets a
new one. -/
def failAgainActions : List Action :=
  Action.runs 0 { now := 0 } 4 ++ .start 1 (.claim 5 none none)
    :: Action.runs 1 { now := 0, pick := some 7, fresh := 3, handler := .error "" } 22

/-- The state in which the job is dead for the second time. -/
def Sys.deadAgain : Sys :=
  play (step Config.small) (Sys.atRest 0 Db.smallSpent)
    (.start 0 (.replay 1 3) :: Action.runs 0 { now := 0 } 1 ++ .run 0 { now := 0 } :: failAgainActions)

/-- Entry 3 is replayed twice: the second time the job is dead again, and the failure in between
has inserted the entry again. -/
theorem reset_revives_dead_twice :
    ∃ tr₁ p tr₂ q tr₃ s, SysRun Config.small (Sys.atRest 0 Db.smallSpent)
        (tr₁ ++ p :: (tr₂ ++ q :: tr₃)) s ∧
      p.2.replays p.1 3 = true ∧ q.2.replays q.1 3 = true ∧
      (∃ u ∈ tr₂, u.2.buries Config.small u.1 3 = true) ∧
      ∃ row, q.1.db.jobs.lookup 7 = some row ∧ (row.status = .failed ∨ row.status = .deadLetter) := by
  have hfirst := run_of_play_at (step Config.small) (Sys.atRest 0 Db.smallSpent)
    (.start 0 (.replay 1 3) :: Action.runs 0 { now := 0 } 1) (.run 0 { now := 0 }) failAgainActions
    (by decide +kernel)
  have hsecond := run_of_play_at (step Config.small) Sys.deadAgain
    (.start 2 (.replay 1 3) :: Action.runs 2 { now := 0 } 1) (.run 2 { now := 0 })
    (Action.runs 2 { now := 0 } 4) (by decide +kernel)
  have hrun := hfirst.append hsecond
  rw [List.append_assoc, List.cons_append, ← List.append_assoc (trace _ _ failAgainActions)] at hrun
  obtain ⟨hdead, hburied⟩ := reset_revives_dead Db.smallSpent_refers hrun (by decide +kernel)
  refine ⟨_, _, _, _, _, _, hrun, by decide +kernel, by decide +kernel,
    hburied _ _ _ _ _ 3 rfl (by decide +kernel) (by decide +kernel), hdead _ ?_ 7 (by decide +kernel)⟩
  exact List.mem_append_right _ (List.mem_cons_of_mem _ (List.mem_append_right _ List.mem_cons_self))

/-- Two requests to retry job 7 read that it is dead; the first one resets it, and a
worker starts to run it. -/
def retriedTwiceActions : List Action :=
  .start 0 (.retry 1 7) :: .start 1 (.retry 1 7) :: .run 0 { now := 0 } :: .run 1 { now := 0 }
    :: Action.runs 0 { now := 0 } 4
    ++ .start 2 (.claim 5 none none) :: Action.runs 2 { now := 0, pick := some 7 } 7

/-- The second request resets the job that runs. -/
theorem retry_resets_running :
    ∃ tr s p, SysRun Config.small (Sys.atRest 0 (Db.smallDead 1)) tr s ∧ p ∈ tr ∧
      p.2.revives p.1 7 = true ∧ p.1.db.statusOf 7 = some .running :=
  ⟨_, _, _, run_of_play_at (step Config.small) (Sys.atRest 0 (Db.smallDead 1)) retriedTwiceActions
      (.run 1 { now := 0 }) [] (by rfl),
    List.mem_append_right _ List.mem_cons_self, by decide, by rfl⟩

end JobScheduler
