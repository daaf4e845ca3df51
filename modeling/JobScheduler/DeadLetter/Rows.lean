/-
  JobScheduler.DeadLetter.Rows
  ────────────────────────────
  The dead letter queue and the two operator requests that read it or the jobs it
  is about.  An entry is inserted by `executeJob` and deleted by a replay; no
  statement updates one.
-/
import JobScheduler.System.Activation

namespace JobScheduler

open Relational

/-! ## §1. The changes of an entry. -/

@[simp] theorem insertDeadLetter_lookup (db : Db) (id : UUID) (row : DeadLetterEntry) (x : UUID) :
    (db.insertDeadLetter id row).deadLetterQueue.lookup x
      = if x = id then some row else db.deadLetterQueue.lookup x := by
  simp [Db.insertDeadLetter, Table.lookup_insert_ite]

@[simp] theorem deleteDeadLetter_lookup (db : Db) (id x : UUID) :
    (db.deleteDeadLetter id).deadLetterQueue.lookup x
      = if x = id then none else db.deadLetterQueue.lookup x := by
  rw [Db.deleteDeadLetter, Table.lookup_erase_ite]

/-- The row that `executeJob` buries a job with. -/
def Exec.grave (e : Exec) (error : String) : DeadLetterEntry where
  originalJobId := some e.jobId
  queueId := some e.job.queueId
  payload := some e.job.payload
  failureReason := error
  attemptsMade := e.attemptNumber
  failureSummary := e.failureSummary error

/-- `DeadLetterChange cfg env x p old new`: the step of client `p` turns the entry
`x` from `old` into `new`. -/
inductive DeadLetterChange (cfg : Config) (env : Env) (x : UUID) :
    Proc → Option DeadLetterEntry → Option DeadLetterEntry → Prop
  | same (p : Proc) (o : Option DeadLetterEntry) : DeadLetterChange cfg env x p o o
  | buried (e : Exec) (error : String) (hpc : e.pc = .insertDeadLetter error) (hx : env.fresh = x)
      (hacc : (env.fails || e.overflows cfg) = false) :
      DeadLetterChange cfg env x (.exec e) none (some (e.grave error))
  | deleted (r : Replay) (row : Option (UUID × Job)) (old : Option DeadLetterEntry)
      (hpc : r.pc = .delete row) (hx : r.entryId = x) :
      DeadLetterChange cfg env x (.replay r) old none

section
variable {cfg : Config} {ctx : Ctx} {env : Env} {db db' : Db} {x : UUID}

/-- What a statement of `executeJob` does to one row of `dead_letter_queue`. -/
theorem Exec.step_deadLetters {e e' : Exec} (h : e.step cfg ctx env db = some (db', e')) :
    DeadLetterChange cfg env x (.exec e) (db.deadLetterQueue.lookup x)
      (db'.deadLetterQueue.lookup x) := by
  obtain ⟨hready, ⟨_, rfl, _⟩ | ⟨hacc, rfl, _⟩⟩ := Exec.step_cases h
  · exact .same _ _
  · cases hpc : e.pc <;> simp only [Exec.effect, hpc] <;> try exact .same _ _
    case insertDeadLetter error =>
      rw [insertDeadLetter_lookup]
      have hfresh : env.fresh ∉ db.deadLetterQueue := by
        simpa [Exec.ready, hpc] using hready
      by_cases hx : x = env.fresh
      · rw [if_pos hx, AList.lookup_eq_none.mpr (hx ▸ hfresh)]
        exact .buried e error hpc hx.symm hacc
      · rw [if_neg hx]
        exact .same _ _

/-- **Every statement of every client changes entries only as `DeadLetterChange` says.** -/
theorem Proc.step_deadLetters {p p' : Proc} (h : p.step cfg ctx env db = some (db', p')) :
    DeadLetterChange cfg env x p (db.deadLetterQueue.lookup x) (db'.deadLetterQueue.lookup x) := by
  cases Proc.stepped h with
  | claim c c' hq => cases Claim.stepped hq <;> exact .same _ _
  | exec e e' hq => exact Exec.step_deadLetters hq
  | submit r r' hq => cases Submit.stepped hq <;> exact .same _ _
  | retry r r' hq => cases Retry.stepped hq <;> exact .same _ _
  | replay r r' hq =>
      cases Replay.stepped hq with
      | deleted row hpc =>
          rw [deleteDeadLetter_lookup]
          by_cases hx : x = r.entryId
          · rw [if_pos hx]
            exact .deleted r row _ hpc hx.symm
          · rw [if_neg hx]
            exact .same _ _
      | _ => exact .same _ _
  | cancel r r' hq => cases Cancel.stepped hq <;> exact .same _ _
  | patch r r' hq => cases Patch.stepped hq <;> exact .same _ _
  | tick t t' hq =>
      obtain ⟨_, ⟨_, rfl, _⟩ | ⟨_, rfl, _⟩⟩ := Tick.step_cases hq
      · exact .same _ _
      · unfold Tick.effect
        split <;> first | exact .same _ _ | (split <;> exact .same _ _)

end

/-- What an action does to the entry `x`: nothing, or what the statement of the
client that moves does to it. -/
theorem step_entry {cfg : Config} {s s' : Sys} {a : Action} (h : step cfg s a = some s') (x : UUID) :
    s'.db.deadLetterQueue.lookup x = s.db.deadLetterQueue.lookup x ∨
    ∃ pid env p, a = .run pid env ∧ s.proc pid = some p ∧
      DeadLetterChange cfg env x p (s.db.deadLetterQueue.lookup x)
        (s'.db.deadLetterQueue.lookup x) := by
  cases stepped h with
  | wait ms => exact .inl rfl
  | start pid request hfree => exact .inl rfl
  | run pid env p p' db' hp hnow hstep =>
      exact .inr ⟨pid, env, p, rfl, hp, Proc.step_deadLetters hstep⟩

/-- The entry `x` is about job `j`. -/
def Db.Records (db : Db) (x j : UUID) : Prop :=
  ∃ entry, db.deadLetterQueue.lookup x = some entry ∧ entry.originalJobId = some j

/-- Foreign key `dead_letter_queue.original_job_id`. -/
def Db.EntriesRefer (db : Db) : Prop :=
  ∀ x entry j, db.deadLetterQueue.lookup x = some entry → entry.originalJobId = some j → j ∈ db.jobs

/-- The entries of a step refer to existing jobs. -/
theorem entriesRefer_step {cfg : Config} {s s' : Sys} {a : Action} (hD : Defined s)
    (hE : s.db.EntriesRefer) (h : step cfg s a = some s') : s'.db.EntriesRefer := by
  have hkeep : ∀ j, j ∈ s.db.jobs → j ∈ s'.db.jobs := by
    intro j hj
    obtain ⟨new, hnew⟩ := row_stays h (Option.isSome_iff_exists.mp (AList.lookup_isSome.mpr hj))
    exact AList.lookup_isSome.mp (by simp [hnew])
  intro x entry j hentry ho
  rcases step_entry h x with heq | ⟨pid, env, p, rfl, hp, hch⟩
  · exact hkeep j (hE x entry j (heq ▸ hentry) ho)
  · rw [hentry] at hch
    generalize hold : s.db.deadLetterQueue.lookup x = old at hch
    cases hch with
    | same => exact hkeep j (hE x entry j hold ho)
    | buried e error =>
        obtain ⟨row, hrow, _⟩ := hD pid e hp
        cases ho
        exact hkeep _ (AList.lookup_isSome.mp (by simp [hrow]))

/-- A call comes to the INSERT of the entry from the UPDATE of the job only. -/
theorem not_inserting_next (env : Env) {e : Exec} (db : Db) (h : ∀ error, e.pc ≠ .deadLetter error)
    (error : String) : (e.next env db).pc ≠ .insertDeadLetter error := by
  have hflow := e.flow env db
  generalize hpc : e.pc = pc at hflow
  generalize (e.next env db).pc = pc' at hflow ⊢
  cases hflow with
  | deadLettered error => exact absurd hpc (h error)
  | logged site => cases site <;> simp [Exec.afterLog]
  | _ => simp

theorem not_inserting_onThrow (message : String) (pc : ExecPc) (error : String) :
    Exec.onThrow message pc ≠ .insertDeadLetter error := by
  rcases onThrow_cases message pc with h | h | h | ⟨site, _, h⟩ <;> rw [h]
  · simp
  · simp
  · simp
  · cases site <;> simp [Exec.afterLog]

/-! ## §2. Retries and replays in flight. -/

section
variable {cfg : Config} {ctx : Ctx} {env : Env} {db db' : Db} {p : Proc}

theorem retry_of_step {r' : Retry} (h : p.step cfg ctx env db = some (db', .retry r')) :
    ∃ r, p = .retry r ∧ Retry.Stepped ctx env r db db' r' := by
  cases p <;> obtain ⟨⟨d, q⟩, hq, he⟩ := Option.map_eq_some_iff.mp h <;>
    simp only [Prod.mk.injEq, reduceCtorEq, and_false] at he
  case retry r => exact ⟨r, rfl, he.1 ▸ Proc.retry.inj he.2 ▸ Retry.stepped hq⟩
  case claim c =>
    unfold Claim.toProc at he
    split at he <;> simp at he

theorem replay_of_step {r' : Replay} (h : p.step cfg ctx env db = some (db', .replay r')) :
    ∃ r, p = .replay r ∧ Replay.Stepped ctx env r db db' r' := by
  cases p <;> obtain ⟨⟨d, q⟩, hq, he⟩ := Option.map_eq_some_iff.mp h <;>
    simp only [Prod.mk.injEq, reduceCtorEq, and_false] at he
  case replay r => exact ⟨r, rfl, he.1 ▸ Proc.replay.inj he.2 ▸ Replay.stepped hq⟩
  case claim c =>
    unfold Claim.toProc at he
    split at he <;> simp at he

end

section
variable {cfg : Config} {s s' : Sys} {a : Action} {k : Nat}

/-- The replays of the next state: an idle one, one that has just started, or the
one that took the step. -/
inductive ReplayOrigin (s s' : Sys) (a : Action) (k : Nat) (r' : Replay) : Prop
  | idle (hk : s.proc k = some (.replay r')) (hne : ∀ env, a ≠ .run k env)
  | started (hpc : r'.pc = .select)
  | stepped (env : Env) (r : Replay) (ha : a = .run k env) (hk : s.proc k = some (.replay r))
      (hs : Replay.Stepped s.ctx env r s.db s'.db r')

theorem replay_origin {r' : Replay} (h : step cfg s a = some s')
    (hk : s'.proc k = some (.replay r')) : ReplayOrigin s s' a k r' := by
  cases origin h hk with
  | idle hk₀ hne => exact .idle hk₀ hne
  | started request _ hp _ => cases request <;> cases hp; exact .started rfl
  | moved env p ha hk₀ hs =>
      obtain ⟨r, rfl, hr⟩ := replay_of_step hs
      exact .stepped env r ha hk₀ hr

/-- A replay idles or executes its next statement. -/
theorem replay_next {r : Replay} (h : step cfg s a = some s') (hk : s.proc k = some (.replay r)) :
    (s'.proc k = some (.replay r) ∧ ∀ env, a ≠ .run k env) ∨
      ∃ env r', a = .run k env ∧ s'.proc k = some (.replay r') ∧
        Replay.Stepped s.ctx env r s.db s'.db r' := by
  rcases proc_next h hk with hidle | ⟨env, p', ha, hk', hstep⟩
  · exact .inl hidle
  · obtain ⟨⟨d, r'⟩, hr, he⟩ := Option.map_eq_some_iff.mp hstep
    obtain ⟨rfl, rfl⟩ := Prod.mk.inj he
    exact .inr ⟨env, r', ha, hk', Replay.stepped hr⟩

/-- Where a retry request found after a step comes from: it was there, it has arrived, or it
moved. -/
inductive RetryOrigin (s s' : Sys) (a : Action) (k : Nat) (r' : Retry) : Prop
  | idle (hk : s.proc k = some (.retry r')) (hne : ∀ env, a ≠ .run k env)
  | started (hpc : r'.pc = .select)
  | stepped (env : Env) (r : Retry) (ha : a = .run k env) (hk : s.proc k = some (.retry r))
      (hs : Retry.Stepped s.ctx env r s.db s'.db r')

theorem retry_origin {r' : Retry} (h : step cfg s a = some s')
    (hk : s'.proc k = some (.retry r')) : RetryOrigin s s' a k r' := by
  cases origin h hk with
  | idle hk₀ hne => exact .idle hk₀ hne
  | started request _ hp _ => cases request <;> cases hp; exact .started rfl
  | moved env p ha hk₀ hs =>
      obtain ⟨r, rfl, hr⟩ := retry_of_step hs
      exact .stepped env r ha hk₀ hr

end

/-! ## §3. Stages that still write the job. -/

/-- The call may still write the status of its job. -/
def Stage.writing (g : Stage) : Prop := g ≠ .ended ∧ g ≠ .deadLettered

instance (g : Stage) : Decidable g.writing := inferInstanceAs (Decidable (_ ∧ _))

theorem Stage.relying_writing : Stage.Relying Stage.writing where
  claimed := by decide
  running := by decide
  completed := by decide
  caught := by decide
  ended := by decide

/-- A job whose row a call may still write is claimed, running or completed. -/
theorem Stage.writing_allows {g : Stage} {st : JobStatus} (hg : g.writing) (h : g.allows st) :
    st = .claimed ∨ st = .running ∨ st = .completed := by
  obtain ⟨hopen, hdead⟩ := hg
  cases g <;> simp only [Stage.allows, ne_eq, not_true_eq_false] at h hopen hdead
  case caught => exact .inr h
  all_goals subst h; simp

end JobScheduler
