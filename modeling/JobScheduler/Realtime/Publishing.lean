/-
  JobScheduler.Realtime.Publishing
  ────────────────────────────────
  `publishEvent` of `engine/events.ts` as the programs call it: an INSERT INTO
  system_events, then a SELECT pg_notify of the returned row.  No other statement
  of any program writes `system_events`.
-/
import JobScheduler.System.Service

namespace JobScheduler

open Relational

/-! ## §1. The two statements of a call. -/

/-- Where a client is inside `publishEvent`. -/
inductive PublishStatement
  | insert (ev : SystemEvent)
  | notify (ev : SystemEvent)

namespace Exec

/-- The `publishEvent` statement that an `executeJob` call sends next, if it is one. -/
def publishing (e : Exec) : Option PublishStatement :=
  match e.pc with
  | .publish site => some (.insert (site.event e))
  | .notify site => some (.notify (site.event e))
  | _ => none

end Exec

/-- The same of a submission. -/
def Submit.publishing (r : Submit) : Option PublishStatement :=
  match r.pc with
  | .publish ev => some (.insert ev)
  | .notify ev => some (.notify ev)
  | _ => none

/-- The same of a retry request. -/
def Retry.publishing (r : Retry) : Option PublishStatement :=
  match r.pc with
  | .publish (some row) => some (.insert ⟨.jobRetryRequested, .job, some r.jobId, .jobRow r.jobId row⟩)
  | .notify ev => some (.notify ev)
  | _ => none

/-- The same of a replay request. -/
def Replay.publishing (r : Replay) : Option PublishStatement :=
  match r.pc with
  | .publish (some (id, row)) => some (.insert ⟨.dlqReplayed, .job, some id, .jobRow id row⟩)
  | .notify ev => some (.notify ev)
  | _ => none

/-- The same of a batch cancellation. -/
def Cancel.publishing (r : Cancel) : Option PublishStatement :=
  match r.pc with
  | .publish batch => some (.insert (r.cancelledEvent batch))
  | .notify ev => some (.notify ev)
  | _ => none

/-- The same of a queue update. -/
def Patch.publishing (r : Patch) : Option PublishStatement :=
  match r.pc with
  | .publish row => some (.insert ⟨.queueUpdated, .queue, some r.queueId, .queueRow r.queueId row⟩)
  | .notify ev => some (.notify ev)
  | _ => none

/-- The same of a scheduler tick. -/
def Tick.publishing (t : Tick) : Option PublishStatement :=
  match t.pc with
  | .publishReleased count => some (.insert (releasedEvent count))
  | .notifyReleased count => some (.notify (releasedEvent count))
  | .publishDispatched id sj nextRun _ => some (.insert (dispatchedEvent id sj nextRun))
  | .notifyDispatched id sj nextRun _ => some (.notify (dispatchedEvent id sj nextRun))
  | _ => none

/-- The same of POST /projects/:projectId/queues. -/
def CreateQueue.publishing (r : CreateQueue) : Option PublishStatement :=
  match r.pc with
  | .publish queueId row => some (.insert (createdEvent queueId row))
  | .notify ev => some (.notify ev)
  | _ => none

/-- The `publishEvent` statement that a client sends next; a claim sends none. -/
def Proc.publishing : Proc → Option PublishStatement
  | .claim _ => none
  | .exec e => e.publishing
  | .submit r => r.publishing
  | .retry r => r.publishing
  | .replay r => r.publishing
  | .cancel r => r.publishing
  | .patch r => r.publishing
  | .tick t => t.publishing

/-- Of the account routes only the creation of a queue publishes. -/
def AccountCall.publishing : AccountCall → Option PublishStatement
  | .createQueue r => r.publishing
  | _ => none

/-! ## §2. What one statement persists. -/

/-- Nothing is persisted, or the event of the `publishEvent` call at which the
client is. -/
def Persists (db db' : Db) (call : Option PublishStatement) : Prop :=
  db'.systemEvents = db.systemEvents ∨
    ∃ ev, call = some (.insert ev) ∧ db'.systemEvents = db.systemEvents ++ [ev]

section
variable {cfg : Config} {ctx : Ctx} {env : Env} {db db' : Db}

/-- An `executeJob` statement inserts exactly the event that it publishes. -/
theorem Exec.step_persists {e e' : Exec} (h : e.step cfg ctx env db = some (db', e')) :
    Persists db db' e.publishing := by
  unfold Exec.step at h
  split at h
  · split at h
    · cases h
      exact .inl rfl
    · cases h
      unfold Exec.effect Exec.publishing
      cases e.pc with
      | publish site => exact .inr ⟨_, rfl, rfl⟩
      | _ => exact .inl rfl
  · cases h

theorem Submit.step_persists {r r' : Submit} (h : r.step cfg env db = some (db', r')) :
    Persists db db' r.publishing := by
  cases Submit.stepped h with
  | published ev hpc => exact .inr ⟨ev, by rw [Submit.publishing, hpc], rfl⟩
  | _ => exact .inl rfl

theorem Retry.step_persists {r r' : Retry} (h : r.step cfg ctx env db = some (db', r')) :
    Persists db db' r.publishing := by
  unfold Retry.publishing
  unfold Retry.step at h
  split at h <;> rename_i hpc <;> (repeat' split at h) <;> cases h <;> rw [hpc]
  all_goals first | exact .inl rfl | exact .inr ⟨_, rfl, rfl⟩

theorem Replay.step_persists {r r' : Replay} (h : r.step cfg ctx env db = some (db', r')) :
    Persists db db' r.publishing := by
  unfold Replay.publishing
  unfold Replay.step at h
  split at h <;> rename_i hpc <;> (repeat' split at h) <;> cases h <;> rw [hpc]
  all_goals first | exact .inl rfl | exact .inr ⟨_, rfl, rfl⟩

theorem Cancel.step_persists {r r' : Cancel} (h : r.step cfg ctx env db = some (db', r')) :
    Persists db db' r.publishing := by
  unfold Cancel.publishing
  unfold Cancel.step at h
  split at h <;> rename_i hpc <;> (repeat' split at h) <;> cases h <;> rw [hpc]
  all_goals first | exact .inl rfl | exact .inr ⟨_, rfl, rfl⟩

theorem Patch.step_persists {r r' : Patch} (h : r.step cfg ctx env db = some (db', r')) :
    Persists db db' r.publishing := by
  unfold Patch.publishing
  unfold Patch.step at h
  split at h <;> rename_i hpc <;> (repeat' split at h) <;> cases h <;> rw [hpc]
  all_goals first | exact .inl rfl | exact .inr ⟨_, rfl, rfl⟩

theorem Tick.step_persists {t t' : Tick} (h : t.step cfg ctx env db = some (db', t')) :
    Persists db db' t.publishing := by
  obtain ⟨_, ⟨_, rfl, _⟩ | ⟨_, rfl, _⟩⟩ := Tick.step_cases h
  · exact .inl rfl
  · unfold Tick.effect Tick.publishing
    cases t.pc with
    | publishReleased count => exact .inr ⟨_, rfl, rfl⟩
    | publishDispatched id sj nextRun rest => exact .inr ⟨_, rfl, rfl⟩
    | insertJob id sj rest =>
        dsimp only
        split <;> exact .inl rfl
    | _ => exact .inl rfl

/-- **Every statement of every client persists at most the event it publishes.** -/
theorem Proc.step_persists {p p' : Proc} (h : p.step cfg ctx env db = some (db', p')) :
    Persists db db' p.publishing := by
  cases Proc.stepped h with
  | claim c c' hq => cases Claim.stepped hq <;> exact .inl rfl
  | exec e e' hq => exact Exec.step_persists hq
  | submit r r' hq => exact Submit.step_persists hq
  | retry r r' hq => exact Retry.step_persists hq
  | replay r r' hq => exact Replay.step_persists hq
  | cancel r r' hq => exact Cancel.step_persists hq
  | patch r r' hq => exact Patch.step_persists hq
  | tick t t' hq => exact Tick.step_persists hq

variable {st st' : Store}

theorem insertFirstQueue_events (st : Store) (queueId projectId : UUID) (name : String) :
    (st.insertFirstQueue queueId projectId name).db.systemEvents = st.db.systemEvents := by
  unfold Store.insertFirstQueue
  split <;> rfl

theorem AccountCall.step_persists {a a' : AccountCall} (h : a.step cfg ctx env st = some (st', a')) :
    Persists st.db st'.db a.publishing := by
  cases AccountCall.stepped h with
  | createProject r r' hq =>
      unfold CreateProject.step at hq
      split at hq <;> (repeat' split at hq) <;> cases hq
      all_goals first | exact .inl rfl | exact .inl (insertFirstQueue_events _ _ _ _)
  | listProjects r r' hq =>
      unfold ListProjects.step at hq
      split at hq <;> (repeat' split at hq) <;> cases hq
      all_goals first | exact .inl rfl | exact .inl (insertFirstQueue_events _ _ _ _)
  | deleteProject r r' hq =>
      unfold DeleteProject.step at hq
      (repeat' split at hq) <;> cases hq <;> exact .inl rfl
  | addMember r r' hq =>
      unfold AddMember.step at hq
      split at hq <;> (repeat' split at hq) <;> cases hq <;> exact .inl rfl
  | createQueue r r' hq =>
      unfold publishing CreateQueue.publishing
      unfold CreateQueue.step at hq
      dsimp only
      split at hq <;> rename_i hpc <;> (repeat' split at hq) <;> cases hq <;> rw [hpc]
      all_goals first | exact .inl rfl | exact .inr ⟨_, rfl, rfl⟩

end

end JobScheduler
