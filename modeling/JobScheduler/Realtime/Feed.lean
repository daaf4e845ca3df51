/-
  JobScheduler.Realtime.Feed
  ──────────────────────────
  `system_events` against what happened.  A program writes a row first and publishes
  the event later, sometimes several statements later; in between other programs
  write and publish.  The events that the statements make due (`Proc.news`) are told
  or untold (`Proc.untold`): none is told that did not happen or told twice, and while no
  statement is rejected none gets lost.
-/
import Mathlib.Data.Multiset.OrderedMonoid
import JobScheduler.Batch.Progress
import JobScheduler.Library.Outbox
import JobScheduler.Scheduling.Order
import JobScheduler.Submission.Rows
import JobScheduler.System.Progress

namespace JobScheduler

open Relational Transition Outbox

/-! ## §1. The events that a call owes. -/

/-- The rows of `system_events`. -/
def Db.told (db : Db) : Multiset SystemEvent := db.systemEvents

@[simp] theorem Db.told_insertEvent (db : Db) (ev : SystemEvent) :
    (db.insertEvent ev).told = db.told + {ev} :=
  (Multiset.coe_add _ _).symm

/-- The event of a statement that has written its row. -/
def onRow (written : Prop) [Decidable written] (ev : SystemEvent) : Multiset SystemEvent :=
  if written then {ev} else 0

/-- The event of a row that RETURNING may have given. -/
def ofRow {ρ : Type} (ev : ρ → SystemEvent) (row : Option ρ) : Multiset SystemEvent :=
  row.elim 0 (fun r => {ev r})

@[simp] theorem ofRow_some {ρ : Type} (ev : ρ → SystemEvent) (r : ρ) :
    ofRow ev (some r) = {ev r} := rfl

/-- The `job.dependencies_satisfied` events of released rows. -/
def Exec.releasedEvents (e : Exec) (rows : List (UUID × Job)) : Multiset SystemEvent :=
  rows.map (fun job => (PublishSite.released job []).event e)

/-- The events that come after that of the site. -/
def PublishSite.later (e : Exec) : PublishSite → Multiset SystemEvent
  | .released _ rest => e.releasedEvents rest
  | _ => 0

/-- The events that a call at this `logJob` still owes. -/
def LogSite.untold (e : Exec) : LogSite → Multiset SystemEvent
  | .started | .attemptFailed _ => 0
  | .succeeded => {PublishSite.completed.event e}
  | .released job rest => e.releasedEvents (job :: rest)
  | .retryScheduled delay _ _ => {(PublishSite.retryScheduled delay).event e}
  | .movedToDlq error | .failureSummary error => {(PublishSite.deadLettered error).event e}

/-- The events that an `executeJob` call at this statement still owes: their writes are done,
their INSERTs into `system_events` are to come. -/
def ExecPc.untold (e : Exec) : ExecPc → Multiset SystemEvent
  | .publish site => {site.event e} + site.later e
  | .notify site => site.later e
  | .log site => site.untold e
  | .executionCompleted _ => {PublishSite.completed.event e}
  | .insertDeadLetter error => {(PublishSite.deadLettered error).event e}
  | _ => 0

/-- The events that an `executeJob` call still owes. -/
def Exec.untold (e : Exec) : Multiset SystemEvent := e.pc.untold e

/-- The event that a submission still owes. -/
def SubmitPc.untold : SubmitPc → Multiset SystemEvent
  | .publish ev => {ev}
  | _ => 0

/-- The `job.retry_requested` event with the row that the UPDATE returned. -/
def Retry.requestedEvent (r : Retry) (row : Job) : SystemEvent :=
  ⟨.jobRetryRequested, .job, some r.jobId, .jobRow r.jobId row⟩

/-- The event that a retry request still owes. -/
def Retry.untold (r : Retry) : Multiset SystemEvent :=
  match r.pc with
  | .log row | .publish row => ofRow r.requestedEvent row
  | _ => 0

/-- The `dlq.replayed` event with the row that was reset or inserted. -/
def replayedEvent (row : UUID × Job) : SystemEvent :=
  ⟨.dlqReplayed, .job, some row.1, .jobRow row.1 row.2⟩

/-- The event that a replay request still owes. -/
def Replay.untold (r : Replay) : Multiset SystemEvent :=
  match r.pc with
  | .log jobId row => ofRow (fun job => replayedEvent (jobId, job)) row
  | .delete row | .publish row => ofRow replayedEvent row
  | _ => 0

/-- The event that a batch cancellation still owes. -/
def Cancel.untold (r : Cancel) : Multiset SystemEvent :=
  match r.pc with
  | .updateJobs batch | .publish batch => {r.cancelledEvent batch}
  | _ => 0

/-- The `queue.updated` event with the row that the UPDATE returned. -/
def Patch.updatedEvent (r : Patch) (row : Queue) : SystemEvent :=
  ⟨.queueUpdated, .queue, some r.queueId, .queueRow r.queueId row⟩

/-- The event that a queue update still owes. -/
def Patch.untold (r : Patch) : Multiset SystemEvent :=
  match r.pc with
  | .publish row => {r.updatedEvent row}
  | _ => 0

/-- The event that a scheduler tick still owes. -/
def TickPc.untold : TickPc → Multiset SystemEvent
  | .publishReleased count => {Tick.releasedEvent count}
  | .publishDispatched id sj nextRun _ => {Tick.dispatchedEvent id sj nextRun}
  | _ => 0

/-- The events that a client still owes. -/
def Proc.untold : Proc → Multiset SystemEvent
  | .claim _ => 0
  | .exec e => e.untold
  | .submit r => r.pc.untold
  | .retry r => r.untold
  | .replay r => r.untold
  | .cancel r => r.untold
  | .patch r => r.untold
  | .tick t => t.pc.untold

/-- The events that `system_events` holds. -/
def Sys.told (s : Sys) : Multiset SystemEvent := s.db.told

/-- What all calls owe together. -/
def Sys.untold (s : Sys) : Multiset SystemEvent := s.clients.total (fun c => c.proc.untold)

/-! ## §2. The events that a statement makes due. -/

/-- What the statement of an `executeJob` call makes true that an event has to tell. -/
def Exec.news (env : Env) (db : Db) (e : Exec) : Multiset SystemEvent :=
  match e.pc with
  | .setRunning => onRow (e.jobId ∈ db.jobs) (PublishSite.running.event e)
  | .setCompleted _ => onRow (e.jobId ∈ db.jobs) (PublishSite.completed.event e)
  | .requeue delay _ _ => onRow (e.jobId ∈ db.jobs) ((PublishSite.retryScheduled delay).event e)
  | .deadLetter error => onRow (e.jobId ∈ db.jobs) ((PublishSite.deadLettered error).event e)
  | .unblock => e.releasedEvents (e.releasedRows env db)
  | .batchStatus result batch =>
      onRow (∃ B ∈ e.job.batchId, B ∈ db.batches)
        ((PublishSite.batchCompleted result { batch with status := finalStatus batch }).event e)
  | _ => 0

/-- `createdEvent` is due when the last row of the request is in. -/
def Submit.news (cfg : Config) (env : Env) (db : Db) (r : Submit) : Multiset SystemEvent :=
  if r.rejects cfg env db then 0
  else
    match r.pc with
    | .insertBatch =>
        onRow (r.body.batchJobs = [])
          { r with batch := some (env.fresh, r.batchRow env.now) }.createdEvent
    | .insertJob item rest =>
        onRow (r.body.dependsOn = [] ∧ rest = [])
          { r with created := r.created ++ [(env.fresh, r.row env.now item)] }.createdEvent
    | .attach _ _ todo rest => onRow (todo = [] ∧ rest = []) r.createdEvent
    | .insertSchedule =>
        {⟨.scheduleCreated, .scheduledJob, some env.fresh,
          .scheduleRow env.fresh (r.schedule cfg env.now)⟩}
    | _ => 0

/-- What the statement of a retry request makes true that an event has to tell. -/
def Retry.news (env : Env) (db : Db) (r : Retry) : Multiset SystemEvent :=
  match r.pc with
  | .update => ofRow (fun job => r.requestedEvent (job.reset env.now)) (db.jobs.lookup r.jobId)
  | _ => 0

/-- What the statement of a replay request makes true that an event has to tell. -/
def Replay.news (env : Env) (db : Db) (r : Replay) : Multiset SystemEvent :=
  match r.pc with
  | .update jobId =>
      ofRow (fun job => replayedEvent (jobId, job.reset env.now)) (db.jobs.lookup jobId)
  | .insert queueId payload =>
      ofRow (fun q => replayedEvent (env.fresh, Replay.replayedRow env.now queueId payload q))
        (db.queues.lookup queueId)
  | _ => 0

/-- What the statement of a batch cancellation makes true that an event has to tell. -/
def Cancel.news (env : Env) (db : Db) (r : Cancel) : Multiset SystemEvent :=
  match r.pc with
  | .updateBatch =>
      ofRow (fun batch => r.cancelledEvent (some (Cancel.cancelledBatch env.now batch)))
        (db.batches.lookup r.batchId)
  | _ => 0

/-- What the statement of a queue update makes true that an event has to tell. -/
def Patch.news (db : Db) (r : Patch) : Multiset SystemEvent :=
  match r.pc with
  | .update =>
      if r.updates.isEmpty || !db.canOperate r.queueId r.userId then 0
      else ofRow (fun q => r.updatedEvent (r.updates.apply q)) (db.queues.lookup r.queueId)
  | _ => 0

/-- What the statement of a tick makes true that an event has to tell. -/
def Tick.news (env : Env) (db : Db) (t : Tick) : Multiset SystemEvent :=
  match t.pc with
  | .flip =>
      let count := db.jobs.count (flips env.now)
      onRow (0 < count) (releasedEvent count)
  | .advance id sj nextRun _ => onRow (id ∈ db.scheduledJobs) (dispatchedEvent id sj nextRun)
  | _ => 0

/-- What a client's next statement makes true that an event has to tell. -/
def Proc.news (cfg : Config) (env : Env) (db : Db) : Proc → Multiset SystemEvent
  | .claim _ => 0
  | .exec e => e.news env db
  | .submit r => r.news cfg env db
  | .retry r => r.news env db
  | .replay r => r.news env db
  | .cancel r => r.news env db
  | .patch r => r.news db
  | .tick t => t.news env db

/-- A failing statement makes nothing due. -/
def Action.news (cfg : Config) (s : Sys) : Action → Multiset SystemEvent
  | .run pid env => if env.fails then 0 else (s.proc pid).elim 0 (Proc.news cfg env s.db)
  | _ => 0

/-- From one statement to the next, what is told and untold grows by the news at most,
and by the news if the statement is not rejected. -/
structure Balanced (db db' : Db) (before after news : Multiset SystemEvent) (rejected : Bool) :
    Prop where
  le : db'.told + after ≤ db.told + before + news
  eq : rejected = false → db'.told + after = db.told + before + news

/-- Equality of both sides is a balance. -/
theorem Balanced.of_eq {db db' : Db} {before after news : Multiset SystemEvent} {rejected : Bool}
    (h : db'.told + after = db.told + before + news) : Balanced db db' before after news rejected :=
  ⟨h.le, fun _ => h⟩

/-- Nothing is written that an event tells of, and nothing is published. -/
theorem Balanced.quiet {db db' : Db} {untold : Multiset SystemEvent} {rejected : Bool}
    (h : db'.told = db.told) : Balanced db db' untold untold 0 rejected :=
  .of_eq (by rw [h, add_zero])

/-- What is written is still untold. -/
theorem Balanced.written {db db' : Db} {news : Multiset SystemEvent} {rejected : Bool}
    (h : db'.told = db.told) : Balanced db db' 0 news news rejected :=
  .of_eq (by rw [h, add_zero])

/-- The event that was untold is published. -/
theorem Balanced.published (db : Db) (ev : SystemEvent) (rejected : Bool) :
    Balanced db (db.insertEvent ev) {ev} 0 0 rejected :=
  .of_eq (by rw [Db.told_insertEvent])

section
variable {cfg : Config} {ctx : Ctx} {env : Env} {db db' : Db}

end

/-! ## §4. The rows that the events tell of. -/

section
variable {cfg : Config} {ctx : Ctx} {env : Env} {db db' : Db}

section
variable {s s' : Sys} {a : Action}

end

end

/-! ## §5. The account of the system. -/

section
variable {cfg : Config} {s s' : Sys} {a : Action}

end

end JobScheduler
