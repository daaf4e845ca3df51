/-
  JobScheduler.Routes.Events
  ──────────────────────────
  GET /events of `modules/events/events.routes.ts`, behind `authMiddleware`: the
  one list endpoint whose query joins nothing to `organization_members`.
-/
import JobScheduler.Routes.Reads

namespace JobScheduler

open Relational

/-! ## §1. `authMiddleware`. -/

/-- The `Authorization` header, after `jwt.verify`. -/
inductive Authorization
  /-- Absent, or not a Bearer token. -/
  | missing
  /-- The token does not verify. -/
  | invalid
  | verified (userId : UUID)

/-- `authMiddleware`: `req.user.id`, or the reply. -/
def authMiddleware (directory : Directory) : Authorization → Except AppError UUID
  | .missing => .error ⟨401, "UNAUTHORIZED", "Missing or invalid authorization header"⟩
  | .invalid => .error ⟨401, "UNAUTHORIZED", "Invalid or expired token"⟩
  | .verified userId =>
      if userId ∈ directory.users then .ok userId
      else .error ⟨401, "UNAUTHORIZED", "User session expired or user no longer exists"⟩

/-! ## §2. The rows. -/

/-- The `event_type` column. -/
def EventType.name : EventType → String
  | .jobCreated => "job.created"
  | .jobRunning => "job.running"
  | .jobCompleted => "job.completed"
  | .jobRetryScheduled => "job.retry_scheduled"
  | .jobDeadLettered => "job.dead_lettered"
  | .jobDependenciesSatisfied => "job.dependencies_satisfied"
  | .jobRetryRequested => "job.retry_requested"
  | .dlqReplayed => "dlq.replayed"
  | .batchCreated => "batch.created"
  | .batchCompleted => "batch.completed"
  | .batchCancelled => "batch.cancelled"
  | .scheduleCreated => "schedule.created"
  | .scheduleDispatched => "schedule.dispatched"
  | .schedulerJobsReleased => "scheduler.jobs_released"
  | .queueCreated => "queue.created"
  | .queueUpdated => "queue.updated"

/-- `SELECT *`. -/
structure EventView where
  id : Nat
  row : SystemEvent
  createdAt : Timestamp

/-- One request GET /events. -/
structure EventsRequest where
  authorization : Authorization
  page : PageQuery
  eventType : Option String

/-- The answer of GET /events. -/
inductive EventsReply
  | events (page : Page EventView)
  | failure (err : AppError)

namespace EventsRequest

/-- `if (eventType)`: the empty string filters nothing. -/
def admits (r : EventsRequest) (row : EventView) : Bool :=
  r.eventType.all (fun t => t.isEmpty || decide (row.row.eventType.name = t))

/-- The rows of the query; `createdAt` is the column `created_at`. -/
def rows (r : EventsRequest) (createdAt : Nat → Timestamp) (db : Db) : List EventView :=
  (db.systemEvents.zipIdx.map (fun x => (⟨x.2, x.1, createdAt x.2⟩ : EventView))).filter r.admits

/-- `ORDER BY created_at DESC`. -/
def order (a b : EventView) : Bool := decide (b.createdAt ≤ a.createdAt)

/-- `reply` is a possible reply in this state. -/
def Replies (r : EventsRequest) (createdAt : Nat → Timestamp) (st : Store) (reply : EventsReply) : Prop :=
  match authMiddleware st.directory r.authorization with
  | .error err => reply = .failure err
  | .ok _ => ∃ l, OrderedBy order (r.rows createdAt st.db) l ∧ reply = .events (r.page.parse.paginated l)

/-! ## §3. What a reply lists. -/

variable {r : EventsRequest} {createdAt : Nat → Timestamp} {st : Store}

/-- A page comes from a registered user's request. -/
theorem registered_of_replies {page : Page EventView} (h : r.Replies createdAt st (.events page)) :
    ∃ userId, r.authorization = .verified userId ∧ userId ∈ st.directory.users := by
  unfold Replies authMiddleware at h
  split at h
  · cases h
  · rename_i hok
    split at hok
    · cases hok
    · cases hok
    · rename_i userId hauth
      split at hok
      · exact ⟨userId, hauth, ‹_›⟩
      · cases hok

/-- The request without a filter. -/
def unfiltered (userId : UUID) (page : PageQuery) : EventsRequest := ⟨.verified userId, page, none⟩

/-- Every registered user can read every event. -/
theorem exists_reply_listing (createdAt : Nat → Timestamp) (st : Store) (userId : UUID) (id : Nat)
    {ev : SystemEvent} (hu : userId ∈ st.directory.users) (hev : st.db.systemEvents[id]? = some ev) :
    ∃ q page, (unfiltered userId q).Replies createdAt st (.events page) ∧
      ⟨id, ev, createdAt id⟩ ∈ page.data := by
  -- the rows do not depend on the page
  let rows := (unfiltered userId ⟨none, none⟩).rows createdAt st.db
  have hord : OrderedBy order rows (rows.mergeSort order) := by
    refine orderedBy_mergeSort rows (fun a b c => ?_) (fun a b => ?_) <;>
      simp only [order, Bool.or_eq_true, decide_eq_true_eq] <;> grind
  have hmem : (⟨id, ev, createdAt id⟩ : EventView) ∈ rows :=
    List.mem_filter.mpr ⟨List.mem_map.mpr ⟨(ev, id), List.mem_zipIdx_iff_getElem?.mpr hev, rfl⟩, rfl⟩
  obtain ⟨q, hq⟩ := exists_page (hord.perm.mem_iff.mpr hmem)
  have hauth : authMiddleware st.directory (unfiltered userId q).authorization = .ok userId := if_pos hu
  refine ⟨q, _, ?_, hq⟩
  unfold Replies
  rw [hauth]
  exact ⟨_, hord, rfl⟩

end EventsRequest

end JobScheduler
