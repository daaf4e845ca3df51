/-
  JobScheduler.Realtime.Deployment
  ────────────────────────────────
  Any number of API and worker processes on one service, and the `/ws` clients
  of the API processes.  Each request, tick and `executeJob` call runs in one
  process.

  `publishEvent` does three things: it inserts the row, hands it to the
  listeners of ITS OWN process (`emitLocalEvent`), and notifies the PostgreSQL
  channel.  `server.ts` subscribes the hub, so an API process has one listener
  and a worker process none; only workers LISTEN, and all they do with a
  notification is to poll early.

  What a process had sent before it exited may still be executed; the model lets
  all its calls go on, and none of them emits.
-/
import JobScheduler.Realtime.Publishing
import JobScheduler.Realtime.WebSocketHub
import JobScheduler.Tenancy.Entities

namespace JobScheduler

open Relational

/-! ## §1. State. -/

/-- The two entry points of the server package. -/
inductive ProcessKind
  /-- `server.ts`: the routes, the scheduler and the hub. -/
  | api
  /-- `worker.entrypoint.ts`. -/
  | worker
  deriving DecidableEq, Repr

/-- One operating-system process of the deployment. -/
structure Process where
  kind : ProcessKind
  alive : Bool

/-- A client of the service. -/
inductive Site
  | client (pid : Nat)
  | account (pid : Nat)
  deriving DecidableEq, Repr

/-- The INSERT of a `publishEvent` call has been executed and its row is not yet
handed to the listeners. -/
structure Emission where
  process : Nat
  id : Nat
  event : SystemEvent

/-- An event that `pg_notify` has on its way to one of the processes that LISTEN. -/
structure Notification where
  process : Nat
  event : SystemEvent

/-- The record of a `publishEvent` call: where it ran, and the organisation of the
row that the event describes. -/
structure Publication where
  process : Nat
  organization : Option UUID

/-- The service with its processes and the events that they emit. -/
structure Deployment where
  service : Service
  /-- `system_events.created_at`. -/
  createdAt : Nat → Timestamp
  processes : Table Nat Process
  /-- The process that each client runs in. -/
  hosts : Table Site Nat
  emissions : Table Site Emission
  sockets : Table Nat Socket
  notifications : List Notification
  /-- By serial id, the calls of `publishEvent` so far. -/
  published : Table Nat Publication
  /-- The organisation of each row, also of those that are gone. -/
  tenants : Entity → Option UUID

/-- The row that an event describes. -/
def SystemEvent.entity (ev : SystemEvent) : Option Entity :=
  match ev.entityType, ev.entityId with
  | .job, some id => some (.job id)
  | .batch, some id => some (.batch id)
  | .queue, some id => some (.queue id)
  | .scheduledJob, some id => some (.schedule id)
  | _, _ => none

/-! ## §2. Actions. -/

/-- What starts a client. -/
inductive Arrival
  | client (pid : Nat) (r : Request)
  | account (pid : Nat) (r : AccountRequest)

namespace Arrival

/-- Where the client of an arrival is found. -/
def site : Arrival → Site
  | .client pid _ => .client pid
  | .account pid _ => .account pid

/-- The processes it arrives at: workers claim, the rest is up to the API. -/
def kind : Arrival → ProcessKind
  | .client _ (.claim _ _ _) => .worker
  | _ => .api

/-- What an arrival does to the service. -/
def action : Arrival → ServiceAction
  | .client pid r => .act (.start pid r)
  | .account pid r => .request pid r

end Arrival

/-- The client executes its next statement. -/
def Site.statement (env : Env) : Site → ServiceAction
  | .client pid => .act (.run pid env)
  | .account pid => .serve pid env

/-- What can happen in a deployment. -/
inductive DeploymentAction
  | wait (ms : Nat)
  | boot (k : Nat) (kind : ProcessKind)
  | exit (k : Nat)
  | arrive (k : Nat) (a : Arrival)
  | statement (site : Site) (env : Env)
  /-- `emitLocalEvent`. -/
  | emit (site : Site) (throws : Finset Nat)
  /-- The `notification` handler of a worker runs. -/
  | notified (i : Nat)
  /-- A client asks process `k` for an upgrade. -/
  | connect (c k : Nat) (r : Upgrade)
  /-- The `close` or `error` handler of a socket runs. -/
  | close (c : Nat)
  | flush (c : Nat)

/-! ## §3. Steps. -/

/-- Where a client is inside `publishEvent`. -/
def Service.publishing (v : Service) : Site → Option PublishStatement
  | .client pid => (v.sys.proc pid).bind Proc.publishing
  | .account pid => (v.account pid).bind AccountCall.publishing

namespace Deployment

/-- The database of the deployment. -/
def db (d : Deployment) : Db := d.service.db

/-- The process has been started and has not exited. -/
def isAlive (d : Deployment) (k : Nat) : Bool := (d.processes.lookup k).any (fun p => p.alive)

/-- The process is running and its hub is subscribed to its events. -/
def hasHub (d : Deployment) (k : Nat) : Bool :=
  (d.processes.lookup k).any (fun p => p.alive && decide (p.kind = .api))

/-- The notifications of one pg_notify: each process that LISTENs gets one. -/
def announce (d : Deployment) (cfg : Config) (site : Site) (env : Env) : List Notification :=
  match d.service.publishing site with
  | some (.notify ev) =>
      if env.fails || !cfg.notifyAccepts ev then []
      else (d.processes.select (fun _ p => p.alive && decide (p.kind = .worker))).map (fun x => ⟨x.1, ev⟩)
  | _ => []

/-- The deployment after the service has become `v`. -/
def setService (d : Deployment) (v : Service) : Deployment :=
  { d with service := v, tenants := fun e => (v.db.orgOf e).or (d.tenants e) }

/-- A statement of `site`, in process `k`, has inserted `ev`. -/
def persist (d : Deployment) (k : Nat) (site : Site) (now : Timestamp) (id : Nat)
    (ev : SystemEvent) : Deployment :=
  { d with
    createdAt := Function.update d.createdAt id now
    published := d.published.insert id ⟨k, ev.entity.bind d.tenants⟩
    emissions := if d.isAlive k then d.emissions.insert site ⟨k, id, ev⟩ else d.emissions }

/-- A statement of `site`, in process `k`, has led to `v`. -/
def answered (d : Deployment) (cfg : Config) (k : Nat) (site : Site) (env : Env) (v : Service) :
    Deployment :=
  let d' := { d.setService v with notifications := d.notifications ++ d.announce cfg site env }
  let id := d.db.systemEvents.length
  match v.db.systemEvents[id]? with
  | none => d'
  | some ev => d'.persist k site env.now id ev

/-- `for (const listener of listeners) listener(event)`. -/
def emitLocalEvent (d : Deployment) (e : Emission) (throws : Finset Nat) : Table Nat Socket :=
  if d.hasHub e.process then broadcastRealtimeEvent e.process (.event e.id e.event) throws d.sockets
  else d.sockets

/-- The process is gone, and with it its sockets and whatever it had still to do. -/
def without (d : Deployment) (k : Nat) (p : Process) : Deployment :=
  { d with
    processes := d.processes.insert k { p with alive := false }
    emissions := d.emissions.delete (fun _ e => decide (e.process = k))
    sockets := d.sockets.delete (fun _ s => decide (s.process = k))
    notifications := d.notifications.filter (fun n => decide (n.process ≠ k)) }

/-- One action of the deployment; `none` where it cannot happen. -/
def step (cfg : Config) (d : Deployment) : DeploymentAction → Option Deployment
  | .wait ms => (d.service.step cfg (.act (.wait ms))).map d.setService
  | .boot k kind =>
      if k ∈ d.processes then none
      else some { d with processes := d.processes.insert k ⟨kind, true⟩ }
  | .exit k =>
      match d.processes.lookup k with
      | some p => if p.alive then some (d.without k p) else none
      | none => none
  | .arrive k a =>
      if (d.processes.lookup k).any (fun p => p.alive && decide (p.kind = a.kind)) then
        (d.service.step cfg a.action).map (fun v =>
          { d.setService v with hosts := d.hosts.insert a.site k })
      else none
  | .statement site env =>
      match d.hosts.lookup site with
      | none => none
      | some k =>
          -- the row is handed to the listeners before the call goes on
          if site ∈ d.emissions then none
          else (d.service.step cfg (site.statement env)).map (d.answered cfg k site env)
  | .emit site throws =>
      (d.emissions.lookup site).map (fun e =>
        { d with emissions := d.emissions.erase site, sockets := d.emitLocalEvent e throws })
  | .notified i =>
      if i < d.notifications.length then some { d with notifications := d.notifications.eraseIdx i }
      else none
  | .connect c k r =>
      if c ∈ d.sockets ∨ d.hasHub k = false then none
      else if r.accepted then
        some { d with sockets := d.sockets.insert c (r.socket k d.db.systemEvents.length d.sockets) }
      else some d
  | .close c => if c ∈ d.sockets then some { d with sockets := d.sockets.erase c } else none
  | .flush c =>
      ((d.sockets.lookup c).bind Socket.flush).map (fun s => { d with sockets := d.sockets.insert c s })

/-- No process, no connection, and any tables. -/
def atRest (clock : Timestamp) (db : Db) (directory : Directory) (createdAt : Nat → Timestamp) :
    Deployment where
  service := Service.atRest clock db directory
  createdAt := createdAt
  processes := ∅
  hosts := ∅
  emissions := ∅
  sockets := ∅
  notifications := []
  published := ∅
  tenants := db.orgOf

end Deployment

/-- Runs of the deployment. -/
abbrev DeploymentRun (cfg : Config) (d₀ : Deployment) (tr : List (Deployment × DeploymentAction))
    (d : Deployment) : Prop :=
  Transition.Run (Deployment.step cfg) d₀ tr d

/-! ## §4. What the service persists in a step. -/

namespace Service

variable {cfg : Config} {v v' : Service}

/-- A statement of the service inserts at most its own event. -/
theorem step_persists {site : Site} {env : Env} (h : v.step cfg (site.statement env) = some v') :
    Persists v.db v'.db (v.publishing site) := by
  cases site with
  | client pid =>
      cases Service.stepped h with
      | acted a s' _ hs =>
          cases JobScheduler.stepped hs with
          | run pid env p p' db' hp _ hstep =>
              rw [publishing, hp, Option.bind_some]
              exact Proc.step_persists hstep
  | account pid =>
      cases Service.stepped h with
      | served pid env a a' st' ha _ hs =>
          rw [publishing, ha, Option.bind_some]
          exact AccountCall.step_persists hs

theorem step_arrival_db {a : Arrival} (h : v.step cfg a.action = some v') : v'.db = v.db := by
  cases a with
  | client pid r =>
      cases Service.stepped h with
      | acted a s' _ hs =>
          cases JobScheduler.stepped hs with
          | start => rfl
  | account pid r =>
      cases Service.stepped h with
      | requested => rfl

theorem step_wait_db {ms : Nat} (h : v.step cfg (.act (.wait ms)) = some v') : v'.db = v.db := by
  cases Service.stepped h with
  | acted a s' _ hs =>
      cases JobScheduler.stepped hs with
      | wait => rfl

end Service

/-! ## §5. Inversion of one step. -/

namespace Deployment

variable {cfg : Config} {d d' : Deployment} {o : DeploymentAction}

/-- A statement of `site` that inserts no event. -/
def carryOn (d : Deployment) (cfg : Config) (site : Site) (env : Env) (v : Service) : Deployment :=
  { d.setService v with notifications := d.notifications ++ d.announce cfg site env }

/-- What a step can be, action by action. -/
inductive Stepped (cfg : Config) (d : Deployment) : DeploymentAction → Deployment → Prop
  | waited (ms : Nat) (v : Service) (hdb : v.db = d.db) : Stepped cfg d (.wait ms) (d.setService v)
  | booted (k : Nat) (kind : ProcessKind) (hk : d.processes.lookup k = none) :
      Stepped cfg d (.boot k kind) { d with processes := d.processes.insert k ⟨kind, true⟩ }
  | exited (k : Nat) (p : Process) : Stepped cfg d (.exit k) (d.without k p)
  | arrived (k : Nat) (a : Arrival) (v : Service) (hdb : v.db = d.db) :
      Stepped cfg d (.arrive k a) { d.setService v with hosts := d.hosts.insert a.site k }
  | carried (site : Site) (env : Env) (v : Service) (hs : d.service.step cfg (site.statement env) = some v)
      (hev : v.db.systemEvents = d.db.systemEvents) :
      Stepped cfg d (.statement site env) (d.carryOn cfg site env v)
  | published (site : Site) (env : Env) (k : Nat) (v : Service) (ev : SystemEvent)
      (hhost : d.hosts.lookup site = some k) (hfree : d.emissions.lookup site = none)
      (hs : d.service.step cfg (site.statement env) = some v)
      (hcall : d.service.publishing site = some (.insert ev))
      (hev : v.db.systemEvents = d.db.systemEvents ++ [ev]) :
      Stepped cfg d (.statement site env)
        ((d.carryOn cfg site env v).persist k site env.now d.db.systemEvents.length ev)
  | emitted (site : Site) (throws : Finset Nat) (e : Emission) (he : d.emissions.lookup site = some e) :
      Stepped cfg d (.emit site throws)
        { d with emissions := d.emissions.erase site, sockets := d.emitLocalEvent e throws }
  | notified (i : Nat) :
      Stepped cfg d (.notified i) { d with notifications := d.notifications.eraseIdx i }
  | connected (c k : Nat) (r : Upgrade) (hc : d.sockets.lookup c = none) (hk : d.hasHub k = true) :
      Stepped cfg d (.connect c k r)
        { d with sockets := d.sockets.insert c (r.socket k d.db.systemEvents.length d.sockets) }
  | refused (c k : Nat) (r : Upgrade) : Stepped cfg d (.connect c k r) d
  | closed (c : Nat) : Stepped cfg d (.close c) { d with sockets := d.sockets.erase c }
  | flushed (c : Nat) (s s' : Socket) (hs : d.sockets.lookup c = some s) (hf : s.flush = some s') :
      Stepped cfg d (.flush c) { d with sockets := d.sockets.insert c s' }

/-- The cases of a statement: it publishes, or it does not. -/
theorem stepped_statement {site : Site} {env : Env}
    (h : d.step cfg (.statement site env) = some d') : Stepped cfg d (.statement site env) d' := by
  simp only [step] at h
  cases hhost : d.hosts.lookup site with
  | none => simp [hhost] at h
  | some k =>
      simp only [hhost] at h
      split at h
      · cases h
      · rename_i hfree
        obtain ⟨v, hs, rfl⟩ := Option.map_eq_some_iff.mp h
        rcases Service.step_persists hs with hev | ⟨ev, hcall, hev⟩
        · have hnone : v.db.systemEvents[d.db.systemEvents.length]? = none := by
            rw [hev]
            exact List.getElem?_eq_none_iff.mpr (Nat.le_refl _)
          simp only [answered, hnone]
          exact .carried site env v hs hev
        · have hsome : v.db.systemEvents[d.db.systemEvents.length]? = some ev := by
            rw [hev]
            exact List.getElem?_concat_length
          simp only [answered, hsome]
          exact .published site env k v ev hhost (AList.lookup_eq_none.mpr hfree) hs hcall hev

theorem stepped (h : d.step cfg o = some d') : Stepped cfg d o d' := by
  cases o with
  | statement site env => exact stepped_statement h
  | wait ms =>
      simp only [step, Option.map_eq_some_iff] at h
      obtain ⟨v, hs, rfl⟩ := h
      exact .waited ms v (Service.step_wait_db hs)
  | boot k kind =>
      simp only [step] at h
      split at h <;> cases h
      exact .booted k kind (AList.lookup_eq_none.mpr ‹_›)
  | exit k =>
      simp only [step] at h
      (repeat' split at h) <;> cases h
      exact .exited k _
  | arrive k a =>
      simp only [step] at h
      split at h
      · obtain ⟨v, hs, rfl⟩ := Option.map_eq_some_iff.mp h
        exact .arrived k a v (Service.step_arrival_db hs)
      · cases h
  | emit site throws =>
      simp only [step, Option.map_eq_some_iff] at h
      obtain ⟨e, he, rfl⟩ := h
      exact .emitted site throws e he
  | notified i =>
      simp only [step] at h
      split at h <;> cases h
      exact .notified i
  | connect c k r =>
      simp only [step] at h
      split at h
      · cases h
      · rename_i hfree
        obtain ⟨hc, hk⟩ := not_or.mp hfree
        split at h <;> cases h
        · exact .connected c k r (AList.lookup_eq_none.mpr hc) (by simpa using hk)
        · exact .refused c k r
  | close c =>
      simp only [step] at h
      split at h <;> cases h
      exact .closed c
  | flush c =>
      simp only [step, Option.map_eq_some_iff, Option.bind_eq_some_iff] at h
      obtain ⟨s', ⟨s, hs, hf⟩, rfl⟩ := h
      exact .flushed c s s' hs hf

end Deployment

end JobScheduler
