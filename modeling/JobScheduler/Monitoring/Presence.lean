/-
  JobScheduler.Monitoring.Presence
  ────────────────────────────────
  The `workers` and `worker_heartbeats` tables: the INSERT of `start`, the
  callbacks of `startHeartbeat` and the last UPDATE of `gracefulShutdown` in
  `engine/worker.ts`, on top of the fleet, and the two endpoints of
  `workers.routes.ts` that read the tables.

  Each firing of the interval is a callback of its own.  A callback that has sent
  its UPDATE does not keep the next one from firing, the two run on different
  connections, and a statement that was sent is executed even after the process
  has exited.
-/
import JobScheduler.Routes.Reads
import JobScheduler.System.Fleet

namespace JobScheduler

open Relational

/-! ## §1. The tables. -/

/-- `workers.status`. -/
inductive WorkerStatus
  | idle | busy | offline
  deriving DecidableEq, Repr

/-- A row of `workers`. -/
structure WorkerRow where
  status : WorkerStatus
  lastHeartbeatAt : Option Timestamp
  startedAt : Timestamp

/-- A row of `worker_heartbeats`. -/
structure WorkerHeartbeat where
  workerId : UUID
  heartbeatAt : Timestamp
  activeJobCount : Nat

/-! ## §2. The heartbeat of one process. -/

/-- Where a callback of the interval stands. -/
inductive Beat
  /-- `await` of the UPDATE, sent at `sentAt`. -/
  | updating (sentAt : Timestamp) (status : WorkerStatus)
  /-- The UPDATE has been executed; the callback has not resumed. -/
  | updated
  /-- `await` of the INSERT. -/
  | inserting (sentAt : Timestamp) (activeJobCount : Nat)
  deriving DecidableEq

/-- The heartbeat timer of one worker process and its statements under way. -/
structure Pulse where
  /-- `heartbeatTimer !== null`. -/
  armed : Bool := true
  /-- When the process last sent an INSERT or UPDATE of its row. -/
  lastSent : Timestamp
  beats : List Beat := []
  /-- The UPDATE of `gracefulShutdown` was sent at this time and is under way. -/
  mark : Option Timestamp := none

/-- What the heartbeat code of one process reacts to. -/
inductive PulseEvent
  /-- The interval fires. -/
  | tick
  /-- The UPDATE of a callback is executed, or is rejected. -/
  | updated (sentAt : Timestamp) (status : WorkerStatus) (now : Timestamp) (fails : Bool)
  | resumed
  | inserted (sentAt : Timestamp) (activeJobCount : Nat) (now : Timestamp) (fails : Bool)
  /-- The UPDATE of `gracefulShutdown` is executed, or is rejected. -/
  | marked (now : Timestamp) (fails : Bool)

/-- What a statement of a process writes. -/
inductive Written
  | nothing
  | row (status : WorkerStatus) (lastHeartbeatAt : Timestamp)
  | heartbeat (heartbeatAt : Timestamp) (activeJobCount : Nat)

namespace Pulse

/-- `this.inFlight > 0 ? 'busy' : 'idle'`. -/
def statusOf (w : Worker) : WorkerStatus := if 0 < w.inFlight then .busy else .idle

/-- One event of the heartbeat code, with what it writes. -/
def react (clock : Timestamp) (w : Worker) (p : Pulse) : PulseEvent → Option (Pulse × Written)
  | .tick =>
      if p.armed then
        some ({ p with lastSent := clock, beats := .updating clock (statusOf w) :: p.beats }, .nothing)
      else none
  | .updated sentAt status now fails =>
      if .updating sentAt status ∈ p.beats ∧ sentAt ≤ now ∧ now ≤ clock then
        let rest := p.beats.erase (.updating sentAt status)
        -- a rejection ends the callback in its `catch`
        some (if fails then ({ p with beats := rest }, .nothing)
          else ({ p with beats := .updated :: rest }, .row status now))
      else none
  | .resumed =>
      if .updated ∈ p.beats ∧ w.hasExited = false then
        some ({ p with beats := .inserting clock w.inFlight :: p.beats.erase .updated }, .nothing)
      else none
  | .inserted sentAt count now fails =>
      if .inserting sentAt count ∈ p.beats ∧ sentAt ≤ now ∧ now ≤ clock then
        some ({ p with beats := p.beats.erase (.inserting sentAt count) },
          if fails then .nothing else .heartbeat now count)
      else none
  | .marked now fails =>
      match p.mark with
      | none => none
      | some sentAt =>
          if sentAt ≤ now ∧ now ≤ clock then
            some ({ p with mark := none }, if fails then .nothing else .row .offline now)
          else none

end Pulse

/-- `gracefulShutdown` awaits the UPDATE that marks the worker offline. -/
def Worker.isMarking (w : Worker) : Bool :=
  match w.shutdown with
  | .marking _ => true
  | _ => false

/-- The heartbeat when the process has turned from `w` to `w'`: `gracefulShutdown`
clears the interval first and sends its UPDATE last. -/
def Pulse.follow (clock : Timestamp) (w w' : Worker) (p : Pulse) : Pulse :=
  let p := { p with armed := p.armed && !w'.shuttingDown }
  if w'.isMarking && !w.isMarking then { p with mark := some clock, lastSent := clock } else p

/-! ## §3. All processes. -/

/-- The fleet with the rows of `workers`, the heartbeats and every process's timer. -/
structure Presence where
  fleet : Fleet
  rows : Table UUID WorkerRow
  heartbeats : List WorkerHeartbeat
  pulses : Table Nat Pulse

/-- A step of the fleet, or an event of one process's heartbeat code. -/
inductive PresenceAction
  | fleet (o : FleetAction)
  | pulse (k : Nat) (ev : PulseEvent)

namespace Presence

/-- The clock of the system that the fleet works on. -/
def clock (r : Presence) : Timestamp := r.fleet.sys.clock

/-- Store the timer of one process. -/
def setPulse (r : Presence) (k : Nat) (p : Pulse) : Presence :=
  { r with pulses := r.pulses.insert k p }

/-- Execute what a heartbeat statement writes on the row of the worker `id`. -/
def write (r : Presence) (id : UUID) : Written → Presence
  | .nothing => r
  | .row status at_ =>
      { r with
        rows := r.rows.update (fun i _ => decide (i = id))
          (fun row => { row with status := status, lastHeartbeatAt := some at_ }) }
  | .heartbeat at_ count => { r with heartbeats := r.heartbeats ++ [⟨id, at_, count⟩] }

/-- The INSERT of `start`, and the interval that it sets. -/
def enrol (r : Presence) (k : Nat) (id : UUID) : Presence :=
  { r with
    rows := r.rows.insert id ⟨.idle, some r.clock, r.clock⟩
    pulses := r.pulses.insert k { lastSent := r.clock } }

/-- One action of the fleet with its heartbeats. -/
def step (cfg : Config) (r : Presence) : PresenceAction → Option Presence
  | .fleet o =>
      match r.fleet.step cfg o with
      | none => none
      | some f =>
          match o with
          | .act _ => some { r with fleet := f }
          | .register k id _ => some { r.enrol k id with fleet := f }
          | .event k _ =>
              match r.pulses.lookup k, r.fleet.workers.lookup k, f.workers.lookup k with
              | some p, some w, some w' =>
                  some { r.setPulse k (p.follow r.clock w w') with fleet := f }
              | _, _, _ => none
  | .pulse k ev =>
      match r.pulses.lookup k, r.fleet.workers.lookup k with
      | some p, some w =>
          (p.react r.clock w ev).map (fun q => (r.setPulse k q.1).write w.workerId q.2)
      | _, _ => none

/-- No process; `rows` and `heartbeats` are the workers of the past. -/
def atRest (clock : Timestamp) (db : Db) (rows : Table UUID WorkerRow)
    (heartbeats : List WorkerHeartbeat) : Presence :=
  ⟨Fleet.atRest clock db rows.keys.toFinset, rows, heartbeats, ∅⟩

end Presence

/-- A run of the fleet with its heartbeats. -/
abbrev PresenceRun (cfg : Config) (r₀ : Presence) (tr : List (Presence × PresenceAction))
    (r : Presence) : Prop :=
  Transition.Run (Presence.step cfg) r₀ tr r

/-! ## §4. The endpoints. -/

/-- `effective_status` of the worker list. -/
inductive EffectiveStatus
  | idle | busy | offline | stale
  deriving DecidableEq, Repr

/-- The stored status as an effective one. -/
def WorkerStatus.effective : WorkerStatus → EffectiveStatus
  | .idle => .idle
  | .busy => .busy
  | .offline => .offline

/-- `CASE WHEN w.status = 'offline' ... END`: a worker without a heartbeat is not stale. -/
def WorkerRow.effectiveStatus (staleThresholdMs now : Int) (row : WorkerRow) : EffectiveStatus :=
  if row.status = .offline then .offline
  else if row.lastHeartbeatAt.any (fun t => decide (t < now - staleThresholdMs)) then .stale
  else row.status.effective

/-- One element of the answer of GET /workers. -/
structure WorkerView where
  id : UUID
  row : WorkerRow
  effectiveStatus : EffectiveStatus
  activeJobs : Nat

namespace Presence

/-- `SELECT COUNT(*) FROM jobs j WHERE j.worker_id = w.id AND j.status IN ('claimed', 'running')`. -/
def activeJobs (r : Presence) (id : UUID) : Nat :=
  r.fleet.sys.db.jobs.count (fun _ j => decide (j.workerId = some id) && j.status.active)

/-- The element of the answer for one row. -/
def workerView (r : Presence) (staleThresholdMs : Int) (x : UUID × WorkerRow) : WorkerView where
  id := x.1
  row := x.2
  effectiveStatus := x.2.effectiveStatus staleThresholdMs r.clock
  activeJobs := r.activeJobs x.1

/-- `ORDER BY w.started_at DESC`. -/
def workersOrder (a b : WorkerView) : Bool := decide (b.row.startedAt ≤ a.row.startedAt)

/-- GET /workers. -/
def Workers (r : Presence) (staleThresholdMs : Int) (q : PageQuery) (reply : Page WorkerView) : Prop :=
  ∃ l, OrderedBy workersOrder
      ((r.rows.select (fun _ _ => true)).map (r.workerView staleThresholdMs)) l ∧
    reply = q.parse.paginated l

/-- `ORDER BY heartbeat_at DESC`. -/
def heartbeatsOrder (a b : WorkerHeartbeat) : Bool := decide (b.heartbeatAt ≤ a.heartbeatAt)

/-- GET /workers/:id/heartbeats. -/
def Heartbeats (r : Presence) (id : UUID) (q : PageQuery) (reply : Page WorkerHeartbeat) : Prop :=
  ∃ l, OrderedBy heartbeatsOrder (r.heartbeats.filter (fun h => decide (h.workerId = id))) l ∧
    reply = q.parse.paginated l

/-- A listed worker is a row with its status and count. -/
theorem Workers.mem {r : Presence} {staleThresholdMs : Int} {q : PageQuery} {reply : Page WorkerView}
    {v : WorkerView} (h : r.Workers staleThresholdMs q reply) (hv : v ∈ reply.data) :
    r.rows.lookup v.id = some v.row ∧
      v.effectiveStatus = v.row.effectiveStatus staleThresholdMs r.clock ∧
      v.activeJobs = r.activeJobs v.id := by
  obtain ⟨l, hl, rfl⟩ := h
  have hmem := hl.perm.mem_iff.mp (List.mem_of_mem_drop (List.mem_of_mem_take hv))
  obtain ⟨⟨id, row⟩, hrow, rfl⟩ := List.mem_map.mp hmem
  exact ⟨((r.rows.mem_select_iff _ id row).mp hrow).1, rfl, rfl⟩

/-- A listed heartbeat is a row of that worker. -/
theorem Heartbeats.mem {r : Presence} {id : UUID} {q : PageQuery} {reply : Page WorkerHeartbeat}
    {h : WorkerHeartbeat} (hr : r.Heartbeats id q reply) (hh : h ∈ reply.data) :
    h ∈ r.heartbeats ∧ h.workerId = id := by
  obtain ⟨l, hl, rfl⟩ := hr
  have hmem := hl.perm.mem_iff.mp (List.mem_of_mem_drop (List.mem_of_mem_take hh))
  simpa using List.mem_filter.mp hmem

end Presence

/-! ## §5. Inversion of one step. -/

namespace Presence

variable {cfg : Config} {r r' : Presence} {o : PresenceAction}

/-- What a step can be, action by action. -/
inductive Stepped (cfg : Config) (r : Presence) : PresenceAction → Presence → Prop
  | acted (a : Action) (s' : Sys) (hs : JobScheduler.step cfg r.fleet.sys a = some s')
      (f : Fleet) (hf : r.fleet.step cfg (.act a) = some f) (hsys : f.sys = s')
      (hw : f.workers = r.fleet.workers) : Stepped cfg r (.fleet (.act a)) { r with fleet := f }
  | registered (k : Nat) (id : UUID) (settings : WorkerSettings) (f : Fleet)
      (hk : r.fleet.workers.lookup k = none) (hid : id ∉ r.fleet.registered)
      (hf : r.fleet.step cfg (.register k id settings) = some f)
      (hw : f.workers = r.fleet.workers.insert k { workerId := id, settings := settings })
      (hclock : f.sys.clock = r.clock) :
      Stepped cfg r (.fleet (.register k id settings)) { r.enrol k id with fleet := f }
  | turned (k : Nat) (ev : WorkerEvent) (p : Pulse) (w w' : Worker) (n : Option Nat) (f : Fleet)
      (hp : r.pulses.lookup k = some p) (hk : r.fleet.workers.lookup k = some w)
      (hev : w.step r.fleet.sys ev = some (w', n)) (hf : r.fleet.step cfg (.event k ev) = some f)
      (hw : f.workers = r.fleet.workers.insert k w') (hclock : f.sys.clock = r.clock) :
      Stepped cfg r (.fleet (.event k ev)) { r.setPulse k (p.follow r.clock w w') with fleet := f }
  | beaten (k : Nat) (ev : PulseEvent) (p p' : Pulse) (w : Worker) (out : Written)
      (hp : r.pulses.lookup k = some p) (hk : r.fleet.workers.lookup k = some w)
      (hev : p.react r.clock w ev = some (p', out)) :
      Stepped cfg r (.pulse k ev) ((r.setPulse k p').write w.workerId out)

theorem stepped (h : r.step cfg o = some r') : Stepped cfg r o r' := by
  cases o with
  | fleet o =>
      simp only [step] at h
      cases hf : r.fleet.step cfg o with
      | none => simp [hf] at h
      | some f =>
          simp only [hf] at h
          cases Fleet.stepped hf with
          | acted a s' _ hs =>
              obtain rfl := Option.some.inj h
              exact .acted a s' hs _ hf rfl rfl
          | registered k id settings hk hid =>
              obtain rfl := Option.some.inj h
              exact .registered k id settings _ hk hid hf rfl rfl
          | turned k ev w w' hk hev =>
              simp only [hk, Fleet.setWorker_lookup, ite_true] at h
              split at h
              · rename_i p v v' hp hv hv'
                cases hv
                cases hv'
                obtain rfl := Option.some.inj h
                exact .turned k ev p w w' none _ hp hk hev hf rfl rfl
              · cases h
          | polled k ev w w' next s' hk hev hs =>
              have hlookup :
                  ({ r.fleet.setWorker k w' with sys := s' } : Fleet).workers.lookup k = some w' := by
                simp [Fleet.setWorker_lookup]
              have hclock : s'.clock = r.clock := by
                cases JobScheduler.stepped hs with
                | start => rfl
              simp only [hk, hlookup] at h
              split at h
              · rename_i p v v' hp hv hv'
                cases hv
                cases hv'
                obtain rfl := Option.some.inj h
                exact .turned k ev p w w' (some next) _ hp hk hev hf rfl hclock
              · cases h
  | pulse k ev =>
      simp only [step] at h
      split at h
      · rename_i p w hp hk
        obtain ⟨⟨p', out⟩, hev, rfl⟩ := Option.map_eq_some_iff.mp h
        exact .beaten k ev p p' w out hp hk hev
      · cases h

end Presence

end JobScheduler
