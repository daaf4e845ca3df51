/-
  JobScheduler.System.Fleet
  ─────────────────────────
  Any number of worker processes on one system.  A process registers itself
  under a new worker id, starts its claims itself, and lets the calls it has
  made run; a call that waits in its limiter does not run.  The other clients
  move as in `System.State`.

  A process that has exited executes nothing more.  What the database server
  had already received of it is still carried out: one statement of each call,
  and a transaction left open is rolled back.
-/
import JobScheduler.Engine.Worker

namespace JobScheduler

open Relational

/-! ## §1. Which clients a process lets run. -/

namespace Worker

/-- The client is a call of this process that has not settled. -/
def Calls (w : Worker) (pid : Nat) : Prop :=
  w.poll = .claiming pid ∨ pid ∈ w.executing ∨ pid ∈ w.queue

/-- `pid` is the claim that `pollLoop` awaits. -/
def awaits (w : Worker) (pid : Nat) : Bool :=
  match w.poll with
  | .claiming p => decide (p = pid)
  | _ => false

/-- The process has called `process.exit`. -/
def hasExited (w : Worker) : Bool :=
  match w.shutdown with
  | .exited _ _ => true
  | _ => false

/-- The next statement of the client may be executed, as far as this process is
concerned; `closed` are the clients whose connection is used up. -/
def permits (w : Worker) (s : Sys) (closed : Finset Nat) (pid : Nat) (env : Env) : Bool :=
  let claim := match s.proc pid with
    | some (.claim _) => true
    | _ => false
  if w.awaits pid then
    -- a job that `claimNextJob` returned is not executed before it has settled
    claim && (!w.hasExited || decide (pid ∉ closed) || env.fails)
  else if pid ∈ w.queue then false
  else if pid ∈ w.executing then !w.hasExited || decide (pid ∉ closed)
  else true

/-- The call of `pollLoop`. -/
def claimRequest (w : Worker) : Request := .claim w.workerId none (some w.settings.shardKey)

end Worker

/-! ## §2. The fleet. -/

/-- The system with its worker processes. -/
structure Fleet where
  sys : Sys
  /-- The worker processes by process id. -/
  workers : Table Nat Worker
  /-- The ids of the `workers` table. -/
  registered : Finset UUID
  /-- The clients of exited processes whose last statement has been executed. -/
  closed : Finset Nat

/-- A step of the system, the start of a worker process, or an event of one. -/
inductive FleetAction
  | act (a : Action)
  /-- A worker process starts; `id` is what its INSERT INTO workers returns. -/
  | register (k : Nat) (id : UUID) (settings : WorkerSettings)
  | event (k : Nat) (ev : WorkerEvent)

namespace Fleet

/-- Claims are started by worker processes, and calls run when these let them. -/
def admits (f : Fleet) : Action → Bool
  | .start _ (.claim _ _ _) => false
  | .run pid env => f.workers.all (fun _ w => w.permits f.sys f.closed pid env)
  | _ => true

/-- The client is still inside the SELECT ... FOR UPDATE of a claim. -/
def locking (s : Sys) (pid : Nat) : Bool :=
  match s.proc pid with
  | some (.claim c) =>
      match c.pc with
      | .locking _ => true
      | _ => false
  | _ => false

/-- After a statement of a call whose process has exited, its connection is gone. -/
def closedAfter (f : Fleet) (s : Sys) : Action → Finset Nat
  | .run pid _ =>
      if f.workers.all (fun _ w => !(w.hasExited && (w.awaits pid || decide (pid ∈ w.executing))))
        || locking s pid then f.closed
      else insert pid f.closed
  | _ => f.closed

/-- Store the state of one worker process. -/
def setWorker (f : Fleet) (k : Nat) (w : Worker) : Fleet :=
  { f with workers := f.workers.insert k w }

/-- One action of the fleet; `none` where it cannot happen. -/
def step (cfg : Config) (f : Fleet) : FleetAction → Option Fleet
  | .act a =>
      if f.admits a then
        (JobScheduler.step cfg f.sys a).map (fun s => { f with sys := s, closed := f.closedAfter s a })
      else none
  | .register k id settings =>
      if k ∈ f.workers ∨ id ∈ f.registered then none
      else some { f.setWorker k { workerId := id, settings := settings } with
        registered := insert id f.registered }
  | .event k ev =>
      match f.workers.lookup k with
      | none => none
      | some w =>
          match w.step f.sys ev with
          | none => none
          | some (w', none) => some (f.setWorker k w')
          | some (w', some next) =>
              (JobScheduler.step cfg f.sys (.start next w.claimRequest)).map
                (fun s => { f.setWorker k w' with sys := s })

/-- No process and no client; `registered` are the workers of the past. -/
def atRest (clock : Timestamp) (db : Db) (registered : Finset UUID) : Fleet :=
  ⟨Sys.atRest clock db, ∅, registered, ∅⟩

end Fleet

/-- Runs of the fleet. -/
abbrev FleetRun (cfg : Config) (f₀ : Fleet) (tr : List (Fleet × FleetAction)) (f : Fleet) : Prop :=
  Transition.Run (Fleet.step cfg) f₀ tr f

/-! ## §3. Inversion of one step. -/

namespace Fleet

variable {cfg : Config} {f f' : Fleet} {o : FleetAction}

theorem setWorker_lookup (f : Fleet) (k l : Nat) (w : Worker) :
    (f.setWorker k w).workers.lookup l = if l = k then some w else f.workers.lookup l := by
  rw [setWorker, Table.lookup_insert_ite]

/-- What a step can be, action by action. -/
inductive Stepped (cfg : Config) (f : Fleet) : FleetAction → Fleet → Prop
  | acted (a : Action) (s' : Sys) (hadm : f.admits a = true)
      (hs : JobScheduler.step cfg f.sys a = some s') :
      Stepped cfg f (.act a) { f with sys := s', closed := f.closedAfter s' a }
  | registered (k : Nat) (id : UUID) (settings : WorkerSettings) (hk : f.workers.lookup k = none)
      (hid : id ∉ f.registered) :
      Stepped cfg f (.register k id settings)
        { f.setWorker k { workerId := id, settings := settings } with
          registered := insert id f.registered }
  | turned (k : Nat) (ev : WorkerEvent) (w w' : Worker) (hk : f.workers.lookup k = some w)
      (hw : w.step f.sys ev = some (w', none)) : Stepped cfg f (.event k ev) (f.setWorker k w')
  | polled (k : Nat) (ev : WorkerEvent) (w w' : Worker) (next : Nat) (s' : Sys)
      (hk : f.workers.lookup k = some w) (hw : w.step f.sys ev = some (w', some next))
      (hs : JobScheduler.step cfg f.sys (.start next w.claimRequest) = some s') :
      Stepped cfg f (.event k ev) { f.setWorker k w' with sys := s' }

theorem stepped (h : f.step cfg o = some f') : Stepped cfg f o f' := by
  cases o with
  | act a =>
      simp only [step] at h
      split at h
      · obtain ⟨s', hs, rfl⟩ := Option.map_eq_some_iff.mp h
        exact .acted a s' ‹_› hs
      · cases h
  | register k id settings =>
      simp only [step] at h
      split at h
      · cases h
      · rename_i hfree
        obtain rfl := Option.some.inj h
        obtain ⟨hk, hid⟩ := not_or.mp hfree
        exact .registered k id settings (AList.lookup_eq_none.mpr hk) hid
  | event k ev =>
      simp only [step] at h
      cases hk : f.workers.lookup k with
      | none => simp [hk] at h
      | some w =>
          simp only [hk] at h
          split at h
          · cases h
          · rename_i w' hw
            obtain rfl := Option.some.inj h
            exact .turned k ev w w' hk hw
          · rename_i w' next hw
            obtain ⟨s', hs, rfl⟩ := Option.map_eq_some_iff.mp h
            exact .polled k ev w w' next s' hk hw hs

/-- The system under the processes takes one of its own steps, or none. -/
theorem step_sys (h : f.step cfg o = some f') :
    f'.sys = f.sys ∨ ∃ a, JobScheduler.step cfg f.sys a = some f'.sys := by
  cases stepped h with
  | acted a s' _ hs => exact .inr ⟨a, hs⟩
  | registered | turned => exact .inl rfl
  | polled k ev w w' next s' _ _ hs => exact .inr ⟨_, hs⟩

end Fleet

end JobScheduler
