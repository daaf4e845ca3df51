/-
  JobScheduler.Engine.Worker
  ──────────────────────────
  `WorkerProcess` of `engine/worker.ts`: the poll loop, `gracefulShutdown`, the
  concurrency limiter and `sleep`, which live in one process and share its
  fields.  One event is one callback of the event loop: between two events each
  of the routines stands at an `await`.

  `claimNextJob` and `executeJob` calls are clients of `System.State`; the
  process knows them by their client ids.  A timer may fire at any time after
  it was set, and a notification may arrive at any time.
-/
import JobScheduler.System.State

namespace JobScheduler

open Relational

/-! ## §1. The process. -/

/-- The two routines that `sleep`. -/
inductive Sleeper
  | poll | shutdown
  deriving DecidableEq

/-- Where `pollLoop` stands. -/
inductive PollPc
  /-- `start` has not come to it: the LISTEN is not through. -/
  | starting
  /-- `await claimNextJob(...)`. -/
  | claiming (pid : Nat)
  /-- `await this.sleep(this.pollIntervalMs)`. -/
  | sleeping
  | ended

/-- Where `gracefulShutdown` stands. -/
inductive ShutdownPc
  | idle
  /-- `await this.eventClient.query('UNLISTEN scheduler_events')`. -/
  | unlistening
  /-- `await this.sleep(200)`. -/
  | waiting (startTime : Timestamp)
  /-- `await this.pool.query("UPDATE workers SET status = 'offline' ...")`. -/
  | marking (startTime : Timestamp)
  /-- The UPDATE has settled. -/
  | exiting (startTime : Timestamp)
  /-- `process.exit(0)`, at the time `at`. -/
  | exited (startTime : Timestamp) (at_ : Timestamp)

/-- The part of `env` that the process reads. -/
structure WorkerSettings where
  maxParallelJobs : Nat
  shardKey : String
  shutdownTimeoutMs : Int

/-- The state of one worker process: its settings, the shutdown flag, the limiter and the loop. -/
structure Worker where
  workerId : UUID
  settings : WorkerSettings
  shuttingDown : Bool := false
  inFlight : Nat := 0
  /-- `running` of the limiter. -/
  running : Nat := 0
  /-- `queue` of the limiter. -/
  queue : List Nat := []
  /-- The `executeJob` calls that were made and have not settled. -/
  executing : List Nat := []
  /-- Settled calls whose `finally` in the limiter is still to come. -/
  settling : Nat := 0
  /-- The routine that `wakePoll` resumes. -/
  wakePoll : Option Sleeper := none
  /-- The routine whose timer `pollTimer` is. -/
  pollTimer : Option Sleeper := none
  /-- The timers of `sleep` that are set. -/
  timers : List Sleeper := []
  /-- `eventClient !== null`. -/
  eventClient : Bool := true
  poll : PollPc := .starting
  shutdown : ShutdownPc := .idle

/-- What the worker's event loop reacts to. -/
inductive WorkerEvent
  /-- The LISTEN of `start` settles; a claim started here has client id `next`. -/
  | listening (next : Nat)
  /-- `claimNextJob` settles. -/
  | claimed (next : Nat)
  /-- `executeJob` settles. -/
  | settled (pid : Nat)
  /-- The `finally` of the limiter. -/
  | freed
  | timer (who : Sleeper) (next : Nat)
  | notification (next : Nat)
  /-- The 'error' event of the listening client. -/
  | clientError
  /-- SIGTERM or SIGINT. -/
  | signal
  | unlistened
  | markedOffline
  | exit

namespace Worker

/-- `this.sleep(ms)` of a routine. -/
def sleep (w : Worker) (who : Sleeper) : Worker :=
  { w with wakePoll := some who, pollTimer := some who, timers := who :: w.timers }

/-- `clearTimeout(this.pollTimer); this.pollTimer = null`. -/
def clearPollTimer (w : Worker) : Worker :=
  match w.pollTimer with
  | none => w
  | some who => { w with timers := w.timers.erase who, pollTimer := none }

/-- The head of the loop of `pollLoop`; `some next` when it starts a claim. -/
def iterate (w : Worker) (next : Nat) : Worker × Option Nat :=
  if w.shuttingDown then ({ w with poll := .ended }, none)
  else if w.inFlight < w.settings.maxParallelJobs then ({ w with poll := .claiming next }, some next)
  else ({ w.sleep .poll with poll := .sleeping }, none)

/-- `this.limit(fn)`: the call is made at once or waits for its turn. -/
def limit (w : Worker) (pid : Nat) : Worker :=
  if w.running < w.settings.maxParallelJobs then
    { w with running := w.running + 1, executing := pid :: w.executing }
  else { w with queue := w.queue ++ [pid] }

/-- `running--`, and the next call of the queue. -/
def free (w : Worker) : Worker :=
  match w.queue with
  | [] => { w with running := w.running - 1 }
  | pid :: rest => { w with queue := rest, executing := pid :: w.executing }

/-- The head of the wait loop of `gracefulShutdown`. -/
def checkInFlight (w : Worker) (startTime now : Timestamp) : Worker :=
  if 0 < w.inFlight ∧ now - startTime < w.settings.shutdownTimeoutMs then
    { w.sleep .shutdown with shutdown := .waiting startTime }
  else { w with shutdown := .marking startTime }

/-- The promise of a `sleep` is resolved. -/
def resume (w : Worker) (now : Timestamp) (who : Sleeper) (next : Nat) : Worker × Option Nat :=
  match who with
  | .poll =>
      match w.poll with
      | .sleeping => w.iterate next
      | _ => (w, none)
  | .shutdown =>
      match w.shutdown with
      | .waiting startTime => (w.checkInFlight startTime now, none)
      | _ => (w, none)

/-- `gracefulShutdown` up to its first `await`. -/
def beginShutdown (w : Worker) (now : Timestamp) : Worker :=
  let w := { w with shuttingDown := true }.clearPollTimer
  if w.eventClient then { w with shutdown := .unlistening } else w.checkInFlight now now

/-- One event of a process that has not exited, and the claim it starts. -/
def react (s : Sys) (w : Worker) : WorkerEvent → Option (Worker × Option Nat)
  | .listening next =>
      match w.poll with
      | .starting => some (w.iterate next)
      | _ => none
  | .claimed next =>
      match w.poll with
      | .claiming pid =>
          match s.proc pid with
          | some (.exec _) => some (({ w with inFlight := w.inFlight + 1 }.limit pid).iterate next)
          | some (.claim c) =>
              if c.isOpen then none else some ({ w.sleep .poll with poll := .sleeping }, none)
          | _ => none
      | _ => none
  | .settled pid =>
      match s.proc pid with
      | some (.exec e) =>
          match e.pc with
          | .returned =>
              if pid ∈ w.executing then
                some ({ w with
                  inFlight := w.inFlight - 1
                  executing := w.executing.erase pid
                  settling := w.settling + 1 }, none)
              else none
          | _ => none
      | _ => none
  | .freed =>
      match w.settling with
      | 0 => none
      | n + 1 => some ({ w with settling := n }.free, none)
  | .timer who next =>
      if who ∈ w.timers then
        some ({ w with
          timers := w.timers.erase who
          wakePoll := none
          pollTimer := none }.resume s.clock who next)
      else none
  | .notification next =>
      match w.wakePoll with
      | none => some (w, none)
      | some who => some ({ w.clearPollTimer with wakePoll := none }.resume s.clock who next)
  | .clientError => some ({ w with eventClient := false }, none)
  | .signal =>
      match w.poll with
      -- the handlers are installed at the end of `start`
      | .starting => none
      | _ => some (if w.shuttingDown then w else w.beginShutdown s.clock, none)
  | .unlistened =>
      match w.shutdown with
      | .unlistening =>
          -- `release` of a client lost meanwhile throws: no graceful exit
          if w.eventClient then some ({ w with eventClient := false }.checkInFlight s.clock s.clock, none)
          else none
      | _ => none
  | .markedOffline =>
      match w.shutdown with
      | .marking startTime => some ({ w with shutdown := .exiting startTime }, none)
      | _ => none
  | .exit =>
      match w.shutdown with
      | .exiting startTime => some ({ w with shutdown := .exited startTime s.clock }, none)
      | _ => none

/-- One event of the worker, with the client id that it starts, if any; nothing after
`process.exit`. -/
def step (s : Sys) (w : Worker) (ev : WorkerEvent) : Option (Worker × Option Nat) :=
  match w.shutdown with
  | .exited _ _ => none
  | _ => w.react s ev

/-- The event runs the head of the wait loop of `gracefulShutdown`. -/
def checks (w : Worker) : WorkerEvent → Bool
  | .signal => !w.shuttingDown && !w.eventClient
  | .unlistened =>
      match w.shutdown with
      | .unlistening => true
      | _ => false
  | .timer .shutdown _ =>
      match w.shutdown with
      | .waiting _ => true
      | _ => false
  | .notification _ =>
      match w.shutdown with
      | .waiting _ => decide (w.wakePoll = some .shutdown)
      | _ => false
  | _ => false

/-! ## §2. Inversion of one event. -/

/-- The process with its timers and its listening client as they may be. -/
def stir (w : Worker) (wake timer : Option Sleeper) (timers : List Sleeper) (client : Bool) : Worker :=
  { w with wakePoll := wake, pollTimer := timer, timers := timers, eventClient := client }

/-- The process at the head of the poll loop: nothing was awaited, or the claim
that was awaited has come back with a job or without. -/
inductive AtHead (s : Sys) (w : Worker) : Worker → Prop
  | idle (hpoll : ∀ pid, w.poll ≠ .claiming pid) : AtHead s w w
  | job (pid : Nat) (e : Exec) (hpoll : w.poll = .claiming pid) (hp : s.proc pid = some (.exec e)) :
      AtHead s w ({ w with inFlight := w.inFlight + 1 }.limit pid)
  | empty (pid : Nat) (c : Claim) (hpoll : w.poll = .claiming pid)
      (hp : s.proc pid = some (.claim c)) (hc : c.isOpen = false) : AtHead s w w

/-- What one event does, up to the timers. -/
inductive Stepped (s : Sys) (w : Worker) (ev : WorkerEvent) : Worker → Option Nat → Prop
  | polled (v : Worker) (next : Nat) (x y : Option Sleeper) (t : List Sleeper) (b : Bool)
      (hv : AtHead s w v) (hlive : w.shuttingDown = false) :
      Stepped s w ev ({ v with poll := .claiming next }.stir x y t b) (some next)
  | parked (v : Worker) (pc : PollPc) (x y : Option Sleeper) (t : List Sleeper) (b : Bool)
      (hv : AtHead s w v) (hpc : pc = .sleeping ∨ pc = .ended) :
      Stepped s w ev ({ v with poll := pc }.stir x y t b) none
  | settled (pid : Nat) (e : Exec) (hp : s.proc pid = some (.exec e)) (hpc : e.pc = .returned)
      (hmem : pid ∈ w.executing) :
      Stepped s w ev { w with
        inFlight := w.inFlight - 1
        executing := w.executing.erase pid
        settling := w.settling + 1 } none
  | freed (n : Nat) : Stepped s w ev { w with settling := n }.free none
  | stirred (x y : Option Sleeper) (t : List Sleeper) (b : Bool) : Stepped s w ev (w.stir x y t b) none
  | signalled (x y : Option Sleeper) (t : List Sleeper) (b : Bool) (hlive : w.shuttingDown = false) :
      Stepped s w ev ({ w with shuttingDown := true, shutdown := .unlistening }.stir x y t b) none
  | waits (startTime : Timestamp) (sd : Bool) (x y : Option Sleeper) (t : List Sleeper) (b : Bool)
      (hev : w.checks ev = true) (hsd : sd = true ∨ sd = w.shuttingDown ∧ w.shutdown ≠ .idle) :
      Stepped s w ev ({ w with shuttingDown := sd, shutdown := .waiting startTime }.stir x y t b) none
  | leaves (startTime : Timestamp) (sd : Bool) (x y : Option Sleeper) (t : List Sleeper) (b : Bool)
      (hev : w.checks ev = true) (hsd : sd = true ∨ sd = w.shuttingDown ∧ w.shutdown ≠ .idle)
      (hwhy : w.inFlight = 0 ∨ w.settings.shutdownTimeoutMs ≤ s.clock - startTime) :
      Stepped s w ev ({ w with shuttingDown := sd, shutdown := .marking startTime }.stir x y t b) none
  | marked (startTime : Timestamp) (hpc : w.shutdown = .marking startTime) :
      Stepped s w ev { w with shutdown := .exiting startTime } none
  | exited (startTime : Timestamp) (hpc : w.shutdown = .exiting startTime) :
      Stepped s w ev { w with shutdown := .exited startTime s.clock } none

/-- Clearing the timer only wakes the sleeping loop. -/
theorem clearPollTimer_eq (w : Worker) :
    ∃ y t, w.clearPollTimer = w.stir w.wakePoll y t w.eventClient := by
  unfold clearPollTimer
  split
  · exact ⟨w.pollTimer, w.timers, rfl⟩
  · exact ⟨_, _, rfl⟩

/-- At the head of its loop the worker has not changed the shutdown flag. -/
theorem AtHead.shuttingDown {s : Sys} {w v : Worker} (h : AtHead s w v) :
    v.shuttingDown = w.shuttingDown := by
  cases h with
  | idle | empty => rfl
  | job pid e _ _ =>
      unfold limit
      split <;> rfl

/-- What one turn of the poll loop can be. -/
theorem stepped_iterate {s : Sys} {w v u : Worker} {ev : WorkerEvent} {next : Nat} {n : Option Nat}
    (hv : AtHead s w v) (x y : Option Sleeper) (t : List Sleeper) (b : Bool)
    (h : (v.stir x y t b).iterate next = (u, n)) : Stepped s w ev u n := by
  unfold iterate at h
  split at h
  · cases h
    exact .parked v .ended x y t b hv (.inr rfl)
  · rename_i hlive
    have hlive' : v.shuttingDown = false := eq_false_of_ne_true hlive
    split at h
    · cases h
      exact .polled v next x y t b hv (hv.shuttingDown ▸ hlive')
    · cases h
      exact .parked v .sleeping _ _ _ b hv (.inl rfl)

/-- What one look of the shutdown loop can be. -/
theorem stepped_check {s : Sys} {w : Worker} {ev : WorkerEvent} (sd : Bool) {startTime : Timestamp}
    {x y : Option Sleeper} {t : List Sleeper} {b : Bool} (hev : w.checks ev = true)
    (hsd : sd = true ∨ sd = w.shuttingDown ∧ w.shutdown ≠ .idle) :
    Stepped s w ev (({ w with shuttingDown := sd }.stir x y t b).checkInFlight startTime s.clock) none := by
  unfold checkInFlight
  split
  · exact .waits startTime sd _ _ _ b hev hsd
  · rename_i hwhy
    refine .leaves startTime sd x y t b hev hsd ?_
    simp only [stir, not_and_or, not_lt, Nat.le_zero] at hwhy
    exact hwhy

/-- What the waking of either loop can be. -/
theorem stepped_resume {s : Sys} {w u : Worker} {ev : WorkerEvent} {who : Sleeper} {next : Nat}
    {n : Option Nat} {x y : Option Sleeper} {t : List Sleeper} {b : Bool}
    (hev : ∀ startTime, w.shutdown = .waiting startTime → who = .shutdown → w.checks ev = true)
    (h : (w.stir x y t b).resume s.clock who next = (u, n)) : Stepped s w ev u n := by
  unfold resume at h
  split at h
  · split at h
    · rename_i hpoll
      exact stepped_iterate (.idle (fun pid hpid => by simp [stir, hpid] at hpoll)) x y t b h
    · cases h
      exact .stirred x y t b
  · split at h
    · rename_i startTime hpc
      cases h
      exact stepped_check _ (hev startTime hpc rfl) (.inr ⟨rfl, by simp [show w.shutdown = _ from hpc]⟩)
    · cases h
      exact .stirred x y t b

/-- **Inversion of one event.** -/
theorem stepped {s : Sys} {w u : Worker} {ev : WorkerEvent} {n : Option Nat}
    (h : w.step s ev = some (u, n)) : Stepped s w ev u n := by
  have hreact : w.react s ev = some (u, n) := by
    unfold step at h
    split at h
    · cases h
    · exact h
  cases ev <;> simp only [react] at hreact
  case listening next =>
    split at hreact
    · rename_i hpoll
      exact stepped_iterate (.idle (by simp [hpoll])) w.wakePoll w.pollTimer w.timers w.eventClient
        (Option.some.inj hreact)
    · cases hreact
  case claimed next =>
    split at hreact
    · rename_i pid hpoll
      split at hreact
      · rename_i e hp
        exact stepped_iterate (.job pid e hpoll hp) _ _ _ _ (Option.some.inj hreact)
      · rename_i c hp
        split at hreact
        · cases hreact
        · rename_i hc
          cases hreact
          exact .parked w .sleeping _ _ _ w.eventClient (.empty pid c hpoll hp (eq_false_of_ne_true hc))
            (.inl rfl)
      · cases hreact
    · cases hreact
  case settled pid =>
    split at hreact
    · rename_i e hp
      split at hreact
      · rename_i hpc
        split at hreact
        · rename_i hmem
          cases hreact
          exact .settled pid e hp hpc hmem
        · cases hreact
      · cases hreact
    · cases hreact
  case freed =>
    split at hreact
    · cases hreact
    · cases hreact
      exact .freed _
  case timer who next =>
    split at hreact
    · refine stepped_resume (fun startTime hpc hwho => ?_) (Option.some.inj hreact)
      subst hwho
      simp [checks, hpc]
    · cases hreact
  case notification next =>
    split at hreact
    · cases hreact
      exact .stirred w.wakePoll w.pollTimer w.timers w.eventClient
    · rename_i who hwake
      obtain ⟨y, t, heq⟩ := w.clearPollTimer_eq
      rw [heq] at hreact
      refine stepped_resume (x := none) (y := y) (t := t) (b := w.eventClient)
        (fun startTime hpc hwho => ?_) (Option.some.inj hreact)
      simp [checks, hpc, hwake, hwho]
  case clientError =>
    cases hreact
    exact .stirred w.wakePoll w.pollTimer w.timers false
  case signal =>
    split at hreact
    · cases hreact
    · cases hsd : w.shuttingDown with
      | true =>
          simp only [hsd, if_true] at hreact
          cases hreact
          exact .stirred w.wakePoll w.pollTimer w.timers w.eventClient
      | false =>
          simp only [hsd, Bool.false_eq_true, if_false] at hreact
          cases hreact
          obtain ⟨y, t, heq⟩ := { w with shuttingDown := true }.clearPollTimer_eq
          simp only [beginShutdown, heq]
          split
          · exact .signalled w.wakePoll y t w.eventClient hsd
          · rename_i hclient
            have hclient' : w.eventClient = false := eq_false_of_ne_true hclient
            exact stepped_check true (by simp [checks, hsd, hclient']) (.inl rfl)
  case unlistened =>
    split at hreact
    · rename_i hpc
      split at hreact
      · cases hreact
        exact stepped_check w.shuttingDown (x := w.wakePoll) (y := w.pollTimer)
          (t := w.timers) (b := false) (by simp [checks, hpc]) (.inr ⟨rfl, by simp [hpc]⟩)
      · cases hreact
    · cases hreact
  case markedOffline =>
    split at hreact
    · rename_i startTime hpc
      cases hreact
      exact .marked startTime hpc
    · cases hreact
  case exit =>
    split at hreact
    · rename_i startTime hpc
      cases hreact
      exact .exited startTime hpc
    · cases hreact

end Worker

end JobScheduler
