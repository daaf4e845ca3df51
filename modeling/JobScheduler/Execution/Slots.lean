/-
  JobScheduler.Execution.Slots
  ────────────────────────────
  The slots of one worker process.  `inFlight` is counted by the poll loop and
  by the wrapper around `executeJob`, `running` by the limiter, in other
  callbacks; between a settled call and its `finally` in the limiter the two
  disagree by one.  The process is run here in an arbitrary environment: any
  claim results, any order of settling.
-/
import JobScheduler.Execution.Shutdown

namespace JobScheduler

open Relational Transition

namespace Worker

/-! ## §1. A process and its history. -/

/-- One callback, whatever the system is by then. -/
def turn (w : Worker) (a : Sys × WorkerEvent) : Option Worker := (w.step a.1 a.2).map Prod.fst

/-- The job that `claimNextJob` returns to the loop in this callback. -/
def claimed (w : Worker) (s : Sys) : WorkerEvent → List Nat
  | .claimed _ =>
      match w.poll with
      | .claiming pid =>
          match s.proc pid with
          | some (.exec _) => [pid]
          | _ => []
      | _ => []
  | _ => []

/-- The `executeJob` call made in this callback: for the claimed job at once, or for the head of
the limiter's queue. -/
def called (w : Worker) (s : Sys) : WorkerEvent → List Nat
  | .claimed next =>
      if w.running < w.settings.maxParallelJobs then w.claimed s (.claimed next) else []
  | .freed => w.queue.take 1
  | _ => []

end Worker

/-- The call whose wrapper finishes in this callback. -/
def WorkerEvent.finished : WorkerEvent → List Nat
  | .settled pid => [pid]
  | _ => []

/-- Runs of one process. -/
abbrev WorkerRun (w₀ : Worker) (tr : List (Worker × Sys × WorkerEvent)) (w : Worker) : Prop :=
  Run Worker.turn w₀ tr w

/-- The claims that gave a job over the whole run. -/
def claimedJobs (tr : List (Worker × Sys × WorkerEvent)) : List Nat :=
  tr.flatMap (fun p => p.1.claimed p.2.1 p.2.2)

/-- The `executeJob` calls started over the whole run. -/
def calledJobs (tr : List (Worker × Sys × WorkerEvent)) : List Nat :=
  tr.flatMap (fun p => p.1.called p.2.1 p.2.2)

/-- The `executeJob` calls settled over the whole run. -/
def finishedJobs (tr : List (Worker × Sys × WorkerEvent)) : List Nat :=
  tr.flatMap (fun p => p.2.2.finished)

namespace Worker

/-! ## §2. What a callback does to the slots. -/

/-- The two have the same calls and counters. -/
structure SameSlots (w u : Worker) : Prop where
  settings : u.settings = w.settings
  inFlight : u.inFlight = w.inFlight
  running : u.running = w.running
  queue : u.queue = w.queue
  executing : u.executing = w.executing
  settling : u.settling = w.settling

/-- A claim is awaited only while there is room for its job. -/
def Room (w : Worker) : Prop := ∀ pid, w.poll = .claiming pid → w.inFlight < w.settings.maxParallelJobs

/-- What an event that claims or settles makes of the slots. -/
inductive Turned (s : Sys) (w : Worker) : WorkerEvent → Worker → Prop
  | claimed (next pid : Nat) (u : Worker) (hpoll : w.poll = .claiming pid)
      (hclaimed : w.claimed s (.claimed next) = [pid])
      (hslots : SameSlots ({ w with inFlight := w.inFlight + 1 }.limit pid) u) (hroom : u.Room) :
      Turned s w (.claimed next) u
  | settled (pid : Nat) (hmem : pid ∈ w.executing) :
      Turned s w (.settled pid) { w with
        inFlight := w.inFlight - 1
        executing := w.executing.erase pid
        settling := w.settling + 1 }
  | freed (n : Nat) (hn : w.settling = n + 1) : Turned s w .freed { w with settling := n }.free
  | other (ev : WorkerEvent) (u : Worker) (hclaimed : w.claimed s ev = []) (hcalled : w.called s ev = [])
      (hfinished : ev.finished = []) (hslots : SameSlots w u) (hroom : w.Room → u.Room) :
      Turned s w ev u

/-- Two changes that keep the slots keep them together. -/
theorem SameSlots.trans {w v u : Worker} (h : SameSlots w v) (h' : SameSlots v u) : SameSlots w u :=
  ⟨h'.settings.trans h.settings, h'.inFlight.trans h.inFlight, h'.running.trans h.running,
    h'.queue.trans h.queue, h'.executing.trans h.executing, h'.settling.trans h.settling⟩

/-- The head of the loop checks for room. -/
theorem iterate_slots (w : Worker) (next : Nat) :
    SameSlots w (w.iterate next).1 ∧ (w.iterate next).1.Room := by
  unfold iterate
  split
  · exact ⟨⟨rfl, rfl, rfl, rfl, rfl, rfl⟩, fun pid h => by cases h⟩
  · split
    · rename_i hlt
      exact ⟨⟨rfl, rfl, rfl, rfl, rfl, rfl⟩, fun _ _ => hlt⟩
    · exact ⟨⟨rfl, rfl, rfl, rfl, rfl, rfl⟩, fun pid h => by cases h⟩

theorem clearPollTimer_slots (w : Worker) :
    SameSlots w w.clearPollTimer ∧ w.clearPollTimer.poll = w.poll := by
  unfold clearPollTimer
  split
  · exact ⟨⟨rfl, rfl, rfl, rfl, rfl, rfl⟩, rfl⟩
  · exact ⟨⟨rfl, rfl, rfl, rfl, rfl, rfl⟩, rfl⟩

theorem checkInFlight_slots (w : Worker) (startTime now : Timestamp) :
    SameSlots w (w.checkInFlight startTime now) ∧ (w.checkInFlight startTime now).poll = w.poll := by
  unfold checkInFlight
  split
  · exact ⟨⟨rfl, rfl, rfl, rfl, rfl, rfl⟩, rfl⟩
  · exact ⟨⟨rfl, rfl, rfl, rfl, rfl, rfl⟩, rfl⟩

/-- Room for the awaited claim depends on the slots only. -/
theorem SameSlots.room {w u : Worker} (h : SameSlots w u) (hpoll : u.poll = w.poll) (hw : w.Room) :
    u.Room := by
  intro pid hpid
  rw [h.inFlight, h.settings]
  exact hw pid (hpoll ▸ hpid)

theorem resume_slots (w : Worker) (now : Timestamp) (who : Sleeper) (next : Nat) :
    SameSlots w (w.resume now who next).1 ∧ (w.Room → (w.resume now who next).1.Room) := by
  unfold resume
  split
  · split
    · obtain ⟨hslots, hroom⟩ := w.iterate_slots next
      exact ⟨hslots, fun _ => hroom⟩
    · exact ⟨⟨rfl, rfl, rfl, rfl, rfl, rfl⟩, id⟩
  · split
    · rename_i startTime _
      obtain ⟨hslots, hpoll⟩ := w.checkInFlight_slots startTime now
      exact ⟨hslots, hslots.room hpoll⟩
    · exact ⟨⟨rfl, rfl, rfl, rfl, rfl, rfl⟩, id⟩

theorem beginShutdown_slots (w : Worker) (now : Timestamp) :
    SameSlots w (w.beginShutdown now) ∧ (w.beginShutdown now).poll = w.poll := by
  obtain ⟨hslots, hpoll⟩ := clearPollTimer_slots { w with shuttingDown := true }
  have hw : SameSlots w { w with shuttingDown := true }.clearPollTimer :=
    SameSlots.trans (v := { w with shuttingDown := true }) ⟨rfl, rfl, rfl, rfl, rfl, rfl⟩ hslots
  unfold beginShutdown
  dsimp only
  split
  · exact ⟨hw.trans ⟨rfl, rfl, rfl, rfl, rfl, rfl⟩, hpoll⟩
  · obtain ⟨hslots', hpoll'⟩ := checkInFlight_slots ({ w with shuttingDown := true }.clearPollTimer) now now
    exact ⟨hw.trans hslots', hpoll'.trans hpoll⟩

/-- **Inversion of one callback**, for the slots. -/
theorem turned {s : Sys} {w u : Worker} {ev : WorkerEvent} (h : w.turn (s, ev) = some u) :
    Turned s w ev u := by
  obtain ⟨⟨u', n⟩, hstep, rfl⟩ := Option.map_eq_some_iff.mp h
  have hreact : w.react s ev = some (u', n) := by
    unfold step at hstep
    split at hstep
    · cases hstep
    · exact hstep
  cases ev <;> simp only [react] at hreact
  case listening next =>
    split at hreact
    · obtain ⟨hslots, hroom⟩ := w.iterate_slots next
      rw [Option.some.inj hreact] at hslots hroom
      exact .other _ _ rfl rfl rfl hslots (fun _ => hroom)
    · cases hreact
  case claimed next =>
    split at hreact
    · rename_i pid hpoll
      split at hreact
      · rename_i e hp
        obtain ⟨hslots, hroom⟩ := iterate_slots ({ w with inFlight := w.inFlight + 1 }.limit pid) next
        rw [Option.some.inj hreact] at hslots hroom
        exact .claimed next pid _ hpoll (by simp [claimed, hpoll, hp]) hslots hroom
      · rename_i c hp
        split at hreact
        · cases hreact
        · cases hreact
          have hnone : w.claimed s (.claimed next) = [] := by simp [claimed, hpoll, hp]
          exact .other _ _ hnone (by simp [called, hnone]) rfl ⟨rfl, rfl, rfl, rfl, rfl, rfl⟩
            (fun _ pid h => by cases h)
      · cases hreact
    · cases hreact
  case settled pid =>
    split at hreact
    · split at hreact
      · split at hreact
        · rename_i hmem
          cases hreact
          exact .settled pid hmem
        · cases hreact
      · cases hreact
    · cases hreact
  case freed =>
    split at hreact
    · cases hreact
    · rename_i n hn
      cases hreact
      exact .freed n hn
  case timer who next =>
    split at hreact
    · obtain ⟨hslots, hroom⟩ := resume_slots { w with
        timers := w.timers.erase who, wakePoll := none, pollTimer := none } s.clock who next
      rw [Option.some.inj hreact] at hslots hroom
      exact .other _ _ rfl rfl rfl ⟨hslots.1, hslots.2, hslots.3, hslots.4, hslots.5, hslots.6⟩ hroom
    · cases hreact
  case notification next =>
    split at hreact
    · cases hreact
      exact .other _ _ rfl rfl rfl ⟨rfl, rfl, rfl, rfl, rfl, rfl⟩ id
    · rename_i who _
      obtain ⟨hclear, hpoll⟩ := w.clearPollTimer_slots
      obtain ⟨hslots, hroom⟩ := resume_slots { w.clearPollTimer with wakePoll := none } s.clock who next
      rw [Option.some.inj hreact] at hslots hroom
      refine .other _ _ rfl rfl rfl (hclear.trans ⟨hslots.1, hslots.2, hslots.3, hslots.4, hslots.5, hslots.6⟩) ?_
      exact fun hw => hroom (hclear.room hpoll hw)
  case clientError =>
    cases hreact
    exact .other _ _ rfl rfl rfl ⟨rfl, rfl, rfl, rfl, rfl, rfl⟩ id
  case signal =>
    split at hreact
    · cases hreact
    · obtain ⟨hslots, hpoll⟩ := w.beginShutdown_slots s.clock
      split at hreact
      · cases hreact
        exact .other _ _ rfl rfl rfl ⟨rfl, rfl, rfl, rfl, rfl, rfl⟩ id
      · cases hreact
        exact .other _ _ rfl rfl rfl hslots (hslots.room hpoll)
  case unlistened =>
    split at hreact
    · split at hreact
      · cases hreact
        obtain ⟨hslots, hpoll⟩ := checkInFlight_slots { w with eventClient := false } s.clock s.clock
        exact .other _ _ rfl rfl rfl ⟨hslots.1, hslots.2, hslots.3, hslots.4, hslots.5, hslots.6⟩
          (SameSlots.room (w := { w with eventClient := false }) hslots hpoll)
      · cases hreact
    · cases hreact
  case markedOffline =>
    split at hreact
    · cases hreact
      exact .other _ _ rfl rfl rfl ⟨rfl, rfl, rfl, rfl, rfl, rfl⟩ id
    · cases hreact
  case exit =>
    split at hreact
    · cases hreact
      exact .other _ _ rfl rfl rfl ⟨rfl, rfl, rfl, rfl, rfl, rfl⟩ id
    · cases hreact

/-! ## §3. The invariant. -/

/-- The counters and the calls agree, and stay within the bound. -/
structure Slots (w : Worker) : Prop where
  counted : w.Counted
  running : w.running = w.executing.length + w.settling
  inFlight_le : w.inFlight ≤ w.settings.maxParallelJobs
  running_le : w.running ≤ w.settings.maxParallelJobs
  /-- A call waits only while all slots of the limiter are taken. -/
  full : w.queue ≠ [] → w.running = w.settings.maxParallelJobs
  room : w.Room

theorem slots_start (id : UUID) (settings : WorkerSettings) :
    ({ workerId := id, settings := settings } : Worker).Slots where
  counted := rfl
  running := rfl
  inFlight_le := Nat.zero_le _
  running_le := Nat.zero_le _
  full h := absurd rfl h
  room pid h := by cases h

variable {s : Sys} {w u : Worker} {ev : WorkerEvent}

theorem Slots.of_same (hS : w.Slots) (h : SameSlots w u) (hroom : u.Room) : u.Slots where
  counted := by rw [Counted, h.inFlight, h.executing, h.queue]; exact hS.counted
  running := by rw [h.running, h.executing, h.settling]; exact hS.running
  inFlight_le := by rw [h.inFlight, h.settings]; exact hS.inFlight_le
  running_le := by rw [h.running, h.settings]; exact hS.running_le
  full := by rw [h.queue, h.running, h.settings]; exact hS.full
  room := hroom

/-- A free slot of the limiter means that nothing waits. -/
theorem Slots.queue_nil (hS : w.Slots) (h : w.running < w.settings.maxParallelJobs) : w.queue = [] := by
  by_contra hq
  have hfull := hS.full hq
  omega

/-- A claimed job is called at once, or waits for the limiter. -/
theorem Slots.claim_step {pid : Nat} (hS : w.Slots) (hlt : w.inFlight < w.settings.maxParallelJobs)
    (hslots : SameSlots ({ w with inFlight := w.inFlight + 1 }.limit pid) u) (hroom : u.Room) : u.Slots := by
  have hcount : w.inFlight = w.executing.length + w.queue.length := hS.counted
  have hrun := hS.running
  by_cases hfree : w.running < w.settings.maxParallelJobs
  · rw [limit, if_pos hfree] at hslots
    refine ⟨?_, ?_, ?_, ?_, ?_, hroom⟩
    · rw [Counted, hslots.inFlight, hslots.executing, hslots.queue, List.length_cons]
      dsimp only
      omega
    · rw [hslots.running, hslots.executing, hslots.settling, List.length_cons]
      dsimp only
      omega
    · rw [hslots.inFlight, hslots.settings]
      exact hlt
    · rw [hslots.running, hslots.settings]
      exact hfree
    · intro hq
      rw [hslots.queue] at hq
      exact absurd (hS.queue_nil hfree) hq
  · rw [limit, if_neg hfree] at hslots
    have hfull : w.running = w.settings.maxParallelJobs := le_antisymm hS.running_le (not_lt.mp hfree)
    refine ⟨?_, ?_, ?_, ?_, ?_, hroom⟩
    · rw [Counted, hslots.inFlight, hslots.executing, hslots.queue, List.length_append,
        List.length_singleton]
      dsimp only
      omega
    · rw [hslots.running, hslots.executing, hslots.settling]
      exact hrun
    · rw [hslots.inFlight, hslots.settings]
      exact hlt
    · rw [hslots.running, hslots.settings]
      exact hS.running_le
    · intro _
      rw [hslots.running, hslots.settings]
      exact hfull

/-- A call that settles keeps its slot of the limiter until its `finally`. -/
theorem Slots.settle_step {pid : Nat} (hS : w.Slots) (hmem : pid ∈ w.executing) :
    Slots { w with
      inFlight := w.inFlight - 1
      executing := w.executing.erase pid
      settling := w.settling + 1 } := by
  have hcount : w.inFlight = w.executing.length + w.queue.length := hS.counted
  have hrun := hS.running
  have hlen := List.length_erase_of_mem hmem
  have hpos := List.length_pos_of_mem hmem
  have hle := hS.inFlight_le
  refine ⟨?_, ?_, ?_, hS.running_le, hS.full, ?_⟩
  · simp only [Counted, hlen]
    omega
  · simp only [hlen]
    omega
  · simp only
    omega
  · intro p hp
    have hroom := hS.room p hp
    simp only
    omega

/-- A freed slot goes on to the head of the queue. -/
theorem Slots.free_step {n : Nat} (hS : w.Slots) (hn : w.settling = n + 1) :
    Slots { w with settling := n }.free := by
  have hcount : w.inFlight = w.executing.length + w.queue.length := hS.counted
  have hrun := hS.running
  have hle := hS.running_le
  unfold free
  cases hq : w.queue with
  | nil =>
      refine ⟨?_, ?_, hS.inFlight_le, ?_, fun h => absurd rfl h, hS.room⟩
      · simpa [Counted, hq] using hcount
      · simp only
        omega
      · simp only
        omega
  | cons pid rest =>
      have hfull := hS.full (by rw [hq]; simp)
      rw [hq, List.length_cons] at hcount
      refine ⟨?_, ?_, hS.inFlight_le, hle, fun _ => hfull, hS.room⟩
      · simp only [Counted, List.length_cons]
        omega
      · simp only [List.length_cons]
        omega

/-- **One callback keeps the slots.** -/
theorem Slots.turned (hS : w.Slots) (h : Turned s w ev u) : u.Slots := by
  cases h with
  | claimed next pid u hpoll _ hslots hroom => exact hS.claim_step (hS.room pid hpoll) hslots hroom
  | settled pid hmem => exact hS.settle_step hmem
  | freed n hn => exact hS.free_step hn
  | other ev u _ _ _ hslots hroom => exact hS.of_same hslots (hroom hS.room)

/-- The history and the calls: every claimed job has been called, in the order of the claims, or
waits; every call is finished or executing. -/
structure Ledger (tr : List (Worker × Sys × WorkerEvent)) (w : Worker) : Prop where
  fifo : claimedJobs tr = calledJobs tr ++ w.queue
  open_ : (calledJobs tr).Perm (finishedJobs tr ++ w.executing)

/-- The three lists of jobs, event by event. -/
theorem ledger_snoc (tr : List (Worker × Sys × WorkerEvent)) (w : Worker) (s : Sys) (ev : WorkerEvent) :
    claimedJobs (tr ++ [(w, s, ev)]) = claimedJobs tr ++ w.claimed s ev ∧
      calledJobs (tr ++ [(w, s, ev)]) = calledJobs tr ++ w.called s ev ∧
      finishedJobs (tr ++ [(w, s, ev)]) = finishedJobs tr ++ ev.finished := by
  simp [claimedJobs, calledJobs, finishedJobs]

/-- One call more. -/
theorem Ledger.calls {tr : List (Worker × Sys × WorkerEvent)} (hL : Ledger tr w) (pid : Nat) :
    (calledJobs tr ++ [pid]).Perm (finishedJobs tr ++ pid :: w.executing) := by
  refine (hL.open_.append_right [pid]).trans ?_
  rw [List.append_assoc]
  exact (List.perm_append_singleton pid w.executing).append_left _

/-- **One callback keeps the ledger.** -/
theorem Ledger.turned {tr : List (Worker × Sys × WorkerEvent)} (hL : Ledger tr w) (hS : w.Slots)
    (h : Turned s w ev u) : Ledger (tr ++ [(w, s, ev)]) u := by
  obtain ⟨hclaim, hcall, hfinish⟩ := ledger_snoc tr w s ev
  cases h with
  | claimed next pid u hpoll hclaimed hslots hroom =>
      rw [hclaimed] at hclaim
      by_cases hfree : w.running < w.settings.maxParallelJobs
      · rw [limit, if_pos hfree] at hslots
        rw [called, if_pos hfree, hclaimed] at hcall
        refine ⟨?_, ?_⟩
        · rw [hclaim, hcall, hslots.queue, hL.fifo]
          simp [hS.queue_nil hfree]
        · rw [hcall, hfinish, hslots.executing]
          simpa [WorkerEvent.finished] using hL.calls pid
      · rw [limit, if_neg hfree] at hslots
        rw [called, if_neg hfree, List.append_nil] at hcall
        refine ⟨?_, ?_⟩
        · rw [hclaim, hcall, hslots.queue, hL.fifo, List.append_assoc]
        · rw [hcall, hfinish, hslots.executing]
          simpa [WorkerEvent.finished] using hL.open_
  | settled pid hmem =>
      refine ⟨?_, ?_⟩
      · rw [hclaim, hcall]
        simpa [claimed, called] using hL.fifo
      · rw [hcall, hfinish]
        simp only [called, List.append_nil, WorkerEvent.finished, List.append_assoc]
        exact hL.open_.trans ((List.perm_cons_erase hmem).append_left _)
  | freed n hn =>
      simp only [claimed, List.append_nil] at hclaim
      simp only [WorkerEvent.finished, List.append_nil] at hfinish
      unfold free
      cases hq : w.queue with
      | nil =>
          simp only [called, hq, List.take_nil, List.append_nil] at hcall
          refine ⟨?_, ?_⟩
          · rw [hclaim, hcall, hL.fifo, hq]
          · rw [hcall, hfinish]
            exact hL.open_
      | cons pid rest =>
          simp only [called, hq, List.take_succ_cons, List.take_zero] at hcall
          refine ⟨?_, ?_⟩
          · rw [hclaim, hcall, hL.fifo, hq]
            simp
          · rw [hcall, hfinish]
            exact hL.calls pid
  | other ev u hclaimed hcalled hfinished hslots _ =>
      rw [hclaimed, List.append_nil] at hclaim
      rw [hcalled, List.append_nil] at hcall
      rw [hfinished, List.append_nil] at hfinish
      refine ⟨?_, ?_⟩
      · rw [hclaim, hcall, hslots.queue]
        exact hL.fifo
      · rw [hcall, hfinish, hslots.executing]
        exact hL.open_

theorem Turned.settings (h : Turned s w ev u) : u.settings = w.settings := by
  cases h with
  | claimed next pid u _ _ hslots _ =>
      rw [hslots.settings, limit]
      split <;> rfl
  | settled => rfl
  | freed n _ =>
      unfold free
      split <;> rfl
  | other _ _ _ _ _ hslots _ => exact hslots.settings

end Worker

/-! ## §4. Along runs. -/

/-- The jobs of a process that allows `n` at once. -/
structure SlotsKept (n : Nat) (tr : List (Worker × Sys × WorkerEvent)) (w : Worker) : Prop where
  /-- `inFlight` is the number of claimed jobs whose wrapper has not finished. -/
  inFlight : w.inFlight + (finishedJobs tr).length = (claimedJobs tr).length
  inFlight_le : w.inFlight ≤ n
  parallel : w.executing.length ≤ n
  executing : (calledJobs tr).Perm (finishedJobs tr ++ w.executing)
  /-- Every claimed job is called once, in the order of the claims, or is still to be called. -/
  once : claimedJobs tr = calledJobs tr ++ w.queue
  /-- What is still to be called takes a slot whose `finally` is due, not one of a running job. -/
  due : w.queue.length ≤ w.settling

/-- Slots and ledger in every run of the worker. -/
theorem worker_run {id : UUID} {settings : WorkerSettings} {tr : List (Worker × Sys × WorkerEvent)}
    {w : Worker} (h : WorkerRun { workerId := id, settings := settings } tr w) :
    w.Slots ∧ Worker.Ledger tr w ∧ w.settings = settings := by
  induction h with
  | nil => exact ⟨Worker.slots_start id settings, ⟨rfl, .nil⟩, rfl⟩
  | @snoc tr w u a _ hstep ih =>
      obtain ⟨hS, hL, hsettings⟩ := ih
      have hturn := Worker.turned hstep
      exact ⟨hS.turned hturn, hL.turned hS hturn, hturn.settings.trans hsettings⟩

/-- **The slots of a worker process.**  In every run of a process, for any claim results, any
failures and any order in which its calls settle. -/
theorem worker_slots {id : UUID} {settings : WorkerSettings} {tr : List (Worker × Sys × WorkerEvent)}
    {w : Worker} (h : WorkerRun { workerId := id, settings := settings } tr w) :
    SlotsKept settings.maxParallelJobs tr w := by
  obtain ⟨hS, hL, rfl⟩ := worker_run h
  have hcount : w.inFlight = w.executing.length + w.queue.length := hS.counted
  have hrunning := hS.running
  have hbound := hS.running_le
  have hclaimed := congrArg List.length hL.fifo
  have hcalled := hL.open_.length_eq
  rw [List.length_append] at hclaimed hcalled
  refine ⟨by omega, hS.inFlight_le, by omega, hL.open_, hL.fifo, ?_⟩
  by_cases hq : w.queue = []
  · rw [hq]
    exact Nat.zero_le _
  · have hfull := hS.full hq
    have hle := hS.inFlight_le
    omega

/-- When no `finally` is due, every claimed job has been called. -/
theorem SlotsKept.all_called {n : Nat} {tr : List (Worker × Sys × WorkerEvent)} {w : Worker}
    (h : SlotsKept n tr w) (hs : w.settling = 0) : claimedJobs tr = calledJobs tr := by
  have hdue := h.due
  rw [hs, Nat.le_zero, List.length_eq_zero_iff] at hdue
  rw [h.once, hdue, List.append_nil]

/-- A process of a fleet makes a run of its own. -/
theorem workerRun_of_fleet {cfg : Config} {clock : Timestamp} {db : Db} {past : Finset UUID}
    {tr : List (Fleet × FleetAction)} {f : Fleet} {k : Nat} {w : Worker}
    (h : FleetRun cfg (Fleet.atRest clock db past) tr f) (hk : f.workers.lookup k = some w) :
    ∃ id settings tr', WorkerRun { workerId := id, settings := settings } tr' w := by
  induction h generalizing w with
  | nil => simp [Fleet.atRest] at hk
  | @snoc tr f f' o _ hs ih =>
      -- the process of another id is as before
      have hother : ∀ {l : Nat} {v w' : Worker}, f.workers.lookup l = some v →
          (∃ s ev, v.turn (s, ev) = some w') → (f.setWorker l w').workers.lookup k = some w →
          ∃ id settings tr', WorkerRun { workerId := id, settings := settings } tr' w := by
        rintro l v w' hl ⟨s, ev, hturn⟩ hlookup
        rw [Fleet.setWorker_lookup] at hlookup
        split at hlookup
        · obtain rfl := Option.some.inj hlookup
          rename_i hkl
          obtain ⟨id, settings, tr', hrun⟩ := ih (hkl ▸ hl)
          exact ⟨id, settings, _, hrun.snoc hturn⟩
        · exact ih hlookup
      cases Fleet.stepped hs with
      | acted a s' _ _ => exact ih hk
      | registered l id settings _ _ =>
          have hlookup : (f.setWorker l { workerId := id, settings := settings }).workers.lookup k = some w :=
            hk
          rw [Fleet.setWorker_lookup] at hlookup
          split at hlookup
          · obtain rfl := Option.some.inj hlookup
            exact ⟨id, settings, [], .nil⟩
          · exact ih hlookup
      | turned l ev v w' hl hw => exact hother hl ⟨f.sys, ev, by rw [Worker.turn, hw]; rfl⟩ hk
      | polled l ev v w' next s' hl hw _ => exact hother hl ⟨f.sys, ev, by rw [Worker.turn, hw]; rfl⟩ hk

/-- So the slots of every process of a fleet are kept. -/
theorem fleet_slots {cfg : Config} {clock : Timestamp} {db : Db} {past : Finset UUID}
    {tr : List (Fleet × FleetAction)} {f : Fleet} {k : Nat} {w : Worker}
    (h : FleetRun cfg (Fleet.atRest clock db past) tr f) (hk : f.workers.lookup k = some w) :
    ∃ tr', SlotsKept w.settings.maxParallelJobs tr' w := by
  obtain ⟨id, settings, tr', hrun⟩ := workerRun_of_fleet h hk
  obtain ⟨_, _, rfl⟩ := worker_run hrun
  exact ⟨tr', worker_slots hrun⟩

/-- Two calls for job 7: call 0 has returned, call 1 has been claimed. -/
def Sys.twoCalls : Sys where
  clock := 0
  db := Db.empty
  clients := ((∅ : Table Nat Client).insert 0
      ⟨0, .exec { jobId := 7, job := Job.small .claimed, workerId := 5, pc := .returned }⟩).insert 1
    ⟨0, .exec { jobId := 7, job := Job.small .claimed, workerId := 5 }⟩

/-- The job of claim 1 comes while the `finally` of call 0 is due. -/
def oneSlotEvents : List (Sys × WorkerEvent) :=
  [(Sys.twoCalls, .listening 0), (Sys.twoCalls, .claimed 2), (Sys.twoCalls, .settled 0),
    (Sys.twoCalls, .timer .poll 1), (Sys.twoCalls, .claimed 3), (Sys.twoCalls, .freed)]

/-- A process with one slot. -/
def Worker.oneSlot : Worker :=
  { workerId := 5, settings := { maxParallelJobs := 1, shardKey := "", shutdownTimeoutMs := 0 } }

theorem worker_slots_one :
    SlotsKept 1 (trace Worker.turn Worker.oneSlot oneSlotEvents)
        (play Worker.turn Worker.oneSlot oneSlotEvents) ∧
      calledJobs (trace Worker.turn Worker.oneSlot oneSlotEvents) = [0, 1] :=
  ⟨worker_slots (run_of_play Worker.turn Worker.oneSlot oneSlotEvents (by rfl)), by decide +kernel⟩

end JobScheduler
