/-
  JobScheduler.Execution.Shutdown
  ───────────────────────────────
  What a graceful shutdown leaves behind.  A job that is claimed or running
  under a worker's id is in the hands of a call of that worker, unless a call
  let it go; and when the wait loop ends for want of jobs in flight, the worker
  has no call left, unless its poll loop still awaits a claim: the counter
  `inFlight` does not know of it.
-/
import JobScheduler.Execution.Stranding
import JobScheduler.System.Fleet

namespace JobScheduler

open Relational Transition

/-! ## §1. Jobs under a worker's id. -/

/-- The job is claimed or running with the worker's id. -/
def Db.heldBy (db : Db) (x j : UUID) : Bool :=
  (db.jobs.lookup j).any (fun row => row.status.active && decide (row.workerId = some x))

/-- The call is done with its job and has not brought it out of claimed and
running: the lock is refused, or a rejection ends the attempt. -/
def Exec.letsGo (cfg : Config) (env : Env) (e : Exec) (db : Db) : Bool :=
  e.working &&
    if env.fails || e.overflows cfg then !(e.goto (Exec.onThrow env.error e.pc)).working
    else match e.pc with
      | .acquire => !e.acquires env db
      | _ => false

/-- A call of the worker lets a job go that is claimed or running with the worker's id. -/
def Action.abandons (cfg : Config) (s : Sys) (x : UUID) : Action → Bool
  | .run pid env =>
      match s.proc pid with
      | some (.exec e) => decide (e.workerId = x) && e.letsGo cfg env s.db && s.db.heldBy x e.jobId
      | _ => false
  | _ => false

/-- A call of another worker sets a job running that carries this worker's id
and is no longer claimed or running. -/
def Action.rerunsFor (cfg : Config) (s : Sys) (x : UUID) : Action → Bool
  | .run pid env =>
      match s.proc pid with
      | some (.exec e) =>
          (match e.pc with
            | .setRunning => !(env.fails || e.overflows cfg)
            | _ => false)
          && decide (e.workerId ≠ x) && !s.db.heldBy x e.jobId
          && (s.db.jobs.lookup e.jobId).any (fun row => decide (row.workerId = some x))
      | _ => false
  | _ => false

/-- The worker holds the job: it is active, and its row names the worker. -/
theorem Db.heldBy_iff (db : Db) (x j : UUID) : db.heldBy x j = true ↔
    ∃ row, db.jobs.lookup j = some row ∧ row.status.active = true ∧ row.workerId = some x := by
  simp [heldBy, Option.any_eq_true]

/-- Who can make a job active under a worker's id. -/
theorem JobChange.heldBy {ctx : Ctx} {env : Env} {db : Db} {p : Proc} {j x : UUID}
    {old : Option Job} {row : Job} (h : JobChange ctx env db j p old (some row))
    (ha : row.status.active = true) (hx : row.workerId = some x) :
    (∃ o, old = some o ∧ o.status.active = true ∧ o.workerId = some x) ∨
    (∃ c r, p = .claim c ∧ c.pc = .committing (some (j, r)) ∧ c.workerId = x) ∨
    (∃ e o, p = .exec e ∧ e.pc = .setRunning ∧ e.jobId = j ∧ old = some o ∧ o.workerId = some x) ∨
    (∃ r, p = .submit r ∧ r.initialStatus.active = true) := by
  cases h with
  | same => exact .inl ⟨row, rfl, ha, hx⟩
  | claimed c r o hpc => exact .inr (.inl ⟨c, r, rfl, hpc, Option.some.inj hx⟩)
  | running e o hpc hj => exact .inr (.inr (.inl ⟨e, o, rfl, hpc, hj, rfl, hx⟩))
  | submitted r item rest => exact .inr (.inr (.inr ⟨r, rfl, ha⟩))
  | released e o => simp only [Job.released] at ha; split at ha <;> cases ha
  | completed | requeued | deadLettered | retried | replayed | recreated | cancelled | flipped
  | dispatched => cases ha

/-- A job under the worker's id is in the hands of one of the worker's calls. -/
def AttendedBy (x : UUID) (s : Sys) : Prop :=
  ∀ j, s.db.heldBy x j = true →
    ∃ k e, s.proc k = some (.exec e) ∧ e.jobId = j ∧ e.workerId = x ∧ e.working = true

/-- One statement of the call that attends a job which stays under the worker's id. -/
theorem Exec.step_attends {cfg : Config} {s : Sys} {env : Env} {k : Nat} {e e' : Exec} {db' : Db}
    (hk : s.proc k = some (.exec e)) (hw : e.working = true)
    (hab : (Action.run k env).abandons cfg s e.workerId = false)
    (hold : s.db.heldBy e.workerId e.jobId = true) (hnew : db'.heldBy e.workerId e.jobId = true)
    (h : e.step cfg s.ctx env s.db = some (db', e')) : e'.working = true := by
  have hstays : e.letsGo cfg env s.db = false := by
    simpa [Action.abandons, hk, hold] using hab
  obtain ⟨_, ⟨hr, _, rfl⟩ | ⟨hr, hdb, rfl⟩⟩ := Exec.step_cases h
  · simpa [Exec.letsGo, hw, hr] using hstays
  · rcases e.next_working env s.db hw with hok | ⟨hpc, hrefused⟩ | hinactive
    · exact hok
    · simp [Exec.letsGo, hw, hr, hpc, hrefused] at hstays
    · obtain ⟨row, hrow, ha, _⟩ := (db'.heldBy_iff _ _).mp hnew
      rw [hinactive row (hdb ▸ hrow)] at ha
      cases ha

/-- A job that a statement leaves under the worker's id was there before, or the
moving client has just become a call of the worker for it. -/
theorem Proc.step_heldBy {cfg : Config} {s : Sys} {env : Env} {pid : Nat} {p p' : Proc} {db' : Db}
    {j x : UUID} (hI : InsertsPending s) (hp : s.proc pid = some p)
    (hrev : (Action.run pid env).rerunsFor cfg s x = false)
    (h : p.step cfg s.ctx env s.db = some (db', p')) (hheld : db'.heldBy x j = true) :
    s.db.heldBy x j = true ∨
      ∃ e, p' = .exec e ∧ e.jobId = j ∧ e.workerId = x ∧ e.working = true := by
  obtain ⟨row, hrow, ha, hx⟩ := (db'.heldBy_iff x j).mp hheld
  have hch := Proc.step_jobs (j := j) h
  rw [hrow] at hch
  rcases hch.heldBy ha hx with hold | ⟨c, r, rfl, hpc, hcx⟩ | ⟨e, o, rfl, hpc, rfl, ho, hox⟩ |
    ⟨r, rfl, hr⟩
  · exact .inl ((s.db.heldBy_iff x j).mpr hold)
  · simp only [Proc.step, Claim.step, hpc] at h
    split at h
    · -- a COMMIT that fails leaves the row alone
      cases h
      exact .inl hheld
    · cases h
      exact .inr ⟨_, rfl, rfl, hcx, rfl⟩
  · obtain ⟨⟨d, e'⟩, hs, he⟩ := Option.map_eq_some_iff.mp h
    cases he
    obtain ⟨_, ⟨_, rfl, _⟩ | ⟨hacc, _, rfl⟩⟩ := Exec.step_cases hs
    · exact .inl hheld
    · by_cases hex : e.workerId = x
      · refine .inr ⟨_, rfl, (Exec.step_params hs).1, (Exec.step_params hs).2.2.trans hex, ?_⟩
        simp [Exec.working, Exec.stage, Exec.next, hpc, Exec.goto, ExecPc.stage, PublishSite.stage]
      · left
        by_contra hnot
        simp [Action.rerunsFor, hp, hpc, hacc, hex, hnot, ho, hox] at hrev
  · rw [JobStatus.active_of_pending (hI pid r hp)] at hr
    cases hr

/-- Every job that the worker holds is attended by a client, unless one was abandoned. -/
theorem attendedBy_step {cfg : Config} {s s' : Sys} {a : Action} {x : UUID} (hI : InsertsPending s)
    (hA : AttendedBy x s) (hab : a.abandons cfg s x = false) (hrev : a.rerunsFor cfg s x = false)
    (h : step cfg s a = some s') : AttendedBy x s' := by
  intro j hheld
  cases stepped h with
  | wait ms => exact hA j hheld
  | start pid request hfree =>
      obtain ⟨k, e, hk, hrest⟩ := hA j hheld
      have hne : k ≠ pid := by rintro rfl; rw [hk] at hfree; cases hfree
      exact ⟨k, e, by rw [Sys.put_proc_ne _ _ _ hne]; exact hk, hrest⟩
  | run pid env p p' db' hp _ hstep =>
      rcases Proc.step_heldBy hI hp hrev hstep hheld with hold | ⟨e, rfl, hrest⟩
      · obtain ⟨k, e, hk, rfl, rfl, hew⟩ := hA j hold
        by_cases hkp : k = pid
        · -- the attending call itself moves
          subst hkp
          rw [hk] at hp
          cases hp
          obtain ⟨⟨d, e'⟩, hs, he⟩ := Option.map_eq_some_iff.mp hstep
          cases he
          obtain ⟨hj, _, hx⟩ := Exec.step_params hs
          exact ⟨k, e', Sys.put_proc_self _ _ _ _, hj, hx,
            Exec.step_attends hk hew hab hold hheld hs⟩
        · exact ⟨k, e, by rw [Sys.put_proc_ne _ _ _ hkp]; exact hk, rfl, rfl, hew⟩
      · exact ⟨pid, e, Sys.put_proc_self _ _ _ _, hrest⟩

/-! ## §2. What an event of a process keeps. -/

/-- The worker that a call works for. -/
def Proc.worker : Proc → Option UUID
  | .claim c => some c.workerId
  | .exec e => some e.workerId
  | _ => none

/-- The call has settled. -/
def Sys.Finished (s : Sys) (pid : Nat) : Prop :=
  (∃ c, s.proc pid = some (.claim c) ∧ c.isOpen = false) ∨
    ∃ e, s.proc pid = some (.exec e) ∧ e.pc = .returned

namespace Worker

variable {s : Sys} {w v u : Worker} {ev : WorkerEvent} {n : Option Nat} {pid : Nat}

/-- `inFlight` counts the calls that were handed to the limiter. -/
def Counted (w : Worker) : Prop := w.inFlight = w.executing.length + w.queue.length

/-- The limiter starts the task, or queues it. -/
theorem limit_cases (w : Worker) (pid : Nat) :
    w.limit pid = { w with running := w.running + 1, executing := pid :: w.executing } ∨
      w.limit pid = { w with queue := w.queue ++ [pid] } := by
  unfold limit
  split
  · exact .inl rfl
  · exact .inr rfl

/-- A free slot goes to nobody, or to the first task of the queue. -/
theorem free_cases (w : Worker) :
    w.free = { w with running := w.running - 1 } ∨
      ∃ pid rest, w.queue = pid :: rest ∧
        w.free = { w with queue := rest, executing := pid :: w.executing } := by
  unfold free
  split
  · exact .inl rfl
  · exact .inr ⟨_, _, ‹_›, rfl⟩

theorem AtHead.frame (h : AtHead s w v) :
    v.workerId = w.workerId ∧ v.settings = w.settings ∧ v.shutdown = w.shutdown := by
  cases h with
  | idle | empty => exact ⟨rfl, rfl, rfl⟩
  | job pid e _ _ =>
      rcases limit_cases { w with inFlight := w.inFlight + 1 } pid with heq | heq <;> rw [heq] <;>
        exact ⟨rfl, rfl, rfl⟩

/-- The count of the tasks in flight is right at the head of the loop too. -/
theorem AtHead.counted (h : AtHead s w v) (hw : w.Counted) : v.Counted := by
  cases h with
  | idle | empty => exact hw
  | job pid e _ _ =>
      unfold Counted at hw ⊢
      rcases limit_cases { w with inFlight := w.inFlight + 1 } pid with heq | heq <;> rw [heq]
      · simp only [List.length_cons]
        omega
      · simp only [List.length_append, List.length_singleton]
        omega

/-- The call that was awaited has been handed to the limiter, or is over. -/
theorem AtHead.calls (h : AtHead s w v) (hc : w.Calls pid) :
    pid ∈ v.executing ∨ pid ∈ v.queue ∨ s.Finished pid := by
  cases h with
  | idle hpoll =>
      rcases hc with hc | hc | hc
      · exact absurd hc (hpoll pid)
      · exact .inl hc
      · exact .inr (.inl hc)
  | empty p c hpoll hp hopen =>
      rcases hc with hc | hc | hc
      · obtain rfl := PollPc.claiming.inj (hpoll.symm.trans hc)
        exact .inr (.inr (.inl ⟨c, hp, hopen⟩))
      · exact .inl hc
      · exact .inr (.inl hc)
  | job p e hpoll hp =>
      have hmem : pid = p ∨ pid ∈ w.executing ∨ pid ∈ w.queue := by
        rcases hc with hc | hc | hc
        · exact .inl (PollPc.claiming.inj (hpoll.symm.trans hc)).symm
        · exact .inr (.inl hc)
        · exact .inr (.inr hc)
      rcases limit_cases { w with inFlight := w.inFlight + 1 } p with heq | heq <;> rw [heq]
      · rcases hmem with rfl | hmem | hmem
        · exact .inl List.mem_cons_self
        · exact .inl (List.mem_cons_of_mem _ hmem)
        · exact .inr (.inl hmem)
      · rcases hmem with rfl | hmem | hmem
        · exact .inr (.inl (List.mem_append_right _ List.mem_cons_self))
        · exact .inl hmem
        · exact .inr (.inl (List.mem_append_left _ hmem))

/-- No event changes the worker's id or its settings. -/
theorem Stepped.frame (h : Stepped s w ev u n) :
    u.workerId = w.workerId ∧ u.settings = w.settings := by
  cases h with
  | polled v _ _ _ _ _ hv _ | parked v _ _ _ _ _ hv _ => exact ⟨hv.frame.1, hv.frame.2.1⟩
  | freed n =>
      rcases free_cases { w with settling := n } with heq | ⟨_, _, _, heq⟩ <;> rw [heq] <;>
        exact ⟨rfl, rfl⟩
  | _ => exact ⟨rfl, rfl⟩

/-- Every event keeps the count of the tasks in flight. -/
theorem Stepped.counted (h : Stepped s w ev u n) (hw : w.Counted) : u.Counted := by
  cases h with
  | polled v _ _ _ _ _ hv _ | parked v _ _ _ _ _ hv _ => exact hv.counted hw
  | settled pid e _ _ hmem =>
      have hlen := List.length_erase_of_mem hmem
      have hpos := List.length_pos_of_mem hmem
      unfold Counted at hw ⊢
      simp only [hlen]
      omega
  | freed n =>
      unfold Counted at hw ⊢
      rcases free_cases { w with settling := n } with heq | ⟨pid, rest, hq, heq⟩ <;> rw [heq]
      · exact hw
      · simp only at hq
        simp only [hq, List.length_cons] at hw ⊢
        omega
  | _ => exact hw

/-- A call stays a call of the process until it has settled. -/
theorem Stepped.calls (h : Stepped s w ev u n) (hc : w.Calls pid) : u.Calls pid ∨ s.Finished pid := by
  cases h with
  | polled v _ _ _ _ _ hv _ | parked v _ _ _ _ _ hv _ =>
      rcases hv.calls hc with hmem | hmem | hfin
      · exact .inl (.inr (.inl hmem))
      · exact .inl (.inr (.inr hmem))
      · exact .inr hfin
  | settled p e hp hpc _ =>
      by_cases hpid : pid = p
      · exact .inr (.inr ⟨e, hpid ▸ hp, hpc⟩)
      · rcases hc with hc | hc | hc
        · exact .inl (.inl hc)
        · exact .inl (.inr (.inl ((List.mem_erase_of_ne hpid).mpr hc)))
        · exact .inl (.inr (.inr hc))
  | freed n =>
      left
      rcases free_cases { w with settling := n } with heq | ⟨p, rest, hq, heq⟩ <;> rw [heq]
      · exact hc
      · rcases hc with hc | hc | hc
        · exact .inl hc
        · exact .inr (.inl (List.mem_cons_of_mem _ hc))
        · simp only at hq
          rw [hq] at hc
          rcases List.mem_cons.mp hc with rfl | hc
          · exact .inr (.inl List.mem_cons_self)
          · exact .inr (.inr hc)
  | _ => exact .inl hc

/-- A claim that an event starts is the one the loop then awaits. -/
theorem Stepped.calls_next {next : Nat} (h : Stepped s w ev u (some next)) : u.poll = .claiming next := by
  cases h
  rfl

/-- Once `gracefulShutdown` has begun, the flag is set. -/
theorem Stepped.flag_set (h : Stepped s w ev u n)
    (hw : w.shutdown ≠ .idle → w.shuttingDown = true) :
    u.shutdown ≠ .idle → u.shuttingDown = true := by
  cases h with
  | polled v _ _ _ _ _ hv _ | parked v _ _ _ _ _ hv _ =>
      intro hne
      exact hv.shuttingDown.trans (hw (fun hidle => hne (hv.frame.2.2.trans hidle)))
  | signalled => exact fun _ => rfl
  | waits _ sd _ _ _ _ _ hsd | leaves _ sd _ _ _ _ _ hsd _ =>
      rintro -
      rcases hsd with rfl | ⟨rfl, hne⟩
      · rfl
      · exact hw hne
  | marked startTime hpc | exited startTime hpc => exact fun _ => hw (by simp [hpc])
  | freed n =>
      rcases free_cases { w with settling := n } with heq | ⟨_, _, _, heq⟩ <;> rw [heq] <;> exact hw
  | _ => exact hw

/-- An awaited claim that an event did not start was awaited before. -/
theorem Stepped.awaited (h : Stepped s w ev u none) (hpoll : u.poll = .claiming pid) :
    w.poll = .claiming pid := by
  cases h with
  | parked v pc _ _ _ _ _ hpc =>
      obtain rfl : pc = .claiming pid := hpoll
      simp at hpc
  | freed n =>
      rcases free_cases { w with settling := n } with heq | ⟨_, _, _, heq⟩ <;> rw [heq] at hpoll <;>
        exact hpoll
  | _ => exact hpoll

end Worker

/-! ## §3. Every open call belongs to a process. -/

/-- A claim stays with its worker. -/
theorem Claim.step_workerId {ctx : Ctx} {env : Env} {c c' : Claim} {db db' : Db}
    (h : c.step ctx env db = some (db', c')) : c'.workerId = c.workerId := by
  cases Claim.stepped h with
  | rolledBack | took | nothing | committed => rfl
  | selected =>
      obtain ⟨pc, he, _⟩ := c.enterLocking_entered (c.lockOrder db)
      rw [he]
  | locked id rest =>
      obtain ⟨pc, he, _⟩ := (c.lockRow db id).enterLocking_entered rest
      rw [he]
      unfold Claim.lockRow
      (repeat' split) <;> rfl
  | counted q rest =>
      obtain ⟨pc, he, _⟩ := (c.countRow db q).enterCounting_entered rest
      rw [he]
      unfold Claim.countRow
      split <;> rfl

/-- A client stays with its worker. -/
theorem Proc.step_worker {cfg : Config} {ctx : Ctx} {env : Env} {db db' : Db} {p p' : Proc}
    (h : p.step cfg ctx env db = some (db', p')) : p'.worker = p.worker := by
  cases Proc.stepped h with
  | claim c c' hq =>
      have hx : c'.workerId = c.workerId := Claim.step_workerId hq
      unfold Claim.toProc
      split <;> exact congrArg some hx
  | exec e e' hq => exact congrArg some (Exec.step_params hq).2.2
  | _ => rfl

section
variable {cfg : Config} {s s' : Sys} {a : Action} {k : Nat} {x : UUID}

/-- A client of a worker was there, or is a claim that has just been started. -/
theorem worker_origin {p' : Proc} (h : step cfg s a = some s') (hk : s'.proc k = some p')
    (hx : p'.worker = some x) :
    (∃ p, s.proc k = some p ∧ p.worker = some x) ∨
      ∃ queueIds shardKey, a = .start k (.claim x queueIds shardKey) := by
  cases origin h hk with
  | idle hk₀ _ => exact .inl ⟨p', hk₀, hx⟩
  | started request ha hp _ =>
      cases request <;> cases hp <;> cases hx
      exact .inr ⟨_, _, ha⟩
  | moved env p _ hk₀ hs => exact .inl ⟨p, hk₀, Proc.step_worker hs ▸ hx⟩

/-- A client of a worker is there after every step. -/
theorem worker_stays {p : Proc} (h : step cfg s a = some s') (hk : s.proc k = some p)
    (hx : p.worker = some x) : ∃ p', s'.proc k = some p' ∧ p'.worker = some x := by
  rcases proc_next h hk with ⟨hk', _⟩ | ⟨env, p', _, hk', hs⟩
  · exact ⟨p, hk', hx⟩
  · exact ⟨p', hk', (Proc.step_worker hs).trans hx⟩

/-- A claim that has ended does not move. -/
theorem closed_claim_stays {c : Claim} (h : step cfg s a = some s') (hk : s.proc k = some (.claim c))
    (hc : c.isOpen = false) : s'.proc k = some (.claim c) := by
  rcases proc_next h hk with ⟨hk', _⟩ | ⟨env, p', _, _, hs⟩
  · exact hk'
  · cases hpc : c.pc <;> simp [Claim.isOpen, hpc] at hc
    simp [Proc.step, Claim.step, hpc] at hs

theorem Sys.Finished.step (hf : s.Finished k) (h : JobScheduler.step cfg s a = some s') :
    s'.Finished k := by
  rcases hf with ⟨c, hk, hc⟩ | ⟨e, hk, hpc⟩
  · exact .inl ⟨c, closed_claim_stays h hk hc, hc⟩
  · rcases proc_next h hk with ⟨hk', _⟩ | ⟨env, p', _, _, hs⟩
    · exact .inr ⟨e, hk', hpc⟩
    · simp [Proc.step, Exec.step, Exec.ready, hpc] at hs

end

/-- The processes, their ids and their calls; `past` are the workers of the past. -/
structure Staffed (past : Finset UUID) (f : Fleet) : Prop where
  /-- A call for a worker has settled, or belongs to the worker's process. -/
  calls : ∀ pid p x, f.sys.proc pid = some p → p.worker = some x →
    f.sys.Finished pid ∨ ∃ k w, f.workers.lookup k = some w ∧ w.workerId = x ∧ w.Calls pid
  /-- What a poll loop awaits is a call for its worker. -/
  awaited : ∀ k w pid, f.workers.lookup k = some w → w.poll = .claiming pid →
    ∃ p, f.sys.proc pid = some p ∧ p.worker = some w.workerId
  distinct : ∀ k l v w, f.workers.lookup k = some v → f.workers.lookup l = some w →
    v.workerId = w.workerId → k = l
  recorded : ∀ k w, f.workers.lookup k = some w → w.workerId ∈ f.registered ∧ w.workerId ∉ past
  past_registered : past ⊆ f.registered
  counted : ∀ k w, f.workers.lookup k = some w → w.Counted
  flag_set : ∀ k w, f.workers.lookup k = some w → w.shutdown ≠ .idle → w.shuttingDown = true

theorem staffed_atRest (clock : Timestamp) (db : Db) (past : Finset UUID) :
    Staffed past (Fleet.atRest clock db past) where
  calls pid p x h := by simp [Fleet.atRest] at h
  awaited k w pid h := by simp [Fleet.atRest] at h
  distinct k l v w h := by simp [Fleet.atRest] at h
  recorded k w h := by simp [Fleet.atRest] at h
  past_registered := Finset.Subset.refl _
  counted k w h := by simp [Fleet.atRest] at h
  flag_set k w h := by simp [Fleet.atRest] at h

section
variable {cfg : Config} {past : Finset UUID} {f f' : Fleet} {k : Nat} {w w' : Worker}
variable {ev : WorkerEvent} {n : Option Nat}

/-- A step of the system keeps the bookkeeping of the fleet. -/
theorem Staffed.acted {a : Action} {s' : Sys} (hI : Staffed past f) (hadm : f.admits a = true)
    (hs : step cfg f.sys a = some s') :
    Staffed past { f with sys := s', closed := f.closedAfter s' a } where
  calls pid p' x hp hx := by
    rcases worker_origin hs hp hx with ⟨p, hp₀, hx₀⟩ | ⟨queueIds, shardKey, rfl⟩
    · rcases hI.calls pid p x hp₀ hx₀ with hfin | hcalled
      · exact .inl (hfin.step hs)
      · exact .inr hcalled
    · simp [Fleet.admits] at hadm
  awaited l v pid hl hpoll := by
    obtain ⟨p, hp, hx⟩ := hI.awaited l v pid hl hpoll
    exact worker_stays hs hp hx
  distinct := hI.distinct
  recorded := hI.recorded
  past_registered := hI.past_registered
  counted := hI.counted
  flag_set := hI.flag_set

/-- A fact about every process holds after one of them has changed. -/
theorem Fleet.forall_setWorker {P : Nat → Worker → Prop} (hw : P k w')
    (h : ∀ l v, l ≠ k → f.workers.lookup l = some v → P l v) :
    ∀ l v, (f.setWorker k w').workers.lookup l = some v → P l v := by
  intro l v hl
  rw [Fleet.setWorker_lookup] at hl
  split at hl
  · rename_i heq
    cases hl
    exact heq ▸ hw
  · rename_i hne
    exact h l v hne hl

/-- The process `l` after process `k` has changed. -/
theorem Fleet.worker_setWorker {P : Worker → Prop} {l : Nat} (hself : l = k → P w')
    (hother : ∀ v, f.workers.lookup l = some v → P v) :
    ∀ v, (f.setWorker k w').workers.lookup l = some v → P v := by
  intro v hl
  rw [Fleet.setWorker_lookup] at hl
  split at hl
  · cases hl
    exact hself ‹l = k›
  · exact hother v hl

/-- A client that a worker called is finished or called still, after an event. -/
theorem Fleet.called (hk : f.workers.lookup k = some w)
    (hw : w.Stepped f.sys ev w' n) {pid : Nat} {x : UUID}
    (h : ∃ l v, f.workers.lookup l = some v ∧ v.workerId = x ∧ v.Calls pid) :
    f.sys.Finished pid ∨
      ∃ l v, (f.setWorker k w').workers.lookup l = some v ∧ v.workerId = x ∧ v.Calls pid := by
  obtain ⟨l, v, hl, hx, hc⟩ := h
  by_cases hlk : l = k
  · subst hlk
    rw [hk] at hl
    cases hl
    rcases hw.calls hc with hc' | hfin
    · exact .inr ⟨l, w', by simp [Fleet.setWorker_lookup], hw.frame.1.trans hx, hc'⟩
    · exact .inl hfin
  · exact .inr ⟨l, v, by simp [Fleet.setWorker_lookup, hlk, hl], hx, hc⟩

/-- Two workers keep different ids. -/
theorem Staffed.distinct_setWorker (hI : Staffed past f)
    (hw : ∀ l v, l ≠ k → f.workers.lookup l = some v → v.workerId ≠ w'.workerId) :
    ∀ l m v u, (f.setWorker k w').workers.lookup l = some v →
      (f.setWorker k w').workers.lookup m = some u → v.workerId = u.workerId → l = m := by
  intro l m v u hl hm heq
  rw [Fleet.setWorker_lookup] at hl hm
  split at hl <;> split at hm
  · exact (‹l = k›).trans (‹m = k›).symm
  · cases hl
    exact absurd heq.symm (hw m u ‹m ≠ k› hm)
  · cases hm
    exact absurd heq (hw l v ‹l ≠ k› hl)
  · exact hI.distinct l m v u hl hm heq

/-- An event of one worker keeps the bookkeeping of the fleet. -/
theorem Staffed.turned (hI : Staffed past f) (hk : f.workers.lookup k = some w)
    (hw : w.Stepped f.sys ev w' n) :
    (∀ l m v u, (f.setWorker k w').workers.lookup l = some v →
      (f.setWorker k w').workers.lookup m = some u → v.workerId = u.workerId → l = m) ∧
    (∀ l v, (f.setWorker k w').workers.lookup l = some v →
      v.workerId ∈ f.registered ∧ v.workerId ∉ past) ∧
    (∀ l v, (f.setWorker k w').workers.lookup l = some v → v.Counted) ∧
    ∀ l v, (f.setWorker k w').workers.lookup l = some v → v.shutdown ≠ .idle →
      v.shuttingDown = true := by
  refine ⟨hI.distinct_setWorker ?_, ?_, ?_, ?_⟩
  · intro l v hne hl heq
    exact hne (hI.distinct l k v w hl hk (heq.trans hw.frame.1))
  · exact Fleet.forall_setWorker (hw.frame.1 ▸ hI.recorded k w hk) (fun l v _ hl => hI.recorded l v hl)
  · exact Fleet.forall_setWorker (hw.counted (hI.counted k w hk)) (fun l v _ hl => hI.counted l v hl)
  · exact Fleet.forall_setWorker (hw.flag_set (hI.flag_set k w hk)) (fun l v _ hl => hI.flag_set l v hl)

/-- What the poll loops await, when the calls that there were stay calls for their workers. -/
theorem Staffed.awaited_setWorker {s' : Sys} (hI : Staffed past f)
    (hnew : ∀ pid, w'.poll = .claiming pid → ∃ p, s'.proc pid = some p ∧ p.worker = some w'.workerId)
    (hstay : ∀ pid p x, f.sys.proc pid = some p → p.worker = some x →
      ∃ p', s'.proc pid = some p' ∧ p'.worker = some x) :
    ∀ l v pid, (f.setWorker k w').workers.lookup l = some v → v.poll = .claiming pid →
      ∃ p, s'.proc pid = some p ∧ p.worker = some v.workerId := by
  intro l v pid hl hpoll
  rw [Fleet.setWorker_lookup] at hl
  split at hl
  · cases hl
    exact hnew pid hpoll
  · obtain ⟨p, hp, hx⟩ := hI.awaited l v pid hl hpoll
    exact hstay pid p v.workerId hp hx

/-- One action of the fleet keeps its bookkeeping. -/
theorem staffed_step {o : FleetAction} (hI : Staffed past f) (h : f.step cfg o = some f') :
    Staffed past f' := by
  cases Fleet.stepped h with
  | acted a s' hadm hs => exact hI.acted hadm hs
  | registered k id settings hk hid =>
      refine ⟨?_, hI.awaited_setWorker (by simp) (fun _ p _ hp hx => ⟨p, hp, hx⟩),
        hI.distinct_setWorker ?_, ?_, ?_, ?_, ?_⟩
      · intro pid p x hp hx
        rcases hI.calls pid p x hp hx with hfin | ⟨l, v, hl, hrest⟩
        · exact .inl hfin
        · have hne : l ≠ k := by rintro rfl; rw [hk] at hl; cases hl
          exact .inr ⟨l, v, by simp [Fleet.setWorker_lookup, hne, hl], hrest⟩
      · rintro l v _ hl rfl
        exact hid (hI.recorded l v hl).1
      · exact Fleet.forall_setWorker
          ⟨Finset.mem_insert_self _ _, fun hmem => hid (hI.past_registered hmem)⟩
          (fun l v _ hl => ⟨Finset.mem_insert_of_mem (hI.recorded l v hl).1, (hI.recorded l v hl).2⟩)
      · exact hI.past_registered.trans (Finset.subset_insert _ _)
      · exact Fleet.forall_setWorker rfl (fun l v _ hl => hI.counted l v hl)
      · exact Fleet.forall_setWorker (by simp) (fun l v _ hl => hI.flag_set l v hl)
  | turned k ev w w' hk hstep =>
      have hw := Worker.stepped hstep
      obtain ⟨hdistinct, hrecorded, hcounted, hflag⟩ := hI.turned hk hw
      refine ⟨?_, hI.awaited_setWorker ?_ (fun _ p _ hp hx => ⟨p, hp, hx⟩), hdistinct, hrecorded,
        hI.past_registered, hcounted, hflag⟩
      · intro pid p x hp hx
        rcases hI.calls pid p x hp hx with hfin | hcalled
        · exact .inl hfin
        · exact Fleet.called hk hw hcalled
      · intro pid hpoll
        rw [hw.frame.1]
        exact hI.awaited k w pid hk (hw.awaited hpoll)
  | polled k ev w w' next s' hk hstep hs =>
      have hw := Worker.stepped hstep
      obtain ⟨hdistinct, hrecorded, hcounted, hflag⟩ := hI.turned hk hw
      refine ⟨?_, hI.awaited_setWorker ?_ (fun _ _ _ hp hx => worker_stays hs hp hx), hdistinct,
        hrecorded, hI.past_registered, hcounted, hflag⟩
      · intro pid p' x hp hx
        rcases worker_origin hs hp hx with ⟨p, hp₀, hx₀⟩ | ⟨queueIds, shardKey, hstart⟩
        · rcases hI.calls pid p x hp₀ hx₀ with hfin | hcalled
          · exact .inl (hfin.step hs)
          · exact (Fleet.called hk hw hcalled).imp (fun hfin => hfin.step hs) id
        · -- the claim that the poll loop has just started
          cases hstart
          exact .inr ⟨k, w', by simp [Fleet.setWorker_lookup], hw.frame.1, .inl hw.calls_next⟩
      · intro pid hpoll
        obtain rfl := PollPc.claiming.inj (hw.calls_next.symm.trans hpoll)
        cases JobScheduler.stepped hs with
        | start pid request _ =>
            exact ⟨_, Sys.put_proc_self _ _ _ _, congrArg some hw.frame.1.symm⟩

end

/-! ## §4. The end of the wait loop. -/

/-- What `gracefulShutdown` has taken since `startTime`, when its wait loop is
over; for a process that has exited, what it took until then. -/
def Worker.elapsed (w : Worker) (now : Timestamp) : Option Int :=
  match w.shutdown with
  | .marking startTime | .exiting startTime => some (now - startTime)
  | .exited startTime at_ => some (at_ - startTime)
  | _ => none

/-- The wait loop is over, and WORKER_SHUTDOWN_TIMEOUT_MS has not elapsed. -/
def Worker.inTime (w : Worker) (now : Timestamp) : Bool :=
  (w.elapsed now).any (fun d => decide (d < w.settings.shutdownTimeoutMs))

/-- `pollLoop` awaits a claim that is under way or has taken a job. -/
def Worker.claimPending (s : Sys) (w : Worker) : Bool :=
  match w.poll with
  | .claiming pid =>
      match s.proc pid with
      | some (.claim c) => c.isOpen
      | some (.exec _) => true
      | _ => false
  | _ => false

/-- The process has no call left and makes none. -/
structure Worker.Quiet (s : Sys) (w : Worker) : Prop where
  flag_set : w.shuttingDown = true
  executing : w.executing = []
  queue : w.queue = []
  awaited : ∀ pid, w.poll = .claiming pid → ∃ c, s.proc pid = some (.claim c) ∧ c.isOpen = false

section
variable {cfg : Config} {s s' : Sys} {a : Action} {w u : Worker} {ev : WorkerEvent} {n : Option Nat}

/-- A quiet worker stays quiet whatever the clients do. -/
theorem Worker.Quiet.acted (hq : w.Quiet s) (h : JobScheduler.step cfg s a = some s') : w.Quiet s' where
  flag_set := hq.flag_set
  executing := hq.executing
  queue := hq.queue
  awaited pid hpoll := by
    obtain ⟨c, hp, hc⟩ := hq.awaited pid hpoll
    exact ⟨c, closed_claim_stays h hp hc, hc⟩

/-- A quiet worker stays quiet over its own events. -/
theorem Worker.Quiet.turned (hq : w.Quiet s) (hw : w.Stepped s ev u n) : u.Quiet s := by
  cases hw with
  | polled v _ _ _ _ _ _ hlive | signalled _ _ _ _ hlive =>
      rw [hq.flag_set] at hlive
      cases hlive
  | parked v pc _ _ _ _ hv hpc =>
      have hnot : ∀ pid, pc ≠ .claiming pid := by rcases hpc with rfl | rfl <;> simp
      cases hv with
      | idle | empty => exact ⟨hq.flag_set, hq.executing, hq.queue, fun pid hp => absurd hp (hnot pid)⟩
      | job pid e hpoll hp =>
          obtain ⟨c, hc, _⟩ := hq.awaited pid hpoll
          rw [hp] at hc
          cases hc
  | settled pid e _ _ hmem =>
      rw [hq.executing] at hmem
      cases hmem
  | freed n =>
      rcases Worker.free_cases { w with settling := n } with heq | ⟨_, _, hne, _⟩
      · rw [heq]
        exact ⟨hq.flag_set, hq.executing, hq.queue, hq.awaited⟩
      · simp only at hne
        rw [hq.queue] at hne
        cases hne
  | waits _ sd _ _ _ _ _ hsd | leaves _ sd _ _ _ _ _ hsd _ =>
      refine ⟨?_, hq.executing, hq.queue, hq.awaited⟩
      rcases hsd with rfl | ⟨rfl, _⟩
      · rfl
      · exact hq.flag_set
  | stirred | marked | exited => exact ⟨hq.flag_set, hq.executing, hq.queue, hq.awaited⟩

/-- With nothing in flight both lists are empty. -/
theorem Worker.Counted.lists_empty (hw : w.Counted) (h : w.inFlight = 0) :
    w.executing = [] ∧ w.queue = [] := by
  unfold Counted at hw
  exact ⟨List.length_eq_zero_iff.mp (by omega), List.length_eq_zero_iff.mp (by omega)⟩

/-- A claim that is not pending has come back without a job. -/
theorem Worker.awaited_closed (hn : w.claimPending s = false)
    (ha : ∀ pid, w.poll = .claiming pid → ∃ p, s.proc pid = some p ∧ p.worker = some w.workerId) :
    ∀ pid, w.poll = .claiming pid → ∃ c, s.proc pid = some (.claim c) ∧ c.isOpen = false := by
  intro pid hpoll
  obtain ⟨p, hp, hx⟩ := ha pid hpoll
  simp only [claimPending, hpoll, hp] at hn
  cases p with
  | claim c => exact ⟨c, hp, hn⟩
  | exec e => cases hn
  | _ => cases hx

/-- **One event.**  A process that has left the wait loop in time is quiet. -/
theorem Worker.Stepped.quiet (hw : w.Stepped s ev u n) (hcount : w.Counted)
    (hflag : w.shutdown ≠ .idle → w.shuttingDown = true)
    (ha : ∀ pid, w.poll = .claiming pid → ∃ p, s.proc pid = some p ∧ p.worker = some w.workerId)
    (hcond : (w.checks ev && decide (w.inFlight = 0) && w.claimPending s) = false)
    (hold : w.inTime s.clock = true → w.Quiet s) (hin : u.inTime s.clock = true) : u.Quiet s := by
  have hstill : w.inTime s.clock = true → u.Quiet s := fun h => (hold h).turned hw
  cases hw with
  | polled v _ _ _ _ _ hv _ | parked v _ _ _ _ _ hv _ =>
      refine hstill ?_
      rw [← hin]
      simp only [inTime, elapsed, stir, hv.frame.2.1, hv.frame.2.2]
  | freed n =>
      refine hstill ?_
      rw [← hin]
      rcases free_cases { w with settling := n } with heq | ⟨_, _, _, heq⟩ <;> rw [heq] <;> rfl
  | settled | stirred => exact hstill hin
  | signalled | waits => simp [inTime, elapsed, stir] at hin
  | marked startTime hpc | exited startTime hpc =>
      refine hstill ?_
      rw [← hin]
      simp only [inTime, elapsed, hpc]
  | leaves startTime sd x y t b hev hsd hwhy =>
      -- the loop ends before the timeout: nothing is in flight
      have hzero : w.inFlight = 0 := by
        refine hwhy.resolve_right (not_le.mpr ?_)
        simp only [inTime, elapsed, stir, Option.any_some] at hin
        exact of_decide_eq_true hin
      obtain ⟨hex, hqueue⟩ := hcount.lists_empty hzero
      have hn : w.claimPending s = false := by simpa [hev, hzero] using hcond
      refine ⟨?_, hex, hqueue, awaited_closed hn ha⟩
      rcases hsd with rfl | ⟨rfl, hne⟩
      · rfl
      · exact hflag hne

theorem clock_le (h : step cfg s a = some s') : s.clock ≤ s'.clock := by
  cases stepped h with
  | wait ms => exact Int.le_add_of_nonneg_right (Int.natCast_nonneg ms)
  | start | run => exact le_rfl

theorem Worker.inTime_of_le {t t' : Timestamp} (h : t ≤ t') (hin : w.inTime t' = true) :
    w.inTime t = true := by
  unfold inTime elapsed at hin ⊢
  split at hin
  · simp only [Option.any_some, decide_eq_true_eq] at hin ⊢
    exact (Int.sub_le_sub_right h _).trans_lt hin
  · simp only [Option.any_some, decide_eq_true_eq] at hin ⊢
    exact (Int.sub_le_sub_right h _).trans_lt hin
  · exact hin
  · cases hin

end

/-! ## §5. Whole runs. -/

/-- The action may leave a job behind under the worker id `x` of process `k`: the
wait loop of the process ends while its poll loop awaits a claim that is under
way or has taken a job; a call of the worker lets a job go; or a call of another
worker sets one of the worker's old jobs running. -/
def FleetAction.loses (cfg : Config) (f : Fleet) (k : Nat) (x : UUID) : FleetAction → Bool
  | .act a => a.abandons cfg f.sys x || a.rerunsFor cfg f.sys x
  | .register _ _ _ => false
  | .event l ev =>
      decide (l = k) && (f.workers.lookup k).any (fun w =>
        w.checks ev && decide (w.inFlight = 0) && w.claimPending f.sys)

/-- The action is the COMMIT of a job by a claim for the worker. -/
def FleetAction.claims (f : Fleet) (x : UUID) : FleetAction → Bool
  | .act (.run pid env) =>
      match f.sys.proc pid with
      | some (.claim c) =>
          decide (c.workerId = x) && !env.fails &&
            match c.pc with
            | .committing (some _) => true
            | _ => false
      | _ => false
  | _ => false

/-- What the shutdown of process `k`, with worker id `x`, rests on. -/
structure Overseen (past : Finset UUID) (k : Nat) (x : UUID) (f : Fleet) : Prop where
  inserts : InsertsPending f.sys
  staffed : Staffed past f
  attended : AttendedBy x f.sys
  quiet : ∀ w, f.workers.lookup k = some w → w.inTime f.sys.clock = true → w.Quiet f.sys

/-- A worker id that no row names has nothing to answer for. -/
theorem overseen_atRest {clock : Timestamp} {db : Db} {past : Finset UUID} {k : Nat} {x : UUID}
    (hfk : ∀ j row y, db.jobs.lookup j = some row → row.workerId = some y → y ∈ past) (hx : x ∉ past) :
    Overseen past k x (Fleet.atRest clock db past) where
  inserts := insertsPending_atRest clock db
  staffed := staffed_atRest clock db past
  attended j hj := by
    obtain ⟨row, hrow, _, hrx⟩ := (db.heldBy_iff x j).mp hj
    exact absurd (hfk j row x hrow hrx) hx
  quiet w h := by simp [Fleet.atRest] at h

theorem Overseen.quiet_turned {cfg : Config} {past : Finset UUID} {k : Nat} {x : UUID} {f : Fleet}
    {ev : WorkerEvent} {w w' : Worker} {n : Option Nat} (hI : Overseen past k x f)
    (hcond : FleetAction.loses cfg f k x (.event k ev) = false) (hk : f.workers.lookup k = some w)
    (hw : w.Stepped f.sys ev w' n) (hin : w'.inTime f.sys.clock = true) : w'.Quiet f.sys := by
  have hc : (w.checks ev && decide (w.inFlight = 0) && w.claimPending f.sys) = false := by
    simpa [FleetAction.loses, hk] using hcond
  exact hw.quiet (hI.staffed.counted k w hk) (hI.staffed.flag_set k w hk)
    (fun pid => hI.staffed.awaited k w pid hk) hc (hI.quiet w hk) hin

/-- One action keeps the shutdown under control, unless it loses a job. -/
theorem overseen_step {cfg : Config} {past : Finset UUID} {k : Nat} {x : UUID} {f f' : Fleet}
    {o : FleetAction} (hI : Overseen past k x f) (hcond : o.loses cfg f k x = false)
    (h : f.step cfg o = some f') : Overseen past k x f' where
  staffed := staffed_step hI.staffed h
  inserts := by
    rcases Fleet.step_sys h with heq | ⟨a, hs⟩
    · exact heq ▸ hI.inserts
    · exact insertsPending_step hI.inserts hs
  attended := by
    cases Fleet.stepped h with
    | acted a s' _ hs =>
        obtain ⟨hab, hrev⟩ := Bool.or_eq_false_iff.mp hcond
        exact attendedBy_step hI.inserts hI.attended hab hrev hs
    | registered | turned => exact hI.attended
    | polled l ev w w' next s' _ _ hs =>
        -- starting a claim moves no call
        exact attendedBy_step hI.inserts hI.attended rfl rfl hs
  quiet := by
    cases Fleet.stepped h with
    | acted a s' _ hs =>
        intro w hw hin
        exact (hI.quiet w hw (Worker.inTime_of_le (clock_le hs) hin)).acted hs
    | registered l id settings hk _ =>
        refine Fleet.worker_setWorker (fun _ hin => ?_) hI.quiet
        simp [Worker.inTime, Worker.elapsed] at hin
    | turned l ev w w' hl hstep =>
        refine Fleet.worker_setWorker ?_ hI.quiet
        rintro rfl hin
        exact hI.quiet_turned hcond hl (Worker.stepped hstep) hin
    | polled l ev w w' next s' hl hstep hs =>
        have hclock : s'.clock = f.sys.clock := by
          cases JobScheduler.stepped hs with
          | start => rfl
        refine Fleet.worker_setWorker ?_ (fun v hv hin => (hI.quiet v hv (hclock ▸ hin)).acted hs)
        rintro rfl hin
        exact (hI.quiet_turned hcond hl (Worker.stepped hstep) (hclock ▸ hin)).acted hs

/-- A quiet process has no open claim. -/
theorem Overseen.no_open_claim {past : Finset UUID} {k : Nat} {x : UUID} {f : Fleet} {w : Worker}
    (hI : Overseen past k x f) (hk : f.workers.lookup k = some w) (hx : w.workerId = x)
    (hq : w.Quiet f.sys) {pid : Nat} {p : Proc} (hp : f.sys.proc pid = some p)
    (hpx : p.worker = some x) : f.sys.Finished pid := by
  rcases hI.staffed.calls pid p x hp hpx with hfin | ⟨l, v, hl, hv, hcall⟩
  · exact hfin
  · obtain rfl := hI.staffed.distinct l k v w hl hk (hv.trans hx.symm)
    rw [hk] at hl
    cases hl
    rcases hcall with hpoll | hmem | hmem
    · exact .inl (hq.awaited pid hpoll)
    · rw [hq.executing] at hmem
      cases hmem
    · rw [hq.queue] at hmem
      cases hmem

/-- The shutdown stays under control in every run that loses nothing. -/
theorem overseen_run {cfg : Config} {past : Finset UUID} {k : Nat} {x : UUID} {f₀ f : Fleet}
    {tr : List (Fleet × FleetAction)} (h₀ : Overseen past k x f₀) (h : FleetRun cfg f₀ tr f)
    (hcond : ∀ p ∈ tr, p.2.loses cfg p.1 k x = false) : Overseen past k x f :=
  h.invariant (G := fun f o => o.loses cfg f k x = false)
    (fun _ _ _ hI hg hs => overseen_step hI hg hs) hcond h₀

theorem staffed_run {cfg : Config} {past : Finset UUID} {f₀ f : Fleet}
    {tr : List (Fleet × FleetAction)} (h₀ : Staffed past f₀) (h : FleetRun cfg f₀ tr f) :
    Staffed past f :=
  h.invariant (G := fun _ _ => True) (fun _ _ _ hI _ hs => staffed_step hI hs) (by simp) h₀

/-- **A graceful shutdown abandons nothing, when its wait loop sees every call.**
In every run of any number of worker processes and other clients, from a database
whose jobs name workers of the `workers` table: if no step may leave a job behind
under the worker id of process `k`, then whenever the wait loop of the process has
ended and its timeout has not elapsed, no job is claimed or running under this
id, and no claim for it commits any more. -/
theorem shutdown_abandons_nothing {cfg : Config} {clock : Timestamp} {db : Db} {past : Finset UUID}
    {f : Fleet} {tr : List (Fleet × FleetAction)} {k : Nat} {w : Worker}
    (hrun : FleetRun cfg (Fleet.atRest clock db past) tr f)
    (hfk : ∀ j row y, db.jobs.lookup j = some row → row.workerId = some y → y ∈ past)
    (hk : f.workers.lookup k = some w)
    (hcond : ∀ p ∈ tr, p.2.loses cfg p.1 k w.workerId = false)
    (hin : w.inTime f.sys.clock = true) :
    (∀ j, f.sys.db.heldBy w.workerId j = false) ∧
      ∀ o : FleetAction, o.claims f w.workerId = false := by
  have hx : w.workerId ∉ past := ((staffed_run (staffed_atRest clock db past) hrun).recorded k w hk).2
  have hI := overseen_run (overseen_atRest hfk hx) hrun hcond
  have hq := hI.quiet w hk hin
  constructor
  · intro j
    by_contra hheld
    obtain ⟨l, e, hl, _, hex, hew⟩ := hI.attended j (eq_true_of_ne_false hheld)
    rcases hI.no_open_claim hk rfl hq hl (congrArg some hex) with ⟨c, hc, _⟩ | ⟨e', he', hpc⟩
    · rw [hl] at hc
      cases hc
    · rw [hl] at he'
      cases he'
      simp [Exec.working, Exec.stage, hpc, ExecPc.stage] at hew
  · intro o
    by_contra hclaims
    rw [Bool.not_eq_false] at hclaims
    unfold FleetAction.claims at hclaims
    split at hclaims
    · split at hclaims
      · rename_i pid env c hp
        simp only [Bool.and_eq_true, decide_eq_true_eq] at hclaims
        obtain ⟨⟨hcx, _⟩, hpc⟩ := hclaims
        rcases hI.no_open_claim hk rfl hq hp (congrArg some hcx) with ⟨c', hc', ho⟩ | ⟨e, he, _⟩
        · rw [hp] at hc'
          cases hc'
          split at hpc
          · rename_i hcommit
            simp [Claim.isOpen, hcommit] at ho
          · cases hpc
        · rw [hp] at he
          cases he
      · cases hclaims
    · cases hclaims

/-- One worker process, with worker id 5, can start; job 7 is queued. -/
def Fleet.calm : Fleet := Fleet.atRest 0 (Db.small 1 [(7, Job.small .queued)]) ∅

/-- Five slots, no shard and a timeout of thirty seconds. -/
def WorkerSettings.small : WorkerSettings :=
  { maxParallelJobs := 5, shardKey := "", shutdownTimeoutMs := 30000 }

/-- `n` statements of one client, all alike. -/
def FleetAction.runs (pid : Nat) (env : Env) (n : Nat) : List FleetAction :=
  (Action.runs pid env n).map .act

/-- SIGTERM arrives while job 7 is in flight and the next claim is awaited; the
claim comes back empty, the job completes, and the process exits. -/
def patientActions : List FleetAction :=
  [.register 0 5 .small, .event 0 (.listening 10)]
    ++ FleetAction.runs 10 { now := 0, pick := some 7 } 5
    ++ [.event 0 (.claimed 11), .event 0 .signal, .event 0 .unlistened]
    ++ FleetAction.runs 11 { now := 0 } 4 ++ [.event 0 (.claimed 12)]
    ++ FleetAction.runs 10 { now := 0, fresh := 100 } 14
    ++ [.event 0 (.settled 10), .event 0 .freed, .event 0 (.timer .shutdown 12),
      .event 0 .markedOffline, .event 0 .exit]

theorem shutdown_abandons_nothing_patient :
    ∃ f w, f = play (Fleet.step Config.small) Fleet.calm patientActions ∧
      f.workers.lookup 0 = some w ∧ w.shutdown = .exited 0 0 ∧
      f.sys.db.statusOf 7 = some .completed ∧ f.sys.db.heldBy 5 7 = false ∧
      ∀ o : FleetAction, o.claims f 5 = false := by
  have hrun := run_of_play (Fleet.step Config.small) Fleet.calm patientActions (by rfl)
  have hfk : ∀ j row y, (Db.small 1 [(7, Job.small .queued)]).jobs.lookup j = some row →
      row.workerId = some y → y ∈ (∅ : Finset UUID) := by
    intro j row y hrow hy
    -- the one job has no worker
    have hjob : ((∅ : Table UUID Job).insert 7 (Job.small .queued)).lookup j = some row := hrow
    rcases Table.lookup_insert_eq_some.mp hjob with ⟨_, rfl⟩ | ⟨_, hold⟩
    · cases hy
    · cases hold
  obtain ⟨hheld, hclaims⟩ := shutdown_abandons_nothing (k := 0) hrun hfk rfl (by decide) rfl
  exact ⟨_, _, rfl, rfl, rfl, rfl, hheld 7, hclaims⟩

/-- SIGTERM arrives while the first claim is awaited: nothing is in flight, the
process marks its worker offline, and then the claim commits. -/
def hastyActions : List FleetAction :=
  [.register 0 5 .small, .event 0 (.listening 10)]
    ++ FleetAction.runs 10 { now := 0, pick := some 7 } 4
    ++ [.event 0 .signal, .event 0 .unlistened, .event 0 .markedOffline,
      .act (.run 10 { now := 0 }), .event 0 .exit]

/-- No statement fails, the process exits at once, and job 7 is claimed by the
worker after it was marked offline. -/
theorem shutdown_abandons_awaited_claim :
    ∃ tr f w, FleetRun Config.small Fleet.calm tr f ∧ f.workers.lookup 0 = some w ∧
      w.shutdown = .exited 0 0 ∧ w.inTime f.sys.clock = true ∧
      f.sys.db.heldBy w.workerId 7 = true ∧
      ∃ p ∈ tr, p.2.claims p.1 w.workerId = true ∧
        ∃ v, p.1.workers.lookup 0 = some v ∧ v.shutdown = .exiting 0 := by
  have hrun := run_of_play_at (Fleet.step Config.small) Fleet.calm
    (hastyActions.take 9) (.act (.run 10 { now := 0 })) [.event 0 .exit] (by rfl)
  exact ⟨_, _, _, hrun, rfl, rfl, rfl, rfl, _, List.mem_append_right _ List.mem_cons_self, rfl,
    _, rfl, rfl⟩

end JobScheduler
