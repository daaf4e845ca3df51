/-
  JobScheduler.Monitoring.Occupancy
  ─────────────────────────────────
  The two figures that show how busy a worker is: `active_jobs` of GET /workers,
  counted in the jobs table, and `active_job_count` of a heartbeat, which is the
  `inFlight` of the process.  Neither exceeds the number of jobs that the process
  runs in parallel: a claim is only started while there is room for its job, and a
  job under the worker's id is in the hands of one of its calls.
-/
import JobScheduler.Execution.Slots
import JobScheduler.Monitoring.Detection

namespace JobScheduler

open Relational Transition

/-! ## §1. Jobs and calls. -/

/-- The job that the client executes. -/
def Sys.jobOf (s : Sys) (pid : Nat) : UUID :=
  match s.proc pid with
  | some (.exec e) => e.jobId
  | _ => 0

/-- The calls of a process that have not settled. -/
def Worker.openCalls (w : Worker) : List Nat :=
  (match w.poll with
    | .claiming pid => [pid]
    | _ => []) ++ (w.executing ++ w.queue)

namespace Worker

variable {w : Worker}

theorem mem_openCalls {pid : Nat} (h : w.Calls pid) : pid ∈ w.openCalls := by
  unfold openCalls
  rcases h with hpoll | hmem | hmem
  · simp [hpoll]
  · exact List.mem_append_right _ (List.mem_append_left _ hmem)
  · exact List.mem_append_right _ (List.mem_append_right _ hmem)

/-- A worker has no more open calls than slots. -/
theorem Slots.openCalls_le (hS : w.Slots) : w.openCalls.length ≤ w.settings.maxParallelJobs := by
  have hcount : w.inFlight = w.executing.length + w.queue.length := hS.counted
  have hle := hS.inFlight_le
  unfold openCalls
  split
  · rename_i pid hpoll
    -- the job of the claim that is awaited has its slot
    have hroom := hS.room pid hpoll
    simp only [List.length_append, List.length_singleton]
    omega
  · simp only [List.length_append, List.length_nil]
    omega

end Worker

/-- The jobs under a worker's id are at most as many as its process has calls. -/
theorem held_le_openCalls {past : Finset UUID} {f : Fleet} {k : Nat} {w : Worker}
    (hstaff : Staffed past f)
    (hA : AttendedBy w.workerId f.sys) (hk : f.workers.lookup k = some w) :
    f.sys.db.jobs.count (fun _ j => decide (j.workerId = some w.workerId) && j.status.active)
      ≤ w.openCalls.length := by
  have hsub : f.sys.db.jobs.keysWhere
        (fun _ j => decide (j.workerId = some w.workerId) && j.status.active)
      ⊆ w.openCalls.toFinset.image f.sys.jobOf := by
    intro j hj
    obtain ⟨row, hrow, hheld⟩ := (Table.mem_keysWhere _ _ _).mp hj
    simp only [Bool.and_eq_true, decide_eq_true_eq] at hheld
    obtain ⟨pid, e, hpid, hej, hex, hew⟩ := hA j
      ((f.sys.db.heldBy_iff _ _).mpr ⟨row, hrow, hheld.2, hheld.1⟩)
    rcases hstaff.calls pid _ w.workerId hpid (congrArg some hex) with hfin | ⟨l, v, hl, hv, hcall⟩
    · rcases hfin with ⟨c, hc, _⟩ | ⟨e', he', hpc⟩
      · rw [hpid] at hc
        cases hc
      · rw [hpid] at he'
        cases he'
        simp [Exec.working, Exec.stage, hpc, ExecPc.stage] at hew
    · obtain rfl := hstaff.distinct l k v w hl hk hv
      rw [hk] at hl
      cases hl
      refine Finset.mem_image.mpr ⟨pid, List.mem_toFinset.mpr (Worker.mem_openCalls hcall), ?_⟩
      simp [Sys.jobOf, hpid, hej]
  calc Table.count _ _ ≤ (w.openCalls.toFinset.image f.sys.jobOf).card := Finset.card_le_card hsub
    _ ≤ w.openCalls.toFinset.card := Finset.card_image_le
    _ ≤ w.openCalls.length := List.toFinset_card_le _

/-! ## §2. The run of the fleet. -/

/-- A call lets a job go that stays under the worker's id, or one of another worker sets
an old job of this worker running. -/
def PresenceAction.drops (cfg : Config) (r : Presence) (x : UUID) : PresenceAction → Bool
  | .fleet (.act a) => a.abandons cfg r.fleet.sys x || a.rerunsFor cfg r.fleet.sys x
  | _ => false

section
variable {cfg : Config} {clock : Timestamp} {db : Db} {rows : Table UUID WorkerRow}
variable {heartbeats : List WorkerHeartbeat} {tr : List (Presence × PresenceAction)} {r r' : Presence}
variable {o : PresenceAction} {k : Nat} {w : Worker}

/-- What the heartbeats add to the fleet leaves its steps as they are. -/
theorem Presence.step_fleet (h : r.step cfg o = some r') :
    r'.fleet = r.fleet ∨ ∃ o', o = .fleet o' ∧ r.fleet.step cfg o' = some r'.fleet := by
  cases Presence.stepped h with
  | acted _ _ _ f hf => exact .inr ⟨_, rfl, hf⟩
  | registered _ _ _ f _ _ hf => exact .inr ⟨_, rfl, hf⟩
  | turned _ _ _ _ _ _ f _ _ _ hf => exact .inr ⟨_, rfl, hf⟩
  | beaten => exact .inl (Presence.fleet_write _ _ _)

/-- A run with heartbeats is a run of the fleet. -/
theorem fleetRun_of_presence (h : PresenceRun cfg (Presence.atRest clock db rows heartbeats) tr r) :
    ∃ tr', FleetRun cfg (Fleet.atRest clock db rows.keys.toFinset) tr' r.fleet := by
  induction h with
  | nil => exact ⟨[], .nil⟩
  | snoc _ hs ih =>
      obtain ⟨tr', hrun⟩ := ih
      rcases Presence.step_fleet hs with heq | ⟨o', _, hf⟩
      · exact ⟨tr', heq ▸ hrun⟩
      · exact ⟨_, hrun.snoc hf⟩

theorem slots_presence (h : PresenceRun cfg (Presence.atRest clock db rows heartbeats) tr r)
    (hk : r.fleet.workers.lookup k = some w) : w.Slots := by
  obtain ⟨tr', hrun⟩ := fleetRun_of_presence h
  obtain ⟨id, settings, _, hw⟩ := workerRun_of_fleet hrun hk
  exact (worker_run hw).1

/-- Every job that a worker holds is attended, in a run that drops none. -/
theorem attended_presence {x : UUID}
    (hfk : ∀ j row y, db.jobs.lookup j = some row → row.workerId = some y → y ∈ rows) (hx : x ∉ rows)
    (h : PresenceRun cfg (Presence.atRest clock db rows heartbeats) tr r)
    (hdrops : ∀ p ∈ tr, p.2.drops cfg p.1 x = false) :
    InsertsPending r.fleet.sys ∧ AttendedBy x r.fleet.sys := by
  refine h.invariant (I := fun r => InsertsPending r.fleet.sys ∧ AttendedBy x r.fleet.sys)
    (G := fun r o => o.drops cfg r x = false) ?_ hdrops ⟨insertsPending_atRest clock db, ?_⟩
  · rintro r o r' ⟨hI, hA⟩ hd hs
    cases Presence.stepped hs with
    | acted a s' hs' f hf hsys _ =>
        obtain ⟨hab, hrev⟩ := Bool.or_eq_false_iff.mp hd
        exact ⟨hsys ▸ insertsPending_step hI hs', hsys ▸ attendedBy_step hI hA hab hrev hs'⟩
    | registered k id settings f _ _ hf =>
        cases Fleet.stepped hf with
        | registered => exact ⟨hI, hA⟩
    | turned k ev p w w' n f _ _ _ hf =>
        cases Fleet.stepped hf with
        | turned => exact ⟨hI, hA⟩
        | polled _ _ _ _ next s' _ _ hs' =>
            exact ⟨insertsPending_step hI hs', attendedBy_step hI hA rfl rfl hs'⟩
    | beaten =>
        rw [Presence.fleet_write]
        exact ⟨hI, hA⟩
  · -- no job names a worker that is still to come
    intro j hj
    obtain ⟨row, hrow, _, hrx⟩ := (db.heldBy_iff x j).mp hj
    exact absurd (hfk j row x hrow hrx) hx

/-! ## §3. The figures. -/

/-- **`active_jobs` respects the limit.**  In every run in which no call lets a job of
the worker go, GET /workers counts at most `maxParallelJobs` jobs for it. -/
theorem active_jobs_bounded {timeout : Int} {q : PageQuery} {reply : Page WorkerView} {v : WorkerView}
    (hfk : ∀ j row y, db.jobs.lookup j = some row → row.workerId = some y → y ∈ rows)
    (hrun : PresenceRun cfg (Presence.atRest clock db rows heartbeats) tr r)
    (hk : r.fleet.workers.lookup k = some w)
    (hdrops : ∀ p ∈ tr, p.2.drops cfg p.1 w.workerId = false)
    (hreply : r.Workers timeout q reply) (hv : v ∈ reply.data) (hid : v.id = w.workerId) :
    v.activeJobs ≤ w.settings.maxParallelJobs := by
  have hstaff := staffed_presence hrun
  have hnew : w.workerId ∉ rows := fun hmem =>
    (hstaff.recorded k w hk).2 (List.mem_toFinset.mpr (AList.mem_keys.mp hmem))
  have hA := (attended_presence hfk hnew hrun hdrops).2
  rw [(hreply.mem hv).2.2, hid]
  exact (held_le_openCalls hstaff hA hk).trans (slots_presence hrun hk).openCalls_le

/-- The process claims job 7 and sends a heartbeat. -/
def claimingActions : List PresenceAction :=
  [.fleet (.register 0 5 .small), .fleet (.event 0 (.listening 10))]
    ++ (FleetAction.runs 10 { now := 0, pick := some 7 } 5).map .fleet
    ++ [.fleet (.event 0 (.claimed 11)), .pulse 0 .tick, .pulse 0 (.updated 0 .busy 0 false),
      .pulse 0 .resumed, .pulse 0 (.inserted 0 1 0 false)]

theorem active_jobs_bounded_claiming :
    ∃ r v, r = play (Presence.step Config.small) Presence.calm claimingActions ∧
      v ∈ (r.onlyWorker 30000 ⟨.busy, some 0, 0⟩).data ∧ v.activeJobs = 1 ∧ v.activeJobs ≤ 5 := by
  have hrun := run_of_play (Presence.step Config.small) Presence.calm claimingActions (by rfl)
  have hreply : (play (Presence.step Config.small) Presence.calm claimingActions).Workers 30000
    ⟨none, none⟩
      ((play (Presence.step Config.small) Presence.calm claimingActions).onlyWorker 30000
        ⟨.busy, some 0, 0⟩) :=
    ⟨_, ⟨.refl _, List.pairwise_singleton _ _⟩, rfl⟩
  have hfk : ∀ j row y, (Db.small 1 [(7, Job.small .queued)]).jobs.lookup j = some row →
      row.workerId = some y → y ∈ (∅ : Table UUID WorkerRow) := by
    intro j row y hrow hy
    -- the one job has no worker
    have hjob : ((∅ : Table UUID Job).insert 7 (Job.small .queued)).lookup j = some row := hrow
    rcases Table.lookup_insert_eq_some.mp hjob with ⟨_, rfl⟩ | ⟨_, hold⟩
    · cases hy
    · cases hold
  exact ⟨_, _, rfl, List.mem_singleton_self _, by rfl,
    active_jobs_bounded (k := 0) hfk hrun rfl (by decide +kernel) hreply
      (List.mem_singleton_self _) rfl⟩

/-- The counts of the heartbeats, written and under way. -/
structure Logged (heartbeats : List WorkerHeartbeat) (r : Presence) : Prop where
  beats : ∀ k w p, r.fleet.workers.lookup k = some w → r.pulses.lookup k = some p →
    ∀ t n, Beat.inserting t n ∈ p.beats → n ≤ w.settings.maxParallelJobs
  rows : ∀ h ∈ r.heartbeats, h ∈ heartbeats ∨
    ∃ k w, r.fleet.workers.lookup k = some w ∧ w.workerId = h.workerId ∧
      h.activeJobCount ≤ w.settings.maxParallelJobs

/-- No count that the timer reports exceeds what was in flight. -/
theorem Pulse.react_counts {w : Worker} {p p' : Pulse} {ev : PulseEvent} {out : Written} {n : Nat}
    (hbeats : ∀ t m, Beat.inserting t m ∈ p.beats → m ≤ n) (hin : w.inFlight ≤ n)
    (h : p.react clock w ev = some (p', out)) :
    (∀ t m, Beat.inserting t m ∈ p'.beats → m ≤ n) ∧ ∀ t m, out = .heartbeat t m → m ≤ n := by
  have herase : ∀ b t m, Beat.inserting t m ∈ p.beats.erase b → m ≤ n :=
    fun b t m hm => hbeats t m (List.mem_of_mem_erase hm)
  cases ev <;> simp only [react] at h
  case tick =>
    split at h
    · cases h
      exact ⟨fun t m hm => hbeats t m (by simpa using hm), by simp⟩
    · cases h
  case updated sentAt status now fails =>
    split at h
    · cases fails
      · cases h
        exact ⟨fun t m hm => hbeats t m (by simpa using hm), by simp⟩
      · cases h
        exact ⟨herase _, by simp⟩
    · cases h
  case resumed =>
    split at h
    · cases h
      refine ⟨fun t m hm => ?_, by simp⟩
      rcases List.mem_cons.mp hm with heq | hm
      · cases heq
        exact hin
      · exact herase _ t m hm
    · cases h
  case inserted sentAt count now fails =>
    split at h
    · rename_i hok
      cases fails
      · cases h
        refine ⟨herase _, fun t m heq => ?_⟩
        cases heq
        exact hbeats sentAt count hok.1
      · cases h
        exact ⟨herase _, by simp⟩
    · cases h
  case marked now fails =>
    split at h
    · cases h
    · split at h
      · cases h
        refine ⟨hbeats, fun t m heq => ?_⟩
        cases fails <;> cases heq
      · cases h

/-- A new heartbeat is the one just written. -/
theorem Presence.heartbeats_write (r : Presence) (id : UUID) (out : Written) {h : WorkerHeartbeat}
    (hh : h ∈ (r.write id out).heartbeats) :
    h ∈ r.heartbeats ∨ ∃ t n, out = .heartbeat t n ∧ h = ⟨id, t, n⟩ := by
  cases out with
  | heartbeat t n =>
      rcases List.mem_append.mp hh with hold | hnew
      · exact .inl hold
      · exact .inr ⟨t, n, rfl, List.mem_singleton.mp hnew⟩
  | _ => exact .inl hh

/-- One action logs no count above the slots. -/
theorem logged_step (hL : Logged heartbeats r)
    (hS : ∀ k w, r.fleet.workers.lookup k = some w → w.Slots) (h : r.step cfg o = some r') :
    Logged heartbeats r' := by
  cases Presence.stepped h with
  | acted a s' hs f hf hsys hw =>
      refine ⟨?_, ?_⟩
      · rw [hw]
        exact hL.beats
      · rw [hw]
        exact hL.rows
  | registered l id settings f hl hid hf hw hclock =>
      refine ⟨fun k w p hk hp t n hmem => ?_, fun x hx => (hL.rows x hx).imp_right ?_⟩
      · rw [hw, Table.lookup_insert_ite] at hk
        simp only [Presence.enrol, Table.lookup_insert_ite] at hp
        split at hk
        · rw [if_pos ‹k = l›] at hp
          cases hp
          cases hmem
        · rw [if_neg ‹¬k = l›] at hp
          exact hL.beats k w p hk hp t n hmem
      · rintro ⟨k, w, hk, hrest⟩
        have hne : k ≠ l := by
          rintro rfl
          rw [hl] at hk
          cases hk
        exact ⟨k, w, by rw [hw, Table.lookup_insert_ite, if_neg hne]; exact hk, hrest⟩
  | turned l ev q v w' n f hq hl hev hf hw hclock =>
      obtain ⟨hsame, hsettings⟩ := (Worker.stepped hev).frame
      refine ⟨fun k w p hk hp t n hmem => ?_, fun x hx => (hL.rows x hx).imp_right ?_⟩
      · rw [hw, Table.lookup_insert_ite] at hk
        simp only [Presence.setPulse, Table.lookup_insert_ite] at hp
        split at hk
        · rw [if_pos ‹k = l›] at hp
          cases hk
          cases hp
          rw [hsettings]
          refine hL.beats l v q hl hq t n ?_
          unfold Pulse.follow at hmem
          split at hmem <;> exact hmem
        · rw [if_neg ‹¬k = l›] at hp
          exact hL.beats k w p hk hp t n hmem
      · rintro ⟨k, w, hk, hid, hle⟩
        by_cases hkl : k = l
        · rw [hkl, hl] at hk
          cases hk
          exact ⟨l, w', by rw [hw, Table.lookup_insert_ite, if_pos rfl], hsame.trans hid,
            hsettings ▸ hle⟩
        · exact ⟨k, w, by rw [hw, Table.lookup_insert_ite, if_neg hkl]; exact hk, hid, hle⟩
  | beaten l ev q q' v out hq hl hev =>
      obtain ⟨hbeats, hout⟩ := Pulse.react_counts (hL.beats l v q hl hq) (hS l v hl).inFlight_le hev
      refine ⟨fun k w p hk hp t n hmem => ?_, fun x hx => ?_⟩
      · rw [Presence.fleet_write] at hk
        rw [Presence.pulses_write] at hp
        simp only [Presence.setPulse, Table.lookup_insert_ite] at hk hp
        split at hp
        · rename_i hkl
          rw [hkl, hl] at hk
          cases hk
          cases hp
          exact hbeats t n hmem
        · exact hL.beats k w p hk hp t n hmem
      · rw [Presence.fleet_write]
        rcases Presence.heartbeats_write _ _ _ hx with hold | ⟨t, n, heq, rfl⟩
        · exact hL.rows x hold
        · exact .inr ⟨l, v, hl, rfl, hout t n heq⟩

theorem logged_presence (hrun : PresenceRun cfg (Presence.atRest clock db rows heartbeats) tr r) :
    Logged heartbeats r := by
  induction hrun with
  | nil => exact ⟨by simp [Presence.atRest], fun h hh => .inl hh⟩
  | snoc hpre hs ih =>
      exact logged_step ih (fun k w hk => slots_presence hpre hk) hs

/-- **`active_job_count` respects the limit.**  In every run, every heartbeat that GET
/workers/:id/heartbeats lists is one of the past, or one of a process whose limit it
respects. -/
theorem heartbeats_bounded {id : UUID} {q : PageQuery} {reply : Page WorkerHeartbeat}
    {x : WorkerHeartbeat}
    (hrun : PresenceRun cfg (Presence.atRest clock db rows heartbeats) tr r)
    (hreply : r.Heartbeats id q reply) (hx : x ∈ reply.data) :
    x ∈ heartbeats ∨ ∃ k w, r.fleet.workers.lookup k = some w ∧ w.workerId = id ∧
      x.activeJobCount ≤ w.settings.maxParallelJobs := by
  obtain ⟨hmem, hid⟩ := hreply.mem hx
  exact hid ▸ (logged_presence hrun).rows x hmem

theorem heartbeats_bounded_claiming :
    ∃ r k w, r = play (Presence.step Config.small) Presence.calm claimingActions ∧
      r.Heartbeats 5 ⟨none, none⟩ ((⟨none, none⟩ : PageQuery).parse.paginated [⟨5, 0, 1⟩]) ∧
      r.fleet.workers.lookup k = some w ∧ w.workerId = 5 ∧ 1 ≤ w.settings.maxParallelJobs := by
  have hrun := run_of_play (Presence.step Config.small) Presence.calm claimingActions (by rfl)
  have hreply : (play (Presence.step Config.small) Presence.calm claimingActions).Heartbeats 5
    ⟨none, none⟩
      ((⟨none, none⟩ : PageQuery).parse.paginated [⟨5, 0, 1⟩]) :=
    ⟨_, ⟨.refl _, List.pairwise_singleton _ _⟩, rfl⟩
  rcases heartbeats_bounded hrun hreply (List.mem_singleton_self _) with hpast | ⟨k, w, hk, hid, hle⟩
  · cases hpast
  · exact ⟨_, k, w, rfl, hreply, hk, hid, hle⟩

end

end JobScheduler
