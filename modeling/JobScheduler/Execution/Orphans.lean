/-
  JobScheduler.Execution.Orphans
  ──────────────────────────────
  What a crashed worker leaves behind.  Nothing in the program looks for jobs whose
  activation will never go on: the claims take queued rows, the ticks scheduled ones,
  the cancellations waiting ones, and the retries dead ones.  So the row of such a
  job keeps its status for good, and with it its place under the concurrency limit.
-/
import JobScheduler.Claiming.Capacity
import JobScheduler.DeadLetter.Rows

namespace JobScheduler

open Relational Transition

/-- The client that moves. -/
def Action.mover : Action → Option Nat
  | .run pid _ => some pid
  | _ => none

/-! ## §1. Orphaned jobs. -/

/-- The job is claimed or running, all the activations that work on it are `gone`,
and no operator request is about to revive it. -/
structure Orphaned (gone : Nat → Prop) (j : UUID) (row : Job) (s : Sys) : Prop where
  found : s.db.jobs.lookup j = some row
  active : row.status.active = true
  gone : ∀ k e, s.proc k = some (.exec e) → e.jobId = j → e.stage ≠ .ended → gone k
  retries : ∀ k r, s.proc k = some (.retry r) → r.jobId = j → r.pc ≠ .update
  replays : ∀ k r, s.proc k = some (.replay r) → r.pc ≠ .update j
  entries : ∀ x, ¬ s.db.Records x j

theorem JobStatus.active_iff {st : JobStatus} : st.active = true ↔ st = .claimed ∨ st = .running := by
  cases st <;> simp [JobStatus.active]

section
variable {cfg : Config} {s s' : Sys} {a : Action} {gone : Nat → Prop} {j : UUID} {row : Job}

/-- No claim takes an orphaned job. -/
theorem Orphaned.not_taken (hP : Pending s) (hO : Orphaned gone j row s) {k : Nat} {c : Claim}
    {taken : Job} (hk : s.proc k = some (.claim c)) : c.pc ≠ .committing (some (j, taken)) := by
  intro hpc
  obtain ⟨old, hold, hq, _⟩ := hP.queued k c j taken hk hpc
  rw [hO.found] at hold
  cases hold
  have hactive := hO.active
  rw [hq] at hactive
  cases hactive

/-- A statement of a client that is not gone leaves the row alone. -/
theorem Orphaned.found_stays (hP : Pending s) (hO : Orphaned gone j row s)
    (hmove : ∀ k ∈ a.mover, ¬ gone k) (h : step cfg s a = some s') :
    s'.db.jobs.lookup j = some row := by
  rcases step_row h j with heq | ⟨pid, env, p, rfl, hp, _, hch⟩
  · exact heq.trans hO.found
  have hpid : ¬ gone pid := hmove pid rfl
  have hlive : ∀ e, p = .exec e → e.jobId = j → e.stage = .ended := by
    intro e he hj
    by_contra hl
    exact hpid (hO.gone pid e (he ▸ hp) hj hl)
  have hst := JobStatus.active_iff.mp hO.active
  rw [hO.found] at hch
  generalize s'.db.jobs.lookup j = new at hch ⊢
  cases hch with
  | same => rfl
  | claimed c taken _ hpc => exact absurd hpc (hO.not_taken hP hp)
  | running e _ hpc hj | completed e _ _ hpc hj | requeued e _ _ _ _ hpc hj
  | deadLettered e _ _ hpc hj =>
      have hend := hlive e rfl hj
      rw [Exec.stage, hpc] at hend
      cases hend
  | released e _ hpc hw =>
      simp only [Db.releasable, Bool.and_eq_true, decide_eq_true_eq] at hw
      rcases hst with hst | hst <;> rw [hw.1.1] at hst <;> cases hst
  | retried r _ hpc hj => exact absurd hpc (hO.retries pid r hp hj)
  | replayed r _ hpc => exact absurd hpc (hO.replays pid r hp)
  | cancelled r _ _ hpc hw =>
      have hwait : row.status.pending = true := (Bool.and_eq_true_iff.mp hw).2
      rcases hst with hst | hst <;> rw [hst] at hwait <;> cases hwait
  | flipped t _ hpc hw =>
      simp only [Tick.flips, Bool.and_eq_true, decide_eq_true_eq] at hw
      rcases hst with hst | hst <;> rw [hw.1] at hst <;> cases hst

/-- **Nobody adopts an orphan.** -/
theorem orphaned_step (hP : Pending s) (hO : Orphaned gone j row s)
    (hmove : ∀ k ∈ a.mover, ¬ gone k) (h : step cfg s a = some s') : Orphaned gone j row s' where
  found := hO.found_stays hP hmove h
  active := hO.active
  gone k e' hk hj hl := by
    cases exec_origin h hk with
    | idle hk₀ _ => exact hO.gone k e' hk₀ hj hl
    | stepped env e ha hk₀ hs =>
        have hgone := hO.gone k e hk₀ ((Exec.step_params hs).1 ▸ hj)
          (Exec.step_relying Stage.relying_live hs hl)
        exact absurd hgone (hmove k (ha ▸ rfl))
    | committed env c i taken _ hk₀ hpc _ he =>
        subst he
        obtain rfl : i = j := hj
        exact absurd hpc (hO.not_taken hP hk₀)
  retries k r' hk hj hpc := by
    cases retry_origin h hk with
    | idle hk₀ _ => exact hO.retries k r' hk₀ hj hpc
    | started hsel => rw [hsel] at hpc; cases hpc
    | stepped env r _ hk₀ hs =>
        generalize s'.db = db' at hs
        cases hs with
        | selected _ _ old hold hst =>
            -- the SELECT finds the orphan neither failed nor dead
            have hlook : s.db.jobs.lookup j = some old := hj ▸ hold
            rw [hO.found] at hlook
            cases hlook
            rcases JobStatus.active_iff.mp hO.active with ho | ho <;> rw [ho] at hst <;> cases hst
        | _ => simp [Retry.goto, Retry.fail] at hpc
  replays k r' hk hpc := by
    cases replay_origin h hk with
    | idle hk₀ _ => exact hO.replays k r' hk₀ hpc
    | started hsel => rw [hsel] at hpc; cases hpc
    | stepped env r _ hk₀ hs =>
        generalize s'.db = db' at hs
        cases hs with
        | selected _ _ entry hentry _ =>
            refine hO.entries r.entryId ⟨entry, hentry, ?_⟩
            unfold Replay.afterSelect at hpc
            split at hpc <;> cases hpc
            assumption
        | _ => simp [Replay.goto, Replay.fail] at hpc
  entries x := by
    rintro ⟨entry, hentry, ho⟩
    rcases step_entry h x with heq | ⟨pid, env, p, rfl, hp, hch⟩
    · exact hO.entries x ⟨entry, heq ▸ hentry, ho⟩
    · rw [hentry] at hch
      generalize hold : s.db.deadLetterQueue.lookup x = old at hch
      cases hch with
      | same => exact hO.entries x ⟨entry, hold, ho⟩
      | buried e error hpc =>
          have hl : e.stage ≠ .ended := by simp [Exec.stage, hpc, ExecPc.stage]
          exact hmove pid rfl (hO.gone pid e hp (Option.some.inj ho) hl)

end

/-! ## §2. Claims on a queue whose slots are taken. -/

/-- The claim has found, or will find, no free slot in queue `q`, which has `n` jobs
active and a limit of at most `n`. -/
structure Claim.Barred (q : UUID) (n : Nat) (c : Claim) : Prop where
  locked : ∀ l ∈ c.lockedQueues, l.id = q → l.concurrencyLimit ≤ n
  counting : ∀ l rest, c.pc = .counting l rest → ∀ m ∈ l :: rest, m.id = q → m.concurrencyLimit ≤ n
  eligible : q ∉ c.eligibleQueueIds
  taken : ∀ j row, c.pc = .committing (some (j, row)) → row.queueId ≠ q

/-- A claim that has just begun. -/
theorem Claim.barred_of_fresh {q : UUID} {n : Nat} {c : Claim} (hl : c.lockedQueues = [])
    (he : c.eligibleQueueIds = []) (hpc : c.pc = .selecting) : c.Barred q n where
  locked := by simp [hl]
  counting := by simp [hpc]
  eligible := by simp [he]
  taken := by simp [hpc]

section
variable {ctx : Ctx} {env : Env} {db db' : Db} {q : UUID} {n : Nat} {c c' : Claim}

/-- The loops leave a claim at a point where it is still barred. -/
theorem Claim.Barred.entered (hc : c.Barred q n) {queues : List LockedQueue} {pc : ClaimPc}
    (hqueues : ∀ l ∈ queues, l.id = q → l.concurrencyLimit ≤ n) (h : Claim.Entered queues pc) :
    ({ c with pc := pc } : Claim).Barred q n where
  locked := hc.locked
  eligible := hc.eligible
  taken j row hpc := absurd hpc (h.no_job (j, row)).1
  counting l rest hpc m hm hid := by
    cases h with
    | counting l' rest' hl _ hrest =>
        cases hpc
        rcases List.mem_cons.mp hm with rfl | hm
        · exact hqueues m hl hid
        · exact hqueues m (hrest m hm) hid
    | _ => cases hpc

/-- A barred claim stays barred while it locks further queues. -/
theorem Claim.Barred.lockRow (hc : c.Barred q n) (id : UUID)
    (hlimit : ∀ row ∈ db.queues.lookup q, row.concurrencyLimit ≤ n) {todo : List UUID}
    (hpc : c.pc = .locking todo) : (c.lockRow db id).Barred q n := by
  unfold Claim.lockRow
  cases hq : db.queues.lookup id with
  | none => exact hc
  | some row =>
      dsimp only
      split
      · refine ⟨?_, by simp [hpc], hc.eligible, by simp [hpc]⟩
        intro l hl hid
        rcases List.mem_append.mp hl with hl | hl
        · exact hc.locked l hl hid
        · obtain rfl := List.mem_singleton.mp hl
          have hid : id = q := hid
          exact hlimit row (hid ▸ hq)
      · exact ⟨hc.locked, by simp [hpc], hc.eligible, by simp [hpc]⟩

/-- The COUNT discards the full queue. -/
theorem Claim.Barred.countRow (hc : c.Barred q n) (hcount : n ≤ db.activeCount q) {l : LockedQueue}
    {rest : List LockedQueue} (hpc : c.pc = .counting l rest) : (c.countRow db l).Barred q n := by
  unfold Claim.countRow
  split
  · rename_i hlt
    refine ⟨hc.locked, by simpa [hpc] using hc.counting l rest hpc, ?_, by simp [hpc]⟩
    intro hmem
    rcases List.mem_append.mp hmem with hmem | hmem
    · exact hc.eligible hmem
    · -- the COUNT finds the queue full
      obtain rfl := List.mem_singleton.mp hmem
      have hle := hc.counting l rest hpc l List.mem_cons_self rfl
      omega
  · exact hc

/-- **Own step.** -/
theorem Claim.step_barred (hc : c.Barred q n) (hcount : n ≤ db.activeCount q)
    (hlimit : ∀ row ∈ db.queues.lookup q, row.concurrencyLimit ≤ n)
    (h : c.step ctx env db = some (db', c')) : c'.Barred q n := by
  cases Claim.stepped h with
  | rolledBack => exact ⟨hc.locked, by simp [rollback], hc.eligible, by simp [rollback]⟩
  | selected =>
      obtain ⟨pc, he, hin⟩ := c.enterLocking_entered (c.lockOrder db)
      rw [he]
      exact hc.entered hc.locked hin
  | locked id rest hpc =>
      obtain ⟨pc, he, hin⟩ := (c.lockRow db id).enterLocking_entered rest
      rw [he]
      have hlock := hc.lockRow id hlimit hpc
      exact hlock.entered hlock.locked hin
  | counted l rest hpc =>
      obtain ⟨pc, he, hin⟩ := (c.countRow db l).enterCounting_entered rest
      rw [he]
      refine (hc.countRow hcount hpc).entered (fun m hm hid => ?_) hin
      exact hc.counting l rest hpc m (List.mem_cons_of_mem _ hm) hid
  | took =>
      refine ⟨hc.locked, by simp, hc.eligible, ?_⟩
      intro j row hrow hq
      obtain ⟨_, _, _, old, _, hcand, rfl⟩ := Claim.step_committing h hrow
      exact hc.eligible (hq ▸ (Claim.candidate_iff.mp hcand).1)
  | nothing | committed => exact ⟨hc.locked, by simp, hc.eligible, by simp⟩

end

/-! ## §3. A queue lost to its orphans. -/

/-- The jobs `orphans` of queue `q` are orphaned, and no claim that may still move has
found a free slot in the queue. -/
structure Blocked (gone : Nat → Prop) (q : UUID) (orphans : Finset UUID) (s : Sys) : Prop where
  pending : Pending s
  orphaned : ∀ j ∈ orphans, ∃ row, Orphaned gone j row s ∧ row.queueId = q
  claims : ∀ k c, s.proc k = some (.claim c) → c.isOpen = true → ¬ gone k → c.Barred q orphans.card

/-- The COUNT of the queue includes its orphans. -/
theorem Blocked.card_le {s : Sys} {gone : Nat → Prop} {q : UUID} {orphans : Finset UUID}
    (hB : Blocked gone q orphans s) : orphans.card ≤ s.db.activeCount q := by
  refine Finset.card_le_card (fun j hj => (Table.mem_keysWhere _ _ _).mpr ?_)
  obtain ⟨row, hO, hq⟩ := hB.orphaned j hj
  exact ⟨row, hO.found, by simp [hq, hO.active]⟩

/-- A step of a client that is not gone keeps every orphan and the bar. -/
theorem blocked_step {cfg : Config} {s s' : Sys} {a : Action} {gone : Nat → Prop} {q : UUID}
    {orphans : Finset UUID} (hB : Blocked gone q orphans s) (hmove : ∀ k ∈ a.mover, ¬ gone k)
    (hlimit : ∀ row ∈ s.db.queues.lookup q, row.concurrencyLimit ≤ orphans.card)
    (h : step cfg s a = some s') : Blocked gone q orphans s' where
  pending := pending_step hB.pending h
  orphaned j hj := by
    obtain ⟨row, hO, hq⟩ := hB.orphaned j hj
    exact ⟨row, orphaned_step hB.pending hO hmove h, hq⟩
  claims k c' hk ho hgone := by
    cases origin h hk with
    | idle hk₀ _ => exact hB.claims k c' hk₀ ho hgone
    | started request _ hp _ =>
        cases request <;> cases hp
        exact Claim.barred_of_fresh rfl rfl rfl
    | moved env p _ hk₀ hs =>
        obtain ⟨c, rfl, hc⟩ := claim_of_step hs
        have hopen : c.isOpen = true := by
          by_contra hclosed
          unfold Claim.isOpen at hclosed
          split at hclosed
          · rename_i job hret
            simp [Claim.step, hret] at hc
          · exact hclosed rfl
        exact Claim.step_barred (hB.claims k c hk₀ hopen hgone) hB.card_le hlimit hc

/-- The action commits a claim that has taken a job of queue `q`. -/
def Action.TakesFrom (s : Sys) (q : UUID) (a : Action) : Prop :=
  ∃ k env c j row, a = .run k env ∧ s.proc k = some (.claim c) ∧ c.pc = .committing (some (j, row)) ∧
    row.queueId = q

/-- No claim takes a job from a full queue. -/
theorem Blocked.not_takes {s : Sys} {a : Action} {gone : Nat → Prop} {q : UUID}
    {orphans : Finset UUID} (hB : Blocked gone q orphans s) (hmove : ∀ k ∈ a.mover, ¬ gone k) :
    ¬ a.TakesFrom s q := by
  rintro ⟨k, env, c, j, row, rfl, hk, hpc, hq⟩
  have hopen : c.isOpen = true := by simp [Claim.isOpen, hpc]
  exact (hB.claims k c hk hopen (hmove k rfl)).taken j row hpc hq

/-- **Orphans keep their slots.**  From a reachable state in which the activations of
some jobs of queue `q` are gone for good, as after a crash of their workers, with no
claim under way: whatever the other clients do, those jobs stay as they are, and while
the queue's limit does not exceed their number no claim takes a job of the queue. -/
theorem orphans_keep_slots {cfg : Config} {clock : Timestamp} {db : Db} {s s' : Sys}
    {tr₀ tr : List (Sys × Action)} (gone : Nat → Prop) (orphans : Finset UUID)
    {q : UUID} (hrun₀ : SysRun cfg (Sys.atRest clock db) tr₀ s)
    (horphans : ∀ j ∈ orphans, ∃ row, Orphaned gone j row s ∧ row.queueId = q)
    (hclaims : ∀ k c, s.proc k = some (.claim c) → c.isOpen = true → gone k)
    (hrun : SysRun cfg s tr s') (hgone : ∀ p ∈ tr, ∀ k ∈ p.2.mover, ¬ gone k) :
    (∀ j ∈ orphans, s'.db.jobs.lookup j = s.db.jobs.lookup j) ∧
      ((∀ p ∈ tr, ∀ row ∈ p.1.db.queues.lookup q, row.concurrencyLimit ≤ orphans.card) →
        ∀ p ∈ tr, ¬ p.2.TakesFrom p.1 q) := by
  have hP : Pending s := pending_run (pending_atRest clock db) hrun₀
  refine ⟨fun j hj => ?_, fun hlimit p hp => ?_⟩
  · obtain ⟨row, hO, _⟩ := horphans j hj
    have hend := hrun.invariant (I := fun t => Pending t ∧ Orphaned gone j row t)
      (G := fun _ a => ∀ k ∈ a.mover, ¬ gone k)
      (fun _ _ _ hI hg hs => ⟨pending_step hI.1 hs, orphaned_step hI.1 hI.2 hg hs⟩) hgone ⟨hP, hO⟩
    exact hend.2.found.trans hO.found.symm
  · have hB : Blocked gone q orphans s :=
      ⟨hP, horphans, fun k c hk ho hg => absurd (hclaims k c hk ho) hg⟩
    have hat := hrun.invariant_at (I := Blocked gone q orphans)
      (G := fun t a => (∀ k ∈ a.mover, ¬ gone k) ∧
        ∀ row ∈ t.db.queues.lookup q, row.concurrencyLimit ≤ orphans.card)
      (fun _ _ _ hI hg hs => blocked_step hI hg.1 hg.2 hs)
      (fun p hp => ⟨hgone p hp, hlimit p hp⟩) hB p hp
    exact hat.not_takes (hgone p hp)

/-- Worker 5 has claimed job 7 and set it running, and crashes; job 8 is queued. -/
def Sys.crashed : Sys :=
  play (step Config.small) (Sys.atRest 0 (Db.small 1 [(7, Job.small .queued), (8, Job.small .queued)]))
    (.start 0 (.claim 5 none none) :: Action.runs 0 { now := 0, pick := some 7 } 8)

/-- The job of the crashed worker is an orphan. -/
theorem Sys.crashed_orphaned :
    Orphaned (· = 0) 7 { Job.small .running with workerId := some 5, attempts := 1 } Sys.crashed := by
  have hzero : ∀ k c, Sys.crashed.clients.lookup k = some c → k = 0 := fun k c hk =>
    of_decide_eq_true ((Table.all_iff (fun k _ => decide (k = 0)) Sys.crashed.clients).mp
      (by rfl) k c hk)
  have hproc : ∀ k p, Sys.crashed.proc k = some p → k = 0 := by
    intro k p hk
    obtain ⟨c, hc, _⟩ := Option.map_eq_some_iff.mp hk
    exact hzero k c hc
  refine ⟨rfl, rfl, fun k e hk _ _ => hproc k _ hk, ?_, ?_, ?_⟩
  · intro k r hk
    obtain rfl := hproc k _ hk
    cases hk
  · intro k r hk
    obtain rfl := hproc k _ hk
    cases hk
  · rintro x ⟨entry, hentry, _⟩
    cases hentry

/-- What worker 6 then does to find work in queue 1. -/
def searchActions : List Action := .start 1 (.claim 6 none none) :: Action.runs 1 { now := 0 } 4

/-- Anything but a claim. -/
def Proc.noClaim : Proc → Bool
  | .claim _ => false
  | _ => true

theorem orphans_keep_slots_crashed :
    (∀ j ∈ ({7} : Finset UUID), (play (step Config.small) Sys.crashed searchActions).db.jobs.lookup j
      = Sys.crashed.db.jobs.lookup j) ∧
    ∀ p ∈ trace (step Config.small) Sys.crashed searchActions, ¬ p.2.TakesFrom p.1 1 := by
  obtain ⟨hkept, hidle⟩ := orphans_keep_slots (· = 0) {7}
    (run_of_play (step Config.small)
      (Sys.atRest 0 (Db.small 1 [(7, Job.small .queued), (8, Job.small .queued)]))
      (.start 0 (.claim 5 none none) :: Action.runs 0 { now := 0, pick := some 7 } 8) (by rfl))
    (fun j hj => ⟨_, (Finset.mem_singleton.mp hj) ▸ Sys.crashed_orphaned, rfl⟩)
    (by
      have hall := (Sys.crashed.clients_all_iff Proc.noClaim).mp (by rfl)
      intro k c hk _
      cases hall k _ hk)
    (run_of_play (step Config.small) Sys.crashed searchActions (by rfl)) (by decide)
  exact ⟨hkept, hidle (by decide)⟩

end JobScheduler
