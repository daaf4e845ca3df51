/-
  JobScheduler.Claiming.Capacity
  ──────────────────────────────
  The claim transaction respects `concurrency_limit`.  While a claim is open,
  the queue rows it has locked stay as it read them, no other claim holds one
  of them, and the COUNT of a queue it found eligible cannot grow: the only
  statement that makes a job active is the COMMIT of a claim, and a claim of a
  job of that queue would hold its lock.
-/
import JobScheduler.System.Activation

namespace JobScheduler

open Relational

/-! ## §1. What an open claim knows. -/

/-- The queue rows a claim has locked and the queues it found eligible. -/
structure Claim.Holds (db : Db) (c : Claim) : Prop where
  /-- A locked row is the current row. -/
  locked : ∀ l ∈ c.lockedQueues, ∃ q, db.queues.lookup l.id = some q ∧
    q.concurrencyLimit = l.concurrencyLimit ∧ q.isPaused = l.isPaused ∧ c.selects l.id q = true
  /-- An eligible queue is locked, not paused and below its limit. -/
  eligible : ∀ id ∈ c.eligibleQueueIds, ∃ l ∈ c.lockedQueues, l.id = id ∧ l.isPaused = false ∧
    db.activeCount id < l.concurrencyLimit

/-- What the program point adds. -/
structure Claim.AtPoint (c : Claim) : Prop where
  counting : ∀ q rest, c.pc = .counting q rest →
    q ∈ c.lockedQueues ∧ q.isPaused = false ∧ ∀ r ∈ rest, r ∈ c.lockedQueues
  committing : ∀ j row, c.pc = .committing (some (j, row)) → row.queueId ∈ c.eligibleQueueIds

/-- A transaction that has entered a loop is at one of the points of that loop. -/
theorem Claim.Entered.atPoint {c : Claim} {queues : List LockedQueue} {pc : ClaimPc}
    (h : Claim.Entered queues pc) (hsub : ∀ q ∈ queues, q ∈ c.lockedQueues) :
    Claim.AtPoint { c with pc := pc } := by
  cases h with
  | counting q rest hq hp hrest =>
      refine ⟨?_, by simp⟩
      rintro _ _ ⟨rfl, rfl⟩
      exact ⟨hsub q hq, hp, fun r hr => hsub r (hrest r hr)⟩
  | locking | nothing | updating => exact ⟨by simp, by simp⟩

/-- Locking a further row keeps what the transaction has read of the earlier ones. -/
theorem Claim.Holds.lockRow {db : Db} {c : Claim} (h : c.Holds db) (id : UUID) :
    (c.lockRow db id).Holds db := by
  unfold Claim.lockRow
  cases hq : db.queues.lookup id with
  | none => exact h
  | some q =>
      dsimp only
      split
      · rename_i hsel
        refine ⟨?_, ?_⟩
        · intro l hl
          rcases List.mem_append.mp hl with hl | hl
          · exact h.locked l hl
          · obtain rfl := List.mem_singleton.mp hl
            exact ⟨q, hq, rfl, rfl, hsel⟩
        · intro i hi
          obtain ⟨l, hl, hrest⟩ := h.eligible i hi
          exact ⟨l, List.mem_append_left _ hl, hrest⟩
      · exact ⟨h.locked, h.eligible⟩

/-- The COUNT adds a queue with a free slot, or discards a full one. -/
theorem Claim.Holds.countRow {db : Db} {c : Claim} (h : c.Holds db) {q : LockedQueue}
    (hq : q ∈ c.lockedQueues) (hp : q.isPaused = false) : (c.countRow db q).Holds db := by
  unfold Claim.countRow
  split
  · rename_i hlt
    refine ⟨h.locked, ?_⟩
    intro i hi
    rcases List.mem_append.mp hi with hi | hi
    · exact h.eligible i hi
    · obtain rfl := List.mem_singleton.mp hi
      exact ⟨q, hq, rfl, hp, hlt⟩
  · exact h

theorem Claim.countRow_locked (c : Claim) (db : Db) (q : LockedQueue) :
    (c.countRow db q).lockedQueues = c.lockedQueues := by
  unfold Claim.countRow
  split <;> rfl

theorem Claim.countRow_discarded (c : Claim) (db : Db) (q : LockedQueue) :
    (c.countRow db q).discarded = c.discarded := by
  unfold Claim.countRow
  split <;> rfl

/-- The queue rows that the transaction has locked, open or not. -/
def Claim.HasLocked (c : Claim) (id : UUID) : Prop :=
  (∃ l ∈ c.lockedQueues, l.id = id) ∨ id ∈ c.discarded

/-- The transaction holds a lock from its SELECT to its end. -/
theorem Claim.holdsQueue_iff (c : Claim) (id : UUID) :
    c.holdsQueue id = true ↔ c.isOpen = true ∧ c.HasLocked id := by
  simp [Claim.holdsQueue, Claim.HasLocked]

/-- Locking a row locks no other. -/
theorem Claim.HasLocked.of_lockRow {c : Claim} {db : Db} {id i : UUID}
    (h : (c.lockRow db id).HasLocked i) : c.HasLocked i ∨ i = id := by
  unfold Claim.lockRow at h
  split at h
  · exact .inl h
  · split at h
    · rcases h with ⟨l, hl, rfl⟩ | hi
      · rcases List.mem_append.mp hl with hl | hl
        · exact .inl (.inl ⟨l, hl, rfl⟩)
        · obtain rfl := List.mem_singleton.mp hl
          exact .inr rfl
      · exact .inl (.inr hi)
    · rcases h with hl | hi
      · exact .inl (.inl hl)
      · rcases List.mem_append.mp hi with hi | hi
        · exact .inl (.inr hi)
        · exact .inr (List.mem_singleton.mp hi)

/-- **Own step.**  A claim that is still open has not changed the database,
knows what it knew, and has locked no row that was not free. -/
theorem Claim.step_holds {ctx : Ctx} {env : Env} {c c' : Claim} {db db' : Db}
    (hH : c.isOpen = true → c.Holds db ∧ c.AtPoint)
    (h : c.step ctx env db = some (db', c')) (ho : c'.isOpen = true) :
    db' = db ∧ c'.Holds db ∧ c'.AtPoint ∧
      ∀ id, c'.holdsQueue id = true → c.holdsQueue id = true ∨ ctx.queueFree id = true := by
  cases Claim.stepped h with
  | rolledBack => simp [Claim.isOpen, Claim.rollback] at ho
  | nothing | committed => simp [Claim.isOpen] at ho
  | selected hpc =>
      have hopen : c.isOpen = true := by simp [Claim.isOpen, hpc]
      obtain ⟨pc, he, hin⟩ := c.enterLocking_entered (c.lockOrder db)
      obtain ⟨hh, _⟩ := hH hopen
      rw [he] at ho ⊢
      refine ⟨rfl, ⟨hh.locked, hh.eligible⟩, hin.atPoint (fun _ hq => hq), ?_⟩
      intro id hid
      exact .inl ((c.holdsQueue_iff id).mpr ⟨hopen, ((Claim.holdsQueue_iff _ id).mp hid).2⟩)
  | locked id rest hpc hfree =>
      have hopen : c.isOpen = true := by simp [Claim.isOpen, hpc]
      obtain ⟨pc, he, hin⟩ := (c.lockRow db id).enterLocking_entered rest
      obtain ⟨hh, _⟩ := hH hopen
      rw [he] at ho ⊢
      have hh' := hh.lockRow id
      refine ⟨rfl, ⟨hh'.locked, hh'.eligible⟩, hin.atPoint (fun _ hq => hq), ?_⟩
      intro i hi
      have hlocked : (c.lockRow db id).HasLocked i := ((Claim.holdsQueue_iff _ i).mp hi).2
      rcases hlocked.of_lockRow with hl | rfl
      · exact .inl ((c.holdsQueue_iff i).mpr ⟨hopen, hl⟩)
      · exact .inr hfree
  | counted q rest hpc =>
      have hopen : c.isOpen = true := by simp [Claim.isOpen, hpc]
      obtain ⟨pc, he, hin⟩ := (c.countRow db q).enterCounting_entered rest
      obtain ⟨hh, hat⟩ := hH hopen
      obtain ⟨hq, hp, hrest⟩ := hat.counting q rest hpc
      rw [he] at ho ⊢
      have hh' := hh.countRow hq hp
      refine ⟨rfl, ⟨hh'.locked, hh'.eligible⟩, ?_, ?_⟩
      · exact hin.atPoint (fun r hr => (c.countRow_locked db q).symm ▸ hrest r hr)
      · intro i hi
        have hlocked := ((Claim.holdsQueue_iff _ i).mp hi).2
        simp only [Claim.HasLocked, countRow_locked, countRow_discarded] at hlocked
        exact .inl ((c.holdsQueue_iff i).mpr ⟨hopen, hlocked⟩)
  | took hpc hpick =>
      have hopen : c.isOpen = true := by simp [Claim.isOpen, hpc]
      obtain ⟨hh, _⟩ := hH hopen
      refine ⟨rfl, ⟨hh.locked, hh.eligible⟩, ⟨by simp, ?_⟩, ?_⟩
      · intro j row hrow
        obtain ⟨_, _, _, old, _, hcand, rfl⟩ := Claim.step_committing h hrow
        exact (Claim.candidate_iff.mp hcand).1
      · intro i hi
        exact .inl (by simpa [Claim.holdsQueue, Claim.isOpen, hpc] using hi)

/-! ## §2. What the other clients can do meanwhile. -/

section
variable {cfg : Config} {ctx : Ctx} {env : Env} {db db' : Db} {p p' : Proc}

/-- Only PATCH writes a queue row, and it needs the row's lock. -/
theorem Proc.step_queue (h : p.step cfg ctx env db = some (db', p')) (id : UUID) :
    db'.queues.lookup id = db.queues.lookup id ∨
      ∃ r, p = .patch r ∧ r.pc = .update ∧ ctx.queueFree id = true ∧
        db'.queues.lookup id = (db.queues.lookup id).map r.updates.apply := by
  cases Proc.stepped h with
  | claim c c' hq => cases Claim.stepped hq <;> exact .inl rfl
  | exec e e' hq =>
      obtain ⟨_, ⟨_, rfl, _⟩ | ⟨_, rfl, _⟩⟩ := Exec.step_cases hq
      · exact .inl rfl
      · unfold Exec.effect
        split <;> exact .inl rfl
  | submit r r' hq => cases Submit.stepped hq <;> exact .inl rfl
  | retry r r' hq => cases Retry.stepped hq <;> exact .inl rfl
  | replay r r' hq => cases Replay.stepped hq <;> exact .inl rfl
  | cancel r r' hq => cases Cancel.stepped hq <;> exact .inl rfl
  | patch r r' hq =>
      cases Patch.stepped hq with
      | updated _ hpc hfree =>
          by_cases hid : id = r.queueId
          · exact .inr ⟨r, rfl, hpc, hid ▸ hfree, by simp [Db.updateQueue, Table.lookup_update, hid]⟩
          · left
            simp [Db.updateQueue, Table.lookup_update, hid]
      | _ => exact .inl rfl
  | tick t t' hq =>
      obtain ⟨_, ⟨_, rfl, _⟩ | ⟨_, rfl, _⟩⟩ := Tick.step_cases hq
      · exact .inl rfl
      · unfold Tick.effect
        split <;> first | exact .inl rfl | (split <;> exact .inl rfl)

/-- A locked queue row does not change. -/
theorem Proc.step_queues (h : p.step cfg ctx env db = some (db', p')) (id : UUID) :
    db'.queues.lookup id = db.queues.lookup id ∨ ctx.queueFree id = true := by
  rcases Proc.step_queue h id with heq | ⟨_, _, _, hfree, _⟩
  · exact .inl heq
  · exact .inr hfree

end

/-! ## §3. The invariant. -/

/-- The open claims of the system. -/
structure Capacity (s : Sys) : Prop where
  claims : ∀ k c, s.proc k = some (.claim c) → c.isOpen = true → c.Holds s.db ∧ c.AtPoint
  /-- A queue row is locked by at most one of them. -/
  exclusive : ∀ k l c d id, s.proc k = some (.claim c) → s.proc l = some (.claim d) →
    c.holdsQueue id = true → d.holdsQueue id = true → k = l

/-- Everything the capacity argument carries along a run. -/
structure Claimable (s : Sys) : Prop where
  pending : Pending s
  activations : ∀ j, Activations j s
  manualFree : ManualFree s
  inserts : InsertsPending s
  capacity : Capacity s

theorem claimable_atRest (clock : Timestamp) (db : Db) : Claimable (Sys.atRest clock db) where
  pending := pending_atRest clock db
  activations j := activations_atRest j clock db
  manualFree := manualFree_atRest clock db
  inserts := insertsPending_atRest clock db
  capacity := ⟨by intro k c h; simp at h, by intro k l c d id h; simp at h⟩

/-- A claim about to commit a job holds the job's queue. -/
theorem Capacity.holds_taken {s : Sys} (hC : Capacity s) (hP : Pending s) {k : Nat} {c : Claim}
    {j : UUID} {row : Job} (hk : s.proc k = some (.claim c))
    (hpc : c.pc = .committing (some (j, row))) :
    ∃ old, s.db.jobs.lookup j = some old ∧ old.queueId ∈ c.eligibleQueueIds ∧
      c.holdsQueue old.queueId = true := by
  obtain ⟨old, hold, _, hrow⟩ := hP.queued k c j row hk hpc
  have hopen : c.isOpen = true := by simp [Claim.isOpen, hpc]
  obtain ⟨hh, hat⟩ := hC.claims k c hk hopen
  have helig : old.queueId ∈ c.eligibleQueueIds := by
    have := hat.committing j row hpc
    rwa [hrow] at this
  obtain ⟨l, hl, hid, _⟩ := hh.eligible _ helig
  exact ⟨old, hold, helig, (c.holdsQueue_iff _).mpr ⟨hopen, .inl ⟨l, hl, hid⟩⟩⟩

/-- What the COUNT of active jobs rests on. -/
structure CountBasis (s : Sys) : Prop where
  pending : Pending s
  inserts : InsertsPending s
  capacity : Capacity s
  /-- A call about to set its job running finds it claimed. -/
  starting : ∀ k e, s.proc k = some (.exec e) → e.pc = .setRunning →
    s.db.statusOf e.jobId = some .claimed

/-- The part of the invariant that manual requests keep as well. -/
theorem Claimable.basis {s : Sys} (hI : Claimable s) : CountBasis s where
  pending := hI.pending
  inserts := hI.inserts
  capacity := hI.capacity
  starting := by
    intro k e hk hpc
    have hlive : e.stage ≠ .ended := by simp [Exec.stage, hpc, ExecPc.stage]
    obtain ⟨old, hold, hallow⟩ := (hI.activations e.jobId).row k e hk rfl hlive
    rw [Exec.stage, hpc] at hallow
    rw [Db.statusOf, hold]
    exact congrArg some hallow

/-- The COUNT of a queue does not grow, unless a claim commits one of its jobs. -/
theorem CountBasis.activeCount_le {cfg : Config} {s : Sys} {env : Env} {pid : Nat} {p p' : Proc}
    {db' : Db} {id : UUID} (hI : CountBasis s) (hp : s.proc pid = some p)
    (h : p.step cfg s.ctx env s.db = some (db', p'))
    (hno : ∀ c j row old, p = .claim c → c.pc = .committing (some (j, row)) →
      s.db.jobs.lookup j = some old → old.queueId ≠ id) :
    db'.activeCount id ≤ s.db.activeCount id := by
  apply Table.count_le_count
  intro j hj
  obtain ⟨row, hrow, hw⟩ := (Table.mem_keysWhere _ _ _).mp hj
  obtain ⟨hq, ha⟩ := Bool.and_eq_true_iff.mp hw
  have hch := Proc.step_jobs (j := j) h
  rw [hrow] at hch
  refine (Table.mem_keysWhere _ _ _).mpr ?_
  rcases hch.active ha with ⟨o, ho, hoq, hoa⟩ | ⟨d, r, o, rfl, hpc, ho, rfl⟩ |
    ⟨e, o, rfl, hpc, rfl, ho, hoq⟩ | ⟨r, rfl, hr⟩
  · exact ⟨o, ho, by simpa [hoq, hoa] using hq⟩
  · exact absurd (of_decide_eq_true hq) (hno d j r o rfl hpc ho)
  · -- the job was already counted as claimed
    have hst : o.status = .claimed := by
      have := hI.starting pid e hp hpc
      rw [Db.statusOf, ho] at this
      exact Option.some.inj this
    exact ⟨o, ho, by simpa [hst, ← hoq, JobStatus.active] using hq⟩
  · rw [JobStatus.active_of_pending (hI.inserts pid r hp)] at hr
    cases hr

/-- **The COUNT of a locked queue does not grow** while another client moves. -/
theorem CountBasis.locked_activeCount_le {cfg : Config} {s : Sys} {env : Env} {k pid : Nat} {c : Claim}
    {p p' : Proc} {db' : Db} {id : UUID} (hI : CountBasis s) (hk : s.proc k = some (.claim c))
    (hid : c.holdsQueue id = true) (hp : s.proc pid = some p) (hne : pid ≠ k)
    (h : p.step cfg s.ctx env s.db = some (db', p')) :
    db'.activeCount id ≤ s.db.activeCount id := by
  refine hI.activeCount_le hp h ?_
  rintro d j row old rfl hpc hold rfl
  -- the job's claim would hold the queue as well
  obtain ⟨o, ho, _, hholds⟩ := hI.capacity.holds_taken hI.pending hp hpc
  rw [hold] at ho
  cases ho
  exact hne (hI.capacity.exclusive pid k d c _ hp hk hholds hid)

/-- What a transaction has read stays true while no count of its queues rises. -/
theorem Claim.Holds.mono {db db' : Db} {c : Claim} (h : c.Holds db)
    (hq : ∀ l ∈ c.lockedQueues, db'.queues.lookup l.id = db.queues.lookup l.id)
    (hcount : ∀ l ∈ c.lockedQueues, db'.activeCount l.id ≤ db.activeCount l.id) :
    c.Holds db' where
  locked l hl := by
    rw [hq l hl]
    exact h.locked l hl
  eligible id hid := by
    obtain ⟨l, hl, rfl, hp, hlt⟩ := h.eligible id hid
    exact ⟨l, hl, rfl, hp, (hcount l hl).trans_lt hlt⟩

/-- One step keeps the capacity bound: only a claim takes a slot, and it holds the queue's lock.
-/
theorem capacity_step {cfg : Config} {s s' : Sys} {a : Action} (hI : CountBasis s)
    (h : step cfg s a = some s') : Capacity s' := by
  have hclaims : ∀ k c', s'.proc k = some (.claim c') → c'.isOpen = true →
      c'.Holds s'.db ∧ c'.AtPoint := by
    intro k c' hk ho
    cases origin h hk with
    | idle hk₀ hne =>
        obtain ⟨hh, hat⟩ := hI.capacity.claims k c' hk₀ ho
        refine ⟨?_, hat⟩
        cases stepped h with
        | wait | start => exact hh
        | run pid env p p' db' hp _ hstep =>
            have hpk : pid ≠ k := fun hpk => hne env (hpk ▸ rfl)
            have hheld : ∀ l ∈ c'.lockedQueues, c'.holdsQueue l.id = true :=
              fun l hl => (c'.holdsQueue_iff _).mpr ⟨ho, .inl ⟨l, hl, rfl⟩⟩
            refine hh.mono ?_ (fun l hl => hI.locked_activeCount_le hk₀ (hheld l hl) hp hpk hstep)
            intro l hl
            rcases Proc.step_queues hstep l.id with heq | hfree
            · exact heq
            · have := (s.queueFree_iff l.id).mp hfree k _ hk₀
              simp [Proc.holdsQueue, hheld l hl] at this
    | started request _ hp _ =>
        cases request <;> cases hp
        exact ⟨⟨by simp, by simp⟩, ⟨by simp, by simp⟩⟩
    | moved env p _ hk₀ hs =>
        obtain ⟨c, rfl, hc⟩ := claim_of_step hs
        obtain ⟨hdb, hh, hat, _⟩ := Claim.step_holds (hI.capacity.claims k c hk₀) hc ho
        exact ⟨hdb ▸ hh, hat⟩
  -- a lock held after the step was held before, or its row was free
  have hheld : ∀ k c' id, s'.proc k = some (.claim c') → c'.holdsQueue id = true →
      (∃ c, s.proc k = some (.claim c) ∧ c.holdsQueue id = true) ∨
      (s.queueFree id = true ∧ ∃ env, a = .run k env) := by
    intro k c' id hk hid
    cases origin h hk with
    | idle hk₀ _ => exact .inl ⟨c', hk₀, hid⟩
    | started request _ hp _ =>
        cases request <;> cases hp
        simp [Claim.holdsQueue] at hid
    | moved env p ha hk₀ hs =>
        obtain ⟨c, rfl, hc⟩ := claim_of_step hs
        have ho : c'.isOpen = true := (Bool.and_eq_true_iff.mp hid).1
        obtain ⟨_, _, _, hlocks⟩ := Claim.step_holds (hI.capacity.claims k c hk₀) hc ho
        rcases hlocks id hid with hold | hfree
        · exact .inl ⟨c, hk₀, hold⟩
        · exact .inr ⟨hfree, env, ha⟩
  have hclash : ∀ k c id, s.proc k = some (.claim c) → c.holdsQueue id = true →
      s.queueFree id = true → False := by
    intro k c id hk hid hfree
    have := (s.queueFree_iff id).mp hfree k _ hk
    simp [Proc.holdsQueue, hid] at this
  refine ⟨hclaims, ?_⟩
  intro k l c d id hk hl hc hd
  rcases hheld k c id hk hc with ⟨c₀, hk₀, hc₀⟩ | ⟨hfree, env, ha⟩ <;>
    rcases hheld l d id hl hd with ⟨d₀, hl₀, hd₀⟩ | ⟨hfree', env', ha'⟩
  · exact hI.capacity.exclusive k l c₀ d₀ id hk₀ hl₀ hc₀ hd₀
  · exact (hclash k c₀ id hk₀ hc₀ hfree').elim
  · exact (hclash l d₀ id hl₀ hd₀ hfree).elim
  · rw [ha] at ha'
    cases ha'
    rfl

/-- One step that is no retry or replay keeps the invariant. -/
theorem claimable_step {cfg : Config} {s s' : Sys} {a : Action} (hI : Claimable s)
    (ha : a.manual = false) (h : step cfg s a = some s') : Claimable s' where
  pending := pending_step hI.pending h
  activations j :=
    activations_step hI.pending (hI.activations j)
      (Action.not_resetsLive (hI.manualFree.not_resets a j)) h
  manualFree := manualFree_step hI.manualFree ha h
  inserts := insertsPending_step hI.inserts h
  capacity := capacity_step hI.basis h

/-- The invariant in every run without manual requests. -/
theorem claimable_run {cfg : Config} {s₀ s : Sys} {tr : List (Sys × Action)} (h₀ : Claimable s₀)
    (h : SysRun cfg s₀ tr s) (hm : ∀ p ∈ tr, p.2.manual = false) : Claimable s :=
  h.invariant (G := fun _ a => a.manual = false)
    (fun _ _ _ hI hg hs => claimable_step hI hg hs) hm h₀

/-! ## §4. The COMMIT. -/

/-- A claim about to commit a job has found its queue eligible, and finds it so still. -/
theorem CountBasis.commit_within {s : Sys} {k : Nat} {c : Claim} {j : UUID} {row : Job} (hI : CountBasis s)
    (hk : s.proc k = some (.claim c)) (hpc : c.pc = .committing (some (j, row))) :
    ∃ old q, s.db.jobs.lookup j = some old ∧ s.db.queues.lookup old.queueId = some q ∧
      q.isPaused = false ∧ c.selects old.queueId q = true ∧
      (s.db.updateJob j c.claimed).activeCount old.queueId ≤ q.concurrencyLimit := by
  obtain ⟨old, hold, helig, _⟩ := hI.capacity.holds_taken hI.pending hk hpc
  have hopen : c.isOpen = true := by simp [Claim.isOpen, hpc]
  obtain ⟨hh, _⟩ := hI.capacity.claims k c hk hopen
  obtain ⟨l, hl, hid, hpaused, hlt⟩ := hh.eligible _ helig
  obtain ⟨q, hq, hlimit, hqp, hsel⟩ := hh.locked l hl
  have hcount : (s.db.updateJob j c.claimed).activeCount old.queueId
      ≤ s.db.activeCount old.queueId + 1 := by
    apply Table.count_le_succ j
    intro i hij hi
    rw [Table.mem_keysWhere, updateJob_lookup_ne _ _ hij] at hi
    exact (Table.mem_keysWhere _ _ _).mpr hi
  refine ⟨old, q, hold, hid ▸ hq, hqp.trans hpaused, hid ▸ hsel, ?_⟩
  calc (s.db.updateJob j c.claimed).activeCount old.queueId
      ≤ s.db.activeCount old.queueId + 1 := hcount
    _ ≤ l.concurrencyLimit := hlt
    _ = q.concurrencyLimit := hlimit.symm

/-- **Capacity.**  In every run without manual retries and replays, whatever the
other claims, patches, activations, ticks, submissions and cancellations do and
whichever statements fail: when a claim commits job `j`, the job's queue is not
paused, matches the claim's filters, and has at most `concurrency_limit` active
jobs, the new one included. -/
theorem commit_within_limit {cfg : Config} {clock : Timestamp} {db : Db} {s s' : Sys}
    {tr : List (Sys × Action)} {k : Nat} {env : Env} {c : Claim} {j : UUID} {row : Job}
    (hrun : SysRun cfg (Sys.atRest clock db) tr s) (hm : ∀ p ∈ tr, p.2.manual = false)
    (hk : s.proc k = some (.claim c)) (hpc : c.pc = .committing (some (j, row)))
    (hf : env.fails = false) (hstep : step cfg s (.run k env) = some s') :
    ∃ job q, s'.db.jobs.lookup j = some job ∧ job.status = .claimed ∧
      s'.db.queues.lookup job.queueId = some q ∧ q.isPaused = false ∧
      c.selects job.queueId q = true ∧ s'.db.activeCount job.queueId ≤ q.concurrencyLimit := by
  have hI := (claimable_run (claimable_atRest clock db) hrun hm).basis
  obtain ⟨old, q, hold, hq, hpaused, hsel, hle⟩ := hI.commit_within hk hpc
  -- the COMMIT writes this one row
  have hdb : s'.db = s.db.updateJob j c.claimed := by
    obtain ⟨p', _, hs⟩ := proc_run hstep hk
    simp only [Proc.step, Claim.step, hpc, hf, Bool.false_eq_true, if_false, Option.map_some,
      Option.some.injEq, Prod.mk.injEq] at hs
    exact hs.1.symm
  rw [hdb]
  exact ⟨c.claimed old, q, updateJob_lookup_self _ hold, rfl, hq, hpaused, hsel, hle⟩

/-- Worker 5 up to the COMMIT of its claim of job 7, in a queue with one slot. -/
def Sys.claimingSeven : Sys :=
  Transition.play (step Config.small) (Sys.atRest 0 (Db.small 1 [(7, Job.small .queued)]))
    (.start 0 (.claim 5 none none) :: Action.runs 0 { now := 0, pick := some 7 } 4)

theorem commit_within_limit_seven :
    ∃ s' job q, step Config.small Sys.claimingSeven (.run 0 { now := 0 }) = some s' ∧
      s'.db.jobs.lookup 7 = some job ∧ job.status = .claimed ∧
      s'.db.queues.lookup job.queueId = some q ∧ q.isPaused = false ∧
      s'.db.activeCount job.queueId ≤ q.concurrencyLimit := by
  obtain ⟨s', hs'⟩ := Option.isSome_iff_exists.mp
    (show (step Config.small Sys.claimingSeven (.run 0 { now := 0 })).isSome = true by rfl)
  have hrun := Transition.run_of_play (step Config.small)
    (Sys.atRest 0 (Db.small 1 [(7, Job.small .queued)]))
    (.start 0 (.claim 5 none none) :: Action.runs 0 { now := 0, pick := some 7 } 4) (by rfl)
  obtain ⟨job, q, hjob, hst, hq, hp, _, hle⟩ :=
    commit_within_limit (k := 0) (j := 7) hrun (by decide) (c := _) rfl rfl rfl hs'
  exact ⟨s', job, q, hs', hjob, hst, hq, hp, hle⟩

end JobScheduler
