/-
  JobScheduler.Claiming.Selection
  ───────────────────────────────
  What a claim takes when it is alone.  `Eligible` and `Claimable` say which
  queues and jobs a caller asks for; the two loops of `claimNextJob` compute
  exactly the eligible queues, and its UPDATE takes a job of least rank among
  the claimable ones of all of them.
-/
import JobScheduler.Claiming.Deadlock

namespace JobScheduler

open Relational Transition

/-! ## §1. What the caller asks for. -/

/-- The arguments of `claimNextJob`, and the time of the call. -/
structure ClaimCall where
  workerId : UUID
  queueIds : Option (List UUID)
  shardKey : Option String
  now : Timestamp

/-- The queue is one of those asked for, is not paused and has room. -/
structure ClaimCall.Eligible (a : ClaimCall) (db : Db) (id : UUID) (q : Queue) : Prop where
  row : db.queues.lookup id = some q
  named : ∀ ids, a.queueIds = some ids → ids ≠ [] → id ∈ ids
  shard : ∀ k, a.shardKey = some k → k ≠ "" → q.shardKey = k
  active : q.isPaused = false
  room : db.activeCount id < q.concurrencyLimit

/-- The job is queued and due, in an eligible queue. -/
structure ClaimCall.Claimable (a : ClaimCall) (db : Db) (id : UUID) (j : Job) : Prop where
  row : db.jobs.lookup id = some j
  queued : j.status = .queued
  due : j.runAt ≤ a.now
  queue : ∃ q, a.Eligible db j.queueId q

/-- `(priority descending, run_at ascending)`: `j` does not come after `i`. -/
def Job.Leads (j i : Job) : Prop :=
  i.priority < j.priority ∨ (i.priority = j.priority ∧ j.runAt ≤ i.runAt)

/-- The claimed row differs in `status`, `worker_id` and `updated_at` only. -/
def ClaimCall.claimed (a : ClaimCall) (j : Job) : Job :=
  { j with status := .claimed, workerId := some a.workerId, updatedAt := a.now }

/-- The answer `r` and the database `db'` after the call are as the caller expects. -/
structure ClaimCall.Selects (a : ClaimCall) (db : Db) (r : Option (UUID × Job)) (db' : Db) : Prop where
  null_iff : r = none ↔ ∀ id j, ¬ a.Claimable db id j
  unchanged : r = none → db' = db
  taken : ∀ id row, r = some (id, row) → ∃ j, a.Claimable db id j ∧
    (∀ k i, a.Claimable db k i → j.Leads i) ∧ row = a.claimed j ∧
    db' = { db with jobs := db.jobs.update (fun k _ => decide (k = id)) a.claimed }

/-! ## §2. The call, alone. -/

/-- The call after BEGIN. -/
def ClaimCall.start (a : ClaimCall) : Claim where
  workerId := a.workerId
  queueIds := a.queueIds
  shardKey := a.shardKey
  now := a.now

/-- No other transaction holds a lock. -/
def Ctx.alone (now : Timestamp) : Ctx where
  clock := now
  queueFree := fun _ => true
  jobFree := fun _ => true

/-- The statements of a claim while nobody else executes one. -/
def Claim.alone (s : Db × Claim) (env : Env) : Option (Db × Claim) :=
  s.2.step (Ctx.alone s.2.now) env s.1

/-- The call may answer `r` and leave the database `db'`; no statement is rejected. -/
def ClaimCall.Answers (a : ClaimCall) (db : Db) (r : Option (UUID × Job)) (db' : Db) : Prop :=
  ∃ tr c, Run Claim.alone (db, a.start) tr (db', c) ∧ (∀ p ∈ tr, p.2.fails = false) ∧
    c.pc = .returned r

/-! ## §3. The loops. -/

/-- A row of the queue SELECT. -/
def Queue.locked (id : UUID) (q : Queue) : LockedQueue where
  id := id
  concurrencyLimit := q.concurrencyLimit
  isPaused := q.isPaused

/-- The loop over `lockedQueues` pushes the id of the row. -/
def LockedQueue.hasRoom (db : Db) (l : LockedQueue) : Bool :=
  !l.isPaused && decide (db.activeCount l.id < l.concurrencyLimit)

namespace ClaimCall

variable (a : ClaimCall) (db : Db)

/-- The rows of the queue SELECT, in the order of their locks. -/
def selected (ids : List UUID) : List LockedQueue :=
  ids.filterMap (fun id => (db.queues.lookup id).map (Queue.locked id))

/-- `eligibleQueueIds` after the loop. -/
def eligibleQueueIds : List UUID :=
  ((selected db (a.start.lockOrder db)).filter (LockedQueue.hasRoom db)).map LockedQueue.id

/-- The WHERE clause of the queue SELECT, with its two optional conditions. -/
theorem selects_iff {id : UUID} {q : Queue} :
    a.start.selects id q = true ↔ (∀ ids, a.queueIds = some ids → ids ≠ [] → id ∈ ids) ∧
      ∀ k, a.shardKey = some k → k ≠ "" → q.shardKey = k := by
  unfold Claim.selects Claim.shardParam start
  rw [Bool.and_eq_true]
  refine and_congr ?_ ?_
  · match a.queueIds with
    | none => simp
    | some [] => simp
    | some (i :: is) => simp
  · match a.shardKey with
    | none => simp
    | some k =>
        by_cases hk : k = ""
        · subst hk
          simp
        · simp [hk]

/-- The rows of the queue SELECT. -/
theorem mem_lockOrder {id : UUID} :
    id ∈ a.start.lockOrder db ↔ ∃ q, db.queues.lookup id = some q ∧ a.start.selects id q = true := by
  unfold Claim.lockOrder
  rw [(List.perm_insertionSort _ _).mem_iff, List.mem_map]
  constructor
  · rintro ⟨⟨i, q⟩, hmem, rfl⟩
    exact ⟨q, (Table.mem_select_iff _ _ _ _).mp hmem⟩
  · rintro ⟨q, hq⟩
    exact ⟨(id, q), (Table.mem_select_iff _ _ _ _).mpr hq, rfl⟩

/-- The queues left after the COUNTs are the eligible ones. -/
theorem mem_eligibleQueueIds {id : UUID} :
    id ∈ a.eligibleQueueIds db ↔ ∃ q, a.Eligible db id q := by
  simp only [eligibleQueueIds, List.mem_map, List.mem_filter, selected, List.mem_filterMap,
    Option.map_eq_some_iff]
  constructor
  · rintro ⟨l, ⟨⟨i, hi, q, hq, rfl⟩, hroom⟩, rfl⟩
    obtain ⟨q', hq', hsel⟩ := (a.mem_lockOrder db).mp hi
    rw [hq] at hq'
    cases hq'
    obtain ⟨hnamed, hshard⟩ := a.selects_iff.mp hsel
    simp only [LockedQueue.hasRoom, Queue.locked, Bool.and_eq_true, Bool.not_eq_true'] at hroom
    exact ⟨q, hq, hnamed, hshard, hroom.1, of_decide_eq_true hroom.2⟩
  · rintro ⟨q, h⟩
    refine ⟨q.locked id, ⟨⟨id, ?_, q, h.row, rfl⟩, ?_⟩, rfl⟩
    · exact (a.mem_lockOrder db).mpr ⟨q, h.row, a.selects_iff.mpr ⟨h.named, h.shard⟩⟩
    · simp [LockedQueue.hasRoom, Queue.locked, h.active, h.room]

/-- A claim of the call, between two of its statements. -/
def point (locked : List LockedQueue) (eligible : List UUID) (pc : ClaimPc) : Claim :=
  { a.start with lockedQueues := locked, eligibleQueueIds := eligible, pc := pc }

/-- Where the call can be. -/
inductive Reaches : Db → Claim → Prop
  | selecting : Reaches db a.start
  | locking (locked : List LockedQueue) (todo : List UUID)
      (hsub : ∀ id ∈ todo, id ∈ a.start.lockOrder db)
      (hrows : locked ++ selected db todo = selected db (a.start.lockOrder db)) :
      Reaches db (a.point locked [] (.locking todo))
  | counting (locked : List LockedQueue) (eligible : List UUID) (q : LockedQueue)
      (rest : List LockedQueue) (hp : q.isPaused = false) (hids : eligible ++
        ((q :: rest).filter (LockedQueue.hasRoom db)).map LockedQueue.id = a.eligibleQueueIds db) :
      Reaches db (a.point locked eligible (.counting q rest))
  | updating (locked : List LockedQueue) :
      Reaches db (a.point locked (a.eligibleQueueIds db) .updating)
  | nothing (locked : List LockedQueue) (eligible : List UUID)
      (hno : ∀ id j, ¬ a.Claimable db id j) : Reaches db (a.point locked eligible (.committing none))
  | took (locked : List LockedQueue) (eligible : List UUID) (id : UUID) (j : Job)
      (hj : a.Claimable db id j) (hleads : ∀ k i, a.Claimable db k i → j.Leads i) :
      Reaches db (a.point locked eligible (.committing (some (id, a.claimed j))))
  | null (locked : List LockedQueue) (eligible : List UUID)
      (hno : ∀ id j, ¬ a.Claimable db id j) : Reaches db (a.point locked eligible (.returned none))
  | claimed (locked : List LockedQueue) (eligible : List UUID) (id : UUID) (j : Job)
      (hj : a.Claimable db id j) (hleads : ∀ k i, a.Claimable db k i → j.Leads i) :
      Reaches (db.updateJob id a.claimed)
        (a.point locked eligible (.returned (some (id, a.claimed j))))

variable {a db}

/-- The loop that counts skips paused queues, which have no room. -/
theorem enterCounting_reaches {locked : List LockedQueue} {eligible : List UUID} {pc : ClaimPc}
    {todo : List LockedQueue} (hids : eligible ++
      (todo.filter (LockedQueue.hasRoom db)).map LockedQueue.id = a.eligibleQueueIds db) :
    a.Reaches db db ((a.point locked eligible pc).enterCounting todo) := by
  have hskip : (todo.dropWhile (·.isPaused)).filter (LockedQueue.hasRoom db) =
      todo.filter (LockedQueue.hasRoom db) := by
    clear hids
    induction todo with
    | nil => rfl
    | cons l rest ih =>
        by_cases hp : l.isPaused = true
        · rw [List.dropWhile_cons_of_pos hp, ih, List.filter_cons_of_neg]
          simp [LockedQueue.hasRoom, hp]
        · rw [List.dropWhile_cons_of_neg hp]
  unfold Claim.enterCounting
  split
  · rename_i q rest hdrop
    have hq : q.isPaused = false := by
      have hhead := List.head?_dropWhile_not (·.isPaused) todo
      rw [hdrop] at hhead
      simpa using hhead
    rw [hdrop] at hskip
    exact .counting locked eligible q rest hq (by rw [hskip]; exact hids)
  · rename_i hdrop
    have hnone : todo.filter (LockedQueue.hasRoom db) = [] := by rw [← hskip, hdrop]; rfl
    rw [hnone, List.map_nil, List.append_nil] at hids
    split
    · rename_i hempty
      refine .nothing locked eligible (fun id j hj => ?_)
      have hmem := (a.mem_eligibleQueueIds db).mpr hj.queue
      rw [← hids, show eligible = [] from hempty] at hmem
      cases hmem
    · rw [hids]
      exact .updating locked

/-- From the SELECT the transaction gets to the counts with every row read. -/
theorem enterLocking_reaches {locked : List LockedQueue} {pc : ClaimPc} {todo : List UUID}
    (hsub : ∀ id ∈ todo, id ∈ a.start.lockOrder db)
    (hrows : locked ++ selected db todo = selected db (a.start.lockOrder db)) :
    a.Reaches db db ((a.point locked [] pc).enterLocking todo) := by
  unfold Claim.enterLocking
  split
  · refine enterCounting_reaches ?_
    rw [eligibleQueueIds, ← hrows]
    simp [selected, point]
  · exact .locking locked _ hsub hrows

/-- The WHERE clause of the job SELECT describes the claimable jobs. -/
theorem candidate_iff {locked : List LockedQueue} {pc : ClaimPc} {now : Timestamp} {id : UUID} {j : Job}
    (hj : db.jobs.lookup id = some j) :
    (a.point locked (a.eligibleQueueIds db) pc).candidate (Ctx.alone now) id j = true ↔
      a.Claimable db id j := by
  rw [Claim.candidate_iff]
  constructor
  · rintro ⟨hqueue, hq, hdue, _⟩
    exact ⟨hj, hq, hdue, (a.mem_eligibleQueueIds db).mp hqueue⟩
  · intro h
    exact ⟨(a.mem_eligibleQueueIds db).mpr h.queue, h.queued, h.due, rfl⟩

/-- The first row of the ORDER BY leads every other. -/
theorem leads_of_precedes {j i : Job} (h : Claim.precedes j i = true) : j.Leads i := by
  simp only [Claim.precedes, Bool.or_eq_true, Bool.and_eq_true, decide_eq_true_eq] at h
  exact h.imp_right (fun hrank => ⟨hrank.1.symm, hrank.2⟩)

/-- The sub-select finds what is claimable, and a job that leads it. -/
theorem updating_reaches {locked : List LockedQueue} {now : Timestamp} {pick : Option UUID}
    (h : (a.point locked (a.eligibleQueueIds db) .updating).picks (Ctx.alone now) db pick = true) :
    a.Reaches db db (a.point locked (a.eligibleQueueIds db) (.committing
      ((a.point locked (a.eligibleQueueIds db) .updating).taken db pick))) := by
  cases pick with
  | none =>
      refine .nothing locked _ (fun id j hj => ?_)
      simp only [Claim.picks, Table.all_iff] at h
      have hno := h id j hj.row
      rw [(candidate_iff hj.row).mpr hj] at hno
      cases hno
  | some id =>
      simp only [Claim.picks] at h
      split at h
      · cases h
      · rename_i j hj
        obtain ⟨hcand, hall⟩ := Bool.and_eq_true_iff.mp h
        have htaken : (a.point locked (a.eligibleQueueIds db) .updating).taken db (some id) =
            some (id, a.claimed j) := by
          simp [Claim.taken, hj]
          rfl
        rw [htaken]
        refine .took locked _ id j ((candidate_iff hj).mp hcand) (fun k i hi => ?_)
        have hk := (Table.all_iff _ _).mp hall k i hi.row
        rw [(candidate_iff hi.row).mpr hi] at hk
        exact leads_of_precedes (by simpa using hk)

/-- Nobody has changed the row since the SELECT. -/
theorem lockRow_point {locked : List LockedQueue} {pc : ClaimPc} {id : UUID} {q : Queue}
    (hq : db.queues.lookup id = some q) (hsel : a.start.selects id q = true) :
    (a.point locked [] pc).lockRow db id = a.point (locked ++ [q.locked id]) [] pc := by
  have hsel' : (a.point locked [] pc).selects id q = true := hsel
  simp only [Claim.lockRow, hq, hsel', if_true]
  rfl

/-- The COUNT of one queue, as a move between two points of the transaction. -/
theorem countRow_point {locked : List LockedQueue} {eligible : List UUID} {pc : ClaimPc} {q : LockedQueue} :
    (a.point locked eligible pc).countRow db q = a.point locked
      (eligible ++ if db.activeCount q.id < q.concurrencyLimit then [q.id] else []) pc := by
  unfold Claim.countRow
  split
  · rfl
  · rw [List.append_nil]

/-- **One statement.** -/
theorem reaches_step {db₁ db' : Db} {c c' : Claim} {env : Env} (h : a.Reaches db db₁ c)
    (hf : env.fails = false) (hs : Claim.alone (db₁, c) env = some (db', c')) :
    a.Reaches db db' c' := by
  change c.step (Ctx.alone c.now) env db₁ = some (db', c') at hs
  cases h with
  | selecting =>
      have hpc : a.start.pc = .selecting := rfl
      simp only [Claim.step, hpc, hf, Bool.false_eq_true, if_false, Option.some.injEq,
        Prod.mk.injEq] at hs
      obtain ⟨rfl, rfl⟩ := hs
      exact enterLocking_reaches (fun id hid => hid) rfl
  | locking locked todo hsub hrows =>
      have hpc : (a.point locked [] (.locking todo)).pc = .locking todo := rfl
      cases todo with
      | nil => cases hs
      | cons id rest =>
          simp only [Claim.step, hpc, hf, Ctx.alone, Bool.false_eq_true, if_false, if_true,
            Option.some.injEq, Prod.mk.injEq] at hs
          obtain ⟨rfl, rfl⟩ := hs
          obtain ⟨q, hq, hsel⟩ := (a.mem_lockOrder db).mp (hsub id List.mem_cons_self)
          rw [lockRow_point hq hsel]
          refine enterLocking_reaches (fun i hi => hsub i (List.mem_cons_of_mem _ hi)) ?_
          rw [← hrows]
          simp [selected, hq]
  | counting locked eligible q rest hp hids =>
      have hpc : (a.point locked eligible (.counting q rest)).pc = .counting q rest := rfl
      simp only [Claim.step, hpc, hf, Bool.false_eq_true, if_false, Option.some.injEq,
        Prod.mk.injEq] at hs
      obtain ⟨rfl, rfl⟩ := hs
      rw [countRow_point]
      refine enterCounting_reaches ?_
      rw [← hids]
      by_cases hroom : db.activeCount q.id < q.concurrencyLimit <;>
        simp [LockedQueue.hasRoom, hp, hroom]
  | updating locked =>
      have hpc : (a.point locked (a.eligibleQueueIds db) .updating).pc = .updating := rfl
      simp only [Claim.step, hpc, hf, Bool.false_eq_true, if_false] at hs
      split at hs
      · rename_i hpick
        cases hs
        exact updating_reaches hpick
      · cases hs
  | nothing locked eligible hno =>
      cases hs
      exact .null locked eligible hno
  | took locked eligible id j hj hleads =>
      have hpc : (a.point locked eligible (.committing (some (id, a.claimed j)))).pc
          = .committing (some (id, a.claimed j)) := rfl
      simp only [Claim.step, hpc, hf, Bool.false_eq_true, if_false, Option.some.injEq,
        Prod.mk.injEq] at hs
      obtain ⟨rfl, rfl⟩ := hs
      exact .claimed locked eligible id j hj hleads
  | null | claimed => cases hs

/-- Along a run. -/
theorem Answers.reaches {r : Option (UUID × Job)} {db' : Db} (h : a.Answers db r db') :
    ∃ c, c.pc = .returned r ∧ a.Reaches db db' c := by
  obtain ⟨tr, c, hrun, hok, hret⟩ := h
  have hI := hrun.invariant (I := fun s => a.Reaches db s.1 s.2) (G := fun _ env => env.fails = false)
    (fun _ _ _ hI hg hs => reaches_step hI hg hs) hok .selecting
  exact ⟨c, hret, hI⟩

/-- What a call that is over has taken. -/
theorem selects_of_reaches {r : Option (UUID × Job)} {db' : Db} {c : Claim} (h : a.Reaches db db' c)
    (hret : c.pc = .returned r) : a.Selects db r db' := by
  cases h with
  | null locked eligible hno =>
      cases hret
      exact ⟨⟨fun _ => hno, fun _ => rfl⟩, fun _ => rfl, fun id row h => by cases h⟩
  | claimed locked eligible id j hj hleads =>
      cases hret
      refine ⟨⟨?_, fun hno => absurd hj (hno id j)⟩, ?_, ?_⟩
      · intro h
        cases h
      · intro h
        cases h
      · intro id' row h
        cases h
        exact ⟨j, hj, hleads, rfl, rfl⟩
  | selecting | locking | counting | updating | nothing | took => cases hret

end ClaimCall

/-! ## §4. The call returns. -/

/-- A bound on the statements a claim has still to execute. -/
def Claim.remaining (c : Claim) (db : Db) : Nat :=
  match c.pc with
  | .selecting => 2 * (c.lockOrder db).length + c.lockedQueues.length + 4
  | .locking todo => 2 * todo.length + c.lockedQueues.length + 3
  | .counting _ rest => rest.length + 3
  | .updating => 2
  | .committing _ => 1
  | .returned _ => 0

/-- The statements left once the counts begin. -/
theorem Claim.enterCounting_remaining (c : Claim) (db : Db) (todo : List LockedQueue) :
    (c.enterCounting todo).remaining db ≤ todo.length + 2 := by
  unfold enterCounting
  split
  · rename_i q rest hdrop
    have hlen := (List.dropWhile_sublist (·.isPaused) (l := todo)).length_le
    rw [hdrop, List.length_cons] at hlen
    simp only [remaining]
    omega
  · split <;> simp [remaining]

/-- The statements left once the locks begin. -/
theorem Claim.enterLocking_remaining (c : Claim) (db : Db) (todo : List UUID) :
    (c.enterLocking todo).remaining db ≤ 2 * todo.length + c.lockedQueues.length + 3 := by
  unfold enterLocking
  split
  · have hle := c.enterCounting_remaining db c.lockedQueues
    omega
  · exact le_refl _

theorem Claim.lockRow_length (c : Claim) (db : Db) (id : UUID) :
    (c.lockRow db id).lockedQueues.length ≤ c.lockedQueues.length + 1 := by
  unfold lockRow
  split
  · exact Nat.le_succ _
  · split
    · simp
    · exact Nat.le_succ _

/-- Every statement comes closer to the end. -/
theorem Claim.step_remaining {ctx : Ctx} {env : Env} {c c' : Claim} {db db' : Db}
    (h : c.step ctx env db = some (db', c')) : c'.remaining db' < c.remaining db := by
  cases Claim.stepped h with
  | rolledBack =>
      rw [show c.rollback.remaining db = 0 from rfl]
      cases hpc : c.pc with
      | returned job => simp [step, hpc] at h
      | _ => simp [remaining, hpc]
  | selected hpc =>
      have hle := c.enterLocking_remaining db (c.lockOrder db)
      rw [show c.remaining db = 2 * (c.lockOrder db).length + c.lockedQueues.length + 4 by
        simp only [remaining, hpc]]
      omega
  | locked id rest hpc _ =>
      have hle := (c.lockRow db id).enterLocking_remaining db rest
      have hlen := c.lockRow_length db id
      rw [show c.remaining db = 2 * (rest.length + 1) + c.lockedQueues.length + 3 by
        simp only [remaining, hpc, List.length_cons]]
      omega
  | counted q rest hpc =>
      have hle := (c.countRow db q).enterCounting_remaining db rest
      rw [show c.remaining db = rest.length + 3 by simp only [remaining, hpc]]
      omega
  | took hpc _ | nothing hpc | committed _ _ hpc _ => simp [remaining, hpc]

/-- A claim that is alone comes to its end. -/
theorem Claim.exists_return (n : Nat) : ∀ (c : Claim) (db : Db), c.Ordered → c.remaining db ≤ n →
    ∃ tr db' c' r, Run Claim.alone (db, c) tr (db', c') ∧ (∀ p ∈ tr, p.2.fails = false) ∧
      c'.pc = .returned r := by
  induction n with
  | zero =>
      intro c db _ hn
      cases hpc : c.pc with
      | returned r => exact ⟨[], db, c, r, .nil, by simp, hpc⟩
      | _ => simp [remaining, hpc] at hn
  | succ n ih =>
      intro c db hc hn
      by_cases ho : c.isOpen = true
      · obtain ⟨env, _, hf, hsome⟩ :=
          @Claim.exists_step (Ctx.alone c.now) c hc ho db c.now (fun _ _ => rfl)
        obtain ⟨⟨db₁, c₁⟩, hs⟩ := Option.isSome_iff_exists.mp hsome
        have hlt := Claim.step_remaining hs
        obtain ⟨tr, db', c', r, hrun, hok, hret⟩ := ih c₁ db₁ (Claim.step_ordered hc hs) (by omega)
        have hone : Run Claim.alone (db, c) [((db, c), env)] (db₁, c₁) := .single hs
        refine ⟨_, db', c', r, hone.append hrun, ?_, hret⟩
        simpa [hf] using hok
      · obtain ⟨r, hpc⟩ : ∃ r, c.pc = .returned r := by
          unfold isOpen at ho
          split at ho
          · exact ⟨_, ‹_›⟩
          · simp at ho
        exact ⟨[], db, c, r, .nil, by simp, hpc⟩

/-- **Claim selection is exact.**  Alone, `claimNextJob` has an answer, and every answer
it may give is null when nothing is claimable, else a claimable job that leads all the others,
of which three columns are written. -/
theorem claim_selection_exact (a : ClaimCall) (db : Db) :
    (∃ r db', a.Answers db r db') ∧ ∀ r db', a.Answers db r db' → a.Selects db r db' := by
  refine ⟨?_, fun r db' h => ?_⟩
  · have hc : a.start.Ordered := ⟨fun _ i hi => by simp [Claim.HasLocked, ClaimCall.start] at hi,
      fun todo h => by cases h⟩
    obtain ⟨tr, db', c, r, hrun, hok, hret⟩ := Claim.exists_return _ a.start db hc (le_refl _)
    exact ⟨r, db', tr, c, hrun, hok, hret⟩
  · obtain ⟨c, hret, hreach⟩ := h.reaches
    exact ClaimCall.selects_of_reaches hreach hret

/-- Worker 5 asks for any queue. -/
def ClaimCall.small : ClaimCall where
  workerId := 5
  queueIds := some []
  shardKey := none
  now := 0

/-- Two queued jobs of different priority. -/
def Db.smallRanked : Db :=
  Db.small 1 [(7, Job.small .queued), (8, { Job.small .queued with priority := 1 })]

/-- The statements of the call, which takes job 8. -/
def ClaimCall.smallEnvs : List Env := List.replicate 5 { now := 0, pick := some 8 }

theorem claim_selection_exact_ranked :
    ClaimCall.small.Selects Db.smallRanked
      (some (8, { Job.small .claimed with priority := 1, workerId := some 5 }))
      (play Claim.alone (Db.smallRanked, ClaimCall.small.start) ClaimCall.smallEnvs).1 :=
  (claim_selection_exact ClaimCall.small Db.smallRanked).2 _ _
    ⟨_, _, run_of_play Claim.alone (Db.smallRanked, ClaimCall.small.start) ClaimCall.smallEnvs (by rfl),
      by decide, by rfl⟩

end JobScheduler
