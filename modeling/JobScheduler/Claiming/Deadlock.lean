/-
  JobScheduler.Claiming.Deadlock
  ──────────────────────────────
  Claims never deadlock.  A claim waits for queue rows only, takes them in id
  order, and keeps every row it took, also those that no longer match, until
  it ends.  So it waits for a row above all the rows it holds, and the order
  of the ids excludes cycles of any length.
-/
import Mathlib.Data.Prod.Lex
import Mathlib.Data.Set.Finite.Lemmas
import JobScheduler.Claiming.Capacity
import JobScheduler.Library.LockOrder

namespace JobScheduler

open Relational

/-! ## §1. The order in which a claim locks. -/

namespace Claim

variable {ctx : Ctx} {env : Env} {c c' : Claim} {db db' : Db}

/-- The queue row that the next statement has to lock. -/
def awaits (c : Claim) : Option UUID :=
  match c.pc with
  | .locking (id :: _) => some id
  | _ => none

/-- The rows that are still to be locked lie above those that are. -/
structure Ordered (c : Claim) : Prop where
  selecting : c.pc = .selecting → ∀ i, ¬ c.HasLocked i
  locking : ∀ todo, c.pc = .locking todo →
    todo ≠ [] ∧ todo.Pairwise (· < ·) ∧ ∀ i, c.HasLocked i → ∀ id ∈ todo, i < id

theorem ordered_of_past (hs : c.pc ≠ .selecting) (hl : ∀ todo, c.pc ≠ .locking todo) : c.Ordered where
  selecting h := absurd h hs
  locking todo h := absurd h (hl todo)

theorem enterCounting_ordered (c : Claim) (todo : List LockedQueue) :
    (c.enterCounting todo).Ordered := by
  unfold enterCounting
  split
  · exact ordered_of_past (by simp) (by simp)
  · split <;> exact ordered_of_past (by simp) (by simp)

/-- The loop over a sorted list that lies above the locks held. -/
theorem enterLocking_ordered {todo : List UUID} (hsorted : todo.Pairwise (· < ·))
    (habove : ∀ i, c.HasLocked i → ∀ id ∈ todo, i < id) : (c.enterLocking todo).Ordered := by
  cases todo with
  | nil => exact enterCounting_ordered _ _
  | cons id rest =>
      refine ⟨by simp [enterLocking], ?_⟩
      rintro _ ⟨rfl⟩
      exact ⟨by simp, hsorted, habove⟩

/-- The SELECT names each queue once, in id order. -/
theorem lockOrder_pairwise (c : Claim) (db : Db) : (c.lockOrder db).Pairwise (· < ·) := by
  have hle : (c.lockOrder db).Pairwise (· ≤ ·) := List.pairwise_insertionSort _ _
  have hne : (c.lockOrder db).Nodup :=
    (List.perm_insertionSort _ _).nodup_iff.mpr (Table.nodup_select _ _)
  exact (hle.and hne).imp (fun h => lt_of_le_of_ne h.1 h.2)

/-- **Own step.** -/
theorem step_ordered (hc : c.Ordered) (h : c.step ctx env db = some (db', c')) : c'.Ordered := by
  cases stepped h with
  | rolledBack | took | nothing | committed => exact ordered_of_past (by simp [rollback]) (by simp [rollback])
  | selected hpc =>
      exact enterLocking_ordered (c.lockOrder_pairwise db)
        (fun i hi => absurd hi (hc.selecting hpc i))
  | locked id rest hpc _ =>
      obtain ⟨_, hsorted, habove⟩ := hc.locking _ hpc
      obtain ⟨hid, hrest⟩ := List.pairwise_cons.mp hsorted
      refine enterLocking_ordered hrest (fun i hi j hj => ?_)
      rcases hi.of_lockRow with hi | rfl
      · exact habove i hi j (List.mem_cons_of_mem _ hj)
      · exact hid j hj
  | counted q rest _ => exact enterCounting_ordered _ _

/-- A claim holds no row at or above the one it waits for. -/
theorem Ordered.awaits_above (hc : c.Ordered) {i id : UUID} (hi : c.holdsQueue i = true)
    (ha : c.awaits = some id) : i < id := by
  unfold awaits at ha
  split at ha
  · rename_i hd rest hpc
    cases ha
    obtain ⟨_, _, habove⟩ := hc.locking _ hpc
    exact habove i ((c.holdsQueue_iff i).mp hi).2 _ List.mem_cons_self
  · cases ha

/-! ## §2. A claim that does not wait can go on. -/

/-- `ORDER BY priority DESC, run_at ASC` as an order of keys. -/
def rankKey (j : Job) : ℕᵒᵈ ×ₗ Timestamp := toLex (OrderDual.toDual j.priority, j.runAt)

/-- The order of the job SELECT is the order of the rank keys. -/
theorem precedes_iff (a b : Job) : precedes a b = true ↔ rankKey a ≤ rankKey b := by
  simp [precedes, rankKey, Prod.Lex.toLex_le_toLex]

/-- SKIP LOCKED: the sub-select always has a result. -/
theorem exists_picks (c : Claim) (ctx : Ctx) (db : Db) : ∃ pick, c.picks ctx db pick = true := by
  rcases Set.eq_empty_or_nonempty {p | p ∈ db.jobs.select (c.candidate ctx)} with hnone | hsome
  · refine ⟨none, ?_⟩
    rw [picks, Table.all_iff]
    intro id j hj
    by_contra hcand
    have hmem : (id, j) ∈ ({p | p ∈ db.jobs.select (c.candidate ctx)} : Set (UUID × Job)) :=
      (Table.mem_select_iff _ _ _ _).mpr ⟨hj, by simpa using hcand⟩
    rw [hnone] at hmem
    exact hmem
  · -- a candidate of least key
    obtain ⟨⟨id, j⟩, hmem, hmin⟩ :=
      Set.exists_min_image _ (fun p => rankKey p.2) (List.finite_toSet _) hsome
    obtain ⟨hj, hcand⟩ := (Table.mem_select_iff _ _ _ _).mp hmem
    refine ⟨some id, ?_⟩
    simp only [picks, hj, hcand, Bool.true_and, Table.all_iff]
    intro k r hr
    by_cases hk : c.candidate ctx k r = true
    · have hle := hmin (k, r) ((Table.mem_select_iff _ _ _ _).mpr ⟨hr, hk⟩)
      simp [(precedes_iff j r).mpr hle]
    · simp [hk]

/-- An open claim that waits for no lock has a step. -/
theorem exists_step (hc : c.Ordered) (ho : c.isOpen = true) (db : Db) (now : Timestamp)
    (hfree : ∀ id, c.awaits = some id → ctx.queueFree id = true) :
    ∃ env, env.now = now ∧ env.fails = false ∧ (c.step ctx env db).isSome = true := by
  obtain ⟨pick, hpick⟩ := c.exists_picks ctx db
  refine ⟨{ now := now, pick := pick }, rfl, rfl, ?_⟩
  unfold step
  split
  · rename_i hpc
    simp [isOpen, hpc] at ho
  · simp
  · rename_i hpc
    exact absurd rfl (hc.locking _ hpc).1
  · rename_i id rest hpc
    simp [hfree id (by simp [awaits, hpc])]
  · simp
  · simp [hpick]
  · simp
  · simp

end Claim

/-! ## §3. All claims together. -/

namespace Sys

/-- Client `k` is a claim whose next statement has to lock the queue row. -/
def AwaitsQueue (s : Sys) (k : Nat) (id : UUID) : Prop :=
  ∃ c, s.proc k = some (.claim c) ∧ c.awaits = some id

/-- Client `k` is an open claim that has locked the queue row. -/
def HoldsQueue (s : Sys) (k : Nat) (id : UUID) : Prop :=
  ∃ c, s.proc k = some (.claim c) ∧ c.holdsQueue id = true

/-- Client `k` waits for a lock that client `l` holds. -/
def WaitsFor (s : Sys) : Nat → Nat → Prop := Locking.WaitsFor s.AwaitsQueue s.HoldsQueue

/-- Client `k` is a claim whose transaction is not over. -/
def Claiming (s : Sys) (k : Nat) : Prop :=
  ∃ c, s.proc k = some (.claim c) ∧ c.isOpen = true

theorem finite_claiming (s : Sys) : {k | s.Claiming k}.Finite := by
  refine (List.finite_toSet s.clients.keys).subset ?_
  rintro k ⟨c, hk, _⟩
  obtain ⟨client, hc, _⟩ := Option.map_eq_some_iff.mp hk
  exact AList.mem_keys.mp (AList.lookup_isSome.mp (Option.isSome_of_eq_some hc))

end Sys

/-- Every claim locks in order, and no statement was issued in the future. -/
structure LocksInOrder (s : Sys) : Prop where
  claims : ∀ k c, s.proc k = some (.claim c) → c.Ordered
  issued : ∀ k client, s.clients.lookup k = some client → client.since ≤ s.clock

theorem locksInOrder_atRest (clock : Timestamp) (db : Db) : LocksInOrder (Sys.atRest clock db) where
  claims k c h := by simp at h
  issued k client h := by simp [Sys.atRest] at h

/-- The claims lock in the order of the ids, as the general lemma asks. -/
theorem LocksInOrder.ordered {s : Sys} (hI : LocksInOrder s) : Locking.Ordered s.AwaitsQueue s.HoldsQueue := by
  rintro k i id ⟨c, hk, hi⟩ ⟨d, hk', ha⟩
  rw [hk] at hk'
  cases hk'
  exact (hI.claims k c hk).awaits_above hi ha

/-- A statement is issued no later than it takes effect. -/
theorem Sys.put_issued {s : Sys} (h : ∀ k client, s.clients.lookup k = some client → client.since ≤ s.clock)
    (pid : Nat) (db : Db) (p : Proc) (k : Nat) (client : Client)
    (hk : (s.put pid db p).clients.lookup k = some client) : client.since ≤ s.clock := by
  rcases Table.lookup_insert_eq_some.mp hk with ⟨_, rfl⟩ | ⟨_, hold⟩
  · exact le_rfl
  · exact h k client hold

/-- One step keeps the order of the locks. -/
theorem locksInOrder_step {cfg : Config} {s s' : Sys} {a : Action} (hI : LocksInOrder s)
    (h : step cfg s a = some s') : LocksInOrder s' where
  claims k c' hk := by
    cases origin h hk with
    | idle hk₀ _ => exact hI.claims k c' hk₀
    | started request _ hp _ =>
        cases request <;> cases hp
        exact ⟨by simp [Claim.HasLocked], by simp⟩
    | moved env p _ hk₀ hs =>
        obtain ⟨c, rfl, hc⟩ := claim_of_step hs
        exact Claim.step_ordered (hI.claims k c hk₀) hc
  issued := by
    cases stepped h with
    | wait ms =>
        intro k client hk
        exact (hI.issued k client hk).trans (Int.le_add_of_nonneg_right (Int.natCast_nonneg ms))
    | start pid request _ => exact Sys.put_issued hI.issued pid s.db _
    | run pid env p p' db' _ _ _ => exact Sys.put_issued hI.issued pid db' p'

/-- The order of the locks in every reachable state. -/
theorem locksInOrder_run {cfg : Config} {s₀ s : Sys} {tr : List (Sys × Action)} (h₀ : LocksInOrder s₀)
    (h : SysRun cfg s₀ tr s) : LocksInOrder s :=
  h.invariant (G := fun _ _ => True) (fun _ _ _ hI _ hs => locksInOrder_step hI hs) (by simp) h₀

/-- A claim that waits for no open claim finds its row free. -/
theorem Sys.queueFree_of_unblocked {s : Sys} {k : Nat} {c : Claim} (hk : s.proc k = some (.claim c))
    (hno : ∀ l, s.Claiming l → ¬ s.WaitsFor k l) (id : UUID) (ha : c.awaits = some id) :
    s.ctx.queueFree id = true := by
  refine (s.queueFree_iff id).mpr (fun l p hl => ?_)
  cases p with
  | claim d =>
      by_contra hd
      have hholds : d.holdsQueue id = true := by simpa [Proc.holdsQueue] using hd
      have hopen := ((d.holdsQueue_iff id).mp hholds).1
      exact hno l ⟨d, hl, hopen⟩ ⟨id, ⟨c, hk, ha⟩, ⟨d, hl, hholds⟩⟩
  | _ => rfl

/-- Among the open claims one can always go on. -/
theorem LocksInOrder.exists_step {cfg : Config} {s : Sys} (hI : LocksInOrder s) (hex : ∃ k, s.Claiming k) :
    ∃ k env s', s.Claiming k ∧ env.fails = false ∧ step cfg s (.run k env) = some s' := by
  obtain ⟨k, ⟨c, hk, ho⟩, hno⟩ := hI.ordered.exists_unblocked s.finite_claiming hex
  obtain ⟨client, hclient, hproc⟩ := Option.map_eq_some_iff.mp hk
  obtain ⟨env, hnow, hf, hs⟩ := Claim.exists_step (hI.claims k c hk) ho s.db s.clock
    (s.queueFree_of_unblocked hk hno)
  obtain ⟨⟨db', c'⟩, hs⟩ := Option.isSome_iff_exists.mp hs
  refine ⟨k, env, s.put k db' c'.toProc, ⟨c, hk, ho⟩, hf, ?_⟩
  simp only [step, hclient, hproc, Proc.step, hs, Option.map_some]
  rw [if_pos ⟨hnow.symm ▸ hI.issued k client hclient, hnow.le⟩]

/-- **Claims never deadlock.**  In every run, whatever queues the claims select
and however their statements and those of the other clients interleave: no
cycle of claims waits for one another, and while a claim is open some open
claim can execute its next statement. -/
theorem claims_never_deadlock {cfg : Config} {clock : Timestamp} {db : Db} {s : Sys}
    {tr : List (Sys × Action)} (hrun : SysRun cfg (Sys.atRest clock db) tr s) :
    Graph.Acyclic s.WaitsFor ∧
      ((∃ k, s.Claiming k) →
        ∃ k env s', s.Claiming k ∧ env.fails = false ∧ step cfg s (.run k env) = some s') := by
  have hI := locksInOrder_run (locksInOrder_atRest clock db) hrun
  exact ⟨hI.ordered.acyclic, hI.exists_step⟩

/-- Workers 5 and 6 name two queues in opposite orders; the claim of worker 5
has locked queue 1, and that of worker 6 comes to lock it too. -/
def Sys.crossing : Sys :=
  Transition.play (step Config.small)
    (Sys.atRest 0 { Db.small 1 [] with
      queues := (Db.small 1 []).queues.insert 2 (Queue.small 1) })
    [.start 0 (.claim 5 (some [1, 2]) none), .start 1 (.claim 6 (some [2, 1]) none),
      .run 0 { now := 0 }, .run 0 { now := 0 }, .run 1 { now := 0 }]

theorem claims_never_deadlock_crossing :
    Sys.crossing.WaitsFor 1 0 ∧ Graph.Acyclic Sys.crossing.WaitsFor ∧
      ∃ k env s', Sys.crossing.Claiming k ∧ env.fails = false ∧
        step Config.small Sys.crossing (.run k env) = some s' := by
  have hrun := Transition.run_of_play (step Config.small)
    (Sys.atRest 0 { Db.small 1 [] with
      queues := (Db.small 1 []).queues.insert 2 (Queue.small 1) })
    [.start 0 (.claim 5 (some [1, 2]) none), .start 1 (.claim 6 (some [2, 1]) none),
      .run 0 { now := 0 }, .run 0 { now := 0 }, .run 1 { now := 0 }] (by rfl)
  obtain ⟨hac, hstep⟩ := claims_never_deadlock hrun
  exact ⟨⟨1, ⟨_, rfl, rfl⟩, ⟨_, rfl, rfl⟩⟩, hac, hstep ⟨0, _, rfl, rfl⟩⟩

end JobScheduler
