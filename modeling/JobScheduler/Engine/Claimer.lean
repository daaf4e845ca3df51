/-
  JobScheduler.Engine.Claimer
  ───────────────────────────
  `claimNextJob` of `engine/claimer.ts` as a resumable transaction: one step
  per SQL statement, except that the SELECT ... ORDER BY id FOR UPDATE takes
  its row locks one by one, in id order, each step re-reading the row it locks.

  The queue locks and the lock on the claimed job are held from the step that
  takes them to COMMIT or to the failure that aborts the transaction.  The
  claimed row stays invisible to the other clients until COMMIT.
-/
import Mathlib.Data.List.Sort
import JobScheduler.Schema.Database

namespace JobScheduler

open Relational

/-! ## §1. The transaction. -/

/-- A row of `lockedQueues`: `SELECT id, concurrency_limit, is_paused`. -/
structure LockedQueue where
  id : UUID
  concurrencyLimit : Nat
  isPaused : Bool

/-- Where a `claimNextJob` transaction stands: before which statement, or how it ended. -/
inductive ClaimPc
  /-- After BEGIN. -/
  | selecting
  /-- The rows of the SELECT that are not locked yet. -/
  | locking (todo : List UUID)
  /-- Before the COUNT for `q`. -/
  | counting (q : LockedQueue) (rest : List LockedQueue)
  /-- Before UPDATE jobs. -/
  | updating
  /-- Before COMMIT, with the row of RETURNING. -/
  | committing (job : Option (UUID × Job))
  | returned (job : Option (UUID × Job))

/-- One call of `claimNextJob`: its arguments and what its transaction has read so far. -/
structure Claim where
  workerId : UUID
  queueIds : Option (List UUID)
  shardKey : Option String
  /-- `now()` of the transaction, the time of BEGIN. -/
  now : Timestamp
  lockedQueues : List LockedQueue := []
  /-- Rows that were locked and then left out of the result: they stay locked. -/
  discarded : List UUID := []
  eligibleQueueIds : List UUID := []
  pc : ClaimPc := .selecting

namespace Claim

/-- `shardKey || null`. -/
def shardParam (c : Claim) : Option String :=
  match c.shardKey with
  | none => none
  | some "" => none
  | some k => some k

/-- The WHERE clause of the queue SELECT; an empty `queueIds` is no filter. -/
def selects (c : Claim) (id : UUID) (q : Queue) : Bool :=
  (match c.queueIds with
    | some (i :: is) => (i :: is).contains id
    | _ => true)
  && (match c.shardParam with
    | none => true
    | some k => q.shardKey == k)

/-- Transaction open: between BEGIN and COMMIT / ROLLBACK. -/
def isOpen (c : Claim) : Bool :=
  match c.pc with
  | .returned _ => false
  | _ => true

/-- The transaction holds the row lock of this queue, kept or discarded after the COUNT. -/
def holdsQueue (c : Claim) (id : UUID) : Bool :=
  c.isOpen && (c.lockedQueues.any (fun l => decide (l.id = id)) || c.discarded.contains id)

/-- The transaction holds the row lock of the job it is about to commit. -/
def holdsJob (c : Claim) (id : UUID) : Bool :=
  match c.pc with
  | .committing (some (j, _)) => decide (j = id)
  | _ => false

/-- An error aborts the transaction and releases its locks; `claimNextJob`
answers null. -/
def rollback (c : Claim) : Claim := { c with pc := .returned none }

/-- `SET status = 'claimed', worker_id = $1, updated_at = now()`. -/
def claimed (c : Claim) (j : Job) : Job :=
  { j with status := .claimed, workerId := some c.workerId, updatedAt := c.now }

/-- Head of the loop over `lockedQueues`: paused queues are skipped without a
statement; after the last one the code commits or goes on to the UPDATE. -/
def enterCounting (c : Claim) (todo : List LockedQueue) : Claim :=
  match todo.dropWhile (·.isPaused) with
  | q :: rest => { c with pc := .counting q rest }
  | [] =>
      if c.eligibleQueueIds = [] then { c with pc := .committing none }
      else { c with pc := .updating }

/-- Lock the remaining rows of the queue SELECT, or go on to the counts. -/
def enterLocking (c : Claim) (todo : List UUID) : Claim :=
  match todo with
  | [] => c.enterCounting c.lockedQueues
  | _ => { c with pc := .locking todo }

/-- The rows the sub-select of the UPDATE may take: SKIP LOCKED leaves out the
rows that other transactions have locked. -/
def candidate (c : Claim) (ctx : Ctx) (id : UUID) (j : Job) : Bool :=
  decide (j.queueId ∈ c.eligibleQueueIds) && decide (j.status = .queued)
    && decide (j.runAt ≤ c.now) && ctx.jobFree id

/-- `ORDER BY priority DESC, run_at ASC`: `a` does not come after `b`. -/
def precedes (a b : Job) : Bool :=
  decide (b.priority < a.priority) || (decide (a.priority = b.priority) && decide (a.runAt ≤ b.runAt))

/-- `pick` is a possible result of the sub-select. -/
def picks (c : Claim) (ctx : Ctx) (db : Db) (pick : Option UUID) : Bool :=
  match pick with
  | none => db.jobs.all (fun id j => !c.candidate ctx id j)
  | some id =>
      match db.jobs.lookup id with
      | none => false
      | some j => c.candidate ctx id j
          && db.jobs.all (fun k r => !c.candidate ctx k r || precedes j r)

/-- The row that RETURNING gives for a pick. -/
def taken (c : Claim) (db : Db) (pick : Option UUID) : Option (UUID × Job) :=
  pick.bind (fun id => (db.jobs.lookup id).map (fun j => (id, c.claimed j)))

/-- After locking the row `id` as it is now: a row that no longer exists or no
longer matches the WHERE clause is left out of the result, and in the second
case is locked all the same. -/
def lockRow (c : Claim) (db : Db) (id : UUID) : Claim :=
  match db.queues.lookup id with
  | none => c
  | some q =>
      if c.selects id q then
        { c with lockedQueues := c.lockedQueues ++
            [{ id := id, concurrencyLimit := q.concurrencyLimit, isPaused := q.isPaused }] }
      else { c with discarded := c.discarded ++ [id] }

/-- After the COUNT for `q`. -/
def countRow (c : Claim) (db : Db) (q : LockedQueue) : Claim :=
  if db.activeCount q.id < q.concurrencyLimit then
    { c with eligibleQueueIds := c.eligibleQueueIds ++ [q.id] }
  else c

/-- The ids of the queue SELECT in locking order. -/
def lockOrder (c : Claim) (db : Db) : List UUID :=
  ((db.queues.select c.selects).map Prod.fst).insertionSort (· ≤ ·)

/-- The next statement; `none` when it has to wait for a lock, or the call has
returned. -/
def step (ctx : Ctx) (env : Env) (c : Claim) (db : Db) : Option (Db × Claim) :=
  match c.pc with
  | .returned _ => none
  | .selecting =>
      if env.fails then some (db, c.rollback)
      else some (db, c.enterLocking (c.lockOrder db))
  | .locking [] => none
  | .locking (id :: rest) =>
      if env.fails then some (db, c.rollback)
      -- FOR UPDATE waits for the row and then reads it again
      else if ctx.queueFree id then some (db, (c.lockRow db id).enterLocking rest)
      else none
  | .counting q rest =>
      if env.fails then some (db, c.rollback)
      else some (db, (c.countRow db q).enterCounting rest)
  | .updating =>
      if env.fails then some (db, c.rollback)
      -- the write stays in the transaction: the committed row is still queued
      else if c.picks ctx db env.pick then
        some (db, { c with pc := .committing (c.taken db env.pick) })
      else none
  | .committing none =>
      -- a rejected COMMIT of nothing answers null as well
      some (db, { c with pc := .returned none })
  | .committing (some (id, row)) =>
      if env.fails then some (db, c.rollback)
      else some (db.updateJob id c.claimed, { c with pc := .returned (some (id, row)) })

/-! ## §2. Inversion of one statement. -/

/-- The program points where the two loops over the queues can leave a claim. -/
inductive Entered (queues : List LockedQueue) : ClaimPc → Prop
  | locking (todo : List UUID) : Entered queues (.locking todo)
  | counting (q : LockedQueue) (rest : List LockedQueue) (hq : q ∈ queues)
      (hp : q.isPaused = false) (hrest : ∀ r ∈ rest, r ∈ queues) : Entered queues (.counting q rest)
  | nothing : Entered queues (.committing none)
  | updating : Entered queues .updating

/-- The loop over the counts begins with a count, or is over at once. -/
theorem enterCounting_entered (c : Claim) (todo : List LockedQueue) :
    ∃ pc, c.enterCounting todo = { c with pc := pc } ∧ Entered todo pc := by
  unfold enterCounting
  split
  -- the loop stops at the first queue that is not paused
  · rename_i q rest hdrop
    have hsub : ∀ r ∈ q :: rest, r ∈ todo := by
      intro r hr
      rw [← hdrop] at hr
      exact (List.dropWhile_sublist _).subset hr
    have hq : q.isPaused = false := by
      have := List.head?_dropWhile_not (·.isPaused) todo
      rw [hdrop] at this
      simpa using this
    exact ⟨_, rfl, .counting q rest (hsub q List.mem_cons_self) hq
      (fun r hr => hsub r (List.mem_cons_of_mem _ hr))⟩
  · split
    · exact ⟨_, rfl, .nothing⟩
    · exact ⟨_, rfl, .updating⟩

/-- The loop over the locks begins with a lock, or goes on to the counts. -/
theorem enterLocking_entered (c : Claim) (todo : List UUID) :
    ∃ pc, c.enterLocking todo = { c with pc := pc } ∧ Entered c.lockedQueues pc := by
  unfold enterLocking
  split
  · exact enterCounting_entered c _
  · exact ⟨_, rfl, .locking _⟩

/-- What one statement of a claim can do. -/
inductive Stepped (ctx : Ctx) (env : Env) (c : Claim) (db : Db) : Db → Claim → Prop
  | rolledBack : Stepped ctx env c db db c.rollback
  | selected (hpc : c.pc = .selecting) : Stepped ctx env c db db (c.enterLocking (c.lockOrder db))
  | locked (id : UUID) (rest : List UUID) (hpc : c.pc = .locking (id :: rest))
      (hfree : ctx.queueFree id = true) :
      Stepped ctx env c db db ((c.lockRow db id).enterLocking rest)
  | counted (q : LockedQueue) (rest : List LockedQueue) (hpc : c.pc = .counting q rest) :
      Stepped ctx env c db db ((c.countRow db q).enterCounting rest)
  | took (hpc : c.pc = .updating) (hpick : c.picks ctx db env.pick = true) :
      Stepped ctx env c db db { c with pc := .committing (c.taken db env.pick) }
  | nothing (hpc : c.pc = .committing none) :
      Stepped ctx env c db db { c with pc := .returned none }
  | committed (id : UUID) (row : Job) (hpc : c.pc = .committing (some (id, row)))
      (hf : env.fails = false) :
      Stepped ctx env c db (db.updateJob id c.claimed) { c with pc := .returned (some (id, row)) }

theorem stepped {ctx : Ctx} {env : Env} {c c' : Claim} {db db' : Db}
    (h : c.step ctx env db = some (db', c')) : Stepped ctx env c db db' c' := by
  unfold step at h
  split at h <;> (repeat' split at h) <;> cases h
  · exact .rolledBack
  · exact .selected ‹_›
  · exact .rolledBack
  · exact .locked _ _ ‹_› ‹_›
  · exact .rolledBack
  · exact .counted _ _ ‹_›
  · exact .rolledBack
  · exact .took ‹_› ‹_›
  · exact .nothing ‹_›
  · exact .rolledBack
  · rename_i hf
    exact .committed _ _ ‹_› (eq_false_of_ne_true hf)

end Claim

end JobScheduler
