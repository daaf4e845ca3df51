/-
  JobScheduler.Engine.DistributedLock
  ───────────────────────────────────
  `engine/distributedLock.ts`: leases in the table `distributed_locks`, each
  operation one atomic statement.
-/
import JobScheduler.Schema.Database

namespace JobScheduler

open Relational

section
variable {Key Owner : Type} [DecidableEq Key] [DecidableEq Owner]

/-- `INSERT ... ON CONFLICT (lock_key) DO UPDATE ... WHERE expires_at <= now()
OR owner_id = EXCLUDED.owner_id`: the new table and `rowCount > 0`. -/
def acquireDistributedLock (now : Timestamp) (key : Key) (owner : Owner) (ttlMs : Int)
    (locks : Table Key (DistributedLock Owner)) : Table Key (DistributedLock Owner) × Bool :=
  let row : DistributedLock Owner := { ownerId := owner, expiresAt := now + ttlMs, acquiredAt := now }
  match locks.lookup key with
  | none => (locks.insert key row, true)
  | some held =>
      if held.expiresAt ≤ now ∨ held.ownerId = owner then (locks.insert key row, true)
      else (locks, false)

/-- `DELETE FROM distributed_locks WHERE lock_key = $1 AND owner_id = $2`. -/
def releaseDistributedLock (key : Key) (owner : Owner)
    (locks : Table Key (DistributedLock Owner)) : Table Key (DistributedLock Owner) :=
  match locks.lookup key with
  | none => locks
  | some held => if held.ownerId = owner then locks.erase key else locks

/-! ## What each operation leaves under a key. -/

/-- An acquire leaves every other key alone. -/
theorem acquire_other (now : Timestamp) {key k : Key} (owner : Owner) (ttlMs : Int)
    (locks : Table Key (DistributedLock Owner)) (h : k ≠ key) :
    (acquireDistributedLock now key owner ttlMs locks).1.lookup k = locks.lookup k := by
  unfold acquireDistributedLock
  cases locks.lookup key with
  | none => exact AList.lookup_insert_ne h
  | some held =>
      dsimp only
      split
      · exact AList.lookup_insert_ne h
      · rfl

/-- A successful acquire installs the caller's lease. -/
theorem acquire_true {now : Timestamp} {key : Key} {owner : Owner} {ttlMs : Int}
    {locks : Table Key (DistributedLock Owner)}
    (h : (acquireDistributedLock now key owner ttlMs locks).2 = true) :
    (acquireDistributedLock now key owner ttlMs locks).1.lookup key
      = some { ownerId := owner, expiresAt := now + ttlMs, acquiredAt := now } := by
  unfold acquireDistributedLock at h ⊢
  cases hl : locks.lookup key with
  | none => exact AList.lookup_insert _
  | some held =>
      simp only [hl] at h ⊢
      split at h
      · rename_i hc
        rw [if_pos hc]
        exact AList.lookup_insert _
      · cases h

/-- A refused acquire changes nothing: somebody else's lease has not expired. -/
theorem acquire_false {now : Timestamp} {key : Key} {owner : Owner} {ttlMs : Int}
    {locks : Table Key (DistributedLock Owner)}
    (h : (acquireDistributedLock now key owner ttlMs locks).2 = false) :
    (acquireDistributedLock now key owner ttlMs locks).1 = locks ∧
      ∃ held, locks.lookup key = some held ∧ now < held.expiresAt ∧ held.ownerId ≠ owner := by
  unfold acquireDistributedLock at h ⊢
  cases hl : locks.lookup key with
  | none => simp [hl] at h
  | some held =>
      simp only [hl] at h ⊢
      split at h
      · cases h
      · rename_i hc
        rw [if_neg hc]
        push Not at hc
        exact ⟨rfl, held, rfl, hc.1, hc.2⟩

/-- Whoever takes a held lock either owned it or found it expired. -/
theorem acquire_takes {now : Timestamp} {key : Key} {owner : Owner} {ttlMs : Int}
    {locks : Table Key (DistributedLock Owner)} {held : DistributedLock Owner}
    (h : (acquireDistributedLock now key owner ttlMs locks).2 = true)
    (hl : locks.lookup key = some held) : held.expiresAt ≤ now ∨ held.ownerId = owner := by
  unfold acquireDistributedLock at h
  simp only [hl] at h
  split at h
  · assumption
  · cases h

theorem release_other {key k : Key} (owner : Owner)
    (locks : Table Key (DistributedLock Owner)) (h : k ≠ key) :
    (releaseDistributedLock key owner locks).lookup k = locks.lookup k := by
  unfold releaseDistributedLock
  cases locks.lookup key with
  | none => rfl
  | some held =>
      dsimp only
      split
      · exact AList.lookup_erase_ne h
      · rfl

/-- A release leaves the key as it was unless the caller owns the row. -/
theorem release_self (key : Key) (owner : Owner)
    (locks : Table Key (DistributedLock Owner)) :
    (releaseDistributedLock key owner locks).lookup key
      = (locks.lookup key).filter (fun held => decide (held.ownerId ≠ owner)) := by
  unfold releaseDistributedLock
  cases hl : locks.lookup key with
  | none => simpa using hl
  | some held =>
      by_cases ho : held.ownerId = owner
      · simp [Option.filter_some, ho]
      · simp [Option.filter_some, ho, hl]

end

end JobScheduler
