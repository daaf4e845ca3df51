/-
  JobScheduler.Engine.LockTable
  ─────────────────────────────
  Sequences of calls on `distributed_locks`, at database times that do not
  decrease.  A granted lease stands against everybody until the expiry of its
  row; the row is the holder's own to move, with every renewal.
-/
import JobScheduler.Engine.DistributedLock
import JobScheduler.Library.Run

namespace JobScheduler

open Relational Transition

/-! ## §1. Calls. -/

/-- A call on the lock table. -/
inductive LockCall (Key Owner : Type)
  | acquire (key : Key) (owner : Owner) (ttlMs : Int)
  | release (key : Key) (owner : Owner)
  deriving DecidableEq

/-- The key that the call is about. -/
def LockCall.key {Key Owner : Type} : LockCall Key Owner → Key
  | .acquire key _ _ => key
  | .release key _ => key

/-- The table, and the time of the last call. -/
structure LockTable (Key Owner : Type) where
  now : Timestamp
  locks : Table Key (DistributedLock Owner)

section
variable {Key Owner : Type} [DecidableEq Key] [DecidableEq Owner]

/-- The table after the call, and what the call returns. -/
def LockCall.apply (now : Timestamp) (locks : Table Key (DistributedLock Owner)) :
    LockCall Key Owner → Table Key (DistributedLock Owner) × Bool
  | .acquire key owner ttlMs => acquireDistributedLock now key owner ttlMs locks
  | .release key owner => (releaseDistributedLock key owner locks, true)

/-- A call at a time that is not before the last. -/
def LockTable.step (s : LockTable Key Owner) (a : Timestamp × LockCall Key Owner) :
    Option (LockTable Key Owner) :=
  if s.now ≤ a.1 then some { now := a.1, locks := (a.2.apply a.1 s.locks).1 } else none

/-- What the call of a recorded step returned. -/
def LockTable.answer (p : LockTable Key Owner × Timestamp × LockCall Key Owner) : Bool :=
  (p.2.2.apply p.2.1 p.1.locks).2

/-- A call takes effect no earlier than the one before it. -/
theorem LockTable.step_eq_some {s s' : LockTable Key Owner} {t : Timestamp} {c : LockCall Key Owner} :
    LockTable.step s (t, c) = some s' ↔ s.now ≤ t ∧ s' = { now := t, locks := (c.apply t s.locks).1 } := by
  unfold LockTable.step
  dsimp only
  split
  · rename_i hle
    simp [hle, eq_comm]
  · rename_i hlt
    simp [hlt]

/-! ## §2. Keys do not interact. -/

variable {t : Timestamp} {c : LockCall Key Owner} {k : Key}

/-- A call leaves every other key alone. -/
theorem LockCall.apply_other {locks : Table Key (DistributedLock Owner)} (h : k ≠ c.key) :
    (c.apply t locks).1.lookup k = locks.lookup k := by
  cases c with
  | acquire key owner ttlMs => exact acquire_other t owner ttlMs locks h
  | release key owner => exact release_other owner locks h

/-- The row under the key decides what a call does to it and what it returns. -/
theorem LockCall.apply_congr {locks locks' : Table Key (DistributedLock Owner)}
    (h : locks.lookup c.key = locks'.lookup c.key) :
    (c.apply t locks).1.lookup c.key = (c.apply t locks').1.lookup c.key ∧
      (c.apply t locks).2 = (c.apply t locks').2 := by
  cases c with
  | acquire key owner ttlMs =>
      simp only [LockCall.key] at h
      simp only [LockCall.apply, LockCall.key, acquireDistributedLock, h]
      cases hl : locks'.lookup key with
      | none => simp
      | some held =>
          dsimp only
          split
          · simp
          · exact ⟨h, rfl⟩
  | release key owner =>
      simp only [LockCall.key] at h
      simp only [LockCall.apply, LockCall.key, release_self, h, and_self]

/-- **The calls on other keys may be left out**: the row under `k` and the answers of the calls on
`k` stay the same. -/
theorem LockTable.project {s s' : LockTable Key Owner}
    {tr : List (LockTable Key Owner × Timestamp × LockCall Key Owner)} (k : Key)
    (h : Run LockTable.step s tr s') :
    ∃ tr' s'', Run LockTable.step s tr' s'' ∧
      tr'.map Prod.snd = (tr.map Prod.snd).filter (fun a => a.2.key = k) ∧
      s''.locks.lookup k = s'.locks.lookup k ∧
      tr'.map LockTable.answer = (tr.filter (fun p => p.2.2.key = k)).map LockTable.answer ∧
      s''.now ≤ s'.now := by
  induction h with
  | nil => exact ⟨[], s, .nil, rfl, rfl, rfl, le_refl _⟩
  | @snoc tr mid s' a _ hs ih =>
      obtain ⟨tr', t, hrun, hcalls, hrow, hanswers, hnow⟩ := ih
      obtain ⟨time, c⟩ := a
      obtain ⟨hle, rfl⟩ := LockTable.step_eq_some.mp hs
      by_cases hk : c.key = k
      · subst hk
        obtain ⟨hrow', hanswer⟩ := c.apply_congr (t := time) hrow
        refine ⟨tr' ++ [(t, time, c)], _, hrun.snoc (LockTable.step_eq_some.mpr ⟨hnow.trans hle, rfl⟩),
          ?_, hrow', ?_, le_refl _⟩
        · simp [hcalls]
        · simp [hanswers, LockTable.answer, hanswer]
      · refine ⟨tr', t, hrun, ?_, ?_, ?_, hnow.trans hle⟩
        · simp [hcalls, hk]
        · exact hrow.trans (LockCall.apply_other (Ne.symm hk)).symm
        · simp [hanswers, hk]

/-! ## §3. Leases. -/

/-- `owner` holds the key until `expiry` at least. -/
def LockTable.Holds (s : LockTable Key Owner) (k : Key) (owner : Owner) (expiry : Timestamp) : Prop :=
  ∃ row, s.locks.lookup k = some row ∧ row.ownerId = owner ∧ expiry ≤ row.expiresAt

/-- The call at time `t` is no release of `owner`'s and no renewal that ends before `expiry`. -/
def LockCall.Keeps (k : Key) (owner : Owner) (expiry t : Timestamp) : LockCall Key Owner → Prop
  | .acquire key o ttlMs => key = k → o = owner → expiry ≤ t + ttlMs
  | .release key o => ¬ (key = k ∧ o = owner)

instance (k : Key) (owner : Owner) (expiry t : Timestamp) (c : LockCall Key Owner) :
    Decidable (c.Keeps k owner expiry t) :=
  match c with
  | .acquire key o ttlMs => inferInstanceAs (Decidable (key = k → o = owner → expiry ≤ t + ttlMs))
  | .release key o => inferInstanceAs (Decidable (¬ (key = k ∧ o = owner)))

variable {s s' : LockTable Key Owner} {owner : Owner} {expiry : Timestamp}

/-- The others are refused. -/
theorem LockTable.Holds.refuses (h : s.Holds k owner expiry) {o : Owner} (ho : o ≠ owner) (ttlMs : Int)
    (ht : t < expiry) : acquireDistributedLock t k o ttlMs s.locks = (s.locks, false) := by
  obtain ⟨row, hrow, rfl, hexp⟩ := h
  have hnot : ¬ (row.expiresAt ≤ t ∨ row.ownerId = o) := by
    rintro (hle | heq)
    · exact absurd (hexp.trans hle) (not_le.mpr ht)
    · exact ho heq.symm
  simp [acquireDistributedLock, hrow, hnot]

/-- The holder's own call writes its own expiry. -/
theorem LockTable.Holds.renews (h : s.Holds k owner expiry) (t : Timestamp) (ttlMs : Int) :
    (acquireDistributedLock t k owner ttlMs s.locks).2 = true ∧
      (acquireDistributedLock t k owner ttlMs s.locks).1.lookup k =
        some { ownerId := owner, expiresAt := t + ttlMs, acquiredAt := t } := by
  obtain ⟨row, hrow, rfl, _⟩ := h
  have hgranted : (acquireDistributedLock t k row.ownerId ttlMs s.locks).2 = true := by
    simp [acquireDistributedLock, hrow]
  exact ⟨hgranted, acquire_true hgranted⟩

/-- Somebody who does not own the row releases nothing. -/
theorem release_foreign {locks : Table Key (DistributedLock Owner)}
    (h : ∀ row, locks.lookup k = some row → row.ownerId ≠ owner) :
    releaseDistributedLock k owner locks = locks := by
  unfold releaseDistributedLock
  cases hl : locks.lookup k with
  | none => rfl
  | some held => simp [h held hl]

/-- One call before the expiry. -/
theorem LockTable.Holds.step (h : s.Holds k owner expiry) (hs : LockTable.step s (t, c) = some s')
    (ht : t < expiry) (hkeep : c.Keeps k owner expiry t) : s'.Holds k owner expiry := by
  obtain ⟨_, rfl⟩ := LockTable.step_eq_some.mp hs
  by_cases hk : c.key = k
  · subst hk
    cases c with
    | acquire key o ttlMs =>
        by_cases ho : o = owner
        · subst ho
          exact ⟨_, (h.renews t ttlMs).2, rfl, hkeep rfl rfl⟩
        · have hrefused := h.refuses ho ttlMs ht
          simp only [LockTable.Holds, LockCall.apply, LockCall.key] at h hrefused ⊢
          rwa [hrefused]
    | release key o =>
        have ho : o ≠ owner := fun ho => hkeep ⟨rfl, ho⟩
        obtain ⟨row, hrow, hown, hexp⟩ := h
        refine ⟨row, ?_, hown, hexp⟩
        have hnone : releaseDistributedLock key o s.locks = s.locks := by
          refine release_foreign (fun row' hrow' heq => ho ?_)
          rw [LockCall.key, hrow'] at hrow
          cases hrow
          exact heq.symm.trans hown
        rw [LockCall.apply, hnone]
        exact hrow
  · obtain ⟨row, hrow, hrest⟩ := h
    exact ⟨row, (LockCall.apply_other (Ne.symm hk)).trans hrow, hrest⟩

/-- A granted acquire holds the key for its ttl. -/
theorem LockTable.holds_of_granted {ttlMs : Int} (hs : LockTable.step s (t, .acquire k owner ttlMs) = some s')
    (hgranted : (acquireDistributedLock t k owner ttlMs s.locks).2 = true) :
    s'.Holds k owner (t + ttlMs) := by
  obtain ⟨_, rfl⟩ := LockTable.step_eq_some.mp hs
  exact ⟨_, acquire_true hgranted, rfl, le_refl _⟩

/-- **Along a sequence of calls** a lease stays until its expiry. -/
theorem LockTable.Holds.run {tr : List (LockTable Key Owner × Timestamp × LockCall Key Owner)}
    (h : s.Holds k owner expiry) (hrun : Run LockTable.step s tr s')
    (hkeep : ∀ p ∈ tr, p.2.2.Keeps k owner expiry p.2.1) (hnow : s'.now < expiry) :
    s'.Holds k owner expiry := by
  induction hrun with
  | nil => exact h
  | @snoc tr mid s' a _ hs ih =>
      obtain ⟨t, c⟩ := a
      obtain ⟨hle, rfl⟩ := LockTable.step_eq_some.mp hs
      have hmid := ih (fun p hp => hkeep p (List.mem_append_left _ hp)) (lt_of_le_of_lt hle hnow)
      exact hmid.step hs hnow (hkeep (mid, t, c) (List.mem_append_right _ List.mem_cons_self))

/-! ## §4. Semantics of the table. -/

/-- From `s` on nobody else gets the key before `expiry`, as long as `owner` neither releases it
nor renews it to an earlier expiry. -/
def LockTable.ExclusiveFrom (s : LockTable Key Owner) (k : Key) (owner : Owner) (expiry : Timestamp) : Prop :=
  ∀ tr s' t o ttlMs, Run LockTable.step s tr s' → (∀ p ∈ tr, p.2.2.Keeps k owner expiry p.2.1) →
    s'.now ≤ t → t < expiry → o ≠ owner →
    acquireDistributedLock t k o ttlMs s'.locks = (s'.locks, false)

/-- What a granted acquire gives its caller, whatever is called afterwards. -/
structure LockSemantics (s : LockTable Key Owner) (k : Key) (owner : Owner) (expiry : Timestamp) : Prop where
  exclusive : s.ExclusiveFrom k owner expiry
  /-- A renewal is granted and excludes the others until its own expiry. -/
  renewal : ∀ tr s' s'' t ttlMs, Run LockTable.step s tr s' →
    (∀ p ∈ tr, p.2.2.Keeps k owner expiry p.2.1) → t < expiry →
    LockTable.step s' (t, .acquire k owner ttlMs) = some s'' →
    (acquireDistributedLock t k owner ttlMs s'.locks).2 = true ∧ s''.ExclusiveFrom k owner (t + ttlMs)
  /-- Until the expiry the row is the caller's. -/
  holder : ∀ tr s', Run LockTable.step s tr s' → (∀ p ∈ tr, p.2.2.Keeps k owner expiry p.2.1) →
    s'.now < expiry → s'.Holds k owner expiry
  /-- A release by anybody who does not own the row has no effect, at any time. -/
  release : ∀ tr s' o, Run LockTable.step s tr s' →
    (∀ row, s'.locks.lookup k = some row → row.ownerId ≠ o) →
    releaseDistributedLock k o s'.locks = s'.locks
  /-- Without the calls on other keys the row and the answers are the same. -/
  otherKeys : ∀ tr s', Run LockTable.step s tr s' → ∃ tr' s'', Run LockTable.step s tr' s'' ∧
    tr'.map Prod.snd = (tr.map Prod.snd).filter (fun a => a.2.key = k) ∧
    s''.locks.lookup k = s'.locks.lookup k ∧
    tr'.map LockTable.answer = (tr.filter (fun p => p.2.2.key = k)).map LockTable.answer

/-- A holder is exclusive until its expiry. -/
theorem LockTable.Holds.exclusiveFrom (h : s.Holds k owner expiry) : s.ExclusiveFrom k owner expiry := by
  intro tr s' t o ttlMs hrun hkeep hle hlt ho
  exact (h.run hrun hkeep (lt_of_le_of_lt hle hlt)).refuses ho ttlMs hlt

/-- **The lock table keeps its leases.**  For every table, all keys and owners, and every sequence
of calls after a granted acquire. -/
theorem lock_semantics {ttlMs : Int} (hs : LockTable.step s (t, .acquire k owner ttlMs) = some s')
    (hgranted : (acquireDistributedLock t k owner ttlMs s.locks).2 = true) :
    LockSemantics s' k owner (t + ttlMs) := by
  have hholds := LockTable.holds_of_granted hs hgranted
  refine ⟨hholds.exclusiveFrom, ?_, ?_, ?_, ?_⟩
  · intro tr s₁ s₂ t' ttlMs' hrun hkeep hlt hstep
    obtain ⟨hle, _⟩ := LockTable.step_eq_some.mp hstep
    have hgranted' := ((hholds.run hrun hkeep (lt_of_le_of_lt hle hlt)).renews t' ttlMs').1
    exact ⟨hgranted', (LockTable.holds_of_granted hstep hgranted').exclusiveFrom⟩
  · intro tr s₁ hrun hkeep hlt
    exact hholds.run hrun hkeep hlt
  · intro tr s₁ o _ hforeign
    exact release_foreign hforeign
  · intro tr s₁ hrun
    obtain ⟨tr', s₂, hrun', hcalls, hrow, hanswers, _⟩ := LockTable.project k hrun
    exact ⟨tr', s₂, hrun', hcalls, hrow, hanswers⟩

end

/-- No lock. -/
def LockTable.free : LockTable Nat Nat := { now := 0, locks := ∅ }

/-- Owner 2 has had key 1, up to time 10, and holds key 2. -/
def LockTable.contended : LockTable Nat Nat :=
  play LockTable.step LockTable.free [(0, .acquire 1 2 10), (5, .acquire 2 2 100)]

/-- Owner 1 takes over the expired key at time 20. -/
def LockTable.takenOver : LockTable Nat Nat :=
  play LockTable.step LockTable.contended [(20, .acquire 1 1 100)]

/-- Until time 120 owner 2 is refused, whatever owner 2 releases and owner 1 renews in between. -/
theorem lock_semantics_taken_over :
    let calls : List (Timestamp × LockCall Nat Nat) :=
      [(30, .release 1 2), (40, .acquire 1 1 200), (50, .acquire 2 1 10), (60, .release 2 2)]
    let s := play LockTable.step LockTable.takenOver calls
    LockSemantics LockTable.takenOver 1 1 120 ∧
      acquireDistributedLock 119 1 2 10 s.locks = (s.locks, false) := by
  intro calls s
  have htaken : LockTable.step LockTable.contended (20, .acquire 1 1 100) = some LockTable.takenOver :=
    step_of_play (by rfl)
  have hsemantics : LockSemantics LockTable.takenOver 1 1 120 := lock_semantics htaken (by rfl)
  refine ⟨hsemantics, hsemantics.exclusive _ s 119 2 10
    (run_of_play LockTable.step LockTable.takenOver calls (by rfl)) (by decide) (by decide) (by decide)
    (by decide)⟩

/-- Owner 1 takes key 1 for 100 ms and renews it at time 1 for 10 ms; owner 2 gets it at time 50. -/
theorem shorter_renewal_ends_lease :
    let calls : List (Timestamp × LockCall Nat Nat) :=
      [(0, .acquire 1 1 100), (1, .acquire 1 1 10), (50, .acquire 1 2 10)]
    Run LockTable.step LockTable.free (trace LockTable.step LockTable.free calls)
        (play LockTable.step LockTable.free calls) ∧
      (trace LockTable.step LockTable.free calls).map LockTable.answer = [true, true, true] ∧
      (∀ a ∈ calls, a.2 ≠ .release 1 1) ∧ (50 : Timestamp) < 0 + 100 :=
  ⟨run_of_play _ _ _ (by rfl), by decide, by decide, by decide⟩

end JobScheduler
