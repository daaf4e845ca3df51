/-
  JobScheduler.Library.Heartbeat
  ──────────────────────────────
  A sender that sends a message from time to time, and a register that holds the
  time stamp of the message received last.  Messages travel for any time, overtake
  each other and may be lost; a message may be stamped at any time between its
  sending and its arrival.

  The register is a failure detector: a sender that falls silent is suspected
  after a while (`stamp_bounded`), and one that sends in time is never suspected
  (`stamp_recent`), once the timeout leaves room for one interval and two
  latencies.
-/
import Mathlib.Algebra.Order.Group.Defs
import Mathlib.Data.Multiset.AddSub
import JobScheduler.Library.Run

namespace Heartbeat

open Transition

/-! ## §1. The channel. -/

/-- A sender of time stamps, its messages under way and the receiver's last stamp. -/
structure Channel (τ : Type) where
  now : τ
  /-- When the sender was started or last sent a message. -/
  lastSent : τ
  /-- The send times of the messages under way. -/
  pending : Multiset τ
  /-- The stamp of the message received last. -/
  stamp : τ

/-- What can happen on the channel. -/
inductive Event (τ : Type)
  | pass (d : τ)
  | send
  | receive (sentAt stamp : τ)
  | lose (sentAt : τ)

/-- The sender has just been started. -/
def Channel.fresh {τ : Type} (now : τ) : Channel τ := ⟨now, now, 0, now⟩

variable {τ : Type} [AddCommGroup τ] [LinearOrder τ]

/-- One event of the channel; a message is received with a stamp between its sending and now. -/
def step (c : Channel τ) : Event τ → Option (Channel τ)
  | .pass d => if 0 ≤ d then some { c with now := c.now + d } else none
  | .send => some { c with lastSent := c.now, pending := c.now ::ₘ c.pending }
  | .receive sentAt stamp =>
      if sentAt ∈ c.pending ∧ sentAt ≤ stamp ∧ stamp ≤ c.now then
        some { c with pending := c.pending.erase sentAt, stamp := stamp }
      else none
  | .lose sentAt =>
      if sentAt ∈ c.pending then some { c with pending := c.pending.erase sentAt } else none

/-! ## §2. Timing. -/

/-- No message is under way for longer than `latency`. -/
def Channel.Swift (latency : τ) (c : Channel τ) : Prop := ∀ p ∈ c.pending, c.now - latency ≤ p

/-- The sender has sent within the last `interval`. -/
def Channel.Punctual (interval : τ) (c : Channel τ) : Prop := c.now - interval ≤ c.lastSent

/-- The stamp is older than `timeout`. -/
def Channel.Suspected (timeout : τ) (c : Channel τ) : Prop := c.stamp < c.now - timeout

variable [IsOrderedAddMonoid τ] {interval latency timeout t₀ : τ} {c c' : Channel τ} {ev : Event τ}
variable {tr : List (Channel τ × Event τ)}

/-! ## §3. Completeness. -/

/-- Nothing was sent, and nothing is stamped, long after the last message. -/
structure Channel.Bounded (latency : τ) (c : Channel τ) : Prop where
  sent : c.lastSent ≤ c.now
  pending : ∀ p ∈ c.pending, p ≤ c.lastSent
  stamp : c.stamp ≤ c.lastSent + latency

/-- One event keeps the age of what is under way and of the stamp bounded. -/
theorem bounded_step (hB : c.Bounded latency) (hS : c.Swift latency) (h : step c ev = some c') :
    c'.Bounded latency := by
  cases ev with
  | pass d =>
      simp only [step] at h
      split at h
      · rename_i hd
        obtain rfl := Option.some.inj h
        exact ⟨hB.sent.trans (le_add_of_nonneg_right hd), hB.pending, hB.stamp⟩
      · cases h
  | send =>
      obtain rfl := Option.some.inj h
      refine ⟨le_refl _, ?_, hB.stamp.trans (add_le_add_left hB.sent latency)⟩
      intro p hp
      rcases Multiset.mem_cons.mp hp with rfl | hp
      · exact le_refl _
      · exact (hB.pending p hp).trans hB.sent
  | receive sentAt stamp =>
      simp only [step] at h
      split at h
      · rename_i hok
        obtain ⟨hmem, _, hstamp⟩ := hok
        obtain rfl := Option.some.inj h
        refine ⟨hB.sent, fun p hp => hB.pending p (Multiset.mem_of_mem_erase hp), ?_⟩
        calc stamp ≤ c.now := hstamp
          _ ≤ sentAt + latency := sub_le_iff_le_add.mp (hS sentAt hmem)
          _ ≤ c.lastSent + latency := add_le_add_left (hB.pending sentAt hmem) latency
      · cases h
  | lose sentAt =>
      simp only [step] at h
      split at h
      · obtain rfl := Option.some.inj h
        exact ⟨hB.sent, fun p hp => hB.pending p (Multiset.mem_of_mem_erase hp), hB.stamp⟩
      · cases h

/-- In every run without a stalled message the receiver's stamp is bounded. -/
theorem stamp_bounded (hl : 0 ≤ latency) (h : Run step (Channel.fresh t₀) tr c)
    (hS : ∀ p ∈ tr, p.1.Swift latency) : c.Bounded latency :=
  h.invariant (G := fun c _ => c.Swift latency) (fun _ _ _ hB hs h => bounded_step hB hs h) hS
    ⟨le_refl _, by simp [Channel.fresh], le_add_of_nonneg_right hl⟩

/-- **Completeness.**  A sender that has been silent for the latency and the
timeout is suspected. -/
theorem Channel.Bounded.suspected (hB : c.Bounded latency)
    (h : c.lastSent + latency + timeout < c.now) :
    c.Suspected timeout :=
  lt_sub_iff_add_lt.mpr ((add_le_add_left hB.stamp timeout).trans_lt h)

/-! ## §4. Accuracy. -/

/-- There was an arrival at some time `e` not before the last message that is no
longer under way, or not long before the oldest that is. -/
structure Channel.Arrived (interval latency : τ) (c : Channel τ) (e : τ) : Prop where
  arrived : e ≤ c.now
  stamp : e - latency ≤ c.stamp
  recent : (c.pending = 0 ∧ c.lastSent ≤ e) ∨ ∃ q ∈ c.pending, q - interval ≤ e

/-- The times of the channel are in order. -/
structure Channel.Ordered (c : Channel τ) : Prop where
  sent : c.lastSent ≤ c.now
  pending : ∀ p ∈ c.pending, p ≤ c.now

/-- The event is the loss of a message. -/
def Event.loses : Event τ → Bool
  | .lose _ => true
  | _ => false

/-- Times stay in their order. -/
theorem ordered_step (hO : c.Ordered) (h : step c ev = some c') : c'.Ordered := by
  cases ev <;> simp only [step] at h
  case pass d =>
    split at h
    · obtain rfl := Option.some.inj h
      have hle : c.now ≤ c.now + d := le_add_of_nonneg_right ‹0 ≤ d›
      exact ⟨hO.sent.trans hle, fun p hp => (hO.pending p hp).trans hle⟩
    · cases h
  case send =>
    obtain rfl := Option.some.inj h
    refine ⟨le_refl _, fun p hp => ?_⟩
    rcases Multiset.mem_cons.mp hp with rfl | hp
    · exact le_refl _
    · exact hO.pending p hp
  all_goals
    split at h
    · obtain rfl := Option.some.inj h
      exact ⟨hO.sent, fun p hp => hO.pending p (Multiset.mem_of_mem_erase hp)⟩
    · cases h

/-- One event keeps a recent arrival, unless it is a loss. -/
theorem arrived_step {e : τ} (hi : 0 ≤ interval) (hO : c.Ordered) (hA : c.Arrived interval latency e)
    (hS : c.Swift latency) (hP : c.Punctual interval) (hev : ev.loses = false)
    (h : step c ev = some c') : ∃ e', c'.Arrived interval latency e' := by
  cases ev with
  | pass d =>
      simp only [step] at h
      split at h
      · rename_i hd
        obtain rfl := Option.some.inj h
        exact ⟨e, hA.arrived.trans (le_add_of_nonneg_right hd), hA.stamp, hA.recent⟩
      · cases h
  | send =>
      obtain rfl := Option.some.inj h
      refine ⟨e, hA.arrived, hA.stamp, .inr ?_⟩
      rcases hA.recent with ⟨_, hlast⟩ | ⟨q, hq, hqe⟩
      · -- the message that goes out is the only one under way
        exact ⟨c.now, Multiset.mem_cons_self _ _,
          (show c.now - interval ≤ c.lastSent from hP).trans hlast⟩
      · exact ⟨q, Multiset.mem_cons_of_mem hq, hqe⟩
  | receive sentAt stamp =>
      simp only [step] at h
      split at h
      · rename_i hok
        obtain ⟨hmem, hge, _⟩ := hok
        obtain rfl := Option.some.inj h
        refine ⟨c.now, le_refl _, (hS sentAt hmem).trans hge, ?_⟩
        by_cases hrest : c.pending.erase sentAt = 0
        · exact .inl ⟨hrest, hO.sent⟩
        · obtain ⟨q, hq⟩ := Multiset.exists_mem_of_ne_zero hrest
          have hle : q ≤ c.now := hO.pending q (Multiset.mem_of_mem_erase hq)
          exact .inr ⟨q, hq, (sub_le_self q hi).trans hle⟩
      · cases h
  | lose sentAt => cases hev

/-- **Accuracy.**  While the sender is punctual and no message is lost or late, the
stamp is at most one interval and two latencies old. -/
theorem stamp_recent (hi : 0 ≤ interval) (hl : 0 ≤ latency) (h : Run step (Channel.fresh t₀) tr c)
    (hS : ∀ p ∈ tr, p.1.Swift latency) (hP : ∀ p ∈ tr, p.1.Punctual interval)
    (hL : ∀ p ∈ tr, p.2.loses = false) (hS' : c.Swift latency) (hP' : c.Punctual interval) :
    c.now - (interval + latency + latency) ≤ c.stamp := by
  obtain ⟨_, e, hA⟩ : c.Ordered ∧ ∃ e, c.Arrived interval latency e := by
    refine h.invariant (I := fun c => c.Ordered ∧ ∃ e, c.Arrived interval latency e)
      (G := fun c ev => c.Swift latency ∧ c.Punctual interval ∧ ev.loses = false)
      ?_ (fun p hp => ⟨hS p hp, hP p hp, hL p hp⟩) ?_
    · rintro c ev c' ⟨hO, e, hA⟩ ⟨hs, hp, hl'⟩ hstep
      exact ⟨ordered_step hO hstep, arrived_step hi hO hA hs hp hl' hstep⟩
    · exact ⟨⟨le_refl _, by simp [Channel.fresh]⟩,
        t₀, le_refl _, sub_le_self _ hl, .inl ⟨rfl, le_refl _⟩⟩
  have hlate : c.now - (interval + latency) ≤ e := by
    rcases hA.recent with ⟨_, hlast⟩ | ⟨q, hq, hqe⟩
    · calc c.now - (interval + latency) ≤ c.now - interval := by
            rw [← sub_sub]
            exact sub_le_self _ hl
        _ ≤ c.lastSent := hP'
        _ ≤ e := hlast
    · calc c.now - (interval + latency) = c.now - latency - interval := by
            rw [add_comm, sub_sub]
        _ ≤ q - interval := sub_le_sub_right (hS' q hq) interval
        _ ≤ e := hqe
  calc c.now - (interval + latency + latency) = c.now - (interval + latency) - latency := by
        rw [sub_sub]
    _ ≤ e - latency := sub_le_sub_right hlate latency
    _ ≤ c.stamp := hA.stamp

/-- So with such a timeout it is not suspected. -/
theorem not_suspected (ht : interval + latency + latency ≤ timeout)
    (h : c.now - (interval + latency + latency) ≤ c.stamp) : ¬ c.Suspected timeout :=
  not_lt.mpr ((sub_le_sub_left ht c.now).trans h)

end Heartbeat
