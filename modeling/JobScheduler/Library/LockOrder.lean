/-
  JobScheduler.Library.LockOrder
  ──────────────────────────────
  Locks taken in order.  When every transaction that waits for a lock holds
  only smaller ones, no cycle of transactions waits, whatever its length, and
  of any finite group of transactions one does not wait for the group.
-/
import JobScheduler.Library.Graph

namespace Locking

open Relation

variable {τ ρ : Type} {awaits holds : τ → ρ → Prop}

/-- `x` waits for a lock that `y` holds. -/
def WaitsFor (awaits holds : τ → ρ → Prop) (x y : τ) : Prop := ∃ r, awaits x r ∧ holds y r

variable [Preorder ρ]

/-- Nobody waits for a lock that is not above those it holds. -/
def Ordered (awaits holds : τ → ρ → Prop) : Prop :=
  ∀ x r r', holds x r → awaits x r' → r < r'

/-- Along a chain of waiting transactions the locks grow. -/
theorem Ordered.transGen (h : Ordered awaits holds) {x y : τ}
    (hxy : TransGen (WaitsFor awaits holds) x y) :
    ∃ r r', awaits x r ∧ holds y r' ∧ r ≤ r' := by
  induction hxy with
  | single hw =>
      obtain ⟨r, hr, hy⟩ := hw
      exact ⟨r, r, hr, hy, le_rfl⟩
  | @tail b c _ hw ih =>
      obtain ⟨r, r', hr, hb, hle⟩ := ih
      obtain ⟨q, hq, hc⟩ := hw
      exact ⟨r, q, hr, hc, hle.trans (h b r' q hb hq).le⟩

/-- **No deadlock.** -/
theorem Ordered.acyclic (h : Ordered awaits holds) : Graph.Acyclic (WaitsFor awaits holds) := by
  intro x hx
  obtain ⟨r, r', hr, hx', hle⟩ := h.transGen hx
  exact absurd hle (h x r' r hx' hr).not_ge

/-- **Progress.**  Somebody in a finite group waits for nobody in it. -/
theorem Ordered.exists_unblocked (h : Ordered awaits holds) {T : Set τ} (hfin : T.Finite)
    (hT : T.Nonempty) : ∃ x ∈ T, ∀ y ∈ T, ¬ WaitsFor awaits holds x y := by
  let R : τ → τ → Prop := fun x y => x ∈ T ∧ y ∈ T ∧ WaitsFor awaits holds x y
  have hac : Graph.Acyclic R :=
    fun x hx => h.acyclic x (TransGen.mono (fun _ _ hR => hR.2.2) x x hx)
  have hedges : {e : τ × τ | R e.1 e.2}.Finite :=
    (hfin.prod hfin).subset (fun _ he => ⟨he.1, he.2.1⟩)
  obtain ⟨rank, hrank⟩ := hac.exists_ranked hedges
  obtain ⟨x, hx, hsink⟩ := hrank.exists_sink hT
  exact ⟨x, hx, fun y hy hw => hsink y ⟨hx, hy, hw⟩ hy⟩

end Locking
