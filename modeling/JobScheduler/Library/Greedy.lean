/-
  JobScheduler.Library.Greedy
  ───────────────────────────
  Items are taken from bins one after the other, each bin giving items as long as
  it has some and has room for them.  When nothing can be taken any more, every bin
  has given exactly the smaller of its two numbers, in whatever order the items
  were taken.
-/
import Mathlib.Order.Basic

namespace Greedy

variable {σ α β : Type} [DecidableEq β]

/-- What taking one item does to the room and the stock of the bins. -/
structure Takes (free stock : σ → β → ℕ) (s : σ) (b : β) (s' : σ) : Prop where
  free_pos : 0 < free s b
  stock_pos : 0 < stock s b
  free_eq : ∀ c, free s c = free s' c + if c = b then 1 else 0
  stock_eq : ∀ c, stock s c = stock s' c + if c = b then 1 else 0

/-- Nothing can be taken. -/
def Exhausted (free stock : σ → β → ℕ) (s : σ) : Prop := ∀ b, free s b = 0 ∨ stock s b = 0

/-- The items `xs` are taken one after the other. -/
inductive Taking (free stock : σ → β → ℕ) (bin : α → β) : σ → List α → σ → Prop
  | nil (s : σ) : Taking free stock bin s [] s
  | cons {s s₁ s' : σ} {x : α} {xs : List α} (h : Takes free stock s (bin x) s₁)
      (rest : Taking free stock bin s₁ xs s') : Taking free stock bin s (x :: xs) s'

variable {free stock : σ → β → ℕ} {bin : α → β} {s s' : σ} {xs : List α}

/-- Of every bin, room and stock go down by the items taken. -/
theorem Taking.balance (h : Taking free stock bin s xs s') (b : β) :
    free s b = free s' b + xs.countP (fun x => decide (bin x = b)) ∧
      stock s b = stock s' b + xs.countP (fun x => decide (bin x = b)) := by
  induction h with
  | nil s => exact ⟨rfl, rfl⟩
  | @cons s s₁ s' x xs h rest ih =>
      obtain ⟨hfree, hstock⟩ := ih
      have hone : (if b = bin x then 1 else 0) = if decide (bin x = b) = true then 1 else 0 :=
        if_congr (eq_comm.trans decide_eq_true_iff.symm) rfl rfl
      rw [h.free_eq b, h.stock_eq b, hfree, hstock, List.countP_cons, hone]
      omega

/-- **Shares.**  At the end every bin has given as many items as it could. -/
theorem Taking.share (h : Taking free stock bin s xs s') (hend : Exhausted free stock s') (b : β) :
    xs.countP (fun x => decide (bin x = b)) = min (free s b) (stock s b) := by
  obtain ⟨hfree, hstock⟩ := h.balance b
  rcases hend b with hzero | hzero
  · omega
  · omega

end Greedy
