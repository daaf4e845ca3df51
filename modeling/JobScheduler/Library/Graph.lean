/-
  JobScheduler.Library.Graph
  ──────────────────────────
  Acyclic relations and ranks.  A relation that decreases a rank into ℕ has no
  cycle of any length; a relation with finitely many edges and no cycle has a
  rank.  So acyclicity can be carried through a sequence of changes as the
  existence of a rank, which a new node with edges to older ones extends.
-/
import Mathlib.Data.Set.Card
import Mathlib.Logic.Relation
import Mathlib.Order.WellFounded

namespace Graph

open Relation

variable {α : Type} {R S : α → α → Prop} {rank : α → ℕ}

/-- No cycle of any length. -/
def Acyclic (R : α → α → Prop) : Prop := ∀ x, ¬ TransGen R x x

/-- Every edge decreases the rank. -/
def Ranked (R : α → α → Prop) (rank : α → ℕ) : Prop := ∀ x y, R x y → rank y < rank x

theorem Ranked.transGen (h : Ranked R rank) {x y : α} (hxy : TransGen R x y) : rank y < rank x := by
  induction hxy with
  | single hR => exact h _ _ hR
  | tail _ hR ih => exact (h _ _ hR).trans ih

/-- A ranked relation has no cycle. -/
theorem Ranked.acyclic (h : Ranked R rank) : Acyclic R :=
  fun _ hx => Nat.lt_irrefl _ (h.transGen hx)

/-- A nonempty set has a member without a successor in the set. -/
theorem Ranked.exists_sink (h : Ranked R rank) {T : Set α} (hT : T.Nonempty) :
    ∃ x ∈ T, ∀ y, R x y → y ∉ T := by
  have hwf : WellFounded (fun a b => rank a < rank b) := (measure rank).wf
  refine ⟨hwf.min T hT, hwf.min_mem T hT, fun y hy hmem => ?_⟩
  exact hwf.not_lt_min T hmem (h _ _ hy)

/-- **A finite acyclic relation has a rank**: the number of descendants. -/
theorem Acyclic.exists_ranked (h : Acyclic R) (hfin : {e : α × α | R e.1 e.2}.Finite) :
    ∃ rank, Ranked R rank := by
  have hdesc : ∀ x, {y | TransGen R x y}.Finite := by
    intro x
    refine (hfin.image Prod.snd).subset (fun y hy => ?_)
    obtain ⟨z, _, hz⟩ := TransGen.tail'_iff.mp hy
    exact ⟨(z, y), hz, rfl⟩
  refine ⟨fun x => {y | TransGen R x y}.ncard, fun x y hxy => ?_⟩
  refine Set.ncard_lt_ncard ⟨fun z hz => TransGen.head hxy hz, fun hsub => ?_⟩ (hdesc x)
  exact h y (hsub (TransGen.single hxy))

theorem Ranked.mono (h : Ranked R rank) (hsub : ∀ x y, S x y → R x y) : Ranked S rank :=
  fun x y hxy => h x y (hsub x y hxy)

/-- A node that no edge touches can be given any rank. -/
theorem Ranked.update [DecidableEq α] (h : Ranked R rank) {x : α} (n : ℕ)
    (hout : ∀ y, ¬ R x y) (hin : ∀ y, ¬ R y x) : Ranked R (Function.update rank x n) := by
  intro y z hyz
  have hy : y ≠ x := by rintro rfl; exact hout z hyz
  have hz : z ≠ x := by rintro rfl; exact hin y hyz
  rw [Function.update_of_ne hy, Function.update_of_ne hz]
  exact h y z hyz

end Graph
