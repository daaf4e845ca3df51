/-
  JobScheduler.Library.Termination
  ────────────────────────────────
  Runs that come to an end.  The components of a system carry a rank in a
  well-founded order: a component moves only downwards, so an infinite run moves
  each of them finitely often, and a system that can always move one downwards
  can be brought to a state where nothing is left to do.
-/
import Mathlib.Data.DFinsupp.WellFounded
import Mathlib.Data.Set.Finite.Lemmas
import JobScheduler.Library.Run

namespace Transition

variable {σ α κ W : Type} {step : σ → α → Option σ}

/-- `states` is an infinite run that takes the actions `acts`. -/
def Forever (step : σ → α → Option σ) (states : ℕ → σ) (acts : ℕ → α) : Prop :=
  ∀ n, step (states n) (acts n) = some (states (n + 1))

/-- **Finitely many descents.**  A sequence that never goes up in a well-founded
linear order goes down finitely often. -/
theorem finite_descents [LinearOrder W] [WellFoundedLT W] (rank : ℕ → W) {moves : ℕ → Prop}
    (hle : ∀ n, rank (n + 1) ≤ rank n) (hlt : ∀ n, moves n → rank (n + 1) < rank n) :
    {n | moves n}.Finite := by
  -- after the index of the least value there is no descent
  obtain ⟨_, ⟨m, rfl⟩, hmin⟩ := wellFounded_lt.has_min (Set.range rank) ⟨_, 0, rfl⟩
  refine (Set.finite_lt_nat m).subset (fun n hn => ?_)
  by_contra hmn
  have hanti : rank n ≤ rank m := antitone_nat_of_succ_le hle (not_lt.mp hmn)
  exact hmin (rank (n + 1)) ⟨_, rfl⟩ ((hlt n hn).trans_le hanti)

/-- **Descent rule.**  When every state that is not done has an admissible step
to a state of smaller rank, every state has an admissible run to one that is. -/
theorem exists_run_of_descent [LT W] [WellFoundedLT W] {I Done : σ → Prop} {G : σ → α → Prop}
    (rank : σ → W)
    (hstep : ∀ s, I s → ¬ Done s → ∃ a s', G s a ∧ step s a = some s' ∧ I s' ∧ rank s' < rank s) :
    ∀ s, I s → ∃ tr s', Run step s tr s' ∧ (∀ p ∈ tr, G p.1 p.2) ∧ Done s' := by
  intro s
  induction hw : rank s using WellFoundedLT.induction generalizing s with
  | ind w ih =>
      intro hI
      by_cases hdone : Done s
      · exact ⟨[], s, .nil, by simp, hdone⟩
      · obtain ⟨a, t, hG, hs, hIt, hlt⟩ := hstep s hI hdone
        obtain ⟨tr, s', hrun, hGs, hd⟩ := ih (rank t) (hw ▸ hlt) t rfl hIt
        refine ⟨(s, a) :: tr, s', (Run.single hs).append hrun, ?_, hd⟩
        rintro p (_ | ⟨_, hp⟩)
        · exact hG
        · exact hGs p hp

/-- A vector of ranks goes down when one entry does and the others stay. -/
theorem pi_lt_of_move [Preorder W] {r r' : κ → W} (k : κ) (hk : r' k < r k)
    (hothers : ∀ l, l ≠ k → r' l = r l) : r' < r := by
  refine Pi.lt_def.mpr ⟨fun l => ?_, k, hk⟩
  by_cases hl : l = k
  · exact hl ▸ hk.le
  · exact (hothers l hl).le

end Transition
