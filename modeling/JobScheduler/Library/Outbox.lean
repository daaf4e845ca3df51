/-
  JobScheduler.Library.Outbox
  ───────────────────────────
  A log that many clients write.  A step makes entries due, a client that has not
  written them yet owes them, and the log tells the others: told and owed together
  are what was told and owed at first and what has become due since.

  Entries are counted in a commutative monoid: multisets when it matters which
  entries they are, numbers when it matters how many.
-/
import Mathlib.Algebra.BigOperators.Group.Finset.Basic
import Mathlib.Algebra.Order.Monoid.Defs
import JobScheduler.Library.Run
import JobScheduler.Library.Table

namespace Relational

variable {ι α M : Type} [DecidableEq ι]

/-! ## §1. Totals over a table. -/

namespace Table

/-- The sum of what the rows give. -/
def total [AddCommMonoid M] (f : α → M) (t : Table ι α) : M :=
  ∑ k ∈ t.keys.toFinset, (t.lookup k).elim 0 f

@[simp] theorem total_empty [AddCommMonoid M] (f : α → M) : total f (∅ : Table ι α) = 0 := rfl

end Table

end Relational

namespace Outbox

open Relational Transition

/-! ## §2. What one client does to the total. -/

section
variable {ι α M : Type} [DecidableEq ι] [AddCommMonoid M]
variable {f : α → M} {t : Table ι α} {k : ι} {old new : α} {told told' due : M}

end

/-! ## §3. Runs. -/

section
variable {σ α M : Type} [AddCommMonoid M]

variable {step : σ → α → Option σ} {told owed : σ → M} {due : σ → α → M}
variable {s₀ s s' : σ} {tr : List (σ × α)} {a : α}

end

end Outbox
