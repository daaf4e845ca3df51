/-
  JobScheduler.Library.Chronicle
  ──────────────────────────────
  Logs of numbered and dated records.  A log is faithful when its numbers name
  the records and tell their order in time; it stays so as long as every new
  record is numbered above all the others and dated no earlier.
-/
import Mathlib.Data.List.Pairwise
import Mathlib.Logic.Function.Basic
import Mathlib.Order.Basic
import Mathlib.Order.Nat

namespace Chronicle

variable {ι τ : Type}

/-- What a log keeps of an event. -/
structure Record (τ : Type) where
  number : Nat
  date : τ

/-- A log, under the keys of its records. -/
abbrev Log (ι τ : Type) := ι → Option (Record τ)

/-- The numbers are distinct, and ascending in time. -/
structure Faithful [Preorder τ] (log : Log ι τ) : Prop where
  distinct : ∀ x y r s, log x = some r → log y = some s → r.number = s.number → x = y
  chronological : ∀ x y r s, log x = some r → log y = some s → r.number < s.number → r.date ≤ s.date

/-- Every record is numbered at most `n` and dated at most `t`. -/
def Within [Preorder τ] (log : Log ι τ) (n : Nat) (t : τ) : Prop :=
  ∀ x r, log x = some r → r.number ≤ n ∧ r.date ≤ t

section
variable [Preorder τ] {log : Log ι τ} {n : Nat} {t : τ}

/-- Nothing written down is faithful. -/
theorem faithful_empty : Faithful (fun _ : ι => (none : Option (Record τ))) where
  distinct := by intro x y r s h; cases h
  chronological := by intro x y r s h; cases h

variable [DecidableEq ι]

/-- The log with one record more. -/
def Log.add (log : Log ι τ) (x : ι) (r : Record τ) : Log ι τ := Function.update log x (some r)

omit [Preorder τ] in
/-- What a log holds after an addition. -/
theorem Log.add_eq_some {x y : ι} {r s : Record τ} :
    log.add x r y = some s ↔ (y = x ∧ r = s) ∨ (y ≠ x ∧ log y = some s) := by
  by_cases hy : y = x
  · subst hy
    simp [Log.add]
  · simp [Log.add, hy]

/-- **A record above the others.** -/
theorem Faithful.add {x : ι} {r : Record τ} (h : Faithful log) (hw : Within log n t)
    (hn : n < r.number) (ht : t ≤ r.date) : Faithful (log.add x r) where
  distinct := by
    intro y z s s' hy hz heq
    rcases Log.add_eq_some.mp hy with ⟨rfl, rfl⟩ | ⟨_, hy'⟩ <;>
      rcases Log.add_eq_some.mp hz with ⟨rfl, rfl⟩ | ⟨_, hz'⟩
    · rfl
    · have hle := (hw z s' hz').1
      omega
    · have hle := (hw y s hy').1
      omega
    · exact h.distinct y z s s' hy' hz' heq
  chronological := by
    intro y z s s' hy hz hlt
    rcases Log.add_eq_some.mp hy with ⟨rfl, rfl⟩ | ⟨_, hy'⟩ <;>
      rcases Log.add_eq_some.mp hz with ⟨rfl, rfl⟩ | ⟨_, hz'⟩
    · exact le_refl _
    · have hle := (hw z s' hz').1
      omega
    · exact (hw y s hy').2.trans ht
    · exact h.chronological y z s s' hy' hz' hlt

end

/-- **A listing by number is a listing by date**, whatever it shows of each record. -/
theorem Faithful.listed [Preorder τ] {β : Type} {log : Log ι τ} (h : Faithful log) (key : β → ι)
    (record : β → Record τ) {l : List β} (hlog : ∀ b ∈ l, log (key b) = some (record b))
    (hkeys : (l.map key).Nodup) (hsorted : l.Pairwise (fun a b => (record a).number ≤ (record b).number)) :
    l.Pairwise (fun a b => (record a).date ≤ (record b).date) := by
  have hboth := hsorted.and (List.pairwise_map.mp hkeys)
  refine hboth.imp_of_mem ?_
  rintro a b ha hb ⟨hle, hne⟩
  have hnum : (record a).number ≠ (record b).number :=
    fun heq => hne (h.distinct _ _ _ _ (hlog a ha) (hlog b hb) heq)
  exact h.chronological _ _ _ _ (hlog a ha) (hlog b hb) (lt_of_le_of_ne hle hnum)

end Chronicle
