/-
  JobScheduler.Library.Succession
  ───────────────────────────────
  Walks along a partial successor function, as a calendar or a cron expression
  gives it.  A walk may grow at its end; when the function finds the LEAST element
  of a set after its argument, a walk from the first element visits the set in
  order and leaves nothing out.
-/
import Mathlib.Data.List.Chain
import Mathlib.Data.Set.Card
import Mathlib.Order.Bounds.Basic

namespace Succession

variable {α : Type}

/-- Each element is the successor of the one before. -/
def Walk (next : α → Option α) (l : List α) : Prop := l.IsChain (fun a b => next a = some b)

section
variable {next : α → Option α} {l before : List α} {a b w : α}

theorem walk_singleton (next : α → Option α) (a : α) : Walk next [a] := List.isChain_singleton a

/-- One more step. -/
theorem Walk.snoc (h : Walk next (before ++ [w])) (hnext : next w = some b) :
    Walk next (before ++ [w] ++ [b]) := by
  refine List.isChain_append.mpr ⟨h, List.isChain_singleton b, fun x hx y hy => ?_⟩
  rw [List.getLast?_concat] at hx
  cases hx
  cases hy
  exact hnext

/-- A walk goes on from the successor of its first element. -/
theorem Walk.of_cons (h : Walk next (a :: l)) : (∀ y ∈ l.head?, next a = some y) ∧ Walk next l :=
  List.isChain_cons.mp h

/-- When the successor is later, a walk never returns. -/
theorem Walk.pairwise_lt [Preorder α] (hlt : ∀ a b, next a = some b → a < b) (h : Walk next l) :
    l.Pairwise (· < ·) := by
  have hchain : l.IsChain (· < ·) := List.IsChain.imp hlt h
  exact hchain.pairwise

/-- A walk upwards visits nothing twice. -/
theorem Walk.nodup [Preorder α] (hlt : ∀ a b, next a = some b → a < b) (h : Walk next l) : l.Nodup :=
  (h.pairwise_lt hlt).imp ne_of_lt

end

/-! ## The successor in a set. -/

section
variable [LinearOrder α] {next : α → Option α} {occ : Set α}

/-- `next` finds the least element of `occ` after its argument. -/
def FindsLeast (next : α → Option α) (occ : Set α) : Prop :=
  ∀ a, ∃ b, next a = some b ∧ IsLeast {o | o ∈ occ ∧ a < o} b

/-- The next element is the least one above. -/
theorem FindsLeast.isLeast (h : FindsLeast next occ) {a b : α} (hnext : next a = some b) :
    IsLeast {o | o ∈ occ ∧ a < o} b := by
  obtain ⟨b', hb', hleast⟩ := h a
  rw [hnext] at hb'
  cases hb'
  exact hleast

/-- The next element lies above. -/
theorem FindsLeast.lt (h : FindsLeast next occ) (a b : α) (hnext : next a = some b) : a < b :=
  (h.isLeast hnext).1.2

/-- **A walk is exact.**  Walking from the first element after `c`, the elements
visited before `w` are those of `occ` between `c` and `w`. -/
theorem Walk.mem_iff (hfind : FindsLeast next occ) {before : List α} {c w : α}
    (h : Walk next (before ++ [w])) (hhead : (before ++ [w]).head? = next c) :
    (w ∈ occ ∧ c < w) ∧ ∀ o, o ∈ before ↔ o ∈ occ ∧ c < o ∧ o < w := by
  induction before generalizing c with
  | nil =>
      have hleast := hfind.isLeast hhead.symm
      refine ⟨hleast.1, fun o => ⟨fun ho => absurd ho List.not_mem_nil, fun ⟨ho, hco, how⟩ => ?_⟩⟩
      exact absurd how (not_lt.mpr (hleast.2 ⟨ho, hco⟩))
  | cons b rest ih =>
      obtain ⟨⟨hb, hcb⟩, hmin⟩ := hfind.isLeast hhead.symm
      obtain ⟨hnext, hrest⟩ := Walk.of_cons h
      have hhead' : (rest ++ [w]).head? = next b := by
        cases hr : (rest ++ [w]).head? with
        | none => simp at hr
        | some y => exact (hnext y hr).symm
      obtain ⟨⟨hw, hbw⟩, hmem⟩ := ih hrest hhead'
      refine ⟨⟨hw, hcb.trans hbw⟩, fun o => ?_⟩
      rw [List.mem_cons, hmem]
      constructor
      · rintro (rfl | ⟨ho, hbo, how⟩)
        · exact ⟨hb, hcb, hbw⟩
        · exact ⟨ho, hcb.trans hbo, how⟩
      · rintro ⟨ho, hco, how⟩
        rcases (hmin ⟨ho, hco⟩).eq_or_lt with heq | hlt
        · exact .inl heq.symm
        · exact .inr ⟨ho, hlt, how⟩

/-- A walk that has not passed `t` has visited fewer elements than there are up to `t`. -/
theorem Walk.length_lt_ncard (hfind : FindsLeast next occ) {before : List α} {c w t : α}
    (h : Walk next (before ++ [w])) (hhead : (before ++ [w]).head? = next c) (hw : w ≤ t)
    (hfin : {o | o ∈ occ ∧ c < o ∧ o ≤ t}.Finite) :
    before.length < {o | o ∈ occ ∧ c < o ∧ o ≤ t}.ncard := by
  obtain ⟨⟨hocc, hcw⟩, hmem⟩ := h.mem_iff hfind hhead
  have hcard : (before ++ [w]).toFinset.card = before.length + 1 := by
    rw [List.toFinset_card_of_nodup (h.nodup hfind.lt), List.length_append, List.length_singleton]
  have hsub : ((before ++ [w]).toFinset : Set α) ⊆ {o | o ∈ occ ∧ c < o ∧ o ≤ t} := by
    intro o ho
    rcases List.mem_append.mp (List.mem_toFinset.mp (Finset.mem_coe.mp ho)) with hb | hlast
    · obtain ⟨ho, hco, how⟩ := (hmem o).mp hb
      exact ⟨ho, hco, how.le.trans hw⟩
    · obtain rfl := List.mem_singleton.mp hlast
      exact ⟨hocc, hcw, hw⟩
  have hle := Set.ncard_le_ncard hsub hfin
  rw [Set.ncard_coe_finset, hcard] at hle
  exact hle

end

end Succession
