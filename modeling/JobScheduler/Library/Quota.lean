/-
  JobScheduler.Library.Quota
  ──────────────────────────
  Counters of requests.  A request uses the counter of its key, or none when it
  is exempt, and is admitted while fewer than `limit` requests before it have
  used that counter.

  The quota of one key is kept by construction.  `length_admitted_le_iff` says when
  the counters keep the same quota for a whole sequence, whatever keys it has, and
  `length_le_card_mul` what several counters admit together.
-/
import Mathlib.Algebra.Order.BigOperators.Group.Finset
import Mathlib.Data.List.Basic

namespace Quota

variable {α κ : Type} [DecidableEq κ]

/-! ## §1. Counters. -/

/-- How many of the requests use the counter of `k`. -/
def used (key : α → Option κ) (k : κ) (as : List α) : Nat :=
  as.countP (fun a => decide (key a = some k))

/-- The quota lets `a` through after the arrivals `before`; an arrival without a key is not
counted. -/
def admits (key : α → Option κ) (limit : Nat) (before : List α) (a : α) : Bool :=
  match key a with
  | none => true
  | some k => decide (used key k before < limit)

/-- The admitted ones of the second list, which comes after the first. -/
def admitted (key : α → Option κ) (limit : Nat) : List α → List α → List α
  | _, [] => []
  | before, a :: as =>
      if admits key limit before a then a :: admitted key limit (before ++ [a]) as
      else admitted key limit (before ++ [a]) as

section
variable {key : α → Option κ} {limit : Nat}

@[simp] theorem used_nil (k : κ) : used key k [] = 0 := rfl

/-- An arrival uses one place of its own key. -/
theorem used_cons (k : κ) (a : α) (as : List α) :
    used key k (a :: as) = used key k as + if key a = some k then 1 else 0 := by
  unfold used
  rw [List.countP_cons]
  simp

theorem used_snoc (k : κ) (a : α) (as : List α) :
    used key k (as ++ [a]) = used key k as + if key a = some k then 1 else 0 := by
  unfold used
  rw [List.countP_append, List.countP_singleton]
  simp

/-- A key is used once one of its arrivals is there. -/
theorem used_pos {k : κ} {as : List α} : 0 < used key k as ↔ ∃ a ∈ as, key a = some k := by
  unfold used
  rw [List.countP_pos_iff]
  simp

/-- An arrival without a key is always let through. -/
theorem admits_of_none {before : List α} {a : α} (h : key a = none) :
    admits key limit before a = true := by
  simp [admits, h]

/-- An arrival is let through while its key has a place left. -/
theorem admits_of_some {before : List α} {a : α} {k : κ} (h : key a = some k) :
    admits key limit before a = decide (used key k before < limit) := by
  simp [admits, h]

/-! ## §2. One key. -/

/-- The arrivals that are let through keep their order. -/
theorem admitted_sublist (before as : List α) : (admitted key limit before as).Sublist as := by
  induction as generalizing before with
  | nil => exact List.Sublist.refl _
  | cons a as ih =>
      unfold admitted
      split
      · exact (ih _).cons_cons a
      · exact (ih _).cons a

/-- Of the requests of one key, as many are admitted as its counter has room for. -/
theorem used_admitted (k : κ) (before as : List α) :
    used key k (admitted key limit before as) = min (used key k as) (limit - used key k before) := by
  induction as generalizing before with
  | nil => simp [admitted]
  | cons a as ih =>
      have hrest := ih (before ++ [a])
      rw [used_snoc] at hrest
      unfold admitted
      rw [used_cons]
      by_cases ha : key a = some k
      · rw [admits_of_some ha]
        rw [if_pos ha] at hrest ⊢
        by_cases hroom : used key k before < limit
        · rw [decide_eq_true hroom, if_pos rfl, used_cons, if_pos ha, hrest]
          omega
        · rw [decide_eq_false hroom, if_neg Bool.false_ne_true, hrest]
          omega
      · rw [if_neg ha] at hrest ⊢
        have hsame : used key k (a :: admitted key limit (before ++ [a]) as) =
            used key k (admitted key limit (before ++ [a]) as) := by
          rw [used_cons, if_neg ha, Nat.add_zero]
        rw [Nat.add_zero] at hrest ⊢
        split
        · exact hsame.trans hrest
        · exact hrest

/-- An exempt arrival is among those let through. -/
theorem mem_admitted_of_exempt {a : α} (h : key a = none) (before as : List α) (ha : a ∈ as) :
    a ∈ admitted key limit before as := by
  induction as generalizing before with
  | nil => cases ha
  | cons b as ih =>
      unfold admitted
      rcases List.mem_cons.mp ha with rfl | hmem
      · rw [if_pos (admits_of_none h)]
        exact List.mem_cons_self
      · split
        · exact List.mem_cons_of_mem _ (ih _ hmem)
        · exact ih _ hmem

/-- With room in every counter all are admitted. -/
theorem admitted_eq_self (before as : List α)
    (h : ∀ k, used key k before + used key k as ≤ limit) : admitted key limit before as = as := by
  induction as generalizing before with
  | nil => rfl
  | cons a as ih =>
      have hadmits : admits key limit before a = true := by
        cases ha : key a with
        | none => exact admits_of_none ha
        | some k =>
            have hk := h k
            rw [used_cons, if_pos ha] at hk
            rw [admits_of_some ha, decide_eq_true_eq]
            omega
      unfold admitted
      rw [if_pos hadmits, ih]
      intro k
      have hk := h k
      rw [used_cons] at hk
      rw [used_snoc]
      omega

/-! ## §3. Several keys. -/

/-- Requests of one key keep the quota. -/
theorem length_admitted_le (as : List α) {k : κ} (h : ∀ a ∈ as, key a = some k) :
    (admitted key limit [] as).length ≤ limit := by
  have hall : used key k (admitted key limit [] as) = (admitted key limit [] as).length := by
    unfold used
    rw [List.countP_eq_length]
    exact fun a ha => decide_eq_true (h a ((admitted_sublist [] as).subset ha))
  rw [← hall, used_admitted]
  exact Nat.le_trans (Nat.min_le_right _ _) (Nat.sub_le _ _)

/-- When the counter of `k` runs over and the quota is kept, only requests of `k` are admitted. -/
theorem key_of_admitted {as : List α} {k : κ} (hover : limit < used key k as)
    (h : (admitted key limit [] as).length ≤ limit) {a : α} (ha : a ∈ admitted key limit [] as) :
    key a = some k := by
  by_contra hne
  have hfull : used key k (admitted key limit [] as) = limit := by
    rw [used_admitted, used_nil, Nat.sub_zero]
    exact Nat.min_eq_right (Nat.le_of_lt hover)
  have hall : used key k (admitted key limit [] as) = (admitted key limit [] as).length :=
    Nat.le_antisymm List.countP_le_length (by rw [hfull]; exact h)
  exact hne (of_decide_eq_true (List.countP_eq_length.mp hall a ha))

/-- When a counter runs over and the quota is kept, no other request has a key. -/
theorem key_of_mem {as : List α} {k : κ} (hover : limit < used key k as)
    (h : (admitted key limit [] as).length ≤ limit) (hpos : limit ≠ 0) {a : α} (ha : a ∈ as) :
    key a = some k := by
  cases hkey : key a with
  | none =>
      rw [← hkey]
      exact key_of_admitted hover h (mem_admitted_of_exempt hkey [] as ha)
  | some k' =>
      -- the first request of `k'` would have been admitted
      have hsome : 0 < used key k' (admitted key limit [] as) := by
        have hused : 0 < used key k' as := used_pos.mpr ⟨a, ha, hkey⟩
        rw [used_admitted, used_nil]
        omega
      obtain ⟨b, hb, hkey'⟩ := used_pos.mp hsome
      rw [← hkey']
      exact key_of_admitted hover h hb

/-- A zero quota admits only who is exempt. -/
theorem admitted_zero {as : List α} (h : ∀ a ∈ as, key a ≠ none) : admitted key 0 [] as = [] := by
  rw [List.eq_nil_iff_forall_not_mem]
  intro a ha
  obtain ⟨k, hk⟩ := Option.ne_none_iff_exists'.mp (h a ((admitted_sublist [] as).subset ha))
  have hused : 0 < used key k (admitted key 0 [] as) := used_pos.mpr ⟨a, ha, hk⟩
  rw [used_admitted] at hused
  simp at hused

/-- **The counters keep the quota for a sequence if and only if it is short, or
nobody in it is exempt and it has one key** (or the quota is zero). -/
theorem length_admitted_le_iff (as : List α) :
    (admitted key limit [] as).length ≤ limit ↔
      as.length ≤ limit ∨
        ((∀ a ∈ as, key a ≠ none) ∧ (limit = 0 ∨ ∀ a ∈ as, ∀ b ∈ as, key a = key b)) := by
  constructor
  · intro h
    by_cases hshort : as.length ≤ limit
    · exact .inl hshort
    right
    -- some counter runs over, since not all are admitted
    obtain ⟨k, hover⟩ : ∃ k, limit < used key k as := by
      by_contra hroom
      push Not at hroom
      rw [admitted_eq_self [] as (fun k => by simpa using hroom k)] at h
      exact hshort h
    refine ⟨fun a ha hnone => ?_, ?_⟩
    · have hkey := key_of_admitted hover h (mem_admitted_of_exempt hnone [] as ha)
      rw [hnone] at hkey
      cases hkey
    · by_cases hzero : limit = 0
      · exact .inl hzero
      · exact .inr (fun a ha b hb =>
          (key_of_mem hover h hzero ha).trans (key_of_mem hover h hzero hb).symm)
  · rintro (hshort | ⟨hcounted, rfl | hsame⟩)
    · exact Nat.le_trans (admitted_sublist [] as).length_le hshort
    · rw [admitted_zero hcounted]
      exact Nat.le_refl _
    · cases as with
      | nil => exact Nat.zero_le _
      | cons a as =>
          obtain ⟨k, hk⟩ := Option.ne_none_iff_exists'.mp (hcounted a List.mem_cons_self)
          exact length_admitted_le _ (fun b hb => (hsame b hb a List.mem_cons_self).trans hk)

end

/-! ## §4. Several counters together. -/

/-- The arrivals of finitely many keys, counted key by key. -/
theorem length_eq_sum_used {key : α → Option κ} (S : Finset κ) (as : List α)
    (h : ∀ a ∈ as, ∃ k ∈ S, key a = some k) : as.length = ∑ k ∈ S, used key k as := by
  induction as with
  | nil => simp
  | cons a as ih =>
      obtain ⟨k, hk, ha⟩ := h a List.mem_cons_self
      have hone : ∑ l ∈ S, (if key a = some l then 1 else 0) = 1 := by
        rw [Finset.sum_eq_single_of_mem k hk (fun l _ hne => if_neg ?_), if_pos ha]
        rw [ha]
        exact fun heq => hne (Option.some.inj heq).symm
      simp only [used_cons, Finset.sum_add_distrib, hone, List.length_cons]
      rw [ih (fun b hb => h b (List.mem_cons_of_mem _ hb))]

/-- Requests of a few keys, with at most `limit` of each. -/
theorem length_le_card_mul (key : α → Option κ) {limit : Nat} (S : Finset κ) (as : List α)
    (h : ∀ a ∈ as, ∃ k ∈ S, key a = some k) (hlimit : ∀ k ∈ S, used key k as ≤ limit) :
    as.length ≤ S.card * limit := by
  rw [length_eq_sum_used S as h]
  simpa using Finset.sum_le_card_nsmul S _ limit hlimit

end Quota
