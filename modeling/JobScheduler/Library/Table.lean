/-
  JobScheduler.Library.Table
  ──────────────────────────
  Keyed relational tables: finite lists of rows with pairwise distinct primary
  keys (`AList`), the statements of SQL on them, and COUNT as the
  cardinality of the set of keys a WHERE clause selects.

  Everything is stated pointwise, through `lookup`: a proof about a statement
  asks what the row under one key was before and is after.  The counting rules
  compare two tables key by key and never look at the row order.
-/
import Mathlib.Data.List.AList
import Mathlib.Data.Finset.Card

namespace Relational

variable {ι α : Type} [DecidableEq ι]

/-- A table: rows of type `α` under distinct primary keys of type `ι`. -/
abbrev Table (ι α : Type) := AList (fun _ : ι => α)

namespace Table

/-! ## §1. Statements. -/

/-- `UPDATE t SET f WHERE p`. -/
def update (p : ι → α → Bool) (f : α → α) (t : Table ι α) : Table ι α where
  entries := t.entries.map (Sigma.map id (fun k a => if p k a then f a else a))
  nodupKeys := t.nodupKeys.map₂ _

/-- `DELETE FROM t WHERE p`. -/
def delete (p : ι → α → Bool) (t : Table ι α) : Table ι α where
  entries := t.entries.filter (fun e => !p e.1 e.2)
  nodupKeys := t.nodupKeys.sublist List.filter_sublist

/-- `SELECT key, row FROM t WHERE p`, in table order. -/
def select (p : ι → α → Bool) (t : Table ι α) : List (ι × α) :=
  (t.entries.filter (fun e => p e.1 e.2)).map (fun e => (e.1, e.2))

/-- No row of `t` violates `p`. -/
def all (p : ι → α → Bool) (t : Table ι α) : Bool :=
  t.entries.all (fun e => p e.1 e.2)

/-- The keys of the rows that satisfy a WHERE clause. -/
def keysWhere (p : ι → α → Bool) (t : Table ι α) : Finset ι :=
  t.keys.toFinset.filter (fun k => (t.lookup k).any (p k) = true)

/-- `SELECT COUNT(*) FROM t WHERE p`. -/
def count (p : ι → α → Bool) (t : Table ι α) : Nat := (keysWhere p t).card

/-! ## §2. What each statement leaves under a key. -/

/-- An UPDATE changes the rows of its WHERE clause, and only those. -/
theorem lookup_update (p : ι → α → Bool) (f : α → α) (t : Table ι α) (k : ι) :
    (t.update p f).lookup k
      = (t.lookup k).map (fun a => if p k a then f a else a) := by
  unfold update AList.lookup
  exact List.dlookup_map₂ k

theorem lookup_insert_ite (k k' : ι) (a : α) (t : Table ι α) :
    (t.insert k a).lookup k' = if k' = k then some a else t.lookup k' := by
  by_cases h : k' = k
  · subst h; simp
  · rw [AList.lookup_insert_ne h, if_neg h]

theorem mem_entries_iff (t : Table ι α) (k : ι) (a : α) :
    (⟨k, a⟩ : Σ _ : ι, α) ∈ t.entries ↔ t.lookup k = some a :=
  AList.mem_lookup_iff.symm

/-- A DELETE removes the rows of its WHERE clause, and only those. -/
theorem lookup_delete (p : ι → α → Bool) (t : Table ι α) (k : ι) :
    (t.delete p).lookup k = (t.lookup k).filter (fun a => !p k a) := by
  ext a
  rw [← mem_entries_iff, Option.filter_eq_some_iff, ← mem_entries_iff]
  exact List.mem_filter

theorem lookup_erase_ite (k k' : ι) (t : Table ι α) :
    (t.erase k).lookup k' = if k' = k then none else t.lookup k' := by
  by_cases h : k' = k
  · rw [h, AList.lookup_erase, if_pos rfl]
  · rw [AList.lookup_erase_ne h, if_neg h]

/-- The rows that a DELETE leaves. -/
theorem lookup_delete_eq_some {p : ι → α → Bool} {t : Table ι α} {k : ι} {a : α} :
    (t.delete p).lookup k = some a ↔ t.lookup k = some a ∧ p k a = false := by
  rw [lookup_delete, Option.filter_eq_some_iff, Bool.not_eq_true']

/-- The rows that an INSERT leaves. -/
theorem lookup_insert_eq_some {t : Table ι α} {k k' : ι} {a b : α} :
    (t.insert k a).lookup k' = some b ↔ k' = k ∧ b = a ∨ k' ≠ k ∧ t.lookup k' = some b := by
  rw [lookup_insert_ite]
  by_cases h : k' = k
  · simp [h, eq_comm]
  · simp [h]

theorem lookup_erase_eq_some {t : Table ι α} {k k' : ι} {a : α} :
    (t.erase k).lookup k' = some a ↔ k' ≠ k ∧ t.lookup k' = some a := by
  rw [lookup_erase_ite]
  split <;> simp [*]

/-- A SELECT gives the rows of its WHERE clause. -/
theorem mem_select_iff (p : ι → α → Bool) (t : Table ι α) (k : ι) (a : α) :
    (k, a) ∈ t.select p ↔ t.lookup k = some a ∧ p k a = true := by
  rw [← mem_entries_iff]
  simp only [select, List.mem_map, List.mem_filter]
  constructor
  · rintro ⟨⟨k', a'⟩, ⟨hm, hp⟩, he⟩
    obtain ⟨rfl, rfl⟩ := Prod.mk.injEq .. ▸ he
    exact ⟨hm, hp⟩
  · rintro ⟨hm, hp⟩
    exact ⟨⟨k, a⟩, ⟨hm, hp⟩, rfl⟩

omit [DecidableEq ι] in
/-- A SELECT returns every key once. -/
theorem nodup_select (p : ι → α → Bool) (t : Table ι α) : ((t.select p).map Prod.fst).Nodup := by
  have hkeys : (t.entries.filter (fun e => p e.1 e.2)).NodupKeys :=
    t.nodupKeys.sublist List.filter_sublist
  simpa [select, Function.comp_def, List.NodupKeys, List.keys] using hkeys

theorem all_iff (p : ι → α → Bool) (t : Table ι α) :
    t.all p = true ↔ ∀ k a, t.lookup k = some a → p k a = true := by
  simp only [all, List.all_eq_true]
  constructor
  · intro h k a hk
    exact h ⟨k, a⟩ ((mem_entries_iff t k a).mpr hk)
  · rintro h ⟨k, a⟩ hm
    exact h k a ((mem_entries_iff t k a).mp hm)

/-! ## §3. Counting. -/

theorem mem_keysWhere (p : ι → α → Bool) (t : Table ι α) (k : ι) :
    k ∈ keysWhere p t ↔ ∃ a, t.lookup k = some a ∧ p k a = true := by
  simp only [keysWhere, Finset.mem_filter, List.mem_toFinset, Option.any_eq_true]
  constructor
  · rintro ⟨_, h⟩
    exact h
  · rintro ⟨a, ha, hp⟩
    exact ⟨AList.mem_keys.mp (AList.lookup_isSome.mp (by simp [ha])), a, ha, hp⟩

/-- A COUNT is not zero when there is a row to count. -/
theorem count_ne_zero (p : ι → α → Bool) (t : Table ι α) :
    count p t ≠ 0 ↔ ∃ k a, t.lookup k = some a ∧ p k a = true := by
  rw [count, Finset.card_ne_zero]
  exact exists_congr (mem_keysWhere p t)

/-- COUNT does not grow when no key starts to satisfy the clause. -/
theorem count_le_count {p q : ι → α → Bool} {t u : Table ι α}
    (h : ∀ k, k ∈ keysWhere p t → k ∈ keysWhere q u) : count p t ≤ count q u :=
  Finset.card_le_card h

/-- COUNT is unchanged when the same keys satisfy the clause. -/
theorem count_congr {p q : ι → α → Bool} {t u : Table ι α}
    (h : ∀ k, k ∈ keysWhere p t ↔ k ∈ keysWhere q u) : count p t = count q u :=
  congrArg Finset.card (Finset.ext h)

/-- COUNT is at most that of a table into which the keys go one to one. -/
theorem count_le_of_injOn {κ β : Type} [DecidableEq κ] {p : ι → α → Bool} {t : Table ι α}
    {q : κ → β → Bool} {u : Table κ β} (f : ι → κ)
    (hmaps : ∀ k ∈ keysWhere p t, f k ∈ keysWhere q u)
    (hinj : ∀ k ∈ keysWhere p t, ∀ l ∈ keysWhere p t, f k = f l → k = l) :
    count p t ≤ count q u :=
  Finset.card_le_card_of_injOn f hmaps (fun k hk l hl heq => hinj k hk l hl heq)

/-- COUNT grows by at most one when only the key `k₀` may start to satisfy the
clause. -/
theorem count_le_succ {p q : ι → α → Bool} {t u : Table ι α} (k₀ : ι)
    (h : ∀ k, k ≠ k₀ → k ∈ keysWhere p t → k ∈ keysWhere q u) :
    count p t ≤ count q u + 1 := by
  have hsub : keysWhere p t ⊆ insert k₀ (keysWhere q u) := by
    intro k hk
    by_cases hk₀ : k = k₀
    · rw [hk₀]; exact Finset.mem_insert_self _ _
    · exact Finset.mem_insert_of_mem (h k hk₀ hk)
  exact (Finset.card_le_card hsub).trans (Finset.card_insert_le k₀ _)

/-- COUNT after an INSERT or an overwritten row. -/
theorem count_insert (p : ι → α → Bool) (t : Table ι α) (k : ι) (a : α) :
    count p (t.insert k a) + (if (t.lookup k).any (p k) then 1 else 0)
      = count p t + (if p k a then 1 else 0) := by
  have hrest : ∀ i, i ≠ k → (i ∈ keysWhere p (t.insert k a) ↔ i ∈ keysWhere p t) := by
    intro i hi
    rw [mem_keysWhere, mem_keysWhere, AList.lookup_insert_ne hi]
  have hold : (t.lookup k).any (p k) = true ↔ k ∈ keysWhere p t := by
    rw [mem_keysWhere, Option.any_eq_true]
  have hnew : p k a = true ↔ k ∈ keysWhere p (t.insert k a) := by
    simp [mem_keysWhere]
  have herase : (keysWhere p (t.insert k a)).erase k = (keysWhere p t).erase k := by
    ext i
    by_cases hi : i = k
    · simp [hi]
    · simp [hi, hrest i hi]
  have hcard := congrArg Finset.card herase
  rw [Finset.card_erase_eq_ite, Finset.card_erase_eq_ite] at hcard
  have hpos : ∀ {u : Table ι α}, k ∈ keysWhere p u → 0 < (keysWhere p u).card :=
    fun hk => Finset.card_pos.mpr ⟨k, hk⟩
  simp only [count, hold, hnew]
  split_ifs at hcard ⊢ with hin hwas hwas
  · have h₁ := hpos hin
    have h₂ := hpos hwas
    omega
  · have h₁ := hpos hin
    omega
  · have h₂ := hpos hwas
    omega
  · omega

/-- COUNT after the DELETE of one key. -/
theorem count_erase (p : ι → α → Bool) (t : Table ι α) (k : ι) :
    count p (t.erase k) + (if (t.lookup k).any (p k) then 1 else 0) = count p t := by
  cases hk : t.lookup k with
  | none =>
      refine count_congr (fun i => ?_)
      rw [mem_keysWhere, mem_keysWhere, lookup_erase_ite]
      split
      · rename_i hi
        rw [hi, hk]
      · rfl
  | some a =>
      -- inserting the row again restores the table
      have hback : count p ((t.erase k).insert k a) = count p t := by
        refine count_congr (fun i => ?_)
        rw [mem_keysWhere, mem_keysWhere, lookup_insert_ite, lookup_erase_ite]
        split
        · rename_i hi
          rw [hi, hk]
        · rfl
      have hins := count_insert p (t.erase k) k a
      rw [AList.lookup_erase, hback] at hins
      simpa using hins.symm

/-- COUNT grows by exactly one when exactly the key `k₀` starts to satisfy the
clause. -/
theorem count_eq_succ {p q : ι → α → Bool} {t u : Table ι α} (k₀ : ι)
    (hnew : k₀ ∈ keysWhere p t) (hold : k₀ ∉ keysWhere q u)
    (h : ∀ k, k ≠ k₀ → (k ∈ keysWhere p t ↔ k ∈ keysWhere q u)) :
    count p t = count q u + 1 := by
  have heq : keysWhere p t = insert k₀ (keysWhere q u) := by
    ext k
    by_cases hk₀ : k = k₀
    · subst hk₀; simp [hnew]
    · simp [h k hk₀, hk₀]
  unfold count
  rw [heq, Finset.card_insert_of_notMem hold]

/-- COUNT is smaller when one key that satisfies the weaker clause is left out. -/
theorem count_lt_count {p q : ι → α → Bool} {t u : Table ι α} (k₀ : ι)
    (hnot : k₀ ∉ keysWhere p t) (hin : k₀ ∈ keysWhere q u)
    (h : ∀ k, k ∈ keysWhere p t → k ∈ keysWhere q u) : count p t < count q u :=
  Finset.card_lt_card ⟨h, fun hsub => hnot (hsub hin)⟩

/-- The counts of two clauses that no key satisfies together add up. -/
theorem count_add_count {p q r : ι → α → Bool} {t : Table ι α}
    (hdisj : ∀ k, k ∈ keysWhere p t → k ∉ keysWhere q t)
    (hunion : ∀ k, k ∈ keysWhere r t ↔ k ∈ keysWhere p t ∨ k ∈ keysWhere q t) :
    count p t + count q t = count r t := by
  have heq : keysWhere r t = keysWhere p t ∪ keysWhere q t := by
    ext k
    rw [Finset.mem_union]
    exact hunion k
  unfold count
  rw [heq, Finset.card_union_of_disjoint (Finset.disjoint_left.mpr hdisj)]

/-- A clause that is stronger on every key counts fewer rows, and as many only
when the two clauses agree on every key. -/
theorem keysWhere_eq_of_count_le {p q : ι → α → Bool} {t u : Table ι α}
    (hsub : ∀ k, k ∈ keysWhere p t → k ∈ keysWhere q u)
    (hle : count q u ≤ count p t) (k : ι) :
    k ∈ keysWhere p t ↔ k ∈ keysWhere q u := by
  rw [Finset.eq_of_subset_of_card_le hsub hle]

end Table

end Relational
