/-
  JobScheduler.Library.Query
  ──────────────────────────
  Answers of a SELECT with ORDER BY.  A query selects rows in no particular
  order; its answer is any list of them in the order of the clause, so rows of
  equal rank may come in any order, and another one the next time.

  Two tables answer a query alike when the rows that it selects are the same,
  whatever else they hold.

  LIMIT and OFFSET cut a slice out of an ordered answer; consecutive slices of
  one length put the answer together again.
-/
import JobScheduler.Library.Table

namespace Relational

variable {ι α β : Type}

/-! ## §1. Ordered answers. -/

/-- `l` lists the rows in the order of `le`. -/
structure OrderedBy (le : α → α → Bool) (rows l : List α) : Prop where
  perm : l.Perm rows
  sorted : l.Pairwise (fun a b => le a b = true)

/-- An answer in order depends on its rows only, not on how they were listed. -/
theorem OrderedBy.congr {le : α → α → Bool} {rows rows' l : List α} (h : rows.Perm rows') :
    OrderedBy le rows l ↔ OrderedBy le rows' l :=
  ⟨fun ho => ⟨ho.perm.trans h, ho.sorted⟩, fun ho => ⟨ho.perm.trans h.symm, ho.sorted⟩⟩

/-- There is an answer. -/
theorem orderedBy_mergeSort {le : α → α → Bool} (rows : List α)
    (htrans : ∀ a b c, le a b = true → le b c = true → le a c = true)
    (htotal : ∀ a b, (le a b || le b a) = true) : OrderedBy le rows (rows.mergeSort le) where
  perm := List.mergeSort_perm rows le
  sorted := List.pairwise_mergeSort htrans htotal rows

/-! ## §2. Selections with the same rows. -/

section
variable [DecidableEq ι] {t u : Table ι α} {p q : ι → α → Bool}

/-- Every row that the first query selects, the second one does. -/
def Selects (t : Table ι α) (p : ι → α → Bool) (u : Table ι α) (q : ι → α → Bool) : Prop :=
  ∀ k a, t.lookup k = some a → p k a = true → u.lookup k = some a ∧ q k a = true

omit [DecidableEq ι] in
/-- No row is selected twice. -/
theorem Table.nodup_rows (t : Table ι α) (p : ι → α → Bool) : (t.select p).Nodup :=
  List.Nodup.of_map _ (t.nodup_select p)

/-- Two tables that select from each other have the same rows. -/
theorem select_perm (h : Selects t p u q) (h' : Selects u q t p) :
    (t.select p).Perm (u.select q) := by
  rw [List.perm_ext_iff_of_nodup (t.nodup_rows p) (u.nodup_rows q)]
  rintro ⟨k, a⟩
  rw [Table.mem_select_iff, Table.mem_select_iff]
  exact ⟨fun ⟨hk, hp⟩ => h k a hk hp, fun ⟨hk, hq⟩ => h' k a hk hq⟩

/-- The columns of the answer agree on the selected rows. -/
theorem select_map_perm {f g : ι × α → β} (h : Selects t p u q) (h' : Selects u q t p)
    (hfg : ∀ k a, t.lookup k = some a → p k a = true → f (k, a) = g (k, a)) :
    ((t.select p).map f).Perm ((u.select q).map g) := by
  have hmap : (t.select p).map f = (t.select p).map g := by
    refine List.map_congr_left ?_
    rintro ⟨k, a⟩ hmem
    obtain ⟨hk, hp⟩ := (t.mem_select_iff p k a).mp hmem
    exact hfg k a hk hp
  rw [hmap]
  exact (select_perm h h').map g

theorem select_count (h : Selects t p u q) (h' : Selects u q t p) : t.count p = u.count q := by
  refine Table.count_congr (fun k => ?_)
  rw [Table.mem_keysWhere, Table.mem_keysWhere]
  exact ⟨fun ⟨a, hk, hp⟩ => ⟨a, h k a hk hp⟩, fun ⟨a, hk, hq⟩ => ⟨a, h' k a hk hq⟩⟩

end

/-! ## §3. LIMIT and OFFSET. -/

/-- `LIMIT limit OFFSET offset`. -/
def slice (l : List α) (limit offset : Nat) : List α := (l.drop offset).take limit

end Relational
