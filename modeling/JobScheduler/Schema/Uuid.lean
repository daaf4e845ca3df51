/-
  JobScheduler.Schema.Uuid
  ────────────────────────
  UUIDs as a request spells them.  PostgreSQL compares the VALUES while the
  code compares the strings, so the spelling matters: a string that
  `z.string().uuid()` accepts is its value and the case of its 32 hex digits.
-/
import Mathlib.Data.Nat.Digits.Lemmas
import JobScheduler.Schema.Types

namespace JobScheduler

/-- A string that `z.string().uuid()` accepts. -/
structure UuidText where
  value : UUID
  /-- Which of the digits are capital letters; `[]` is lower case. -/
  capitals : List Bool := []
  deriving DecidableEq, Repr

namespace UuidText

/-! ## §1. Reading a string. -/

/-- The value of a hex digit, and whether it is a capital letter. -/
def hexDigit (c : Char) : Option (Nat × Bool) :=
  if 48 ≤ c.toNat ∧ c.toNat ≤ 57 then some (c.toNat - 48, false)
  else if 97 ≤ c.toNat ∧ c.toNat ≤ 102 then some (c.toNat - 87, false)
  else if 65 ≤ c.toNat ∧ c.toNat ≤ 70 then some (c.toNat - 55, true)
  else none

/-- The text of 32 digits. -/
def ofDigits (digits : List (Nat × Bool)) : UuidText where
  value := Nat.ofDigits 16 (digits.map Prod.fst).reverse
  capitals := digits.map Prod.snd

/-- `/^[0-9a-f]{8}-[0-9a-f]{4}-[0-9a-f]{4}-[0-9a-f]{4}-[0-9a-f]{12}$/i`. -/
def read (text : String) : Option UuidText :=
  let groups := text.toList.splitOn '-'
  if groups.map List.length = [8, 4, 4, 4, 12] then (groups.flatten.mapM hexDigit).map ofDigits
  else none

/-! ## §2. Value and case determine the string. -/

/-- The inverse of `hexDigit`. -/
def hexChar (digit : Nat × Bool) : Char :=
  Char.ofNat (if digit.1 < 10 then digit.1 + 48 else if digit.2 then digit.1 + 55 else digit.1 + 87)

theorem hexChar_hexDigit {c : Char} {digit : Nat × Bool} (h : hexDigit c = some digit) :
    hexChar digit = c ∧ digit.1 < 16 := by
  unfold hexDigit at h
  have key : ∀ n, n = c.toNat → Char.ofNat n = c := fun n hn => hn ▸ Char.ofNat_toNat c
  split at h
  · cases h
    exact ⟨key _ (by simp only; split <;> omega), by simp only; omega⟩
  · split at h
    · cases h
      refine ⟨key _ ?_, by simp only; omega⟩
      rw [if_neg (by simp only; omega), if_neg (by simp)]
      simp only
      omega
    · split at h
      · cases h
        refine ⟨key _ ?_, by simp only; omega⟩
        rw [if_neg (by simp only; omega), if_pos rfl]
        simp only
        omega
      · cases h

theorem hexChar_mapM {cs : List Char} {digits : List (Nat × Bool)}
    (h : cs.mapM hexDigit = some digits) :
    digits.map hexChar = cs ∧ ∀ d ∈ digits, d.1 < 16 := by
  induction cs generalizing digits with
  | nil =>
      obtain rfl : digits = [] := by simpa [eq_comm] using h
      simp
  | cons c cs ih =>
      rw [List.mapM_cons] at h
      obtain ⟨d, hd, h⟩ := Option.bind_eq_some_iff.mp h
      obtain ⟨ds, hds, h⟩ := Option.bind_eq_some_iff.mp h
      obtain rfl : d :: ds = digits := Option.some.inj h
      obtain ⟨hc, hlt⟩ := hexChar_hexDigit hd
      obtain ⟨hcs, hlts⟩ := ih hds
      refine ⟨by rw [List.map_cons, hc, hcs], ?_⟩
      rintro x (_ | ⟨_, hx⟩)
      · exact hlt
      · exact hlts x hx

/-- Two texts of one length stand for one value only if they agree but for case. -/
theorem ofDigits_injective {xs ys : List (Nat × Bool)} (hlen : xs.length = ys.length)
    (hxs : ∀ d ∈ xs, d.1 < 16) (hys : ∀ d ∈ ys, d.1 < 16) (h : ofDigits xs = ofDigits ys) : xs = ys := by
  obtain ⟨hvalue, hcapitals⟩ := UuidText.mk.inj h
  have hlt : ∀ {l : List (Nat × Bool)}, (∀ d ∈ l, d.1 < 16) →
      ∀ n ∈ (l.map Prod.fst).reverse, n < 16 := by
    intro l hl n hn
    obtain ⟨d, hd, rfl⟩ := List.mem_map.mp (List.mem_reverse.mp hn)
    exact hl d hd
  have hdigits : (xs.map Prod.fst).reverse = (ys.map Prod.fst).reverse :=
    Nat.ofDigits_inj_of_len_eq (by norm_num) (by simp [hlen]) (hlt hxs) (hlt hys) hvalue
  rw [List.zip_of_prod (List.reverse_injective hdigits) hcapitals]
  exact (List.zip_of_prod rfl rfl).symm

/-- What the shape of a UUID is. -/
theorem read_eq_some {s : String} {x : UuidText} (h : read s = some x) :
    (s.toList.splitOn '-').map List.length = [8, 4, 4, 4, 12] ∧
      ∃ digits, (s.toList.splitOn '-').flatten = digits.map hexChar ∧ (∀ d ∈ digits, d.1 < 16) ∧
        ofDigits digits = x := by
  unfold read at h
  dsimp only at h
  split at h
  · rename_i hlen
    obtain ⟨digits, hdigits, hx⟩ := Option.map_eq_some_iff.mp h
    obtain ⟨hchars, hlt⟩ := hexChar_mapM hdigits
    exact ⟨hlen, digits, hchars.symm, hlt, hx⟩
  · cases h

/-- **Two strings of one reading are one string.** -/
theorem read_injective {s t : String} {x : UuidText} (hs : read s = some x) (ht : read t = some x) :
    s = t := by
  obtain ⟨hlens, xs, hxs, hxs16, rfl⟩ := read_eq_some hs
  obtain ⟨hlent, ys, hys, hys16, hxy⟩ := read_eq_some ht
  have hcount : ∀ {u : String} {ds : List (Nat × Bool)},
      (u.toList.splitOn '-').map List.length = [8, 4, 4, 4, 12] →
      (u.toList.splitOn '-').flatten = ds.map hexChar → ds.length = 32 := by
    intro u ds hlen hds
    rw [← List.length_map (f := hexChar), ← hds, List.length_flatten, hlen]
    rfl
  obtain rfl := ofDigits_injective ((hcount hlent hys).trans (hcount hlens hxs).symm) hys16 hxs16 hxy
  have hgroups : s.toList.splitOn '-' = t.toList.splitOn '-' :=
    List.eq_iff_flatten_eq.mpr ⟨hxs.trans hys.symm, hlens.trans hlent.symm⟩
  have hchars : s.toList = t.toList := by
    rw [← @List.intercalate_splitOn _ s.toList _ _ '-', hgroups, List.intercalate_splitOn]
  exact String.toList_injective hchars

end UuidText

end JobScheduler
