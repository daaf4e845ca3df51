/-
  JobScheduler.Library.Double
  ───────────────────────────
  The numbers of JavaScript as far as a program computes with integers: IEEE
  binary64 values that are integers, the infinities and NaN.  The result of an
  operation is the exact one rounded to the nearest double, ties to the even
  significand.

  A natural number is a double when its odd part has at most 53 bits
  (`representable_iff_oddPart`); below 2 ^ 53 all are.
-/
import Mathlib.Algebra.Order.Group.Int
import Mathlib.Data.Nat.Factorization.Basic
import Mathlib.Tactic.Common
import Mathlib.Tactic.NormNum
import Mathlib.Tactic.Positivity

namespace Binary64

/-! ## §1. Rounding to 53 bits. -/

/-- The number of low bits beyond the 53 of a significand. -/
def excess (n : Nat) : Nat := n.log2 - 52

/-- The unit in the last place. -/
def unit (n : Nat) : Nat := 2 ^ excess n

/-- The rest that rounding drops is below half a unit, or a tie at an even significand. -/
def RoundsDown (n : Nat) : Prop :=
  2 * (n % unit n) < unit n ∨ (2 * (n % unit n) = unit n ∧ n / unit n % 2 = 0)

instance (n : Nat) : Decidable (RoundsDown n) := inferInstanceAs (Decidable (_ ∨ _))

/-- The nearest number of 53 significant bits, ties to the even one. -/
def roundNat (n : Nat) : Nat :=
  (if RoundsDown n then n / unit n else n / unit n + 1) * unit n

/-- No bit is lost by rounding. -/
def Representable (n : Nat) : Prop := unit n ∣ n

instance (n : Nat) : Decidable (Representable n) := inferInstanceAs (Decidable (_ ∣ _))

theorem excess_eq_zero {n : Nat} (h : n < 2 ^ 53) : excess n = 0 := by
  unfold excess
  by_cases hn : n = 0
  · simp [hn]
  · have hlog : n.log2 < 53 := (Nat.log2_lt hn).mpr h
    omega

theorem unit_pos (n : Nat) : 0 < unit n := by
  unfold unit
  positivity

/-- Every number below 2⁵³ is a double. -/
theorem representable_of_lt {n : Nat} (h : n < 2 ^ 53) : Representable n := by
  unfold Representable unit
  rw [excess_eq_zero h, pow_zero]
  exact one_dvd n

/-- Rounding goes to one of the two neighbouring multiples of the unit. -/
theorem roundNat_eq (n : Nat) :
    ∃ k, roundNat n = k * unit n ∧ n / unit n ≤ k ∧ k ≤ n / unit n + 1 := by
  unfold roundNat
  split
  · exact ⟨_, rfl, le_rfl, Nat.le_succ _⟩
  · exact ⟨_, rfl, Nat.le_succ _, le_rfl⟩

theorem roundNat_of_representable {n : Nat} (h : Representable n) : roundNat n = n := by
  have hmod : n % unit n = 0 := Nat.mod_eq_zero_of_dvd h
  have hdown : RoundsDown n := Or.inl (by rw [hmod]; exact unit_pos n)
  unfold roundNat
  rw [if_pos hdown]
  exact Nat.div_mul_cancel h

theorem roundNat_of_lt {n : Nat} (h : n < 2 ^ 53) : roundNat n = n :=
  roundNat_of_representable (representable_of_lt h)

/-- The quotient by the unit has exactly 53 bits. -/
theorem quotient_bounds {n : Nat} (h : 2 ^ 53 ≤ n) :
    2 ^ 52 ≤ n / unit n ∧ n / unit n < 2 ^ 53 ∧ 1 ≤ excess n := by
  have hn : n ≠ 0 := by omega
  have hlog : 53 ≤ n.log2 := (Nat.le_log2 hn).mpr h
  have hexcess : excess n + 52 = n.log2 := by
    unfold excess
    omega
  refine ⟨?_, ?_, by omega⟩
  · rw [Nat.le_div_iff_mul_le (unit_pos n), unit, ← pow_add, Nat.add_comm, hexcess]
    exact Nat.log2_self_le hn
  · rw [Nat.div_lt_iff_lt_mul (unit_pos n), unit, ← pow_add]
    have hlt : n < 2 ^ (n.log2 + 1) := Nat.lt_log2_self
    rwa [show 53 + excess n = n.log2 + 1 by omega]

theorem representable_mul_pow {k e : Nat} (hk : k ≤ 2 ^ 53) : Representable (k * 2 ^ e) := by
  unfold Representable unit
  by_cases hzero : k = 0
  · simp [hzero]
  by_cases htop : k = 2 ^ 53
  · rw [htop, ← pow_add]
    exact pow_dvd_pow 2 (by unfold excess; rw [Nat.log2_two_pow]; omega)
  · have hlog : (k * 2 ^ e).log2 < 53 + e := by
      rw [Nat.log2_lt (by positivity), pow_add]
      exact (Nat.mul_lt_mul_right (by positivity)).mpr (by omega)
    exact (pow_dvd_pow 2 (by unfold excess; omega)).trans (Dvd.intro_left k rfl)

theorem representable_roundNat (n : Nat) : Representable (roundNat n) := by
  by_cases h : n < 2 ^ 53
  · rw [roundNat_of_lt h]
    exact representable_of_lt h
  · obtain ⟨_, hhigh, _⟩ := quotient_bounds (by omega : 2 ^ 53 ≤ n)
    obtain ⟨k, hround, _, hk⟩ := roundNat_eq n
    rw [hround, unit]
    exact representable_mul_pow (by omega)

/-- A double is a power of two times an odd number of at most 53 bits. -/
theorem representable_iff_oddPart {n : Nat} (hn : n ≠ 0) :
    Representable n ↔ ordCompl[2] n < 2 ^ 53 := by
  have hsplit : ordProj[2] n * ordCompl[2] n = n := Nat.ordProj_mul_ordCompl_eq_self n 2
  have hodd : ordCompl[2] n ≠ 0 := (Nat.ordCompl_pos 2 hn).ne'
  constructor
  · intro h
    have hle : excess n ≤ n.factorization 2 :=
      (Nat.prime_two.pow_dvd_iff_le_factorization hn).mp h
    have hlog : n < 2 ^ (excess n + 53) := by
      have hlt : n < 2 ^ (n.log2 + 1) := Nat.lt_log2_self
      exact hlt.trans_le (Nat.pow_le_pow_right (by omega) (by unfold excess; omega))
    by_contra hge
    -- the odd part alone would carry n beyond its leading bit
    have hbig : 2 ^ (n.factorization 2) * 2 ^ 53 ≤ n := by
      calc 2 ^ (n.factorization 2) * 2 ^ 53
          ≤ ordProj[2] n * ordCompl[2] n := Nat.mul_le_mul_left _ (by omega)
        _ = n := hsplit
    have hpow : 2 ^ (excess n + 53) ≤ 2 ^ (n.factorization 2) * 2 ^ 53 := by
      rw [← pow_add]
      exact Nat.pow_le_pow_right (by omega) (by omega)
    omega
  · intro h
    rw [← hsplit, Nat.mul_comm]
    exact representable_mul_pow h.le

/-- An odd number beyond 2 ^ 53 is between two doubles, and so is a multiple of it. -/
theorem not_representable_mul {n m : Nat} (hm : m ≠ 0) (hodd : n % 2 = 1) (h : 2 ^ 53 < n) :
    ¬ Representable (n * m) := by
  have hn : n ≠ 0 := by omega
  have hself : ordCompl[2] n = n :=
    (Nat.ordCompl_eq_self_iff_zero_or_not_dvd n Nat.prime_two).mpr (Or.inr (by omega))
  rw [representable_iff_oddPart (Nat.mul_ne_zero hn hm), Nat.ordCompl_mul, hself]
  have hpos : 1 ≤ ordCompl[2] m := Nat.ordCompl_pos 2 hm
  have hle : n * 1 ≤ n * ordCompl[2] m := Nat.mul_le_mul_left n hpos
  omega

/-- Beyond 2 ^ 53 the doubles are even. -/
theorem even_of_representable {n : Nat} (h : Representable n) (hlarge : 2 ^ 53 ≤ n) : n % 2 = 0 := by
  obtain ⟨_, _, hexcess⟩ := quotient_bounds hlarge
  have hdvd : 2 ^ 1 ∣ n := (pow_dvd_pow 2 hexcess).trans h
  omega

/-! ## §2. Values. -/

/-- 2 ^ 1024, the least magnitude that is read as an infinity. -/
def bound : Nat := (2 ^ 128) ^ 8

theorem pow_lt_bound : 2 ^ 53 < bound := by
  unfold bound
  norm_num

/-- The value is one of the doubles. -/
def IsDouble (n : Int) : Prop := Representable n.natAbs ∧ n.natAbs < bound

instance (n : Int) : Decidable (IsDouble n) := inferInstanceAs (Decidable (_ ∧ _))

/-- The two zeros are one value. -/
inductive Double
  | nan
  | infinity (negative : Bool)
  | integer (n : Int) (exact : IsDouble n)
  deriving DecidableEq

/-- The integer with the sign of `n` and the given magnitude. -/
def signed (n : Int) (magnitude : Nat) : Int := if n < 0 then -magnitude else magnitude

theorem natAbs_signed (n : Int) (magnitude : Nat) : (signed n magnitude).natAbs = magnitude := by
  unfold signed
  split <;> omega

theorem signed_natAbs (n : Int) : signed n n.natAbs = n := by
  unfold signed
  split <;> omega

theorem isDouble_signed {n : Int} {m : Nat} (h : m < bound) (hm : Representable m) :
    IsDouble (signed n m) := by
  unfold IsDouble
  rw [natAbs_signed]
  exact ⟨hm, h⟩

namespace Double

/-- The double nearest to an integer. -/
def ofInt (n : Int) : Double :=
  if h : roundNat n.natAbs < bound then
    .integer (signed n (roundNat n.natAbs)) (isDouble_signed h (representable_roundNat _))
  else .infinity (decide (n < 0))

/-- The integer that the value is. -/
def value? : Double → Option Int
  | .integer n _ => some n
  | _ => none

theorem isDouble_of_value {d : Double} {n : Int} (h : d.value? = some n) : IsDouble n := by
  cases d with
  | integer m hm =>
      obtain rfl : m = n := Option.some.inj h
      exact hm
  | nan => simp [value?] at h
  | infinity => simp [value?] at h

/-- A value is one natural number. -/
theorem natCast_of_value {d : Double} {m n : Nat} (hm : d.value? = some (m : Int))
    (hn : d.value? = some (n : Int)) : m = n := by
  have hcast := Option.some.inj (hm.symm.trans hn)
  exact_mod_cast hcast

theorem ofInt_eq {n : Int} (h : IsDouble n) : ofInt n = .integer n h := by
  have hround : roundNat n.natAbs = n.natAbs := roundNat_of_representable h.1
  have hlt : roundNat n.natAbs < bound := hround.symm ▸ h.2
  unfold ofInt
  rw [dif_pos hlt]
  congr 1
  rw [hround, signed_natAbs]

/-- An integer survives its conversion when it is a double. -/
theorem value_ofInt_iff {n : Int} : (ofInt n).value? = some n ↔ IsDouble n := by
  constructor
  · exact isDouble_of_value
  · intro h
    rw [ofInt_eq h]
    rfl

theorem isDouble_of_lt {n : Int} (h : n.natAbs < 2 ^ 53) : IsDouble n :=
  ⟨representable_of_lt h, h.trans pow_lt_bound⟩

/-! ## §3. Operations. -/

/-- Negation. -/
def neg : Double → Double
  | .nan => .nan
  | .infinity s => .infinity (!s)
  | .integer n _ => ofInt (-n)

/-- Addition, rounded to the nearest double. -/
def add : Double → Double → Double
  | .nan, _ => .nan
  | _, .nan => .nan
  | .infinity s, .infinity t => if s = t then .infinity s else .nan
  | .infinity s, .integer _ _ => .infinity s
  | .integer _ _, .infinity t => .infinity t
  | .integer a _, .integer b _ => ofInt (a + b)

/-- Subtraction, rounded to the nearest double. -/
def sub (a b : Double) : Double := a.add b.neg

/-- Multiplication, rounded to the nearest double. -/
def mul : Double → Double → Double
  | .nan, _ => .nan
  | _, .nan => .nan
  | .infinity s, .infinity t => .infinity (s != t)
  | .infinity s, .integer b _ => if b = 0 then .nan else .infinity (s != decide (b < 0))
  | .integer a _, .infinity t => if a = 0 then .nan else .infinity (decide (a < 0) != t)
  | .integer a _, .integer b _ => ofInt (a * b)

/-- `a < b`. -/
def lt : Double → Double → Bool
  | .nan, _ => false
  | _, .nan => false
  | .infinity s, .infinity t => s && !t
  | .infinity s, .integer _ _ => s
  | .integer _ _, .infinity t => !t
  | .integer a _, .integer b _ => decide (a < b)

/-- `Math.max(a, b)`. -/
def max (a b : Double) : Double :=
  if a = .nan ∨ b = .nan then .nan else if a.lt b then b else a

/-- `Math.min(a, b)`. -/
def min (a b : Double) : Double :=
  if a = .nan ∨ b = .nan then .nan else if b.lt a then b else a

/-- `a || b`: NaN and the zeros are falsy. -/
def or (a b : Double) : Double :=
  match a with
  | .nan => b
  | .infinity s => .infinity s
  | .integer n h => if n = 0 then b else .integer n h

/-! ## §4. The operations on integers. -/

section
variable {a b : Double} {m n : Int}

theorem eq_integer (h : a.value? = some m) : a = .integer m (isDouble_of_value h) := by
  cases a with
  | integer k hk =>
      obtain rfl : k = m := Option.some.inj h
      rfl
  | nan => simp [value?] at h
  | infinity => simp [value?] at h

theorem value_neg (ha : a.value? = some m) : a.neg.value? = some (-m) := by
  have hm : IsDouble (-m) := by
    unfold IsDouble
    rw [Int.natAbs_neg]
    exact isDouble_of_value ha
  rw [eq_integer ha]
  exact value_ofInt_iff.mpr hm

/-- The sum of two finite doubles is the rounding of the exact sum. -/
theorem add_eq (ha : a.value? = some m) (hb : b.value? = some n) : a.add b = ofInt (m + n) := by
  rw [eq_integer ha, eq_integer hb]
  rfl

/-- The difference of two finite doubles is the rounding of the exact one. -/
theorem sub_eq (ha : a.value? = some m) (hb : b.value? = some n) : a.sub b = ofInt (m - n) := by
  unfold sub
  rw [add_eq ha (value_neg hb), sub_eq_add_neg]

/-- The product of two finite doubles is the rounding of the exact one. -/
theorem mul_eq (ha : a.value? = some m) (hb : b.value? = some n) : a.mul b = ofInt (m * n) := by
  rw [eq_integer ha, eq_integer hb]
  rfl

theorem value_max (ha : a.value? = some m) (hb : b.value? = some n) :
    (a.max b).value? = some (Max.max m n) := by
  rw [eq_integer ha, eq_integer hb]
  unfold max
  rw [if_neg (by simp)]
  by_cases h : m < n
  · simp [lt, h, value?, h.le]
  · simp [lt, h, value?, not_lt.mp h]

theorem value_min (ha : a.value? = some m) (hb : b.value? = some n) :
    (a.min b).value? = some (Min.min m n) := by
  rw [eq_integer ha, eq_integer hb]
  unfold min
  rw [if_neg (by simp)]
  by_cases h : n < m
  · simp [lt, h, value?, h.le]
  · simp [lt, h, value?, not_lt.mp h]

theorem max_infinity (ha : a.value? = some m) (s : Bool) :
    a.max (.infinity s) = if s then a else .infinity false := by
  rw [eq_integer ha]
  unfold max
  rw [if_neg (by simp)]
  cases s <;> simp [lt]

theorem min_infinity (ha : a.value? = some m) (s : Bool) :
    a.min (.infinity s) = if s then .infinity true else a := by
  rw [eq_integer ha]
  unfold min
  rw [if_neg (by simp)]
  cases s <;> simp [lt]

/-- `a || b` of a number that is not an infinity. -/
theorem value_or (ha : ∀ s, a ≠ .infinity s) (hb : b.value? = some n) :
    (a.or b).value? = some (if a.value?.getD 0 = 0 then n else a.value?.getD 0) := by
  cases a with
  | nan => simpa [or, value?] using hb
  | infinity s => exact absurd rfl (ha s)
  | integer m hm =>
      by_cases hzero : m = 0
      · simpa [or, value?, hzero] using hb
      · simp [or, value?, hzero]

end

end Double

end Binary64
