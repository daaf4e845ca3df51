/-
  JobScheduler.Library.Backoff
  ────────────────────────────
  Delays that grow with the attempt, are capped, multiplied by a random factor
  and rounded to an integer.  Capping keeps the growth monotone and absorbs it;
  the factor and the rounding come after the cap, so they are bounded relative
  to the delay and not to the cap.
-/
import Mathlib.Algebra.Order.Floor.Ring
import Mathlib.Tactic.Linarith
import Mathlib.Tactic.Ring

namespace Backoff

variable {K : Type} [LinearOrder K]

/-! ## §1. Capped growth. -/

/-- The delay of attempt `n`. -/
def capped (growth : Nat → K) (cap : K) (n : Nat) : K := min (growth n) cap

section
variable {growth : Nat → K} {cap : K} {m n : Nat}

theorem capped_le (growth : Nat → K) (cap : K) (n : Nat) : capped growth cap n ≤ cap :=
  min_le_right _ _

theorem capped_nonneg [Zero K] (hg : 0 ≤ growth n) (hcap : 0 ≤ cap) : 0 ≤ capped growth cap n :=
  le_min hg hcap

/-- The cap keeps the order of the delays. -/
theorem capped_mono (h : growth m ≤ growth n) : capped growth cap m ≤ capped growth cap n :=
  min_le_min_right cap h

/-- A delay at the cap stays there. -/
theorem capped_saturated (h : growth m ≤ growth n) (hm : capped growth cap m = cap) :
    capped growth cap n = cap := by
  apply le_antisymm (capped_le growth cap n)
  calc cap = capped growth cap m := hm.symm
    _ ≤ capped growth cap n := capped_mono h

end

variable [Field K] [IsStrictOrderedRing K]

/-! ## §2. Rounding half up. -/

section
variable [FloorRing K]

/-- The nearest integer, halves up. -/
def roundHalfUp (x : K) : Int := ⌊x + 1 / 2⌋

/-- Rounding moves a number by at most one half. -/
theorem abs_roundHalfUp_sub_le (x : K) : |(roundHalfUp x : K) - x| ≤ 1 / 2 := by
  have hle : (roundHalfUp x : K) ≤ x + 1 / 2 := Int.floor_le _
  have hlt : x + 1 / 2 < (roundHalfUp x : K) + 1 := Int.lt_floor_add_one _
  rw [abs_le]
  constructor <;> linarith

theorem roundHalfUp_nonneg {x : K} (h : 0 ≤ x) : 0 ≤ roundHalfUp x := by
  apply Int.floor_nonneg.mpr
  linarith

/-- An integer is below a bound when it is below the bound's floor. -/
theorem roundHalfUp_le_iff (x b : K) : (roundHalfUp x : K) ≤ b ↔ x < ⌊b⌋ + 1 / 2 := by
  unfold roundHalfUp
  rw [← Int.le_floor, ← Int.lt_add_one_iff, Int.floor_lt]
  push_cast
  constructor <;> intro h <;> linarith

end

/-! ## §3. A random factor. -/

section
variable {a b c d f s : K}

/-- The smaller of two numbers stays below `c` when one of them does. -/
theorem min_mul_lt_iff (hf : 0 ≤ f) : min a b * f < c ↔ a * f < c ∨ b * f < c := by
  rw [min_mul_of_nonneg a b hf, min_lt_iff]

/-- A factor within `s` of one changes a number by the part `s` of it. -/
theorem abs_mul_sub_le (hd : 0 ≤ d) (hf : |f - 1| ≤ s) : |d * f - d| ≤ s * d := by
  have hfactor : d * f - d = d * (f - 1) := by ring
  calc |d * f - d| = d * |f - 1| := by rw [hfactor, abs_mul, abs_of_nonneg hd]
    _ ≤ d * s := mul_le_mul_of_nonneg_left hf hd
    _ = s * d := mul_comm d s

/-- A factor near 1 and the rounding move a delay by a bounded amount. -/
theorem abs_roundHalfUp_mul_sub_le [FloorRing K] (hd : 0 ≤ d) (hf : |f - 1| ≤ s) :
    |(roundHalfUp (d * f) : K) - d| ≤ s * d + 1 / 2 := by
  calc |(roundHalfUp (d * f) : K) - d|
      = |((roundHalfUp (d * f) : K) - d * f) + (d * f - d)| := by rw [sub_add_sub_cancel]
    _ ≤ |(roundHalfUp (d * f) : K) - d * f| + |d * f - d| := abs_add_le _ _
    _ ≤ 1 / 2 + s * d := add_le_add (abs_roundHalfUp_sub_le _) (abs_mul_sub_le hd hf)
    _ = s * d + 1 / 2 := add_comm _ _

end

end Backoff
