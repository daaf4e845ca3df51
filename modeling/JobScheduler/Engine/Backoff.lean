/-
  JobScheduler.Engine.Backoff
  ───────────────────────────
  `computeRetryDelayMs` over the rationals: the base and the cap are any
  non-negative numbers, as the function itself allows, and not only the integers
  that a stored policy has (`computeRetryDelayMs_backoff`).

  The cap is applied before the jitter, so a jittered delay near the cap can
  exceed it.
-/
import JobScheduler.Engine.RetryPolicy
import JobScheduler.Library.Backoff

namespace JobScheduler

open Backoff

/-! ## §1. `computeRetryDelayMs`. -/

/-- The fields of a policy that the delay depends on. -/
structure BackoffPolicy where
  strategy : RetryStrategy
  baseDelayMs : ℚ
  maxDelayMs : ℚ
  jitter : Bool

/-- How the base grows with the attempt. -/
def RetryStrategy.growth (strategy : RetryStrategy) (attempt : Nat) : ℚ :=
  match strategy with
  | .fixed => 1
  | .linear => attempt
  | .exponential => 2 ^ (attempt - 1)

/-- `0.85 + Math.random() * 0.3`. -/
def jitterFactor (draw : ℚ) : ℚ := 85 / 100 + draw * (30 / 100)

namespace BackoffPolicy

/-- The delay before the cap. -/
def rawDelay (policy : BackoffPolicy) (attempt : Nat) : ℚ :=
  match policy.strategy with
  | .fixed => policy.baseDelayMs
  | .linear => policy.baseDelayMs * attempt
  | .exponential => policy.baseDelayMs * 2 ^ (attempt - 1)

/-- `draw` is the value of `Math.random()`. -/
def computeRetryDelayMs (policy : BackoffPolicy) (attempt : Nat) (draw : ℚ) : ℚ :=
  let delay := min (policy.rawDelay attempt) policy.maxDelayMs
  if policy.jitter then (mathRound (delay * jitterFactor draw) : ℚ) else delay

/-- The delay without jitter. -/
def plainDelayMs (policy : BackoffPolicy) (attempt : Nat) : ℚ :=
  { policy with jitter := false }.computeRetryDelayMs attempt 0

end BackoffPolicy

/-- A stored policy. -/
def RetryPolicy.backoff (policy : RetryPolicy) : BackoffPolicy where
  strategy := policy.strategy
  baseDelayMs := policy.baseDelayMs
  maxDelayMs := policy.maxDelayMs
  jitter := policy.jitter

/-- The delays of the stored policies are those of the engine. -/
theorem computeRetryDelayMs_backoff (policy : RetryPolicy) (attempt : Nat) (draw : ℚ) :
    policy.backoff.computeRetryDelayMs attempt draw
      = (computeRetryDelayMs policy attempt draw : Int) := by
  have hraw : policy.backoff.rawDelay attempt = (policy.rawDelay attempt : Int) := by
    unfold BackoffPolicy.rawDelay RetryPolicy.rawDelay RetryPolicy.backoff
    cases policy.strategy <;> push_cast <;> rfl
  have hmin : min (policy.backoff.rawDelay attempt) policy.backoff.maxDelayMs
      = (min (policy.rawDelay attempt) policy.maxDelayMs : Int) := by
    rw [hraw, Int.cast_min]
    rfl
  unfold BackoffPolicy.computeRetryDelayMs computeRetryDelayMs
  simp only [hmin]
  show (if policy.jitter then _ else _) = _
  cases policy.jitter
  · rfl
  · rfl

/-! ## §2. The delay in terms of the library. -/

namespace BackoffPolicy

variable {policy : BackoffPolicy}

/-- The three strategies differ in their growth alone. -/
theorem rawDelay_eq (policy : BackoffPolicy) (attempt : Nat) :
    policy.rawDelay attempt = policy.baseDelayMs * policy.strategy.growth attempt := by
  unfold rawDelay RetryStrategy.growth
  cases policy.strategy
  · exact (mul_one _).symm
  · rfl
  · rfl

theorem plainDelayMs_eq (policy : BackoffPolicy) (attempt : Nat) :
    policy.plainDelayMs attempt = capped policy.rawDelay policy.maxDelayMs attempt := rfl

/-- The jitter is applied to the capped delay, and rounded. -/
theorem computeRetryDelayMs_eq (policy : BackoffPolicy) (attempt : Nat) (draw : ℚ) :
    policy.computeRetryDelayMs attempt draw
      = if policy.jitter then (roundHalfUp (policy.plainDelayMs attempt * jitterFactor draw) : ℚ)
        else policy.plainDelayMs attempt := rfl

end BackoffPolicy

theorem RetryStrategy.growth_nonneg (strategy : RetryStrategy) (attempt : Nat) :
    0 ≤ strategy.growth attempt := by
  unfold RetryStrategy.growth
  cases strategy <;> positivity

/-- No strategy shortens the delay of a later attempt. -/
theorem RetryStrategy.growth_mono (strategy : RetryStrategy) {m n : Nat} (h : m ≤ n) :
    strategy.growth m ≤ strategy.growth n := by
  unfold RetryStrategy.growth
  cases strategy with
  | fixed => exact le_rfl
  | linear =>
      have hcast : (m : ℚ) ≤ n := Nat.cast_le.mpr h
      exact hcast
  | exponential => exact pow_le_pow_right₀ (by norm_num) (by omega)

/-- The factor is within 15 percent of one. -/
theorem abs_jitterFactor_sub_le {draw : ℚ} (h₀ : 0 ≤ draw) (h₁ : draw < 1) :
    |jitterFactor draw - 1| ≤ 15 / 100 := by
  unfold jitterFactor
  rw [abs_le]
  constructor <;> linarith

theorem jitterFactor_nonneg {draw : ℚ} (h₀ : 0 ≤ draw) : 0 ≤ jitterFactor draw := by
  unfold jitterFactor
  positivity

namespace BackoffPolicy

variable {policy : BackoffPolicy}

theorem rawDelay_nonneg (hbase : 0 ≤ policy.baseDelayMs) (attempt : Nat) :
    0 ≤ policy.rawDelay attempt := by
  rw [rawDelay_eq]
  exact mul_nonneg hbase (policy.strategy.growth_nonneg attempt)

/-- The delay before the cap grows with the attempts. -/
theorem rawDelay_mono (hbase : 0 ≤ policy.baseDelayMs) {m n : Nat} (h : m ≤ n) :
    policy.rawDelay m ≤ policy.rawDelay n := by
  rw [rawDelay_eq, rawDelay_eq]
  exact mul_le_mul_of_nonneg_left (policy.strategy.growth_mono h) hbase

/-- The capped delay is no negative time. -/
theorem plainDelayMs_nonneg (hbase : 0 ≤ policy.baseDelayMs) (hmax : 0 ≤ policy.maxDelayMs)
    (attempt : Nat) : 0 ≤ policy.plainDelayMs attempt :=
  capped_nonneg (rawDelay_nonneg hbase attempt) hmax

/-! ## §3. The cap. -/

/-- Jitter makes no delay negative. -/
theorem computeRetryDelayMs_nonneg (hbase : 0 ≤ policy.baseDelayMs) (hmax : 0 ≤ policy.maxDelayMs)
    (attempt : Nat) {draw : ℚ} (h₀ : 0 ≤ draw) : 0 ≤ policy.computeRetryDelayMs attempt draw := by
  have hplain := plainDelayMs_nonneg hbase hmax attempt
  rw [computeRetryDelayMs_eq]
  split
  · exact_mod_cast roundHalfUp_nonneg (mul_nonneg hplain (jitterFactor_nonneg h₀))
  · exact hplain

/-- **The cap.**  A delay is within the cap when there is no jitter, or when the factor
leaves the base or the cap below the cap's integer part and one half. -/
theorem delay_within_cap_iff (hbase : 0 ≤ policy.baseDelayMs) (hmax : 0 ≤ policy.maxDelayMs)
    {attempt : Nat} (_ : 1 ≤ attempt) {draw : ℚ} (h₀ : 0 ≤ draw) (_ : draw < 1) :
    (0 ≤ policy.computeRetryDelayMs attempt draw
        ∧ policy.computeRetryDelayMs attempt draw ≤ policy.maxDelayMs)
      ↔ policy.jitter = false
        ∨ policy.baseDelayMs * policy.strategy.growth attempt * jitterFactor draw
            < ⌊policy.maxDelayMs⌋ + 1 / 2
        ∨ policy.maxDelayMs * jitterFactor draw < ⌊policy.maxDelayMs⌋ + 1 / 2 := by
  have hnonneg := computeRetryDelayMs_nonneg hbase hmax attempt h₀
  rw [and_iff_right hnonneg, computeRetryDelayMs_eq]
  cases hjitter : policy.jitter with
  | false =>
      simp only [Bool.false_eq_true, if_false, true_or, iff_true]
      exact capped_le policy.rawDelay policy.maxDelayMs attempt
  | true =>
      simp only [if_true, Bool.true_eq_false, false_or]
      rw [roundHalfUp_le_iff, plainDelayMs_eq, capped, min_mul_lt_iff (jitterFactor_nonneg h₀),
        rawDelay_eq]

/-- A second of fixed delay, capped at a minute. -/
theorem delay_within_cap_second :
    0 ≤ BackoffPolicy.computeRetryDelayMs ⟨.fixed, 1000, 60000, true⟩ 1 (9 / 10)
      ∧ BackoffPolicy.computeRetryDelayMs ⟨.fixed, 1000, 60000, true⟩ 1 (9 / 10) ≤ 60000 := by
  have hbase : 0 ≤ BackoffPolicy.baseDelayMs ⟨.fixed, 1000, 60000, true⟩ := by norm_num
  have hmax : 0 ≤ BackoffPolicy.maxDelayMs ⟨.fixed, 1000, 60000, true⟩ := by norm_num
  apply (delay_within_cap_iff hbase hmax le_rfl (by norm_num) (by norm_num)).mpr
  exact Or.inr (Or.inl (by norm_num [RetryStrategy.growth, jitterFactor]))

/-- A fixed delay at its cap of one second: the draw of nine tenths makes it 1120. -/
theorem delay_beyond_cap :
    BackoffPolicy.computeRetryDelayMs ⟨.fixed, 1000, 1000, true⟩ 1 (9 / 10) = 1120 ∧
      ¬ (0 ≤ BackoffPolicy.computeRetryDelayMs ⟨.fixed, 1000, 1000, true⟩ 1 (9 / 10)
        ∧ BackoffPolicy.computeRetryDelayMs ⟨.fixed, 1000, 1000, true⟩ 1 (9 / 10) ≤ 1000) := by
  decide +kernel

/-! ## §4. The shape. -/

/-- Without jitter the delays do not decrease, and one at the cap stays there; with
jitter a delay is within 15 percent and one half of it. -/
theorem backoff_shape (hbase : 0 ≤ policy.baseDelayMs) (hmax : 0 ≤ policy.maxDelayMs) :
    (∀ m n, 1 ≤ m → m ≤ n → policy.plainDelayMs m ≤ policy.plainDelayMs n) ∧
    (∀ m n, 1 ≤ m → m ≤ n → policy.plainDelayMs m = policy.maxDelayMs →
      policy.plainDelayMs n = policy.maxDelayMs) ∧
    ∀ (n : Nat) (draw : ℚ), 1 ≤ n → 0 ≤ draw → draw < 1 →
      |{ policy with jitter := true }.computeRetryDelayMs n draw - policy.plainDelayMs n|
        ≤ 15 / 100 * policy.plainDelayMs n + 1 / 2 := by
  refine ⟨?_, ?_, ?_⟩
  · intro m n _ h
    exact capped_mono (rawDelay_mono hbase h)
  · intro m n _ h hcap
    exact capped_saturated (rawDelay_mono hbase h) hcap
  · intro n draw _ h₀ h₁
    exact abs_roundHalfUp_mul_sub_le (plainDelayMs_nonneg hbase hmax n)
      (abs_jitterFactor_sub_le h₀ h₁)

/-- The default policy: attempt 7 is at the cap, and so is attempt 100. -/
theorem backoff_shape_default :
    getDefaultRetryPolicy.backoff.plainDelayMs 100 = getDefaultRetryPolicy.backoff.maxDelayMs ∧
      |getDefaultRetryPolicy.backoff.computeRetryDelayMs 3 (9 / 10)
          - getDefaultRetryPolicy.backoff.plainDelayMs 3|
        ≤ 15 / 100 * getDefaultRetryPolicy.backoff.plainDelayMs 3 + 1 / 2 := by
  have hbase : 0 ≤ getDefaultRetryPolicy.backoff.baseDelayMs := by decide +kernel
  have hmax : 0 ≤ getDefaultRetryPolicy.backoff.maxDelayMs := by decide +kernel
  exact ⟨(backoff_shape hbase hmax).2.1 7 100 (by omega) (by omega) (by decide +kernel),
    (backoff_shape hbase hmax).2.2 3 (9 / 10) (by omega) (by norm_num) (by norm_num)⟩

end BackoffPolicy

end JobScheduler
