/-
  JobScheduler.Engine.RetryPolicy
  ───────────────────────────────
  `engine/retryPolicy.ts` and `engine/failureSummary.ts`: the retry delay and
  the triage text of a terminal failure.  Delays are exact integers; the jitter
  is computed over the rationals and rounded half up, as `Math.round` does.
-/
import Mathlib.Data.List.Infix
import Mathlib.Data.Rat.Floor
import JobScheduler.Schema.Types

namespace JobScheduler

/-! ## §1. `computeRetryDelayMs`. -/

/-- The delay before the cap. -/
def RetryPolicy.rawDelay (policy : RetryPolicy) (attempt : Nat) : Int :=
  match policy.strategy with
  | .fixed => policy.baseDelayMs
  | .linear => policy.baseDelayMs * attempt
  | .exponential => policy.baseDelayMs * 2 ^ (attempt - 1)

/-- `Math.round`: to the nearest integer, halves up. -/
def mathRound (x : ℚ) : Int := ⌊x + 1 / 2⌋

/-- `draw` is the value of `Math.random()`. -/
def computeRetryDelayMs (policy : RetryPolicy) (attempt : Nat) (draw : ℚ) : Int :=
  let delay := min (policy.rawDelay attempt) policy.maxDelayMs
  if policy.jitter then mathRound (delay * (85 / 100 + draw * (30 / 100))) else delay

/-- `getDefaultRetryPolicy()`, for a queue without a policy. -/
def getDefaultRetryPolicy : RetryPolicy where
  strategy := .exponential
  baseDelayMs := 1000
  maxRetries := 3
  maxDelayMs := 60000
  jitter := true

/-- The strategy as the column spells it. -/
def RetryStrategy.name : RetryStrategy → String
  | .fixed => "fixed"
  | .linear => "linear"
  | .exponential => "exponential"

/-! ## §2. `generateFailureSummary`. -/

/-- The job type as the column spells it. -/
def JobType.name : JobType → String
  | .immediate => "immediate"
  | .delayed => "delayed"
  | .scheduled => "scheduled"
  | .recurring => "recurring"
  | .batch => "batch"

/-- `s.includes(word)`. -/
def includes (s word : String) : Bool := decide (word.toList <:+: s.toList)

/-- Only ASCII words are searched for, so lower-casing ASCII letters decides
the same branches as `toLowerCase`. -/
def generateFailureSummary (errorMessage : String) (type : JobType) (attempts : Nat) : String :=
  let normalized := errorMessage.toLower
  let jobType := s!" {type.name}"
  let after := if attempts = 0 then "" else s!" after {attempts} attempts"
  if includes normalized "timeout" || includes normalized "timed out" then
    s!"Likely timeout failure for{jobType} job{after}. Check downstream latency, increase handler timeout, or retry with a larger backoff window."
  else if includes normalized "rate" || includes normalized "429" then
    s!"Likely upstream rate-limit failure for{jobType} job{after}. Reduce queue concurrency or use exponential retry with jitter."
  else if includes normalized "validation" || includes normalized "invalid" then
    s!"Likely payload validation failure for{jobType} job{after}. Inspect the submitted payload and handler contract before replaying."
  else if includes normalized "connection" || includes normalized "econn" then
    s!"Likely network or service connectivity failure for{jobType} job{after}. Verify service health, DNS, and retry policy settings."
  else
    s!"Job{after} failed with \"{errorMessage}\". Review execution logs, payload, and worker health before replaying."

end JobScheduler
