/-
  JobScheduler.Submission.Ranges
  ──────────────────────────────
  The numbers that a request makes the server compute: the `run_at` of a delayed
  job and the OFFSET of a page.  `delay_ms` and `page` have a lower bound and no
  upper one, so both leave the range: the date beyond the largest time value, the
  offset beyond the integers that are doubles.
-/
import JobScheduler.Routes.Pagination
import JobScheduler.Submission.Inheritance

namespace JobScheduler

open Zod Binary64

/-! ## §1. The date of a delayed job. -/

/-- The largest time value of a Date, in milliseconds since the epoch. -/
def maxTimeValue : Nat := 8640000000000000

/-- `new Date(v)`; `none` is Invalid Date. -/
def timeClip (v : Double) : Option Int := v.value?.filter (fun t => decide (t.natAbs ≤ maxTimeValue))

/-- `new Date(Date.now() + (delay_ms || 0))`. -/
def delayedRunAt (now : Nat) (delayMs : Option Nat) : Option Int :=
  timeClip ((Double.ofInt now).add ((Double.ofInt (delayMs.getD 0)).or (.ofInt 0)))

/-- A `Date` exists exactly within its range. -/
theorem timeClip_eq_some {v : Double} {t : Int} :
    timeClip v = some t ↔ v.value? = some t ∧ t.natAbs ≤ maxTimeValue := by
  unfold timeClip
  rw [Option.filter_eq_some_iff, decide_eq_true_iff]

/-- `x || 0` is `x` for a number. -/
theorem value_or_zero {n : Nat} (h : n < 2 ^ 53) :
    ((Double.ofInt n).or (.ofInt 0)).value? = some (n : Int) := by
  have hn : (Double.ofInt n).value? = some (n : Int) := value_small (by simpa using h)
  have hfinite : ∀ s, Double.ofInt n ≠ .infinity s := by
    intro s hs
    rw [hs] at hn
    cases hn
  have hor := Double.value_or hfinite (value_small (k := 0) (by decide))
  rw [hn] at hor
  by_cases hzero : n = 0
  · simpa [hzero] using hor
  · simpa [hzero] using hor

/-- The date is valid up to the largest time value, and then it is exact. -/
theorem delayedRunAt_iff (now : Nat) (delayMs : Option Nat) :
    delayedRunAt now delayMs = some ((now + delayMs.getD 0 : Nat) : Int)
      ↔ now + delayMs.getD 0 ≤ maxTimeValue := by
  unfold delayedRunAt
  rw [timeClip_eq_some, Int.natAbs_natCast]
  constructor
  · exact And.right
  · intro h
    refine ⟨?_, h⟩
    have hmax : maxTimeValue < 2 ^ 53 := by decide
    have hnow : (Double.ofInt now).value? = some (now : Int) := value_small (by simp; omega)
    rw [Double.add_eq hnow (value_or_zero (by omega)), Nat.cast_add]
    exact value_small (by omega)

/-! ## §2. The offset of a page. -/

/-- The OFFSET is the exact integer, and a bigint. -/
def OffsetInRange (params : PaginationParams) : Prop :=
  ∃ page limit : Nat, params.page.value? = some (page : Int) ∧ params.limit.value? = some (limit : Int) ∧
    (paginationOffset params).value? = some ((Pagination.offset ⟨page, limit⟩ : Nat) : Int) ∧
    Pagination.offset ⟨page, limit⟩ < 2 ^ 63

/-- The page is at most 2 ^ 53, and the odd parts of `page - 1` and of the limit
leave room for each other in one significand. -/
def PageInRange (params : PaginationParams) : Prop :=
  ∃ page limit : Nat, params.page.value? = some (page : Int) ∧ params.limit.value? = some (limit : Int) ∧
    page ≤ 2 ^ 53 ∧ (page = 1 ∨ ordCompl[2] (page - 1) * ordCompl[2] limit < 2 ^ 53)

/-- Up to page 2 ^ 53 the product is far from the infinities. -/
theorem isDouble_offset_iff {page limit : Nat} (hpos : 1 ≤ page) (hle : page ≤ 2 ^ 53)
    (hlimit : 1 ≤ limit) (hlimit' : limit ≤ 100) :
    IsDouble (Pagination.offset ⟨page, limit⟩ : Nat)
      ↔ page = 1 ∨ ordCompl[2] (page - 1) * ordCompl[2] limit < 2 ^ 53 := by
  by_cases hfirst : page = 1
  · have hzero : Pagination.offset ⟨page, limit⟩ = 0 := by
      rw [Pagination.offset, hfirst]
      simp
    rw [hzero]
    exact ⟨fun _ => Or.inl hfirst, fun _ => Double.isDouble_of_lt (by decide)⟩
  · have hne : (page - 1) * limit ≠ 0 := Nat.mul_ne_zero (by omega) (by omega)
    have hbound : (page - 1) * limit < bound := by
      calc (page - 1) * limit ≤ 2 ^ 53 * 100 := Nat.mul_le_mul (by omega) hlimit'
        _ < bound := by
            unfold bound
            norm_num
    unfold IsDouble Pagination.offset
    rw [Int.natAbs_natCast, representable_iff_oddPart hne, Nat.ordCompl_mul]
    exact ⟨fun h => Or.inr h.1, fun h => ⟨h.resolve_left hfirst, hbound⟩⟩

/-- The offset is in the range of BIGINT exactly when the page is. -/
theorem offsetInRange_iff (page limit : Option String) :
    OffsetInRange (parsePagination page limit) ↔ PageInRange (parsePagination page limit) := by
  obtain ⟨n, hn, hpos, hle⟩ := limit_bounds page limit
  constructor
  · intro h
    obtain ⟨p, l, hp, hl, hoffset, _⟩ := h
    obtain rfl := Double.natCast_of_value hn hl
    have hp1 : 1 ≤ p := page_pos_of_value hp
    obtain ⟨hple, hexact⟩ := (value_offset_iff hp hl hp1 hpos).mp hoffset
    exact ⟨p, n, hp, hl, hple, (isDouble_offset_iff hp1 hple hpos hle).mp hexact⟩
  · intro h
    obtain ⟨p, l, hp, hl, hple, hodd⟩ := h
    obtain rfl := Double.natCast_of_value hn hl
    have hp1 : 1 ≤ p := page_pos_of_value hp
    have hexact := (isDouble_offset_iff hp1 hple hpos hle).mpr hodd
    refine ⟨p, n, hp, hl, (value_offset_iff hp hl hp1 hpos).mpr ⟨hple, hexact⟩, ?_⟩
    calc (p - 1) * n ≤ 2 ^ 53 * 100 := Nat.mul_le_mul (by omega) hle
      _ < 2 ^ 63 := by norm_num

/-! ## §3. Accepted requests. -/

/-- A delayed job of `n` milliseconds. -/
def delayedRequest (n : Nat) : JsonValue :=
  .object [("type", .string "delayed"), ("delay_ms", jsonNatural n)]

/-- A delayed job with `delay_ms: n`. -/
def delayedBody (n : Nat) : CreateJobBody where
  type := .delayed
  taskType := .simulated
  payload := []
  priority := 0
  maxAttempts := 3
  idempotencyKey := none
  dependsOn := []
  callbackUrl := none
  delayMs := some n
  runAt := none
  cronExpression := none
  batchJobs := none

/-- The schema accepts every delay. -/
theorem delayedRequest_accepted (fmt : Formats) (n : Nat) :
    validate (createJobSchema fmt) (delayedRequest n) = .ok (delayedBody n) := by
  let members := [("type", JsonValue.string "delayed"), ("delay_ms", jsonNatural n)]
  have hdelay : field [] members "delay_ms" (optional (natural 0)) = .ok (some n) :=
    optional_ok.mpr (Or.inr ⟨Option.some_ne_none _, n, natural_ok.mpr ⟨rfl, Nat.zero_le n⟩, rfl⟩)
  have hobject : createJobObject fmt [] (some (delayedRequest n)) = .ok (delayedBody n) := by
    refine object_ok.mpr ⟨members, rfl, ?_⟩
    rw [hdelay]
    rfl
  have hschema : createJobSchema fmt [] (some (delayedRequest n)) = .ok (delayedBody n) :=
    superRefine_ok.mpr ⟨hobject, rfl⟩
  exact validate_ok.mpr hschema

/-! ## §4. Accepted numbers. -/

/-- The date of an accepted delayed job is in range up to the largest time value, the
offset of a page for the pages whose offset fits into one significand. -/
theorem accepted_numbers_iff (fmt : Formats) :
    (∀ (request : JsonValue) (body : CreateJobBody) (now : Nat),
      validate (createJobSchema fmt) request = .ok body → body.type = .delayed →
        (delayedRunAt now body.delayMs = some ((now + body.delayMs.getD 0 : Nat) : Int)
          ↔ body.delayMs.getD 0 ≤ maxTimeValue - now ∧ now ≤ maxTimeValue)) ∧
    ∀ page limit : Option String,
      OffsetInRange (parsePagination page limit) ↔ PageInRange (parsePagination page limit) := by
  refine ⟨?_, offsetInRange_iff⟩
  intro request body now _ _
  rw [delayedRunAt_iff]
  omega

/-- A job delayed by a minute, and the third page. -/
theorem accepted_numbers_minute :
    delayedRunAt 1000 (some 60000) = some 61000 ∧
      OffsetInRange (parsePagination (some "3") (some "25")) := by
  have hpage : (parsePagination (some "3") (some "25")).page.value? = some 3 := by decide +kernel
  have hlimit : (parsePagination (some "3") (some "25")).limit.value? = some 25 := by decide +kernel
  have hodd : ordCompl[2] (3 - 1) * ordCompl[2] 25 ≤ (3 - 1) * 25 :=
    Nat.mul_le_mul (Nat.ordCompl_le _ 2) (Nat.ordCompl_le _ 2)
  exact ⟨((accepted_numbers_iff Formats.small).1 (delayedRequest 60000) (delayedBody 60000) 1000
      (delayedRequest_accepted _ _) rfl).mpr (by decide),
    ((accepted_numbers_iff Formats.small).2 (some "3") (some "25")).mpr
      ⟨3, 25, hpage, hlimit, by omega, Or.inr (by omega)⟩⟩

/-- An accepted delay of 8.64e15 ms gives no date one millisecond after the epoch, and the
page of twenty nines no exact offset. -/
theorem accepted_numbers_out_of_range :
    validate (createJobSchema Formats.small) (delayedRequest 8640000000000000)
        = .ok (delayedBody 8640000000000000) ∧
      delayedRunAt 1 (delayedBody 8640000000000000).delayMs = none ∧
      ¬ OffsetInRange (parsePagination (some "99999999999999999999") none) := by
  refine ⟨delayedRequest_accepted _ _, by decide +kernel, ?_⟩
  intro h
  obtain ⟨page, limit, hpage, _, hle, _⟩ := (offsetInRange_iff _ _).mp h
  have hvalue : (parsePagination (some "99999999999999999999") none).page.value?
      = some 100000000000000000000 := by decide +kernel
  have hcast := Option.some.inj (hvalue.symm.trans hpage)
  omega

end JobScheduler
