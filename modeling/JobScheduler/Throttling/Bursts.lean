/-
  JobScheduler.Throttling.Bursts
  ──────────────────────────────
  What the fixed windows of the rate limit allow in an interval of any place and
  length.  A client may use up the limit at the end of one window and again at the
  start of the next, so twice the limit gets through in a moment, and no more; and
  nobody is refused before the limit of the window is used up.
-/
import Mathlib.Tactic.Linarith
import JobScheduler.Library.Quota
import JobScheduler.Throttling.PerRoute

namespace JobScheduler

open Relational

/-! ## §1. One counter. -/

section
variable {cfg : RateLimits} {counters : RateCounters} {client : String} {method : HttpMethod}
    {path : String}

/-- The requests of the client with this method and spelling. -/
def Incoming.isFrom (client : String) (method : HttpMethod) (path : String) (a : Incoming) : Bool :=
  decide (a.request.identity = client ∧ a.method = method ∧ a.path = path)

/-- As many are let through as the counter has room for, at most. -/
theorem used_letThrough_le (cfg : RateLimits) (counters : RateCounters) (client : String)
    (method : HttpMethod) (hpath : path ≠ "/health") (arrivals : List Incoming) (window : Timestamp) :
    ((limitAll cfg counters arrivals).filter
      (fun x => x.2.letThrough && x.1.isFrom client method path)).countP
        (fun x => decide (cfg.windowStart x.1.env.now = window))
      ≤ cfg.limit method - (counters.lookup (client, routeKeyOf method path, window)).getD 0 := by
  induction arrivals generalizing counters with
  | nil => simp [limitAll]
  | cons a arrivals ih =>
      have hrest := ih (rateLimitMiddleware cfg a.env a.request counters).1
      rw [middleware_counts] at hrest
      simp only [limitAll, List.filter_cons]
      split
      · rename_i hthrough
        obtain ⟨hlet, hfrom⟩ := Bool.and_eq_true_iff.mp hthrough
        obtain ⟨hclient, rfl, rfl⟩ := of_decide_eq_true hfrom
        rw [List.countP_cons]
        by_cases hw : cfg.windowStart a.env.now = window
        · -- the request takes a number of this counter, which is within the limit
          have hf : a.env.fails = false := by
            rcases middleware_answers.mp (.inl hlet) with hh | hf
            · exact absurd hh hpath
            · exact hf
          have hroom := of_decide_eq_true ((middleware_letThrough hpath hf).symm.trans hlet)
          rw [hclient, hw, Incoming.routeKey_eq] at hroom
          rw [if_pos ⟨hpath, hf, by rw [← hclient, ← hw]; rfl⟩] at hrest
          simp only [hw, decide_true, if_true]
          have hroom' : _ < cfg.limit a.method := hroom
          omega
        · simp only [hw, decide_false, Bool.false_eq_true, if_false]
          omega
      · omega

/-- A request of the client that was let through in this window. -/
def passedIn (cfg : RateLimits) (client : String) (method : HttpMethod) (path : String)
    (window : Timestamp)
    (x : Incoming × RateReply) : Bool :=
  x.2.letThrough && x.1.isFrom client method path && decide (cfg.windowStart x.1.env.now = window)

/-- A counter that refuses is used up. -/
theorem middleware_limited {env : Env} {req : HttpRequest}
    (h : (rateLimitMiddleware cfg env req counters).2.statusCode = some 429) :
    cfg.limit req.method ≤
      (counters.lookup (req.identity, req.routeKey, cfg.windowStart env.now)).getD 0 := by
  by_cases hhealth : req.path = "/health"
  · rw [middleware_health hhealth] at h
    cases h
  · rw [rateLimitMiddleware, if_neg hhealth] at h
    split at h
    · cases h
    · simp only at h
      split at h
      · omega
      · cases h

/-- A request that was refused was not for the health check. -/
theorem limited_path {arrivals : List Incoming} {before after : List (Incoming × RateReply)}
    {x : Incoming × RateReply} (h : limitAll cfg counters arrivals = before ++ x :: after)
    (hlimited : x.2.statusCode = some 429) : x.1.path ≠ "/health" := by
  induction arrivals generalizing counters before with
  | nil => exact absurd h.symm (by simp [limitAll])
  | cons a arrivals ih =>
      simp only [limitAll] at h
      cases before with
      | nil =>
          obtain ⟨rfl, -⟩ := List.cons.inj h
          intro hhealth
          have hnext : (rateLimitMiddleware cfg a.env a.request counters).2 = .next none := by
            rw [middleware_health hhealth]
          rw [hnext] at hlimited
          cases hlimited
      | cons y before => exact ih (List.cons.inj h).2

/-- The room that a refusing counter had was given to requests before. -/
theorem limit_le_passed (hpath : path ≠ "/health") {arrivals : List Incoming}
    {before after : List (Incoming × RateReply)} {x : Incoming × RateReply}
    (h : limitAll cfg counters arrivals = before ++ x :: after)
    (hx : x.1.isFrom client method path = true)
    (hlimited : x.2.statusCode = some 429) :
    cfg.limit method ≤
      (counters.lookup (client, routeKeyOf method path, cfg.windowStart x.1.env.now)).getD 0 +
        before.countP (passedIn cfg client method path (cfg.windowStart x.1.env.now)) := by
  induction arrivals generalizing counters before with
  | nil => exact absurd h.symm (by simp [limitAll])
  | cons a arrivals ih =>
      simp only [limitAll] at h
      cases before with
      | nil =>
          obtain ⟨rfl, -⟩ := List.cons.inj h
          obtain ⟨hclient, rfl, rfl⟩ := of_decide_eq_true hx
          rw [← hclient]
          exact middleware_limited hlimited
      | cons y before =>
          obtain ⟨rfl, hrest⟩ := List.cons.inj h
          have hle := ih hrest
          rw [middleware_counts] at hle
          rw [List.countP_cons]
          split at hle
          · -- the request before took a number of this counter
            rename_i hcounts
            obtain ⟨-, hf, hkey⟩ := hcounts
            rw [Incoming.routeKey_eq, Prod.mk.injEq, Prod.mk.injEq, routeKeyOf_inj] at hkey
            obtain ⟨hclient, ⟨hmethod, hspelling⟩, hwindow⟩ := hkey
            have hfrom : a.isFrom client method path = true :=
              decide_eq_true ⟨hclient.symm, hmethod.symm, hspelling.symm⟩
            by_cases hlet : (rateLimitMiddleware cfg a.env a.request counters).2.letThrough = true
            · rw [if_pos (by simp [passedIn, hlet, hfrom, hwindow])]
              omega
            · have hne : a.path ≠ "/health" := hspelling ▸ hpath
              have hroom : (rateLimitMiddleware cfg a.env a.request counters).2.letThrough = decide _ :=
                middleware_letThrough hne hf
              have hfull := of_decide_eq_false (hroom.symm.trans (Bool.eq_false_of_not_eq_true hlet))
              rw [Incoming.routeKey_eq, ← hclient, ← hwindow, ← hspelling, ← hmethod] at hfull
              have hlimit : cfg.limit a.request.method = cfg.limit method :=
                congrArg cfg.limit hmethod.symm
              omega
          · omega

/-! ## §2. Windows. -/

/-- The windows that an interval can touch. -/
def RateLimits.windowsOf (cfg : RateLimits) (start : Timestamp) (length : Nat) : Finset Timestamp :=
  (Finset.range (length / cfg.windowMs + 2)).image
    (fun i : Nat => (start / cfg.windowMs + i) * (cfg.windowMs : Int))

theorem ediv_add_lt (a b : Int) {w : Int} (h : 0 < w) : (a + b) / w < a / w + b / w + 2 := by
  refine Int.ediv_lt_of_lt_mul h ?_
  have ha := Int.emod_add_mul_ediv a w
  have hb := Int.emod_add_mul_ediv b w
  have ha' := Int.emod_lt_of_pos a h
  have hb' := Int.emod_lt_of_pos b h
  linarith

/-- An interval meets a bounded number of windows. -/
theorem RateLimits.card_windowsOf (cfg : RateLimits) (start : Timestamp) (length : Nat) :
    (cfg.windowsOf start length).card ≤ length / cfg.windowMs + 2 :=
  Finset.card_image_le.trans (le_of_eq (Finset.card_range _))

/-- Every moment of the interval lies in one of them. -/
theorem RateLimits.mem_windowsOf (cfg : RateLimits) {start now : Int} {length : Nat}
    (h : start ≤ now) (h' : now ≤ start + length) :
    cfg.windowStart now ∈ cfg.windowsOf start length := by
  have hpos : (0 : Int) < cfg.windowMs := Int.natCast_pos.mpr cfg.windowPos
  have hfirst : start / cfg.windowMs ≤ now / cfg.windowMs := Int.ediv_le_ediv hpos h
  have hlast : now / cfg.windowMs < start / cfg.windowMs + length / cfg.windowMs + 2 :=
    lt_of_le_of_lt (Int.ediv_le_ediv hpos h') (ediv_add_lt start length hpos)
  refine Finset.mem_image.mpr ⟨(now / cfg.windowMs - start / cfg.windowMs).toNat,
    Finset.mem_range.mpr ?_, ?_⟩
  · rw [Int.toNat_lt (by omega)]
    push_cast
    omega
  · rw [Int.toNat_of_nonneg (by omega)]
    show (start / cfg.windowMs + (now / cfg.windowMs - start / cfg.windowMs)) * cfg.windowMs =
      cfg.windowStart now
    rw [Int.add_comm, Int.sub_add_cancel]
    rfl

/-! ## §3. Refusals. -/

/-- **Nobody is refused early.**  Whatever came in, when a request is answered 429 exactly the limit
of requests of its client, method and spelling was let through in its window before it: requests of
others, of other windows, of other spellings, and those that were refused or failed, take nothing. -/
theorem refused_when_used_up (cfg : RateLimits) (arrivals : List Incoming)
    {before after : List (Incoming × RateReply)} {x : Incoming × RateReply}
    (h : limitAll cfg ∅ arrivals = before ++ x :: after) (hlimited : x.2.statusCode = some 429) :
    before.countP (passedIn cfg x.1.request.identity x.1.method x.1.path
      (cfg.windowStart x.1.env.now)) =
      cfg.limit x.1.method := by
  have hpath : x.1.path ≠ "/health" := limited_path h hlimited
  refine Nat.le_antisymm ?_ ?_
  · -- the requests before are some of those that were let through
    have hused := used_letThrough_le cfg ∅ x.1.request.identity x.1.method hpath arrivals
      (cfg.windowStart x.1.env.now)
    have hsub : before.Sublist (limitAll cfg ∅ arrivals) := by
      rw [h]
      exact List.sublist_append_left _ _
    refine ((hsub.countP_le).trans (le_of_eq ?_)).trans (hused.trans (Nat.sub_le _ _))
    rw [List.countP_filter]
    refine List.countP_congr (fun y _ => ?_)
    simp only [passedIn, Bool.and_eq_true, decide_eq_true_eq]
    tauto
  · have hle := limit_le_passed hpath h (decide_eq_true ⟨rfl, rfl, rfl⟩) hlimited
    rwa [show (∅ : RateCounters).lookup _ = none from rfl, Option.getD_none, Nat.zero_add] at hle

/-! ## §4. Intervals. -/

/-- **Bursts are bounded.**  For every client, method and spelling of a path, any sequence of
arrivals and any interval: at most the limit for each window that the interval can touch is let
through; so at most twice the limit in an interval shorter than a window. -/
theorem burst_bounded (cfg : RateLimits) (client : String) (method : HttpMethod) {path : String}
    (hpath : path ≠ "/health") (arrivals : List Incoming) (start : Timestamp) (length : Nat) :
    (limitAll cfg ∅ arrivals).countP (fun x => x.2.letThrough && x.1.isFrom client method path
        && decide (start ≤ x.1.env.now ∧ x.1.env.now ≤ start + length))
      ≤ (length / cfg.windowMs + 2) * cfg.limit method := by
  -- the requests of the interval, by their windows
  let within : Incoming × RateReply → Bool := fun x =>
    decide (start ≤ x.1.env.now ∧ x.1.env.now ≤ start + length)
  let passed := (limitAll cfg ∅ arrivals).filter
    (fun x => x.2.letThrough && x.1.isFrom client method path)
  have hcount : (limitAll cfg ∅ arrivals).countP
    (fun x => x.2.letThrough && x.1.isFrom client method path
      && decide (start ≤ x.1.env.now ∧ x.1.env.now ≤ start + length)) =
        (passed.filter within).length := by
    rw [List.countP_eq_length_filter, List.filter_filter]
    congr 1
    refine List.filter_congr (fun x _ => ?_)
    rw [Bool.and_comm]
  rw [hcount]
  refine (Quota.length_le_card_mul (fun x : Incoming × RateReply => some (cfg.windowStart x.1.env.now))
    (cfg.windowsOf start length) _ ?_ ?_).trans
    (Nat.mul_le_mul_right _ (cfg.card_windowsOf start length))
  · intro x hx
    obtain ⟨hge, hle⟩ := of_decide_eq_true (List.mem_filter.mp hx).2
    exact ⟨_, cfg.mem_windowsOf hge hle, rfl⟩
  · intro window _
    have hused :
        passed.countP (fun x => decide (cfg.windowStart x.1.env.now = window)) ≤ cfg.limit method :=
      (used_letThrough_le cfg ∅ client method hpath arrivals window).trans (Nat.sub_le _ _)
    refine (((List.filter_sublist).countP_le).trans ?_).trans hused
    refine le_of_eq (List.countP_congr (fun x _ => ?_))
    simp

/-! ## §5. Two requests at the border of two windows. -/

/-- GET /jobs three times within two milliseconds, with a border of two windows in between. -/
def atBorder : List Incoming :=
  [⟨.get, "/jobs", some "10.0.0.1", { now := 59998 }⟩,
  ⟨.get, "/jobs", some "10.0.0.1", { now := 59999 }⟩,
    ⟨.get, "/jobs", some "10.0.0.1", { now := 60000 }⟩]

/-- With a limit of one, two of the three are let through: the bound is reached. -/
theorem burst_bounded_border :
    (limitAll RateLimits.small ∅ atBorder).countP (fun x => x.2.letThrough
        && x.1.isFrom "10.0.0.1" .get "/jobs" && decide
          ((59998 : Timestamp) ≤ x.1.env.now ∧ x.1.env.now ≤ (59998 : Timestamp) + (2 : Nat))) = 2
      ∧ (limitAll RateLimits.small ∅ atBorder).countP (fun x => x.2.letThrough
        && x.1.isFrom "10.0.0.1" .get "/jobs" && decide
          ((59998 : Timestamp) ≤ x.1.env.now ∧ x.1.env.now ≤ (59998 : Timestamp) + (2 : Nat)))
        ≤ (2 / 60000 + 2) * 1 :=
  ⟨by decide, burst_bounded RateLimits.small "10.0.0.1" .get (by decide) atBorder 59998 2⟩

/-- The second of them is refused after the first. -/
theorem refused_when_used_up_border :
    ((limitAll RateLimits.small ∅ atBorder).take 1).countP
      (passedIn RateLimits.small "10.0.0.1" .get "/jobs" 0) = 1 :=
  @refused_when_used_up RateLimits.small atBorder ((limitAll RateLimits.small ∅ atBorder).take 1)
    ((limitAll RateLimits.small ∅ atBorder).drop 2)
    (⟨.get, "/jobs", some "10.0.0.1", { now := 59999 }⟩, .limited ⟨1, 0⟩ rateLimited) rfl rfl

end

end JobScheduler
