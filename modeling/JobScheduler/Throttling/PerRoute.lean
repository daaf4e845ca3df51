/-
  JobScheduler.Throttling.PerRoute
  ────────────────────────────────
  The rate limit of a route handler.  The middleware counts each spelling of the
  path for itself, while the router maps many of them to one handler: other
  letter cases, a slash at the end, every value of a parameter.
-/
import JobScheduler.Library.Quota
import JobScheduler.Routes.RateLimit

namespace JobScheduler

open Relational

/-! ## §1. The requests of one client to one handler. -/

/-- A client address, a window, a method and a handler. -/
structure RateScope where
  client : String
  window : Timestamp
  method : HttpMethod
  handler : Route

/-- The arrival counts in this scope: its client, window, method and handler. -/
def RateScope.covers (cfg : RateLimits) (s : RateScope) (a : Incoming) : Bool :=
  decide (a.request.identity = s.client ∧ cfg.windowStart a.env.now = s.window ∧
    a.method = s.method ∧ dispatch a.method a.path = some s.handler)

/-- The replies to the requests of the scope, among all that come in. -/
def RateScope.answered (cfg : RateLimits) (s : RateScope) (counters : RateCounters)
    (arrivals : List Incoming) : List (Incoming × RateReply) :=
  (limitAll cfg counters arrivals).filter (fun x => s.covers cfg x.1)

/-- At most the limit is let through, and the rest is answered 429. -/
structure LimitKept (cfg : RateLimits) (s : RateScope) (arrivals : List Incoming) : Prop where
  letThrough : (s.answered cfg ∅ arrivals).countP (fun x => x.2.letThrough) ≤ cfg.limit s.method
  others : ∀ x ∈ s.answered cfg ∅ arrivals, x.2.letThrough = false → x.2.statusCode = some 429

/-- The spelling that has a counter. -/
def quotaKey (a : Incoming) : Option String := if a.path = "/health" then none else some a.path

theorem quotaKey_health {a : Incoming} (h : a.path = "/health") : quotaKey a = none := if_pos h

theorem quotaKey_path {a : Incoming} (h : a.path ≠ "/health") : quotaKey a = some a.path := if_neg h

/-! ## §2. The counters of a scope. -/

/-- The counter of each spelling has counted the requests `before`. -/
def SpellingsCounted (s : RateScope) (counters : RateCounters) (before : List Incoming) : Prop :=
  ∀ p, dispatch s.method p = some s.handler →
    (counters.lookup (s.client, routeKeyOf s.method p, s.window)).getD 0 = Quota.used quotaKey p before

section
variable {cfg : RateLimits} {s : RateScope} {counters : RateCounters} {before : List Incoming} {a : Incoming}
  {p : String}

theorem spellingsCounted_empty (s : RateScope) : SpellingsCounted s ∅ [] := fun _ _ => rfl

/-- The counter that a request uses is that of its own spelling. -/
theorem counter_iff (hp : dispatch s.method p = some s.handler) :
    (s.client, routeKeyOf s.method p, s.window) =
        (a.request.identity, a.request.routeKey, cfg.windowStart a.env.now) ↔
      s.covers cfg a = true ∧ a.path = p := by
  rw [Incoming.routeKey_eq, Prod.mk.injEq, Prod.mk.injEq, routeKeyOf_inj, RateScope.covers,
    decide_eq_true_eq]
  constructor
  · rintro ⟨hclient, ⟨hmethod, rfl⟩, hwindow⟩
    exact ⟨⟨hclient.symm, hwindow.symm, hmethod.symm, hmethod ▸ hp⟩, rfl⟩
  · rintro ⟨⟨hclient, hwindow, hmethod, _⟩, rfl⟩
    exact ⟨hclient.symm, ⟨hmethod.symm, rfl⟩, hwindow.symm⟩

/-- The counter of one spelling after one request. -/
theorem spelling_counts (hp : dispatch s.method p = some s.handler) :
    ((rateLimitMiddleware cfg a.env a.request counters).1.lookup
        (s.client, routeKeyOf s.method p, s.window)).getD 0 =
      (counters.lookup (s.client, routeKeyOf s.method p, s.window)).getD 0 +
        if a.path ≠ "/health" ∧ a.env.fails = false ∧ s.covers cfg a = true ∧ a.path = p then 1 else 0 := by
  rw [middleware_counts]
  congr 1
  exact if_congr (and_congr Iff.rfl (and_congr Iff.rfl (counter_iff hp))) rfl rfl

/-- A request of another scope uses none of the counters. -/
theorem SpellingsCounted.other (h : SpellingsCounted s counters before) (ha : s.covers cfg a = false) :
    SpellingsCounted s (rateLimitMiddleware cfg a.env a.request counters).1 before := by
  intro p hp
  rw [spelling_counts hp, if_neg, Nat.add_zero]
  · exact h p hp
  · rintro ⟨_, _, hcovers, _⟩
    rw [ha] at hcovers
    cases hcovers

/-- A request of the scope uses the counter of its spelling, if it has one. -/
theorem SpellingsCounted.covered (h : SpellingsCounted s counters before) (ha : s.covers cfg a = true)
    (hf : a.path = "/health" ∨ a.env.fails = false) :
    SpellingsCounted s (rateLimitMiddleware cfg a.env a.request counters).1 (before ++ [a]) := by
  intro p hp
  rw [spelling_counts hp, h p hp, Quota.used_snoc, quotaKey]
  by_cases hhealth : a.path = "/health"
  · simp [hhealth]
  · simp [hhealth, hf.resolve_left hhealth, ha]

/-- The middleware admits as the counters of the spellings do. -/
theorem letThrough_eq (h : SpellingsCounted s counters before) (ha : s.covers cfg a = true)
    (hf : a.path = "/health" ∨ a.env.fails = false) :
    (rateLimitMiddleware cfg a.env a.request counters).2.letThrough =
      Quota.admits quotaKey (cfg.limit s.method) before a := by
  by_cases hhealth : a.path = "/health"
  · rw [middleware_health hhealth, Quota.admits_of_none (quotaKey_health hhealth)]
    rfl
  · rw [middleware_letThrough hhealth (hf.resolve_left hhealth),
      Quota.admits_of_some (quotaKey_path hhealth)]
    obtain ⟨hclient, hwindow, hmethod, hdispatch⟩ := of_decide_eq_true ha
    have hcount := h a.path (hmethod ▸ hdispatch)
    rw [← hclient, ← hwindow, ← hmethod] at hcount
    rw [Incoming.routeKey_eq, hcount, ← hmethod]
    rfl

/-! ## §3. A whole sequence. -/

/-- **The middleware refines the counters of the spellings**: the requests of a
scope that it lets through are the admitted ones. -/
theorem answered_letThrough (arrivals : List Incoming) (h : SpellingsCounted s counters before)
    (hf : ∀ a ∈ arrivals.filter (s.covers cfg), a.path = "/health" ∨ a.env.fails = false) :
    ((s.answered cfg counters arrivals).filter (fun x => x.2.letThrough)).map Prod.fst =
      Quota.admitted quotaKey (cfg.limit s.method) before (arrivals.filter (s.covers cfg)) := by
  unfold RateScope.answered
  induction arrivals generalizing counters before with
  | nil => rfl
  | cons a as ih =>
      simp only [limitAll, List.filter_cons]
      cases ha : s.covers cfg a with
      | false =>
          simp only [List.filter_cons, ha] at hf
          exact ih (h.other ha) hf
      | true =>
          simp only [List.filter_cons, ha, if_true, List.forall_mem_cons] at hf
          have hrest := ih (h.covered ha hf.1) hf.2
          simp only [if_true, List.filter_cons, letThrough_eq h ha hf.1, Quota.admitted]
          split
          · rw [List.map_cons, hrest]
          · exact hrest

theorem map_answered (cfg : RateLimits) (s : RateScope) (counters : RateCounters) (arrivals : List Incoming) :
    (s.answered cfg counters arrivals).map Prod.fst = arrivals.filter (s.covers cfg) := by
  unfold RateScope.answered
  induction arrivals generalizing counters with
  | nil => rfl
  | cons a as ih =>
      simp only [limitAll, List.filter_cons]
      split
      · rw [List.map_cons, ih]
      · exact ih _

/-- Every request of the scope is let through, refused with 429 or failed. -/
theorem answered_answers (arrivals : List Incoming) {x : Incoming × RateReply}
    (hx : x ∈ s.answered cfg counters arrivals) :
    (x.2.letThrough = true ∨ x.2.statusCode = some 429) ↔
      (x.1.path = "/health" ∨ x.1.env.fails = false) := by
  unfold RateScope.answered at hx
  induction arrivals generalizing counters with
  | nil => cases hx
  | cons a as ih =>
      obtain ⟨hmem, hcovers⟩ := List.mem_filter.mp hx
      rcases List.mem_cons.mp hmem with rfl | htail
      · exact middleware_answers
      · exact ih (List.mem_filter.mpr ⟨htail, hcovers⟩)

/-- The rest of a scope is answered 429 if and only if no counter statement is rejected. -/
theorem others_iff (arrivals : List Incoming) :
    (∀ x ∈ s.answered cfg counters arrivals, x.2.letThrough = false → x.2.statusCode = some 429) ↔
      ∀ a ∈ arrivals.filter (s.covers cfg), a.path = "/health" ∨ a.env.fails = false := by
  rw [← map_answered cfg s counters, List.forall_mem_map]
  refine forall₂_congr (fun x hx => ?_)
  rw [← answered_answers arrivals hx, or_iff_not_imp_left, Bool.not_eq_true]

/-- How many requests of the scope are let through. -/
theorem countP_letThrough (arrivals : List Incoming)
    (hf : ∀ a ∈ arrivals.filter (s.covers cfg), a.path = "/health" ∨ a.env.fails = false) :
    (s.answered cfg ∅ arrivals).countP (fun x => x.2.letThrough) =
      (Quota.admitted quotaKey (cfg.limit s.method) [] (arrivals.filter (s.covers cfg))).length := by
  rw [← answered_letThrough arrivals (spellingsCounted_empty s) hf, List.length_map,
    List.countP_eq_length_filter]

end

/-! ## §4. When the limit is kept. -/

theorem quotaKey_ne_none {a : Incoming} : quotaKey a ≠ none ↔ a.path ≠ "/health" := by
  simp [quotaKey]

/-- **The limit of a route handler is kept if and only if no counter statement of
its requests is rejected and there are at most `limit` of them, or all spell the
path alike and none as `/health`** (or the limit is zero). -/
theorem route_limit_iff (cfg : RateLimits) (s : RateScope) (arrivals : List Incoming) :
    let requests := arrivals.filter (s.covers cfg)
    LimitKept cfg s arrivals ↔
      (∀ a ∈ requests, a.path = "/health" ∨ a.env.fails = false) ∧
        (requests.length ≤ cfg.limit s.method ∨
          ((∀ a ∈ requests, a.path ≠ "/health") ∧
            (cfg.limit s.method = 0 ∨ ∀ a ∈ requests, ∀ b ∈ requests, a.path = b.path))) := by
  intro requests
  have hsame : ((∀ a ∈ requests, quotaKey a ≠ none) ∧
        (cfg.limit s.method = 0 ∨ ∀ a ∈ requests, ∀ b ∈ requests, quotaKey a = quotaKey b)) ↔
      ((∀ a ∈ requests, a.path ≠ "/health") ∧
        (cfg.limit s.method = 0 ∨ ∀ a ∈ requests, ∀ b ∈ requests, a.path = b.path)) := by
    simp only [quotaKey_ne_none]
    refine and_congr_right (fun hpaths => or_congr_right ?_)
    refine forall₂_congr (fun a ha => forall₂_congr (fun b hb => ?_))
    rw [quotaKey_path (hpaths a ha), quotaKey_path (hpaths b hb), Option.some.injEq]
  constructor
  · rintro ⟨hthrough, hothers⟩
    have hf := (others_iff arrivals).mp hothers
    rw [countP_letThrough arrivals hf, Quota.length_admitted_le_iff, hsame] at hthrough
    exact ⟨hf, hthrough⟩
  · rintro ⟨hf, hkept⟩
    refine ⟨?_, (others_iff arrivals).mpr hf⟩
    rw [countP_letThrough arrivals hf, Quota.length_admitted_le_iff, hsame]
    exact hkept

/-- One read request a minute. -/
def RateLimits.small : RateLimits where
  windowMs := 60000
  readRequests := 1
  mutationRequests := 1
  windowPos := by decide

/-- GET. -/
def HttpMethod.get : HttpMethod := ⟨"GET", by decide⟩

/-- GET /jobs/:id for two jobs. -/
def twoJobs : List Incoming :=
  [⟨.get, "/jobs/7", some "10.0.0.1", { now := 0 }⟩, ⟨.get, "/jobs/8", some "10.0.0.1", { now := 1 }⟩]

/-- Each path has its own counter, so both requests are let through. -/
theorem two_paths_two_counters :
    ¬ (∀ (cfg : RateLimits) (s : RateScope) (arrivals : List Incoming),
        (∀ a ∈ arrivals, a.env.fails = false) → LimitKept cfg s arrivals) := by
  intro hclaim
  have hkept := hclaim RateLimits.small ⟨"10.0.0.1", 0, .get, ⟨"GET", "/", "/jobs/:id"⟩⟩ twoJobs (by decide)
  exact absurd hkept.letThrough (by decide)

end JobScheduler
