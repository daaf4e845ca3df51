/-
  JobScheduler.Routes.RateLimit
  ─────────────────────────────
  `middleware/rateLimit.ts`, and where `app.ts` puts it: before the routers, so
  that nobody has set `req.route` or `req.user` when it runs.

  Express maps a method and a path to a handler as its documentation says: the
  first route that matches, letter case ignored, one slash at the end allowed,
  `:params` for any segment.  The segments in the place of parameters go through
  `decodeURIComponent` as soon as the path matches, and before the method is looked
  at; when that throws, no further route is tried.
-/
import JobScheduler.Library.Table
import JobScheduler.Schema.Database
import JobScheduler.Schema.Uuid

namespace JobScheduler

open Relational

/-! ## §1. The middleware. -/

/-- An HTTP method is a token: it has no colon. -/
structure HttpMethod where
  name : String
  token : ':' ∉ name.toList
  deriving DecidableEq

/-- What the middleware reads of `req`. -/
structure HttpRequest where
  method : HttpMethod
  /-- The path as the client spells it. -/
  path : String
  ip : Option String
  /-- `req.user?.id`. -/
  userId : Option String := none
  /-- `req.route?.path`. -/
  routePath : Option String := none

/-- `a || b` on strings. -/
def jsOr (a : Option String) (b : String) : String := if a.getD "" = "" then b else a.getD ""

/-- The rate limits of `config/env.ts`. -/
structure RateLimits where
  windowMs : Nat
  readRequests : Nat
  mutationRequests : Nat
  windowPos : 0 < windowMs

/-- The limit of the method: mutations have their own. -/
def RateLimits.limit (cfg : RateLimits) (method : HttpMethod) : Nat :=
  if method.name ∈ ["POST", "PATCH", "DELETE"] then cfg.mutationRequests else cfg.readRequests

/-- `Math.floor(now / windowMs) * windowMs`. -/
def RateLimits.windowStart (cfg : RateLimits) (now : Timestamp) : Timestamp :=
  now / cfg.windowMs * cfg.windowMs

/-- `req.user?.id || req.ip || 'anonymous'`. -/
def HttpRequest.identity (req : HttpRequest) : String := jsOr req.userId (jsOr req.ip "anonymous")

/-- `${req.method}:${...}`. -/
def routeKeyOf (method : HttpMethod) (path : String) : String := method.name ++ ":" ++ path

/-- `${req.method}:${req.route?.path || req.path}`. -/
def HttpRequest.routeKey (req : HttpRequest) : String :=
  routeKeyOf req.method (jsOr req.routePath req.path)

/-- `api_rate_limits`: identity_key, route_key, window_start. -/
abbrev RateCounters := Table (String × String × Timestamp) Nat

/-- The `X-RateLimit` headers of a counted request. -/
structure RateHeaders where
  limit : Nat
  remaining : Nat

/-- What the middleware does with a request. -/
inductive RateReply
  /-- `next()`. -/
  | next (headers : Option RateHeaders)
  | limited (headers : RateHeaders) (err : AppError)
  /-- `next(err)`. -/
  | failed (err : AppError)

/-- The middleware calls `next()` without an error. -/
def RateReply.letThrough : RateReply → Bool
  | .next _ => true
  | _ => false

/-- The status code of a reply that the middleware itself causes. -/
def RateReply.statusCode : RateReply → Option Nat
  | .next _ => none
  | .limited _ err => some err.statusCode
  | .failed err => some err.statusCode

/-- The error of a request over its limit. -/
def rateLimited : AppError :=
  ⟨429, "RATE_LIMITED", "Too many requests. Please wait for the current rate-limit window to reset."⟩

/-- `rateLimitMiddleware`: count the request in its window, and compare with the limit. -/
def rateLimitMiddleware (cfg : RateLimits) (env : Env) (req : HttpRequest) (counters : RateCounters) :
    RateCounters × RateReply :=
  if req.path = "/health" then (counters, .next none)
  else if env.fails then (counters, .failed (internalServerError env.error))
  else
    let key := (req.identity, req.routeKey, cfg.windowStart env.now)
    let requestCount := (counters.lookup key).getD 0 + 1
    let limit := cfg.limit req.method
    let headers := { limit := limit, remaining := limit - requestCount }
    (counters.insert key requestCount,
      if limit < requestCount then .limited headers rateLimited else .next (some headers))

/-! ## §2. The application. -/

/-- A request as it comes in, and what the environment does to its statement. -/
structure Incoming where
  method : HttpMethod
  path : String
  ip : Option String
  env : Env

/-- No router has seen the request yet. -/
def Incoming.request (a : Incoming) : HttpRequest where
  method := a.method
  path := a.path
  ip := a.ip

/-- The arrivals in the order of their statements, with the replies. -/
def limitAll (cfg : RateLimits) : RateCounters → List Incoming → List (Incoming × RateReply)
  | _, [] => []
  | counters, a :: as =>
      let r := rateLimitMiddleware cfg a.env a.request counters
      (a, r.2) :: limitAll cfg r.1 as

/-! ## §3. Routing. -/

/-- A handler, by its place in the source: `app.use(mount, router)`, `router.get(path, ...)`. -/
structure Route where
  method : String
  mount : String
  path : String
  deriving DecidableEq

/-- Without the case of the letters. -/
def foldCase (cs : List Char) : List Char := cs.map Char.toLower

/-- `app.use(mount, ...)`: the path that is left for the router. -/
def stripMount (mount path : List Char) : Option (List Char) :=
  if mount = ['/'] then some path
  else if foldCase (path.take mount.length) = foldCase mount then
    match path.drop mount.length with
    | [] => some ['/']
    | ['/'] => some ['/']
    -- the optional slash is taken when another one follows
    | '/' :: '/' :: rest => some ('/' :: rest)
    | '/' :: rest => some ('/' :: rest)
    | _ => none
  else none

/-- The segments of a path; a slash at the end makes no segment. -/
def segments (path : List Char) : Option (List (List Char)) :=
  match path with
  | '/' :: rest =>
      let parts := rest.splitOn '/'
      some (if parts.getLast? = some [] then parts.dropLast else parts)
  | _ => none

/-- The pattern is that of a parameter. -/
def isParam (pattern : List Char) : Bool := pattern.head? = some ':'

/-- The part of the regular expression for one segment; a parameter is `([^\/]+?)`. -/
def segmentMatches (pattern segment : List Char) : Bool :=
  if isParam pattern then !segment.isEmpty else decide (foldCase pattern = foldCase segment)

/-- The captures of the regular expression of a pattern: the segments in the place of its
parameters, if the path matches. -/
def captures (pattern path : List Char) : Option (List (List Char)) :=
  match segments pattern, segments path with
  | some ps, some ss =>
      if ps.length = ss.length ∧ (ps.zip ss).all (fun p => segmentMatches p.1 p.2) then
        some (((ps.zip ss).filter (fun p => isParam p.1)).map Prod.snd)
      else none
  | _, _ => none

/-! ### `decodeURIComponent` -/

/-- The octet of `%XY`. -/
def percentOctet (x y : Char) : Option Nat :=
  (UuidText.hexDigit x).bind (fun high => (UuidText.hexDigit y).map (fun low => 16 * high.1 + low.1))

/-- The ranges of the octets that have to follow the first octet of a character in UTF-8. -/
def utf8Follow (octet : Nat) : Option (List (Nat × Nat)) :=
  if octet ≤ 0x7F then some []
  else if 0xC2 ≤ octet ∧ octet ≤ 0xDF then some [(0x80, 0xBF)]
  -- the shortest form, and no surrogates
  else if octet = 0xE0 then some [(0xA0, 0xBF), (0x80, 0xBF)]
  else if octet = 0xED then some [(0x80, 0x9F), (0x80, 0xBF)]
  else if 0xE1 ≤ octet ∧ octet ≤ 0xEF then some [(0x80, 0xBF), (0x80, 0xBF)]
  -- the shortest form, and nothing beyond U+10FFFF
  else if octet = 0xF0 then some [(0x90, 0xBF), (0x80, 0xBF), (0x80, 0xBF)]
  else if 0xF1 ≤ octet ∧ octet ≤ 0xF3 then some [(0x80, 0xBF), (0x80, 0xBF), (0x80, 0xBF)]
  else if octet = 0xF4 then some [(0x80, 0x8F), (0x80, 0xBF), (0x80, 0xBF)]
  else none

/-- `decodeURIComponent` does not throw; octets in the ranges `pending` are still to come. -/
def decodable : List (Nat × Nat) → List Char → Bool
  | pending, [] => pending.isEmpty
  | pending, '%' :: x :: y :: rest =>
      match percentOctet x y, pending with
      | none, _ => false
      | some octet, [] => (utf8Follow octet).any (fun follow => decodable follow rest)
      | some octet, (low, high) :: more =>
          decide (low ≤ octet ∧ octet ≤ high) && decodable more rest
  | pending, c :: rest => decide (c ≠ '%') && pending.isEmpty && decodable [] rest

/-- What Express throws for a parameter. -/
def decodeError (value : List Char) : AppError :=
  internalServerError ("Failed to decode param '" ++ String.ofList value ++ "'")

/-- `layer.match`: whether the path matches, unless it throws. -/
def layerMatch (pattern path : List Char) : Except AppError Bool :=
  match captures pattern path with
  | none => .ok false
  | some values =>
      match values.find? (fun value => !decodable [] value) with
      | some value => .error (decodeError value)
      | none => .ok true

/-! ### Routes -/

/-- What a layer says to the path that is left for its router: it handles the request, it
throws, or it leaves the request to the next layer.  A GET route also handles HEAD. -/
def Route.answer (r : Route) (method : HttpMethod) (path : List Char) : Option (Except AppError Route) :=
  match layerMatch r.path.toList path with
  | .error err => some (.error err)
  | .ok matched =>
      if matched && (r.method = method.name || (method.name = "HEAD" && r.method = "GET")) then
        some (.ok r)
      else none

/-- What the route answers to a path under its mount point; `none` where it does not match. -/
def Route.handles (r : Route) (method : HttpMethod) (path : String) : Option (Except AppError Route) :=
  (stripMount r.mount.toList path.toList).bind (r.answer method)

/-- The routes of `app.ts` and of its routers, in their order. -/
def appRoutes : List Route :=
  [⟨"GET", "/", "/health"⟩,
    ⟨"GET", "/", "/"⟩,
    ⟨"POST", "/auth", "/register"⟩,
    ⟨"POST", "/auth", "/login"⟩,
    ⟨"GET", "/projects", "/"⟩,
    ⟨"POST", "/projects", "/"⟩,
    ⟨"GET", "/projects", "/:id"⟩,
    ⟨"DELETE", "/projects", "/:id"⟩,
    ⟨"GET", "/projects", "/:id/members"⟩,
    ⟨"POST", "/projects", "/:id/members"⟩,
    ⟨"POST", "/", "/projects/:projectId/queues"⟩,
    ⟨"GET", "/", "/queues"⟩,
    ⟨"GET", "/", "/queues/:id"⟩,
    ⟨"PATCH", "/", "/queues/:id"⟩,
    ⟨"GET", "/", "/queues/:id/stats"⟩,
    ⟨"GET", "/", "/retry-policies"⟩,
    ⟨"POST", "/", "/queues/:queueId/jobs"⟩,
    ⟨"GET", "/", "/jobs"⟩,
    ⟨"GET", "/", "/jobs/:id"⟩,
    ⟨"GET", "/", "/jobs/:id/executions"⟩,
    ⟨"GET", "/", "/jobs/:id/logs"⟩,
    ⟨"GET", "/", "/jobs/:id/dependencies"⟩,
    ⟨"POST", "/", "/jobs/:id/retry"⟩,
    ⟨"GET", "/", "/batches"⟩,
    ⟨"GET", "/", "/batches/:id"⟩,
    ⟨"GET", "/", "/batches/:id/jobs"⟩,
    ⟨"POST", "/", "/batches/:id/cancel"⟩,
    ⟨"GET", "/workers", "/"⟩,
    ⟨"GET", "/workers", "/:id/heartbeats"⟩,
    ⟨"GET", "/dlq", "/"⟩,
    ⟨"POST", "/dlq", "/:id/replay"⟩,
    ⟨"GET", "/events", "/"⟩]

/-- The first route that does not leave the request to the next one. -/
def routing (method : HttpMethod) (path : String) : Option (Except AppError Route) :=
  appRoutes.findSome? (·.handles method path)

/-- The handler that a request is dispatched to. -/
def dispatch (method : HttpMethod) (path : String) : Option Route :=
  (routing method path).bind Except.toOption

example : dispatch ⟨"GET", by decide⟩ "/JOBS/%37/" = some ⟨"GET", "/", "/jobs/:id"⟩ := by decide

-- the surrogate U+D800 has no UTF-8
example : routing ⟨"PUT", by decide⟩ "/jobs/%ed%a0%80" = some (.error (decodeError "%ed%a0%80".toList)) := by
  rfl

/-! ## §4. One request. -/

/-- A list is cut at the first occurrence of a separator in one way only. -/
theorem eq_of_append_cons {a : Char} {xs ys us vs : List Char} (hx : a ∉ xs) (hy : a ∉ ys)
    (h : xs ++ a :: us = ys ++ a :: vs) : xs = ys ∧ us = vs := by
  induction xs generalizing ys with
  | nil =>
      cases ys with
      | nil => exact ⟨rfl, (List.cons.inj h).2⟩
      | cons y ys => exact absurd (List.cons.inj h).1 (List.ne_of_not_mem_cons hy)
  | cons x xs ih =>
      cases ys with
      | nil => exact absurd (List.cons.inj h).1.symm (List.ne_of_not_mem_cons hx)
      | cons y ys =>
          obtain ⟨rfl, hrest⟩ := List.cons.inj h
          obtain ⟨rfl, hafter⟩ := ih (List.not_mem_of_not_mem_cons hx) (List.not_mem_of_not_mem_cons hy) hrest
          exact ⟨rfl, hafter⟩

/-- The route key tells methods and paths apart. -/
theorem routeKeyOf_inj {m m' : HttpMethod} {p p' : String} :
    routeKeyOf m p = routeKeyOf m' p' ↔ m = m' ∧ p = p' := by
  constructor
  · intro h
    have hchars : m.name.toList ++ ':' :: p.toList = m'.name.toList ++ ':' :: p'.toList := by
      simpa [routeKeyOf] using congrArg String.toList h
    obtain ⟨hname, hpath⟩ := eq_of_append_cons m.token m'.token hchars
    refine ⟨?_, String.toList_inj.mp hpath⟩
    cases m
    cases m'
    cases String.toList_inj.mp hname
    rfl
  · rintro ⟨rfl, rfl⟩
    rfl

/-- The key of a request before the routers: its method and its path as it is spelled. -/
theorem Incoming.routeKey_eq (a : Incoming) : a.request.routeKey = routeKeyOf a.method a.path := rfl

section
variable {cfg : RateLimits} {env : Env} {req : HttpRequest} {counters : RateCounters}

theorem middleware_health (h : req.path = "/health") :
    rateLimitMiddleware cfg env req counters = (counters, .next none) := if_pos h

/-- A request takes the next number of its counter, unless it is exempt or its statement is rejected. -/
theorem middleware_counts (k : String × String × Timestamp) :
    ((rateLimitMiddleware cfg env req counters).1.lookup k).getD 0 =
      (counters.lookup k).getD 0 +
        if req.path ≠ "/health" ∧ env.fails = false ∧
          k = (req.identity, req.routeKey, cfg.windowStart env.now) then 1 else 0 := by
  unfold rateLimitMiddleware
  by_cases h : req.path = "/health"
  · simp [h]
  · rw [if_neg h]
    cases hf : env.fails with
    | true => simp
    | false =>
        rw [if_neg Bool.false_ne_true]
        simp only
        rw [Table.lookup_insert_ite]
        by_cases hk : k = (req.identity, req.routeKey, cfg.windowStart env.now)
        · subst hk
          simp [h]
        · simp [hk]

/-- A counted request is let through while its counter is below the limit. -/
theorem middleware_letThrough (h : req.path ≠ "/health") (hf : env.fails = false) :
    (rateLimitMiddleware cfg env req counters).2.letThrough =
      decide ((counters.lookup (req.identity, req.routeKey, cfg.windowStart env.now)).getD 0 <
        cfg.limit req.method) := by
  rw [rateLimitMiddleware, if_neg h, if_neg (by rw [hf]; exact Bool.false_ne_true)]
  simp only
  split
  · exact (decide_eq_false (by omega)).symm
  · exact (decide_eq_true (by omega)).symm

/-- A request is let through or answered 429, unless its statement is rejected. -/
theorem middleware_answers :
    ((rateLimitMiddleware cfg env req counters).2.letThrough = true ∨
        (rateLimitMiddleware cfg env req counters).2.statusCode = some 429) ↔
      (req.path = "/health" ∨ env.fails = false) := by
  by_cases h : req.path = "/health"
  · simp [middleware_health h, h, RateReply.letThrough]
  · unfold rateLimitMiddleware
    rw [if_neg h]
    cases hf : env.fails with
    | true => simp [h, RateReply.letThrough, RateReply.statusCode, internalServerError]
    | false =>
        rw [if_neg Bool.false_ne_true]
        simp only [h, false_or, iff_true]
        split
        · exact .inr rfl
        · exact .inl rfl

end

end JobScheduler
