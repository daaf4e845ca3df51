/-
  JobScheduler.Routes.App
  ───────────────────────
  `app.ts`: the middlewares, the routers and where they are mounted.  All routers
  but that of /auth begin with `router.use(authMiddleware)`, and three of them are
  mounted at '/', so a request can meet `authMiddleware` several times, and a
  request for no route at all meets it too.

  `routing` of `Routes.RateLimit` has the routes as a flat list; `find_app` says
  that the nested routers find the same.
-/
import JobScheduler.Library.Router
import JobScheduler.Routes.Auth
import JobScheduler.Routes.RateLimit

namespace JobScheduler

open Relational Router

/-! ## §1. The application. -/

/-- What the layers match on; `path` is what the mounts above have left of it. -/
structure Target where
  method : HttpMethod
  path : List Char

/-- The middleware that `app.ts` mounts. -/
inductive Middleware
  | cors | json | rateLimit | auth
  deriving DecidableEq

/-- A reply that is not that of a handler. -/
inductive Denial
  /-- `cors()` answers every OPTIONS request. -/
  | preflight
  | refused (err : AppError)

/-- The layers of `app`. -/
abbrev AppStack := Stack Middleware Target Route Denial

/-- `errorHandler` answers what a layer throws. -/
def refusing (answer : Except AppError Route) : Except Denial Route := answer.mapError .refused

/-- `router.get(path, ...)` and the like. -/
def Route.takes (r : Route) (q : Target) : Option (Except Denial Route) :=
  (r.answer q.method q.path).map refusing

/-- The request as a router sees it that is mounted at `mount`. -/
def Target.strip (mount : String) (q : Target) : Option Target :=
  (stripMount mount.toList q.path).map (fun rest => ⟨q.method, rest⟩)

/-- A router with these routes. -/
def routesOf : List Route → AppStack
  | [] => .done
  | r :: rs => .route r.takes (routesOf rs)

/-- `router.use(authMiddleware)`, and then the routes. -/
def authenticated (rs : List Route) : AppStack := .use .auth (routesOf rs)

/-- `app.get('/health')`. -/
def healthRoute : Route := ⟨"GET", "/", "/health"⟩

/-- `app.get('/')`. -/
def landingRoute : Route := ⟨"GET", "/", "/"⟩

/-- The routes of `auth.routes.ts`. -/
def authRoutes : List Route := [⟨"POST", "/auth", "/register"⟩, ⟨"POST", "/auth", "/login"⟩]

/-- The routes of `projects.routes.ts`. -/
def projectRoutes : List Route :=
  [⟨"GET", "/projects", "/"⟩, ⟨"POST", "/projects", "/"⟩, ⟨"GET", "/projects", "/:id"⟩,
    ⟨"DELETE", "/projects", "/:id"⟩, ⟨"GET", "/projects", "/:id/members"⟩,
    ⟨"POST", "/projects", "/:id/members"⟩]

/-- The routes of `queues.routes.ts`. -/
def queueRoutes : List Route :=
  [⟨"POST", "/", "/projects/:projectId/queues"⟩, ⟨"GET", "/", "/queues"⟩, ⟨"GET", "/", "/queues/:id"⟩,
    ⟨"PATCH", "/", "/queues/:id"⟩, ⟨"GET", "/", "/queues/:id/stats"⟩, ⟨"GET", "/", "/retry-policies"⟩]

/-- The routes of `jobs.routes.ts`. -/
def jobRoutes : List Route :=
  [⟨"POST", "/", "/queues/:queueId/jobs"⟩, ⟨"GET", "/", "/jobs"⟩, ⟨"GET", "/", "/jobs/:id"⟩,
    ⟨"GET", "/", "/jobs/:id/executions"⟩, ⟨"GET", "/", "/jobs/:id/logs"⟩,
    ⟨"GET", "/", "/jobs/:id/dependencies"⟩, ⟨"POST", "/", "/jobs/:id/retry"⟩]

/-- The routes of `batches.routes.ts`. -/
def batchRoutes : List Route :=
  [⟨"GET", "/", "/batches"⟩, ⟨"GET", "/", "/batches/:id"⟩, ⟨"GET", "/", "/batches/:id/jobs"⟩,
    ⟨"POST", "/", "/batches/:id/cancel"⟩]

/-- The routes of `workers.routes.ts`. -/
def workerRoutes : List Route := [⟨"GET", "/workers", "/"⟩, ⟨"GET", "/workers", "/:id/heartbeats"⟩]

/-- The routes of `dlq.routes.ts`. -/
def dlqRoutes : List Route := [⟨"GET", "/dlq", "/"⟩, ⟨"POST", "/dlq", "/:id/replay"⟩]

/-- The routes of `events.routes.ts`. -/
def eventRoutes : List Route := [⟨"GET", "/events", "/"⟩]

/-- The routers from `app.use('/projects', projectRoutes)` on. -/
def guardedStack : AppStack :=
  .mount (Target.strip "/projects") (authenticated projectRoutes) <|
  .mount (Target.strip "/") (authenticated queueRoutes) <|
  .mount (Target.strip "/") (authenticated jobRoutes) <|
  .mount (Target.strip "/") (authenticated batchRoutes) <|
  .mount (Target.strip "/workers") (authenticated workerRoutes) <|
  .mount (Target.strip "/dlq") (authenticated dlqRoutes) <|
  .mount (Target.strip "/events") (authenticated eventRoutes) <|
  .done

/-- The whole of `app`. -/
def appStack : AppStack :=
  .use .cors <| .use .json <| .use .rateLimit <|
  .route healthRoute.takes <| .route landingRoute.takes <|
  .mount (Target.strip "/auth") (routesOf authRoutes) guardedStack

/-! ## §2. One request. -/

/-- A request, and what its middlewares meet. -/
structure AppRequest where
  incoming : Incoming
  authHeader : Option String
  /-- The error of `express.json()`, when the body is none. -/
  bodyError : Option String
  /-- What `authMiddleware` comes to the first time, the second time, and so on. -/
  verdicts : Nat → Except AppError UserPayload

/-- The method and the path that the router matches on. -/
def AppRequest.target (x : AppRequest) : Target := ⟨x.incoming.method, x.incoming.path.toList⟩

/-- What the middlewares leave for the handler. -/
structure Passage where
  counters : RateCounters
  /-- How often `authMiddleware` has run. -/
  checks : Nat
  user : Option UserPayload

/-- What a middleware does with a request: it answers, or it leaves something for the handler. -/
def Middleware.guard (cfg : RateLimits) (x : AppRequest) :
    Middleware → Target → Passage → Passage × Option Denial
  | .cors, q, s => (s, if q.method.name = "OPTIONS" then some .preflight else none)
  | .json, _, s => (s, x.bodyError.map (fun message => .refused (internalServerError message)))
  | .rateLimit, _, s =>
      let r := rateLimitMiddleware cfg x.incoming.env x.incoming.request s.counters
      ({ s with counters := r.1 },
        match r.2 with
        | .next _ => none
        | .limited _ err => some (.refused err)
        | .failed err => some (.refused err))
  | .auth, _, s =>
      match x.verdicts s.checks with
      | .error err => ({ s with checks := s.checks + 1 }, some (.refused err))
      | .ok user => ({ s with checks := s.checks + 1, user := some user }, none)

/-- The request on its way through the application; `passed` is answered 404. -/
def AppRequest.run (cfg : RateLimits) (counters : RateCounters) (x : AppRequest) :
    Passage × Outcome Route Denial :=
  Router.run (Middleware.guard cfg x) appStack x.target ⟨counters, 0, none⟩

/-! ## §3. The handler. -/

/-- A router without middleware has its routes in their order. -/
theorem routes_routesOf (rs : List Route) : routes (routesOf rs) = rs.map Route.takes := by
  induction rs with
  | nil => rfl
  | cons r rs ih => rw [routesOf, routes, ih, List.map_cons]

theorem routes_authenticated (rs : List Route) : routes (authenticated rs) = rs.map Route.takes :=
  routes_routesOf rs

/-- Of the mounts on the way and the path that is left, the route makes one pattern. -/
theorem strip_takes {r : Route} {mount : String} (h : r.mount = mount) (method : HttpMethod)
    (path : String) :
    (Target.strip mount ⟨method, path.toList⟩).bind r.takes = (r.handles method path).map refusing := by
  subst h
  unfold Target.strip Route.handles
  cases stripMount r.mount.toList path.toList <;> rfl

/-- What the routes say to the request. -/
def judged (stack : AppStack) (q : Target) : List (Option (Except Denial Route)) :=
  (routes stack).map (· q)

/-- The first route that takes the request decides. -/
theorem find_eq_judged (stack : AppStack) (q : Target) :
    find stack q = (judged stack q).findSome? id := by
  unfold find judged
  rw [List.findSome?_map]
  rfl

/-- `app.use(mount, router)`. -/
theorem judged_mount {mount : String} {inner : AppStack} {rs : List Route}
    (hinner : routes inner = rs.map Route.takes) (h : ∀ r ∈ rs, r.mount = mount)
    (rest : AppStack) (method : HttpMethod) (path : String) :
    judged (.mount (Target.strip mount) inner rest) ⟨method, path.toList⟩ =
      rs.map (fun r => (r.handles method path).map refusing) ++ judged rest ⟨method, path.toList⟩ := by
  unfold judged
  rw [routes, List.map_append, hinner, List.map_map, List.map_map]
  congr 1
  exact List.map_congr_left (fun r hr => strip_takes (h r hr) method path)

/-- The routes behind the token, in the order of `app.ts`. -/
theorem judged_guarded (method : HttpMethod) (path : String) :
    judged guardedStack ⟨method, path.toList⟩ =
      (projectRoutes ++ (queueRoutes ++ (jobRoutes ++ (batchRoutes ++ (workerRoutes ++ (dlqRoutes ++
        eventRoutes)))))).map (fun r => (r.handles method path).map refusing) := by
  unfold guardedStack
  rw [judged_mount (routes_authenticated projectRoutes) (by decide),
    judged_mount (routes_authenticated queueRoutes) (by decide),
    judged_mount (routes_authenticated jobRoutes) (by decide),
    judged_mount (routes_authenticated batchRoutes) (by decide),
    judged_mount (routes_authenticated workerRoutes) (by decide),
    judged_mount (routes_authenticated dlqRoutes) (by decide),
    judged_mount (routes_authenticated eventRoutes) (by decide)]
  simp only [List.map_append]
  rfl

/-- **The nested routers find what the flat list gives.** -/
theorem find_app (method : HttpMethod) (path : String) :
    find appStack ⟨method, path.toList⟩ = (routing method path).map refusing := by
  have hhealth :
      healthRoute.takes ⟨method, path.toList⟩ = (healthRoute.handles method path).map refusing := rfl
  have hlanding :
      landingRoute.takes ⟨method, path.toList⟩ = (landingRoute.handles method path).map refusing := rfl
  have hroutes : judged appStack ⟨method, path.toList⟩ =
      appRoutes.map (fun r => (r.handles method path).map refusing) := by
    show healthRoute.takes ⟨method, path.toList⟩ :: landingRoute.takes ⟨method, path.toList⟩ ::
      judged (.mount (Target.strip "/auth") (routesOf authRoutes) guardedStack)
        ⟨method, path.toList⟩ = _
    rw [judged_mount (routes_routesOf authRoutes) (by decide), judged_guarded, hhealth, hlanding]
    rfl
  rw [find_eq_judged, hroutes, List.findSome?_map, routing, List.map_findSome?]
  rfl

end JobScheduler
