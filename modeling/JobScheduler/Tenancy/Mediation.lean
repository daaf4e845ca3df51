/-
  JobScheduler.Tenancy.Mediation
  ──────────────────────────────
  What stands between a request and its handler.  Whatever the method and the path,
  only the handlers of /health, of / and of /auth are reached without
  `authMiddleware`, and a request for no route at all is answered 401 unless it
  is authentic.  `Routes.App` has the stack, `Tenancy.Authentication` says what
  `authMiddleware` comes to.
-/
import JobScheduler.Routes.App
import JobScheduler.Tenancy.Authentication
import JobScheduler.Throttling.PerRoute

namespace JobScheduler

open Relational Router Transition

/-! ## §1. The guards in front of a handler. -/

/-- The handlers that anybody may call. -/
def publicRoutes : List Route := healthRoute :: landingRoute :: authRoutes

/-- Routes without middleware are no gates. -/
theorem gates_routesOf (rs : List Route) (q : Target) : gates (routesOf rs) q = [] := by
  induction rs with
  | nil => rfl
  | cons r rs ih =>
      unfold routesOf gates
      split
      · rfl
      · exact ih

theorem guards_guardedStack : guards guardedStack = List.replicate 7 .auth := rfl

/-- The only gates before the guarded routes check the token. -/
theorem gates_guarded_auth {q : Target} {g : Middleware × Target} (h : g ∈ gates guardedStack q) :
    g.1 = .auth :=
  List.eq_of_mem_replicate (guards_guardedStack ▸ mem_guards_of_gates h)

/-- The router mounted at '/' meets every request that the router of /projects does not keep. -/
theorem gates_guarded_ne_nil (q : Target) : gates guardedStack q ≠ [] := by
  have hroot : ∀ rs rest, gates (.mount (Target.strip "/") (authenticated rs) rest) q ≠ [] := by
    intro rs rest
    have hstrip : Target.strip "/" q = some q := rfl
    cases hfind : find (authenticated rs) q with
    | some handler =>
        rw [gates_mount_kept hstrip hfind]
        exact List.cons_ne_nil _ _
    | none =>
        rw [gates_mount_passed hstrip hfind]
        exact List.cons_ne_nil _ _
  unfold guardedStack
  cases hstrip : Target.strip "/projects" q with
  | none =>
      rw [gates_mount_none hstrip]
      exact hroot _ _
  | some q' =>
      cases hfind : find (authenticated projectRoutes) q' with
      | some handler =>
          rw [gates_mount_kept hstrip hfind]
          exact List.cons_ne_nil _ _
      | none =>
          rw [gates_mount_passed hstrip hfind]
          exact List.cons_ne_nil _ _

/-- The guards that every request meets. -/
def frontGates (q : Target) : List (Middleware × Target) := [(.cors, q), (.json, q), (.rateLimit, q)]

theorem Route.of_takes {r r' : Route} {q : Target} (h : r.takes q = some (.ok r')) : r' = r := by
  obtain ⟨answer, hanswer, hok⟩ := Option.map_eq_some_iff.mp h
  cases answer with
  | error err => cases hok
  | ok r₀ =>
      cases hok
      unfold Route.answer at hanswer
      split at hanswer
      · cases hanswer
      · split at hanswer
        · exact (Except.ok.inj (Option.some.inj hanswer)).symm
        · cases hanswer

/-- What a public route takes is handled by a public route. -/
theorem public_of_takes {r : Route} {q : Target} {taken : Except Denial Route}
    (hpublic : r ∈ publicRoutes) (h : r.takes q = some taken) :
    ∀ r', taken = .ok r' → r' ∈ publicRoutes := by
  rintro r' rfl
  rwa [Route.of_takes h]

/-- A request is for a public route, or goes on to the routers that authenticate. -/
theorem gates_app (q : Target) :
    (∃ taken, find appStack q = some taken ∧ (∀ r, taken = .ok r → r ∈ publicRoutes) ∧
        gates appStack q = frontGates q) ∨
      (find appStack q = find guardedStack q ∧
        gates appStack q = frontGates q ++ gates guardedStack q) := by
  have hfront : ∀ rest, gates (.use .cors (.use .json (.use .rateLimit rest)) : AppStack) q =
      frontGates q ++ gates rest q := fun _ => rfl
  unfold appStack
  rw [hfront, find_use, find_use, find_use, find_route, find_route]
  cases hhealth : healthRoute.takes q with
  | some taken =>
      rw [gates_route_taken hhealth]
      exact .inl ⟨taken, rfl, public_of_takes (by decide) hhealth, List.append_nil _⟩
  | none =>
      rw [gates_route_passed hhealth, Option.none_or]
      cases hlanding : landingRoute.takes q with
      | some taken =>
          rw [gates_route_taken hlanding]
          exact .inl ⟨taken, rfl, public_of_takes (by decide) hlanding, List.append_nil _⟩
      | none =>
          rw [gates_route_passed hlanding, Option.none_or]
          cases hstrip : Target.strip "/auth" q with
          | none =>
              rw [find_mount_none hstrip, gates_mount_none hstrip]
              exact .inr ⟨rfl, rfl⟩
          | some q' =>
              rw [find_mount_some hstrip]
              cases hfind : find (routesOf authRoutes) q' with
              | some taken =>
                  obtain ⟨takes, hmem, htakes⟩ := exists_route_of_find hfind
                  rw [routes_routesOf] at hmem
                  obtain ⟨r, hr, rfl⟩ := List.mem_map.mp hmem
                  have hpublic : r ∈ publicRoutes :=
                    List.mem_cons_of_mem _ (List.mem_cons_of_mem _ hr)
                  rw [gates_mount_kept hstrip hfind, gates_routesOf]
                  exact .inl ⟨taken, rfl, public_of_takes hpublic htakes, List.append_nil _⟩
              | none =>
                  rw [gates_mount_passed hstrip hfind, gates_routesOf]
                  exact .inr ⟨rfl, rfl⟩

/-! ## §2. What they leave behind. -/

section
variable {cfg : RateLimits} {x : AppRequest} {s s' : Passage}

/-- Guards that are all `authMiddleware`: `req.user` is what the last of them has come to. -/
theorem runGates_auth {gs : List (Middleware × Target)} (hall : ∀ g ∈ gs, g.1 = .auth) (hne : gs ≠ [])
    (h : runGates (Middleware.guard cfg x) gs s = (s', none)) :
    ∃ i user, s.checks ≤ i ∧ i < s'.checks ∧ x.verdicts i = .ok user ∧ s'.user = some user := by
  induction gs generalizing s with
  | nil => exact absurd rfl hne
  | cons g gs ih =>
      obtain ⟨m, q⟩ := g
      obtain rfl : m = .auth := hall _ List.mem_cons_self
      rw [runGates, Middleware.guard] at h
      cases hv : x.verdicts s.checks with
      | error err =>
          simp only [hv] at h
          cases h
      | ok user =>
          simp only [hv] at h
          cases gs with
          | nil =>
              cases h
              exact ⟨s.checks, user, le_refl _, Nat.lt_succ_self _, hv, rfl⟩
          | cons g gs =>
              obtain ⟨i, last, hge, hlt, hi, huser⟩ :=
                ih (fun g hg => hall g (List.mem_cons_of_mem _ hg)) (List.cons_ne_nil _ _) h
              exact ⟨i, last, (Nat.le_succ _).trans hge, hlt, hi, huser⟩

/-- When `authMiddleware` accepts every time, all of them pass. -/
theorem runGates_accepted {gs : List (Middleware × Target)} (hall : ∀ g ∈ gs, g.1 = .auth)
    (hok : ∀ i, ∃ user, x.verdicts i = .ok user) :
    ∃ s', runGates (Middleware.guard cfg x) gs s = (s', none) := by
  induction gs generalizing s with
  | nil => exact ⟨s, rfl⟩
  | cons g gs ih =>
      obtain ⟨m, q⟩ := g
      obtain rfl : m = .auth := hall _ List.mem_cons_self
      obtain ⟨user, hv⟩ := hok s.checks
      rw [runGates, Middleware.guard]
      simp only [hv]
      exact ih (fun g hg => hall g (List.mem_cons_of_mem _ hg))

/-- With a readable body, below its limit and no preflight, a request gets to the routers. -/
theorem runGates_front {counters : RateCounters} (hmethod : x.incoming.method.name ≠ "OPTIONS")
    (hbody : x.bodyError = none)
    (hrate : (rateLimitMiddleware cfg x.incoming.env x.incoming.request counters).2.letThrough = true) :
    ∃ p, runGates (Middleware.guard cfg x) (frontGates x.target) ⟨counters, 0, none⟩ = (p, none) := by
  have hcors : x.target.method.name ≠ "OPTIONS" := hmethod
  simp only [frontGates, runGates, Middleware.guard, if_neg hcors, hbody, Option.map_none]
  cases hreply : (rateLimitMiddleware cfg x.incoming.env x.incoming.request counters).2 with
  | next headers => exact ⟨_, rfl⟩
  | limited headers err => rw [hreply] at hrate; cases hrate
  | failed err => rw [hreply] at hrate; cases hrate

/-- What the flat list gives to the request. -/
def AppRequest.routed (x : AppRequest) : Outcome Route Denial :=
  ((routing x.incoming.method x.incoming.path).map refusing).elim .passed .of

/-- Who passes the guards gets what the flat list gives. -/
theorem run_of_gates {counters : RateCounters} {p : Passage}
    (h : runGates (Middleware.guard cfg x) (gates appStack x.target) ⟨counters, 0, none⟩ = (p, none)) :
    x.run cfg counters = (p, x.routed) := by
  unfold AppRequest.run AppRequest.routed
  rw [run_eq, h, ← find_app]
  rfl

/-- The route that handles the request is the one that `dispatch` finds. -/
theorem dispatch_of_routed {r : Route} (h : x.routed = .handled r) :
    dispatch x.incoming.method x.incoming.path = some r := by
  unfold AppRequest.routed at h
  unfold dispatch
  cases hrouting : routing x.incoming.method x.incoming.path with
  | none => rw [hrouting] at h; cases h
  | some answer =>
      rw [hrouting] at h
      cases answer <;> cases h
      rfl

/-- A request that no route handles is found nowhere. -/
theorem routing_of_routed (h : x.routed = .passed) :
    routing x.incoming.method x.incoming.path = none := by
  unfold AppRequest.routed at h
  cases hrouting : routing x.incoming.method x.incoming.path with
  | none => rfl
  | some answer => rw [hrouting] at h; cases answer <;> cases h

/-- Who is not answered by a guard has passed them all. -/
theorem gates_of_run {counters : RateCounters}
    (h : ∀ denial, (x.run cfg counters).2 ≠ .answered denial) :
    runGates (Middleware.guard cfg x) (gates appStack x.target) ⟨counters, 0, none⟩ =
      ((x.run cfg counters).1, none) := by
  cases hgates : runGates (Middleware.guard cfg x) (gates appStack x.target) ⟨counters, 0, none⟩ with
  | mk p reply =>
      cases reply with
      | some denial =>
          refine absurd ?_ (h denial)
          unfold AppRequest.run
          rw [run_eq, hgates]
      | none => rw [run_of_gates hgates]

/-- A request that no gate answers goes where the routers send it. -/
theorem outcome_of_run {counters : RateCounters}
    (h : ∀ denial, (x.run cfg counters).2 ≠ .answered denial) :
    (x.run cfg counters).2 = x.routed :=
  congrArg Prod.snd (run_of_gates (gates_of_run h))

/-- A handler that is not public is reached after `authMiddleware`. -/
theorem checked_of_run {counters : RateCounters}
    (h : ∀ denial, (x.run cfg counters).2 ≠ .answered denial)
    (hprivate : ∀ r ∈ publicRoutes, (x.run cfg counters).2 ≠ .handled r) :
    ∃ i user, i < (x.run cfg counters).1.checks ∧ x.verdicts i = .ok user ∧
      (x.run cfg counters).1.user = some user := by
  have hgates := gates_of_run h
  have hout := outcome_of_run h
  rcases gates_app x.target with ⟨taken, htaken, hpublic, _⟩ | ⟨_, happ⟩
  · have hrouted : x.routed = .of taken := by
      rw [AppRequest.routed, ← find_app]
      exact congrArg (fun found => Option.elim found Outcome.passed Outcome.of) htaken
    rw [hrouted] at hout
    cases taken with
    | error denial => exact absurd hout (h denial)
    | ok r => exact absurd hout (hprivate r (hpublic r rfl))
  · rw [happ, runGates_append] at hgates
    split at hgates
    · cases hgates
    · obtain ⟨i, user, _, hlt, hi, huser⟩ :=
        runGates_auth (fun g hg => gates_guarded_auth hg) (gates_guarded_ne_nil _) hgates
      exact ⟨i, user, hlt, hi, huser⟩

end

/-! ## §3. The calls behind the verdicts. -/

/-- What a run of `authMiddleware` has come to. -/
def AuthCall.verdict : AuthCall → Option (Except AppError UserPayload)
  | .guard _ _ _ (.returned outcome) => some outcome
  | .refused err => some (.error err)
  | _ => none

theorem AuthCall.guard_of_verdict {user : UserPayload} (call : AuthCall)
    (h : call.verdict = some (.ok user)) :
    ∃ token decoded at_, call = .guard token decoded at_ (.returned (.ok user)) := by
  cases call with
  | guard token decoded at_ pc =>
      cases pc with
      | selectUser => cases h
      | returned outcome =>
          obtain rfl := Option.some.inj h
          exact ⟨token, decoded, at_, rfl⟩
  | refused err => cases h
  | register => cases h
  | login => cases h

/-- The call `pid` has been started with this `Authorization` header. -/
def StartedWith (tr : List (AuthSys × AuthAction)) (pid : Nat) (authHeader : Option String) : Prop :=
  ∃ t, (t, AuthAction.start pid (.guarded authHeader)) ∈ tr

/-- The i-th time that `authMiddleware` ran for the request it was the call `pids i`. -/
def Served (tr : List (AuthSys × AuthAction)) (s : AuthSys) (x : AppRequest) (pids : Nat → Nat)
    (checks : Nat) : Prop :=
  ∀ i < checks, StartedWith tr (pids i) x.authHeader ∧
    ∃ call, s.calls.lookup (pids i) = some call ∧ call.verdict = some (x.verdicts i)

/-- A call of `authMiddleware` was answered at once, or works on the token of its header. -/
def Bears (authHeader : Option String) : AuthCall → Prop
  | .refused _ => True
  | .guard token _ _ _ => bearerToken authHeader = some token
  | _ => False

section
variable {κ : Type} {cr : Credentials} {significant : String → κ} {expiresIn : Int}
variable {isEmail : String → Bool} {clock : Timestamp} {users₀ : Table UUID UserRow}
variable {tr : List (AuthSys × AuthAction)} {s s' : AuthSys} {a : AuthAction}

theorem bears_start (cr : Credentials) (isEmail : String → Bool) (now : Timestamp)
    (authHeader : Option String) :
    Bears authHeader ((AuthRequest.guarded authHeader).start cr isEmail now) := by
  simp only [AuthRequest.start]
  split
  · exact trivial
  · rename_i token htoken
    split
    · exact trivial
    · exact htoken

/-- A token check keeps the header it began with. -/
theorem Bears.step {env : Env} {users users' : Table UUID UserRow} {authHeader : Option String}
    {now : Timestamp} {call call' : AuthCall} (h : Bears authHeader call)
    (hstep : call.step cr now env users = some (users', call')) : Bears authHeader call' := by
  cases call with
  | register => cases h
  | login => cases h
  | guard token decoded at_ pc =>
      obtain ⟨pc', _, heq⟩ := Option.map_eq_some_iff.mp hstep
      cases heq
      exact h
  | refused err => cases hstep

/-- The check of a request is about that request's header. -/
theorem bears_run {s₀ : AuthSys} (hrun : AuthRun cr isEmail s₀ tr s) {pid : Nat}
    {authHeader : Option String}
    (hstart : StartedWith tr pid authHeader) :
    ∃ call, s.calls.lookup pid = some call ∧ Bears authHeader call := by
  obtain ⟨t, hmem⟩ := hstart
  obtain ⟨tr₁, tr₂, rfl⟩ := List.append_of_mem hmem
  obtain ⟨t', _, hstep, hrest⟩ := hrun.split_cons
  refine hrest.invariant (G := fun _ _ => True)
    (I := fun s => ∃ call, s.calls.lookup pid = some call ∧ Bears authHeader call) ?_
    (fun _ _ => trivial) ?_
  · rintro u b u' ⟨call, hcall, hbears⟩ _ hb
    cases AuthSys.stepped hb with
    | wait ms => exact ⟨call, hcall, hbears⟩
    | start k request hfree =>
        refine ⟨call, ?_, hbears⟩
        rw [AuthSys.put_calls, if_neg]
        · exact hcall
        · rintro rfl
          rw [hfree] at hcall
          cases hcall
    | run k env other other' users hother hnow hs =>
        rw [AuthSys.put_calls]
        by_cases hk : pid = k
        · subst hk
          obtain rfl := Option.some.inj (hcall.symm.trans hother)
          exact ⟨other', if_pos rfl, hbears.step hs⟩
        · exact ⟨call, (if_neg hk).trans hcall, hbears⟩
  · cases AuthSys.stepped hstep with
    | start k request hfree =>
        exact ⟨_, (AuthSys.put_calls _ _ _ _ _).trans (if_pos rfl),
          bears_start cr isEmail t.clock authHeader⟩

/-! ## §4. Complete mediation. -/

/-- What the application does with a request; `P` is what is known of `req.user`. -/
structure Mediated (cfg : RateLimits) (counters : RateCounters) (x : AppRequest)
    (P : UserPayload → Prop) : Prop where
  /-- A handler is that of the flat list. -/
  handled : ∀ r, (x.run cfg counters).2 = .handled r →
    dispatch x.incoming.method x.incoming.path = some r
  /-- An answer of 404 is given for no route. -/
  passed : (x.run cfg counters).2 = .passed → routing x.incoming.method x.incoming.path = none
  /-- The public handlers apart, nothing is reached without a user. -/
  user : (∀ denial, (x.run cfg counters).2 ≠ .answered denial) →
    (∀ r ∈ publicRoutes, (x.run cfg counters).2 ≠ .handled r) →
    ∃ user, (x.run cfg counters).1.user = some user ∧ P user
  /-- And nobody else is kept from what the flat list gives: a handler, the answer that there
  is none, or the answer that a parameter cannot be decoded. -/
  reached : x.incoming.method.name ≠ "OPTIONS" → x.bodyError = none →
    (rateLimitMiddleware cfg x.incoming.env x.incoming.request counters).2.letThrough = true →
    (∀ i, ∃ user, x.verdicts i = .ok user) →
    (x.run cfg counters).2 = x.routed

/-- **Complete mediation.**  For every method and path, and any interleaving of the calls of
`authMiddleware` with registrations, logins and each other: a handler that is not public,
and the answer that there is no handler, is reached only with an authentic `req.user` whose
token is in the header of the request; who passes the guards gets what the flat list gives. -/
theorem complete_mediation (hL : cr.Lawful significant expiresIn)
    (h₀ : ∀ i j r q, users₀.lookup i = some r → users₀.lookup j = some q → r.email = q.email → i = j)
    (hrun : AuthRun cr isEmail (AuthSys.atRest clock users₀) tr s)
    (hforge : ∀ y ∈ tr, y.2.forges cr y.1 = false) (cfg : RateLimits) (counters : RateCounters)
    (x : AppRequest)
    {pids : Nat → Nat} (hserved : Served tr s x pids (x.run cfg counters).1.checks) :
    Mediated cfg counters x (fun user => ∃ token at_, bearerToken x.authHeader = some token ∧
      Authentic cr significant expiresIn users₀ s token user at_) := by
  obtain ⟨hI, hG⟩ := tokensGiven_run h₀ hrun hforge
  refine ⟨?_, ?_, ?_, ?_⟩
  · intro r hr
    have hout := outcome_of_run (x := x) (fun denial h => by rw [hr] at h; cases h)
    exact dispatch_of_routed (hout.symm.trans hr)
  · intro hr
    have hout := outcome_of_run (x := x) (fun denial h => by rw [hr] at h; cases h)
    exact routing_of_routed (hout.symm.trans hr)
  · intro hopen hprivate
    obtain ⟨i, user, hlt, hi, huser⟩ := checked_of_run hopen hprivate
    -- the call behind the last verdict
    obtain ⟨hstart, call, hcall, hverdict⟩ := hserved i hlt
    obtain ⟨call', hcall', hbears⟩ := bears_run hrun hstart
    obtain rfl := Option.some.inj (hcall.symm.trans hcall')
    rw [hi] at hverdict
    obtain ⟨token, decoded, at_, rfl⟩ := call.guard_of_verdict hverdict
    exact ⟨user, huser, token, at_, hbears, hI.authentic hL hG hcall⟩
  · intro hmethod hbody hrate hok
    obtain ⟨p, hfront⟩ := runGates_front hmethod hbody hrate
    rcases gates_app x.target with ⟨_, _, _, happ⟩ | ⟨_, happ⟩
    · exact congrArg Prod.snd (run_of_gates (happ ▸ hfront))
    · have hauth :
          ∃ p', runGates (Middleware.guard cfg x) (gates guardedStack x.target) p = (p', none) :=
        runGates_accepted (fun g hg => gates_guarded_auth hg) hok
      obtain ⟨p', hauth⟩ := hauth
      refine congrArg Prod.snd (run_of_gates (p := p') ?_)
      rw [happ, runGates_append, hfront]
      exact hauth

end

/-- Two more runs of `authMiddleware` for the user of `authActions`. -/
def jobsActions : List AuthAction :=
  authActions ++ [.start 4 (.guarded (some "Bearer iiiiiiiii+.a")), .run 4 { now := 0 }]

/-- GET /Jobs/ of that user, which goes through the router of the queues to that of the jobs. -/
def jobsRequest : AppRequest where
  incoming := ⟨.get, "/Jobs/", none, { now := 0 }⟩
  authHeader := some "Bearer iiiiiiiii+.a"
  bodyError := none
  verdicts _ := .ok ⟨9, "a"⟩

theorem complete_mediation_jobs :
    (jobsRequest.run RateLimits.small ∅).2 = .handled ⟨"GET", "/", "/jobs"⟩ ∧
      Mediated RateLimits.small ∅ jobsRequest (fun user => ∃ token at_,
        bearerToken jobsRequest.authHeader = some token ∧
          Authentic Credentials.plain id 86400 ∅
            (play AuthSys.plainStep (AuthSys.atRest 0 ∅) jobsActions)
            token user at_) := by
  have hrun := run_of_play AuthSys.plainStep (AuthSys.atRest 0 ∅) jobsActions (by rfl)
  have hserved : Served (trace AuthSys.plainStep (AuthSys.atRest 0 ∅) jobsActions)
      (play AuthSys.plainStep (AuthSys.atRest 0 ∅) jobsActions) jobsRequest (fun i => 3 + i)
      (jobsRequest.run RateLimits.small ∅).1.checks := by
    have hchecks : (jobsRequest.run RateLimits.small ∅).1.checks = 2 := by rfl
    rw [hchecks]
    intro i hi
    obtain rfl | rfl : i = 0 ∨ i = 1 := by omega
    · exact ⟨⟨_, List.mem_of_getElem? (i := 7) rfl⟩, _, rfl, rfl⟩
    · exact ⟨⟨_, List.mem_of_getElem? (i := 9) rfl⟩, _, rfl, rfl⟩
  exact ⟨by rfl, complete_mediation Credentials.plain_lawful noUsers_emails hrun (by decide +kernel)
    RateLimits.small ∅ jobsRequest hserved⟩

end JobScheduler
