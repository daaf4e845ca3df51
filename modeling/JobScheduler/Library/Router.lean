/-
  JobScheduler.Library.Router
  ───────────────────────────
  Routers that are nested in routers.  A request goes through the layers in their
  order: a guard answers it or lets it pass, a route takes it, for its handler or to
  refuse it, and a mounted router has it first and hands it back when none of its
  routes takes it.

  `run_eq` takes a whole stack apart: the guards in front of a request, one after
  the other, and then the first route of a flat list.
-/
namespace Router

variable {G Q H ρ σ : Type}

/-! ## §1. Stacks. -/

/-- The layers of a router, in the order in which they were added. -/
inductive Stack (G Q H ρ : Type)
  | done
  | use (guard : G) (rest : Stack G Q H ρ)
  /-- `takes` gives a handler or a reply to the requests of the route. -/
  | route (takes : Q → Option (Except ρ H)) (rest : Stack G Q H ρ)
  /-- `strip` gives the request as the inner router sees it, if it is one for it. -/
  | mount (strip : Q → Option Q) (inner rest : Stack G Q H ρ)

/-- What has become of a request. -/
inductive Outcome (H ρ : Type)
  | passed
  | answered (reply : ρ)
  | handled (handler : H)
  deriving DecidableEq

/-- The outcome of a request that a route has taken. -/
def Outcome.of : Except ρ H → Outcome H ρ
  | .ok handler => .handled handler
  | .error reply => .answered reply

/-- What becomes of a request; a guard may answer it, and may change the state. -/
def run (guard : G → Q → σ → σ × Option ρ) : Stack G Q H ρ → Q → σ → σ × Outcome H ρ
  | .done, _, s => (s, .passed)
  | .use g rest, q, s =>
      match guard g q s with
      | (s', some reply) => (s', .answered reply)
      | (s', none) => run guard rest q s'
  | .route takes rest, q, s =>
      match takes q with
      | some taken => (s, .of taken)
      | none => run guard rest q s
  | .mount strip inner rest, q, s =>
      match strip q with
      | none => run guard rest q s
      | some q' =>
          match run guard inner q' s with
          | (s', .passed) => run guard rest q s'
          | stopped => stopped

/-! ## §2. Routes and guards apart. -/

/-- The routes of a stack and of the routers in it. -/
def routes : Stack G Q H ρ → List (Q → Option (Except ρ H))
  | .done => []
  | .use _ rest => routes rest
  | .route takes rest => takes :: routes rest
  | .mount strip inner rest =>
      (routes inner).map (fun takes q => (strip q).bind takes) ++ routes rest

/-- What the first route that takes the request gives to it. -/
def find (stack : Stack G Q H ρ) (q : Q) : Option (Except ρ H) := (routes stack).findSome? (· q)

/-- The guards that a request passes on its way to its route, or to the end. -/
def gates : Stack G Q H ρ → Q → List (G × Q)
  | .done, _ => []
  | .use g rest, q => (g, q) :: gates rest q
  | .route takes rest, q => if (takes q).isSome then [] else gates rest q
  | .mount strip inner rest, q =>
      match strip q with
      | none => gates rest q
      | some q' => if (find inner q').isSome then gates inner q' else gates inner q' ++ gates rest q

/-- All guards of a stack. -/
def guards : Stack G Q H ρ → List G
  | .done => []
  | .use g rest => g :: guards rest
  | .route _ rest => guards rest
  | .mount _ inner rest => guards inner ++ guards rest

/-- Guards one after the other, up to the first that answers. -/
def runGates (guard : G → Q → σ → σ × Option ρ) : List (G × Q) → σ → σ × Option ρ
  | [], s => (s, none)
  | (g, q) :: gs, s =>
      match guard g q s with
      | (s', some reply) => (s', some reply)
      | (s', none) => runGates guard gs s'

section
variable {guard : G → Q → σ → σ × Option ρ} {q : Q}

@[simp] theorem find_done : find (.done : Stack G Q H ρ) q = none := rfl

@[simp] theorem find_use (g : G) (rest : Stack G Q H ρ) : find (.use g rest) q = find rest q := rfl

/-- A route that takes the request answers it, else the search goes on. -/
theorem find_route (takes : Q → Option (Except ρ H)) (rest : Stack G Q H ρ) :
    find (.route takes rest) q = (takes q).or (find rest q) := by
  unfold find
  rw [routes, List.findSome?_cons]
  cases takes q <;> rfl

/-- A mounted stack is skipped outside its path. -/
theorem find_mount_none {strip : Q → Option Q} (h : strip q = none) (inner rest : Stack G Q H ρ) :
    find (.mount strip inner rest) q = find rest q := by
  have hnone : ((routes inner).map (fun takes q => (strip q).bind takes)).findSome? (· q) = none := by
    rw [List.findSome?_map, List.findSome?_eq_none_iff]
    intro takes _
    simp [h]
  unfold find
  rw [routes, List.findSome?_append, hnone, Option.none_or]

/-- Under its path a mounted stack is searched before the rest. -/
theorem find_mount_some {strip : Q → Option Q} {q' : Q} (h : strip q = some q')
    (inner rest : Stack G Q H ρ) :
    find (.mount strip inner rest) q = (find inner q').or (find rest q) := by
  have hinner : ((routes inner).map (fun takes q => (strip q).bind takes)).findSome? (· q) =
      find inner q' := by
    rw [List.findSome?_map, find]
    congr 1
    funext takes
    simp [h]
  rw [find, routes, List.findSome?_append, hinner]
  rfl

/-- Nothing is passed after the route that takes the request. -/
theorem gates_route_taken {takes : Q → Option (Except ρ H)} {taken : Except ρ H}
    (h : takes q = some taken) (rest : Stack G Q H ρ) : gates (.route takes rest) q = [] := by
  rw [gates, h]
  rfl

/-- A route that does not take the request is no gate. -/
theorem gates_route_passed {takes : Q → Option (Except ρ H)} (h : takes q = none)
    (rest : Stack G Q H ρ) : gates (.route takes rest) q = gates rest q := by
  rw [gates, h]
  rfl

/-- A mounted stack outside its path has no gates for the request. -/
theorem gates_mount_none {strip : Q → Option Q} (h : strip q = none) (inner rest : Stack G Q H ρ) :
    gates (.mount strip inner rest) q = gates rest q := by
  rw [gates, h]

/-- The inner router keeps the request. -/
theorem gates_mount_kept {strip : Q → Option Q} {q' : Q} {inner : Stack G Q H ρ}
    {taken : Except ρ H} (h : strip q = some q') (hfind : find inner q' = some taken)
    (rest : Stack G Q H ρ) :
    gates (.mount strip inner rest) q = gates inner q' := by
  rw [gates, h]
  simp [hfind]

/-- The inner router hands the request back. -/
theorem gates_mount_passed {strip : Q → Option Q} {q' : Q} {inner : Stack G Q H ρ}
    (h : strip q = some q') (hfind : find inner q' = none) (rest : Stack G Q H ρ) :
    gates (.mount strip inner rest) q = gates inner q' ++ gates rest q := by
  rw [gates, h]
  simp [hfind]

/-- A gate on the way is one of the guards of the stack. -/
theorem mem_guards_of_gates {stack : Stack G Q H ρ} {g : G × Q} (h : g ∈ gates stack q) :
    g.1 ∈ guards stack := by
  induction stack generalizing q with
  | done => cases h
  | use g' rest ih =>
      rcases List.mem_cons.mp h with heq | hrest
      · exact List.mem_cons.mpr (.inl (congrArg Prod.fst heq))
      · exact List.mem_cons_of_mem _ (ih hrest)
  | route takes rest ih =>
      cases ht : takes q with
      | some taken => simp [gates_route_taken ht] at h
      | none => exact ih (gates_route_passed ht rest ▸ h)
  | mount strip inner rest ihinner ihrest =>
      rw [guards, List.mem_append]
      cases hstrip : strip q with
      | none => exact .inr (ihrest (gates_mount_none hstrip inner rest ▸ h))
      | some q' =>
          cases hfind : find inner q' with
          | some taken => exact .inl (ihinner (gates_mount_kept hstrip hfind rest ▸ h))
          | none =>
              rw [gates_mount_passed hstrip hfind] at h
              exact (List.mem_append.mp h).imp ihinner ihrest

/-- What is found was given by one of the routes. -/
theorem exists_route_of_find {stack : Stack G Q H ρ} {taken : Except ρ H}
    (h : find stack q = some taken) : ∃ takes ∈ routes stack, takes q = some taken :=
  List.exists_of_findSome?_eq_some h

/-- Gates are passed in their order, and the first refusal ends it. -/
theorem runGates_append (gs hs : List (G × Q)) (s : σ) :
    runGates guard (gs ++ hs) s =
      match runGates guard gs s with
      | (s', some reply) => (s', some reply)
      | (s', none) => runGates guard hs s' := by
  induction gs generalizing s with
  | nil => rfl
  | cons g gs ih =>
      obtain ⟨g, q⟩ := g
      rw [List.cons_append, runGates, runGates]
      cases hg : guard g q s with
      | mk s' reply =>
          cases reply with
          | some reply => rfl
          | none => exact ih s'

/-- **Guards first, then the flat list of routes.**  What becomes of a request in a stack
of nested routers is decided by the guards in front of it, in their order, and, when none of
them answers, by the first route that takes it. -/
theorem run_eq (stack : Stack G Q H ρ) (q : Q) (s : σ) :
    run guard stack q s =
      match runGates guard (gates stack q) s with
      | (s', some reply) => (s', .answered reply)
      | (s', none) => (s', (find stack q).elim .passed .of) := by
  induction stack generalizing q s with
  | done => rfl
  | use g rest ih =>
      rw [run, gates, runGates]
      cases hg : guard g q s with
      | mk s' reply =>
          cases reply with
          | some reply => rfl
          | none => exact ih q s'
  | route takes rest ih =>
      rw [run, find_route]
      cases ht : takes q with
      | some taken =>
          rw [gates_route_taken ht]
          rfl
      | none =>
          rw [gates_route_passed ht]
          exact ih q s
  | mount strip inner rest ihinner ihrest =>
      rw [run]
      cases hstrip : strip q with
      | none =>
          rw [find_mount_none hstrip, gates_mount_none hstrip]
          exact ihrest q s
      | some q' =>
          rw [find_mount_some hstrip]
          simp only [ihinner q' s]
          cases hfind : find inner q' with
          | some taken =>
              rw [gates_mount_kept hstrip hfind]
              cases runGates guard (gates inner q') s with
              | mk s' reply =>
                  cases reply with
                  | some reply => rfl
                  | none => cases taken <;> rfl
          | none =>
              rw [gates_mount_passed hstrip hfind, runGates_append]
              cases runGates guard (gates inner q') s with
              | mk s' reply =>
                  cases reply with
                  | some reply => rfl
                  | none => exact ihrest q s'

end

end Router
