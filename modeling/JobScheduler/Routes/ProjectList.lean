/-
  JobScheduler.Routes.ProjectList
  ───────────────────────────────
  GET /projects (`projects.routes.ts`) with the variables of its handler: the
  pagination, `total` and the answer; and any number of such requests of one user
  over one database, statement by statement.

  `total` is the COUNT, or 1 once the request has seeded.
-/
import JobScheduler.Routes.Accounts
import JobScheduler.Routes.Pagination

namespace JobScheduler

open Relational Transition

/-! ## §1. The projects of a user. -/

/-- The joins with `organization_members` of the COUNT and of the list. -/
def Db.sees (db : Db) (userId : UUID) (p : Project) : Bool := (db.roleIn p.orgId userId).isSome

/-- `SELECT COUNT(*) FROM projects p JOIN ... WHERE om.user_id = $1`. -/
def Db.projectCount (db : Db) (userId : UUID) : Nat := db.projects.count (fun _ p => db.sees userId p)

/-- `p.*, o.name as org_name`. -/
structure ProjectRow where
  id : UUID
  orgId : UUID
  name : Option String
  orgName : Option String

/-- The rows of the list; a table has its newest row first. -/
def Store.projectRows (st : Store) (userId : UUID) : List ProjectRow :=
  (st.db.projects.select (fun _ p => st.db.sees userId p)).map (fun e =>
    { id := e.1
      orgId := e.2.orgId
      name := st.directory.projectNames.lookup e.1
      orgName := (st.directory.organizations.lookup e.2.orgId).map (·.name) })

/-! ## §2. One request. -/

/-- A request GET /projects with its page and what its SELECTs have read. -/
structure ProjectListing where
  request : ListProjects
  pagination : Pagination
  total : Nat := 0
  response : Option (Page ProjectRow) := none

namespace ProjectListing

/-- What the handler keeps of the statement that led to `r`. -/
def keep (c : ProjectListing) (st : Store) (r : ListProjects) : ProjectListing :=
  match r.pc with
  | .replied (.failure _) => { c with request := r }
  | _ =>
      match c.request.pc with
      | .count => { c with request := r, total := st.db.projectCount c.request.userId }
      | .insertQueue _ => { c with request := r, total := 1 }
      | .list =>
          { c with
            request := r
            response := some (buildPaginatedResponse
              (slice (st.projectRows c.request.userId) c.pagination.limit c.pagination.offset)
              c.total c.pagination) }
      | _ => { c with request := r }

/-- One statement of the request, with what it reads for the answer. -/
def step (env : Env) (c : ProjectListing) (st : Store) : Option (Store × ProjectListing) :=
  (c.request.step env st).map (fun p => (p.1, c.keep st p.2))

end ProjectListing

/-! ## §3. Concurrent requests. -/

/-- The requests of one user. -/
structure Listings where
  store : Store
  calls : Table Nat ProjectListing

/-- A request arrives, or sends its next statement. -/
inductive ListingsAction
  | start (pid : Nat) (pagination : Pagination)
  | statement (pid : Nat) (env : Env)

namespace Listings

/-- The store before any request. -/
def initial (st : Store) : Listings where
  store := st
  calls := ∅

/-- One action of the requests of one user. -/
def step (userId : UUID) (s : Listings) : ListingsAction → Option Listings
  | .start pid pagination =>
      if pid ∈ s.calls then none
      else some { s with calls := s.calls.insert pid ⟨{ userId := userId }, pagination, 0, none⟩ }
  | .statement pid env =>
      match s.calls.lookup pid with
      | none => none
      | some c => (c.step env s.store).map (fun p =>
          { store := p.1, calls := s.calls.insert pid p.2 })

/-- Every request has returned. -/
def Returned (s : Listings) : Prop :=
  s.calls.all (fun _ c => match c.request.pc with
    | .replied _ => true
    | _ => false) = true

end Listings

/-- Runs of the user's requests. -/
abbrev ListingsRun (userId : UUID) (st : Store) (tr : List (Listings × ListingsAction))
    (s : Listings) : Prop :=
  Run (Listings.step userId) (Listings.initial st) tr s

end JobScheduler
