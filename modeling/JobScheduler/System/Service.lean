/-
  JobScheduler.System.Service
  ───────────────────────────
  The whole service: the clients of `System.State` and, on the same database,
  the requests that create organisations, projects, queues and memberships and
  delete projects.  Any statement of any client may come next.

  Rows go away here.  An INSERT whose foreign keys do not hold is rejected, the
  DELETE of a project waits for the row locks of open claims, and no row is
  created under the id of a deleted one.
-/
import JobScheduler.Routes.Accounts
import JobScheduler.System.Operations

namespace JobScheduler

open Relational Transition

/-! ## §1. Account clients. -/

/-- A request of the account routes under way. -/
inductive AccountCall
  | createProject (r : CreateProject)
  | listProjects (r : ListProjects)
  | deleteProject (r : DeleteProject)
  | addMember (r : AddMember)
  | createQueue (r : CreateQueue)

/-- A request of the account routes as it arrives. -/
inductive AccountRequest
  | createProject (userId : UUID) (email name : String) (orgName : Option String)
  | listProjects (userId : UUID)
  | deleteProject (userId projectId : UUID)
  | addMember (userId projectId : UUID) (email role : Option String)
  | createQueue (userId projectId : UUID) (input : CreateQueueInput)

/-- The request before its first statement. -/
def AccountRequest.start : AccountRequest → AccountCall
  | .createProject userId email name orgName =>
      .createProject { userId := userId, email := email, name := name, orgName := orgName }
  | .listProjects userId => .listProjects { userId := userId }
  | .deleteProject userId projectId => .deleteProject { userId := userId, projectId := projectId }
  | .addMember userId projectId email role =>
      .addMember { userId := userId, projectId := projectId, email := email, role := role }
  | .createQueue userId projectId input =>
      .createQueue { userId := userId, projectId := projectId, input := input }

namespace AccountCall

/-- The user who sent the request. -/
def userId : AccountCall → UUID
  | .createProject r => r.userId
  | .listProjects r => r.userId
  | .deleteProject r => r.userId
  | .addMember r => r.userId
  | .createQueue r => r.userId

/-- The request's next statement. -/
def step (cfg : Config) (ctx : Ctx) (env : Env) (st : Store) : AccountCall → Option (Store × AccountCall)
  | .createProject r => (r.step env st).map (fun x => (x.1, .createProject x.2))
  | .listProjects r => (r.step env st).map (fun x => (x.1, .listProjects x.2))
  | .deleteProject r => (r.step ctx env st).map (fun x => (x.1, .deleteProject x.2))
  | .addMember r => (r.step env st).map (fun x => (x.1, .addMember x.2))
  | .createQueue r => (r.step cfg env st).map (fun x => (x.1, .createQueue x.2))

/-- What a statement of a request is: one of its handler's. -/
inductive Stepped (cfg : Config) (ctx : Ctx) (env : Env) (st st' : Store) :
    AccountCall → AccountCall → Prop
  | createProject (r r' : CreateProject) (hq : r.step env st = some (st', r')) :
      Stepped cfg ctx env st st' (.createProject r) (.createProject r')
  | listProjects (r r' : ListProjects) (hq : r.step env st = some (st', r')) :
      Stepped cfg ctx env st st' (.listProjects r) (.listProjects r')
  | deleteProject (r r' : DeleteProject) (hq : r.step ctx env st = some (st', r')) :
      Stepped cfg ctx env st st' (.deleteProject r) (.deleteProject r')
  | addMember (r r' : AddMember) (hq : r.step env st = some (st', r')) :
      Stepped cfg ctx env st st' (.addMember r) (.addMember r')
  | createQueue (r r' : CreateQueue) (hq : r.step cfg env st = some (st', r')) :
      Stepped cfg ctx env st st' (.createQueue r) (.createQueue r')

theorem stepped {cfg : Config} {ctx : Ctx} {env : Env} {st st' : Store} {a a' : AccountCall}
    (h : a.step cfg ctx env st = some (st', a')) : Stepped cfg ctx env st st' a a' := by
  cases a <;> obtain ⟨⟨d, q⟩, hq, he⟩ := Option.map_eq_some_iff.mp h <;> cases he
  case createProject r => exact .createProject r q hq
  case listProjects r => exact .listProjects r q hq
  case deleteProject r => exact .deleteProject r q hq
  case addMember r => exact .addMember r q hq
  case createQueue r => exact .createQueue r q hq

end AccountCall

/-! ## §2. The service. -/

/-- A client of the account routes and the time its previous statement took effect. -/
structure AccountClient where
  since : Timestamp
  account : AccountCall

/-- The system with the account tables and the clients that write them. -/
structure Service where
  sys : Sys
  directory : Directory
  accounts : Table Nat AccountClient
  /-- The ids of the deleted projects, queues, batches and jobs. -/
  retired : Finset UUID

/-- A step of the system, or of an account request. -/
inductive ServiceAction
  | act (a : Action)
  /-- A new account request arrives. -/
  | request (pid : Nat) (r : AccountRequest)
  /-- The account request executes its next statement. -/
  | serve (pid : Nat) (env : Env)

/-- The keys of the first table that the second one does not have. -/
def lostKeys {α : Type} (t u : Table UUID α) : Finset UUID := t.keys.toFinset \ u.keys.toFinset

/-- The ids that a statement has deleted. -/
def Db.lost (db db' : Db) : Finset UUID :=
  lostKeys db.projects db'.projects ∪ lostKeys db.queues db'.queues
    ∪ lostKeys db.batches db'.batches ∪ lostKeys db.jobs db'.jobs

namespace Service

/-- The database of the service. -/
def db (v : Service) : Db := v.sys.db

/-- The tables that an account request reads and writes. -/
def store (v : Service) : Store := ⟨v.sys.db, v.directory⟩

/-- The program of an account request. -/
def account (v : Service) (pid : Nat) : Option AccountCall := (v.accounts.lookup pid).map (·.account)

/-- The action can be taken. -/
def admits (v : Service) : Action → Bool
  | .run pid env =>
      decide (env.fresh ∉ v.retired)
        && (v.sys.proc pid).all (fun p => env.fails || p.referencesHold v.sys.db)
  | _ => true

/-- The service after account request `pid` has become `a` and the tables `st`. -/
def put (v : Service) (pid : Nat) (st : Store) (a : AccountCall) : Service where
  sys := { v.sys with db := st.db }
  directory := st.directory
  accounts := v.accounts.insert pid { since := v.sys.clock, account := a }
  retired := v.retired ∪ v.sys.db.lost st.db

/-- One action of the service; `none` where it cannot happen. -/
def step (cfg : Config) (v : Service) : ServiceAction → Option Service
  | .act a =>
      if v.admits a then (JobScheduler.step cfg v.sys a).map (fun s => { v with sys := s }) else none
  | .request pid r => if pid ∈ v.accounts then none else some (v.put pid v.store r.start)
  | .serve pid env =>
      match v.accounts.lookup pid with
      | none => none
      | some client =>
          if client.since ≤ env.now ∧ env.now ≤ v.sys.clock ∧ env.fresh ∉ v.retired then
            (client.account.step cfg v.sys.ctx env v.store).map (fun x => v.put pid x.1 x.2)
          else none

/-- A service at rest: any tables, no client, no deleted row. -/
def atRest (clock : Timestamp) (db : Db) (directory : Directory) : Service :=
  ⟨Sys.atRest clock db, directory, ∅, ∅⟩

end Service

/-- Runs of the service. -/
abbrev ServiceRun (cfg : Config) (v₀ : Service) (tr : List (Service × ServiceAction))
    (v : Service) : Prop :=
  Transition.Run (Service.step cfg) v₀ tr v

/-! ## §3. Inversion of one step. -/

/-- What the three kinds of action do to the service. -/
inductive Service.Stepped (cfg : Config) (v : Service) : ServiceAction → Service → Prop
  | acted (a : Action) (s' : Sys) (hadm : v.admits a = true)
      (hs : JobScheduler.step cfg v.sys a = some s') : Stepped cfg v (.act a) { v with sys := s' }
  | requested (pid : Nat) (r : AccountRequest) (hfree : v.account pid = none) :
      Stepped cfg v (.request pid r) (v.put pid v.store r.start)
  | served (pid : Nat) (env : Env) (a a' : AccountCall) (st' : Store) (ha : v.account pid = some a)
      (hfresh : env.fresh ∉ v.retired)
      (hs : a.step cfg v.sys.ctx env v.store = some (st', a')) :
      Stepped cfg v (.serve pid env) (v.put pid st' a')

theorem Service.stepped {cfg : Config} {v v' : Service} {o : ServiceAction}
    (h : v.step cfg o = some v') : Service.Stepped cfg v o v' := by
  cases o with
  | act a =>
      simp only [Service.step] at h
      split at h
      · obtain ⟨s', hs, rfl⟩ := Option.map_eq_some_iff.mp h
        exact .acted a s' ‹_› hs
      · cases h
  | request pid r =>
      simp only [Service.step] at h
      split at h
      · cases h
      · rename_i hfree
        obtain rfl := Option.some.inj h
        refine .requested pid r ?_
        rw [Service.account, AList.lookup_eq_none.mpr hfree]
        rfl
  | serve pid env =>
      simp only [Service.step] at h
      cases hc : v.accounts.lookup pid with
      | none => simp [hc] at h
      | some client =>
          simp only [hc] at h
          split at h
          · rename_i hnow
            obtain ⟨⟨st', a'⟩, hs, rfl⟩ := Option.map_eq_some_iff.mp h
            exact .served pid env client.account a' st' (by simp [Service.account, hc]) hnow.2.2 hs
          · cases h

namespace Service

/-- Storing a call leaves the other calls. -/
theorem put_account (v : Service) (pid k : Nat) (st : Store) (a : AccountCall) :
    (v.put pid st a).account k = if k = pid then some a else v.account k := by
  unfold account put
  rw [Table.lookup_insert_ite]
  split <;> rfl

@[simp] theorem put_proc (v : Service) (pid : Nat) (st : Store) (a : AccountCall) (k : Nat) :
    (v.put pid st a).sys.proc k = v.sys.proc k := rfl

@[simp] theorem atRest_account (clock : Timestamp) (db : Db) (directory : Directory) (k : Nat) :
    (atRest clock db directory).account k = none := rfl

variable {v : Service} {pid k : Nat} {env : Env} {p : Proc}

/-- A statement is admitted with a new id and with its references in place. -/
theorem admits_run (h : v.admits (.run pid env) = true) (hp : v.sys.proc pid = some p) :
    env.fresh ∉ v.retired ∧ (env.fails = false → p.referencesHold v.sys.db = true) := by
  simp only [admits, hp, Option.all_some, Bool.and_eq_true, decide_eq_true_eq,
    Bool.or_eq_true] at h
  exact ⟨h.1, fun hf => by simpa [hf] using h.2⟩

end Service

/-! ## §4. What one statement of a request writes. -/

@[simp] theorem Store.setDb_db (st : Store) (db : Db) : (st.setDb db).db = db := rfl

@[simp] theorem Store.setDb_directory (st : Store) (db : Db) : (st.setDb db).directory = st.directory := rfl

@[simp] theorem Store.setDb_self (st : Store) : st.setDb st.db = st := rfl

@[simp] theorem Store.insertOrganization_db (st : Store) (id : UUID) (row : Organization) :
    (st.insertOrganization id row).db = st.db := rfl

namespace AccountCall

/-- The request is about to seat its user as owner of the organisation. -/
def seats (orgId : UUID) : AccountCall → Prop
  | .createProject r => r.pc = .insertMember orgId
  | .listProjects r => r.pc = .insertMember orgId
  | _ => False

/-- The request is about to insert a project of the organisation. -/
def founds (orgId : UUID) : AccountCall → Prop
  | .createProject r => r.pc = .insertProject orgId
  | .listProjects r => r.pc = .insertProject orgId
  | _ => False

/-- The request is about to insert the first queue of the project. -/
def equips (projectId : UUID) : AccountCall → Prop
  | .createProject r => r.pc = .insertQueue projectId
  | .listProjects r => r.pc = .insertQueue projectId
  | _ => False

/-- What the statement at the program point of a request writes. -/
inductive Written (ctx : Ctx) (env : Env) (st : Store) : AccountCall → Store → Prop
  | nothing (a : AccountCall) : Written ctx env st a st
  | event (a : AccountCall) (ev : SystemEvent) : Written ctx env st a (st.setDb (st.db.insertEvent ev))
  | organization (a : AccountCall) (row : Organization)
      (hfresh : env.fresh ∉ st.directory.organizations) (howner : row.ownerId = a.userId) :
      Written ctx env st a (st.insertOrganization env.fresh row)
  | owner (a : AccountCall) (orgId : UUID) (hseats : a.seats orgId) (db' : Db)
      (hdb : db' = st.db.upsertMember ⟨orgId, a.userId, .owner⟩ ∨
        db' = st.db.insertMember ⟨orgId, a.userId, .owner⟩) : Written ctx env st a (st.setDb db')
  | member (r : AddMember) (role : OrgRole) (orgId target : UUID) (hpc : r.pc = .upsert role)
      (hf : env.fails = false) (htarget : r.targets st = some (orgId, target)) :
      Written ctx env st (.addMember r) (st.setDb (st.db.upsertMember ⟨orgId, target, role⟩))
  | project (a : AccountCall) (orgId : UUID) (name : String) (hfounds : a.founds orgId)
      (hfresh : env.fresh ∉ st.db.projects) :
      Written ctx env st a (st.insertProject env.fresh orgId name)
  | firstQueue (a : AccountCall) (projectId : UUID) (name : String) (hequips : a.equips projectId)
      (hproject : projectId ∈ st.db.projects) (hfresh : env.fresh ∉ st.db.queues) :
      Written ctx env st a (st.setDb (st.db.insertQueue env.fresh (Queue.first projectId name)))
  | queue (r : CreateQueue) (hpc : r.pc = .insertQueue) (hproject : r.projectId ∈ st.db.projects)
      (hfresh : env.fresh ∉ st.db.queues) :
      Written ctx env st (.createQueue r) (st.setDb (st.db.insertQueue env.fresh r.row))
  | deleted (r : DeleteProject) (directory : Directory) (hreply : r.reply = none)
      (hcan : st.db.canDelete r.projectId r.userId = true) (hfree : r.rowsFree ctx st.db = true)
      (horgs : directory.organizations = st.directory.organizations)
      (husers : directory.users = st.directory.users) :
      Written ctx env st (.deleteProject r) ⟨st.db.withoutProject r.projectId, directory⟩

section
variable {ctx : Ctx} {env : Env} {st st' : Store}

/-- What the INSERT of a first queue writes. -/
theorem written_firstQueue {a : AccountCall} {projectId : UUID} {name : String}
    (hequips : a.equips projectId) (hproject : projectId ∈ st.db.projects)
    (hfresh : env.fresh ∉ st.db.queues) :
    Written ctx env st a (st.insertFirstQueue env.fresh projectId name) := by
  unfold Store.insertFirstQueue
  split
  · exact .nothing a
  · exact .firstQueue a projectId name hequips hproject hfresh

theorem written_createProject {r r' : CreateProject} (h : r.step env st = some (st', r')) :
    Written ctx env st (.createProject r) st' := by
  cases hpc : r.pc <;> simp only [CreateProject.step, hpc] at h <;> (repeat' split at h) <;> cases h
  case insertOrganization.isFalse.isFalse => exact .organization (.createProject r) _ ‹_› rfl
  case insertMember.isFalse orgId _ => exact .owner (.createProject r) orgId hpc _ (.inl rfl)
  case insertProject.isFalse.isFalse orgId _ _ =>
      exact .project (.createProject r) orgId r.name hpc ‹_›
  case insertQueue.isFalse.isFalse projectId hf _ =>
      simp only [Bool.or_eq_true, decide_eq_true_eq, not_or, not_not] at hf
      exact written_firstQueue (a := .createProject r) hpc hf.2 ‹_›
  all_goals exact .nothing _

theorem written_listProjects {r r' : ListProjects} (h : r.step env st = some (st', r')) :
    Written ctx env st (.listProjects r) st' := by
  cases hpc : r.pc <;> simp only [ListProjects.step, hpc] at h <;> (repeat' split at h) <;> cases h
  case insertOrganization.isFalse.isFalse => exact .organization (.listProjects r) _ ‹_› rfl
  case insertMember.isFalse orgId _ => exact .owner (.listProjects r) orgId hpc _ (.inr rfl)
  case insertProject.isFalse.isFalse orgId _ _ => exact .project (.listProjects r) orgId _ hpc ‹_›
  case insertQueue.isFalse.isFalse projectId hf _ =>
      simp only [Bool.or_eq_true, decide_eq_true_eq, not_or, not_not] at hf
      exact written_firstQueue (a := .listProjects r) hpc hf.2 ‹_›
  all_goals exact .nothing _

theorem written_deleteProject {r r' : DeleteProject} (h : r.step ctx env st = some (st', r')) :
    Written ctx env st (.deleteProject r) st' := by
  unfold DeleteProject.step at h
  split at h
  · cases h
  · rename_i hreply
    split at h
    · rename_i hcan
      split at h
      · cases h
        exact .deleted r _ hreply (Bool.and_eq_true _ _ ▸ hcan).2 ‹_› rfl rfl
      · cases h
    · cases h
      exact .nothing _

theorem written_addMember {r r' : AddMember} (h : r.step env st = some (st', r')) :
    Written ctx env st (.addMember r) st' := by
  cases hpc : r.pc with
  | getProjectRole =>
      simp only [AddMember.step, hpc] at h
      (repeat' split at h) <;> cases h <;> exact .nothing _
  | upsert role =>
      simp only [AddMember.step, hpc] at h
      split at h
      · cases h
        exact .nothing _
      · split at h <;> cases h
        · exact .nothing _
        · exact .member r role _ _ hpc (eq_false_of_ne_true ‹_›) ‹_›
  | replied => simp [AddMember.step, hpc] at h

theorem written_createQueue {cfg : Config} {r r' : CreateQueue}
    (h : r.step cfg env st = some (st', r')) : Written ctx env st (.createQueue r) st' := by
  cases hpc : r.pc <;> simp only [CreateQueue.step, hpc] at h <;> (repeat' split at h) <;> cases h
  case insertQueue.isFalse.isFalse.isFalse hf _ _ =>
      simp only [Bool.or_eq_true, decide_eq_true_eq, not_or, not_not] at hf
      exact .queue r hpc hf.1.2 ‹_›
  case publish.isFalse => exact .event _ _
  all_goals exact .nothing _

/-- **Every statement of every account request writes only what `Written` lists.** -/
theorem step_written {cfg : Config} {a a' : AccountCall}
    (h : a.step cfg ctx env st = some (st', a')) : Written ctx env st a st' := by
  cases stepped h with
  | createProject r r' hq => exact written_createProject hq
  | listProjects r r' hq => exact written_listProjects hq
  | deleteProject r r' hq => exact written_deleteProject hq
  | addMember r r' hq => exact written_addMember hq
  | createQueue r r' hq => exact written_createQueue hq

end

end AccountCall

/-! ## §5. A small service: the accounts of `Db.small`. -/

/-- User 1 owns organisation 1, whose only project is 1; user 2 is not a member. -/
def Directory.small : Directory where
  users := ((∅ : Table UUID User).insert 2 ⟨"b@"⟩).insert 1 ⟨"a@"⟩
  organizations := (∅ : Table UUID Organization).insert 1 ⟨"", 1, 0⟩
  projectNames := (∅ : Table UUID String).insert 1 "p"

/-- `n` statements of one account request, all alike. -/
def ServiceAction.serves (pid : Nat) (env : Env) (n : Nat) : List ServiceAction :=
  List.replicate n (.serve pid env)

end JobScheduler
