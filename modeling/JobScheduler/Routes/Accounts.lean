/-
  JobScheduler.Routes.Accounts
  ────────────────────────────
  The requests that create organisations, projects, queues and memberships:
  GET and POST /projects, DELETE /projects/:id, POST /projects/:id/members
  (`projects.routes.ts`) and POST /projects/:projectId/queues
  (`queues.routes.ts`), as resumable programs of one statement a step.

  The ownership of an organisation is recorded twice, in
  `organizations.owner_id` and as a membership with role `owner`, by two
  statements.
-/
import JobScheduler.Routes.Projects

namespace JobScheduler

open Relational

/-! ## §1. The tables of the accounts. -/

/-- A row of `users`, as far as the account routes read it. -/
structure User where
  email : String

/-- A row of `organizations`. -/
structure Organization where
  name : String
  ownerId : UUID
  createdAt : Timestamp

/-- The tables and columns that only these requests read. -/
structure Directory where
  users : Table UUID User
  organizations : Table UUID Organization
  /-- `projects.name`. -/
  projectNames : Table UUID String

/-- The database with the tables that only the account routes write. -/
structure Store where
  db : Db
  directory : Directory

/-- `roleRank`. -/
def OrgRole.rank : OrgRole → Nat
  | .viewer => 1
  | .operator => 2
  | .admin => 3
  | .owner => 4

/-- `hasRoleAtLeast`. -/
def OrgRole.hasRoleAtLeast (actual required : OrgRole) : Bool :=
  decide (required.rank ≤ actual.rank)

/-- `getProjectRole`. -/
def Db.getProjectRole (db : Db) (projectId userId : UUID) : Option OrgRole :=
  (db.projects.lookup projectId).bind (fun p => db.roleIn p.orgId userId)

/-- The row has the primary key of `m`. -/
def Member.sameKey (m row : Member) : Bool :=
  decide (row.orgId = m.orgId) && decide (row.userId = m.userId)

/-- `INSERT INTO organization_members ... ON CONFLICT (org_id, user_id) DO UPDATE
SET role = EXCLUDED.role`. -/
def Db.upsertMember (db : Db) (m : Member) : Db :=
  { db with members :=
      if db.members.any m.sameKey then db.members.map (fun row => if m.sameKey row then m else row)
      else db.members ++ [m] }

/-- The same INSERT with `ON CONFLICT DO NOTHING`. -/
def Db.insertMember (db : Db) (m : Member) : Db :=
  { db with members := if db.members.any m.sameKey then db.members else db.members ++ [m] }

/-- The unique constraint on `(project_id, name)` does not admit the queue. -/
def Db.queueNameTaken (db : Db) (projectId : UUID) (name : String) : Bool :=
  !db.queues.all (fun _ q => !(decide (q.projectId = projectId) && decide (q.name = name)))

/-- `INSERT INTO queues`. -/
def Db.insertQueue (db : Db) (queueId : UUID) (row : Queue) : Db :=
  { db with queues := db.queues.insert queueId row }

/-- The queue that comes with a project: `(project_id, name, 0, 5, 'default')`. -/
def Queue.first (projectId : UUID) (name : String) : Queue where
  projectId := projectId
  name := name
  priority := 0
  concurrencyLimit := 5
  retryPolicyId := none
  isPaused := false
  shardKey := "default"

namespace Store

/-- A project of the organisation has this name. -/
def projectNameTaken (st : Store) (orgId : UUID) (name : String) : Bool :=
  !st.db.projects.all (fun id p =>
    !(decide (p.orgId = orgId) && decide (st.directory.projectNames.lookup id = some name)))

/-- `INSERT INTO organizations`. -/
def insertOrganization (st : Store) (orgId : UUID) (row : Organization) : Store :=
  { st with directory :=
      { st.directory with organizations := st.directory.organizations.insert orgId row } }

/-- `INSERT INTO projects`. -/
def insertProject (st : Store) (projectId orgId : UUID) (name : String) : Store where
  db := { st.db with projects := st.db.projects.insert projectId ⟨orgId⟩ }
  directory := { st.directory with projectNames := st.directory.projectNames.insert projectId name }

/-- A statement on the other tables. -/
def setDb (st : Store) (db : Db) : Store := { st with db := db }

/-- `INSERT INTO queues ... ON CONFLICT DO NOTHING`, for the first queue of a project. -/
def insertFirstQueue (st : Store) (queueId projectId : UUID) (name : String) : Store :=
  if st.db.queueNameTaken projectId name then st
  else st.setDb (st.db.insertQueue queueId (Queue.first projectId name))

end Store

/-! ## §2. POST /projects. -/

/-- Where POST /projects stands. -/
inductive CreateProjectPc
  | selectOrganization
  | insertOrganization
  | insertMember (orgId : UUID)
  | checkName (orgId : UUID)
  | insertProject (orgId : UUID)
  | insertQueue (projectId : UUID)
  | replied (reply : Reply)

/-- A body that `createProjectSchema` accepts, and `req.user`. -/
structure CreateProject where
  userId : UUID
  email : String
  name : String
  orgName : Option String
  pc : CreateProjectPc := .selectOrganization

namespace CreateProject

/-- Move the request to another statement. -/
def goto (r : CreateProject) (pc : CreateProjectPc) : CreateProject := { r with pc := pc }

/-- End the request with an error reply. -/
def fail (r : CreateProject) (err : AppError) : CreateProject := r.goto (.replied (.failure err))

/-- `org_name || ${email.split('@')[0]}'s Org`. -/
def displayName (r : CreateProject) : String :=
  r.orgName.getD (((r.email.splitOn "@").headD "") ++ "'s Org")

/-- `pick` is a possible result of `SELECT id FROM organizations WHERE owner_id =
$1 ORDER BY created_at ASC LIMIT 1`. -/
def picks (r : CreateProject) (dir : Directory) (pick : Option UUID) : Bool :=
  match pick with
  | none => dir.organizations.all (fun _ o => !decide (o.ownerId = r.userId))
  | some id =>
      match dir.organizations.lookup id with
      | none => false
      | some org => decide (org.ownerId = r.userId)
          && dir.organizations.all (fun _ o =>
            !decide (o.ownerId = r.userId) || decide (org.createdAt ≤ o.createdAt))

/-- `if (existingOrgs.length > 0 && !org_name)`; the role in the organisation is
not looked at. -/
def afterSelect (r : CreateProject) (pick : Option UUID) : CreateProjectPc :=
  match pick, r.orgName with
  | some orgId, none => .checkName orgId
  | _, _ => .insertOrganization

/-- The reply to a project name that the organisation already has. -/
def nameConflict (r : CreateProject) : AppError :=
  ⟨409, "CONFLICT", s!"A project named '{r.name}' already exists in this organization"⟩

/-- One statement of POST /projects; `none` once it has replied or where `env` offers no such row.
-/
def step (env : Env) (r : CreateProject) (st : Store) : Option (Store × CreateProject) :=
  match r.pc with
  | .replied _ => none
  | .selectOrganization =>
      if env.fails then some (st, r.fail (internalServerError env.error))
      else if r.picks st.directory env.pick then some (st, r.goto (r.afterSelect env.pick))
      else none
  | .insertOrganization =>
      if env.fails || decide (r.userId ∉ st.directory.users) then
        some (st, r.fail (internalServerError env.error))
      else if env.fresh ∈ st.directory.organizations then none
      else some (st.insertOrganization env.fresh ⟨r.displayName, r.userId, env.now⟩,
        r.goto (.insertMember env.fresh))
  | .insertMember orgId =>
      if env.fails then some (st, r.fail (internalServerError env.error))
      else some (st.setDb (st.db.upsertMember ⟨orgId, r.userId, .owner⟩), r.goto (.checkName orgId))
  | .checkName orgId =>
      if env.fails then some (st, r.fail (internalServerError env.error))
      else if st.projectNameTaken orgId r.name then some (st, r.fail r.nameConflict)
      else some (st, r.goto (.insertProject orgId))
  | .insertProject orgId =>
      if env.fails || st.projectNameTaken orgId r.name then
        some (st, r.fail (internalServerError env.error))
      else if env.fresh ∈ st.db.projects then none
      else some (st.insertProject env.fresh orgId r.name, r.goto (.insertQueue env.fresh))
  | .insertQueue projectId =>
      if env.fails || decide (projectId ∉ st.db.projects) then
        some (st, r.fail (internalServerError env.error))
      else if env.fresh ∈ st.db.queues then none
      else some (st.insertFirstQueue env.fresh projectId "main-queue",
        r.goto (.replied (.success 201)))

end CreateProject

/-! ## §3. GET /projects. -/

/-- Where GET /projects stands. -/
inductive ListProjectsPc
  | count
  | insertOrganization
  | insertMember (orgId : UUID)
  | insertProject (orgId : UUID)
  | insertQueue (projectId : UUID)
  | list
  | replied (reply : Reply)

/-- One request GET /projects. -/
structure ListProjects where
  userId : UUID
  pc : ListProjectsPc := .count

namespace ListProjects

/-- Move the request to another statement. -/
def goto (r : ListProjects) (pc : ListProjectsPc) : ListProjects := { r with pc := pc }

/-- End the request with an error reply. -/
def fail (r : ListProjects) (err : AppError) : ListProjects := r.goto (.replied (.failure err))

/-- `total === 0`: no project of an organisation the user is a member of. -/
def hasNone (r : ListProjects) (db : Db) : Bool :=
  db.projects.all (fun _ p => (db.roleIn p.orgId r.userId).isNone)

/-- One statement of GET /projects, the seeding of a first project included. -/
def step (env : Env) (r : ListProjects) (st : Store) : Option (Store × ListProjects) :=
  match r.pc with
  | .replied _ => none
  | .count =>
      if env.fails then some (st, r.fail (internalServerError env.error))
      else some (st, r.goto (if r.hasNone st.db then .insertOrganization else .list))
  | .insertOrganization =>
      if env.fails || decide (r.userId ∉ st.directory.users) then
        some (st, r.fail (internalServerError env.error))
      else if env.fresh ∈ st.directory.organizations then none
      else some (st.insertOrganization env.fresh ⟨"Default Org", r.userId, env.now⟩,
        r.goto (.insertMember env.fresh))
  | .insertMember orgId =>
      if env.fails then some (st, r.fail (internalServerError env.error))
      else some (st.setDb (st.db.insertMember ⟨orgId, r.userId, .owner⟩), r.goto (.insertProject orgId))
  | .insertProject orgId =>
      if env.fails || st.projectNameTaken orgId "Default Project" then
        some (st, r.fail (internalServerError env.error))
      else if env.fresh ∈ st.db.projects then none
      else some (st.insertProject env.fresh orgId "Default Project", r.goto (.insertQueue env.fresh))
  | .insertQueue projectId =>
      if env.fails || decide (projectId ∉ st.db.projects) then
        some (st, r.fail (internalServerError env.error))
      else if env.fresh ∈ st.db.queues then none
      else some (st.insertFirstQueue env.fresh projectId "default-queue", r.goto .list)
  | .list =>
      if env.fails then some (st, r.fail (internalServerError env.error))
      else some (st, r.goto (.replied (.success 200)))

end ListProjects

/-! ## §4. DELETE /projects/:id. -/

/-- One request DELETE /projects/:id. -/
structure DeleteProject where
  userId : UUID
  projectId : UUID
  reply : Option Reply := none

namespace DeleteProject

/-- No open transaction holds a row that the DELETE removes. -/
def rowsFree (r : DeleteProject) (ctx : Ctx) (db : Db) : Bool :=
  db.queues.all (fun q _ => !db.queueOfProject r.projectId q || ctx.queueFree q)
    && db.jobs.all (fun j _ => !db.jobOfProject r.projectId j || ctx.jobFree j)

/-- The one statement of the request. -/
def step (ctx : Ctx) (env : Env) (r : DeleteProject) (st : Store) : Option (Store × DeleteProject) :=
  match r.reply with
  | some _ => none
  | none =>
      if !env.fails && st.db.canDelete r.projectId r.userId then
        if r.rowsFree ctx st.db then
          some ({ st with
              db := st.db.withoutProject r.projectId
              directory := { st.directory with
                projectNames := st.directory.projectNames.erase r.projectId } },
            { r with reply := some (.success 204) })
        else none
      else some (st, { r with reply := some (deleteProject env r.userId r.projectId st.db).2 })

end DeleteProject

/-! ## §5. POST /projects/:id/members. -/

/-- Where POST /projects/:id/members stands. -/
inductive AddMemberPc
  | getProjectRole
  | upsert (role : OrgRole)
  | replied (reply : Reply)

/-- The body is not validated by a schema: either key may be missing. -/
structure AddMember where
  userId : UUID
  projectId : UUID
  email : Option String
  role : Option String
  pc : AddMemberPc := .getProjectRole

namespace AddMember

/-- Move the request to another statement. -/
def goto (r : AddMember) (pc : AddMemberPc) : AddMember := { r with pc := pc }

/-- End the request with an error reply. -/
def fail (r : AddMember) (err : AppError) : AddMember := r.goto (.replied (.failure err))

/-- `email && ['admin', 'operator', 'viewer'].includes(memberRole)`. -/
def memberRole (r : AddMember) : Option OrgRole :=
  if r.email.getD "" = "" then none
  else
    match r.role with
    | some "admin" => some .admin
    | some "operator" => some .operator
    | some "viewer" => some .viewer
    | _ => none

/-- The membership key that the INSERT ... SELECT writes. -/
def targets (r : AddMember) (st : Store) : Option (UUID × UUID) := do
  let p ← st.db.projects.lookup r.projectId
  let user ← (st.directory.users.select (fun _ u => decide (some u.email = r.email))).head?
  return (p.orgId, user.1)

/-- One statement of POST /projects/:id/members. -/
def step (env : Env) (r : AddMember) (st : Store) : Option (Store × AddMember) :=
  match r.pc with
  | .replied _ => none
  | .getProjectRole =>
      if env.fails then some (st, r.fail (internalServerError env.error))
      else if (st.db.getProjectRole r.projectId r.userId).any (fun role => role.hasRoleAtLeast .admin) then
        match r.memberRole with
        | none => some (st, r.fail ⟨400, "VALIDATION_ERROR", "email and role (admin/operator/viewer) are required"⟩)
        | some role => some (st, r.goto (.upsert role))
      else some (st, r.fail ⟨403, "FORBIDDEN", "Admin role is required to manage members"⟩)
  | .upsert role =>
      if env.fails then some (st, r.fail (internalServerError env.error))
      else
        -- the conflict branch overwrites whatever role the target had
        match r.targets st with
        | none => some (st, r.fail ⟨404, "NOT_FOUND", "User or project not found"⟩)
        | some (orgId, target) =>
            some (st.setDb (st.db.upsertMember ⟨orgId, target, role⟩), r.goto (.replied (.success 201)))

end AddMember

/-! ## §6. POST /projects/:projectId/queues. -/

/-- A body that `createQueueSchema` accepts, with its defaults filled in. -/
structure CreateQueueInput where
  name : String
  priority : Nat
  concurrencyLimit : Nat
  retryPolicyId : Option UUID
  shardKey : String

/-- `priority || 0`, `concurrency_limit || 5`, `shard_key || 'default'`. -/
def CreateQueueInput.row (input : CreateQueueInput) (projectId : UUID) : Queue where
  projectId := projectId
  name := input.name
  priority := input.priority
  concurrencyLimit := if input.concurrencyLimit = 0 then 5 else input.concurrencyLimit
  retryPolicyId := input.retryPolicyId
  isPaused := false
  shardKey := if input.shardKey = "" then "default" else input.shardKey

/-- Where POST /projects/:projectId/queues stands. -/
inductive CreateQueuePc
  | checkProject
  | insertQueue
  | publish (queueId : UUID) (row : Queue)
  | notify (ev : SystemEvent)
  | replied (reply : Reply)

/-- One request POST /projects/:projectId/queues with its validated body. -/
structure CreateQueue where
  userId : UUID
  projectId : UUID
  input : CreateQueueInput
  pc : CreateQueuePc := .checkProject

namespace CreateQueue

/-- Move the request to another statement. -/
def goto (r : CreateQueue) (pc : CreateQueuePc) : CreateQueue := { r with pc := pc }

/-- End the request with an error reply. -/
def fail (r : CreateQueue) (err : AppError) : CreateQueue := r.goto (.replied (.failure err))

/-- The row that the INSERT writes. -/
def row (r : CreateQueue) : Queue := r.input.row r.projectId

/-- The `queue.created` event with the row that the INSERT returned. -/
def createdEvent (queueId : UUID) (row : Queue) : SystemEvent :=
  ⟨.queueCreated, .queue, some queueId, .queueRow queueId row⟩

/-- One statement of POST /projects/:projectId/queues. -/
def step (cfg : Config) (env : Env) (r : CreateQueue) (st : Store) : Option (Store × CreateQueue) :=
  match r.pc with
  | .replied _ => none
  | .checkProject =>
      if env.fails then some (st, r.fail (internalServerError env.error))
      else if (st.db.getProjectRole r.projectId r.userId).any OrgRole.canOperate then
        some (st, r.goto .insertQueue)
      else some (st, r.fail ⟨404, "NOT_FOUND", "Project not found"⟩)
  | .insertQueue =>
      -- the foreign keys to the project and to the retry policy
      if env.fails || decide (r.projectId ∉ st.db.projects)
          || !r.row.retryPolicyId.all (fun id => decide (id ∈ st.db.retryPolicies)) then
        some (st, r.fail (internalServerError env.error))
      -- error code 23505
      else if st.db.queueNameTaken r.projectId r.row.name then
        some (st, r.fail ⟨409, "CONFLICT", "A queue with this name already exists in the project"⟩)
      else if env.fresh ∈ st.db.queues then none
      else some (st.setDb (st.db.insertQueue env.fresh r.row), r.goto (.publish env.fresh r.row))
  | .publish queueId row =>
      if env.fails then some (st, r.fail (internalServerError env.error))
      else some (st.setDb (st.db.insertEvent (createdEvent queueId row)),
        r.goto (.notify (createdEvent queueId row)))
  | .notify ev =>
      if env.fails || !cfg.notifyAccepts ev then some (st, r.fail (internalServerError env.error))
      else some (st, r.goto (.replied (.success 201)))

end CreateQueue

end JobScheduler
