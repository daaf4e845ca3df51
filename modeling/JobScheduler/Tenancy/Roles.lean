/-
  JobScheduler.Tenancy.Roles
  ──────────────────────────
  Only sufficient roles mutate.  One request is taken up in a reachable state and
  handled while no other client moves; every row of an existing organisation that
  it changes asks for a role of its user there.

  Three mechanisms check it: a list of roles in SQL, the ranks of
  `hasRoleAtLeast`, and `organizations.owner_id`.  The third is not a role:
  POST /projects without `org_name` inserts into the oldest organisation that
  names the user as owner, whatever the user's membership there has become.
-/
import JobScheduler.Tenancy.Writes
import JobScheduler.Tenancy.Ownership
import Mathlib.Data.Fintype.EquivFin

namespace JobScheduler

open Relational Transition

/-! ## §1. Requests handled alone. -/

/-- A request of a user to one of the API's mutating routes. -/
inductive ApiRequest
  | account (r : AccountRequest)
  | operate (r : Request)

/-- The user who sent the request. -/
def AccountRequest.userId (r : AccountRequest) : UUID := r.start.userId

namespace ApiRequest

/-- The user in whose name a request acts. -/
def userId : ApiRequest → Option UUID
  | .account r => some r.userId
  | .operate r => r.userId

/-- The request arrives. -/
def opening (pid : Nat) : ApiRequest → ServiceAction
  | .account r => .request pid r
  | .operate r => .act (.start pid r)

/-- Time passes, or the request executes its next statement. -/
def handles (pid : Nat) : ApiRequest → ServiceAction → Bool
  | _, .act (.wait _) => true
  | .account _, .serve k _ => decide (k = pid)
  | .operate _, .act (.run k _) => decide (k = pid)
  | _, _ => false

/-- The request, taken up in `v`, has got as far as `t`, and no other client has
moved. -/
def Alone (cfg : Config) (v : Service) (pid : Nat) (r : ApiRequest) (t : Service) : Prop :=
  ∃ v₁ tr, v.step cfg (r.opening pid) = some v₁ ∧ ServiceRun cfg v₁ tr t ∧
    ∀ p ∈ tr, r.handles pid p.2 = true

end ApiRequest

/-- For every row that differs, if it belongs to an organisation of `v`, the role
that the user has there in `v` suffices. -/
def Service.Allows (v : Service) (userId : UUID) (db db' : Db) : Prop :=
  ∀ e O, ¬ db.SameRow db' e → db.orgOf e = some O ∨ db'.orgOf e = some O →
    O ∈ v.directory.organizations →
      (v.sys.db.roleIn O userId).any (fun role => role.hasRoleAtLeast (e.required db')) = true

/-- Whatever the request writes, the user's role suffices for it. -/
def ApiRequest.Authorised (cfg : Config) (v : Service) (userId : UUID) (r : ApiRequest) : Prop :=
  ∀ pid t o t', r.Alone cfg v pid t → r.handles pid o = true → t.step cfg o = some t' →
    v.Allows userId t.sys.db t'.sys.db

/-- POST /projects without `org_name`, by a user whose oldest organisation by
`owner_id` grants the user no role to operate it and has no project of this name. -/
def ApiRequest.Unchecked (v : Service) : ApiRequest → Prop
  | .account (.createProject userId email name none) =>
      ∃ O, ({ userId := userId, email := email, name := name, orgName := none } : CreateProject).picks
          v.directory (some O) = true ∧
        (v.sys.db.roleIn O userId).any OrgRole.canOperate = false ∧
        v.store.projectNameTaken O name = false
  | _ => False

/-- The only unchecked request is a project for an organisation that is picked. -/
theorem ApiRequest.Unchecked.eq_createProject {v : Service} {r : ApiRequest} (h : r.Unchecked v) :
    ∃ u email name O, r = .account (.createProject u email name none) ∧
      ({ userId := u, email := email, name := name, orgName := none } : CreateProject).picks
        v.directory (some O) = true ∧
      (v.sys.db.roleIn O u).any OrgRole.canOperate = false ∧
      v.store.projectNameTaken O name = false := by
  unfold ApiRequest.Unchecked at h
  split at h
  · obtain ⟨O, hpick, hrole, hname⟩ := h
    exact ⟨_, _, _, O, rfl, hpick, hrole, hname⟩
  · exact h.elim

/-! ## §2. What an account request establishes. -/

/-- The organisation is new, or the user may operate it. -/
def Service.MayFound (v : Service) (userId O : UUID) : Prop :=
  O ∈ v.directory.organizations → (v.sys.db.roleIn O userId).any OrgRole.canOperate = true

section
variable (v : Service) (userId : UUID) (st : Store)

/-- The user may make the next write of POST /projects. -/
def CreateProject.Entitled (r : CreateProject) : Prop :=
  match r.pc with
  | .selectOrganization => st = v.store ∧ (r.orgName = none → ∀ O, r.picks v.directory (some O) = true →
      v.MayFound userId O ∨ v.store.projectNameTaken O r.name = true)
  | .insertMember O => O ∉ v.directory.organizations
  -- a taken name stops the request here
  | .checkName O => v.MayFound userId O ∨ st = v.store ∧ v.store.projectNameTaken O r.name = true
  | .insertProject O => v.MayFound userId O
  | .insertQueue P => ∀ row, st.db.projects.lookup P = some row → v.MayFound userId row.orgId
  | .insertOrganization | .replied _ => True

/-- The user may make the next write of GET /projects. -/
def ListProjects.Entitled (r : ListProjects) : Prop :=
  match r.pc with
  | .insertMember O => O ∉ v.directory.organizations
  | .insertProject O => v.MayFound userId O
  | .insertQueue P => ∀ row, st.db.projects.lookup P = some row → v.MayFound userId row.orgId
  | .count | .insertOrganization | .list | .replied _ => True

/-- The user may make the next write of POST /projects/:id/members. -/
def AddMember.Entitled (r : AddMember) : Prop :=
  match r.pc with
  | .getProjectRole => st = v.store
  | .upsert _ => st = v.store ∧ (v.sys.db.getProjectRole r.projectId userId).any
      (fun role => role.hasRoleAtLeast .admin) = true
  | .replied _ => True

/-- The user may make the next write of POST /projects/:projectId/queues. -/
def CreateQueue.Entitled (r : CreateQueue) : Prop :=
  match r.pc with
  | .checkProject => st = v.store
  | .insertQueue => st = v.store ∧
      (v.sys.db.getProjectRole r.projectId userId).any OrgRole.canOperate = true
  | .publish _ _ | .notify _ | .replied _ => True

/-- What a request of the user, taken up in `v`, has established about what it
still writes. -/
def AccountCall.Entitled (a : AccountCall) : Prop :=
  a.userId = userId ∧ (∀ O, O ∈ v.directory.organizations → O ∈ st.directory.organizations) ∧
    match a with
    | .createProject r => r.Entitled v userId st
    | .listProjects r => r.Entitled v userId st
    | .deleteProject r => r.reply = none → st = v.store
    | .addMember r => r.Entitled v userId st
    | .createQueue r => r.Entitled v userId st

end

section
variable {v : Service} {userId : UUID} {st : Store} {a : AccountCall}

theorem Service.mayFound_of_new {O : UUID} (h : O ∉ v.directory.organizations) : v.MayFound userId O :=
  fun hmem => absurd hmem h

/-- An entitled call seats an owner in a new organisation only. -/
theorem AccountCall.Entitled.seats (hE : a.Entitled v userId st) {O : UUID} (h : a.seats O) :
    O ∉ v.directory.organizations := by
  obtain ⟨-, -, hE⟩ := hE
  cases a with
  | createProject r | listProjects r =>
      simp only [AccountCall.seats] at h
      simpa [CreateProject.Entitled, ListProjects.Entitled, h] using hE
  | _ => cases h

/-- An entitled call founds a project where it may. -/
theorem AccountCall.Entitled.founds (hE : a.Entitled v userId st) {O : UUID} (h : a.founds O) :
    v.MayFound userId O := by
  obtain ⟨-, -, hE⟩ := hE
  cases a with
  | createProject r | listProjects r =>
      simp only [AccountCall.founds] at h
      simpa [CreateProject.Entitled, ListProjects.Entitled, h] using hE
  | _ => cases h

/-- An entitled call adds a queue where it may. -/
theorem AccountCall.Entitled.equips (hE : a.Entitled v userId st) {P : UUID} (h : a.equips P) :
    ∀ row, st.db.projects.lookup P = some row → v.MayFound userId row.orgId := by
  obtain ⟨-, -, hE⟩ := hE
  cases a with
  | createProject r | listProjects r =>
      simp only [AccountCall.equips] at h
      simpa [CreateProject.Entitled, ListProjects.Entitled, h] using hE
  | _ => cases h

/-- A request starts with nothing written. -/
theorem AccountRequest.start_entitled {r : AccountRequest}
    (hchecked : ¬ (ApiRequest.account r).Unchecked v) :
    r.start.Entitled v r.userId v.store := by
  refine ⟨rfl, fun _ h => h, ?_⟩
  cases r with
  | createProject userId email name orgName =>
      refine ⟨rfl, fun hnone O hpick => ?_⟩
      obtain rfl : orgName = none := hnone
      by_cases hname : v.store.projectNameTaken O name = true
      · exact .inr hname
      · refine .inl (fun _ => ?_)
        by_contra hrole
        exact hchecked ⟨O, hpick, eq_false_of_ne_true hrole, eq_false_of_ne_true hname⟩
  | listProjects => trivial
  | deleteProject => exact fun _ => rfl
  | addMember => rfl
  | createQueue => rfl

end

/-! ## §3. What an account request writes. -/

section
variable {v : Service} {userId : UUID} {db db' : Db}

theorem Db.Permits.allows (h : db.Permits userId db') (hmembers : db.members = v.sys.db.members) :
    v.Allows userId db db' := by
  intro e O hne horg _
  have hrole := h e O hne horg
  unfold Db.roleIn at hrole ⊢
  rwa [hmembers] at hrole

theorem hit_upsertMember {m : Member} {e : Entity} (h : ¬ db.SameRow (db.upsertMember m) e) :
    e = .membership m.orgId m.userId := by
  cases e with
  | membership o u =>
      by_contra hne
      refine h ?_
      rw [Db.SameRow, roleIn_upsertMember, if_neg]
      rintro ⟨rfl, rfl⟩
      exact hne rfl
  | dependency => exact absurd Iff.rfl h
  | _ => exact absurd rfl h

theorem hit_insertMember {m : Member} {e : Entity} (h : ¬ db.SameRow (db.insertMember m) e) :
    e = .membership m.orgId m.userId := by
  by_cases hany : db.members.any m.sameKey = true
  · have hsame : db.insertMember m = db := by unfold Db.insertMember; rw [if_pos hany]
    rw [hsame] at h
    exact absurd (db.sameRow_refl e) h
  · have hsame : db.insertMember m = db.upsertMember m := by
      unfold Db.insertMember Db.upsertMember
      rw [if_neg hany, if_neg hany]
    exact hit_upsertMember (hsame ▸ h)

/-- A queue under a fresh id belongs to its project's organisation. -/
theorem Service.allows_insertQueue {id : UUID} {row : Queue} (hfresh : id ∉ db.queues)
    (h : ∀ p, db.projects.lookup row.projectId = some p → v.MayFound userId p.orgId) :
    v.Allows userId db (db.insertQueue id row) := by
  intro e O hne horg hO
  obtain rfl := hit_insertQueue hne
  have hold : db.orgOf (.queue id) = none := by
    simp [Db.orgOf, Db.orgOfQueue, AList.lookup_eq_none.mpr hfresh]
  have hnew := horg.resolve_left (by simp [hold])
  obtain ⟨new, p, hlook, hp, rfl⟩ := Db.orgOfQueue_eq_some.mp hnew
  rw [Db.insertQueue, AList.lookup_insert] at hlook
  obtain rfl := Option.some.inj hlook
  exact OrgRole.any_canOperate (h p hp hO)

theorem Service.allows_insertProject {st : Store} (hdb : st.db = db) {id O : UUID} {name : String}
    (hfresh : id ∉ db.projects) (h : v.MayFound userId O) :
    v.Allows userId db (st.insertProject id O name).db := by
  subst hdb
  intro e O' hne horg hO
  have he : e = .project id := by
    cases e with
    | project i =>
        by_contra hni
        exact hne (AList.lookup_insert_ne (fun heq => hni (by rw [heq])))
    | dependency => exact absurd Iff.rfl hne
    | _ => exact absurd rfl hne
  subst he
  have hnew := horg.resolve_left (by simp [Db.orgOf, AList.lookup_eq_none.mpr hfresh])
  simp only [Db.orgOf, Store.insertProject, AList.lookup_insert, Option.map_some,
    Option.some.injEq] at hnew
  subst hnew
  have hreq : (Entity.project id).required (st.insertProject id O name).db = .operator := by
    simp [Entity.required, Store.insertProject]
  rw [hreq]
  exact OrgRole.any_canOperate (h hO)

/-! ### The rows that a DELETE of a project takes along. -/

theorem Db.orgOfQueue_of_project {projectId O q : UUID} {p : Project}
    (hp : db.projects.lookup projectId = some p) (hq : db.queueOfProject projectId q = true)
    (horg : db.orgOfQueue q = some O) : O = p.orgId := by
  obtain ⟨row, p', hrow, hp', rfl⟩ := Db.orgOfQueue_eq_some.mp horg
  rw [Db.queueOfProject, hrow] at hq
  obtain rfl : row.projectId = projectId := of_decide_eq_true hq
  rw [hp] at hp'
  obtain rfl := Option.some.inj hp'
  rfl

/-- The queues that are left stay where they were. -/
theorem Db.orgOfQueue_withoutProject {projectId O q : UUID}
    (h : (db.withoutProject projectId).orgOfQueue q = some O) : db.orgOfQueue q = some O := by
  obtain ⟨row, p, hrow, hp, rfl⟩ := Db.orgOfQueue_eq_some.mp h
  refine Db.orgOfQueue_eq_some.mpr ⟨row, p, (withoutProject_queue hrow).1, ?_, rfl⟩
  exact (withoutProject_project hp).2

/-- The jobs that are left stay where they were. -/
theorem Db.orgOfJob_withoutProject {projectId O j : UUID}
    (h : (db.withoutProject projectId).orgOfJob j = some O) : db.orgOfJob j = some O := by
  obtain ⟨row', hrow', hO⟩ := Db.orgOfJob_eq_some.mp h
  obtain ⟨row, hrow, _, hsame, _⟩ := withoutProject_row hrow'
  rw [hsame] at hO
  exact Db.orgOfJob_eq_some.mpr ⟨row, hrow, Db.orgOfQueue_withoutProject hO⟩

/-- A row that is left stays in its organisation. -/
theorem Db.orgOf_withoutProject {projectId O : UUID} {e : Entity}
    (h : (db.withoutProject projectId).orgOf e = some O) : db.orgOf e = some O := by
  cases e with
  | project id =>
      obtain ⟨p, hp, rfl⟩ := Option.map_eq_some_iff.mp h
      exact Option.map_eq_some_iff.mpr ⟨p, (withoutProject_project hp).2, rfl⟩
  | queue id => exact Db.orgOfQueue_withoutProject h
  | job id => exact Db.orgOfJob_withoutProject h
  | dependency j d => exact Db.orgOfJob_withoutProject (j := j) h
  | batch id =>
      obtain ⟨row, hrow, hO⟩ := Option.bind_eq_some_iff.mp h
      exact Option.bind_eq_some_iff.mpr
        ⟨row, (withoutProject_batch hrow).1, Db.orgOfQueue_withoutProject hO⟩
  | schedule id =>
      obtain ⟨row, hrow, hO⟩ := Option.bind_eq_some_iff.mp h
      exact Option.bind_eq_some_iff.mpr
        ⟨row, (Table.lookup_delete_eq_some.mp hrow).1, Db.orgOfQueue_withoutProject hO⟩
  | entry id =>
      obtain ⟨entry', hentry, hO⟩ := Option.bind_eq_some_iff.mp h
      rw [withoutProject_entry] at hentry
      obtain ⟨entry, hlook, rfl⟩ := Option.map_eq_some_iff.mp hentry
      obtain ⟨q, hq, hO⟩ := Option.bind_eq_some_iff.mp hO
      refine Option.bind_eq_some_iff.mpr ⟨entry, hlook, Option.bind_eq_some_iff.mpr ⟨q, ?_, ?_⟩⟩
      · exact (Option.filter_eq_some_iff.mp hq).1
      · exact Db.orgOfQueue_withoutProject hO
  | membership o u => exact h

/-- A job that changes is one of the project: a job of another project cannot be
in a batch of this one. -/
theorem Db.jobOfProject_of_changed {projectId j : UUID} (hT : db.Tenanted)
    (hne : ¬ db.SameRow (db.withoutProject projectId) (.job j)) :
    db.jobOfProject projectId j = true := by
  by_contra hleft
  refine hne ?_
  simp only [Db.SameRow, Db.withoutProject, Table.lookup_update, Table.lookup_delete]
  cases hrow : db.jobs.lookup j with
  | none => rfl
  | some row =>
      rw [Option.filter_some, if_pos (by simpa using hleft), Option.map_some, if_neg]
      intro hbatch
      obtain ⟨b, hb, hproject⟩ := Option.any_eq_true _ _ |>.mp hbatch
      obtain ⟨batch, hlook, hq⟩ := hT.batchOf j row b hrow hb
      simp only [Db.batchOfProject, hlook, Option.any_some] at hproject
      exact hleft (by simpa [Db.jobOfProject, hrow, ← hq] using hproject)

theorem Db.orgOfJob_of_project {projectId O j : UUID} {p : Project}
    (hp : db.projects.lookup projectId = some p) (hj : db.jobOfProject projectId j = true)
    (horg : db.orgOfJob j = some O) : O = p.orgId := by
  obtain ⟨row, hrow, hO⟩ := Db.orgOfJob_eq_some.mp horg
  rw [Db.jobOfProject, hrow] at hj
  exact Db.orgOfQueue_of_project hp hj hO

/-- A dead-letter entry stays as it is when its queue is left: its job is one of
that queue. -/
theorem Db.sameRow_entry {projectId id q : UUID} {entry : DeadLetterEntry} (hT : db.Tenanted)
    (hentry : db.deadLetterQueue.lookup id = some entry) (hq : entry.queueId = some q)
    (hleft : db.queueOfProject projectId q = false) :
    db.SameRow (db.withoutProject projectId) (.entry id) := by
  have hjob : ∀ j, entry.originalJobId = some j → db.jobOfProject projectId j = false := by
    intro j hj
    obtain ⟨row, hrow, hsame⟩ := hT.entryOf id entry j hentry hj
    rw [hq] at hsame
    rw [Db.jobOfProject, hrow, Option.any_some, ← Option.some.inj hsame]
    exact hleft
  have hkeep : entry.originalJobId.filter (fun j => !db.jobOfProject projectId j)
      = entry.originalJobId := by
    cases horig : entry.originalJobId with
    | none => rfl
    | some j => simp [hjob j horig]
  have hqueue : entry.queueId.filter (fun q => !db.queueOfProject projectId q) = entry.queueId := by
    simp [hq, hleft]
  rw [Db.SameRow, withoutProject_entry, hentry, Option.map_some, Db.orphaned, hkeep, hqueue]

/-- **Every row that the DELETE changes is in the organisation of the project.** -/
theorem Db.orgOf_of_deleted {projectId O : UUID} {e : Entity} {p : Project} (hT : db.Tenanted)
    (hp : db.projects.lookup projectId = some p) (hne : ¬ db.SameRow (db.withoutProject projectId) e)
    (horg : db.orgOf e = some O) : O = p.orgId := by
  cases e with
  | project id =>
      obtain rfl : id = projectId := by
        by_contra heq
        exact hne (AList.lookup_erase_ne heq)
      rw [Db.orgOf, hp] at horg
      exact (Option.some.inj horg).symm
  | queue id =>
      refine Db.orgOfQueue_of_project hp ?_ horg
      by_contra hleft
      obtain ⟨row, _, hrow, _⟩ := Db.orgOfQueue_eq_some.mp horg
      exact hne ((withoutProject_queue_stays hrow (eq_false_of_ne_true hleft)).trans hrow.symm)
  | job id => exact Db.orgOfJob_of_project hp (Db.jobOfProject_of_changed hT hne) horg
  | dependency j d =>
      have hmem : (j, d) ∈ db.jobDependencies := by
        by_contra hno
        exact hne ⟨fun h => (List.mem_filter.mp h).1, fun h => absurd h hno⟩
      have hgone : db.jobOfProject projectId j = true ∨ db.jobOfProject projectId d = true := by
        by_contra hleft
        rw [not_or, Bool.not_eq_true, Bool.not_eq_true] at hleft
        exact hne ⟨fun h => (List.mem_filter.mp h).1,
          fun h => List.mem_filter.mpr ⟨h, by simp [hleft.1, hleft.2]⟩⟩
      -- both ends are in one organisation
      obtain ⟨org, hj, hd⟩ := hT.edges j d hmem
      rw [Db.orgOf, hj] at horg
      obtain rfl := Option.some.inj horg
      rcases hgone with hgone | hgone
      · exact Db.orgOfJob_of_project hp hgone hj
      · exact Db.orgOfJob_of_project hp hgone hd
  | batch id =>
      obtain ⟨row, hrow, hO⟩ := Option.bind_eq_some_iff.mp horg
      refine Db.orgOfQueue_of_project hp ?_ hO
      by_contra hleft
      refine hne ?_
      simp [Db.SameRow, Db.withoutProject, Table.lookup_delete, Db.batchOfProject, hrow,
        eq_false_of_ne_true hleft]
  | schedule id =>
      obtain ⟨row, hrow, hO⟩ := Option.bind_eq_some_iff.mp horg
      refine Db.orgOfQueue_of_project hp ?_ hO
      by_contra hleft
      refine hne ?_
      simp [Db.SameRow, Db.withoutProject, Table.lookup_delete, hrow, eq_false_of_ne_true hleft]
  | entry id =>
      obtain ⟨entry, hentry, hO⟩ := Option.bind_eq_some_iff.mp horg
      obtain ⟨q, hq, hO⟩ := Option.bind_eq_some_iff.mp hO
      refine Db.orgOfQueue_of_project hp ?_ hO
      by_contra hleft
      exact hne (Db.sameRow_entry hT hentry hq (eq_false_of_ne_true hleft))
  | membership o u => exact absurd rfl hne

/-- The DELETE asks for the role that it has checked. -/
theorem Service.allows_withoutProject {projectId : UUID} (hT : db.Tenanted)
    (hcan : db.canDelete projectId userId = true) (hmembers : db.members = v.sys.db.members) :
    v.Allows userId db (db.withoutProject projectId) := by
  obtain ⟨p, hp, hrole⟩ := Option.any_eq_true _ _ |>.mp hcan
  intro e O hne horg _
  have hO : O = p.orgId := Db.orgOf_of_deleted hT hp hne (horg.elim id Db.orgOf_withoutProject)
  obtain ⟨role, hin, hdelete⟩ := Option.any_eq_true _ _ |>.mp hrole
  refine Option.any_eq_true _ _ |>.mpr ⟨role, ?_, ?_⟩
  · rw [hO]
    unfold Db.roleIn at hin ⊢
    rwa [← hmembers]
  · exact OrgRole.hasRoleAtLeast_admin (role.canDelete_eq ▸ hdelete) e _

end

section
variable {v : Service} {userId : UUID} {cfg : Config} {ctx : Ctx} {env : Env} {st st' : Store}
variable {a a' : AccountCall}

theorem Service.allows_membership {O target : UUID} {db db' : Db}
    (hit : ∀ e, ¬ db.SameRow db' e → e = .membership O target)
    (h : O ∈ v.directory.organizations →
      (v.sys.db.roleIn O userId).any (fun role => role.hasRoleAtLeast .admin) = true) :
    v.Allows userId db db' := by
  intro e O' hne horg hO'
  obtain rfl := hit e hne
  obtain rfl : O = O' := Option.some.inj (horg.elim id id)
  exact h hO'

/-- **What an entitled request writes, its user may write.** -/
theorem AccountCall.Entitled.allows (hE : a.Entitled v userId st) (hT : st.db.Tenanted)
    (h : a.step cfg ctx env st = some (st', a')) : v.Allows userId st.db st'.db := by
  cases AccountCall.step_written h with
  | nothing | organization => exact fun e _ hne => absurd (st.db.sameRow_refl e) hne
  | event _ ev => exact fun e _ hne => absurd (by cases e <;> rfl) hne
  | owner _ O hseats db' hdb =>
      have hnew := hE.seats hseats
      rcases hdb with rfl | rfl
      · exact Service.allows_membership (fun e hne => hit_upsertMember hne) (fun hO => absurd hO hnew)
      · exact Service.allows_membership (fun e hne => hit_insertMember hne) (fun hO => absurd hO hnew)
  | project _ O name hfounds hfresh => exact Service.allows_insertProject rfl hfresh (hE.founds hfounds)
  | firstQueue _ P name hequips hproject hfresh =>
      exact Service.allows_insertQueue hfresh (hE.equips hequips)
  | member r role O target hpc hf htarget =>
      obtain ⟨-, -, hE⟩ := hE
      simp only [AddMember.Entitled, hpc] at hE
      obtain ⟨rfl, hrank⟩ := hE
      refine Service.allows_membership (fun e hne => hit_upsertMember hne) (fun _ => ?_)
      -- the row goes to the organisation of the project whose role was checked
      obtain ⟨p, hp, hrest⟩ := Option.bind_eq_some_iff.mp htarget
      obtain ⟨user, _, he⟩ := Option.bind_eq_some_iff.mp hrest
      obtain ⟨rfl, _⟩ := Prod.mk.inj (Option.some.inj he)
      rwa [Db.getProjectRole, show v.sys.db.projects.lookup r.projectId = some p from hp] at hrank
  | queue r hpc hproject hfresh =>
      obtain ⟨-, -, hE⟩ := hE
      simp only [CreateQueue.Entitled, hpc] at hE
      obtain ⟨rfl, hrole⟩ := hE
      refine Service.allows_insertQueue hfresh (fun p hp _ => ?_)
      rwa [Db.getProjectRole, show v.sys.db.projects.lookup r.projectId = some p from hp] at hrole
  | deleted r directory hreply hcan =>
      obtain ⟨huser, -, hE⟩ := hE
      obtain rfl := hE hreply
      exact Service.allows_withoutProject hT (huser ▸ hcan) rfl

/-! ## §4. What an account request establishes at each step. -/

theorem CreateProject.entitled_step {r r' : CreateProject} (hE : r.Entitled v userId st)
    (hold : ∀ O, O ∈ v.directory.organizations → O ∈ st.directory.organizations)
    (h : r.step env st = some (st', r')) : r'.Entitled v userId st' := by
  cases hpc : r.pc <;> simp only [CreateProject.step, hpc] at h <;>
    simp only [CreateProject.Entitled, hpc] at hE <;> (repeat' split at h) <;> cases h <;>
    try exact trivial
  case selectOrganization.isFalse.isTrue hpick =>
    obtain ⟨rfl, hpicks⟩ := hE
    cases hp : env.pick with
    | none => exact trivial
    | some O =>
        cases hname : r.orgName with
        | some name => simp [CreateProject.Entitled, goto, afterSelect, hname]
        | none =>
            rw [hp] at hpick
            simpa [CreateProject.Entitled, goto, afterSelect, hname] using hpicks hname O hpick
  case insertOrganization.isFalse.isFalse hfresh => exact fun hO => hfresh (hold _ hO)
  case insertMember.isFalse O _ => exact .inl (Service.mayFound_of_new hE)
  case checkName.isFalse.isFalse O _ htaken =>
    refine hE.resolve_right ?_
    rintro ⟨rfl, hname⟩
    exact htaken hname
  case insertProject.isFalse.isFalse O _ _ =>
    intro row hrow
    simp only [Store.insertProject, AList.lookup_insert, Option.some.injEq] at hrow
    subst hrow
    exact hE

theorem ListProjects.entitled_step {r r' : ListProjects} (hE : r.Entitled v userId st)
    (hold : ∀ O, O ∈ v.directory.organizations → O ∈ st.directory.organizations)
    (h : r.step env st = some (st', r')) : r'.Entitled v userId st' := by
  cases hpc : r.pc <;> simp only [ListProjects.step, hpc] at h <;>
    simp only [ListProjects.Entitled, hpc] at hE <;> (repeat' split at h) <;> cases h <;>
    try exact trivial
  case insertOrganization.isFalse.isFalse hfresh => exact fun hO => hfresh (hold _ hO)
  case insertMember.isFalse O _ => exact Service.mayFound_of_new hE
  case insertProject.isFalse.isFalse O _ _ =>
    intro row hrow
    simp only [Store.insertProject, AList.lookup_insert, Option.some.injEq] at hrow
    subst hrow
    exact hE

theorem AddMember.entitled_step {r r' : AddMember} (hE : r.Entitled v userId st)
    (huser : r.userId = userId) (h : r.step env st = some (st', r')) : r'.Entitled v userId st' := by
  cases hpc : r.pc <;> simp only [AddMember.step, hpc] at h <;>
    simp only [AddMember.Entitled, hpc] at hE <;> (repeat' split at h) <;> cases h <;>
    try exact trivial
  subst hE huser
  exact ⟨rfl, ‹_›⟩

/-- A statement of POST /projects/:projectId/queues leaves the request entitled to the next one.
-/
theorem CreateQueue.entitled_step {r r' : CreateQueue} (hE : r.Entitled v userId st)
    (huser : r.userId = userId) (h : r.step cfg env st = some (st', r')) :
    r'.Entitled v userId st' := by
  cases hpc : r.pc <;> simp only [CreateQueue.step, hpc] at h <;>
    simp only [CreateQueue.Entitled, hpc] at hE <;> (repeat' split at h) <;> cases h <;>
    try exact trivial
  subst hE huser
  exact ⟨rfl, ‹_›⟩

/-- A request stays entitled to what it still writes. -/
theorem AccountCall.Entitled.step (hE : a.Entitled v userId st)
    (h : a.step cfg ctx env st = some (st', a')) : a'.Entitled v userId st' := by
  obtain ⟨huser, hold, hE⟩ := hE
  refine ⟨(AccountCall.step_userId h).trans huser, fun O hO => ?_, ?_⟩
  · -- no request deletes an organisation
    rcases (AccountCall.step_written h).organizations with heq | ⟨_, _, _, heq⟩ <;> rw [heq]
    · exact hold O hO
    · exact (AList.mem_insert _).mpr (.inr (hold O hO))
  · cases AccountCall.stepped h with
    | createProject r r' hq => exact CreateProject.entitled_step hE hold hq
    | listProjects r r' hq => exact ListProjects.entitled_step hE hold hq
    | deleteProject r r' hq =>
        unfold DeleteProject.step at hq
        (repeat' split at hq) <;> cases hq <;> (intro hno; cases hno)
    | addMember r r' hq => exact AddMember.entitled_step hE huser hq
    | createQueue r r' hq => exact CreateQueue.entitled_step hE huser hq

end

/-! ## §5. Runs of one request. -/

/-- How far the request of the user has got in `t`. -/
def ApiRequest.Progress (v : Service) (userId : UUID) (pid : Nat) (t : Service) : ApiRequest → Prop
  | .account _ => ∃ a, t.account pid = some a ∧ a.Entitled v userId t.store
  | .operate _ => ∃ p, t.sys.proc pid = some p ∧ p.Entitled userId t.sys.db ∧
      t.sys.db.members = v.sys.db.members

section
variable {cfg : Config} {v t t' : Service} {userId : UUID} {pid : Nat} {r : ApiRequest}
variable {o : ServiceAction}

/-- A checked request begins entitled. -/
theorem ApiRequest.progress_opening {v₁ : Service} (huser : r.userId = some userId)
    (hchecked : ¬ r.Unchecked v) (h : v.step cfg (r.opening pid) = some v₁) :
    r.Progress v userId pid v₁ := by
  cases r with
  | account r =>
      obtain rfl := Option.some.inj huser
      cases Service.stepped h with
      | requested _ _ hfree =>
          refine ⟨r.start, ?_, AccountRequest.start_entitled hchecked⟩
          rw [Service.put_account, if_pos rfl]
  | operate r =>
      cases Service.stepped h with
      | acted _ s' hadm hs =>
          cases stepped hs with
          | start _ _ hfree => exact ⟨_, Sys.put_proc_self _ _ _ _, Request.start_entitled huser _ _, rfl⟩

/-- One step of the request: it stays entitled, and it writes what its user may
write. -/
theorem ApiRequest.progress_step (hP : r.Progress v userId pid t) (hV : Tenancy t)
    (ho : r.handles pid o = true) (h : t.step cfg o = some t') :
    r.Progress v userId pid t' ∧ v.Allows userId t.sys.db t'.sys.db := by
  have hsame : ∀ db : Db, v.Allows userId db db :=
    fun db e _ hne => absurd (db.sameRow_refl e) hne
  cases Service.stepped h with
  | acted b s' hadm hs =>
      cases hst : stepped hs with
      | wait ms =>
          refine ⟨?_, hsame _⟩
          cases r <;> exact hP
      | start => cases r <;> cases ho
      | run k env p p' db' hp hnow hstep =>
          cases r with
          | account => cases ho
          | operate r =>
              obtain rfl := of_decide_eq_true ho
              obtain ⟨q, hq, hE, hmembers⟩ := hP
              obtain rfl := Option.some.inj (hq.symm.trans hp)
              refine ⟨⟨p', Sys.put_proc_self _ _ _ _, hE.step hV.db hstep, ?_⟩, ?_⟩
              · exact (Proc.step_accounts hstep).2.trans hmembers
              · exact (hE.permits hV.db (hV.clients _ q hq) hstep).allows hmembers
  | requested => cases r <;> cases ho
  | served k env a a' st' ha hfresh hs =>
      cases r with
      | operate => cases ho
      | account r =>
          obtain rfl := of_decide_eq_true ho
          obtain ⟨b, hb, hE⟩ := hP
          obtain rfl := Option.some.inj (hb.symm.trans ha)
          refine ⟨⟨a', ?_, hE.step hs⟩, hE.allows hV.db hs⟩
          rw [Service.put_account, if_pos rfl]

theorem ApiRequest.progress_run {tr : List (Service × ServiceAction)} (hP : r.Progress v userId pid t)
    (hV : Tenancy t) (hrun : ServiceRun cfg t tr t') (htr : ∀ p ∈ tr, r.handles pid p.2 = true) :
    r.Progress v userId pid t' ∧ Tenancy t' :=
  hrun.invariant (I := fun t => r.Progress v userId pid t ∧ Tenancy t)
    (G := fun _ o => r.handles pid o = true)
    (fun _ _ _ hI ho hs => ⟨(progress_step hI.1 hI.2 ho hs).1, tenancy_step hI.2 hs⟩) htr ⟨hP, hV⟩

/-- A request that is not the unchecked one writes only what its user may write. -/
theorem ApiRequest.authorised_of_checked (hV : Tenancy v) (huser : r.userId = some userId)
    (hchecked : ¬ r.Unchecked v) : r.Authorised cfg v userId := by
  rintro pid t o t' ⟨v₁, tr, hopen, hrun, htr⟩ ho hs
  obtain ⟨hP, hVt⟩ := progress_run (progress_opening huser hchecked hopen) (tenancy_step hV hopen) hrun htr
  exact (progress_step hP hVt ho hs).2

end

/-! ## §6. The unchecked request. -/

section
variable {cfg : Config} {v : Service} {pid : Nat} {a a' : AccountCall} {st st' : Store} {env : Env}

/-- The next statement of a request that has just moved. -/
theorem Service.put_serve (hnow : env.now = v.sys.clock) (hfresh : env.fresh ∉ (v.put pid st a).retired)
    (hs : ∀ ctx, a.step cfg ctx env st = some (st', a')) :
    (v.put pid st a).step cfg (.serve pid env) = some ((v.put pid st a).put pid st' a') := by
  have hlook : (v.put pid st a).accounts.lookup pid = some { since := v.sys.clock, account := a } :=
    AList.lookup_insert _
  have hstep : a.step cfg (v.put pid st a).sys.ctx env (v.put pid st a).store = some (st', a') := hs _
  simp only [Service.step, hlook, hstep]
  rw [if_pos ⟨hnow.ge, hnow.le, hfresh⟩]
  rfl

theorem Service.put_retired (v : Service) (pid : Nat) (a : AccountCall) :
    (v.put pid v.store a).retired = v.retired := by
  simp [Service.put, Service.store, Db.lost, lostKeys]

end

theorem CreateProject.mem_of_picks {r : CreateProject} {dir : Directory} {id : UUID}
    (h : r.picks dir (some id) = true) : id ∈ dir.organizations := by
  cases hlook : dir.organizations.lookup id with
  | none => simp [picks, hlook] at h
  | some org => exact AList.lookup_isSome.mp (by rw [hlook]; rfl)

/-- Nothing on its way stops it from inserting a project of the organisation. -/
theorem CreateProject.inserts_alone (cfg : Config) {v : Service} {u : UUID} {email name : String}
    {O : UUID} (hpick : ({ userId := u, email := email, name := name, orgName := none } :
      CreateProject).picks v.directory (some O) = true)
    (hname : v.store.projectNameTaken O name = false) :
    ∃ pid t o t' id, (ApiRequest.account (.createProject u email name none)).Alone cfg v pid t ∧
      (ApiRequest.account (.createProject u email name none)).handles pid o = true ∧
      t.step cfg o = some t' ∧ t.sys.db = v.sys.db ∧ id ∉ v.sys.db.projects ∧
      t'.sys.db = (v.store.insertProject id O name).db := by
  obtain ⟨pid, hpid⟩ := Infinite.exists_notMem_finset v.accounts.keys.toFinset
  obtain ⟨id, hid⟩ := Infinite.exists_notMem_finset (v.retired ∪ v.sys.db.projects.keys.toFinset)
  rw [Finset.mem_union, not_or, List.mem_toFinset] at hid
  have hfresh : id ∉ v.store.db.projects := fun hmem => hid.2 hmem
  let r : CreateProject := { userId := u, email := email, name := name, orgName := none }
  let env : Env := { now := v.sys.clock, pick := some O, fresh := id }
  let v₁ := v.put pid v.store (.createProject r)
  let v₂ := v₁.put pid v.store (.createProject (r.goto (.checkName O)))
  let v₃ := v₂.put pid v.store (.createProject (r.goto (.insertProject O)))
  have hret₁ : v₁.retired = v.retired := Service.put_retired v pid _
  have hret₂ : v₂.retired = v.retired := (Service.put_retired v₁ pid _).trans hret₁
  have hret₃ : v₃.retired = v.retired := (Service.put_retired v₂ pid _).trans hret₂
  have hopen : v.step cfg ((ApiRequest.account (.createProject u email name none)).opening pid)
      = some v₁ :=
    if_neg (fun hmem : pid ∈ v.accounts => hpid (List.mem_toFinset.mpr hmem))
  have hselect : v₁.step cfg (.serve pid env) = some v₂ := by
    refine Service.put_serve rfl (hret₁ ▸ hid.1) (fun ctx => ?_)
    simp [AccountCall.step, CreateProject.step, r, env, CreateProject.afterSelect,
      show r.picks v.store.directory (some O) = true from hpick]
  have hcheck : v₂.step cfg (.serve pid env) = some v₃ := by
    refine Service.put_serve rfl (hret₂ ▸ hid.1) (fun ctx => ?_)
    simp [AccountCall.step, CreateProject.step, CreateProject.goto, r, env, hname]
  have hinsert : v₃.step cfg (.serve pid env) = some (v₃.put pid (v.store.insertProject id O name)
      (.createProject (r.goto (.insertQueue id)))) := by
    refine Service.put_serve rfl (hret₃ ▸ hid.1) (fun ctx => ?_)
    simp [AccountCall.step, CreateProject.step, CreateProject.goto, r, env, hname, hfresh]
  exact ⟨pid, v₃, .serve pid env, _, id,
    ⟨v₁, _, hopen, (Run.single hselect).snoc hcheck, by simp [ApiRequest.handles]⟩,
    by simp [ApiRequest.handles], hinsert, rfl, hid.2, rfl⟩

/-- The user could insert the project only as an operator. -/
theorem Service.Allows.insertProject {v : Service} {u id O : UUID} {name : String}
    (h : v.Allows u v.sys.db (v.store.insertProject id O name).db) (hfresh : id ∉ v.sys.db.projects)
    (hO : O ∈ v.directory.organizations) :
    (v.sys.db.roleIn O u).any OrgRole.canOperate = true := by
  have hrow : (v.store.insertProject id O name).db.projects.lookup id = some ⟨O⟩ :=
    AList.lookup_insert _
  have hne : ¬ v.sys.db.SameRow (v.store.insertProject id O name).db (.project id) := by
    intro hsame
    rw [Db.SameRow, hrow, AList.lookup_eq_none.mpr hfresh] at hsame
    cases hsame
  have hrole := h (.project id) O hne (.inr (Option.map_eq_some_iff.mpr ⟨_, hrow, rfl⟩)) hO
  have hreq : (Entity.project id).required (v.store.insertProject id O name).db = .operator := by
    simp [Entity.required, Store.insertProject]
  rw [hreq] at hrole
  simpa only [← OrgRole.canOperate_eq] using hrole

/-- An unchecked request writes what its user may not. -/
theorem ApiRequest.not_authorised_of_unchecked {cfg : Config} {v : Service} {userId : UUID}
    {r : ApiRequest} (huser : r.userId = some userId) (h : r.Unchecked v) :
    ¬ r.Authorised cfg v userId := by
  obtain ⟨u, email, name, O, rfl, hpick, hrole, hname⟩ := h.eq_createProject
  obtain rfl : u = userId := Option.some.inj huser
  intro hA
  obtain ⟨pid, t, o, t', id, halone, ho, hs, hdb, hfresh, hdb'⟩ :=
    CreateProject.inserts_alone cfg hpick hname
  have hallows := hA pid t o t' halone ho hs
  rw [hdb, hdb'] at hallows
  have hcan := hallows.insertProject hfresh (CreateProject.mem_of_picks hpick)
  rw [hrole] at hcan
  cases hcan

/-- **Only sufficient roles mutate, save for the unchecked request.**  A request
of a user that is taken up in a reachable state of the service and handled on its
own writes only what the user's role in that state suffices for, if and only if it
is not a POST /projects that falls back on an organisation which the user owns by
`owner_id` alone. -/
theorem roles_suffice {cfg : Config} {clock : Timestamp} {db : Db} {directory : Directory}
    {tr : List (Service × ServiceAction)} {v : Service} {userId : UUID} {r : ApiRequest}
    (hT : db.Tenanted) (hrun : ServiceRun cfg (Service.atRest clock db directory) tr v)
    (huser : r.userId = some userId) : r.Authorised cfg v userId ↔ ¬ r.Unchecked v := by
  refine ⟨fun hA h => ApiRequest.not_authorised_of_unchecked huser h hA, fun h => ?_⟩
  exact ApiRequest.authorised_of_checked (tenancy_run hrun (tenancy_atRest clock directory hT)) huser h

theorem Db.empty_tenanted : Db.empty.Tenanted where
  queues := by intro q row h; cases h
  batches := by intro b row h; cases h
  jobs := by intro j row h; cases h
  batchOf := by intro j row b h; cases h
  entryOf := by intro x entry j h; cases h
  edges := by intro j d h; cases h

/-- The service after an admin has made the owner a viewer. -/
def Service.usurped : Service :=
  play (Service.step Config.small) (Service.atRest 0 Db.empty Directory.twoUsers) usurpActions

/-- User 2, the admin, changes the priority of queue 13. -/
def adminPatch : ApiRequest := .operate (.patch 2 13 { priority := some 1 })

/-- The UPDATE of the admin's PATCH writes the queue, and the role of an admin suffices. -/
theorem roles_suffice_patch :
    ∃ t t', adminPatch.Alone Config.small Service.usurped 4 t ∧
      t.step Config.small (.act (.run 4 { now := 0 })) = some t' ∧
      (t.sys.db.queues.lookup 13).map (·.priority) = some 0 ∧
      (t'.sys.db.queues.lookup 13).map (·.priority) = some 1 ∧
      Service.usurped.Allows 2 t.sys.db t'.sys.db := by
  have hrun := run_of_play (Service.step Config.small)
    (Service.atRest 0 Db.empty Directory.twoUsers) usurpActions (by rfl)
  have hopen : Service.usurped.step Config.small (adminPatch.opening 4) =
      some (play (Service.step Config.small) Service.usurped [adminPatch.opening 4]) :=
    step_of_play (by rfl)
  have hupdate : (play (Service.step Config.small) Service.usurped [adminPatch.opening 4]).step
      Config.small (.act (.run 4 { now := 0 })) = some (play (Service.step Config.small)
        (play (Service.step Config.small) Service.usurped [adminPatch.opening 4])
          [.act (.run 4 { now := 0 })]) :=
    step_of_play (by rfl)
  have halone : adminPatch.Alone Config.small Service.usurped 4
      (play (Service.step Config.small) Service.usurped [adminPatch.opening 4]) :=
    ⟨_, [], hopen, .nil, fun p hp => by cases hp⟩
  exact ⟨_, _, halone, hupdate, by rfl, by rfl,
    (roles_suffice (r := adminPatch) Db.empty_tenanted hrun rfl).mpr (fun h => h) 4 _ _ _ halone
      rfl hupdate⟩

/-- POST /projects of the former owner. -/
def foundAgainActions : List ServiceAction :=
  [.serve 3 { now := 0, pick := some 11 }, .serve 3 { now := 0 }]

/-- User 1 is a viewer of organisation 11, and inserts project 21 there. -/
theorem viewer_inserts_project :
    ∃ tr v₁ t t', ServiceRun Config.small (Service.atRest 0 Db.empty Directory.twoUsers) tr Service.usurped ∧
      Service.usurped.step Config.small (.request 3 (.createProject 1 "a@" "q" none)) = some v₁ ∧
      ServiceRun Config.small v₁ (trace (Service.step Config.small) v₁ foundAgainActions) t ∧
      t.step Config.small (.serve 3 { now := 0, fresh := 21 }) = some t' ∧
      11 ∈ Service.usurped.directory.organizations ∧
      Service.usurped.sys.db.roleIn 11 1 = some .viewer ∧
      t.sys.db.projects.lookup 21 = none ∧ t'.sys.db.projects.lookup 21 = some ⟨11⟩ ∧
      ¬ (ApiRequest.account (.createProject 1 "a@" "q" none)).Authorised Config.small
        Service.usurped 1 := by
  refine ⟨_, _, _, _, run_of_play _ _ usurpActions (by rfl), step_of_play (by rfl),
    run_of_play _ _ foundAgainActions (by rfl), step_of_play (by rfl), ?_, by rfl, by rfl, by rfl, ?_⟩
  · decide
  · exact ApiRequest.not_authorised_of_unchecked rfl ⟨11, by rfl, by rfl, by rfl⟩

end JobScheduler
