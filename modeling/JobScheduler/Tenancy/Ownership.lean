/-
  JobScheduler.Tenancy.Ownership
  ──────────────────────────────
  Who owns an organisation.  The owner is recorded in `organizations.owner_id`,
  which no request changes, and as a membership with role `owner`, which the
  conflict branch of POST /projects/:id/members overwrites like any other.

  The role `owner` is granted by the request that creates the organisation and by
  no other, so an organisation keeps its owner exactly as long as no membership
  request hits that row.
-/
import JobScheduler.Tenancy.Runs

namespace JobScheduler

open Relational Transition

/-! ## §1. Memberships. -/

section
variable (db : Db) (m : Member) (orgId userId : UUID)

/-- The role of a user after an upsert. -/
theorem find_mapKeys (l : List Member) :
    ((l.map (fun row => if m.sameKey row then m else row)).find?
        (fun x => x.orgId == orgId && x.userId == userId)).map (·.role)
      = if orgId = m.orgId ∧ userId = m.userId then
          (l.find? (fun x => x.orgId == orgId && x.userId == userId)).map (fun _ => m.role)
        else (l.find? (fun x => x.orgId == orgId && x.userId == userId)).map (·.role) := by
  induction l with
  | nil => simp
  | cons row l ih =>
      rw [List.map_cons, List.find?_cons, List.find?_cons]
      by_cases hkey : m.sameKey row = true
      · simp only [Member.sameKey, Bool.and_eq_true, decide_eq_true_eq] at hkey
        rw [if_pos (by simp [Member.sameKey, hkey])]
        by_cases hm : orgId = m.orgId ∧ userId = m.userId
        · simp [hm, hkey.1, hkey.2]
        · have hno : (m.orgId == orgId && m.userId == userId) = false := by
            rw [Bool.eq_false_iff]
            intro h
            simp only [Bool.and_eq_true, beq_iff_eq] at h
            exact hm ⟨h.1.symm, h.2.symm⟩
          simp only [hkey.1, hkey.2, hno]
          exact ih
      · rw [if_neg hkey]
        cases hrow : (row.orgId == orgId && row.userId == userId) with
        | false => exact ih
        | true =>
            -- the row found is not under the key of `m`
            simp only [Bool.and_eq_true, beq_iff_eq] at hrow
            have hm : ¬ (orgId = m.orgId ∧ userId = m.userId) := by
              rintro ⟨rfl, rfl⟩
              exact hkey (by simp [Member.sameKey, hrow])
            simp [hm]

/-- The upsert sets one role and leaves the others alone. -/
theorem roleIn_upsertMember :
    (db.upsertMember m).roleIn orgId userId
      = if orgId = m.orgId ∧ userId = m.userId then some m.role else db.roleIn orgId userId := by
  unfold Db.roleIn Db.upsertMember
  dsimp only
  by_cases hany : db.members.any m.sameKey = true
  · rw [if_pos hany, find_mapKeys]
    split
    · rename_i hm
      obtain ⟨row, hrow, hkey⟩ := List.any_eq_true.mp hany
      have hsome : (db.members.find? (fun x => x.orgId == orgId && x.userId == userId)).isSome := by
        rw [List.find?_isSome]
        refine ⟨row, hrow, ?_⟩
        simp only [Member.sameKey, Bool.and_eq_true, decide_eq_true_eq] at hkey
        simp [hm, hkey.1, hkey.2]
      obtain ⟨x, hx⟩ := Option.isSome_iff_exists.mp hsome
      rw [hx]
      rfl
    · rfl
  · rw [if_neg hany, List.find?_append]
    by_cases hm : orgId = m.orgId ∧ userId = m.userId
    · rw [if_pos hm]
      have hnone : db.members.find? (fun x => x.orgId == orgId && x.userId == userId) = none := by
        rw [List.find?_eq_none]
        intro x hx hkey
        refine hany (List.any_eq_true.mpr ⟨x, hx, ?_⟩)
        simp only [Bool.and_eq_true, beq_iff_eq] at hkey
        simp [Member.sameKey, hkey.1, hkey.2, hm]
      obtain ⟨rfl, rfl⟩ := hm
      simp [hnone]
    · rw [if_neg hm]
      have hno : (m.orgId == orgId && m.userId == userId) = false := by
        rw [Bool.eq_false_iff]
        intro h
        simp only [Bool.and_eq_true, beq_iff_eq] at h
        exact hm ⟨h.1.symm, h.2.symm⟩
      simp [hno]

/-- An INSERT that finds no row under its key. -/
theorem roleIn_insertMember (hnone : db.roleIn m.orgId m.userId = none) :
    (db.insertMember m).roleIn orgId userId
      = if orgId = m.orgId ∧ userId = m.userId then some m.role else db.roleIn orgId userId := by
  have hany : ¬ db.members.any m.sameKey = true := by
    intro h
    obtain ⟨row, hrow, hkey⟩ := List.any_eq_true.mp h
    simp only [Member.sameKey, Bool.and_eq_true, decide_eq_true_eq] at hkey
    simp only [Db.roleIn, Option.map_eq_none_iff, List.find?_eq_none] at hnone
    exact hnone row hrow (by simp [hkey.1, hkey.2])
  have hsame : db.insertMember m = db.upsertMember m := by
    unfold Db.insertMember Db.upsertMember
    rw [if_neg hany, if_neg hany]
  rw [hsame, roleIn_upsertMember]

end

/-! ## §2. The requests. -/

namespace AccountCall

section
variable {cfg : Config} {ctx : Ctx} {env : Env} {st st' : Store} {a a' : AccountCall}

/-- A call stays with its user. -/
theorem step_userId (h : a.step cfg ctx env st = some (st', a')) : a'.userId = a.userId := by
  cases AccountCall.stepped h with
  | createProject r r' hq =>
      cases hpc : r.pc <;> simp only [CreateProject.step, hpc] at hq <;> (repeat' split at hq) <;>
        cases hq <;> rfl
  | listProjects r r' hq =>
      cases hpc : r.pc <;> simp only [ListProjects.step, hpc] at hq <;> (repeat' split at hq) <;>
        cases hq <;> rfl
  | deleteProject r r' hq =>
      unfold DeleteProject.step at hq
      (repeat' split at hq) <;> cases hq <;> rfl
  | addMember r r' hq =>
      cases hpc : r.pc <;> simp only [AddMember.step, hpc] at hq <;> (repeat' split at hq) <;>
        cases hq <;> rfl
  | createQueue r r' hq =>
      cases hpc : r.pc <;> simp only [CreateQueue.step, hpc] at hq <;> (repeat' split at hq) <;>
        cases hq <;> rfl

/-- A request seats its user in the organisation that it has just created. -/
theorem seats_of_step (h : a.step cfg ctx env st = some (st', a')) {orgId : UUID}
    (hseats : a'.seats orgId) :
    orgId = env.fresh ∧ env.fresh ∉ st.directory.organizations ∧
      ∃ row : Organization, row.ownerId = a.userId ∧ st' = st.insertOrganization env.fresh row := by
  cases AccountCall.stepped h
  case createProject r r' hq =>
    cases hpc : r.pc <;> simp only [CreateProject.step, hpc] at hq <;> (repeat' split at hq) <;>
      cases hq
    case selectOrganization.isFalse.isTrue =>
      simp only [seats, CreateProject.goto, CreateProject.afterSelect] at hseats
      split at hseats <;> cases hseats
    case insertOrganization.isFalse.isFalse => cases hseats; exact ⟨rfl, ‹_›, _, rfl, rfl⟩
    all_goals cases hseats
  case listProjects r r' hq =>
    cases hpc : r.pc <;> simp only [ListProjects.step, hpc] at hq <;> (repeat' split at hq) <;>
      cases hq
    case insertOrganization.isFalse.isFalse => cases hseats; exact ⟨rfl, ‹_›, _, rfl, rfl⟩
    all_goals cases hseats
  all_goals cases hseats

/-- The statement that seats the user is carried out or rejected. -/
theorem step_seats (h : a.step cfg ctx env st = some (st', a')) {orgId : UUID}
    (hseats : a.seats orgId) :
    (∀ o, ¬ a'.seats o) ∧ (env.fails = true ∨
      st' = st.setDb (st.db.upsertMember ⟨orgId, a.userId, .owner⟩) ∨
      st' = st.setDb (st.db.insertMember ⟨orgId, a.userId, .owner⟩)) := by
  cases AccountCall.stepped h with
  | createProject r r' hq =>
      have hpc : r.pc = .insertMember orgId := hseats
      simp only [CreateProject.step, hpc] at hq
      split at hq <;> cases hq
      · exact ⟨fun o ho => (by cases ho), .inl ‹_›⟩
      · exact ⟨fun o ho => (by cases ho), .inr (.inl rfl)⟩
  | listProjects r r' hq =>
      have hpc : r.pc = .insertMember orgId := hseats
      simp only [ListProjects.step, hpc] at hq
      split at hq <;> cases hq
      · exact ⟨fun o ho => (by cases ho), .inl ‹_›⟩
      · exact ⟨fun o ho => (by cases ho), .inr (.inr rfl)⟩
  | _ => cases hseats

end

end AccountCall

/-- A membership request comes to its INSERT through its check, with the role it
asks for. -/
theorem AddMember.upsert_of_step {env : Env} {st st' : Store} {r r' : AddMember} {role : OrgRole}
    (h : r.step env st = some (st', r')) (hpc : r'.pc = .upsert role) :
    st' = st ∧ r = { r' with pc := .getProjectRole } ∧ r'.memberRole = some role ∧
      ∃ actor, st.db.getProjectRole r.projectId r.userId = some actor ∧
        actor.hasRoleAtLeast .admin = true := by
  cases hrpc : r.pc <;> simp only [AddMember.step, hrpc] at h <;> (repeat' split at h) <;>
    cases h <;> cases hpc
  rename_i hcheck _ hrole
  refine ⟨rfl, ?_, hrole, ?_⟩
  · cases r
    cases hrpc
    rfl
  · cases hactor : st.db.getProjectRole r.projectId r.userId with
    | none => simp [hactor] at hcheck
    | some actor => exact ⟨actor, rfl, by simpa [hactor] using hcheck⟩

/-- No membership request grants the role `owner`. -/
theorem AddMember.memberRole_ne_owner {r : AddMember} {role : OrgRole}
    (h : r.memberRole = some role) : role ≠ .owner := by
  unfold AddMember.memberRole at h
  rintro rfl
  split at h
  · cases h
  · split at h <;> cases h

/-! ## §3. The invariant. -/

/-- Request `k` has found its user to have the role `actor`. -/
def ActsAs (tr : List (Service × ServiceAction)) (k : Nat) (r : AddMember) (actor : OrgRole) : Prop :=
  ∃ t env, (t, ServiceAction.serve k env) ∈ tr ∧
    t.account k = some (.addMember { r with pc := .getProjectRole }) ∧
    t.sys.db.getProjectRole r.projectId r.userId = some actor

/-- The invariant behind ownership: an organisation has its owner as a member with that role, and
nobody else. -/
structure Ownership (tr : List (Service × ServiceAction)) (v : Service) : Prop where
  /-- An organisation has its owner as a member, or its creation is about to
  insert the membership. -/
  seated : ∀ O org, v.directory.organizations.lookup O = some org →
    (∃ k a, v.account k = some a ∧ a.seats O) ∨ v.sys.db.roleIn O org.ownerId = some .owner
  /-- Nobody else has the role. -/
  owners : ∀ O u, v.sys.db.roleIn O u = some .owner →
    ∃ org, v.directory.organizations.lookup O = some org ∧ org.ownerId = u
  /-- Foreign key of `organization_members`. -/
  orgs : ∀ O u, v.sys.db.roleIn O u ≠ none → O ∈ v.directory.organizations
  /-- An organisation in creation has no member yet. -/
  seats : ∀ k a O, v.account k = some a → a.seats O →
    (∃ org, v.directory.organizations.lookup O = some org ∧ org.ownerId = a.userId) ∧
      ∀ u, v.sys.db.roleIn O u = none
  unique : ∀ k l a b O, v.account k = some a → v.account l = some b → a.seats O → b.seats O → k = l
  /-- A membership request that has passed its check. -/
  adders : ∀ k r role, v.account k = some (.addMember r) → r.pc = .upsert role →
    r.memberRole = some role ∧
      (∃ actor, ActsAs tr k r actor ∧ actor.hasRoleAtLeast .admin = true) ∧
      KnownId v.retired v.sys.db.projects r.projectId ∧
      ∀ row, v.sys.db.projects.lookup r.projectId = some row → v.sys.db.roleIn row.orgId r.userId ≠ none

/-- The action overwrites the membership of an organisation's owner. -/
def ServiceAction.demotesOwner (v : Service) : ServiceAction → Bool
  | .serve pid env => !env.fails && (match v.account pid with
      | some (.addMember r) => (match r.pc with
          | .upsert _ => (r.targets v.store).any (fun t =>
              (v.directory.organizations.lookup t.1).any (fun org => decide (org.ownerId = t.2)))
          | _ => false)
      | _ => false)
  | _ => false

/-- The request is about to seat its user as owner of an organisation. -/
def AccountCall.seating : AccountCall → Bool
  | .createProject r => (match r.pc with
      | .insertMember _ => true
      | _ => false)
  | .listProjects r => (match r.pc with
      | .insertMember _ => true
      | _ => false)
  | _ => false

/-- The action is the rejected INSERT of the membership of an owner. -/
def ServiceAction.leavesOwnerless (v : Service) : ServiceAction → Bool
  | .serve pid env => env.fails && (v.account pid).any AccountCall.seating
  | _ => false

theorem AccountCall.seating_of_seats {a : AccountCall} {O : UUID} (h : a.seats O) :
    a.seating = true := by
  cases a with
  | createProject r =>
      have hpc : r.pc = .insertMember O := h
      simp [seating, hpc]
  | listProjects r =>
      have hpc : r.pc = .insertMember O := h
      simp [seating, hpc]
  | _ => cases h

theorem not_fails_of_seats {v : Service} {pid : Nat} {env : Env} {a : AccountCall} {O : UUID}
    (h : (ServiceAction.serve pid env).leavesOwnerless v = false) (ha : v.account pid = some a)
    (hseats : a.seats O) : env.fails = false := by
  simpa [ServiceAction.leavesOwnerless, ha, AccountCall.seating_of_seats hseats] using h

theorem not_seats_of_all {v : Service}
    (h : v.accounts.all (fun _ c => !c.account.seating) = true) {k : Nat} {a : AccountCall}
    (hk : v.account k = some a) (O : UUID) : ¬ a.seats O := by
  obtain ⟨c, hc, rfl⟩ := Option.map_eq_some_iff.mp hk
  intro hseats
  simpa [AccountCall.seating_of_seats hseats] using (Table.all_iff _ _).mp h k c hc

/-- How a statement of a request changes the roles. -/
inductive RoleChange (env : Env) (st : Store) (a : AccountCall) (st' : Store) : Prop
  | same (h : ∀ o u, st'.db.roleIn o u = st.db.roleIn o u)
  | seated (O : UUID) (hseats : a.seats O)
      (h : ∀ o u, st'.db.roleIn o u = if o = O ∧ u = a.userId then some .owner else st.db.roleIn o u)
  | granted (r : AddMember) (role : OrgRole) (O target : UUID) (ha : a = .addMember r)
      (hpc : r.pc = .upsert role) (hf : env.fails = false) (htarget : r.targets st = some (O, target))
      (h : ∀ o u, st'.db.roleIn o u = if o = O ∧ u = target then some role else st.db.roleIn o u)

/-- What a statement does to the roles. -/
theorem AccountCall.Written.roles {ctx : Ctx} {env : Env} {st st' : Store} {a : AccountCall}
    (h : AccountCall.Written ctx env st a st')
    (hnone : ∀ O, a.seats O → st.db.roleIn O a.userId = none) : RoleChange env st a st' := by
  cases h with
  | owner a O hseats d hdb =>
      refine .seated O hseats (fun o u => ?_)
      rcases hdb with rfl | rfl
      · exact roleIn_upsertMember _ _ o u
      · exact roleIn_insertMember _ _ o u (hnone O hseats)
  | member r role O target hpc hf htarget =>
      exact .granted r role O target rfl hpc hf htarget (fun o u => roleIn_upsertMember _ _ o u)
  | _ => exact .same (fun _ _ => rfl)

/-- A role, once given, is never taken back altogether. -/
theorem RoleChange.stays {env : Env} {st st' : Store} {a : AccountCall}
    (h : RoleChange env st a st') {o u : UUID} (hrole : st.db.roleIn o u ≠ none) :
    st'.db.roleIn o u ≠ none := by
  cases h with
  | same h => rwa [h]
  | seated O _ h | granted _ _ O _ _ _ _ _ h =>
      rw [h]
      split
      · simp
      · exact hrole

/-- What a statement does to the organisations. -/
theorem AccountCall.Written.organizations {ctx : Ctx} {env : Env} {st st' : Store} {a : AccountCall}
    (h : AccountCall.Written ctx env st a st') :
    st'.directory.organizations = st.directory.organizations ∨
      env.fresh ∉ st.directory.organizations ∧ ∃ row : Organization, row.ownerId = a.userId ∧
        st'.directory.organizations = st.directory.organizations.insert env.fresh row := by
  cases h with
  | organization a row hfresh howner => exact .inr ⟨hfresh, row, howner, rfl⟩
  | deleted _ _ _ _ _ horgs => exact .inl horgs
  | _ => exact .inl rfl

/-- The creation of an organisation goes on to seat the owner. -/
theorem AccountCall.seats_after {cfg : Config} {ctx : Ctx} {env : Env} {st st' : Store}
    {a a' : AccountCall} (h : a.step cfg ctx env st = some (st', a')) :
    st'.directory.organizations = st.directory.organizations ∨ a'.seats env.fresh := by
  cases AccountCall.stepped h
  case createProject r r' hq =>
    cases hpc : r.pc <;> simp only [CreateProject.step, hpc] at hq <;> (repeat' split at hq) <;> cases hq
    case insertOrganization.isFalse.isFalse => exact .inr rfl
    case insertQueue.isFalse.isFalse => left; unfold Store.insertFirstQueue; split <;> rfl
    all_goals exact .inl rfl
  case listProjects r r' hq =>
    cases hpc : r.pc <;> simp only [ListProjects.step, hpc] at hq <;> (repeat' split at hq) <;> cases hq
    case insertOrganization.isFalse.isFalse => exact .inr rfl
    case insertQueue.isFalse.isFalse => left; unfold Store.insertFirstQueue; split <;> rfl
    all_goals exact .inl rfl
  case deleteProject r r' hq =>
    unfold DeleteProject.step at hq
    (repeat' split at hq) <;> cases hq <;> exact .inl rfl
  case addMember r r' hq =>
    cases hpc : r.pc <;> simp only [AddMember.step, hpc] at hq <;> (repeat' split at hq) <;> cases hq <;>
      exact .inl rfl
  case createQueue r r' hq =>
    cases hpc : r.pc <;> simp only [CreateQueue.step, hpc] at hq <;> (repeat' split at hq) <;> cases hq <;>
      exact .inl rfl

/-! ## §4. One step. -/

section
variable {cfg : Config} {tr : List (Service × ServiceAction)} {v : Service}

/-- Who acted with which role is not forgotten. -/
theorem ActsAs.snoc {k : Nat} {r : AddMember} {actor : OrgRole} (h : ActsAs tr k r actor)
    (x : Service × ServiceAction) : ActsAs (tr ++ [x]) k r actor := by
  obtain ⟨t, env, hmem, hrest⟩ := h
  exact ⟨t, env, List.mem_append_left _ hmem, hrest⟩

/-- The clients of the system write neither projects nor members. -/
theorem step_accounts {s s' : Sys} {a : Action} (h : step cfg s a = some s') :
    s'.db.projects = s.db.projects ∧ s'.db.members = s.db.members := by
  cases stepped h with
  | wait | start => exact ⟨rfl, rfl⟩
  | run pid env p p' db' hp hnow hstep => exact Proc.step_accounts hstep

/-- A client of the system touches neither memberships nor projects. -/
theorem Ownership.acted (hO : Ownership tr v) {a : Action} {s' : Sys}
    (hs : JobScheduler.step cfg v.sys a = some s') :
    Ownership (tr ++ [(v, .act a)]) { v with sys := s' } := by
  obtain ⟨hprojects, hmembers⟩ := step_accounts hs
  have hrole : ∀ o u, s'.db.roleIn o u = v.sys.db.roleIn o u := by
    intro o u
    unfold Db.roleIn
    rw [hmembers]
  refine ⟨?_, ?_, ?_, ?_, hO.unique, ?_⟩
  · intro O org horg
    rw [hrole]
    exact hO.seated O org horg
  · intro O u
    rw [hrole]
    exact hO.owners O u
  · intro O u
    rw [hrole]
    exact hO.orgs O u
  · intro k a O hk hseats
    exact ⟨(hO.seats k a O hk hseats).1, fun u => by rw [hrole]; exact (hO.seats k a O hk hseats).2 u⟩
  · intro k r role hk hpc
    obtain ⟨hrole', ⟨actor, hacts, hrank⟩, hknown, hmember⟩ := hO.adders k r role hk hpc
    refine ⟨hrole', ⟨actor, hacts.snoc _, hrank⟩, ?_, ?_⟩
    · rw [hprojects]
      exact hknown
    · rw [hprojects]
      intro row hrow
      rw [hrole]
      exact hmember row hrow

/-- The membership request that acts has a member's organisation as its target. -/
theorem Ownership.target_known (hO : Ownership tr v) {pid : Nat} {r : AddMember} {role : OrgRole}
    (ha : v.account pid = some (.addMember r)) (hpc : r.pc = .upsert role) {O target : UUID}
    (htarget : r.targets v.store = some (O, target)) : v.sys.db.roleIn O r.userId ≠ none := by
  obtain ⟨row, hrow, hrest⟩ := Option.bind_eq_some_iff.mp htarget
  obtain ⟨user, _, he⟩ := Option.bind_eq_some_iff.mp hrest
  obtain ⟨rfl, _⟩ := Prod.mk.inj (Option.some.inj he)
  exact (hO.adders pid r role ha hpc).2.2.2 row hrow

section
variable {pid : Nat} {env : Env} {a a' : AccountCall} {st' : Store}

theorem put_account_cases {k : Nat} {b : AccountCall} (h : (v.put pid st' a').account k = some b) :
    (k = pid ∧ b = a') ∨ (k ≠ pid ∧ v.account k = some b) := by
  rw [Service.put_account] at h
  split at h
  · rename_i hk
    exact .inl ⟨hk, (Option.some.inj h).symm⟩
  · rename_i hk
    exact .inr ⟨hk, h⟩

/-- The organisations after a statement. -/
theorem Ownership.organization_cases
    (hs : a.step cfg v.sys.ctx env v.store = some (st', a')) {O : UUID} {org : Organization}
    (horg : st'.directory.organizations.lookup O = some org) :
    v.directory.organizations.lookup O = some org ∨
      O = env.fresh ∧ O ∉ v.directory.organizations ∧ a'.seats O := by
  rcases (AccountCall.step_written hs).organizations with heq | ⟨hfresh, row, _, heq⟩
  · exact .inl (heq ▸ horg)
  · rcases AccountCall.seats_after hs with hsame | hseats
    · exact .inl (hsame ▸ horg)
    · by_cases hO : O = env.fresh
      · subst hO
        exact .inr ⟨rfl, hfresh, hseats⟩
      · rw [heq, AList.lookup_insert_ne hO] at horg
        exact .inl horg

/-- Organisations keep their row. -/
theorem Ownership.organization_stays
    (hs : a.step cfg v.sys.ctx env v.store = some (st', a')) {O : UUID} {org : Organization}
    (horg : v.directory.organizations.lookup O = some org) :
    st'.directory.organizations.lookup O = some org := by
  rcases (AccountCall.step_written hs).organizations with heq | ⟨hfresh, row, _, heq⟩ <;> rw [heq]
  · exact horg
  · rw [AList.lookup_insert_ne]
    · exact horg
    · rintro rfl
      exact hfresh (AList.lookup_isSome.mp (by rw [show v.store.directory = v.directory from rfl, horg]; rfl))

/-- Memberships after a statement that does not demote an owner. -/
theorem Ownership.roles (hO : Ownership tr v) (ha : v.account pid = some a)
    (hs : a.step cfg v.sys.ctx env v.store = some (st', a')) : RoleChange env v.store a st' :=
  (AccountCall.step_written hs).roles (fun O hseats => (hO.seats pid a O ha hseats).2 a.userId)

/-- The owner keeps the seat, unless a statement demotes or leaves it empty. -/
theorem Ownership.seated_step (hO : Ownership tr v) (ha : v.account pid = some a)
    (hs : a.step cfg v.sys.ctx env v.store = some (st', a'))
    (hdemotes : (ServiceAction.serve pid env).demotesOwner v = false)
    (hleaves : (ServiceAction.serve pid env).leavesOwnerless v = false) {O : UUID} {org : Organization}
    (horg : st'.directory.organizations.lookup O = some org) :
    (∃ k b, (v.put pid st' a').account k = some b ∧ b.seats O) ∨
      st'.db.roleIn O org.ownerId = some .owner := by
  rcases Ownership.organization_cases hs horg with hold | ⟨_, _, hseats⟩
  · have hroles := hO.roles ha hs
    rcases hO.seated O org hold with ⟨k, b, hk, hseats⟩ | hrole
    · by_cases hkp : k = pid
      · -- the request that moves is the one that owes the membership
        subst hkp
        rw [ha] at hk
        cases hk
        right
        have hf := not_fails_of_seats hleaves ha hseats
        obtain ⟨⟨org', horg', howner⟩, hnone⟩ := hO.seats k a O ha hseats
        rw [hold] at horg'
        cases horg'
        rcases (AccountCall.step_seats hs hseats).2 with hbad | rfl | rfl
        · rw [hf] at hbad
          cases hbad
        · rw [Store.setDb_db, roleIn_upsertMember, if_pos ⟨rfl, howner⟩]
        · rw [Store.setDb_db, roleIn_insertMember _ _ _ _ (hnone a.userId), if_pos ⟨rfl, howner⟩]
      · exact .inl ⟨k, b, by rw [Service.put_account, if_neg hkp]; exact hk, hseats⟩
    · right
      cases hroles with
      | same h => rw [h]; exact hrole
      | seated O' _ h =>
          rw [h]
          split
          · rfl
          · exact hrole
      | granted r role O' target hadd hpc hf htarget h =>
          rw [h, if_neg]
          · exact hrole
          · -- otherwise the request demotes the owner
            rintro ⟨rfl, rfl⟩
            subst hadd
            simp [ServiceAction.demotesOwner, hf, ha, hpc, htarget, hold] at hdemotes
  · exact .inl ⟨pid, a', by rw [Service.put_account, if_pos rfl], hseats⟩

theorem Ownership.owners_step (hO : Ownership tr v) (ha : v.account pid = some a)
    (hs : a.step cfg v.sys.ctx env v.store = some (st', a')) {O u : UUID}
    (hrole : st'.db.roleIn O u = some .owner) :
    ∃ org, st'.directory.organizations.lookup O = some org ∧ org.ownerId = u := by
  have hkeep : (∃ org, v.directory.organizations.lookup O = some org ∧ org.ownerId = u) →
      ∃ org, st'.directory.organizations.lookup O = some org ∧ org.ownerId = u := by
    rintro ⟨org, horg, howner⟩
    exact ⟨org, Ownership.organization_stays hs horg, howner⟩
  cases hO.roles ha hs with
  | same h => exact hkeep (hO.owners O u ((h O u).symm.trans hrole))
  | seated O' hseats h =>
      rw [h] at hrole
      split at hrole
      · rename_i heq
        obtain ⟨rfl, rfl⟩ := heq
        exact hkeep (hO.seats pid a O ha hseats).1
      · exact hkeep (hO.owners O u hrole)
  | granted r role O' target hadd hpc _ _ h =>
      rw [h] at hrole
      split at hrole
      · subst hadd
        obtain rfl := Option.some.inj hrole
        exact absurd rfl (AddMember.memberRole_ne_owner (hO.adders pid r _ ha hpc).1)
      · exact hkeep (hO.owners O u hrole)

/-- A role is held in an organisation that exists. -/
theorem Ownership.orgs_step (hO : Ownership tr v) (ha : v.account pid = some a)
    (hs : a.step cfg v.sys.ctx env v.store = some (st', a')) {O u : UUID}
    (hrole : st'.db.roleIn O u ≠ none) : O ∈ st'.directory.organizations := by
  have hkeep : O ∈ v.directory.organizations → O ∈ st'.directory.organizations := by
    intro hmem
    obtain ⟨org, horg⟩ := Option.isSome_iff_exists.mp (AList.lookup_isSome.mpr hmem)
    exact AList.lookup_isSome.mp (by rw [Ownership.organization_stays hs horg]; rfl)
  cases hO.roles ha hs with
  | same h => exact hkeep (hO.orgs O u (fun hno => hrole ((h O u).trans hno)))
  | seated O' hseats h =>
      rw [h] at hrole
      split at hrole
      · rename_i heq
        obtain ⟨rfl, rfl⟩ := heq
        obtain ⟨org, horg, _⟩ := (hO.seats pid a O ha hseats).1
        exact hkeep (AList.lookup_isSome.mp (by rw [horg]; rfl))
      · exact hkeep (hO.orgs O u hrole)
  | granted r role O' target hadd hpc _ htarget h =>
      rw [h] at hrole
      split at hrole
      · rename_i heq
        obtain ⟨rfl, rfl⟩ := heq
        subst hadd
        exact hkeep (hO.orgs O r.userId (hO.target_known ha hpc htarget))
      · exact hkeep (hO.orgs O u hrole)

/-- A call that is about to seat an owner finds its own organisation, without any role in it. -/
theorem Ownership.seats_step (hO : Ownership tr v) (ha : v.account pid = some a)
    (hs : a.step cfg v.sys.ctx env v.store = some (st', a')) {k : Nat} {b : AccountCall} {O : UUID}
    (hk : (v.put pid st' a').account k = some b) (hseats : b.seats O) :
    (∃ org, st'.directory.organizations.lookup O = some org ∧ org.ownerId = b.userId) ∧
      ∀ u, st'.db.roleIn O u = none := by
  rcases put_account_cases hk with ⟨rfl, rfl⟩ | ⟨hne, hk₀⟩
  · -- the organisation has just been inserted: nobody has a role in it
    obtain ⟨rfl, hfresh, row, howner, rfl⟩ := AccountCall.seats_of_step hs hseats
    refine ⟨⟨row, AList.lookup_insert _, howner.trans (AccountCall.step_userId hs).symm⟩, fun u => ?_⟩
    by_contra hrole
    exact hfresh (hO.orgs env.fresh u hrole)
  · obtain ⟨⟨org, horg, howner⟩, hnone⟩ := hO.seats k b O hk₀ hseats
    refine ⟨⟨org, Ownership.organization_stays hs horg, howner⟩, fun u => ?_⟩
    cases hO.roles ha hs with
    | same h => rw [h]; exact hnone u
    | seated O' hseats' h =>
        rw [h, if_neg]
        · exact hnone u
        · rintro ⟨rfl, _⟩
          exact hne (hO.unique k pid b a O hk₀ ha hseats hseats')
    | granted r role O' target hadd hpc _ htarget h =>
        rw [h, if_neg]
        · exact hnone u
        · rintro ⟨rfl, _⟩
          subst hadd
          exact hO.target_known ha hpc htarget (hnone r.userId)

/-- No two calls seat an owner in one organisation. -/
theorem Ownership.unique_step (hO : Ownership tr v) (ha : v.account pid = some a)
    (hs : a.step cfg v.sys.ctx env v.store = some (st', a')) {k l : Nat} {b c : AccountCall} {O : UUID}
    (hk : (v.put pid st' a').account k = some b) (hl : (v.put pid st' a').account l = some c)
    (hb : b.seats O) (hc : c.seats O) : k = l := by
  have hclash : ∀ {i : Nat} {x : AccountCall}, v.account i = some x → x.seats O → a'.seats O → False := by
    intro i x hi hx hseats
    obtain ⟨rfl, hfresh, _⟩ := AccountCall.seats_of_step hs hseats
    obtain ⟨org, horg, _⟩ := (hO.seats i x env.fresh hi hx).1
    exact hfresh (AList.lookup_isSome.mp (by rw [show v.store.directory = v.directory from rfl, horg]; rfl))
  rcases put_account_cases hk with ⟨rfl, rfl⟩ | ⟨_, hk₀⟩ <;>
    rcases put_account_cases hl with ⟨rfl, rfl⟩ | ⟨_, hl₀⟩
  · rfl
  · exact (hclash hl₀ hc hb).elim
  · exact (hclash hk₀ hb hc).elim
  · exact hO.unique k l b c O hk₀ hl₀ hb hc

/-- A call that adds a member acts with the role it was checked for. -/
theorem Ownership.adders_step (hO : Ownership tr v) (ha : v.account pid = some a)
    (hfresh : env.fresh ∉ v.retired) (hs : a.step cfg v.sys.ctx env v.store = some (st', a'))
    {k : Nat} {r : AddMember} {role : OrgRole} (hk : (v.put pid st' a').account k = some (.addMember r))
    (hpc : r.pc = .upsert role) :
    r.memberRole = some role ∧
      (∃ actor, ActsAs (tr ++ [(v, .serve pid env)]) k r actor ∧ actor.hasRoleAtLeast .admin = true) ∧
      KnownId (v.put pid st' a').retired st'.db.projects r.projectId ∧
      ∀ row, st'.db.projects.lookup r.projectId = some row → st'.db.roleIn row.orgId r.userId ≠ none := by
  have hF := (AccountCall.step_written hs).follows hfresh
  have hroles := hO.roles ha hs
  rcases put_account_cases hk with ⟨rfl, hr⟩ | ⟨_, hk₀⟩
  · -- the request has just passed its check
    subst hr
    cases a <;> obtain ⟨⟨d, q⟩, hq, he⟩ := Option.map_eq_some_iff.mp hs <;> cases he
    rename_i r₀
    obtain ⟨rfl, hr₀, hrole, actor, hactor, hrank⟩ := AddMember.upsert_of_step hq hpc
    obtain ⟨row, hrow, hmember⟩ := Option.bind_eq_some_iff.mp hactor
    have hproject : r₀.projectId = q.projectId := by rw [hr₀]
    have huser : r₀.userId = q.userId := by rw [hr₀]
    refine ⟨hrole, ⟨actor, ⟨v, env, List.mem_append_right _ List.mem_cons_self, by rw [← hr₀]; exact ha,
      by rw [← hproject, ← huser]; exact hactor⟩, hrank⟩, ?_, ?_⟩
    · rw [← hproject]
      exact .inl (AList.lookup_isSome.mp (by rw [hrow]; rfl))
    · intro row' hrow'
      rw [← hproject, hrow] at hrow'
      cases hrow'
      rw [← huser, hmember]
      simp
  · obtain ⟨hrole, ⟨actor, hacts, hrank⟩, hknown, hmember⟩ := hO.adders k r role hk₀ hpc
    refine ⟨hrole, ⟨actor, hacts.snoc _, hrank⟩, hF.knownProjects _ hknown, fun row' hrow' => ?_⟩
    obtain ⟨row, hrow, hsame⟩ := hF.projects.old hF.unused hknown hrow'
    rw [hsame]
    exact hroles.stays (hmember row hrow)

end

/-- **One step keeps the owners**, unless it demotes one or leaves one out. -/
theorem ownership_step {v' : Service} {o : ServiceAction} (hO : Ownership tr v)
    (hdemotes : o.demotesOwner v = false) (hleaves : o.leavesOwnerless v = false)
    (h : v.step cfg o = some v') : Ownership (tr ++ [(v, o)]) v' := by
  cases Service.stepped h with
  | acted a s' hadm hs => exact hO.acted hs
  | requested pid r hfree =>
      have hret : (v.put pid v.store r.start).retired = v.retired := by
        simp [Service.put, Service.store, Db.lost, lostKeys]
      have hstart : ∀ O, ¬ r.start.seats O := by
        intro O hseats
        cases r <;> cases hseats
      have hold : ∀ {k b O}, (v.put pid v.store r.start).account k = some b → b.seats O →
          v.account k = some b := by
        intro k b O hk hseats
        rcases put_account_cases hk with ⟨_, rfl⟩ | ⟨_, hk₀⟩
        · exact (hstart O hseats).elim
        · exact hk₀
      refine ⟨?_, hO.owners, hO.orgs, ?_, ?_, ?_⟩
      · intro O org horg
        refine (hO.seated O org horg).imp_left ?_
        rintro ⟨k, b, hk, hseats⟩
        have hne : k ≠ pid := by rintro rfl; rw [hfree] at hk; cases hk
        exact ⟨k, b, by rw [Service.put_account, if_neg hne]; exact hk, hseats⟩
      · intro k b O hk hseats
        exact hO.seats k b O (hold hk hseats) hseats
      · intro k l b c O hk hl hb hc
        exact hO.unique k l b c O (hold hk hb) (hold hl hc) hb hc
      · intro k q role hk hpc
        rcases put_account_cases hk with ⟨_, hq⟩ | ⟨_, hk₀⟩
        · cases r <;> cases hq
          cases hpc
        · obtain ⟨hrole, ⟨actor, hacts, hrank⟩, hrest⟩ := hO.adders k q role hk₀ hpc
          rw [hret]
          exact ⟨hrole, ⟨actor, hacts.snoc _, hrank⟩, hrest⟩
  | served pid env a a' st' ha hfresh hs =>
      exact {
        seated := fun O org horg => hO.seated_step ha hs hdemotes hleaves horg
        owners := fun O u hrole => hO.owners_step ha hs hrole
        orgs := fun O u hrole => hO.orgs_step ha hs hrole
        seats := fun k b O hk hseats => hO.seats_step ha hs hk hseats
        unique := fun k l b c O hk hl hb hc => hO.unique_step ha hs hk hl hb hc
        adders := fun k r role hk hpc => hO.adders_step ha hfresh hs hk hpc }

end

/-! ## §5. Runs. -/

/-- The tables agree on who owns an organisation. -/
structure Store.Owned (st : Store) : Prop where
  seated : ∀ O org, st.directory.organizations.lookup O = some org →
    st.db.roleIn O org.ownerId = some .owner
  owners : ∀ O u, st.db.roleIn O u = some .owner →
    ∃ org, st.directory.organizations.lookup O = some org ∧ org.ownerId = u
  orgs : ∀ O u, st.db.roleIn O u ≠ none → O ∈ st.directory.organizations

/-- Ownership in every run that neither demotes an owner nor leaves an organisation without one.
-/
theorem ownership_run {cfg : Config} {clock : Timestamp} {db : Db} {directory : Directory}
    {tr : List (Service × ServiceAction)} {v : Service} (hown : Store.Owned ⟨db, directory⟩)
    (hrun : ServiceRun cfg (Service.atRest clock db directory) tr v)
    (hdemotes : ∀ p ∈ tr, p.2.demotesOwner p.1 = false)
    (hleaves : ∀ p ∈ tr, p.2.leavesOwnerless p.1 = false) : Ownership tr v := by
  induction hrun with
  | nil =>
      refine ⟨fun O org horg => .inr (hown.seated O org horg), hown.owners, hown.orgs, ?_, ?_, ?_⟩
      all_goals intro k; intros; simp at *
  | @snoc tr s s' o _ hs ih =>
      have hlast : (s, o) ∈ tr ++ [(s, o)] := List.mem_append_right _ List.mem_cons_self
      refine ownership_step (ih (fun p hp => hdemotes p (List.mem_append_left _ hp))
        (fun p hp => hleaves p (List.mem_append_left _ hp))) (hdemotes _ hlast) (hleaves _ hlast) hs

/-- **Ownership is not usurped unless a membership request hits an owner.**  In
every run, any statements of any clients interleaved, in which no membership
request overwrites the membership of an organisation's owner and the INSERT of
the membership of a new owner is not rejected: every organisation has its owner
as a member with role `owner`, unless its creation is still about to insert that
membership; and a membership request that changes a role has found its user to be
of at least the rank that the member had. -/
theorem ownership_held {cfg : Config} {clock : Timestamp} {db : Db} {directory : Directory}
    {tr : List (Service × ServiceAction)} {v : Service} (hown : Store.Owned ⟨db, directory⟩)
    (hrun : ServiceRun cfg (Service.atRest clock db directory) tr v)
    (hdemotes : ∀ p ∈ tr, p.2.demotesOwner p.1 = false)
    (hleaves : ∀ p ∈ tr, p.2.leavesOwnerless p.1 = false) :
    (∀ O org, v.directory.organizations.lookup O = some org →
      (∀ k a, v.account k = some a → ¬ a.seats O) → v.sys.db.roleIn O org.ownerId = some .owner) ∧
    (∀ tr₁ t k env tr₂ t' r, tr = tr₁ ++ (t, .serve k env) :: tr₂ →
      Service.step cfg t (.serve k env) = some t' → t.account k = some (.addMember r) →
      ∀ O u old, t.sys.db.roleIn O u = some old → t'.sys.db.roleIn O u ≠ some old →
        ∃ actor, ActsAs tr₁ k r actor ∧ old.rank ≤ actor.rank) := by
  refine ⟨fun O org horg hno => ?_, ?_⟩
  · have hO := ownership_run hown hrun hdemotes hleaves
    refine (hO.seated O org horg).resolve_left ?_
    rintro ⟨k, a, hk, hseats⟩
    exact hno k a hk hseats
  · rintro tr₁ t k env tr₂ t' r rfl hstep hk O u old hold hnew
    obtain ⟨_, hpre, _, _⟩ := hrun.split_cons
    have hO := ownership_run hown hpre (fun p hp => hdemotes p (List.mem_append_left _ hp))
      (fun p hp => hleaves p (List.mem_append_left _ hp))
    have hd := hdemotes _ (List.mem_append_right tr₁ List.mem_cons_self)
    cases Service.stepped hstep with
    | served _ _ a a' st' ha hfresh hs =>
        rw [hk] at ha
        cases ha
        cases hO.roles hk hs with
        | same h => exact absurd ((h O u).trans hold) hnew
        | seated _ hseats => cases hseats
        | granted r' role O' target hadd hpc hf htarget h =>
            cases hadd
            by_cases hhit : O = O' ∧ u = target
            · obtain ⟨rfl, rfl⟩ := hhit
              obtain ⟨_, ⟨actor, hacts, hrank⟩, _⟩ := hO.adders k r role hk hpc
              refine ⟨actor, hacts, ?_⟩
              -- the target is not an owner, and the actor is at least an admin
              have hne : old ≠ .owner := by
                rintro rfl
                obtain ⟨org, horg, rfl⟩ := hO.owners O u hold
                simp [ServiceAction.demotesOwner, hf, hk, hpc, htarget, horg] at hd
              have hadmin : OrgRole.admin.rank ≤ actor.rank := of_decide_eq_true hrank
              refine le_trans ?_ hadmin
              cases old <;> first | exact absurd rfl hne | decide
            · exact absurd (((h O u).trans (if_neg hhit)).trans hold) hnew

/-- Nobody yet: two users. -/
def Directory.twoUsers : Directory where
  users := ((∅ : Table UUID User).insert 2 ⟨"b@"⟩).insert 1 ⟨"a@"⟩
  organizations := ∅
  projectNames := ∅

/-- User 1 creates organisation 11 with project 12, and makes user 2 an admin. -/
def delegateActions : List ServiceAction :=
  [.request 0 (.createProject 1 "a@" "p" (some "o")), .serve 0 { now := 0 },
    .serve 0 { now := 0, fresh := 11 }, .serve 0 { now := 0 }, .serve 0 { now := 0 },
    .serve 0 { now := 0, fresh := 12 }, .serve 0 { now := 0, fresh := 13 },
    .request 1 (.addMember 1 12 (some "b@") (some "admin")), .serve 1 { now := 0 },
    .serve 1 { now := 0 }]

theorem owned_empty : Store.Owned ⟨Db.empty, Directory.twoUsers⟩ where
  seated := by intro O org h; cases h
  owners := by intro O u h; cases h
  orgs := by intro O u h; exact absurd rfl h

theorem ownership_held_delegated :
    (play (Service.step Config.small) (Service.atRest 0 Db.empty Directory.twoUsers)
      delegateActions).sys.db.roleIn 11 1 = some .owner := by
  have hrun := run_of_play (Service.step Config.small)
    (Service.atRest 0 Db.empty Directory.twoUsers) delegateActions (by rfl)
  exact (ownership_held owned_empty hrun (by decide) (by decide)).1 11 ⟨"o", 1, 0⟩ (by rfl)
    (fun k a hk => not_seats_of_all (by decide) hk 11)

/-- Then user 2 makes user 1 a viewer. -/
def usurpActions : List ServiceAction :=
  delegateActions ++ [.request 2 (.addMember 2 12 (some "a@") (some "viewer")),
    .serve 2 { now := 0 }, .serve 2 { now := 0 }]

/-- The admin has demoted the owner: nobody owns organisation 11 any more. -/
theorem admin_demotes_owner :
    ∃ tr v, ServiceRun Config.small (Service.atRest 0 Db.empty Directory.twoUsers) tr v ∧
      v.directory.organizations.lookup 11 = some ⟨"o", 1, 0⟩ ∧
      v.sys.db.roleIn 11 1 = some .viewer ∧ v.sys.db.roleIn 11 2 = some .admin ∧
      (∀ m ∈ v.sys.db.members, m.role ≠ .owner) ∧
      (play (Service.step Config.small) (Service.atRest 0 Db.empty Directory.twoUsers)
        delegateActions).sys.db.roleIn 11 1 = some .owner ∧
      OrgRole.admin.rank < OrgRole.owner.rank := by
  refine ⟨_, _, run_of_play _ _ usurpActions (by rfl), by rfl, by rfl, by rfl, ?_, by rfl, by decide⟩
  decide

end JobScheduler
