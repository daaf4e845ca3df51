/-
  JobScheduler.Tenancy.Seeding
  ────────────────────────────
  GET /projects gives a user without a project a default organisation with a
  project and a queue.  Only the COUNT guards the four inserts, so two requests
  that both count before either has inserted its project seed twice.

  As long as no request counts in that window one request seeds, and the store is
  at every moment one of six that the start determines (`SeedStage`).
-/
import JobScheduler.Routes.ProjectList

namespace JobScheduler

open Relational Transition

/-! ## §1. A single seeding, and the runs that have one. -/

/-- The organisation is the user's default one. -/
def Store.isDefaultOrg (st : Store) (userId orgId : UUID) : Prop :=
  ∃ o, st.directory.organizations.lookup orgId = some o ∧ o.ownerId = userId ∧ o.name = "Default Org"

/-- One default organisation `O`, one membership in it, one project `P` and one queue `Q`. -/
structure SeededOnce (userId : UUID) (st : Store) (O P Q : UUID) : Prop where
  organization : ∀ id, st.isDefaultOrg userId id ↔ id = O
  membership : st.db.members.filter (fun m => decide (m.orgId = O) && decide (m.userId = userId))
    = [⟨O, userId, .owner⟩]
  project : ∀ id, (∃ p, st.db.projects.lookup id = some p ∧ st.db.sees userId p = true) ↔ id = P
  projectRow : st.db.projects.lookup P = some ⟨O⟩ ∧
    st.directory.projectNames.lookup P = some "Default Project"
  queue : ∀ id, (∃ q, st.db.queues.lookup id = some q ∧ q.projectId = P) ↔ id = Q
  queueRow : st.db.queues.lookup Q = some (Queue.first P "default-queue")

/-- The foreign keys of the tables that the request reads. -/
structure Store.Referenced (st : Store) : Prop where
  memberOrg : ∀ m ∈ st.db.members, m.orgId ∈ st.directory.organizations
  projectOrg : ∀ id p, st.db.projects.lookup id = some p → p.orgId ∈ st.directory.organizations
  queueProject : ∀ id q, st.db.queues.lookup id = some q → q.projectId ∈ st.db.projects

/-- A user without a project, and without an organisation that a default project left behind. -/
structure Store.Unseeded (st : Store) (userId : UUID) : Prop extends st.Referenced where
  user : userId ∈ st.directory.users
  none : ∀ id p, st.db.projects.lookup id = some p → st.db.sees userId p = false
  noDefault : ∀ id, ¬ st.isDefaultOrg userId id

/-- The request has counted none and not yet inserted its project. -/
def ListProjectsPc.seeding : ListProjectsPc → Bool
  | .insertOrganization | .insertMember _ | .insertProject _ => true
  | _ => false

/-- The statement is not rejected, and no request counts while another one is seeding. -/
def Listings.orderly (s : Listings) : ListingsAction → Bool
  | .start _ _ => true
  | .statement pid env => !env.fails && (s.calls.lookup pid).all (fun c =>
      match c.request.pc with
      | .count => s.calls.all (fun _ c' => !c'.request.pc.seeding)
      | _ => true)

theorem Listings.orderly_statement {s : Listings} {pid : Nat} {env : Env} {c : ProjectListing}
    (h : s.orderly (.statement pid env) = true) (hc : s.calls.lookup pid = some c) :
    env.fails = false ∧ (c.request.pc = .count →
      ∀ other c', s.calls.lookup other = some c' → c'.request.pc.seeding = false) := by
  simp only [Listings.orderly, hc, Option.all_some, Bool.and_eq_true, Bool.not_eq_true'] at h
  refine ⟨h.1, ?_⟩
  intro hpc other c' hc'
  have hall := h.2
  rw [hpc] at hall
  simpa using (Table.all_iff _ _).mp hall other c' hc'

/-! ## §2. The stores of one seeding. -/

namespace Store

variable {st : Store} {u O P Q : UUID} {now : Timestamp}

/-- The store after the first INSERT of the seeding. -/
def withOrganization (st : Store) (u O : UUID) (now : Timestamp) : Store :=
  st.insertOrganization O ⟨"Default Org", u, now⟩

/-- The store after the second one. -/
def withMember (st : Store) (u O : UUID) (now : Timestamp) : Store :=
  (st.withOrganization u O now).setDb ((st.withOrganization u O now).db.insertMember ⟨O, u, .owner⟩)

/-- The store after the third one. -/
def withProject (st : Store) (u O : UUID) (now : Timestamp) (P : UUID) : Store :=
  (st.withMember u O now).insertProject P O "Default Project"

/-- The store after the last one: the seeding is complete. -/
def withQueue (st : Store) (u O : UUID) (now : Timestamp) (P Q : UUID) : Store :=
  (st.withProject u O now P).insertFirstQueue Q P "default-queue"

/-- Nobody is a member of a new organisation. -/
theorem withMember_members (hR : st.Referenced) (hO : O ∉ st.directory.organizations) :
    (st.withMember u O now).db.members = st.db.members ++ [⟨O, u, .owner⟩] := by
  have hnone : st.db.members.any (Member.sameKey ⟨O, u, .owner⟩) = false := by
    rw [List.any_eq_false]
    intro m hm hkey
    have horg : m.orgId = O := by
      simp only [Member.sameKey, Bool.and_eq_true, decide_eq_true_eq] at hkey
      exact hkey.1
    exact hO (horg ▸ hR.memberOrg m hm)
  show (if st.db.members.any _ = true then st.db.members else st.db.members ++ [⟨O, u, .owner⟩]) = _
  rw [hnone]
  rfl

/-- The new membership shows the new organisation and no other one. -/
theorem withMember_sees (hR : st.Referenced) (hO : O ∉ st.directory.organizations) (p : Project) :
    (st.withMember u O now).db.sees u p = (decide (p.orgId = O) || st.db.sees u p) := by
  unfold Db.sees Db.roleIn
  rw [withMember_members hR hO, List.find?_append]
  by_cases horg : p.orgId = O
  · have hlast : List.find? (fun m : Member => m.orgId == p.orgId && m.userId == u) [⟨O, u, .owner⟩]
        = some ⟨O, u, .owner⟩ := by simp [horg]
    rw [hlast, decide_eq_true horg]
    cases st.db.members.find? (fun m => m.orgId == p.orgId && m.userId == u) <;> rfl
  · have hlast : List.find? (fun m : Member => m.orgId == p.orgId && m.userId == u) [⟨O, u, .owner⟩]
        = Option.none := by
      have hne : ¬ O = p.orgId := fun h => horg h.symm
      simp [hne]
    rw [hlast, Option.or_none, decide_eq_false horg, Bool.false_or]

/-- The new project is the user's only one. -/
theorem withProject_sees (hU : st.Unseeded u) (hO : O ∉ st.directory.organizations) {id : UUID}
    {p : Project} (hp : (st.withProject u O now P).db.projects.lookup id = some p) :
    (st.withProject u O now P).db.sees u p = decide (id = P) := by
  have hinsert : (st.db.projects.insert P ⟨O⟩).lookup id = some p := hp
  show (st.withMember u O now).db.sees u p = decide (id = P)
  rw [withMember_sees hU.toReferenced hO]
  rcases Table.lookup_insert_eq_some.mp hinsert with ⟨hid, rfl⟩ | ⟨hid, hold⟩
  · rw [decide_eq_true hid, decide_eq_true rfl, Bool.true_or]
  · have horg : p.orgId ≠ O := fun h => hO (h ▸ hU.projectOrg id p hold)
    rw [decide_eq_false hid, decide_eq_false horg, hU.none id p hold, Bool.or_self]

/-- The COUNT finds it. -/
theorem withProject_count (hU : st.Unseeded u) (hO : O ∉ st.directory.organizations) :
    (st.withProject u O now P).db.projectCount u = 1 := by
  unfold Db.projectCount Table.count
  rw [Finset.card_eq_one]
  refine ⟨P, ?_⟩
  ext id
  rw [Table.mem_keysWhere, Finset.mem_singleton]
  constructor
  · intro h
    obtain ⟨p, hp, hsees⟩ := h
    rw [withProject_sees hU hO hp] at hsees
    exact of_decide_eq_true hsees
  · intro h
    have hp : (st.withProject u O now P).db.projects.lookup id = some ⟨O⟩ := by
      rw [h]
      exact AList.lookup_insert _
    exact ⟨⟨O⟩, hp, by rw [withProject_sees hU hO hp]; exact decide_eq_true h⟩

/-- The new organisation has no project yet. -/
theorem withMember_nameFree (hR : st.Referenced) (hO : O ∉ st.directory.organizations)
    (name : String) : (st.withMember u O now).projectNameTaken O name = false := by
  unfold projectNameTaken
  rw [Bool.not_eq_false', Table.all_iff]
  intro id p hp
  have horg : p.orgId ≠ O := fun h => hO (h ▸ hR.projectOrg id p hp)
  simp [horg]

/-- The new project has no queue yet. -/
theorem withProject_queueFree (hR : st.Referenced) (hP : P ∉ st.db.projects) (name : String) :
    (st.withProject u O now P).db.queueNameTaken P name = false := by
  unfold Db.queueNameTaken
  rw [Bool.not_eq_false', Table.all_iff]
  intro id q hq
  have hproject : q.projectId ≠ P := fun h => hP (h ▸ hR.queueProject id q hq)
  simp [hproject]

theorem withQueue_queues (hR : st.Referenced) (hP : P ∉ st.db.projects) :
    st.withQueue u O now P Q = (st.withProject u O now P).setDb
      ((st.withProject u O now P).db.insertQueue Q (Queue.first P "default-queue")) := by
  unfold withQueue insertFirstQueue
  rw [withProject_queueFree hR hP]
  rfl

/-- **One seeding.**  It leaves one of each. -/
theorem withQueue_seededOnce (hU : st.Unseeded u) (hO : O ∉ st.directory.organizations)
    (hP : P ∉ st.db.projects) : SeededOnce u (st.withQueue u O now P Q) O P Q := by
  rw [withQueue_queues hU.toReferenced hP]
  exact {
    organization := by
      intro id
      show (∃ o, (st.directory.organizations.insert O ⟨"Default Org", u, now⟩).lookup id = some o ∧ _) ↔ _
      rw [Table.lookup_insert_ite]
      by_cases hid : id = O
      · rw [if_pos hid]
        exact ⟨fun _ => hid, fun _ => ⟨_, rfl, rfl, rfl⟩⟩
      · rw [if_neg hid]
        exact ⟨fun h => absurd h (hU.noDefault id), fun h => absurd h hid⟩
    membership := by
      show (st.withMember u O now).db.members.filter _ = _
      rw [withMember_members hU.toReferenced hO, List.filter_append]
      have hold : st.db.members.filter
          (fun m => decide (m.orgId = O) && decide (m.userId = u)) = [] := by
        rw [List.filter_eq_nil_iff]
        intro m hm hkey
        have horg : m.orgId = O := by
          simp only [Bool.and_eq_true, decide_eq_true_eq] at hkey
          exact hkey.1
        exact hO (horg ▸ hU.memberOrg m hm)
      rw [hold]
      simp
    project := by
      intro id
      constructor
      · intro h
        obtain ⟨p, hp, hsees⟩ := h
        have honly := withProject_sees hU hO hp
        exact of_decide_eq_true (honly.symm.trans hsees)
      · intro h
        have hp : (st.withProject u O now P).db.projects.lookup id = some ⟨O⟩ := by
          rw [h]
          exact AList.lookup_insert _
        exact ⟨⟨O⟩, hp, (withProject_sees hU hO hp).trans (decide_eq_true h)⟩
    projectRow := ⟨AList.lookup_insert _, AList.lookup_insert _⟩
    queue := by
      intro id
      show (∃ q, (st.db.queues.insert Q (Queue.first P "default-queue")).lookup id = some q ∧ _) ↔ _
      rw [Table.lookup_insert_ite]
      by_cases hid : id = Q
      · rw [if_pos hid]
        exact ⟨fun _ => hid, fun _ => ⟨_, rfl, rfl⟩⟩
      · rw [if_neg hid]
        refine ⟨fun h => ?_, fun h => absurd h hid⟩
        obtain ⟨q, hq, hproject⟩ := h
        exact absurd (hproject ▸ hU.queueProject id q hq) hP
    queueRow := AList.lookup_insert _ }

end Store

/-! ## §3. Stages. -/

/-- How far the only seeding has come. -/
inductive SeedStage
  | idle
  | organization
  | member (O : UUID) (now : Timestamp)
  | project (O : UUID) (now : Timestamp)
  | queue (O : UUID) (now : Timestamp) (P : UUID)
  | done (O : UUID) (now : Timestamp) (P Q : UUID)

namespace SeedStage

/-- The store in this stage. -/
def store (st : Store) (u : UUID) : SeedStage → Store
  | .idle | .organization => st
  | .member O now => st.withOrganization u O now
  | .project O now => st.withMember u O now
  | .queue O now P => st.withProject u O now P
  | .done O now P Q => st.withQueue u O now P Q

/-- The ids that the seeding has inserted were new. -/
def Fresh (st : Store) : SeedStage → Prop
  | .idle | .organization => True
  | .member O _ | .project O _ => O ∉ st.directory.organizations
  | .queue O _ P | .done O _ P _ => O ∉ st.directory.organizations ∧ P ∉ st.db.projects

/-- Where the seeding request is. -/
def seeder : SeedStage → Option ListProjectsPc
  | .idle | .done _ _ _ _ => none
  | .organization => some .insertOrganization
  | .member O _ => some (.insertMember O)
  | .project O _ => some (.insertProject O)
  | .queue _ _ P => some (.insertQueue P)

/-- The COUNT finds the new project. -/
def counted : SeedStage → Bool
  | .queue _ _ _ | .done _ _ _ _ => true
  | _ => false

end SeedStage

/-- A request that is not seeding: it has not counted, or it has found or made the project. -/
def ProjectListing.Waits (stage : SeedStage) (c : ProjectListing) : Prop :=
  c.request.pc = .count ∨ (stage.counted = true ∧ c.total = 1 ∧
    (c.request.pc = .list ∨
      ∃ page, c.request.pc = .replied (.success 200) ∧ c.response = some page ∧ page.total = 1))

/-- The store is that of the stage, and at most request `k` is seeding. -/
structure Seeding (st : Store) (u : UUID) (stage : SeedStage) (k : Nat) (s : Listings) : Prop where
  store : s.store = stage.store st u
  fresh : stage.Fresh st
  user : ∀ pid c, s.calls.lookup pid = some c → c.request.userId = u
  calls : ∀ pid c, s.calls.lookup pid = some c →
    c.Waits stage ∨ (pid = k ∧ stage.seeder = some c.request.pc)
  pending : ∀ pc, stage.seeder = some pc → ∃ c, s.calls.lookup k = some c ∧ c.request.pc = pc

/-- A waiting request waits on. -/
theorem ProjectListing.Waits.mono {stage stage' : SeedStage} {c : ProjectListing} (h : c.Waits stage)
    (hcounted : stage.counted = true → stage'.counted = true) : c.Waits stage' := by
  rcases h with hcount | ⟨hstage, hrest⟩
  · exact Or.inl hcount
  · exact Or.inr ⟨hcounted hstage, hrest⟩

variable {st : Store} {u : UUID} {stage stage' : SeedStage} {k : Nat} {s s' : Listings}

/-- The seeding request has advanced, or another request has taken over an idle stage. -/
theorem Seeding.advance (hS : Seeding st u stage k s) {pid : Nat} {c : ProjectListing} {store : Store}
    (hothers : pid = k ∨ stage.seeder = none) (hstore : store = stage'.store st u)
    (hfresh : stage'.Fresh st) (hcounted : stage.counted = true → stage'.counted = true)
    (huser : c.request.userId = u)
    (hcall : c.Waits stage' ∧ stage'.seeder = none ∨ stage'.seeder = some c.request.pc) :
    Seeding st u stage' pid { store := store, calls := s.calls.insert pid c } where
  store := hstore
  fresh := hfresh
  user := by
    intro i q hq
    rcases Table.lookup_insert_eq_some.mp hq with ⟨_, rfl⟩ | ⟨_, hold⟩
    · exact huser
    · exact hS.user i q hold
  calls := by
    intro i q hq
    rcases Table.lookup_insert_eq_some.mp hq with ⟨hi, rfl⟩ | ⟨hne, hold⟩
    · rcases hcall with hwaits | hseeder
      · exact Or.inl hwaits.1
      · exact Or.inr ⟨hi, hseeder⟩
    · rcases hS.calls i q hold with hwaits | ⟨hik, hseeder⟩
      · exact Or.inl (hwaits.mono hcounted)
      · rcases hothers with hk | hnone
        · exact absurd (hik.trans hk.symm) hne
        · rw [hnone] at hseeder
          cases hseeder
  pending := by
    intro pc hpc
    rcases hcall with hwaits | hseeder
    · rw [hwaits.2] at hpc
      cases hpc
    · exact ⟨c, AList.lookup_insert _, Option.some.inj (hseeder.symm.trans hpc)⟩

theorem Seeding.not_seeding (hS : Seeding st u stage k s) {pid : Nat} {c : ProjectListing}
    (hc : s.calls.lookup pid = some c) (hnot : stage.seeder ≠ some c.request.pc) :
    pid = k → stage.seeder = none := by
  intro hk
  by_contra hne
  obtain ⟨pc, hseeder⟩ := Option.ne_none_iff_exists'.mp hne
  obtain ⟨q, hq, rfl⟩ := hS.pending pc hseeder
  rw [← hk, hc] at hq
  obtain rfl := Option.some.inj hq
  exact hnot hseeder

/-- A request that is not seeding has made a step, and the store is as before. -/
theorem Seeding.other (hS : Seeding st u stage k s) {pid : Nat} {c : ProjectListing} {store : Store}
    (hnot : pid = k → stage.seeder = none) (hstore : store = s.store) (huser : c.request.userId = u)
    (hwaits : c.Waits stage) : Seeding st u stage k { store := store, calls := s.calls.insert pid c } where
  store := hstore.trans hS.store
  fresh := hS.fresh
  user := by
    intro i q hq
    rcases Table.lookup_insert_eq_some.mp hq with ⟨_, rfl⟩ | ⟨_, hold⟩
    · exact huser
    · exact hS.user i q hold
  calls := by
    intro i q hq
    rcases Table.lookup_insert_eq_some.mp hq with ⟨_, rfl⟩ | ⟨_, hold⟩
    · exact Or.inl hwaits
    · exact hS.calls i q hold
  pending := by
    intro pc hpc
    have hne : k ≠ pid := by
      intro heq
      rw [hnot heq.symm] at hpc
      cases hpc
    obtain ⟨q, hq, hqpc⟩ := hS.pending pc hpc
    exact ⟨q, by rw [Table.lookup_insert_ite, if_neg hne]; exact hq, hqpc⟩

/-! ## §4. One statement. -/

namespace ProjectListing

variable {c c' : ProjectListing} {env : Env} {db₀ store' : Store}

/-- What the request and its variables become. -/
theorem step_some (h : c.step env db₀ = some (store', c')) :
    ∃ r, c.request.step env db₀ = some (store', r) ∧ c' = c.keep db₀ r := by
  obtain ⟨⟨store, r⟩, hr, hpair⟩ := Option.map_eq_some_iff.mp h
  obtain ⟨rfl, rfl⟩ := Prod.mk.inj hpair
  exact ⟨r, hr, rfl⟩

/-- The COUNT decides whether the request seeds. -/
theorem step_count (hpc : c.request.pc = .count) (hf : env.fails = false)
    (h : c.step env db₀ = some (store', c')) :
    store' = db₀ ∧ c'.request.userId = c.request.userId ∧ c'.total = db₀.db.projectCount c.request.userId ∧
      c'.request.pc = if c.request.hasNone db₀.db then .insertOrganization else .list := by
  obtain ⟨r, hr, rfl⟩ := step_some h
  simp only [ListProjects.step, hpc, hf, Bool.false_eq_true, if_false, Option.some.injEq,
    Prod.mk.injEq] at hr
  obtain ⟨rfl, rfl⟩ := hr
  unfold keep ListProjects.goto
  by_cases hnone : c.request.hasNone db₀.db = true
  · simp [hnone, hpc]
  · simp [hnone, hpc]

/-- The list ends the request. -/
theorem step_list (hpc : c.request.pc = .list) (hf : env.fails = false)
    (h : c.step env db₀ = some (store', c')) :
    store' = db₀ ∧ c'.request.userId = c.request.userId ∧ c'.total = c.total ∧
      c'.request.pc = .replied (.success 200) ∧
      ∃ page, c'.response = some page ∧ page.total = c.total := by
  obtain ⟨r, hr, rfl⟩ := step_some h
  simp only [ListProjects.step, hpc, hf, Bool.false_eq_true, if_false, Option.some.injEq,
    Prod.mk.injEq] at hr
  obtain ⟨rfl, rfl⟩ := hr
  unfold keep ListProjects.goto
  simp [hpc, buildPaginatedResponse]

theorem step_organization (hpc : c.request.pc = .insertOrganization) (hf : env.fails = false)
    (huser : c.request.userId ∈ db₀.directory.users) (h : c.step env db₀ = some (store', c')) :
    env.fresh ∉ db₀.directory.organizations ∧
      store' = db₀.withOrganization c.request.userId env.fresh env.now ∧
      c'.request.userId = c.request.userId ∧ c'.request.pc = .insertMember env.fresh := by
  obtain ⟨r, hr, rfl⟩ := step_some h
  simp only [ListProjects.step, hpc, hf, Bool.false_or, decide_eq_true_eq] at hr
  rw [if_neg (not_not_intro huser)] at hr
  split at hr
  · cases hr
  · rename_i hfresh
    obtain ⟨rfl, rfl⟩ := Prod.mk.inj (Option.some.inj hr)
    unfold keep ListProjects.goto
    simp only [hpc]
    exact ⟨hfresh, rfl, trivial, trivial⟩

theorem step_member {O : UUID} (hpc : c.request.pc = .insertMember O) (hf : env.fails = false)
    (h : c.step env db₀ = some (store', c')) :
    store' = db₀.setDb (db₀.db.insertMember ⟨O, c.request.userId, .owner⟩) ∧
      c'.request.userId = c.request.userId ∧ c'.request.pc = .insertProject O := by
  obtain ⟨r, hr, rfl⟩ := step_some h
  simp only [ListProjects.step, hpc, hf, Bool.false_eq_true, if_false, Option.some.injEq,
    Prod.mk.injEq] at hr
  obtain ⟨rfl, rfl⟩ := hr
  unfold keep ListProjects.goto
  simp only [hpc]
  exact ⟨trivial, trivial, trivial⟩

theorem step_project {O : UUID} (hpc : c.request.pc = .insertProject O) (hf : env.fails = false)
    (hname : db₀.projectNameTaken O "Default Project" = false)
    (h : c.step env db₀ = some (store', c')) :
    env.fresh ∉ db₀.db.projects ∧ store' = db₀.insertProject env.fresh O "Default Project" ∧
      c'.request.userId = c.request.userId ∧ c'.request.pc = .insertQueue env.fresh := by
  obtain ⟨r, hr, rfl⟩ := step_some h
  simp only [ListProjects.step, hpc, hf, hname, Bool.or_self, Bool.false_eq_true, if_false] at hr
  split at hr
  · cases hr
  · rename_i hfresh
    obtain ⟨rfl, rfl⟩ := Prod.mk.inj (Option.some.inj hr)
    unfold keep ListProjects.goto
    simp only [hpc]
    exact ⟨hfresh, trivial, trivial, trivial⟩

theorem step_queue {P : UUID} (hpc : c.request.pc = .insertQueue P) (hf : env.fails = false)
    (hproject : P ∈ db₀.db.projects) (h : c.step env db₀ = some (store', c')) :
    store' = db₀.insertFirstQueue env.fresh P "default-queue" ∧
      c'.request.userId = c.request.userId ∧ c'.request.pc = .list ∧ c'.total = 1 := by
  obtain ⟨r, hr, rfl⟩ := step_some h
  simp only [ListProjects.step, hpc, hf, Bool.false_or, decide_eq_true_eq] at hr
  rw [if_neg (not_not_intro hproject)] at hr
  split at hr
  · cases hr
  · obtain ⟨rfl, rfl⟩ := Prod.mk.inj (Option.some.inj hr)
    unfold keep ListProjects.goto
    simp only [hpc]
    exact ⟨trivial, trivial, trivial, trivial⟩

end ProjectListing

/-! ## §5. Every run. -/

/-- The COUNT is zero when the user sees no project. -/
theorem hasNone_iff {r : ListProjects} {db : Db} :
    r.hasNone db = true ↔ ∀ id p, db.projects.lookup id = some p → db.sees r.userId p = false := by
  unfold ListProjects.hasNone Db.sees
  rw [Table.all_iff]
  simp only [Option.isNone_iff_eq_none, Option.isSome_eq_false_iff]

theorem projectCount_eq_zero {r : ListProjects} {db : Db} (h : r.hasNone db = true) :
    db.projectCount r.userId = 0 := by
  by_contra hne
  obtain ⟨id, p, hp, hsees⟩ := (Table.count_ne_zero _ _).mp hne
  rw [hasNone_iff.mp h id p hp] at hsees
  cases hsees

/-- Once seeded the user sees one project. -/
theorem SeedStage.store_count (hU : st.Unseeded u) (hfresh : stage.Fresh st)
    (hcounted : stage.counted = true) : (stage.store st u).db.projectCount u = 1 := by
  cases stage with
  | queue O now P => exact Store.withProject_count hU hfresh.1
  | done O now P Q =>
      show (st.withQueue u O now P Q).db.projectCount u = 1
      rw [Store.withQueue_queues hU.toReferenced hfresh.2]
      exact Store.withProject_count hU hfresh.1
  | idle => cases hcounted
  | organization => cases hcounted
  | member O now => cases hcounted
  | project O now => cases hcounted

/-- Before the project is inserted a COUNT finds none, and only an idle stage admits one. -/
theorem Seeding.count (hU : st.Unseeded u) (hS : Seeding st u stage k s) {pid : Nat} {env : Env}
    {c c' : ProjectListing} {store' : Store} (hc : s.calls.lookup pid = some c)
    (hpc : c.request.pc = .count) (hf : env.fails = false)
    (hfree : ∀ other c', s.calls.lookup other = some c' → c'.request.pc.seeding = false)
    (h : c.step env s.store = some (store', c')) :
    ∃ stage' k', Seeding st u stage' k' { store := store', calls := s.calls.insert pid c' } := by
  obtain ⟨hstore, huser, htotal, hpc'⟩ := ProjectListing.step_count hpc hf h
  have hcu := hS.user pid c hc
  have hnot : stage.seeder ≠ some c.request.pc := by
    rw [hpc]
    cases stage <;> simp [SeedStage.seeder]
  -- the seeding request, if there is one, is past its project
  have hpast : ∀ pc, stage.seeder = some pc → pc.seeding = false := by
    intro pc hpc''
    obtain ⟨q, hq, rfl⟩ := hS.pending pc hpc''
    exact hfree k q hq
  have hcases : stage = .idle ∨ stage.counted = true := by
    cases stage with
    | idle => exact Or.inl rfl
    | organization => exact absurd (hpast _ rfl) (by decide)
    | member O now => exact absurd (hpast _ rfl) (by simp [ListProjectsPc.seeding])
    | project O now => exact absurd (hpast _ rfl) (by simp [ListProjectsPc.seeding])
    | queue O now P => exact Or.inr rfl
    | done O now P Q => exact Or.inr rfl
  rcases hcases with hidle | hcounted
  · have hnone : c.request.hasNone s.store.db = true := by
      rw [hasNone_iff, hcu, hS.store, hidle]
      exact hU.none
    rw [hnone, if_pos rfl] at hpc'
    refine ⟨.organization, pid, hS.advance (Or.inr (by rw [hidle]; rfl)) ?_ trivial ?_ (huser.trans hcu) ?_⟩
    · rw [hstore, hS.store, hidle]
      rfl
    · intro h
      rw [hidle] at h
      cases h
    · exact Or.inr (congrArg some hpc'.symm)
  · have hcount : s.store.db.projectCount c.request.userId = 1 := by
      rw [hcu, hS.store]
      exact SeedStage.store_count hU hS.fresh hcounted
    have hnone : c.request.hasNone s.store.db ≠ true := by
      intro hnone
      have hzero := projectCount_eq_zero hnone
      omega
    rw [if_neg hnone] at hpc'
    have hwaits : c'.Waits stage := Or.inr ⟨hcounted, htotal.trans hcount, Or.inl hpc'⟩
    exact ⟨stage, k, hS.other (hS.not_seeding hc hnot) hstore (huser.trans hcu) hwaits⟩

/-- The statements of the seeding request. -/
theorem Seeding.seed (hU : st.Unseeded u) (hS : Seeding st u stage k s) {env : Env}
    {c c' : ProjectListing} {store' : Store} (hc : s.calls.lookup k = some c)
    (hseeder : stage.seeder = some c.request.pc) (hf : env.fails = false)
    (h : c.step env s.store = some (store', c')) :
    ∃ stage', Seeding st u stage' k { store := store', calls := s.calls.insert k c' } := by
  have hcu := hS.user k c hc
  have hstore := hS.store
  have hfresh := hS.fresh
  cases stage with
  | idle => cases hseeder
  | done O now P Q => cases hseeder
  | organization =>
      have hpc := (Option.some.inj hseeder).symm
      have huser : c.request.userId ∈ s.store.directory.users := by
        rw [hcu, hstore]
        exact hU.user
      obtain ⟨hnew, hstore', huser', hpc'⟩ := ProjectListing.step_organization hpc hf huser h
      rw [hstore] at hnew hstore'
      rw [hcu] at hstore'
      exact ⟨.member env.fresh env.now, hS.advance (Or.inl rfl) hstore' hnew (fun hl => by cases hl)
        (huser'.trans hcu) (Or.inr (congrArg some hpc'.symm))⟩
  | member O now =>
      have hpc := (Option.some.inj hseeder).symm
      obtain ⟨hstore', huser', hpc'⟩ := ProjectListing.step_member hpc hf h
      rw [hstore, hcu] at hstore'
      exact ⟨.project O now, hS.advance (Or.inl rfl) hstore' hfresh (fun hl => by cases hl)
        (huser'.trans hcu) (Or.inr (congrArg some hpc'.symm))⟩
  | project O now =>
      have hpc := (Option.some.inj hseeder).symm
      have hname : s.store.projectNameTaken O "Default Project" = false := by
        rw [hstore]
        exact Store.withMember_nameFree hU.toReferenced hfresh _
      obtain ⟨hnew, hstore', huser', hpc'⟩ := ProjectListing.step_project hpc hf hname h
      rw [hstore] at hnew hstore'
      exact ⟨.queue O now env.fresh, hS.advance (Or.inl rfl) hstore' ⟨hfresh, hnew⟩ (fun hl => by cases hl)
        (huser'.trans hcu) (Or.inr (congrArg some hpc'.symm))⟩
  | queue O now P =>
      have hpc := (Option.some.inj hseeder).symm
      have hproject : P ∈ s.store.db.projects := by
        rw [hstore]
        exact (AList.mem_insert _).mpr (Or.inl rfl)
      obtain ⟨hstore', huser', hpc', htotal⟩ := ProjectListing.step_queue hpc hf hproject h
      rw [hstore] at hstore'
      exact ⟨.done O now P env.fresh, hS.advance (Or.inl rfl) hstore' hfresh (fun hl => hl)
        (huser'.trans hcu) (Or.inl ⟨Or.inr ⟨rfl, htotal, Or.inl hpc'⟩, rfl⟩)⟩

/-- **Step.**  An orderly action keeps the seeding single. -/
theorem Seeding.step (hU : st.Unseeded u) (hS : Seeding st u stage k s) {a : ListingsAction}
    (ho : s.orderly a = true) (h : s.step u a = some s') : ∃ stage' k', Seeding st u stage' k' s' := by
  cases a with
  | start pid pagination =>
      simp only [Listings.step] at h
      split at h
      · cases h
      · rename_i hnew
        obtain rfl := Option.some.inj h
        refine ⟨stage, k, hS.other ?_ rfl rfl (Or.inl rfl)⟩
        intro hk
        by_contra hne
        obtain ⟨pc, hseeder⟩ := Option.ne_none_iff_exists'.mp hne
        obtain ⟨q, hq, _⟩ := hS.pending pc hseeder
        exact hnew (hk ▸ AList.lookup_isSome.mp (by rw [hq]; rfl))
  | statement pid env =>
      simp only [Listings.step] at h
      split at h
      · cases h
      · rename_i c hc
        obtain ⟨hf, hfree⟩ := Listings.orderly_statement ho hc
        obtain ⟨⟨store', c'⟩, hstep, rfl⟩ := Option.map_eq_some_iff.mp h
        rcases hS.calls pid c hc with hwaits | ⟨rfl, hseeder⟩
        · rcases hwaits with hpc | ⟨hcounted, htotal, hpc | ⟨page, hpc, _⟩⟩
          · exact hS.count hU hc hpc hf (hfree hpc) hstep
          · obtain ⟨hstore, huser, htotal', hpc', page, hresponse, hpage⟩ :=
              ProjectListing.step_list hpc hf hstep
            have hnot : stage.seeder ≠ some c.request.pc := by
              rw [hpc]
              cases stage <;> simp [SeedStage.seeder]
            exact ⟨stage, k, hS.other (hS.not_seeding hc hnot) hstore (huser.trans (hS.user pid c hc))
              (Or.inr ⟨hcounted, htotal'.trans htotal,
                Or.inr ⟨page, hpc', hresponse, hpage.trans htotal⟩⟩)⟩
          · obtain ⟨r, hr, _⟩ := ProjectListing.step_some hstep
            simp [ListProjects.step, hpc] at hr
        · obtain ⟨stage', hS'⟩ := hS.seed hU hc hseeder hf hstep
          exact ⟨stage', pid, hS'⟩

theorem seeding_initial (st : Store) (u : UUID) : Seeding st u .idle 0 (Listings.initial st) where
  store := rfl
  fresh := trivial
  user := fun _ _ h => by simp [Listings.initial] at h
  calls := fun _ _ h => by simp [Listings.initial] at h
  pending := fun _ h => by cases h

/-- Orderly requests seed once, whatever their number. -/
theorem seeding_run {tr : List (Listings × ListingsAction)} (hU : st.Unseeded u)
    (h : ListingsRun u st tr s) (ho : ∀ p ∈ tr, p.1.orderly p.2 = true) :
    ∃ stage k, Seeding st u stage k s :=
  h.invariant (I := fun t => ∃ stage k, Seeding st u stage k t) (G := fun t a => t.orderly a = true)
    (fun _ _ _ hI ho hs => by
      obtain ⟨stage, k, hS⟩ := hI
      exact hS.step hU ho hs)
    ho ⟨.idle, 0, seeding_initial st u⟩

/-- A request that has returned was counted in, and answers with a total of one. -/
theorem Seeding.returned (hS : Seeding st u stage k s) (hreturned : s.Returned) {pid : Nat}
    {c : ProjectListing} (hc : s.calls.lookup pid = some c) :
    stage.counted = true ∧ ∃ page, c.response = some page ∧ page.total = 1 := by
  have hreplied := (Table.all_iff _ _).mp hreturned pid c hc
  rcases hS.calls pid c hc with hwaits | ⟨_, hseeder⟩
  · rcases hwaits with hpc | ⟨hcounted, _, hpc | ⟨page, _, hresponse, hpage⟩⟩
    · rw [hpc] at hreplied
      cases hreplied
    · rw [hpc] at hreplied
      cases hreplied
    · exact ⟨hcounted, page, hresponse, hpage⟩
  · cases hpc : c.request.pc with
    | replied reply =>
        rw [hpc] at hseeder
        cases stage <;> simp [SeedStage.seeder] at hseeder
    | count | insertOrganization | insertMember _ | insertProject _ | insertQueue _ | list =>
        rw [hpc] at hreplied
        cases hreplied

/-- **Seeding once.**  From an unseeded store, in a run of orderly steps, once at least one request
has been made and all have returned there is one default organisation with one membership, one
project and one queue, and every response tells the number of the user's projects. -/
theorem seeded_once {tr : List (Listings × ListingsAction)} (hU : st.Unseeded u)
    (h : ListingsRun u st tr s) (ho : ∀ p ∈ tr, p.1.orderly p.2 = true) {pid : Nat} (hsome : pid ∈ s.calls)
    (hreturned : s.Returned) :
    (∃ O P Q, SeededOnce u s.store O P Q) ∧
      ∀ pid c, s.calls.lookup pid = some c →
        ∃ page, c.response = some page ∧ page.total = s.store.db.projectCount u := by
  obtain ⟨stage, k, hS⟩ := seeding_run hU h ho
  obtain ⟨c, hc⟩ := Option.isSome_iff_exists.mp (AList.lookup_isSome.mpr hsome)
  obtain ⟨hcounted, _⟩ := hS.returned hreturned hc
  constructor
  · have hstore := hS.store
    have hfresh := hS.fresh
    cases stage with
    | done O now P Q =>
        rw [hstore]
        exact ⟨O, P, Q, Store.withQueue_seededOnce hU hfresh.1 hfresh.2⟩
    | queue O now P =>
        -- its seeding request has not returned
        obtain ⟨q, hq, hpc⟩ := hS.pending _ rfl
        have hreplied := (Table.all_iff _ _).mp hreturned k q hq
        rw [hpc] at hreplied
        cases hreplied
    | idle => cases hcounted
    | organization => cases hcounted
    | member O now => cases hcounted
    | project O now => cases hcounted
  · intro pid' c' hc'
    obtain ⟨_, page, hresponse, hpage⟩ := hS.returned hreturned hc'
    refine ⟨page, hresponse, hpage.trans ?_⟩
    rw [hS.store]
    exact (SeedStage.store_count hU hS.fresh hcounted).symm

/-- A database with one user. -/
def Store.oneUser : Store where
  db := Db.empty
  directory := ⟨(∅ : Table UUID User).insert 1 ⟨"ada@example.com"⟩, ∅, ∅⟩

theorem oneUser_unseeded : Store.oneUser.Unseeded 1 where
  memberOrg := fun _ hm => absurd hm List.not_mem_nil
  projectOrg := fun _ _ hp => by simp [Store.oneUser, Db.empty] at hp
  queueProject := fun _ _ hq => by simp [Store.oneUser, Db.empty] at hq
  user := (AList.mem_insert _).mpr (Or.inl rfl)
  none := fun _ _ hp => by simp [Store.oneUser, Db.empty] at hp
  noDefault := fun _ ho => by
    obtain ⟨o, ho, _⟩ := ho
    simp [Store.oneUser] at ho

/-- The six statements of a seeding request; each insert finds its own new id. -/
def seedActions (pid : Nat) (id : UUID) : List ListingsAction :=
  List.replicate 6 (.statement pid { now := 0, fresh := id })

/-- One request, and another one after it. -/
def oneThenAnother : List ListingsAction :=
  .start 0 ⟨1, 20⟩ :: seedActions 0 7 ++ .start 1 ⟨2, 5⟩ :: List.replicate 2 (.statement 1 { now := 0 })

/-- Two requests count before either inserts. -/
def bothCount : List ListingsAction :=
  [.start 0 ⟨1, 20⟩, .start 1 ⟨1, 20⟩, .statement 0 { now := 0 }, .statement 1 { now := 0 }]
    ++ List.replicate 5 (.statement 0 { now := 0, fresh := 7 })
    ++ List.replicate 5 (.statement 1 { now := 0, fresh := 8 })

/-- Both requests return with the one project that there is. -/
theorem seeded_once_another :
    ∃ s, ListingsRun 1 Store.oneUser (trace (Listings.step 1) (Listings.initial Store.oneUser) oneThenAnother) s ∧
      (∃ O P Q, SeededOnce 1 s.store O P Q) ∧ s.calls.keys = [1, 0] := by
  have hrun := run_of_play (Listings.step 1) (Listings.initial Store.oneUser) oneThenAnother
    (by decide +kernel)
  have ho : ∀ p ∈ trace (Listings.step 1) (Listings.initial Store.oneUser) oneThenAnother,
      p.1.orderly p.2 = true := by decide +kernel
  have hsome : 0 ∈ (play (Listings.step 1) (Listings.initial Store.oneUser) oneThenAnother).calls :=
    AList.mem_keys.mpr (by decide +kernel)
  have hreturned : (play (Listings.step 1) (Listings.initial Store.oneUser) oneThenAnother).Returned := by
    unfold Listings.Returned
    decide +kernel
  exact ⟨_, hrun, (seeded_once oneUser_unseeded hrun ho hsome hreturned).1, by decide +kernel⟩

/-- Both seed: the user has two default organisations, and each response tells of one project
where there are two. -/
theorem seeded_twice :
    ∃ s, ListingsRun 1 Store.oneUser (trace (Listings.step 1) (Listings.initial Store.oneUser) bothCount) s ∧
      Store.oneUser.Unseeded 1 ∧ s.Returned ∧ (¬ ∃ O P Q, SeededOnce 1 s.store O P Q) ∧
      s.store.db.projectCount 1 = 2 ∧
      (s.calls.lookup 0).map (fun c => c.response.map (·.total)) = some (some 1) ∧
      (s.calls.lookup 1).map (fun c => c.response.map (·.total)) = some (some 1) := by
  have hrun := run_of_play (Listings.step 1) (Listings.initial Store.oneUser) bothCount
    (by decide +kernel)
  have hcount : (play (Listings.step 1) (Listings.initial Store.oneUser) bothCount).store.db.projectCount 1
      = 2 := by decide +kernel
  have hreturned : (play (Listings.step 1) (Listings.initial Store.oneUser) bothCount).Returned := by
    unfold Listings.Returned
    decide +kernel
  refine ⟨_, hrun, oneUser_unseeded, hreturned, ?_, hcount, by decide +kernel, by decide +kernel⟩
  intro h
  obtain ⟨O, P, Q, hseeded⟩ := h
  -- one project would be a count of one
  have hone : (play (Listings.step 1) (Listings.initial Store.oneUser) bothCount).store.db.projectCount 1
      = 1 := by
    unfold Db.projectCount Table.count
    rw [Finset.card_eq_one]
    refine ⟨P, ?_⟩
    ext id
    rw [Table.mem_keysWhere, Finset.mem_singleton]
    exact hseeded.project id
  omega

end JobScheduler
