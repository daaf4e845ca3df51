/-
  JobScheduler.System.Operations
  ──────────────────────────────
  The system under sequences of complete operations, project deletion included.
  A client executes a statement only while every other client is between two
  operations, and a project is deleted only while every client is.

  Rows go away here, so two things count that the system without deletion need
  not say: a statement whose foreign keys do not hold is rejected, and no job is
  created under the id of a deleted one.
-/
import JobScheduler.Routes.Projects
import JobScheduler.System.Activation

namespace JobScheduler

open Relational

/-! ## §1. Between two operations. -/

/-- The client has not executed a statement of its operation yet, or has executed
the last one.  The claim of a job and its execution are two operations. -/
def Proc.rests : Proc → Bool
  | .claim c => (match c.pc with
      | .selecting | .returned _ => true
      | _ => false)
  | .exec e => (match e.pc with
      | .acquire | .returned => true
      | _ => false)
  | .submit r => (match r.pc with
      | .checkQueue | .replied _ => true
      | _ => false)
  | .retry r => (match r.pc with
      | .select | .replied _ => true
      | _ => false)
  | .replay r => (match r.pc with
      | .select | .replied _ => true
      | _ => false)
  | .cancel r => (match r.pc with
      | .select | .replied _ => true
      | _ => false)
  | .patch r => (match r.pc with
      | .update | .replied _ => true
      | _ => false)
  | .tick t => (match t.pc with
      | .acquire | .returned => true
      | _ => false)

/-- Every client but `pid` is between two operations. -/
def Sys.othersRest (s : Sys) (pid : Nat) : Bool :=
  s.clients.all (fun k c => decide (k = pid) || c.proc.rests)

/-- Every client is between two operations. -/
def Sys.allRest (s : Sys) : Bool := s.clients.all (fun _ c => c.proc.rests)

/-- The rows that the next statement inserts refer to existing ones. -/
def Proc.referencesHold (db : Db) : Proc → Bool
  | .exec e => (match e.pc with
      | .insertExecution => decide (e.jobId ∈ db.jobs)
      | .insertDeadLetter _ => decide (e.jobId ∈ db.jobs) && decide (e.job.queueId ∈ db.queues)
      | .log site => decide ((site.row e).jobId ∈ db.jobs)
      | _ => true)
  | .submit r => (match r.pc with
      | .insertBatch | .insertSchedule => decide (r.queueId ∈ db.queues)
      | .insertJob item _ => decide (r.queueId ∈ db.queues) && item.batchId.all (fun b => decide (b ∈ db.batches))
      | .attach jobId _ _ _ => decide (jobId ∈ db.jobs)
      | _ => true)
  | .retry r => (match r.pc with
      | .log _ => decide (r.jobId ∈ db.jobs)
      | _ => true)
  | .replay r => (match r.pc with
      | .log jobId _ => decide (jobId ∈ db.jobs)
      | _ => true)
  | _ => true

/-- The client's next statement inserts a job. -/
def Proc.insertsJob : Proc → Bool
  | .submit r => (match r.pc with
      | .insertJob _ _ => true
      | _ => false)
  | .replay r => (match r.pc with
      | .insert _ _ => true
      | _ => false)
  | .tick t => (match t.pc with
      | .insertJob _ _ _ => true
      | _ => false)
  | _ => false

/-! ## §2. The system. -/

/-- The system with the ids of the jobs that project deletions removed. -/
structure World where
  sys : Sys
  /-- The ids of the deleted jobs. -/
  retired : Finset UUID

/-- A step of the system, or the deletion of a project. -/
inductive Operation
  | act (a : Action)
  /-- DELETE /projects/:id. -/
  | deleteProject (env : Env) (userId projectId : UUID)

/-- The action can be taken. -/
def World.admits (w : World) : Action → Bool
  | .run pid env =>
      w.sys.othersRest pid
        && (w.sys.proc pid).all (fun p =>
          (env.fails || p.referencesHold w.sys.db)
            && !(p.insertsJob && decide (env.fresh ∈ w.retired)))
  | _ => true

/-- The jobs that a deletion of the project removes. -/
def Db.doomed (db : Db) (projectId : UUID) : Finset UUID :=
  Table.keysWhere (fun j _ => db.jobOfProject projectId j) db.jobs

/-- One operation; a deletion waits until no client is under way. -/
def World.step (cfg : Config) (w : World) : Operation → Option World
  | .act a => if w.admits a then (JobScheduler.step cfg w.sys a).map (fun s => { w with sys := s }) else none
  | .deleteProject env userId projectId =>
      if w.sys.allRest then
        some {
          sys := { w.sys with db := (deleteProject env userId projectId w.sys.db).1 }
          retired :=
            if (deleteProject env userId projectId w.sys.db).2 matches .success _ then
              w.retired ∪ w.sys.db.doomed projectId
            else w.retired }
      else none

/-- A world at rest: any database, no client, no deleted job. -/
def World.atRest (clock : Timestamp) (db : Db) : World := ⟨Sys.atRest clock db, ∅⟩

/-- Runs of complete operations. -/
abbrev WorldRun (cfg : Config) (w₀ : World) (tr : List (World × Operation)) (w : World) : Prop :=
  Transition.Run (World.step cfg) w₀ tr w

/-- What the two kinds of operation do. -/
inductive World.Stepped (cfg : Config) (w : World) : Operation → World → Prop
  | acted (a : Action) (s' : Sys) (hadm : w.admits a = true)
      (hs : JobScheduler.step cfg w.sys a = some s') : Stepped cfg w (.act a) { w with sys := s' }
  | refused (env : Env) (userId projectId : UUID) :
      Stepped cfg w (.deleteProject env userId projectId) w
  | deleted (env : Env) (userId projectId : UUID) (hrest : w.sys.allRest = true) :
      Stepped cfg w (.deleteProject env userId projectId)
        ⟨{ w.sys with db := w.sys.db.withoutProject projectId }, w.retired ∪ w.sys.db.doomed projectId⟩

theorem World.stepped {cfg : Config} {w w' : World} {o : Operation}
    (h : w.step cfg o = some w') : World.Stepped cfg w o w' := by
  unfold World.step at h
  split at h <;> split at h
  · obtain ⟨s', hs, rfl⟩ := Option.map_eq_some_iff.mp h
    exact .acted _ s' ‹_› hs
  · cases h
  · obtain rfl := Option.some.inj h
    unfold JobScheduler.deleteProject
    split
    · exact .refused _ _ _
    · split
      · exact .deleted _ _ _ ‹_›
      · exact .refused _ _ _
  · cases h

/-! ## §3. What the guards give. -/

section
variable {w : World} {pid k : Nat} {env : Env} {p q : Proc}

/-- A statement is admitted while every other client rests. -/
theorem World.admits_run (h : w.admits (.run pid env) = true) (hp : w.sys.proc pid = some p) :
    (∀ k q, k ≠ pid → w.sys.proc k = some q → q.rests = true) ∧
      (env.fails = false → p.referencesHold w.sys.db = true) ∧
      (p.insertsJob = true → env.fresh ∉ w.retired) := by
  simp only [World.admits, hp, Option.all_some, Bool.and_eq_true, Bool.or_eq_true,
    Bool.not_eq_true', Bool.and_eq_false_iff, decide_eq_false_iff_not] at h
  obtain ⟨hothers, href, hret⟩ := h
  refine ⟨?_, ?_, ?_⟩
  · intro k q hne hk
    obtain ⟨c, hc, rfl⟩ := Option.map_eq_some_iff.mp hk
    simpa [hne] using (Table.all_iff _ _).mp hothers k c hc
  · intro hf
    simpa [hf] using href
  · intro hi
    simpa [hi] using hret

theorem Sys.allRest_iff {s : Sys} : s.allRest = true ↔ ∀ k p, s.proc k = some p → p.rests = true :=
  s.clients_all_iff Proc.rests

end

/-- A claim between two operations is about to commit nothing. -/
theorem pending_of_rest {s : Sys} (h : s.allRest = true) : Pending s := by
  have hno : ∀ k c j row, s.proc k = some (.claim c) → c.pc ≠ .committing (some (j, row)) := by
    intro k c j row hk hpc
    have hrest := Sys.allRest_iff.mp h k _ hk
    simp [Proc.rests, hpc] at hrest
  exact ⟨fun k c j row hk hpc => absurd hpc (hno k c j row hk),
    fun k l c d j row row' hk _ hpc _ => absurd hpc (hno k c j row hk)⟩

/-- A job that appears in a step is inserted by the client that moves. -/
theorem inserted_of_step {cfg : Config} {s s' : Sys} {a : Action} {j : UUID}
    (h : step cfg s a = some s') (hold : j ∉ s.db.jobs) (hnew : j ∈ s'.db.jobs) :
    ∃ pid env p, a = .run pid env ∧ s.proc pid = some p ∧ p.insertsJob = true ∧ env.fresh = j := by
  rw [← AList.lookup_eq_none] at hold
  rw [← AList.lookup_isSome] at hnew
  rcases step_row h j with heq | ⟨pid, env, p, rfl, hp, _, hch⟩
  · rw [heq, hold] at hnew
    cases hnew
  · rw [hold] at hch
    generalize s'.db.jobs.lookup j = new at hch hnew
    cases hch with
    | same => cases hnew
    | submitted r item rest hpc hj => exact ⟨pid, env, _, rfl, hp, by simp [Proc.insertsJob, hpc], hj⟩
    | recreated r q payload _ hpc hj => exact ⟨pid, env, _, rfl, hp, by simp [Proc.insertsJob, hpc], hj⟩
    | dispatched t id sj rest _ hpc hj => exact ⟨pid, env, _, rfl, hp, by simp [Proc.insertsJob, hpc], hj⟩

end JobScheduler
