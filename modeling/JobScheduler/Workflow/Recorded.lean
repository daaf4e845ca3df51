/-
  JobScheduler.Workflow.Recorded
  ──────────────────────────────
  Recorded dependencies under operator actions, one complete operation after the
  other.  A job leaves `blocked` by a release, which finds its prerequisites
  completed, or by a batch cancellation, which does not look at them: a retry then
  queues it.  What a job may have waited for is read off the databases that the run
  has passed through.
-/
import JobScheduler.Workflow.Submission
import JobScheduler.DeadLetter.Rows
import JobScheduler.System.Operations

namespace JobScheduler

open Relational Transition

/-! ## §1. The databases of a run. -/

/-- The databases that a run passes through, the last one included. -/
def history (tr : List (Sys × Action)) (s : Sys) : List Db := tr.map (fun p => p.1.db) ++ [s.db]

@[simp] theorem history_snoc (tr : List (Sys × Action)) (s s' : Sys) (a : Action) :
    history (tr ++ [(s, a)]) s' = history tr s ++ [s'.db] := by
  simp [history]

theorem mem_history_self (tr : List (Sys × Action)) (s : Sys) : s.db ∈ history tr s := by
  simp [history]

/-- Queued, scheduled, claimed or running. -/
def JobStatus.live : JobStatus → Bool
  | .queued | .scheduled | .claimed | .running => true
  | _ => false

/-- The job is blocked, or not there yet. -/
def Db.Waits (db : Db) (j : UUID) : Prop := db.statusOf j = none ∨ db.statusOf j = some .blocked

instance (db : Db) (j : UUID) : Decidable (db.Waits j) := inferInstanceAs (Decidable (_ ∨ _))

/-- Job `d` was completed at a time when job `j` had not left `blocked`. -/
def CompletedFirst (dbs : List Db) (j d : UUID) : Prop :=
  ∃ before db after, dbs = before ++ db :: after ∧ db.statusOf d = some .completed ∧
    ∀ u ∈ before ++ [db], u.Waits j

theorem CompletedFirst.snoc {dbs : List Db} {j d : UUID} (h : CompletedFirst dbs j d) (db : Db) :
    CompletedFirst (dbs ++ [db]) j d := by
  obtain ⟨before, u, after, rfl, hc, hw⟩ := h
  exact ⟨before, u, after ++ [db], by simp, hc, hw⟩

/-- Every database so far has `j` waiting, and one of them has `d` completed. -/
theorem completedFirst_of_waits {dbs : List Db} {j d : UUID} (hw : ∀ u ∈ dbs, u.Waits j)
    (hc : ∃ u ∈ dbs, u.statusOf d = some .completed) : CompletedFirst dbs j d := by
  obtain ⟨u, hu, hd⟩ := hc
  obtain ⟨before, after, rfl⟩ := List.append_of_mem hu
  refine ⟨before, u, after, rfl, hd, fun v hv => hw v ?_⟩
  rcases List.mem_append.mp hv with hv | hv
  · exact List.mem_append_left _ hv
  · exact List.mem_append_right _ (List.mem_singleton.mp hv ▸ List.mem_cons_self)

/-- The recorded prerequisites of every live job were completed before it first
left `blocked`. -/
def DependenciesHeld (tr : List (Sys × Action)) (s : Sys) : Prop :=
  ∀ j d st, (j, d) ∈ s.db.jobDependencies → s.db.statusOf j = some st → st.live = true →
    CompletedFirst (history tr s) j d

/-! ## §2. The statements at issue. -/

/-- Only one operation is under way. -/
def Action.alone (s : Sys) : Action → Bool
  | .run pid _ => s.othersRest pid
  | _ => true

/-- The job that a manual retry or a replay sets back to `queued`. -/
def Action.revived (s : Sys) : Action → Option UUID
  | .run pid env =>
      if env.fails then none
      else match s.proc pid with
        | some (.retry r) => (match r.pc with
            | .update => some r.jobId
            | _ => none)
        | some (.replay r) => (match r.pc with
            | .update j => some j
            | _ => none)
        | _ => none
  | _ => none

/-- A batch cancellation fails job `j` while it is blocked. -/
def Action.cancelsBlocked (s : Sys) (j : UUID) : Action → Bool
  | .run pid env => !env.fails && (match s.proc pid with
      | some (.cancel r) => (match r.pc with
          | .updateJobs _ => (s.db.jobs.lookup j).any (fun row =>
              Cancel.cancels r.batchId j row && decide (row.status = .blocked))
          | _ => false)
      | _ => false)
  | _ => false

/-- Whenever a batch cancellation has failed job `j` while it was blocked, its
recorded prerequisites had all been completed. -/
def CancelledLate (tr : List (Sys × Action)) (j : UUID) : Prop :=
  AtEach (fun before p => p.2.cancelsBlocked p.1 j = true →
    ∀ e ∈ p.1.db.jobDependencies, e.1 = j →
      ∃ db ∈ history before p.1, db.statusOf e.2 = some .completed) tr

instance (tr : List (Sys × Action)) (j : UUID) : Decidable (CancelledLate tr j) :=
  inferInstanceAs (Decidable (AtEach _ tr))

/-- No retry revives a job that was cancelled while it waited for a prerequisite
that had never been completed. -/
def RevivesLate (before : List (Sys × Action)) (p : Sys × Action) : Prop :=
  ∀ j ∈ p.2.revived p.1, CancelledLate before j

instance (before : List (Sys × Action)) (p : Sys × Action) : Decidable (RevivesLate before p) :=
  inferInstanceAs (Decidable (∀ j ∈ p.2.revived p.1, CancelledLate before j))

/-! ## §3. One operation at a time. -/

section
variable {cfg : Config} {s s' : Sys} {a : Action} {k : Nat} {p : Proc}

/-- While an operation is under way no other client changes the database. -/
theorem db_eq_of_idle (halone : a.alone s = true) (h : step cfg s a = some s')
    (hk : s.proc k = some p) (hmid : p.rests = false) (hne : ∀ env, a ≠ .run k env) :
    s'.db = s.db := by
  cases stepped h with
  | wait | start => rfl
  | run pid env q q' db' hq _ _ =>
      exfalso
      obtain ⟨c, hc, rfl⟩ := Option.map_eq_some_iff.mp hk
      have hothers : s.othersRest pid = true := halone
      have hrest := (Table.all_iff _ _).mp hothers k c hc
      have hkp : k ≠ pid := fun heq => hne env (heq ▸ rfl)
      simp [hkp, hmid] at hrest

end

/-! ## §4. Where a status comes from. -/

/-- Job `j` was there at the start, or has been live. -/
def Known (first : Db) (dbs : List Db) (j : UUID) : Prop :=
  j ∈ first.jobs ∨ ∃ db ∈ dbs, ∃ st, db.statusOf j = some st ∧ st.live = true

theorem Known.snoc {first : Db} {dbs : List Db} {j : UUID} (h : Known first dbs j) (db : Db) :
    Known first (dbs ++ [db]) j := by
  rcases h with h | ⟨u, hu, hlive⟩
  · exact .inl h
  · exact .inr ⟨u, List.mem_append_left _ hu, hlive⟩

/-- A job that is live now is known. -/
theorem known_of_live {first : Db} {tr : List (Sys × Action)} {s : Sys} {j : UUID} {st : JobStatus}
    (h : s.db.statusOf j = some st) (hl : st.live = true) : Known first (history tr s) j :=
  .inr ⟨s.db, mem_history_self tr s, st, h, hl⟩

/-- A job that has been waiting all along has not been live. -/
theorem not_known_of_waits {first : Db} {dbs : List Db} {j : UUID} (hnew : j ∉ first.jobs)
    (hw : ∀ u ∈ dbs, u.Waits j) : ¬ Known first dbs j := by
  rintro (h | ⟨u, hu, st, hst, hl⟩)
  · exact hnew h
  · rcases hw u hu with hnone | hblocked
    · rw [hnone] at hst; cases hst
    · rw [hblocked] at hst; cases hst; cases hl

/-- What holds after every statement of a sequence of complete operations on a
database that was `first`. -/
structure Remembered (first : Db) (tr : List (Sys × Action)) (s : Sys) : Prop where
  pending : Pending s
  inserts : InsertsPending s
  requests : Requests s
  kept : ∀ j ∈ first.jobs, j ∈ s.db.jobs
  /-- A job that was ever there still is. -/
  seen : ∀ db ∈ history tr s, ∀ j st, db.statusOf j = some st → j ∈ s.db.jobs
  waits : ∀ j, s.db.statusOf j = some .blocked → ∀ db ∈ history tr s, db.Waits j
  execs : ∀ k e, s.proc k = some (.exec e) → Known first (history tr s) e.jobId
  entries : ∀ x j, s.db.Records x j → Known first (history tr s) j
  replays : ∀ k r j, s.proc k = some (.replay r) → r.pc = .update j → Known first (history tr s) j
  retries : ∀ k r, s.proc k = some (.retry r) → r.pc = .update →
    ∃ row, s.db.jobs.lookup r.jobId = some row ∧ row.status.retryable = true
  ended : ∀ j, s.db.statusOf j = some .completed ∨ s.db.statusOf j = some .deadLetter →
    Known first (history tr s) j
  failed : ∀ j, s.db.statusOf j = some .failed → Known first (history tr s) j ∨
    (∀ d, (j, d) ∈ s.db.jobDependencies → CompletedFirst (history tr s) j d) ∨ ¬ CancelledLate tr j
  fresh : ∀ j d, (j, d) ∈ s.db.jobDependencies → j ∉ first.jobs
  met : ∀ j d, (j, d) ∈ s.db.jobDependencies → Known first (history tr s) j →
    CompletedFirst (history tr s) j d
  checked : ∀ k r, s.proc k = some (.submit r) → (Proc.submit r).rests = false → r.Checked →
    r.initialStatus ≠ .blocked → ∀ d ∈ r.body.dependsOn, s.db.statusOf d = some .completed
  attaching : ∀ k r j d todo rest, s.proc k = some (.submit r) → r.pc = .attach j d todo rest →
    j ∉ first.jobs ∧ (s.db.statusOf j = some .blocked ∨
      ∀ x ∈ r.body.dependsOn, CompletedFirst (history tr s) j x)

/-- How a job comes to have the status `st` in a step. -/
inductive StatusOrigin (first : Db) (tr : List (Sys × Action)) (s : Sys) (a : Action) (j : UUID)
    (st : JobStatus) : Prop
  | same (h : s.db.statusOf j = some st)
  | known (h : Known first (history tr s) j) (hne : st ≠ .blocked)
  | submitted (k : Nat) (r : Submit) (item : JobItem) (rest : List JobItem) (hnew : j ∉ s.db.jobs)
      (hk : s.proc k = some (.submit r)) (hpc : r.pc = .insertJob item rest) (hst : st = r.initialStatus)
  | inserted (hnew : j ∉ s.db.jobs) (hst : st = .queued)
  | released (hb : s.db.statusOf j = some .blocked) (hmet : s.db.noPendingPrerequisite j = true)
      (hst : st.live = true)
  | cancelled (hb : s.db.statusOf j = some .blocked) (hc : a.cancelsBlocked s j = true) (hst : st = .failed)
  | retried (hr : a.revived s = some j) (hst : st = .queued)
      (hrow : ∃ row, s.db.jobs.lookup j = some row ∧ row.status.retryable = true)

section
variable {cfg : Config} {first : Db} {tr : List (Sys × Action)} {s s' : Sys} {a : Action}

theorem statusOf_of_lookup {db : Db} {j : UUID} {row : Job} (h : db.jobs.lookup j = some row) :
    db.statusOf j = some row.status := by
  rw [Db.statusOf, h]
  rfl

theorem Job.released_live (now : Timestamp) (row : Job) : (row.released now).status.live = true := by
  unfold Job.released
  dsimp only
  split <;> rfl

/-- Where a status found after a step comes from. -/
theorem status_origin (hR : Remembered first tr s) (h : step cfg s a = some s') {j : UUID} {st : JobStatus}
    (hst : s'.db.statusOf j = some st) : StatusOrigin first tr s a j st := by
  obtain ⟨row, hrow, rfl⟩ := Option.map_eq_some_iff.mp hst
  cases stepped h with
  | wait | start => exact .same hst
  | run pid env p p' db' hp hnow hstep =>
      have hch := Proc.step_jobs (j := j) hstep
      rw [show db'.jobs.lookup j = some row from hrow] at hch
      generalize hold : s.db.jobs.lookup j = old at hch
      cases hch with
      | same => exact .same (statusOf_of_lookup hold)
      | claimed c _ o hpc =>
          obtain ⟨x, hx, hq, _⟩ := hR.pending.queued pid c j _ hp hpc
          exact .known (known_of_live (statusOf_of_lookup hx) (by rw [hq]; rfl)) (by simp [Claim.claimed])
      | running e o hpc hj | completed e o _ hpc hj | requeued e o _ _ _ hpc hj
        | deadLettered e o _ hpc hj => exact .known (hj ▸ hR.execs pid e hp) (by simp)
      | released e o hpc hw =>
          simp only [Db.releasable, Bool.and_eq_true, decide_eq_true_eq] at hw
          exact .released (by rw [statusOf_of_lookup hold, hw.1.1]) hw.2 (Job.released_live _ _)
      | submitted r item rest hpc => exact .submitted pid r item rest (AList.lookup_eq_none.mp hold) hp hpc rfl
      | retried r o hpc hj =>
          obtain ⟨⟨d, r'⟩, hr, he⟩ := Option.map_eq_some_iff.mp hstep
          obtain rfl : d = db' := congrArg Prod.fst he
          have hs := Retry.stepped hr
          generalize hdb : d = db' at hs
          cases hs with
          -- a rejected UPDATE leaves the row alone
          | failed => subst hdb; exact .same hst
          | updated _ hf =>
              refine .retried (by simp [Action.revived, hp, hpc, hf, hj]) rfl ?_
              obtain ⟨row, hrow, hretry⟩ := hR.retries pid r hp hpc
              exact ⟨row, hj ▸ hrow, hretry⟩
          | selected hpc' | logged _ hpc' | published _ _ hpc' | replied _ hpc' =>
              rw [hpc] at hpc'; cases hpc'
      | replayed r o hpc => exact .known (hR.replays pid r j hp hpc) (by simp [Job.reset])
      | recreated r _ _ _ _ => exact .inserted (AList.lookup_eq_none.mp hold) rfl
      | cancelled r o batch hpc hw =>
          obtain ⟨⟨d, r'⟩, hr, he⟩ := Option.map_eq_some_iff.mp hstep
          obtain rfl : d = db' := congrArg Prod.fst he
          have hok : env.fails = true → d = s.db := by
            intro hf
            simp only [Cancel.step, hpc, hf, if_true] at hr
            cases hr
            rfl
          cases hf : env.fails with
          | true =>
              obtain rfl := hok hf
              exact .same hst
          | false =>
              have hwait : o.status.pending = true := (Bool.and_eq_true_iff.mp hw).2
              -- the UPDATE fails queued, scheduled and blocked jobs alike
              cases ho : o.status with
              | blocked =>
                  exact .cancelled (by rw [statusOf_of_lookup hold, ho])
                    (by simp [Action.cancelsBlocked, hf, hp, hpc, hold, hw, ho]) rfl
              | queued | scheduled =>
                  exact .known (known_of_live (statusOf_of_lookup hold) (by rw [ho]; rfl))
                    (by simp [Cancel.cancelledJob])
              | _ => rw [ho] at hwait; cases hwait
      | flipped t o hpc hw =>
          simp only [Tick.flips, Bool.and_eq_true, decide_eq_true_eq] at hw
          exact .known (known_of_live (statusOf_of_lookup hold) (by rw [hw.1]; rfl)) (by simp)
      | dispatched t id sj rest q => exact .inserted (AList.lookup_eq_none.mp hold) rfl

end

/-! ## §5. One statement. -/

section
variable {cfg : Config} {first : Db} {tr : List (Sys × Action)} {s s' : Sys} {a : Action}

theorem CancelledLate.of_snoc {p : Sys × Action} {j : UUID} (h : CancelledLate (tr ++ [p]) j) :
    CancelledLate tr j := (atEach_snoc.mp h).1

/-- The prerequisites of a blocked job were all completed, or a cancellation of it
now comes too early. -/
theorem late_or_early (hR : Remembered first tr s) {j : UUID} (hb : s.db.statusOf j = some .blocked)
    (hc : a.cancelsBlocked s j = true) :
    (∀ d, (j, d) ∈ s.db.jobDependencies → CompletedFirst (history tr s) j d) ∨
      ¬ CancelledLate (tr ++ [(s, a)]) j := by
  by_cases hlate : ∀ e ∈ s.db.jobDependencies, e.1 = j →
      ∃ db ∈ history tr s, db.statusOf e.2 = some .completed
  · exact .inl (fun d he => completedFirst_of_waits (hR.waits j hb) (hlate (j, d) he rfl))
  · exact .inr (fun hL => hlate ((atEach_snoc.mp hL).2 hc))

/-- A job that is there now, or is inserted, has been waiting all along if it is
blocked now. -/
theorem Remembered.waits_step (hR : Remembered first tr s) (h : step cfg s a = some s') (j : UUID)
    (hb : s'.db.statusOf j = some .blocked) : ∀ db ∈ history tr s ++ [s'.db], db.Waits j := by
  have hbefore : ∀ db ∈ history tr s, db.Waits j := by
    have hnew : j ∉ s.db.jobs → ∀ db ∈ history tr s, db.Waits j := by
      intro hno db hdb
      cases hst : db.statusOf j with
      | none => exact .inl hst
      | some st => exact absurd (hR.seen db hdb j st hst) hno
    cases status_origin hR h hb with
    | same hold => exact hR.waits j hold
    | known _ hne => exact absurd rfl hne
    | submitted k r item rest hno => exact hnew hno
    | inserted hno => exact hnew hno
    | released _ _ hst | cancelled _ _ hst | retried _ hst => cases hst
  intro db hdb
  rcases List.mem_append.mp hdb with hdb | hdb
  · exact hbefore db hdb
  · rw [List.mem_singleton.mp hdb]
    exact .inr hb

/-- A job that was ever there still is after the step. -/
theorem Remembered.seen_step (hR : Remembered first tr s) (h : step cfg s a = some s') (db : Db)
    (hdb : db ∈ history tr s ++ [s'.db]) (j : UUID) (st : JobStatus) (hst : db.statusOf j = some st) :
    j ∈ s'.db.jobs := by
  rcases List.mem_append.mp hdb with hdb | hdb
  · exact mem_jobs_stays h (hR.seen db hdb j st hst)
  · rw [List.mem_singleton.mp hdb] at hst
    exact mem_jobs_of_statusOf hst

/-- A job that the step makes live was known, is new, is released, or is retried. -/
theorem Remembered.known_step (hR : Remembered first tr s) (h : step cfg s a = some s') {j : UUID}
    (hk : Known first (history tr s ++ [s'.db]) j) :
    Known first (history tr s) j ∨ j ∉ s.db.jobs ∨
      (s.db.statusOf j = some .blocked ∧ s.db.noPendingPrerequisite j = true) ∨
      (a.revived s = some j ∧ s.db.statusOf j = some .failed) := by
  rcases hk with hfirst | ⟨u, hu, st, hst, hl⟩
  · exact .inl (.inl hfirst)
  rcases List.mem_append.mp hu with hu | hu
  · exact .inl (.inr ⟨u, hu, st, hst, hl⟩)
  rw [List.mem_singleton.mp hu] at hst
  cases status_origin hR h hst with
  | same hold => exact .inl (known_of_live hold hl)
  | known hknown => exact .inl hknown
  | submitted _ _ _ _ hnew => exact .inr (.inl hnew)
  | inserted hnew => exact .inr (.inl hnew)
  | released hb hmet => exact .inr (.inr (.inl ⟨hb, hmet⟩))
  | cancelled _ _ hfail => rw [hfail] at hl; cases hl
  | retried hr _ hrow =>
      obtain ⟨row, hrow, hretry⟩ := hrow
      have hold := statusOf_of_lookup hrow
      cases hs : row.status <;> rw [hs] at hretry hold <;> cases hretry
      · exact .inr (.inr (.inr ⟨hr, hold⟩))
      · exact .inl (hR.ended j (.inr hold))

/-- An edge of a step: an old one, or one that the mover attaches. -/
theorem Remembered.edge_step (hR : Remembered first tr s) (h : step cfg s a = some s') {j d : UUID}
    (he : (j, d) ∈ s'.db.jobDependencies) :
    (j, d) ∈ s.db.jobDependencies ∨
      (j ∉ first.jobs ∧ s'.db.statusOf j = s.db.statusOf j ∧
        (s.db.statusOf j = some .blocked ∨ CompletedFirst (history tr s) j d)) := by
  rcases edge_origin h he with hold | ⟨⟨k, env, r, todo, rest, _, hk, hpc⟩, _, hjobs⟩
  · exact .inl hold
  · obtain ⟨hnew, hst⟩ := hR.attaching k r j d todo rest hk hpc
    have hlisted := (hR.requests.attach k r j d todo rest hk hpc).2 d List.mem_cons_self
    exact .inr ⟨hnew, by rw [Db.statusOf, hjobs]; rfl, hst.imp id (fun hall => hall d hlisted)⟩

/-- Of a job that is known after the step each prerequisite was completed first. -/
theorem Remembered.met_step (hR : Remembered first tr s) (h : step cfg s a = some s')
    (hlate : RevivesLate tr (s, a)) (j d : UUID) (he : (j, d) ∈ s'.db.jobDependencies)
    (hk : Known first (history tr s ++ [s'.db]) j) :
    CompletedFirst (history tr s ++ [s'.db]) j d := by
  rcases hR.edge_step h he with hold | ⟨hnew, hst, hb | hdone⟩
  · refine CompletedFirst.snoc ?_ _
    rcases hR.known_step h hk with hknown | hno | ⟨hb, hmet⟩ | ⟨hrev, hfail⟩
    · exact hR.met j d hold hknown
    · exact absurd (hR.requests.edges j d hold).1 hno
    -- the release finds every recorded prerequisite completed
    · obtain ⟨row, hrow⟩ :=
        Option.isSome_iff_exists.mp (AList.lookup_isSome.mpr (hR.requests.edges j d hold).2)
      have hd := noPendingPrerequisite_iff.mp hmet d row hold hrow
      exact completedFirst_of_waits (hR.waits j hb)
        ⟨s.db, mem_history_self tr s, by rw [statusOf_of_lookup hrow, hd]⟩
    · rcases hR.failed j hfail with hknown | hall | hearly
      · exact hR.met j d hold hknown
      · exact hall d hold
      · exact absurd (hlate j hrev) hearly
  · exact absurd hk (not_known_of_waits hnew (hR.waits_step h j (hst.trans hb)))
  · exact hdone.snoc _

theorem Remembered.ended_step (hR : Remembered first tr s) (h : step cfg s a = some s') (j : UUID)
    (hst : s'.db.statusOf j = some .completed ∨ s'.db.statusOf j = some .deadLetter) :
    Known first (history tr s) j := by
  have hend : ∀ st, s'.db.statusOf j = some st → st = .completed ∨ st = .deadLetter →
      Known first (history tr s) j := by
    intro st hst hor
    cases status_origin hR h hst with
    | same hold =>
        rcases hor with rfl | rfl
        · exact hR.ended j (.inl hold)
        · exact hR.ended j (.inr hold)
    | known hk => exact hk
    | submitted k r item rest _ hk _ he =>
        have hpend := hR.inserts k r hk
        rw [← he] at hpend
        rcases hor with rfl | rfl <;> cases hpend
    | inserted _ he | cancelled _ _ he | retried _ he => subst he; rcases hor with hor | hor <;> cases hor
    | released _ _ hl => rcases hor with rfl | rfl <;> cases hl
  rcases hst with hst | hst
  · exact hend _ hst (.inl rfl)
  · exact hend _ hst (.inr rfl)

theorem Remembered.failed_step (hR : Remembered first tr s) (h : step cfg s a = some s') (j : UUID)
    (hst : s'.db.statusOf j = some .failed) : Known first (history tr s ++ [s'.db]) j ∨
      (∀ d, (j, d) ∈ s'.db.jobDependencies → CompletedFirst (history tr s ++ [s'.db]) j d) ∨
        ¬ CancelledLate (tr ++ [(s, a)]) j := by
  cases status_origin hR h hst with
  | known hk => exact .inl (hk.snoc _)
  | same hold =>
      rcases hR.failed j hold with hk | hall | hearly
      · exact .inl (hk.snoc _)
      · refine .inr (.inl (fun d he => CompletedFirst.snoc ?_ _))
        rcases hR.edge_step h he with he | ⟨_, _, hb | hdone⟩
        · exact hall d he
        · rw [hold] at hb; cases hb
        · exact hdone
      · exact .inr (.inr (fun hL => hearly hL.of_snoc))
  | cancelled hb hc =>
      rcases late_or_early hR hb hc with hall | hearly
      · refine .inr (.inl (fun d he => CompletedFirst.snoc ?_ _))
        rcases hR.edge_step h he with he | ⟨_, heq, _ | hdone⟩
        · exact hall d he
        -- the UPDATE of the cancellation attaches no edge
        · rw [hst, hb] at heq; cases heq
        · exact hdone
      · exact .inr (.inr hearly)
  | submitted k r item rest _ hk _ he =>
      have hpend := hR.inserts k r hk
      rw [← he] at hpend
      cases hpend
  | inserted _ he | retried _ he => cases he
  | released _ _ hl => cases hl

theorem Remembered.execs_step (hR : Remembered first tr s) (h : step cfg s a = some s') (k : Nat) (e' : Exec)
    (hk : s'.proc k = some (.exec e')) : Known first (history tr s) e'.jobId := by
  cases exec_origin h hk with
  | idle hk₀ _ => exact hR.execs k e' hk₀
  | stepped env e _ hk₀ hs => exact (Exec.step_params hs).1 ▸ hR.execs k e hk₀
  | committed env c j row _ hk₀ hpc _ he =>
      obtain ⟨old, hold, hq, _⟩ := hR.pending.queued k c j row hk₀ hpc
      subst he
      exact known_of_live (statusOf_of_lookup hold) (by rw [hq]; rfl)

theorem Remembered.entries_step (hR : Remembered first tr s) (h : step cfg s a = some s') (x j : UUID)
    (hx : s'.db.Records x j) : Known first (history tr s) j := by
  obtain ⟨entry, hentry, ho⟩ := hx
  rcases step_entry h x with heq | ⟨pid, env, p, _, hp, hch⟩
  · exact hR.entries x j ⟨entry, heq ▸ hentry, ho⟩
  · rw [hentry] at hch
    generalize hold : s.db.deadLetterQueue.lookup x = old at hch
    cases hch with
    | same => exact hR.entries x j ⟨entry, hold, ho⟩
    | buried e error => cases ho; exact hR.execs pid e hp

theorem Remembered.replays_step (hR : Remembered first tr s) (h : step cfg s a = some s') (k : Nat)
    (r' : Replay) (j : UUID) (hk : s'.proc k = some (.replay r')) (hpc : r'.pc = .update j) :
    Known first (history tr s) j := by
  cases replay_origin h hk with
  | idle hk₀ _ => exact hR.replays k r' j hk₀ hpc
  | started hsel => rw [hsel] at hpc; cases hpc
  | stepped env r _ hk₀ hs =>
      generalize s'.db = db' at hs
      cases hs with
      | selected _ _ entry hentry _ =>
          refine hR.entries r.entryId j ⟨entry, hentry, ?_⟩
          unfold Replay.afterSelect at hpc
          split at hpc <;> cases hpc
          assumption
      | _ => cases hpc

theorem Remembered.retries_step (hR : Remembered first tr s) (halone : a.alone s = true)
    (h : step cfg s a = some s') (k : Nat) (r' : Retry) (hk : s'.proc k = some (.retry r'))
    (hpc : r'.pc = .update) : ∃ row, s'.db.jobs.lookup r'.jobId = some row ∧ row.status.retryable = true := by
  cases retry_origin h hk with
  | idle hk₀ hne =>
      rw [db_eq_of_idle halone h hk₀ (by simp [Proc.rests, hpc]) hne]
      exact hR.retries k r' hk₀ hpc
  | started hsel => rw [hsel] at hpc; cases hpc
  | stepped env r _ hk₀ hs =>
      generalize s'.db = db' at hs ⊢
      cases hs with
      | selected _ _ row hrow hst => exact ⟨row, hrow, hst⟩
      | _ => cases hpc

/-- A request leaves the status of every job alone. -/
theorem Submit.Stepped.statusOf {env : Env} {db db' : Db} {r r' : Submit} {j : UUID} {st : JobStatus}
    (h : Submit.Stepped cfg env r db db' r') (hst : db.statusOf j = some st) : db'.statusOf j = some st := by
  cases h with
  | jobInserted item rest _ hfresh =>
      have hne : j ≠ env.fresh := fun he => hfresh (he ▸ mem_jobs_of_statusOf hst)
      simpa [Db.statusOf, insertJob_lookup, hne] using hst
  | _ => exact hst

/-- A request that has replied takes no further step. -/
theorem Submit.Stepped.not_replied {env : Env} {db db' : Db} {r r' : Submit}
    (h : Submit.Stepped cfg env r db db' r') (hmid : (Proc.submit r').rests = false) (reply : Reply) :
    r.pc ≠ .replied reply := by
  intro hpc
  cases h with
  | failed => cases hmid
  | queueChecked hq | dependenciesChecked hq | batchInserted hq | jobInserted _ _ hq
    | attached _ _ _ _ hq | scheduleInserted hq | published _ hq | replied _ hq =>
      rw [hpc] at hq
      cases hq

theorem Remembered.checked_step (hR : Remembered first tr s) (halone : a.alone s = true)
    (h : step cfg s a = some s') (k : Nat) (r' : Submit) (hk : s'.proc k = some (.submit r'))
    (hmid : (Proc.submit r').rests = false) (hc : r'.Checked) (hne : r'.initialStatus ≠ .blocked) :
    ∀ d ∈ r'.body.dependsOn, s'.db.statusOf d = some .completed := by
  cases submit_origin h hk with
  | idle hk₀ hidle =>
      rw [db_eq_of_idle halone h hk₀ hmid hidle]
      exact hR.checked k r' hk₀ hmid hc hne
  | started _ _ hpc _ => simp [Proc.rests, hpc] at hmid
  | stepped env r _ hk₀ hs =>
      have hat := fun j d todo rest hpc => (hR.requests.attach k r j d todo rest hk₀ hpc).1
      rcases hs.checked hat hc with ⟨hc₀, hbody, hinit⟩ | ⟨hdb, hbody, satisfied, hsat, hinit⟩
      · have hmid₀ : (Proc.submit r).rests = false := by
          have hpast := hR.requests.pastCheck hk₀ hc₀
          cases hpc : r.pc <;> simp only [Submit.pastCheck, hpc, Bool.false_eq_true] at hpast <;>
            simp only [Proc.rests, hpc]
          exact absurd hpc (hs.not_replied hmid _)
        intro d hd
        exact hs.statusOf (hR.checked k r hk₀ hmid₀ hc₀ (hinit ▸ hne) d (hbody ▸ hd))
      · intro d hd
        rw [hdb]
        refine (dependenciesAreSatisfied_some hsat d (hbody ▸ hd)).2 ?_
        cases satisfied with
        | true => rfl
        | false => exact absurd hinit hne

theorem Remembered.attaching_step (hR : Remembered first tr s) (halone : a.alone s = true)
    (h : step cfg s a = some s') (k : Nat) (r' : Submit) (j d : UUID) (todo : List UUID)
    (rest : List JobItem) (hk : s'.proc k = some (.submit r')) (hpc : r'.pc = .attach j d todo rest) :
    j ∉ first.jobs ∧ (s'.db.statusOf j = some .blocked ∨
      ∀ x ∈ r'.body.dependsOn, CompletedFirst (history tr s) j x) := by
  cases submit_origin h hk with
  | idle hk₀ hidle =>
      rw [db_eq_of_idle halone h hk₀ (by simp [Proc.rests, hpc]) hidle]
      exact hR.attaching k r' j d todo rest hk₀ hpc
  | started _ _ hq _ => rw [hq] at hpc; cases hpc
  | stepped env r _ hk₀ hs =>
      obtain ⟨hbody, _, hnew⟩ := hs.created j
      rcases hs.attach hpc with ⟨hc, hno, _⟩ | ⟨x, hat, _⟩
      · refine ⟨fun hfirst => hno (hR.kept j hfirst), ?_⟩
        rcases hnew hc with hold | ⟨_, ⟨item, rest', hins⟩, _, hst⟩
        · exact absurd (hR.requests.created k r j hk₀ hold) hno
        · by_cases hb : r.initialStatus = .blocked
          · exact .inl (hb ▸ hst)
          -- the job is queued: its prerequisites are completed, and it has not been there before
          · refine .inr (fun x hx => completedFirst_of_waits (fun u hu => .inl ?_)
              ⟨s.db, mem_history_self tr s, ?_⟩)
            · cases hu' : u.statusOf j with
              | none => rfl
              | some st => exact absurd (hR.seen u hu j st hu') hno
            · exact hR.checked k r hk₀ (by simp [Proc.rests, hins]) (.inr (.inl ⟨item, rest', hins⟩))
                hb x (hbody ▸ hx)
      · obtain ⟨hfirst, hst⟩ := hR.attaching k r j x (d :: todo) rest hk₀ hat
        exact ⟨hfirst, hst.imp hs.statusOf (fun hall y hy => hall y (hbody ▸ hy))⟩

/-- **One statement** of a sequence of complete operations. -/
theorem remembered_step (hR : Remembered first tr s) (halone : a.alone s = true)
    (hlate : RevivesLate tr (s, a)) (h : step cfg s a = some s') : Remembered first (tr ++ [(s, a)]) s' where
  pending := pending_step hR.pending h
  inserts := insertsPending_step hR.inserts h
  requests := requests_step hR.requests h
  kept j hj := mem_jobs_stays h (hR.kept j hj)
  seen db hdb j st hst := hR.seen_step h db (by simpa using hdb) j st hst
  waits j hb db hdb := hR.waits_step h j hb db (by simpa using hdb)
  execs k e hk := by simpa using (hR.execs_step h k e hk).snoc s'.db
  entries x j hx := by simpa using (hR.entries_step h x j hx).snoc s'.db
  replays k r j hk hpc := by simpa using (hR.replays_step h k r j hk hpc).snoc s'.db
  retries k r hk hpc := hR.retries_step halone h k r hk hpc
  ended j hst := by simpa using (hR.ended_step h j hst).snoc s'.db
  failed j hst := by simpa using hR.failed_step h j hst
  fresh j d he := (hR.edge_step h he).elim (hR.fresh j d) (fun hnew => hnew.1)
  met j d he hk := by simpa using hR.met_step h hlate j d he (by simpa using hk)
  checked k r hk hmid hc hne := hR.checked_step halone h k r hk hmid hc hne
  attaching k r j d todo rest hk hpc := by
    obtain ⟨hfirst, hst⟩ := hR.attaching_step halone h k r j d todo rest hk hpc
    refine ⟨hfirst, hst.imp id (fun hall x hx => ?_)⟩
    simpa using (hall x hx).snoc s'.db

end

theorem remembered_atRest (clock : Timestamp) {db : Db} (hedges : db.jobDependencies = [])
    (hentries : db.EntriesRefer) : Remembered db [] (Sys.atRest clock db) where
  pending := pending_atRest clock db
  inserts := insertsPending_atRest clock db
  requests := requests_atRest clock db (by simp [hedges])
  kept _ hj := hj
  seen := by
    intro u hu j st hst
    rw [List.mem_singleton.mp hu] at hst
    exact mem_jobs_of_statusOf hst
  waits := by
    intro j hb u hu
    rw [List.mem_singleton.mp hu]
    exact .inr hb
  execs := by intro k e h; simp at h
  entries x j hx := by
    obtain ⟨entry, hentry, ho⟩ := hx
    exact .inl (hentries x entry j hentry ho)
  replays := by intro k r j h; simp at h
  retries := by intro k r h; simp at h
  ended j hst := .inl (hst.elim mem_jobs_of_statusOf mem_jobs_of_statusOf)
  failed j hst := .inl (.inl (mem_jobs_of_statusOf hst))
  fresh := by simp [Sys.atRest, hedges]
  met := by simp [Sys.atRest, hedges]
  checked := by intro k r h; simp at h
  attaching := by intro k r j d todo rest h; simp at h

/-- The memory of the run in every state. -/
theorem remembered_run {cfg : Config} {clock : Timestamp} {db : Db} {tr : List (Sys × Action)} {s : Sys}
    (h : SysRun cfg (Sys.atRest clock db) tr s) (hedges : db.jobDependencies = [])
    (hentries : db.EntriesRefer) (halone : ∀ p ∈ tr, p.2.alone p.1 = true)
    (hlate : AtEach RevivesLate tr) : Remembered db tr s := by
  induction h with
  | nil => exact remembered_atRest clock hedges hentries
  | @snoc tr s s' a _ hs ih =>
      obtain ⟨hlate₀, hlast⟩ := atEach_snoc.mp hlate
      have hR := ih (fun p hp => halone p (List.mem_append_left _ hp)) hlate₀
      exact remembered_step hR (halone _ (List.mem_append_right _ (List.mem_singleton_self _))) hlast hs

/-- **Recorded dependencies hold under operator actions**, in every sequence of
complete operations in which no retry revives a job that a batch cancellation had
failed while it waited for a prerequisite that had never been completed. -/
theorem recorded_dependencies_held {cfg : Config} {clock : Timestamp} {db : Db}
    {tr : List (Sys × Action)} {s : Sys} (h : SysRun cfg (Sys.atRest clock db) tr s)
    (hedges : db.jobDependencies = []) (hentries : db.EntriesRefer)
    (halone : ∀ p ∈ tr, p.2.alone p.1 = true) (hlate : AtEach RevivesLate tr) :
    DependenciesHeld tr s := by
  intro j d st he hst hl
  exact (remembered_run h hedges hentries halone hlate).met j d he (known_of_live hst hl)

/-- Job 8 is submitted with the prerequisite 6; then worker 5 executes job 6, whose
unblock statement releases job 8. -/
def recordedActions : List Action :=
  .start 1 (.submit 1 1 (CreateJobInput.small [6])) :: Action.runs 1 { now := 0, fresh := 8 } 6 ++
    untilUnblock ++ Action.runs 0 { now := 0 } 5

theorem recorded_dependencies_held_released :
    let s := play (step Config.small) (Sys.atRest 0 (Db.small 1 [(6, Job.small .queued)])) recordedActions
    let tr := trace (step Config.small) (Sys.atRest 0 (Db.small 1 [(6, Job.small .queued)])) recordedActions
    s.db.statusOf 8 = some .queued ∧ DependenciesHeld tr s := by
  refine ⟨by rfl, recorded_dependencies_held (run_of_play _ _ _ (by rfl)) rfl ?_ (by decide) (by decide)⟩
  intro x entry j hentry
  cases hentry

/-- A batch of the jobs 8 and 10, both with the prerequisite 6, is cancelled; then
job 8 is retried. -/
def cancelAndRetryActions : List Action :=
  .start 1 (.submit 1 1 { CreateJobInput.smallBatch 3 (Nat.succ_pos 2) with dependsOnTexts := [{ value := 6 }] })
    :: Action.runs 1 { now := 0, fresh := 9 } 3 ++ Action.runs 1 { now := 0, fresh := 8 } 2 ++
    Action.runs 1 { now := 0, fresh := 10 } 4 ++
    .start 2 (.cancel 1 9) :: Action.runs 2 { now := 0 } 5 ++
    .start 3 (.retry 1 8) :: Action.runs 3 { now := 0 } 5

/-- Job 8 is queued although its prerequisite 6 has not run. -/
theorem retry_after_cancel_jumps :
    ¬ (∀ (cfg : Config) (clock : Timestamp) (db : Db) (tr : List (Sys × Action)) (s : Sys),
        SysRun cfg (Sys.atRest clock db) tr s → db.jobDependencies = [] → db.EntriesRefer →
        (∀ p ∈ tr, p.2.alone p.1 = true) → DependenciesHeld tr s) := by
  intro hclaim
  obtain ⟨before, u, after, hdbs, hdone, _⟩ := hclaim Config.small 0 (Db.small 1 [(6, Job.small .queued)]) _ _
    (run_of_play (step Config.small) _ cancelAndRetryActions (by rfl)) rfl
    (by intro x entry j hentry; cases hentry) (by decide) 8 6 .queued (by decide) (by rfl) rfl
  -- job 6 is queued in every database of the run
  have hall : ∀ v ∈ history (trace (step Config.small) (Sys.atRest 0 (Db.small 1 [(6, Job.small .queued)]))
      cancelAndRetryActions) (play (step Config.small) (Sys.atRest 0 (Db.small 1 [(6, Job.small .queued)]))
      cancelAndRetryActions), v.statusOf 6 ≠ some .completed := by decide
  exact hall u (hdbs ▸ List.mem_append_right _ List.mem_cons_self) hdone

end JobScheduler
