/-
  JobScheduler.Claiming.Exclusivity
  ─────────────────────────────────
  A job is handed out once per time it is queued.  The row lock that a claim
  takes with its UPDATE separates the claims; transactions that merely overlap
  may still return the same job, one after the other, when the job is put back
  in between.
-/
import JobScheduler.System.Activation

namespace JobScheduler

open Relational Transition

/-! ## §1. The events of a claim. -/

/-- Claim `k` is between its UPDATE, which took job `j`, and its COMMIT. -/
def Sys.Taken (s : Sys) (k : Nat) (j : UUID) : Prop :=
  ∃ c row, s.proc k = some (.claim c) ∧ c.pc = .committing (some (j, row))

/-- The action is the COMMIT with which claim `k` returns job `j`. -/
def Action.Returns (s : Sys) (a : Action) (k : Nat) (j : UUID) : Prop :=
  s.Taken k j ∧ ∃ env, a = .run k env ∧ env.fails = false

/-- The action is the UPDATE with which claim `k` takes job `j`. -/
def Action.Takes (cfg : Config) (s : Sys) (a : Action) (k : Nat) (j : UUID) : Prop :=
  ¬ s.Taken k j ∧ ∃ s', step cfg s a = some s' ∧ s'.Taken k j

/-- The action is a statement of a client other than a claim that puts `j` back
to `queued`. -/
def Action.Requeues (cfg : Config) (s : Sys) (a : Action) (j : UUID) : Prop :=
  s.db.statusOf j ≠ some .queued ∧
    ∃ pid env p s', a = .run pid env ∧ s.proc pid = some p ∧ (∀ c, p ≠ .claim c) ∧
      step cfg s a = some s' ∧ s'.db.statusOf j = some .queued

/-- What the statement of claim `k` did to the jobs: it returned one, which it
turned from queued to claimed, and left every other row alone; or it changed
nothing. -/
def Claim.Effect (s s' : Sys) (k : Nat) (c : Claim) : Prop :=
  (s'.db = s.db ∧ ∀ e, s'.proc k ≠ some (.exec e)) ∨
  ∃ j old, s.Taken k j ∧ s.db.jobs.lookup j = some old ∧ old.status = .queued ∧
    s'.db.jobs.lookup j = some (c.claimed old) ∧
    (∀ i, i ≠ j → s'.db.jobs.lookup i = s.db.jobs.lookup i) ∧
    s'.proc k = some (.exec { jobId := j, job := c.claimed old, workerId := c.workerId })

/-! ## §2. One statement. -/

/-- What the statements of a claim do to the jobs. -/
theorem claim_effect {cfg : Config} {s s' : Sys} {k : Nat} {env : Env} {c : Claim}
    (hP : Pending s) (hk : s.proc k = some (.claim c))
    (h : step cfg s (.run k env) = some s') : c.Effect s s' k := by
  obtain ⟨p', hk', hs⟩ := proc_run h hk
  obtain ⟨⟨d, c'⟩, hc, he⟩ := Option.map_eq_some_iff.mp hs
  obtain ⟨rfl, rfl⟩ := Prod.mk.inj he
  by_cases hret : ∃ j row, c'.pc = .returned (some (j, row))
  · obtain ⟨j, row, hret⟩ := hret
    obtain ⟨hpc, hdb, hw⟩ := Claim.step_returned hc hret
    obtain ⟨old, hold, hq, rfl⟩ := hP.queued k c j row hk hpc
    refine .inr ⟨j, old, ⟨c, _, hk, hpc⟩, hold, hq, ?_, ?_, ?_⟩
    · rw [hdb]; exact updateJob_lookup_self _ hold
    · intro i hi; rw [hdb]; exact updateJob_lookup_ne _ _ hi
    · rw [hk', Claim.toProc, hret, hw]
  · -- no statement but an accepted COMMIT writes
    have hto : c'.toProc = .claim c' := by
      unfold Claim.toProc
      split
      · rename_i id row hpc
        exact absurd ⟨id, row, hpc⟩ hret
      · rfl
    refine .inl ⟨?_, ?_⟩
    · generalize hdb : s'.db = db' at hc
      cases Claim.stepped hc with
      | committed id row _ _ => exact absurd ⟨id, row, rfl⟩ hret
      | _ => rfl
    · intro e he
      rw [hk', hto] at he
      simp at he

/-- A job that is taken is queued. -/
theorem Sys.Taken.queued {s : Sys} (hP : Pending s) {k : Nat} {j : UUID} (h : s.Taken k j) :
    s.db.statusOf j = some .queued := by
  obtain ⟨c, row, hk, hpc⟩ := h
  obtain ⟨old, hold, hq, _⟩ := hP.queued k c j row hk hpc
  simp [Db.statusOf, hold, hq]

/-- A job is queued when it is taken. -/
theorem Action.Takes.queued {cfg : Config} {s : Sys} {a : Action} {k : Nat} {j : UUID}
    (h : a.Takes cfg s k j) : s.db.statusOf j = some .queued := by
  obtain ⟨hno, s', hs, c', row, hk, hpc⟩ := h
  cases origin hs hk with
  | idle hk₀ _ => exact absurd ⟨c', row, hk₀, hpc⟩ hno
  | started request _ hp _ => exact absurd hpc (Request.start_not_committing hp.symm)
  | moved env p _ _ hs' =>
      obtain ⟨c, _, _, _, old, hold, hcand, _⟩ := claim_committing_of_step hs' hpc
      simp [Db.statusOf, hold, (Claim.candidate_iff.mp hcand).2.1]

/-- A job becomes queued by another operation than a claim. -/
theorem requeues_of_change {cfg : Config} {s s' : Sys} {a : Action} {j : UUID}
    (h : step cfg s a = some s') (hold : ∃ old, s.db.jobs.lookup j = some old)
    (h₀ : s.db.statusOf j ≠ some .queued) (h₁ : s'.db.statusOf j = some .queued) :
    a.Requeues cfg s j := by
  rcases step_row h j with heq | ⟨pid, env, p, rfl, hp, _, hch⟩
  · simp only [Db.statusOf, heq] at h₁
    exact absurd h₁ h₀
  · refine ⟨h₀, pid, env, p, s', rfl, hp, ?_, h, h₁⟩
    rintro c rfl
    obtain ⟨old, hold⟩ := hold
    simp only [Db.statusOf] at h₀ h₁
    cases hn : s'.db.jobs.lookup j with
    | none => simp [hn] at h₁
    | some new =>
        rw [hold, hn] at hch
        cases hch with
        | same => rw [hold] at h₀; rw [hn] at h₁; exact h₀ h₁
        | claimed _ _ _ _ => simp [hn, Claim.claimed] at h₁

/-! ## §3. Runs. -/

/-- **Exclusivity.**  In every run, with any operations and any failures: a
claim's statements change no job row except that its COMMIT turns the one job it
returns from queued to claimed; and between two claims that return the same job
another operation has put the job back to queued, before the second claim took
it. -/
theorem claims_exclusive {cfg : Config} {clock : Timestamp} {db : Db} {s : Sys}
    {tr : List (Sys × Action)} (hrun : SysRun cfg (Sys.atRest clock db) tr s) :
    (∀ t k env c t', (t, Action.run k env) ∈ tr → t.proc k = some (.claim c) →
      step cfg t (.run k env) = some t' → c.Effect t t' k) ∧
    (∀ tr₁ t₁ a₁ tr₂ t₂ a₂ tr₃ k l j,
      tr = tr₁ ++ (t₁, a₁) :: (tr₂ ++ (t₂, a₂) :: tr₃) → a₁.Returns t₁ k j → a₂.Returns t₂ l j →
      ∃ pre u b mid v w post, tr₂ = pre ++ (u, b) :: (mid ++ (v, w) :: post) ∧
        b.Requeues cfg u j ∧ w.Takes cfg v l j) := by
  have hP₀ := pending_atRest clock db
  refine ⟨?_, ?_⟩
  · intro t k env c t' hmem hk hstep
    obtain ⟨tr₁, _, hpre, _, _⟩ := hrun.of_mem hmem
    exact claim_effect (pending_run hP₀ hpre) hk hstep
  · rintro tr₁ t₁ a₁ tr₂ t₂ a₂ tr₃ k l j rfl ⟨⟨c, row, hk, hpc⟩, env, rfl, hf⟩ ⟨htaken, _⟩
    obtain ⟨t, hpre, hstep, hrest⟩ := hrun.split_cons
    obtain ⟨t', hmid, _, _⟩ := hrest.split_cons
    have hPt := pending_step (pending_run hP₀ hpre) hstep
    -- after the first COMMIT the job is claimed
    have hclaimed : ∃ new, t.db.jobs.lookup j = some new ∧ new.status = .claimed := by
      rcases claim_effect (pending_run hP₀ hpre) hk hstep with ⟨_, hno⟩ | ⟨i, old, htk, hold, _, hnew, _⟩
      · exfalso
        obtain ⟨p', hk', hs⟩ := proc_run hstep hk
        simp only [Proc.step, Claim.step, hpc, hf, Bool.false_eq_true, if_false,
          Option.map_some, Option.some.injEq, Prod.mk.injEq] at hs
        obtain ⟨_, rfl⟩ := hs
        exact hno _ hk'
      · obtain ⟨c', row', hk', hpc'⟩ := htk
        rw [hk] at hk'
        cases hk'
        rw [hpc] at hpc'
        cases hpc'
        exact ⟨_, hnew, rfl⟩
    obtain ⟨new, hnew, hst⟩ := hclaimed
    have hnq : t.db.statusOf j ≠ some .queued := by simp [Db.statusOf, hnew, hst]
    -- the second claim takes the job later, when it is queued
    obtain ⟨x, v, w, post, v', rfl, hx, hno, hvstep, hyes⟩ :=
      hmid.exists_change (P := fun s => s.Taken l j) (fun h => hnq (h.queued hPt)) htaken
    have htakes : w.Takes cfg v l j := ⟨hno, v', hvstep, hyes⟩
    obtain ⟨pre, u, b, mid, u', rfl, hpre', hnq', hustep, hq'⟩ :=
      hx.exists_change (P := fun s => s.db.statusOf j = some .queued) hnq htakes.queued
    have hrow := hpre'.invariant (I := fun s => ∃ o, s.db.jobs.lookup j = some o)
      (G := fun _ _ => True) (fun _ _ _ hI _ hs => row_stays hs hI) (fun _ _ => trivial)
      ⟨new, hnew⟩
    exact ⟨pre, u, b, mid, v, w, post, by simp, requeues_of_change hustep hrow hnq' hq', htakes⟩

/-! ## §4. Overlapping transactions. -/

/-- Claim 0 takes job 7; a replay of the job issues its UPDATE at time 4 and
waits for the row; claim 1 begins at time 5. -/
def overlapPrefix : List Action :=
  [.start 2 (.replay 1 3), .run 2 { now := 0 }, .start 0 (.claim 5 none none)]
    ++ Action.runs 0 { now := 0, pick := some 7 } 4
    ++ [.wait 5, .start 1 (.claim 6 none none), .run 1 { now := 5 }]

/-- After claim 0's COMMIT: the waiting UPDATE is carried out, with the `run_at`
of the time it was issued, and claim 1 goes on to take job 7. -/
def overlapSuffix : List Action :=
  .run 2 { now := 4 } :: Action.runs 1 { now := 5, pick := some 7 } 3

theorem overlap_run :
    SysRun Config.small (Sys.atRest 0 (Db.smallReplayable 2))
      (trace (step Config.small) (Sys.atRest 0 (Db.smallReplayable 2)) overlapPrefix ++
        (play (step Config.small) (Sys.atRest 0 (Db.smallReplayable 2)) overlapPrefix, Action.run 0 { now := 5 }) ::
          trace (step Config.small)
            (play (step Config.small) (Sys.atRest 0 (Db.smallReplayable 2)) (overlapPrefix ++ [.run 0 { now := 5 }]))
            overlapSuffix)
      (play (step Config.small) (Sys.atRest 0 (Db.smallReplayable 2))
        (overlapPrefix ++ .run 0 { now := 5 } :: overlapSuffix)) :=
  run_of_play_at _ _ _ _ _ (by rfl)

/-- Two overlapping transactions return the same job: claim 1 is open when claim
0 commits job 7, and commits job 7 as well. -/
theorem overlapping_claims_return_same_job :
    ∃ tr₁ t₁ tr₂ t₂, SysRun Config.small (Sys.atRest 0 (Db.smallReplayable 2))
        (tr₁ ++ (t₁, Action.run 0 { now := 5 }) :: tr₂) t₂ ∧
      (Action.run 0 { now := 5 }).Returns t₁ 0 7 ∧
      (∃ c, t₁.proc 1 = some (.claim c) ∧ c.isOpen = true) ∧
      (Action.run 1 { now := 5 }).Returns t₂ 1 7 ∧
      (step Config.small t₂ (.run 1 { now := 5 })).isSome = true := by
  refine ⟨_, _, _, _, overlap_run, ?_, ⟨_, rfl, rfl⟩, ?_, rfl⟩
  · exact ⟨⟨_, _, rfl, rfl⟩, _, rfl, rfl⟩
  · exact ⟨⟨_, _, rfl, rfl⟩, _, rfl, rfl⟩

/-- In the overlapping run the replay stands between the two claims. -/
theorem claims_exclusive_overlap :
    ∃ u b v w, Action.Requeues Config.small u b 7 ∧ Action.Takes Config.small v w 1 7 := by
  obtain ⟨s', hs'⟩ := Option.isSome_iff_exists.mp
    (show (step Config.small (play (step Config.small) (Sys.atRest 0 (Db.smallReplayable 2))
      (overlapPrefix ++ .run 0 { now := 5 } :: overlapSuffix)) (.run 1 { now := 5 })).isSome = true
      by rfl)
  have hrun := overlap_run.snoc hs'
  rw [List.append_assoc, List.cons_append] at hrun
  obtain ⟨_, u, b, _, v, w, _, _, hb, hw⟩ := (claims_exclusive hrun).2 _ _ _ _ _ _ [] 0 1 7 rfl
    ⟨⟨_, _, rfl, rfl⟩, _, rfl, rfl⟩ ⟨⟨_, _, rfl, rfl⟩, _, rfl, rfl⟩
  exact ⟨u, b, v, w, hb, hw⟩

end JobScheduler
