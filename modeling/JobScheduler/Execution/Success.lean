/-
  JobScheduler.Execution.Success
  ──────────────────────────────
  What becomes of a success.  After the UPDATE that sets `completed`, seven more
  statements share the `try` block of the handler; one that is rejected enters
  the `catch` of a failed attempt.  A call is followed on its own, statement by
  statement, with an arbitrary database at each of them: a run of the system
  projects onto such a call.
-/
import JobScheduler.System.Activation

namespace JobScheduler

open Relational Transition

/-! ## §1. One call of `executeJob`. -/

/-- What the environment shows and does to one statement of a call. -/
structure Moment where
  ctx : Ctx
  env : Env
  db : Db

/-- The call alone: its next statement, in a database that the other clients
may have changed since the previous one. -/
def Exec.advance (cfg : Config) (e : Exec) (m : Moment) : Option Exec :=
  (e.step cfg m.ctx m.env m.db).map Prod.snd

/-- The statement is rejected, by PostgreSQL or by the limit of pg_notify. -/
def Exec.rejected (cfg : Config) (e : Exec) (m : Moment) : Bool := m.env.fails || e.overflows cfg

/-- The activation that client `k` executes. -/
def Sys.activation (k : Nat) (s : Sys) : Option Exec :=
  match s.proc k with
  | some (.exec e) => some e
  | _ => none

/-- The moment of a step of client `k`. -/
def Sys.moment (k : Nat) (s : Sys) : Action → Option Moment
  | .run pid env => if pid = k then some { ctx := s.ctx, env := env, db := s.db } else none
  | _ => none

theorem activation_eq_some {k : Nat} {s : Sys} {e : Exec} :
    s.activation k = some e ↔ s.proc k = some (.exec e) := by
  unfold Sys.activation
  split <;> simp_all

/-- **A run of the system projects onto the call of client `k`.** -/
theorem activation_run {cfg : Config} {k : Nat} {s₀ s : Sys} {tr : List (Sys × Action)} {e₀ : Exec}
    (h : SysRun cfg s₀ tr s) (h₀ : s₀.activation k = some e₀) :
    ∃ e, s.activation k = some e ∧
      Run (Exec.advance cfg) e₀ (project (Sys.activation k) (Sys.moment k) tr) e := by
  refine h.project ?_ h₀
  intro t a t' e he hs
  have hk := activation_eq_some.mp he
  rcases exec_next hs hk with ⟨hk', hne⟩ | ⟨env, e', rfl, hk', hstep⟩
  · refine .inl ⟨?_, activation_eq_some.mpr hk'⟩
    cases a with
    | run pid env =>
        have hpk : pid ≠ k := by rintro rfl; exact hne env rfl
        simp [Sys.moment, hpk]
    | _ => rfl
  · exact .inr ⟨{ ctx := t.ctx, env := env, db := t.db }, e', by simp [Sys.moment],
      by simp [Exec.advance, hstep], activation_eq_some.mpr hk'⟩

/-! ## §2. Undoing a success. -/

/-- The statements of the `catch` block that undo a success: the execution row
marked failed, the requeue, the dead-letter UPDATE and INSERT. -/
def ExecPc.undoes : ExecPc → Bool
  | .executionFailed _ | .requeue _ _ _ | .deadLetter _ | .insertDeadLetter _ => true
  | _ => false

/-- The statement counts the job in its batch. -/
def ExecPc.counts : ExecPc → Bool
  | .batchProgress _ => true
  | _ => false

/-- `insertJobLog` and the callback swallow their rejections. -/
def ExecPc.swallows : ExecPc → Bool
  | .log _ | .callback _ _ => true
  | _ => false

/-- The steps of a call that count its job. -/
def counted (cfg : Config) (ltr : List (Exec × Moment)) : Nat :=
  ltr.countP (fun p => p.1.pc.counts && !p.1.rejected cfg p.2)

/-- **The success stands.**  No statement of the call takes the job out of
`completed`, none undoes the success, and the job is counted at most once. -/
structure SuccessStands (cfg : Config) (ltr : List (Exec × Moment)) : Prop where
  kept : ∀ p ∈ ltr, ∀ db' e', p.1.step cfg p.2.ctx p.2.env p.2.db = some (db', e') →
    p.2.db.statusOf p.1.jobId = some .completed → db'.statusOf p.1.jobId = some .completed
  notUndone : ∀ p ∈ ltr, p.1.rejected cfg p.2 = false → p.1.pc.undoes = false
  countedOnce : counted cfg ltr ≤ 1

/-- Every rejection on the success path that is not swallowed is followed by a
rejection of the next statement, the first of the `catch` block. -/
def Contained (cfg : Config) (ltr : List (Exec × Moment)) : Prop :=
  ∀ pre p post, ltr = pre ++ p :: post → p.1.stage = .completed → p.1.pc.swallows = false →
    p.1.rejected cfg p.2 = true → ∀ q, post.head? = some q → q.1.rejected cfg q.2 = true

/-! ## §3. Steps of the success path. -/

section
variable {cfg : Config} {ctx : Ctx} {env : Env} {db db' : Db} {e e' : Exec}

/-- A rejection that is not swallowed enters the `catch` block. -/
theorem onThrow_completed (error : String) {pc : ExecPc} (hs : pc.stage = .completed)
    (hw : pc.swallows = false) : Exec.onThrow error pc = .executionFailed error := by
  cases pc <;> simp only [ExecPc.stage, reduceCtorEq, ExecPc.swallows, Bool.true_eq_false] at hs hw
  case executionCompleted | unblock => rfl
  case publish site | notify site =>
    cases site <;> simp only [PublishSite.stage, reduceCtorEq] at hs <;> try rfl
    case batchCompleted result batch => cases result <;> first | rfl | cases hs
  case batchProgress result | batchStatus result batch => cases result <;> first | rfl | cases hs

/-- Otherwise the call stays on the success path, beyond the increment once it
has made it, or goes on to release its lock. -/
theorem Exec.step_completed (h : e.step cfg ctx env db = some (db', e'))
    (hs : e.stage = .completed)
    (hok : (env.fails || e.overflows cfg) = false ∨ e.pc.swallows = true) :
    e'.pc = .release ∨ e'.stage = .completed ∧
      (e.pc.finalising = true ∨ e.pc.counts = true → e'.pc.finalising = true) := by
  unfold Exec.stage at hs ⊢
  obtain ⟨_, ⟨hr, _, rfl⟩ | ⟨hr, _, rfl⟩⟩ := Exec.step_cases h
  · have hw := hok.resolve_left (by simp [hr])
    cases hpc : e.pc <;> simp only [hpc, ExecPc.swallows, Bool.false_eq_true] at hw
    case callback result batch => exact .inl rfl
    case log site =>
      rw [hpc] at hs
      cases site <;> simp only [ExecPc.stage, LogSite.stage, reduceCtorEq] at hs
      · exact .inr ⟨rfl, by simp [ExecPc.finalising, ExecPc.counts]⟩
      · exact .inr ⟨rfl, by simp [ExecPc.finalising, ExecPc.counts]⟩
  · have hflow := e.flow env db
    generalize e.pc = pc at hflow hs ⊢
    generalize (e.next env db).pc = pc' at hflow ⊢
    cases hflow with
    | stored | unblocks => exact .inr ⟨rfl, by simp [ExecPc.finalising, ExecPc.counts]⟩
    | published site => exact .inr ⟨hs, by cases site <;> simp [ExecPc.finalising, ExecPc.counts]⟩
    | logged site =>
        cases site <;> first
          | exact .inr ⟨rfl, by simp [ExecPc.finalising, ExecPc.counts]⟩
          | cases hs
    | looped _ hpc | counts _ hpc =>
        obtain rfl | ⟨_, _, rfl⟩ := hpc <;>
          exact .inr ⟨rfl, by simp [ExecPc.finalising, ExecPc.counts]⟩
    | finished | finalised | calls => exact .inr ⟨hs, fun _ => rfl⟩
    | uncounted | unfinished | uncalled | called => exact .inl rfl
    | _ => cases hs

/-- Only four statements can take a job out of `completed`. -/
theorem Exec.step_kept (h : e.step cfg ctx env db = some (db', e')) (hr : e.pc ≠ .setRunning)
    (hq : e.pc.undoes = true → (env.fails || e.overflows cfg) = true)
    (hst : db.statusOf e.jobId = some .completed) : db'.statusOf e.jobId = some .completed := by
  obtain ⟨_, ⟨_, rfl, _⟩ | ⟨hacc, rfl, _⟩⟩ := Exec.step_cases h
  · exact hst
  · obtain ⟨old, hold, hcomp⟩ := Option.map_eq_some_iff.mp hst
    rw [hacc] at hq
    cases hpc : e.pc <;> simp only [hpc, ExecPc.undoes, forall_const, reduceCtorEq,
      Bool.false_eq_true, ne_eq, not_true_eq_false] at hq hr <;> simp only [Exec.effect, hpc]
    case setCompleted result => simp [Db.statusOf, hold]
    case unblock => simp [Db.statusOf, hold, Db.releasable, hcomp]
    all_goals exact hst

end

/-! ## §4. The whole call. -/

/-- The increments of the call, statement by statement. -/
theorem counted_snoc (cfg : Config) (ltr : List (Exec × Moment)) (e : Exec) (m : Moment) :
    counted cfg (ltr ++ [(e, m)])
      = counted cfg ltr + if e.pc.counts && !e.rejected cfg m then 1 else 0 := by
  simp [counted, List.countP_append, List.countP_cons]

theorem Contained.init {cfg : Config} {ltr : List (Exec × Moment)} {x : Exec × Moment}
    (h : Contained cfg (ltr ++ [x])) : Contained cfg ltr := by
  rintro pre p post rfl hs hw hr q hq
  refine h pre p (post ++ [x]) (by simp) hs hw hr q ?_
  cases post with
  | nil => cases hq
  | cons y ys => exact hq

/-- Where a call whose rejections are contained can be. -/
inductive Safe (cfg : Config) (ltr : List (Exec × Moment)) (e : Exec) : Prop
  | onPath (hs : e.stage = .completed)
      (hc : counted cfg ltr = 0 ∨ counted cfg ltr ≤ 1 ∧ e.pc.finalising = true)
  | caught (error : String) (hpc : e.pc = .executionFailed error) (hc : counted cfg ltr ≤ 1)
      (pre : List (Exec × Moment)) (p : Exec × Moment) (hl : ltr = pre ++ [p])
      (hs : p.1.stage = .completed) (hw : p.1.pc.swallows = false)
      (hr : p.1.rejected cfg p.2 = true)
  | leaving (hpc : e.pc = .release ∨ e.pc = .returned) (hc : counted cfg ltr ≤ 1)

section
variable {cfg : Config} {ltr : List (Exec × Moment)} {e e' : Exec} {m : Moment} {db' : Db}

/-- No statement of the success path undoes the success. -/
theorem Exec.completed_keeps (hs : e.stage = .completed) :
    e.pc ≠ .setRunning ∧ e.pc.undoes = false := by
  unfold Exec.stage at hs
  cases hpc : e.pc <;> rw [hpc] at hs <;> simp [ExecPc.undoes, ExecPc.stage] at hs ⊢

/-- The increment of the success path comes before the finalisation. -/
theorem counted_step (hc : counted cfg ltr = 0 ∨ counted cfg ltr ≤ 1 ∧ e.pc.finalising = true) :
    counted cfg (ltr ++ [(e, m)]) ≤ 1 := by
  -- a statement that counts is the first one to do so
  have hfirst : e.pc.counts = true → counted cfg ltr = 0 := by
    intro hcounts
    refine hc.resolve_right (fun hpast => ?_)
    cases hpc : e.pc <;> simp [hpc, ExecPc.counts, ExecPc.finalising] at hcounts hpast
  rw [counted_snoc]
  split
  · rename_i hinc
    rw [hfirst (Bool.and_eq_true_iff.mp hinc).1]
  · omega

/-- On the success path a statement goes on, or is rejected into the `catch` block. -/
theorem Safe.onPath_step (hs : e.stage = .completed)
    (hc : counted cfg ltr = 0 ∨ counted cfg ltr ≤ 1 ∧ e.pc.finalising = true)
    (h : e.step cfg m.ctx m.env m.db = some (db', e')) : Safe cfg (ltr ++ [(e, m)]) e' := by
  have hcount' : counted cfg (ltr ++ [(e, m)]) ≤ 1 := counted_step hc
  by_cases hr : e.rejected cfg m = true ∧ e.pc.swallows = false
  · -- the rejection enters the `catch` block
    obtain ⟨hrej, hw⟩ := hr
    obtain ⟨_, ⟨_, _, rfl⟩ | ⟨hacc, _, _⟩⟩ := Exec.step_cases h
    · exact .caught m.env.error (onThrow_completed _ hs hw) hcount' ltr (e, m) rfl hs hw hrej
    · exact absurd hrej (by simpa [Exec.rejected] using hacc)
  · have hok : (m.env.fails || e.overflows cfg) = false ∨ e.pc.swallows = true := by
      by_cases hw : e.pc.swallows = true
      · exact .inr hw
      · left
        have : ¬ e.rejected cfg m = true := fun hrej => hr ⟨hrej, by simpa using hw⟩
        simpa [Exec.rejected] using this
    rcases Exec.step_completed h hs hok with hrel | ⟨hs', hpast⟩
    · exact .leaving (.inl hrel) hcount'
    · refine .onPath hs' ?_
      by_cases hcounts : e.pc.counts = true
      · exact .inr ⟨hcount', hpast (.inr hcounts)⟩
      · rcases hc with hzero | ⟨_, hp⟩
        · left
          rw [counted_snoc, hzero]
          simp [hcounts]
        · exact .inr ⟨hcount', hpast (.inl hp)⟩

/-- One statement of the call undoes nothing, unless it is rejected. -/
theorem safe_step (hS : Safe cfg ltr e) (hC : Contained cfg (ltr ++ [(e, m)]))
    (h : e.advance cfg m = some e') :
    Safe cfg (ltr ++ [(e, m)]) e' ∧ e.pc ≠ .setRunning ∧
      (e.pc.undoes = true → e.rejected cfg m = true) := by
  obtain ⟨⟨db', e₁⟩, hstep, rfl⟩ := Option.map_eq_some_iff.mp h
  dsimp only
  cases hS with
  | onPath hs hc =>
      obtain ⟨hrun, hkeeps⟩ := Exec.completed_keeps hs
      exact ⟨.onPath_step hs hc hstep, hrun, fun hu => by rw [hkeeps] at hu; cases hu⟩
  | caught error hpc hc pre p hl hs hw hr =>
      -- contained: the first UPDATE of the `catch` block is rejected as well
      have hrej : e.rejected cfg m = true :=
        hC pre p [(e, m)] (by rw [hl]; simp) hs hw hr (e, m) rfl
      refine ⟨?_, by simp [hpc], fun _ => hrej⟩
      obtain ⟨_, ⟨_, _, rfl⟩ | ⟨hacc, _, _⟩⟩ := Exec.step_cases hstep
      · refine .leaving (.inl ?_) ?_
        · simp [Exec.goto, hpc, Exec.onThrow]
        · rw [counted_snoc, hrej]
          simpa using hc
      · exact absurd hrej (by simpa [Exec.rejected] using hacc)
  | leaving hpc hc =>
      have hcount' : counted cfg (ltr ++ [(e, m)]) ≤ 1 := by
        rw [counted_snoc]
        rcases hpc with hpc | hpc <;> simpa [hpc, ExecPc.counts] using hc
      rcases hpc with hpc | hpc
      · refine ⟨.leaving (.inr ?_) hcount', by simp [hpc], by simp [hpc, ExecPc.undoes]⟩
        obtain ⟨_, ⟨_, _, rfl⟩ | ⟨_, _, rfl⟩⟩ := Exec.step_cases hstep
        · simp [Exec.goto, hpc, Exec.onThrow]
        · simp [Exec.next, hpc, Exec.goto]
      · have hready := (Exec.step_cases hstep).1
        simp [Exec.ready, hpc] at hready

end

/-- The call undoes nothing over the rest of its statements. -/
theorem safe_run {cfg : Config} {ltr : List (Exec × Moment)} {e₀ e : Exec}
    (h₀ : e₀.stage = .completed) (h : Run (Exec.advance cfg) e₀ ltr e) (hC : Contained cfg ltr) :
    Safe cfg ltr e ∧ ∀ p ∈ ltr, p.1.pc ≠ .setRunning ∧
      (p.1.pc.undoes = true → p.1.rejected cfg p.2 = true) := by
  induction h with
  | nil => exact ⟨.onPath h₀ (.inl rfl), by simp⟩
  | @snoc ltr e e' m _ hs ih =>
      obtain ⟨hS, hall⟩ := ih hC.init
      obtain ⟨hS', hlast⟩ := safe_step hS hC hs
      refine ⟨hS', ?_⟩
      intro p hp
      rcases List.mem_append.mp hp with hp | hp
      · exact hall p hp
      · rw [List.mem_singleton.mp hp]
        exact hlast

/-- **A success stands exactly when its rejections are contained.**  For every
call that has just set its job to `completed`, and every continuation of it in
arbitrary databases: the success is not undone and not counted twice if and only
if each rejected statement of the success path, job logs and the callback
apart, is followed by a rejection of the `catch` block's first UPDATE. -/
theorem success_stands_iff {cfg : Config} {ltr : List (Exec × Moment)} {e₀ e : Exec}
    {result : Json} (h₀ : e₀.pc = .executionCompleted result)
    (h : Run (Exec.advance cfg) e₀ ltr e) : SuccessStands cfg ltr ↔ Contained cfg ltr := by
  have hs₀ : e₀.stage = .completed := by simp [Exec.stage, h₀, ExecPc.stage]
  constructor
  · rintro hP pre ⟨e₁, m₁⟩ post rfl hs hw hr ⟨e₂, m₂⟩ hq
    obtain ⟨rest, rfl⟩ : ∃ rest, post = (e₂, m₂) :: rest := by
      cases post with
      | nil => cases hq
      | cons y ys => exact ⟨ys, by cases hq; rfl⟩
    obtain ⟨e₃, _, hstep, hrest⟩ := h.split_cons
    obtain rfl := hrest.start_eq
    by_contra hacc
    have hundo := hP.notUndone (e₂, m₂) (by simp) (by simpa using hacc)
    obtain ⟨⟨db', _⟩, hstep', rfl⟩ := Option.map_eq_some_iff.mp hstep
    obtain ⟨_, ⟨_, _, rfl⟩ | ⟨hacc', _, _⟩⟩ := Exec.step_cases hstep'
    · have hpc : (Exec.onThrow m₁.env.error e₁.pc) = .executionFailed m₁.env.error :=
        onThrow_completed _ hs hw
      simp [Exec.goto, hpc, ExecPc.undoes] at hundo
    · exact absurd hr (by simpa [Exec.rejected] using hacc')
  · intro hC
    obtain ⟨hS, hall⟩ := safe_run hs₀ h hC
    refine ⟨?_, ?_, ?_⟩
    · intro p hp db' e' hstep
      exact Exec.step_kept hstep (hall p hp).1 (hall p hp).2
    · intro p hp hacc
      by_contra hu
      rw [(hall p hp).2 (by simpa using hu)] at hacc
      cases hacc
    · cases hS with
      | onPath _ hc => omega
      | caught _ _ hc => exact hc
      | leaving _ hc => exact hc

/-- Worker 5 executes job 7 up to the commit of `completed`. -/
def completingActions : List Action :=
  .start 0 (.claim 5 none none) :: Action.runs 0 { now := 0, pick := some 7, fresh := 100 } 13

/-- The state in which the row of job 7 has just been set to `completed`. -/
def Sys.completedSeven : Sys :=
  play (step Config.small) (Sys.atRest 0 (Db.small 1 [(7, Job.small .queued)])) completingActions

/-- The rest of the call, without a rejection. -/
theorem success_stands_seven :
    SuccessStands Config.small (project (Sys.activation 0) (Sys.moment 0)
      (trace (step Config.small) Sys.completedSeven (Action.runs 0 { now := 0 } 6))) := by
  have hrun := run_of_play (step Config.small) Sys.completedSeven
    (Action.runs 0 { now := 0 } 6) (by rfl)
  obtain ⟨e, _, hlocal⟩ := activation_run (k := 0) hrun rfl
  refine (success_stands_iff rfl hlocal).mpr ?_
  have hnone : ∀ p ∈ project (Sys.activation 0) (Sys.moment 0)
      (trace (step Config.small) Sys.completedSeven (Action.runs 0 { now := 0 } 6)),
      p.1.rejected Config.small p.2 = false := by decide
  intro pre p post heq _ _ hr
  rw [hnone p (by rw [heq]; simp)] at hr
  cases hr

/-- The UPDATE of the execution row fails after the commit of `completed`: the
only client in the system puts its completed job back to `queued`. -/
theorem completed_job_requeued :
    ∃ tr₁ t tr₂ s, SysRun Config.small (Sys.atRest 0 (Db.small 1 [(7, Job.small .queued)])) tr₁ t ∧
      (∃ e result, t.proc 0 = some (.exec e) ∧ e.jobId = 7 ∧ e.pc = .executionCompleted result) ∧
      t.db.statusOf 7 = some .completed ∧ SysRun Config.small t tr₂ s ∧
      s.clients.keys = [0] ∧ s.db.statusOf 7 = some .queued := by
  refine ⟨_, _, _, _, run_of_play _ _ completingActions (by rfl), ⟨_, _, rfl, rfl, rfl⟩, rfl,
    run_of_play _ _ (.run 0 { now := 0, fails := true } :: Action.runs 0 { now := 0 } 4) (by rfl),
    rfl, rfl⟩

end JobScheduler
