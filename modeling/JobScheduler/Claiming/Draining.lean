/-
  JobScheduler.Claiming.Draining
  ──────────────────────────────
  Claims one after the other.  `pollLoop` claims until `claimNextJob` answers null,
  and several workers may take turns; while nothing else happens to the jobs, the
  claims together empty the queues as far as their limits allow: every queue gives
  exactly as many jobs as it has slots free, or all that are due, and first those
  that lead the others.  Every chain of claims ends, as each answered job is queued
  no more.

  `Claiming.Selection` has the single claim.
-/
import JobScheduler.Claiming.Selection
import JobScheduler.Library.Greedy

namespace JobScheduler

open Relational Transition

/-! ## §1. Claims in a row. -/

/-- The arguments that the claims share. -/
structure Poll where
  queueIds : Option (List UUID)
  shardKey : Option String

/-- The claim that one worker makes with the poll's arguments. -/
def Poll.call (p : Poll) (workerId : UUID) (now : Timestamp) : ClaimCall where
  workerId := workerId
  queueIds := p.queueIds
  shardKey := p.shardKey
  now := now

/-- A claim that has answered a job. -/
structure Taken where
  workerId : UUID
  now : Timestamp
  id : UUID
  /-- The row that `claimNextJob` returned. -/
  row : Job

/-- The claims `xs`, each of which answers a job, with nothing in between. -/
inductive Poll.Claims (p : Poll) : Db → List Taken → Db → Prop
  | nil (db : Db) : Claims p db [] db
  | cons {db db₁ db' : Db} {xs : List Taken} (x : Taken)
      (h : (p.call x.workerId x.now).Answers db (some (x.id, x.row)) db₁)
      (rest : Claims p db₁ xs db') : Claims p db (x :: xs) db'

/-- The claims `xs` and after them one at `last` that answers null, with nothing in between. -/
inductive Poll.Drained (p : Poll) : Db → List Taken → Timestamp → Db → Prop
  | done {db db' : Db} {last : Timestamp} (workerId : UUID)
      (h : (p.call workerId last).Answers db none db') : Drained p db [] last db'
  | more {db db₁ db' : Db} {xs : List Taken} {last : Timestamp} (x : Taken)
      (h : (p.call x.workerId x.now).Answers db (some (x.id, x.row)) db₁)
      (hlater : ∀ y ∈ xs, x.now ≤ y.now) (hlast : x.now ≤ last) (rest : Drained p db₁ xs last db') :
      Drained p db (x :: xs) last db'

/-- The slots that the claims may still fill in a queue: none in one they do not ask for. -/
def Poll.freeSlots (p : Poll) (db : Db) (queueId : UUID) : Nat :=
  match db.queues.lookup queueId with
  | none => 0
  | some q =>
      if (p.call 0 0).start.selects queueId q && !q.isPaused
      then q.concurrencyLimit - db.activeCount queueId
      else 0

/-- The queued jobs of a queue that are due. -/
def Db.dueCount (db : Db) (now : Timestamp) (queueId : UUID) : Nat :=
  db.jobs.count (fun _ j => decide (j.queueId = queueId) &&
    (decide (j.status = .queued) && decide (j.runAt ≤ now)))

/-- The queued jobs. -/
def Db.queuedCount (db : Db) : Nat := db.jobs.count (fun _ j => decide (j.status = .queued))

/-! ## §2. One claim. -/

section
variable {p : Poll} {workerId : UUID} {now : Timestamp} {db db' : Db}

/-- The poll finds a queue eligible exactly while it has a free slot for it. -/
theorem Poll.eligible_iff {queueId : UUID} :
    (∃ q, (p.call workerId now).Eligible db queueId q) ↔ 0 < p.freeSlots db queueId := by
  unfold Poll.freeSlots
  constructor
  · rintro ⟨q, hE⟩
    have hsel : (p.call 0 0).start.selects queueId q = true :=
      (p.call 0 0).selects_iff.mpr ⟨hE.named, hE.shard⟩
    have hroom := hE.room
    simp only [hE.row, hsel, hE.active, Bool.not_false, Bool.and_self, if_true]
    omega
  · intro hpos
    cases hq : db.queues.lookup queueId with
    | none => simp [hq] at hpos
    | some q =>
        simp only [hq] at hpos
        split at hpos
        · rename_i hsel
          obtain ⟨hsel, hactive⟩ := Bool.and_eq_true_iff.mp hsel
          obtain ⟨hnamed, hshard⟩ := (p.call 0 0).selects_iff.mp hsel
          exact ⟨q, hq, hnamed, hshard, by simpa using hactive, by omega⟩
        · omega

/-- A count after the UPDATE of one row. -/
theorem count_updateJob (clause : Job → Bool) {id : UUID} {j : Job} (hrow : db.jobs.lookup id = some j)
    (f : Job → Job) :
    (db.updateJob id f).jobs.count (fun _ => clause) + (if clause j then 1 else 0) =
      db.jobs.count (fun _ => clause) + if clause (f j) then 1 else 0 := by
  have hsame : (db.updateJob id f).jobs.count (fun _ => clause) =
      Table.count (fun _ => clause) (db.jobs.insert id (f j)) := by
    refine Table.count_congr (fun k => ?_)
    rw [Table.mem_keysWhere, Table.mem_keysWhere, Db.updateJob, Table.lookup_update,
      Table.lookup_insert_ite]
    by_cases hk : k = id
    · subst hk
      simp [hrow]
    · simp [hk]
  have hinsert := Table.count_insert (fun _ => clause) db.jobs id (f j)
  rw [hrow] at hinsert
  rw [hsame]
  exact hinsert

/-- A claim takes one slot of its queue, and none of another. -/
theorem Poll.active_claimed {id : UUID} {j : Job} (hj : (p.call workerId now).Claimable db id j)
    (c : UUID) :
    (db.updateJob id (p.call workerId now).claimed).activeCount c =
      db.activeCount c + if c = j.queueId then 1 else 0 := by
  have hcount := count_updateJob (fun i => decide (i.queueId = c) && i.status.active) hj.row
    (p.call workerId now).claimed
  unfold Db.activeCount
  by_cases hc : c = j.queueId
  · subst hc
    simpa [ClaimCall.claimed, hj.queued, JobStatus.active] using hcount
  · have hc' : j.queueId ≠ c := Ne.symm hc
    simpa [ClaimCall.claimed, hc, hc'] using hcount

/-- A claim takes one due job from its queue, and none from another. -/
theorem Poll.due_claimed {last : Timestamp} (hlast : now ≤ last) {id : UUID} {j : Job}
    (hj : (p.call workerId now).Claimable db id j) (c : UUID) :
    db.dueCount last c = (db.updateJob id (p.call workerId now).claimed).dueCount last c +
      if c = j.queueId then 1 else 0 := by
  have hdue : j.runAt ≤ last := le_trans hj.due hlast
  have hcount := count_updateJob
    (fun i => decide (i.queueId = c) && (decide (i.status = .queued) && decide (i.runAt ≤ last))) hj.row
    (p.call workerId now).claimed
  unfold Db.dueCount
  by_cases hc : c = j.queueId
  · subst hc
    simpa [ClaimCall.claimed, hj.queued, hdue] using hcount.symm
  · have hc' : j.queueId ≠ c := Ne.symm hc
    simpa [ClaimCall.claimed, hc, hc'] using hcount.symm

/-- A claim takes one job out of those that are queued. -/
theorem Poll.queued_claimed {id : UUID} {j : Job} (hj : (p.call workerId now).Claimable db id j) :
    db.queuedCount = (db.updateJob id (p.call workerId now).claimed).queuedCount + 1 := by
  have hcount := count_updateJob (fun i => decide (i.status = .queued)) hj.row
    (p.call workerId now).claimed
  simpa [Db.queuedCount, ClaimCall.claimed, hj.queued] using hcount.symm

/-- The claim of a job fills a slot of its queue with a job that was due. -/
theorem Poll.takes {last : Timestamp} (hlast : now ≤ last) {id : UUID} {j : Job}
    (hj : (p.call workerId now).Claimable db id j) :
    Greedy.Takes p.freeSlots (fun db => db.dueCount last) db j.queueId
      (db.updateJob id (p.call workerId now).claimed) := by
  obtain ⟨q, hE⟩ := hj.queue
  have hfree : 0 < p.freeSlots db j.queueId := p.eligible_iff.mp ⟨q, hE⟩
  refine ⟨hfree, ?_, fun c => ?_, p.due_claimed hlast hj⟩
  · have hdue := p.due_claimed hlast hj j.queueId
    rw [if_pos rfl] at hdue
    show 0 < db.dueCount last j.queueId
    omega
  · -- the queues stay, and one job more is active
    have hactive := p.active_claimed hj c
    have hqueues : (db.updateJob id (p.call workerId now).claimed).queues = db.queues := rfl
    unfold Poll.freeSlots at hfree ⊢
    rw [hqueues]
    cases hc : db.queues.lookup c with
    | none =>
        rw [if_neg]
        rintro rfl
        rw [hE.row] at hc
        cases hc
    | some q' =>
        simp only []
        by_cases hcq : c = j.queueId
        · subst hcq
          obtain rfl := Option.some.inj (hE.row.symm.trans hc)
          simp only [hE.row] at hfree
          rw [if_pos rfl] at hactive ⊢
          split at hfree
          · rw [if_pos ‹_›, if_pos ‹_›]
            omega
          · omega
        · rw [if_neg hcq] at hactive ⊢
          rw [hactive]
          simp

/-! ## §3. Claims in a row. -/

theorem Poll.selects_of_answers {r : Option (UUID × Job)} (h : (p.call workerId now).Answers db r db') :
    (p.call workerId now).Selects db r db' := by
  obtain ⟨c, hret, hreach⟩ := h.reaches
  exact ClaimCall.selects_of_reaches hreach hret

/-- What a claim that answers a job has done. -/
theorem Poll.claimed_of_answers {id : UUID} {row : Job}
    (h : (p.call workerId now).Answers db (some (id, row)) db') :
    ∃ j, (p.call workerId now).Claimable db id j ∧
      (∀ k i, (p.call workerId now).Claimable db k i → j.Leads i) ∧
      row = (p.call workerId now).claimed j ∧ db' = db.updateJob id (p.call workerId now).claimed :=
  (p.selects_of_answers h).taken id row rfl

variable {xs : List Taken} {last : Timestamp}

/-- A chain of polls is a greedy run over slots and due jobs. -/
theorem Poll.Drained.taking (h : p.Drained db xs last db') :
    Greedy.Taking p.freeSlots (fun db => db.dueCount last)
      (fun x : Taken => x.row.queueId) db xs db' := by
  induction h with
  | done workerId h =>
      rw [(p.selects_of_answers h).unchanged rfl]
      exact .nil _
  | more x h _ hlast _ ih =>
      obtain ⟨j, hj, _, hrow, rfl⟩ := p.claimed_of_answers h
      have htakes := p.takes hlast hj
      rw [show j.queueId = x.row.queueId from (congrArg Job.queueId hrow).symm] at htakes
      exact .cons htakes ih

/-- After the claim that answers null. -/
theorem Poll.Drained.exhausted (h : p.Drained db xs last db') :
    Greedy.Exhausted p.freeSlots (fun db => db.dueCount last) db' := by
  induction h with
  | @done db db' last workerId h =>
      have hS := p.selects_of_answers h
      obtain rfl := hS.unchanged rfl
      intro c
      by_contra hopen
      obtain ⟨hfree, hdue⟩ := not_or.mp hopen
      obtain ⟨id, j, hrow, hclause⟩ := (Table.count_ne_zero _ _).mp hdue
      simp only [Bool.and_eq_true, decide_eq_true_eq] at hclause
      obtain ⟨rfl, hqueued, hat⟩ := hclause
      exact hS.null_iff.mp rfl id j
        ⟨hrow, hqueued, hat, p.eligible_iff.mpr (Nat.pos_of_ne_zero hfree)⟩
  | more x h _ _ _ ih => exact ih

/-- A job that is taken later is queued now, in a queue that has room. -/
theorem Poll.Drained.queued (h : p.Drained db xs last db') {y : Taken} (hy : y ∈ xs) :
    ∃ i, db.jobs.lookup y.id = some i ∧ i.status = .queued ∧ 0 < p.freeSlots db i.queueId ∧
      y.row = (p.call y.workerId y.now).claimed i := by
  induction h with
  | done workerId h => cases hy
  | @more db db₁ db' xs last x h _ hlast _ ih =>
      obtain ⟨j, hj, _, hrow, rfl⟩ := p.claimed_of_answers h
      rcases List.mem_cons.mp hy with rfl | hmem
      · exact ⟨j, hj.row, hj.queued, p.eligible_iff.mp hj.queue, hrow⟩
      · obtain ⟨i, hi, hqueued, hfree, hclaimed⟩ := ih hmem
        have hne : y.id ≠ x.id := by
          intro heq
          rw [heq, updateJob_lookup_self _ hj.row] at hi
          obtain rfl := Option.some.inj hi
          cases hqueued
        rw [updateJob_lookup_ne db _ hne] at hi
        have hle := (p.takes hlast hj).free_eq i.queueId
        exact ⟨i, hi, hqueued, by omega, hclaimed⟩

/-- Each claim of a chain leads the later ones that were due by then. -/
theorem Poll.Drained.ordered (h : p.Drained db xs last db') :
    xs.Pairwise (fun x y => x.id ≠ y.id ∧ (y.row.runAt ≤ x.now → x.row.Leads y.row)) := by
  induction h with
  | done workerId h => exact .nil
  | @more db db₁ db' xs last x h _ hlast rest ih =>
      obtain ⟨j, hj, hleads, hrow, rfl⟩ := p.claimed_of_answers h
      refine .cons (fun y hy => ?_) ih
      obtain ⟨i, hi, hqueued, hfree, hclaimed⟩ := rest.queued hy
      have hne : y.id ≠ x.id := by
        intro heq
        rw [heq, updateJob_lookup_self _ hj.row] at hi
        obtain rfl := Option.some.inj hi
        cases hqueued
      refine ⟨Ne.symm hne, fun hdue => ?_⟩
      -- the job of `y` could have been claimed instead
      rw [updateJob_lookup_ne db _ hne] at hi
      have hroom := (p.takes hlast hj).free_eq i.queueId
      rw [hclaimed] at hdue ⊢
      rw [hrow]
      exact hleads y.id i ⟨hi, hqueued, hdue, p.eligible_iff.mpr (by omega)⟩

/-- A job that was due and is left out comes after those taken from its queue. -/
theorem Poll.Drained.first (h : p.Drained db xs last db') {x : Taken} (hx : x ∈ xs) {k : UUID} {i : Job}
    (hi : db.jobs.lookup k = some i) (hqueued : i.status = .queued) (hdue : i.runAt ≤ x.now)
    (hqueue : i.queueId = x.row.queueId) (hout : ∀ y ∈ xs, y.id ≠ k) : x.row.Leads i := by
  induction h with
  | done workerId h => cases hx
  | @more db db₁ db' xs last z h _ _ _ ih =>
      obtain ⟨j, hj, hleads, hrow, rfl⟩ := p.claimed_of_answers h
      rcases List.mem_cons.mp hx with rfl | hmem
      · rw [hrow] at hqueue ⊢
        have hq := hj.queue
        rw [show j.queueId = i.queueId from hqueue.symm] at hq
        exact hleads k i ⟨hi, hqueued, hdue, hq⟩
      · refine ih hmem ?_ (fun y hy => hout y (List.mem_cons_of_mem _ hy))
        rw [updateJob_lookup_ne db _ (Ne.symm (hout z List.mem_cons_self))]
        exact hi

/-- Nothing else is written. -/
theorem Poll.Drained.frame (h : p.Drained db xs last db') :
    (∀ k, (∀ x ∈ xs, x.id ≠ k) → db'.jobs.lookup k = db.jobs.lookup k) ∧
    { db' with jobs := db.jobs } = db ∧
      ∀ x ∈ xs, db'.jobs.lookup x.id = some x.row := by
  induction h with
  | done workerId h =>
      obtain rfl := (p.selects_of_answers h).unchanged rfl
      exact ⟨fun _ _ => rfl, rfl, fun x hx => by cases hx⟩
  | @more db db₁ db' xs last x h hlater hlast rest ih =>
      have hordered := (Poll.Drained.more x h hlater hlast rest).ordered
      obtain ⟨j, hj, _, hrow, rfl⟩ := p.claimed_of_answers h
      obtain ⟨hothers, hrest, hrows⟩ := ih
      refine ⟨fun k hk => ?_, ?_, fun y hy => ?_⟩
      · rw [hothers k (fun y hy => hk y (List.mem_cons_of_mem _ hy)),
          updateJob_lookup_ne db _ (Ne.symm (hk x List.mem_cons_self))]
      · calc { db' with jobs := db.jobs }
            = { db.updateJob x.id (p.call x.workerId x.now).claimed with jobs := db.jobs } :=
              congrArg (fun d : Db => { d with jobs := db.jobs }) hrest
          _ = db := rfl
      · rcases List.mem_cons.mp hy with rfl | hmem
        · rw [hothers y.id (fun z hz => Ne.symm ((List.pairwise_cons.mp hordered).1 z hz).1),
            updateJob_lookup_self _ hj.row, hrow]
        · exact hrows y hmem

end

/-! ## §4. Draining. -/

/-- The claims have emptied the queues as far as the limits allow. -/
structure Emptied (p : Poll) (db : Db) (xs : List Taken) (last : Timestamp) (db' : Db) : Prop where
  /-- Every queue has given as many jobs as it had slots free, or all that were due. -/
  share : ∀ queueId, xs.countP (fun x => decide (x.row.queueId = queueId)) =
    min (p.freeSlots db queueId) (db.dueCount last queueId)
  /-- No job was taken twice, and none before one that leads it. -/
  ordered : xs.Pairwise (fun x y => x.id ≠ y.id ∧ (y.row.runAt ≤ x.now → x.row.Leads y.row))
  /-- Those that are left out come after those taken from their queue. -/
  first : ∀ x ∈ xs, ∀ k i, db.jobs.lookup k = some i → i.status = .queued → i.runAt ≤ x.now →
    i.queueId = x.row.queueId → (∀ y ∈ xs, y.id ≠ k) → x.row.Leads i
  taken : ∀ x ∈ xs, db'.jobs.lookup x.id = some x.row ∧ ∃ i, db.jobs.lookup x.id = some i ∧
    i.status = .queued ∧ x.row = (p.call x.workerId x.now).claimed i
  others : ∀ k, (∀ x ∈ xs, x.id ≠ k) → db'.jobs.lookup k = db.jobs.lookup k
  rest : { db' with jobs := db.jobs } = db

/-- A poll always has an answer. -/
theorem Poll.exists_answer (p : Poll) (workerId : UUID) (now : Timestamp) (db : Db) :
    ∃ r db', (p.call workerId now).Answers db r db' := by
  have hc : (p.call workerId now).start.Ordered :=
    ⟨fun _ i hi => by simp [Claim.HasLocked, ClaimCall.start] at hi, fun todo h => by cases h⟩
  obtain ⟨tr, db', c, r, hrun, hok, hret⟩ := Claim.exists_return _ _ db hc (le_refl _)
  exact ⟨r, db', tr, c, hrun, hok, hret⟩

/-- Every claim that answers a job leaves one queued job less. -/
theorem Poll.Claims.length_eq {p : Poll} {db db' : Db} {xs : List Taken} (h : p.Claims db xs db') :
    db.queuedCount = xs.length + db'.queuedCount := by
  induction h with
  | nil db => simp
  | cons x h _ ih =>
      obtain ⟨j, hj, _, _, rfl⟩ := p.claimed_of_answers h
      have hfewer := p.queued_claimed hj
      rw [List.length_cons]
      omega

/-- The claims go on until one is answered null. -/
theorem Poll.Claims.drained {p : Poll} {db db₁ db' : Db} {xs ys : List Taken} {last : Timestamp}
    (h : p.Claims db xs db₁) (hordered : xs.Pairwise (fun x y => x.now ≤ y.now))
    (hbefore : ∀ x ∈ xs, x.now ≤ last ∧ ∀ y ∈ ys, x.now ≤ y.now) (rest : p.Drained db₁ ys last db') :
    p.Drained db (xs ++ ys) last db' := by
  induction h with
  | nil db => exact rest
  | cons x h _ ih =>
      obtain ⟨hfirst, hlater⟩ := List.pairwise_cons.mp hordered
      obtain ⟨hlast, hys⟩ := hbefore x List.mem_cons_self
      refine .more x h (fun y hy => ?_) hlast
        (ih hlater (fun z hz => hbefore z (List.mem_cons_of_mem _ hz)) rest)
      rcases List.mem_append.mp hy with hmem | hmem
      · exact hfirst y hmem
      · exact hys y hmem

/-- A worker that claims again and again is answered null in the end. -/
theorem Poll.exists_drained (p : Poll) (workerId : UUID) (now : Timestamp) (db : Db) :
    ∃ xs db', p.Drained db xs now db' ∧ ∀ x ∈ xs, x.workerId = workerId ∧ x.now = now := by
  -- by induction on the number of queued jobs
  induction hn : db.queuedCount using Nat.strong_induction_on generalizing db with
  | _ n ih =>
      obtain ⟨r, db₁, h⟩ := p.exists_answer workerId now db
      cases r with
      | none => exact ⟨[], db₁, .done workerId h, fun x hx => by cases hx⟩
      | some answer =>
          obtain ⟨id, row⟩ := answer
          obtain ⟨j, hj, _, _, hdb⟩ := p.claimed_of_answers h
          have hfewer := p.queued_claimed hj
          rw [← hdb] at hfewer
          obtain ⟨xs, db', hrest, hnow⟩ := ih _ (by omega) db₁ rfl
          refine ⟨⟨workerId, now, id, row⟩ :: xs, db', .more _ h ?_ (le_refl _) hrest, ?_⟩
          · exact fun y hy => (hnow y hy).2.ge
          · rintro x (_ | ⟨_, hx⟩)
            · exact ⟨rfl, rfl⟩
            · exact hnow x hx

/-- **Draining is exact.**  However claims follow each other, at most as many answer a job as
jobs are queued, and any worker that goes on claiming is answered null; and whoever makes
them, when they are answered null, every queue has given exactly as many jobs as it had slots
free, or all that were due, in the order of their ranks, and nothing else was written. -/
theorem polls_drain (p : Poll) (db : Db) :
    (∀ xs db₁, p.Claims db xs db₁ → xs.length ≤ db.queuedCount ∧
      ∀ workerId now, xs.Pairwise (fun x y => x.now ≤ y.now) → (∀ x ∈ xs, x.now ≤ now) →
        ∃ ys db', p.Drained db (xs ++ ys) now db' ∧ ∀ y ∈ ys, y.workerId = workerId ∧ y.now = now) ∧
      ∀ xs last db', p.Drained db xs last db' → Emptied p db xs last db' := by
  constructor
  · intro xs db₁ hclaims
    refine ⟨hclaims.length_eq.symm ▸ Nat.le_add_right _ _, fun workerId now hordered hnow => ?_⟩
    obtain ⟨ys, db', hrest, hys⟩ := p.exists_drained workerId now db₁
    refine ⟨ys, db', hclaims.drained hordered (fun x hx => ⟨hnow x hx, fun y hy => ?_⟩) hrest, hys⟩
    exact (hnow x hx).trans (hys y hy).2.ge
  · intro xs last db' h
    obtain ⟨hothers, hrest, hrows⟩ := h.frame
    refine ⟨fun c => h.taking.share h.exhausted c, h.ordered, fun x hx k i => h.first hx,
      fun x hx => ?_, hothers, hrest⟩
    obtain ⟨i, hi, hqueued, _, hrow⟩ := h.queued hx
    exact ⟨hrows x hx, i, hi, hqueued, hrow⟩

/-- The claims of any queue. -/
def Poll.any : Poll := ⟨none, none⟩

/-- The statements of a claim, which takes job 8 if it can. -/
def Poll.smallEnvs : List Env := List.replicate 5 { now := 0, pick := some 8 }

/-- The state after a claim of worker 5. -/
def afterClaim (db : Db) (envs : List Env) : Db :=
  (play Claim.alone (db, (Poll.any.call 5 0).start) envs).1

/-- Of the two queued jobs the queue with one slot gives job 8, which leads. -/
theorem polls_drain_ranked :
    Emptied Poll.any Db.smallRanked
      [⟨5, 0, 8, { Job.small .claimed with priority := 1, workerId := some 5 }⟩] 0
      (afterClaim (afterClaim Db.smallRanked Poll.smallEnvs) (List.replicate 4 { now := 0 })) :=
  (polls_drain Poll.any Db.smallRanked).2 _ _ _
    (.more _ ⟨_, _, run_of_play Claim.alone (Db.smallRanked, (Poll.any.call 5 0).start)
    Poll.smallEnvs (by rfl),
        by decide, by rfl⟩ (fun y hy => by cases hy) (le_refl _)
      (.done 5 ⟨_, _, run_of_play Claim.alone (afterClaim Db.smallRanked Poll.smallEnvs,
        (Poll.any.call 5 0).start) (List.replicate 4 { now := 0 }) (by rfl), by decide, by rfl⟩))

end JobScheduler
