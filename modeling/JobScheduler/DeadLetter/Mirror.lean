/-
  JobScheduler.DeadLetter.Mirror
  ──────────────────────────────
  The dead letter queue as the mirror of the dead jobs, between complete
  operations.  Three modules keep the correspondence by hand: `executeJob` marks the
  job and then inserts the entry, a replay resets the job and then deletes the
  entry, a retry resets the job alone.  `Reflects` says what is missing while one
  of them is half-way; the others are between two operations meanwhile.
-/
import JobScheduler.DeadLetter.Revival
import JobScheduler.System.Operations

namespace JobScheduler

open Relational Transition

/-! ## §1. The correspondence. -/

/-- The entries about a job and the dead-lettered jobs correspond one to one. -/
structure Db.Mirrored (db : Db) : Prop where
  dead : ∀ x j, db.Records x j → db.statusOf j = some .deadLetter
  recorded : ∀ j, db.statusOf j = some .deadLetter → ∃! x, db.Records x j

/-- The correspondence, but for one entry whose job may be alive and one dead job
that may have no entry. -/
structure Db.MirroredBut (db : Db) (entry job : Option UUID) : Prop where
  dead : ∀ x j, db.Records x j → entry ≠ some x → db.statusOf j = some .deadLetter
  single : ∀ x y j, db.Records x j → db.Records y j → x = y
  recorded : ∀ j, db.statusOf j = some .deadLetter → job ≠ some j → ∃ x, db.Records x j

/-- The full correspondence is the one without an exception. -/
theorem Db.mirrored_iff {db : Db} : db.Mirrored ↔ db.MirroredBut none none := by
  constructor
  · intro h
    refine ⟨fun x j hx _ => h.dead x j hx, fun x y j hx hy => ?_, fun j hj _ => ?_⟩
    · exact (h.recorded j (h.dead x j hx)).unique hx hy
    · exact (h.recorded j hj).exists
  · intro h
    refine ⟨fun x j hx => h.dead x j hx (by simp), fun j hj => ?_⟩
    obtain ⟨x, hx⟩ := h.recorded j hj (by simp)
    exact ⟨x, hx, fun y hy => h.single y x j hy hx⟩

/-- An entry records one job. -/
theorem Db.Records.unique {db : Db} {x i j : UUID} (hi : db.Records x i) (hj : db.Records x j) :
    i = j := by
  obtain ⟨entry, hentry, ho⟩ := hi
  obtain ⟨entry', hentry', ho'⟩ := hj
  rw [hentry] at hentry'
  cases hentry'
  exact Option.some.inj (ho.symm.trans ho')

/-- The correspondence depends only on the entries and on which jobs are dead. -/
theorem Db.MirroredBut.congr {db db' : Db} {entry job : Option UUID}
    (hrec : ∀ x j, db'.Records x j ↔ db.Records x j)
    (hdead : ∀ j, db'.statusOf j = some .deadLetter ↔ db.statusOf j = some .deadLetter)
    (h : db.MirroredBut entry job) : db'.MirroredBut entry job where
  dead x j hx hne := (hdead j).mpr (h.dead x j ((hrec x j).mp hx) hne)
  single x y j hx hy := h.single x y j ((hrec x j).mp hx) ((hrec y j).mp hy)
  recorded j hj hne := by
    obtain ⟨x, hx⟩ := h.recorded j ((hdead j).mp hj) hne
    exact ⟨x, (hrec x j).mpr hx⟩

/-- What holds while the client `p` is in its operation and all others rest. -/
def Reflects (db : Db) : Proc → Prop
  | .exec e => (match e.pc with
      -- the job is marked, its entry is not there yet
      | .insertDeadLetter _ => db.MirroredBut none (some e.jobId) ∧ (∀ x, ¬ db.Records x e.jobId) ∧
          (e.jobId ∈ db.jobs → db.statusOf e.jobId = some .deadLetter)
      | _ => db.MirroredBut none none)
  | .retry r => db.MirroredBut none none ∧ (r.pc = .update →
      ∃ row, db.jobs.lookup r.jobId = some row ∧ row.status.retryable = true)
  | .replay r => (match r.pc with
      | .update j => db.MirroredBut none none ∧ db.Records r.entryId j
      | .insert _ _ => db.MirroredBut none none ∧ ∀ j, ¬ db.Records r.entryId j
      -- the job is reset, its entry is still there
      | .log _ _ | .delete _ => db.MirroredBut (some r.entryId) none ∧
          ∀ j, db.Records r.entryId j → db.statusOf j ≠ some .deadLetter
      | _ => db.MirroredBut none none)
  | _ => db.MirroredBut none none

/-- Between two operations nothing is missing. -/
theorem reflects_of_rests {db : Db} {p : Proc} (h : p.rests = true) :
    Reflects db p ↔ db.MirroredBut none none := by
  cases p with
  | exec e => cases hpc : e.pc <;> simp [Proc.rests, hpc] at h <;> simp [Reflects, hpc]
  | retry r => cases hpc : r.pc <;> simp [Proc.rests, hpc] at h <;> simp [Reflects, hpc]
  | replay r => cases hpc : r.pc <;> simp [Proc.rests, hpc] at h <;> simp [Reflects, hpc]
  | _ => rfl

/-- Between the two statements of the last branch the job is the exception, elsewhere there is
none. -/
theorem reflects_exec {db : Db} {e : Exec} (h : ∀ error, e.pc ≠ .insertDeadLetter error) :
    Reflects db (.exec e) ↔ db.MirroredBut none none := by
  cases hpc : e.pc <;> simp [Reflects, hpc]
  exact absurd hpc (h _)

/-! ## §2. The statements at issue. -/

/-- The action resets a dead-lettered job by hand, outside a replay. -/
def Action.retriesDead (s : Sys) : Action → Bool
  | .run pid env => !env.fails && (match s.proc pid with
      | some (.retry r) => (match r.pc with
          | .update => decide (s.db.statusOf r.jobId = some .deadLetter)
          | _ => false)
      | _ => false)
  | _ => false

/-- The action is the rejected INSERT of the entry of a dead job. -/
def Action.losesEntry (cfg : Config) (s : Sys) (a : Action) : Bool :=
  a.rejected cfg s && a.ofExec s (fun _ e => match e.pc with
    | .insertDeadLetter _ => true
    | _ => false)

/-- The action is a rejected statement of a replay between its reset of a job and
the end of its DELETE. -/
def Action.leavesRecord (s : Sys) : Action → Bool
  | .run pid env => env.fails && (match s.proc pid with
      | some (.replay r) => r.pc.deleting &&
          (s.db.deadLetterQueue.lookup r.entryId).any (fun entry => entry.originalJobId.isSome)
      | _ => false)
  | _ => false

/-- Steps that keep job and entry together. -/
structure Action.Mirrors (cfg : Config) (s : Sys) (a : Action) : Prop where
  retriesDead : a.retriesDead s = false
  losesEntry : a.losesEntry cfg s = false
  leavesRecord : a.leavesRecord s = false

instance (cfg : Config) (s : Sys) (a : Action) : Decidable (a.Mirrors cfg s) :=
  decidable_of_iff
    (a.retriesDead s = false ∧ a.losesEntry cfg s = false ∧ a.leavesRecord s = false)
    ⟨fun h => ⟨h.1, h.2.1, h.2.2⟩, fun h => ⟨h.retriesDead, h.losesEntry, h.leavesRecord⟩⟩

/-- The client's next statement writes a dead job or an entry. -/
def Proc.touches : Proc → Bool
  | .exec e => (match e.pc with
      | .deadLetter _ | .insertDeadLetter _ => true
      | _ => false)
  | .retry r => (match r.pc with
      | .update => true
      | _ => false)
  | .replay r => (match r.pc with
      | .update _ | .delete _ => true
      | _ => false)
  | _ => false

/-- A reset is one of the statements that touch the correspondence. -/
theorem Proc.touches_of_resets {p : Proc} {j : UUID} (h : p.resets j = true) : p.touches = true := by
  rcases Proc.resets_iff.mp h with ⟨r, rfl, hpc, _⟩ | ⟨r, rfl, hpc⟩ <;> simp [Proc.touches, hpc]

section
variable {cfg : Config} {s s' : Sys} {pid : Nat} {env : Env} {p : Proc}

/-! ## §3. Statements that touch neither. -/

/-- The other statements leave the entries alone. -/
theorem records_untouched (h : step cfg s (.run pid env) = some s') (hp : s.proc pid = some p)
    (ht : p.touches = false) (x j : UUID) : s'.db.Records x j ↔ s.db.Records x j := by
  have hsame : s'.db.deadLetterQueue.lookup x = s.db.deadLetterQueue.lookup x := by
    obtain ⟨p', _, hs⟩ := proc_run h hp
    have hch := Proc.step_deadLetters (x := x) hs
    generalize s.db.deadLetterQueue.lookup x = old at hch
    generalize s'.db.deadLetterQueue.lookup x = new at hch
    cases hch with
    | same => rfl
    | buried e error hpc | deleted r row _ hpc => simp [Proc.touches, hpc] at ht
  simp [Db.Records, hsame]

/-- The other statements make no job dead and revive none. -/
theorem dead_untouched (hP : Pending s) (hI : InsertsPending s)
    (hH : ∀ j, j ∈ s.db.jobs → Held Stage.writing j s) (h : step cfg s (.run pid env) = some s')
    (hp : s.proc pid = some p) (ht : p.touches = false) (j : UUID) :
    s'.db.statusOf j = some .deadLetter ↔ s.db.statusOf j = some .deadLetter := by
  constructor
  · intro hdead
    obtain ⟨row, hrow, hst⟩ := Option.map_eq_some_iff.mp hdead
    obtain ⟨p', _, hs⟩ := proc_run h hp
    have hch := Proc.step_jobs (j := j) hs
    rw [hrow] at hch
    generalize hold : s.db.jobs.lookup j = old at hch
    cases hch with
    | same => simp [Db.statusOf, hold, hst]
    | deadLettered e _ error hpc => simp [Proc.touches, hpc] at ht
    | submitted r item rest hpc =>
        have hwait := hI pid r hp
        rw [show r.initialStatus = .deadLetter from hst] at hwait
        cases hwait
    | released e o hpc hw => simp only [Job.released] at hst; split at hst <;> cases hst
    | claimed | running | completed | requeued | retried | replayed | recreated | cancelled
    | flipped | dispatched => cases hst
  · intro hdead
    obtain ⟨row, hrow, hst⟩ := Option.map_eq_some_iff.mp hdead
    have hres : p.resets j = false := by
      rw [Bool.eq_false_iff]
      intro hr
      rw [Proc.touches_of_resets hr] at ht
      cases ht
    -- a dead job is written by resets only
    have hheld := hH j (AList.lookup_isSome.mp (by simp [hrow]))
    have hstays := hheld.dead_stays hP h hrow (by rw [hst]; rfl)
      (by simp [Action.revives, Action.resets, hp, hres])
    simp [Db.statusOf, hstays, hst]

/-- The other statements keep the correspondence. -/
theorem mirroredBut_untouched (hP : Pending s) (hI : InsertsPending s)
    (hH : ∀ j, j ∈ s.db.jobs → Held Stage.writing j s) (h : step cfg s (.run pid env) = some s')
    (hp : s.proc pid = some p) (ht : p.touches = false) {entry job : Option UUID}
    (hM : s.db.MirroredBut entry job) : s'.db.MirroredBut entry job :=
  hM.congr (records_untouched h hp ht) (dead_untouched hP hI hH h hp ht)

/-! ## §4. A call of `executeJob`. -/

/-- The job is marked dead, and its entry is due. -/
theorem reflects_marked {e : Exec} {error : String} (hP : s.db.MirroredBut none none)
    (hdead : s.db.statusOf e.jobId ≠ some .deadLetter) (hpc : e.pc = .deadLetter error) :
    Reflects (e.effect env s.db) (.exec (e.next env s.db)) := by
  have hrec : ∀ x j, (e.effect env s.db).Records x j ↔ s.db.Records x j := by
    intro x j
    simp [Db.Records, Exec.effect, hpc, Db.updateJob]
  -- a job that is not dead has no entry, so none becomes a second one
  have hno : ∀ x, ¬ s.db.Records x e.jobId := fun x hx => hdead (hP.dead x _ hx (by simp))
  have hother : ∀ j, j ≠ e.jobId → (e.effect env s.db).statusOf j = s.db.statusOf j := by
    intro j hne
    simp only [Db.statusOf, Exec.effect, hpc]
    rw [updateJob_lookup_ne _ _ hne]
  simp only [Reflects, Exec.next, hpc, Exec.goto]
  refine ⟨⟨?_, ?_, ?_⟩, fun x hx => hno x ((hrec x _).mp hx), ?_⟩
  · intro x j hx _
    rw [hrec] at hx
    rw [hother j (fun hj => hno x (hj ▸ hx))]
    exact hP.dead x j hx (by simp)
  · intro x y j hx hy
    exact hP.single x y j ((hrec x j).mp hx) ((hrec y j).mp hy)
  · intro j hj hne
    rw [hother j (fun heq => hne (by rw [heq]))] at hj
    obtain ⟨x, hx⟩ := hP.recorded j hj (by simp)
    exact ⟨x, (hrec x j).mpr hx⟩
  · intro hmem
    obtain ⟨row, hrow⟩ := Option.isSome_iff_exists.mp (AList.lookup_isSome.mpr hmem)
    simp only [Exec.effect, hpc, updateJob_lookup] at hrow
    obtain ⟨old, hold, rfl⟩ := Option.map_eq_some_iff.mp hrow
    simp [Db.statusOf, Exec.effect, hpc, hold]

/-- The entry is there. -/
theorem reflects_buried {e : Exec} {error : String} (hP : Reflects s.db (.exec e))
    (hpc : e.pc = .insertDeadLetter error) (hfresh : env.fresh ∉ s.db.deadLetterQueue)
    (hjob : e.jobId ∈ s.db.jobs) :
    Reflects (e.effect env s.db) (.exec (e.next env s.db)) := by
  simp only [Reflects, hpc] at hP
  obtain ⟨hM, hno, hdead⟩ := hP
  have hstatus : ∀ j, (e.effect env s.db).statusOf j = s.db.statusOf j := by
    intro j
    simp [Db.statusOf, Exec.effect, hpc, Db.insertDeadLetter]
  have hrec : ∀ x j, (e.effect env s.db).Records x j ↔
      (x = env.fresh ∧ j = e.jobId) ∨ s.db.Records x j := by
    intro x j
    simp only [Db.Records, Exec.effect, hpc, insertDeadLetter_lookup]
    by_cases hx : x = env.fresh
    · subst hx
      simp [AList.lookup_eq_none.mpr hfresh, eq_comm]
    · simp [hx]
  simp only [Reflects, Exec.next, hpc, Exec.goto]
  refine ⟨?_, ?_, ?_⟩
  · intro x j hx hne
    rw [hstatus]
    rcases (hrec x j).mp hx with ⟨_, rfl⟩ | hx
    · exact hdead hjob
    · exact hM.dead x j hx hne
  · intro x y j hx hy
    rcases (hrec x j).mp hx with ⟨rfl, rfl⟩ | hx <;> rcases (hrec y _).mp hy with ⟨rfl, hj⟩ | hy
    · rfl
    -- two entries about one job: the new one and an old one cannot be
    · exact absurd hy (hno y)
    · exact absurd (hj ▸ hx) (hno x)
    · exact hM.single x y j hx hy
  · intro j hj _
    by_cases hje : j = e.jobId
    · exact ⟨env.fresh, (hrec _ _).mpr (.inl ⟨rfl, hje⟩)⟩
    · rw [hstatus] at hj
      obtain ⟨x, hx⟩ := hM.recorded j hj (by simpa using fun heq => hje heq.symm)
      exact ⟨x, (hrec x j).mpr (.inr hx)⟩

/-- `executeJob` moves the job to `dead_letter` first and inserts the entry next. -/
theorem reflects_exec_step {e e' : Exec} (hP : Pending s) (hI : InsertsPending s)
    (hH : ∀ j, j ∈ s.db.jobs → Held Stage.writing j s) (h : step cfg s (.run pid env) = some s')
    (hp : s.proc pid = some (.exec e)) (hs : e.step cfg s.ctx env s.db = some (s'.db, e'))
    (href : env.fails = false → (Proc.exec e).referencesHold s.db = true)
    (hlose : (Action.run pid env).losesEntry cfg s = false) (hR : Reflects s.db (.exec e)) :
    Reflects s'.db (.exec e') := by
  obtain ⟨hready, ⟨hrej, hdb, rfl⟩ | ⟨hacc, hdb, rfl⟩⟩ := Exec.step_cases hs
  · -- a rejection leaves both tables alone
    have hne : ∀ error, e.pc ≠ .insertDeadLetter error := by
      intro error hpc
      simp [Action.losesEntry, Action.rejected, Action.ofExec, hp, hpc, hrej] at hlose
    rw [reflects_exec hne] at hR
    rw [hdb, reflects_exec (not_inserting_onThrow env.error e.pc)]
    exact hR
  · cases hpc : e.pc
    case deadLetter error =>
      rw [hdb]
      rw [reflects_exec (by simp [hpc])] at hR
      refine reflects_marked hR (fun hdead => ?_) hpc
      -- the call is about to write the job, so the job is not dead
      obtain ⟨row, hrow, hst⟩ := Option.map_eq_some_iff.mp hdead
      have hheld := hH e.jobId (AList.lookup_isSome.mp (by simp [hrow]))
      exact hheld.not_writing hrow (by rw [hst]; rfl) pid e hp rfl
        (by simp [Exec.stage, hpc, ExecPc.stage, Stage.writing])
    case insertDeadLetter error =>
      rw [hdb]
      have hf : env.fails = false := (Bool.or_eq_false_iff.mp hacc).1
      have hfk := href hf
      simp only [Proc.referencesHold, hpc, Bool.and_eq_true, decide_eq_true_eq] at hfk
      exact reflects_buried hR hpc (by simpa [Exec.ready, hpc] using hready) hfk.1
    all_goals
      have hstay : (Proc.exec e).touches = false := by simp [Proc.touches, hpc]
      rw [reflects_exec (by simp [hpc])] at hR
      rw [reflects_exec (not_inserting_next env s.db (by simp [hpc]))]
      exact mirroredBut_untouched hP hI hH h hp hstay hR

/-! ## §5. The two requests. -/

/-- A reset queues its job and changes no other. -/
theorem statusOf_reset (db : Db) (now : Timestamp) (i j : UUID) :
    (db.updateJob i (Job.reset now)).statusOf j
      = if j = i then (db.statusOf j).map (fun _ => .queued) else db.statusOf j := by
  unfold Db.statusOf
  rw [updateJob_lookup]
  by_cases hj : j = i
  · cases db.jobs.lookup j <;> simp [hj, Job.reset]
  · simp [hj]

/-- A retry of a job that is not dead keeps the correspondence. -/
theorem reflects_retry_step {r r' : Retry} (hP : Pending s) (hI : InsertsPending s)
    (hH : ∀ j, j ∈ s.db.jobs → Held Stage.writing j s) (h : step cfg s (.run pid env) = some s')
    (hp : s.proc pid = some (.retry r)) (hs : Retry.Stepped s.ctx env r s.db s'.db r')
    (hdead : (Action.run pid env).retriesDead s = false) (hR : Reflects s.db (.retry r)) :
    Reflects s'.db (.retry r') := by
  obtain ⟨hM, -⟩ := hR
  by_cases hpc : r.pc = .update
  · generalize s'.db = db' at hs
    cases hs with
    | failed err => exact ⟨hM, by simp [Retry.fail, Retry.goto]⟩
    | updated _ hf =>
        have halive : s.db.statusOf r.jobId ≠ some .deadLetter := by
          simpa [Action.retriesDead, hf, hp, hpc] using hdead
        refine ⟨hM.congr (fun x j => show _ ↔ s.db.Records x j from Iff.rfl) (fun j => ?_), by simp [Retry.goto]⟩
        -- the reset job was not dead, and is not afterwards
        rw [statusOf_reset]
        by_cases hj : j = r.jobId
        · subst hj
          cases hst : s.db.statusOf r.jobId with
          | none => simp
          | some st => simpa [hst] using halive
        · rw [if_neg hj]
    | selected hs | logged _ hs | published _ _ hs | replied _ hs => rw [hs] at hpc; cases hpc
  · have hM' := mirroredBut_untouched hP hI hH h hp
      (by cases hrpc : r.pc <;> simp_all [Proc.touches]) hM
    refine ⟨hM', fun hpc' => ?_⟩
    generalize s'.db = db' at hs hM' ⊢
    cases hs with
    | selected _ _ job hjob hst => exact ⟨job, hjob, hst⟩
    | _ => cases hpc'

/-- An entry that is about no job may be left out of the correspondence or not. -/
theorem Db.MirroredBut.of_blank {db : Db} {x : UUID} {job : Option UUID}
    (hM : db.MirroredBut (some x) job) (hno : ∀ j, ¬ db.Records x j) : db.MirroredBut none job where
  dead y j hy _ := hM.dead y j hy (by rintro ⟨rfl⟩; exact hno j hy)
  single := hM.single
  recorded := hM.recorded

/-- A statement on other tables. -/
theorem Db.MirroredBut.of_eq {db db' : Db} {entry job : Option UUID}
    (hM : db.MirroredBut entry job) (hj : db'.jobs = db.jobs)
    (hd : db'.deadLetterQueue = db.deadLetterQueue) : db'.MirroredBut entry job :=
  hM.congr (fun x j => by simp [Db.Records, hd]) (fun j => by simp [Db.statusOf, hj])

theorem Db.MirroredBut.weaken {db : Db} {job : Option UUID} (hM : db.MirroredBut none job)
    (entry : Option UUID) : db.MirroredBut entry job :=
  ⟨fun x j hx _ => hM.dead x j hx (by simp), hM.single, hM.recorded⟩

/-- A replay that is rejected before its DELETE has an entry without a job. -/
theorem not_records_of_rejected {r : Replay} (hp : s.proc pid = some (.replay r))
    (hf : env.fails = true) (hpc : r.pc.deleting = true)
    (hleave : (Action.run pid env).leavesRecord s = false) (j : UUID) :
    ¬ s.db.Records r.entryId j := by
  rintro ⟨entry, hentry, ho⟩
  simp [Action.leavesRecord, hf, hp, hpc, hentry, ho] at hleave

/-- A replay resets the job of its entry. -/
theorem mirroredBut_reset {r : Replay} {j : UUID} (now : Timestamp)
    (hM : s.db.MirroredBut none none) (hrec : s.db.Records r.entryId j) :
    (s.db.updateJob j (Job.reset now)).MirroredBut (some r.entryId) none ∧
      ∀ i, (s.db.updateJob j (Job.reset now)).Records r.entryId i →
        (s.db.updateJob j (Job.reset now)).statusOf i ≠ some .deadLetter := by
  have hqueued : (s.db.updateJob j (Job.reset now)).statusOf j ≠ some .deadLetter := by
    rw [statusOf_reset, if_pos rfl]
    cases s.db.statusOf j <;> simp
  refine ⟨⟨?_, hM.single, ?_⟩, ?_⟩
  · intro x i hx hne
    -- another entry is about another job
    have hij : i ≠ j := by
      rintro rfl
      exact hne (by rw [hM.single x r.entryId i hx hrec])
    rw [statusOf_reset, if_neg hij]
    exact hM.dead x i hx (by simp)
  · intro i hi _
    have hij : i ≠ j := by
      rintro rfl
      exact hqueued hi
    rw [statusOf_reset, if_neg hij] at hi
    exact hM.recorded i hi (by simp)
  · intro i hi
    obtain rfl := hrec.unique hi
    exact hqueued

/-- A replay deletes its entry, whose job is alive. -/
theorem mirroredBut_delete {db : Db} {x : UUID} (hM : db.MirroredBut (some x) none)
    (halive : ∀ j, db.Records x j → db.statusOf j ≠ some .deadLetter) :
    (db.deleteDeadLetter x).MirroredBut none none := by
  have hrec : ∀ y j, (db.deleteDeadLetter x).Records y j ↔ y ≠ x ∧ db.Records y j := by
    intro y j
    simp only [Db.Records, deleteDeadLetter_lookup]
    by_cases hy : y = x <;> simp [hy]
  refine ⟨?_, ?_, ?_⟩
  · intro y j hy _
    obtain ⟨hne, hy⟩ := (hrec y j).mp hy
    exact hM.dead y j hy (by simpa using hne.symm)
  · intro y z j hy hz
    exact hM.single y z j ((hrec y j).mp hy).2 ((hrec z j).mp hz).2
  · intro j hj _
    obtain ⟨y, hy⟩ := hM.recorded j hj (by simp)
    -- the entry that is deleted is about a job that is alive
    refine ⟨y, (hrec y j).mpr ⟨?_, hy⟩⟩
    rintro rfl
    exact halive j hy hj

/-- A replay resets the job first and deletes the entry next. -/
theorem reflects_replay_step {r r' : Replay} (hP : Pending s) (hI : InsertsPending s)
    (hH : ∀ j, j ∈ s.db.jobs → Held Stage.writing j s) (h : step cfg s (.run pid env) = some s')
    (hp : s.proc pid = some (.replay r)) (hs : Replay.Stepped s.ctx env r s.db s'.db r')
    (hleave : (Action.run pid env).leavesRecord s = false) (hR : Reflects s.db (.replay r)) :
    Reflects s'.db (.replay r') := by
  -- the tables under the statements that touch neither
  have hrec := fun ht => records_untouched (p := .replay r) h hp ht
  have hdead := fun ht => dead_untouched (p := .replay r) hP hI hH h hp ht
  have hM : (Proc.replay r).touches = false → ∀ {entry job}, s.db.MirroredBut entry job →
      s'.db.MirroredBut entry job := fun ht => mirroredBut_untouched hP hI hH h hp ht
  generalize s'.db = db' at hs hrec hdead hM
  cases hs with
  | failed err hf =>
      cases hpc : r.pc <;> simp only [Reflects, hpc] at hR <;>
        simp only [Reflects, Replay.fail, Replay.goto]
      case select | publish | notify | replied => exact hR
      case update j => exact hR.1
      case insert q payload => exact hR.1
      case log j row | delete row =>
        -- the entry stays, but it is about no job
        exact hR.1.of_blank (not_records_of_rejected hp (hf (.inr (by rw [hpc]; rfl)))
          (by rw [hpc]; rfl) hleave)
  | selected hpc hf entry hentry hv =>
      simp only [Reflects, hpc] at hR
      unfold Replay.afterSelect
      split
      · rename_i j _ _ ho
        exact ⟨hR, entry, hentry, ho⟩
      · rename_i q payload ho _ _
        refine ⟨hR, ?_⟩
        -- the project of the job was deleted: the entry is about no job any more
        rintro j ⟨entry', hentry', ho'⟩
        rw [show (r.goto (.insert q payload)).entryId = r.entryId from rfl, hentry] at hentry'
        cases hentry'
        rw [ho] at ho'
        cases ho'
      · exact hR
  | updated j hpc hf =>
      simp only [Reflects, hpc] at hR
      exact mirroredBut_reset env.now hR.1 hR.2
  | logged j row hpc log =>
      simp only [Reflects, hpc] at hR
      exact ⟨hR.1.of_eq rfl rfl, hR.2⟩
  | nothing q payload hpc hf =>
      simp only [Reflects, hpc] at hR
      exact ⟨hR.1.weaken _, fun j hj => absurd hj (hR.2 j)⟩
  | inserted q payload hpc hf hfresh q' =>
      simp only [Reflects, hpc] at hR
      have ht : (Proc.replay r).touches = false := by simp [Proc.touches, hpc]
      exact ⟨(hM ht hR.1).weaken _, fun j hj => absurd ((hrec ht _ j).mp hj) (hR.2 j)⟩
  | deleted row hpc =>
      simp only [Reflects, hpc] at hR
      exact mirroredBut_delete hR.1 hR.2
  | published ev row hpc =>
      simp only [Reflects, hpc] at hR
      exact hR.of_eq rfl rfl
  | replied ev hpc =>
      simp only [Reflects, hpc] at hR
      exact hR

/-- **One statement.**  The client that moves keeps the correspondence, or says what
is missing. -/
theorem reflects_step (hP : Pending s) (hI : InsertsPending s)
    (hH : ∀ j, j ∈ s.db.jobs → Held Stage.writing j s) (h : step cfg s (.run pid env) = some s')
    (hp : s.proc pid = some p) (href : env.fails = false → p.referencesHold s.db = true)
    (hm : (Action.run pid env).Mirrors cfg s) (hR : Reflects s.db p) :
    ∃ p', s'.proc pid = some p' ∧ Reflects s'.db p' := by
  obtain ⟨p', hp', hs⟩ := proc_run h hp
  refine ⟨p', hp', ?_⟩
  have huntouched : p.touches = false → s.db.MirroredBut none none → s'.db.MirroredBut none none :=
    fun ht => mirroredBut_untouched hP hI hH h hp ht
  cases p with
  | exec e =>
      obtain ⟨⟨d, e'⟩, hes, hpe⟩ := Option.map_eq_some_iff.mp hs
      obtain ⟨rfl, rfl⟩ := Prod.mk.inj hpe
      exact reflects_exec_step hP hI hH h hp hes href hm.losesEntry hR
  | retry r =>
      obtain ⟨⟨d, r'⟩, hr, hpr⟩ := Option.map_eq_some_iff.mp hs
      obtain ⟨rfl, rfl⟩ := Prod.mk.inj hpr
      exact reflects_retry_step hP hI hH h hp (Retry.stepped hr) hm.retriesDead hR
  | replay r =>
      obtain ⟨⟨d, r'⟩, hr, hpr⟩ := Option.map_eq_some_iff.mp hs
      obtain ⟨rfl, rfl⟩ := Prod.mk.inj hpr
      exact reflects_replay_step hP hI hH h hp (Replay.stepped hr) hm.leavesRecord hR
  | claim c =>
      have hM := huntouched rfl hR
      obtain ⟨⟨d, c'⟩, _, hpc⟩ := Option.map_eq_some_iff.mp hs
      obtain ⟨rfl, rfl⟩ := Prod.mk.inj hpc
      unfold Claim.toProc
      split <;> exact hM
  | submit r | cancel r | patch r | tick t =>
      have hM := huntouched rfl hR
      obtain ⟨⟨d, r'⟩, _, hpr⟩ := Option.map_eq_some_iff.mp hs
      obtain ⟨rfl, rfl⟩ := Prod.mk.inj hpr
      exact hM

end

/-! ## §6. Sequences of operations. -/

/-- What holds between two statements. -/
structure Mirroring (w : World) : Prop where
  pending : Pending w.sys
  inserts : InsertsPending w.sys
  retired : ∀ j, j ∈ w.retired → j ∉ w.sys.db.jobs
  held : ∀ j, j ∉ w.retired → Held Stage.writing j w.sys
  midway : ∀ k p, w.sys.proc k = some p → p.rests = false → Reflects w.sys.db p
  resting : w.sys.allRest = true → w.sys.db.MirroredBut none none

theorem mirroring_atRest (clock : Timestamp) {db : Db} (hdb : db.Mirrored) :
    Mirroring (World.atRest clock db) where
  pending := pending_atRest clock db
  inserts := insertsPending_atRest clock db
  retired := by simp [World.atRest]
  held j _ := held_atRest _ j clock db
  midway := by
    intro k p hk
    cases hk
  resting _ := Db.mirrored_iff.mp hdb

section
variable {cfg : Config} {w w' : World}

/-- A job that exists is not retired. -/
theorem Mirroring.held_of_mem (hM : Mirroring w) {j : UUID} (hj : j ∈ w.sys.db.jobs) :
    Held Stage.writing j w.sys :=
  hM.held j (fun hr => hM.retired j hr hj)

/-- The client that may move says what is missing. -/
theorem Mirroring.reflects {pid : Nat} {env : Env} {p : Proc} (hM : Mirroring w)
    (hadm : w.admits (.run pid env) = true) (hp : w.sys.proc pid = some p) : Reflects w.sys.db p := by
  cases hrest : p.rests with
  | false => exact hM.midway pid p hp hrest
  | true =>
      refine (reflects_of_rests hrest).mpr (hM.resting (Sys.allRest_iff.mpr (fun k q hk => ?_)))
      by_cases hkp : k = pid
      · subst hkp
        rw [hp] at hk
        cases hk
        exact hrest
      · exact (World.admits_run hadm hp).1 k q hkp hk

/-- One step of the clients keeps the invariant. -/
theorem Mirroring.act {a : Action} {s' : Sys} (hM : Mirroring w) (hadm : w.admits a = true)
    (hm : a.Mirrors cfg w.sys) (h : step cfg w.sys a = some s') : Mirroring { w with sys := s' } where
  pending := pending_step hM.pending h
  inserts := insertsPending_step hM.inserts h
  retired := by
    intro j hj hmem
    obtain ⟨pid, env, p, rfl, hp, hi, rfl⟩ := inserted_of_step h (hM.retired j hj) hmem
    exact (World.admits_run hadm hp).2.2 hi hj
  held := by
    intro j hj
    -- the client that may move has read that the job is dead, and nobody has moved since
    refine held_step Stage.relying_writing hM.pending (hM.held j hj) (fun hr => ?_) h
    cases a with
    | run pid env =>
        obtain ⟨p, hp, hres⟩ := (Option.any_eq_true _ _).mp hr
        have hR := hM.reflects hadm hp
        rcases Proc.resets_iff.mp hres with ⟨r, rfl, hpc, rfl⟩ | ⟨r, rfl, hpc⟩
        · obtain ⟨row, hrow, hdead⟩ := hR.2 hpc
          exact (hM.held _ hj).not_writing hrow hdead
        · simp only [Reflects, hpc] at hR
          have hst := hR.1.dead _ j hR.2 (by simp)
          obtain ⟨row, hrow, hdead⟩ := Option.map_eq_some_iff.mp hst
          exact (hM.held j hj).not_writing hrow (by rw [hdead]; rfl)
    | _ => cases hr
  midway := by
    intro k p' hk hmid
    cases origin h hk with
    | started request _ hp _ => subst hp; cases request <;> cases hmid
    | moved env p ha hk₀ _ =>
        subst ha
        obtain ⟨q, hq, hR⟩ := reflects_step hM.pending hM.inserts (fun j hj => hM.held_of_mem hj) h hk₀
          (World.admits_run hadm hk₀).2.1 hm (hM.reflects hadm hk₀)
        rw [show s'.proc k = some p' from hk] at hq
        cases hq
        exact hR
    | idle hk₀ hne =>
        cases stepped h with
        | wait | start => exact hM.midway k p' hk₀ hmid
        | run pid env p q db' hp _ _ =>
            have hkp : k ≠ pid := fun heq => hne env (heq ▸ rfl)
            -- operations are complete: only one client is midway
            rw [(World.admits_run hadm hp).1 k p' hkp hk₀] at hmid
            cases hmid
  resting := by
    intro hall
    cases stepped h with
    | wait => exact hM.resting hall
    | start pid request hfree =>
        refine hM.resting (Sys.allRest_iff.mpr (fun k p hk => ?_))
        have hkp : k ≠ pid := by rintro rfl; rw [hk] at hfree; cases hfree
        exact Sys.allRest_iff.mp hall k p (by rw [Sys.put_proc_ne _ _ _ hkp]; exact hk)
    | run pid env p p' db' hp _ _ =>
        obtain ⟨q, hq, hR⟩ := reflects_step hM.pending hM.inserts (fun j hj => hM.held_of_mem hj) h hp
          (World.admits_run hadm hp).2.1 hm (hM.reflects hadm hp)
        exact (reflects_of_rests (Sys.allRest_iff.mp hall pid q hq)).mp hR

/-- The deletion of a project removes its jobs from both sides. -/
theorem Db.MirroredBut.withoutProject {db : Db} (hM : db.MirroredBut none none) (projectId : UUID) :
    (db.withoutProject projectId).MirroredBut none none := by
  have hrec : ∀ x j, (db.withoutProject projectId).Records x j ↔
      db.Records x j ∧ db.jobOfProject projectId j = false := by
    intro x j
    unfold Db.Records
    rw [withoutProject_entry]
    cases db.deadLetterQueue.lookup x with
    | none => simp
    | some entry => simp [Db.orphaned, Option.filter_eq_some_iff]
  refine ⟨?_, ?_, ?_⟩
  · intro x j hx _
    obtain ⟨hx, hj⟩ := (hrec x j).mp hx
    rw [withoutProject_job, if_neg (by simp [hj])]
    exact hM.dead x j hx (by simp)
  · intro x y j hx hy
    exact hM.single x y j ((hrec x j).mp hx).1 ((hrec y j).mp hy).1
  · intro j hj _
    rw [withoutProject_job] at hj
    split at hj
    · cases hj
    · rename_i hkeep
      obtain ⟨x, hx⟩ := hM.recorded j hj (by simp)
      exact ⟨x, (hrec x j).mpr ⟨hx, by simpa using hkeep⟩⟩

/-- The deletion of a project takes its jobs and their entries together. -/
theorem Mirroring.delete (hM : Mirroring w) (hrest : w.sys.allRest = true) (projectId : UUID) :
    Mirroring ⟨{ w.sys with db := w.sys.db.withoutProject projectId },
      w.retired ∪ w.sys.db.doomed projectId⟩ where
  pending := pending_of_rest hrest
  inserts := hM.inserts
  retired := by
    intro j hj hmem
    rw [← AList.lookup_isSome] at hmem
    obtain ⟨row, hrow⟩ := Option.isSome_iff_exists.mp hmem
    have hst : (w.sys.db.withoutProject projectId).statusOf j = some row.status := by
      simp [Db.statusOf, show (w.sys.db.withoutProject projectId).jobs.lookup j = some row from hrow]
    rw [withoutProject_job] at hst
    split at hst
    · cases hst
    · rename_i hkeep
      rcases Finset.mem_union.mp hj with hj | hj
      · obtain ⟨old, hold, _⟩ := Option.map_eq_some_iff.mp hst
        exact hM.retired j hj (AList.lookup_isSome.mp (by simp [hold]))
      -- a job of the project is gone with it (ON DELETE CASCADE)
      · obtain ⟨old, _, hdoomed⟩ := (Table.mem_keysWhere _ _ _).mp hj
        exact hkeep hdoomed
  held := by
    intro j hj
    simp only [Finset.mem_union, not_or] at hj
    have hH := hM.held j hj.1
    refine ⟨?_, hH.unique⟩
    intro k e hk hej hl
    obtain ⟨old, hold, hallow⟩ := hH.row k e hk hej hl
    have hkeep : ¬ w.sys.db.jobOfProject projectId j = true :=
      fun hd => hj.2 ((Table.mem_keysWhere _ _ _).mpr ⟨old, hold, hd⟩)
    have hst : (w.sys.db.withoutProject projectId).statusOf j = some old.status := by
      rw [withoutProject_job, if_neg hkeep, Db.statusOf, hold]
      rfl
    obtain ⟨new, hnew, hst'⟩ := Option.map_eq_some_iff.mp hst
    exact ⟨new, hnew, hst' ▸ hallow⟩
  midway := by
    intro k p hk hmid
    rw [Sys.allRest_iff.mp hrest k p hk] at hmid
    cases hmid
  resting _ := (hM.resting hrest).withoutProject projectId

/-- The operation keeps job and entry together. -/
def Operation.Mirrors (cfg : Config) (w : World) : Operation → Prop
  | .act a => a.Mirrors cfg w.sys
  | .deleteProject _ _ _ => True

instance (cfg : Config) (w : World) (o : Operation) : Decidable (o.Mirrors cfg w) := by
  cases o <;> unfold Operation.Mirrors <;> infer_instance

/-- One operation keeps the invariant. -/
theorem mirroring_step {o : Operation} (hM : Mirroring w) (hm : o.Mirrors cfg w)
    (h : w.step cfg o = some w') : Mirroring w' := by
  cases World.stepped h with
  | acted a s' hadm hs => exact hM.act hadm hm hs
  | refused => exact hM
  | deleted env userId projectId hrest => exact hM.delete hrest projectId

end

/-- **The dead letter queue mirrors the dead jobs.**  In every sequence of complete
operations, project deletions included, in which no manual retry resets a
dead-lettered job, no INSERT of the entry of a dead job is rejected, and no replay of
an entry with a job is rejected between its reset and its DELETE: whenever every
operation is complete, the entries about a job and the dead-lettered jobs correspond
one to one. -/
theorem entries_mirror_dead {cfg : Config} {clock : Timestamp} {db : Db} {w : World}
    {tr : List (World × Operation)} (hdb : db.Mirrored)
    (hrun : WorldRun cfg (World.atRest clock db) tr w) (hm : ∀ p ∈ tr, p.2.Mirrors cfg p.1)
    (hrest : w.sys.allRest = true) : w.sys.db.Mirrored :=
  Db.mirrored_iff.mpr
    ((hrun.invariant (fun _ _ _ hM hg hs => mirroring_step hM hg hs) hm
      (mirroring_atRest clock hdb)).resting hrest)

/-- Job 7 waits for its only attempt. -/
def Db.smallLast : Db := Db.small 1 [(7, { Job.small .queued with maxAttempts := 1 })]

theorem Db.smallLast_mirrored : Db.smallLast.Mirrored where
  dead := by
    rintro x j ⟨entry, hentry, _⟩
    cases hentry
  recorded := by
    intro j hj
    by_cases h7 : j = 7
    · subst h7
      cases hj
    · rw [Db.statusOf, Db.smallLast, Db.small, List.foldr_cons, List.foldr_nil,
        AList.lookup_insert_ne h7] at hj
      cases hj

/-- A worker claims job 7, and its attempt fails. -/
def dieOperations : List Operation :=
  (.start 0 (.claim 5 none none)
    :: Action.runs 0 { now := 0, pick := some 7, fresh := 100, handler := .error "" } 22).map .act

theorem entries_mirror_dead_died :
    ∃! x, (play (World.step Config.small) (World.atRest 0 Db.smallLast) dieOperations).sys.db.Records x 7 :=
  (entries_mirror_dead Db.smallLast_mirrored
    (run_of_play (World.step Config.small) (World.atRest 0 Db.smallLast) dieOperations (by rfl))
    (by decide) (by decide)).recorded 7 (by rfl)

/-- Job 7 is retried by hand after its attempt has failed. -/
def dieAndRetryOperations : List Operation :=
  dieOperations ++ (.start 1 (.retry 1 7) :: Action.runs 1 { now := 0 } 5).map .act

/-- Its entry is still there while the job waits for another attempt. -/
theorem retry_leaves_entry :
    ∃ tr w, WorldRun Config.small (World.atRest 0 Db.smallLast) tr w ∧ Db.smallLast.Mirrored ∧
      w.sys.allRest = true ∧ ¬ w.sys.db.Mirrored :=
  ⟨_, _, run_of_play (World.step Config.small) (World.atRest 0 Db.smallLast) dieAndRetryOperations
      (by rfl), Db.smallLast_mirrored, by decide,
    fun h => absurd (h.dead 100 7 ⟨_, rfl, rfl⟩) (by decide)⟩

end JobScheduler
