/-
  JobScheduler.Migrations.ExactlyOnce
  ───────────────────────────────────
  Over any number of runs, one after the other or at once, `_migrations` lists
  exactly the files whose effects are committed, each of them once.

  A runner may work from a stale set of applied files.  What keeps it from
  committing a file again is the unique name: the INSERT finds it committed, or
  waits for the transaction that holds it.
-/
import JobScheduler.Migrations.Runner

namespace JobScheduler

open Relational Transition

/-! ## §1. What one statement does. -/

namespace MigrationRun

variable {id : Nat} {held : String → Bool} {folder : Folder} {ok : Bool} {r r' : MigrationRun}
  {db db' : MigrationDb}

/-- The steps of a run, with all that they rely on. -/
inductive Stepped (id : Nat) (held : String → Bool) (folder : Folder) (r : MigrationRun)
    (db : MigrationDb) : MigrationDb → MigrationRun → Prop
  | created (hpc : r.pc = .createTable) : Stepped id held folder r db db.createTable (r.goto .selectApplied)
  | selected (hpc : r.pc = .selectApplied) :
      Stepped id held folder r db db { r with appliedSet := db.filenames, pc := .readFolder }
  | listed (hpc : r.pc = .readFolder) :
      Stepped id held folder r db db { r with files := folder.listing, pc := .next folder.listing }
  | skipped (file : String) (rest : List String) (hpc : r.pc = .next (file :: rest))
      (hmem : file ∈ r.appliedSet) : Stepped id held folder r db db (r.goto (.next rest))
  | inserted (file sql : String) (rest : List String) (hpc : r.pc = .insertName file sql rest)
      (htable : db.migrations.isSome = true) (hnew : file ∉ db.filenames) (hfree : held file = false) :
      Stepped id held folder r db db (r.goto (.commit file sql rest))
  | committed (file sql : String) (rest : List String) (hpc : r.pc = .commit file sql rest) :
      Stepped id held folder r db (db.commit ⟨id, file, sql⟩) (r.goto (.next rest))
  /-- Nothing is written and no file is passed. -/
  | moved (pc : MigratePc) (hahead : pc.ahead = r.pc.ahead) (hholds : ∀ name, pc.holds name = false)
      (hearly : pc.early = false) (hlisted : pc.listed = true → r.pc.listed = true) :
      Stepped id held folder r db db (r.goto pc)

theorem stepped (h : r.step id held folder ok db = some (db', r')) :
    Stepped id held folder r db db' r' := by
  have hmoved : ∀ {pc : MigratePc}, pc.ahead = r.pc.ahead → (∀ name, pc.holds name = false) →
      pc.early = false → (pc.listed = true → r.pc.listed = true) → some (db, r.goto pc) = some (db', r') →
      Stepped id held folder r db db' r' := by
    intro pc hahead hholds hearly hlisted heq
    obtain ⟨rfl, rfl⟩ := Prod.mk.inj (Option.some.inj heq)
    exact .moved pc hahead hholds hearly hlisted
  unfold step at h
  split at h
  case h_1 hpc =>
    split at h
    · obtain ⟨rfl, rfl⟩ := Prod.mk.inj (Option.some.inj h)
      exact .created hpc
    · exact hmoved (by rw [hpc]; rfl) (fun _ => rfl) rfl (fun hl => by cases hl) h
  case h_2 hpc =>
    split at h
    · obtain ⟨rfl, rfl⟩ := Prod.mk.inj (Option.some.inj h)
      exact .selected hpc
    · exact hmoved (by rw [hpc]; rfl) (fun _ => rfl) rfl (fun hl => by cases hl) h
  case h_3 hpc =>
    split at h
    · obtain ⟨rfl, rfl⟩ := Prod.mk.inj (Option.some.inj h)
      exact .listed hpc
    · exact hmoved (by rw [hpc]; rfl) (fun _ => rfl) rfl (fun hl => by cases hl) h
  case h_4 hpc => exact hmoved (by rw [hpc]; rfl) (fun _ => rfl) rfl (fun _ => by rw [hpc]; rfl) h
  case h_5 file rest hpc =>
    split at h
    · rename_i hmem
      obtain ⟨rfl, rfl⟩ := Prod.mk.inj (Option.some.inj h)
      exact .skipped file rest hpc hmem
    · split at h
      · exact hmoved (by rw [hpc]; rfl) (fun _ => rfl) rfl (fun _ => by rw [hpc]; rfl) h
      · exact hmoved (by rw [hpc]; rfl) (fun _ => rfl) rfl (fun hl => by cases hl) h
  case h_6 file sql rest hpc =>
    split at h
    · exact hmoved (by rw [hpc]; rfl) (fun _ => rfl) rfl (fun _ => by rw [hpc]; rfl) h
    · exact hmoved (by rw [hpc]; rfl) (fun _ => rfl) rfl (fun hl => by cases hl) h
  case h_7 file sql rest hpc =>
    split at h
    · exact hmoved (by rw [hpc]; rfl) (fun _ => rfl) rfl (fun _ => by rw [hpc]; rfl) h
    · exact hmoved (by rw [hpc]; rfl) (fun _ => rfl) rfl (fun _ => by rw [hpc]; rfl) h
  case h_8 file sql rest hpc =>
    split at h
    · exact hmoved (by rw [hpc]; rfl) (fun _ => rfl) rfl (fun _ => by rw [hpc]; rfl) h
    · rename_i hguard
      split at h
      · cases h
      · rename_i hfree
        obtain ⟨rfl, rfl⟩ := Prod.mk.inj (Option.some.inj h)
        simp only [Bool.or_eq_true, Bool.not_eq_true', Option.isNone_iff_eq_none, decide_eq_true_eq,
          not_or] at hguard
        exact .inserted file sql rest hpc (Option.isSome_iff_ne_none.mpr hguard.1.2) hguard.2
          (Bool.eq_false_iff.mpr hfree)
  case h_9 file sql rest hpc =>
    split at h
    · obtain ⟨rfl, rfl⟩ := Prod.mk.inj (Option.some.inj h)
      exact .committed file sql rest hpc
    · exact hmoved (by rw [hpc]; rfl) (fun _ => rfl) rfl (fun _ => by rw [hpc]; rfl) h
  case h_10 file rest hpc =>
    exact hmoved (by rw [hpc]; rfl) (fun _ => rfl) rfl (fun hl => by cases hl) h
  case h_11 => cases h
  case h_12 => cases h
  case h_13 => cases h

/-! ## §2. One run. -/

/-- How far a run has come: the files before the current one are in `_migrations`, and
only these can have been committed by the run itself. -/
structure Progress (id : Nat) (r : MigrationRun) (db : MigrationDb) : Prop where
  nodup : r.files.Nodup
  split : ∃ done, r.files = done ++ r.pc.ahead ∧ (∀ f ∈ done, f ∈ db.filenames) ∧
    ∀ e ∈ db.committed, e.run = id → e.file ∈ done
  early : r.pc.early = true → r.files = []
  stale : ∀ f ∈ r.appliedSet, f ∈ db.filenames
  began : r.pc.listed = true → ∀ f ∈ r.began, f ∈ r.files

/-- What other runs commit does not set a run back. -/
theorem Progress.mono (hP : r.Progress id db) (hnames : ∀ f ∈ db.filenames, f ∈ db'.filenames)
    (hown : ∀ e ∈ db'.committed, e.run = id → e ∈ db.committed) : r.Progress id db' where
  nodup := hP.nodup
  split := by
    obtain ⟨done, hfiles, hdone, heffects⟩ := hP.split
    exact ⟨done, hfiles, fun f hf => hnames f (hdone f hf),
      fun e he hid => heffects e (hown e he hid) hid⟩
  early := hP.early
  stale := fun f hf => hnames f (hP.stale f hf)
  began := hP.began

/-- A run that passes no file. -/
theorem Progress.goto (hP : r.Progress id db) {pc : MigratePc} (hahead : pc.ahead = r.pc.ahead)
    (hearly : pc.early = true → r.pc.early = true) (hlisted : pc.listed = true → r.pc.listed = true) :
    (r.goto pc).Progress id db where
  nodup := hP.nodup
  split := by
    obtain ⟨done, hfiles, hrest⟩ := hP.split
    exact ⟨done, hfiles.trans (by rw [← hahead]; rfl), hrest⟩
  early := fun h => hP.early (hearly h)
  stale := hP.stale
  began := fun h => hP.began (hlisted h)

/-- A run that passes its current file. -/
theorem Progress.pass (hP : r.Progress id db) {file : String} {rest : List String}
    (hahead : r.pc.ahead = file :: rest) (hlisted : r.pc.listed = true)
    (hnames : ∀ f ∈ db.filenames, f ∈ db'.filenames) (hfile : file ∈ db'.filenames)
    (hown : ∀ e ∈ db'.committed, e.run = id → e ∈ db.committed ∨ e.file = file) :
    (r.goto (.next rest)).Progress id db' where
  nodup := hP.nodup
  split := by
    obtain ⟨done, hfiles, hdone, heffects⟩ := hP.split
    refine ⟨done ++ [file], ?_, ?_, ?_⟩
    · show r.files = (done ++ [file]) ++ rest
      rw [hfiles, hahead, List.append_assoc, List.singleton_append]
    · intro f hf
      rcases List.mem_append.mp hf with hold | hlast
      · exact hnames f (hdone f hold)
      · rw [List.mem_singleton.mp hlast]
        exact hfile
    · intro e he hid
      rcases hown e he hid with hold | hnew
      · exact List.mem_append_left _ (heffects e hold hid)
      · exact List.mem_append_right _ (List.mem_singleton.mpr hnew)
  early := fun h => by cases h
  stale := fun f hf => hnames f (hP.stale f hf)
  began := fun _ => hP.began hlisted

/-- What a statement adds: nothing, or the effect and the name of the file whose
transaction it commits. -/
theorem Stepped.writes (h : Stepped id held folder r db db' r')
    (htable : ∀ name, r.pc.holds name = true → db.migrations.isSome = true) :
    ∃ new : List Effect, db'.filenames = db.filenames ++ new.map Effect.file ∧
      db'.committed = db.committed ++ new ∧
      (new = [] ∨ ∃ e, new = [e] ∧ e.run = id ∧ r.pc.holds e.file = true) ∧
      (db.migrations.isSome = true → db'.migrations.isSome = true) := by
  cases h with
  | created hpc => exact ⟨[], by simp, by simp [MigrationDb.createTable], Or.inl rfl, fun _ => rfl⟩
  | committed file sql rest hpc =>
      have hholds : r.pc.holds file = true := by rw [hpc]; exact decide_eq_true rfl
      refine ⟨[⟨id, file, sql⟩], MigrationDb.filenames_commit (htable file hholds) _, rfl,
        Or.inr ⟨_, rfl, rfl, hholds⟩, ?_⟩
      intro hsome
      simpa [MigrationDb.commit] using hsome
  | selected hpc => exact ⟨[], by simp, by simp, Or.inl rfl, fun hsome => hsome⟩
  | listed hpc => exact ⟨[], by simp, by simp, Or.inl rfl, fun hsome => hsome⟩
  | skipped file rest hpc hmem => exact ⟨[], by simp, by simp, Or.inl rfl, fun hsome => hsome⟩
  | inserted file sql rest hpc htable hnew hfree => exact ⟨[], by simp, by simp, Or.inl rfl, fun hsome => hsome⟩
  | moved pc hahead hholds hearly hlisted => exact ⟨[], by simp, by simp, Or.inl rfl, fun hsome => hsome⟩

/-- A name is held from its INSERT on. -/
theorem Stepped.holds (h : Stepped id held folder r db db' r') {name : String}
    (hholds : r'.pc.holds name = true) :
    db' = db ∧ db.migrations.isSome = true ∧ name ∉ db.filenames ∧ held name = false := by
  cases h with
  | created hpc => cases hholds
  | selected hpc => cases hholds
  | listed hpc => cases hholds
  | skipped file rest hpc hmem => cases hholds
  | inserted file sql rest hpc htable hnew hfree =>
      have hname : file = name := of_decide_eq_true hholds
      exact ⟨rfl, htable, hname ▸ hnew, hname ▸ hfree⟩
  | committed file sql rest hpc => cases hholds
  | moved pc hahead hfree hearly hlisted =>
      have hnot : pc.holds name = false := hfree name
      exact absurd (hnot.symm.trans hholds) Bool.false_ne_true

/-- The listing of a run is the one it began with. -/
theorem Stepped.began (h : Stepped id held folder r db db' r') : r'.began = r.began := by
  cases h <;> rfl

/-- A statement of the run itself. -/
theorem Progress.stepped (hP : r.Progress id db) (h : Stepped id held folder r db db' r')
    (htable : ∀ name, r.pc.holds name = true → db.migrations.isSome = true)
    (hbegan : ∀ f ∈ r.began, f ∈ folder.listing) : r'.Progress id db' := by
  cases h with
  | created hpc =>
      have hahead : MigratePc.ahead .selectApplied = r.pc.ahead := by rw [hpc]; rfl
      have hgoto := hP.goto hahead (fun _ => by rw [hpc]; rfl) (fun hl => by cases hl)
      exact hgoto.mono (fun _ hf => hf) (fun _ he _ => he)
  | selected hpc =>
      exact {
        nodup := hP.nodup
        split := by
          obtain ⟨done, hfiles, hrest⟩ := hP.split
          exact ⟨done, hfiles.trans (by rw [hpc]; rfl), hrest⟩
        early := fun _ => hP.early (by rw [hpc]; rfl)
        stale := fun _ hf => hf
        began := fun hl => by cases hl }
  | listed hpc =>
      obtain ⟨done, hfiles, _, heffects⟩ := hP.split
      -- nothing has been committed by a run that has not read the folder
      have hempty : done = [] := by
        rw [hP.early (by rw [hpc]; rfl)] at hfiles
        exact (List.append_eq_nil_iff.mp hfiles.symm).1
      exact {
        nodup := folder.nodup_listing
        split := ⟨[], rfl, fun _ hf => absurd hf List.not_mem_nil, fun e he hid => by
          have hmem := heffects e he hid
          rwa [hempty] at hmem⟩
        early := fun hl => by cases hl
        stale := hP.stale
        began := fun _ => hbegan }
  | skipped file rest hpc hmem =>
      exact hP.pass (by rw [hpc]; rfl) (by rw [hpc]; rfl) (fun _ hf => hf) (hP.stale file hmem)
        (fun _ he _ => Or.inl he)
  | inserted file sql rest hpc _ _ _ =>
      exact hP.goto (by rw [hpc]; rfl) (fun hl => by cases hl) (fun _ => by rw [hpc]; rfl)
  | committed file sql rest hpc =>
      have hholds : r.pc.holds file = true := by rw [hpc]; exact decide_eq_true rfl
      have hnames := MigrationDb.filenames_commit (htable file hholds) ⟨id, file, sql⟩
      refine hP.pass (by rw [hpc]; rfl) (by rw [hpc]; rfl) ?_ ?_ ?_
      · intro f hf
        rw [hnames]
        exact List.mem_append_left _ hf
      · rw [hnames]
        exact List.mem_append_right _ (List.mem_singleton_self file)
      · intro e he _
        rcases List.mem_append.mp he with hold | hlast
        · exact Or.inl hold
        · rw [List.mem_singleton.mp hlast]
          exact Or.inr rfl
  | moved pc hahead hholds hearly hlisted =>
      exact hP.goto hahead (fun hl => absurd hl (by rw [hearly]; exact Bool.false_ne_true)) hlisted

end MigrationRun

/-! ## §3. All runs. -/

namespace MigrationSystem

variable {s s' : MigrationSystem}

/-- What every action keeps. -/
structure Tracked (s : MigrationSystem) : Prop where
  filenames : s.db.filenames = s.db.committed.map Effect.file
  once : s.db.filenames.Nodup
  known : ∀ e ∈ s.db.committed, e.run ∈ s.runs
  held : ∀ id r, s.runs.lookup id = some r → ∀ name, r.pc.holds name = true →
    s.db.migrations.isSome = true ∧ name ∉ s.db.filenames
  exclusive : ∀ id id' r r' name, s.runs.lookup id = some r → s.runs.lookup id' = some r' →
    r.pc.holds name = true → r'.pc.holds name = true → id = id'
  progress : ∀ id r, s.runs.lookup id = some r → r.Progress id s.db
  began : ∀ id r, s.runs.lookup id = some r → ∀ f ∈ r.began, f ∈ s.folder.listing

theorem tracked_initial (folder : Folder) : (initial folder).Tracked where
  filenames := rfl
  once := List.nodup_nil
  known := fun _ he => absurd he List.not_mem_nil
  held := fun _ _ h => by simp [initial] at h
  exclusive := fun _ _ _ _ _ h => by simp [initial] at h
  progress := fun _ _ h => by simp [initial] at h
  began := fun _ _ h => by simp [initial] at h

theorem Tracked.addFile (hT : s.Tracked) {name sql : String} :
    Tracked { s with folder := s.folder.insert name sql } where
  filenames := hT.filenames
  once := hT.once
  known := hT.known
  held := hT.held
  exclusive := hT.exclusive
  progress := hT.progress
  began := by
    intro id r hr f hf
    have hold := Folder.mem_listing.mp (hT.began id r hr f hf)
    exact Folder.mem_listing.mpr ⟨(AList.mem_insert _).mpr (Or.inr hold.1), hold.2⟩

/-- A run replaced by one that holds no name. -/
theorem Tracked.setRun (hT : s.Tracked) {id : Nat} {r : MigrationRun} (hfree : ∀ name, r.pc.holds name = false)
    (hprogress : r.Progress id s.db) (hbegan : ∀ f ∈ r.began, f ∈ s.folder.listing) :
    Tracked { s with runs := s.runs.insert id r } where
  filenames := hT.filenames
  once := hT.once
  known := fun e he => (AList.mem_insert _).mpr (Or.inr (hT.known e he))
  held := by
    intro i q hq name hname
    rcases Table.lookup_insert_eq_some.mp hq with ⟨_, rfl⟩ | ⟨_, hold⟩
    · exact absurd ((hfree name).symm.trans hname) Bool.false_ne_true
    · exact hT.held i q hold name hname
  exclusive := by
    intro i j q q' name hq hq' hname hname'
    rcases Table.lookup_insert_eq_some.mp hq with ⟨_, rfl⟩ | ⟨_, hold⟩
    · exact absurd ((hfree name).symm.trans hname) Bool.false_ne_true
    · rcases Table.lookup_insert_eq_some.mp hq' with ⟨_, rfl⟩ | ⟨_, hold'⟩
      · exact absurd ((hfree name).symm.trans hname') Bool.false_ne_true
      · exact hT.exclusive i j q q' name hold hold' hname hname'
  progress := by
    intro i q hq
    rcases Table.lookup_insert_eq_some.mp hq with ⟨rfl, rfl⟩ | ⟨_, hold⟩
    · exact hprogress
    · exact hT.progress i q hold
  began := by
    intro i q hq
    rcases Table.lookup_insert_eq_some.mp hq with ⟨_, rfl⟩ | ⟨_, hold⟩
    · exact hbegan
    · exact hT.began i q hold

theorem Tracked.start (hT : s.Tracked) {id : Nat} (hnew : id ∉ s.runs) :
    Tracked { s with runs := s.runs.insert id { began := s.folder.listing } } := by
  refine hT.setRun (fun _ => rfl) ?_ (fun _ hf => hf)
  exact {
    nodup := List.nodup_nil
    split := ⟨[], rfl, fun _ hf => absurd hf List.not_mem_nil, fun e he hid =>
      absurd (hid ▸ hT.known e he) hnew⟩
    early := fun _ => rfl
    stale := fun _ hf => absurd hf List.not_mem_nil
    began := fun hl => by cases hl }

/-- A crash discards the open transaction and frees the lock. -/
theorem Tracked.crash (hT : s.Tracked) {id : Nat} {r : MigrationRun} (hr : s.runs.lookup id = some r) :
    Tracked { s with runs := s.runs.insert id (r.goto (.crashed r.pc.ahead)) } :=
  hT.setRun (fun _ => rfl)
    ((hT.progress id r hr).goto rfl (fun hl => by cases hl) (fun hl => by cases hl))
    (hT.began id r hr)

/-- The name that the run inserts is held by no other open transaction. -/
theorem heldBy_eq_false {id : Nat} {name : String} (h : s.heldBy id name = false) {other : Nat}
    {r : MigrationRun} (hr : s.runs.lookup other = some r) (hholds : r.pc.holds name = true) :
    other = id := by
  unfold heldBy at h
  rw [Bool.not_eq_false', Table.all_iff] at h
  have hone := h other r hr
  rw [hholds] at hone
  simpa using hone

section
variable {id : Nat} {r r' : MigrationRun} {db' : MigrationDb}

/-- What a statement adds is the run's own, and new. -/
theorem Tracked.writes (hT : s.Tracked) (hr : s.runs.lookup id = some r)
    (h : MigrationRun.Stepped id (s.heldBy id) s.folder r s.db db' r') :
    ∃ new : List Effect, db'.filenames = s.db.filenames ++ new.map Effect.file ∧
      db'.committed = s.db.committed ++ new ∧ db'.filenames.Nodup ∧
      (∀ e ∈ new, e.run = id ∧ r.pc.holds e.file = true) ∧
      (s.db.migrations.isSome = true → db'.migrations.isSome = true) := by
  obtain ⟨new, hnames, hcommitted, hnew, hsome⟩ :=
    h.writes (fun name hname => (hT.held id r hr name hname).1)
  refine ⟨new, hnames, hcommitted, ?_, ?_, hsome⟩
  · rw [hnames]
    rcases hnew with rfl | ⟨e, rfl, _, hholds⟩
    · rw [List.map_nil, List.append_nil]
      exact hT.once
    · rw [List.map_singleton, ← List.concat_eq_append]
      exact hT.once.concat (hT.held id r hr e.file hholds).2
  · intro e he
    rcases hnew with rfl | ⟨e', rfl, hrun, hholds⟩
    · cases he
    · obtain rfl := List.mem_singleton.mp he
      exact ⟨hrun, hholds⟩

/-- A name that another run holds is not committed by this one. -/
theorem Tracked.other_held (hT : s.Tracked) (hr : s.runs.lookup id = some r)
    (h : MigrationRun.Stepped id (s.heldBy id) s.folder r s.db db' r') {i : Nat} {q : MigrationRun}
    {name : String} (hne : i ≠ id) (hq : s.runs.lookup i = some q) (hname : q.pc.holds name = true) :
    db'.migrations.isSome = true ∧ name ∉ db'.filenames := by
  obtain ⟨new, hnames, _, _, hown, hsome⟩ := hT.writes hr h
  obtain ⟨htable, hfree⟩ := hT.held i q hq name hname
  refine ⟨hsome htable, ?_⟩
  intro hmem
  rw [hnames] at hmem
  rcases List.mem_append.mp hmem with hold | hlast
  · exact hfree hold
  · obtain ⟨e, he, rfl⟩ := List.mem_map.mp hlast
    exact hne (hT.exclusive i id q r e.file hq hr hname (hown e he).2)

/-- A statement of a run keeps the account of the applied files. -/
theorem Tracked.statement (hT : s.Tracked) (hr : s.runs.lookup id = some r)
    (h : MigrationRun.Stepped id (s.heldBy id) s.folder r s.db db' r') :
    Tracked { s with db := db', runs := s.runs.insert id r' } := by
  obtain ⟨new, hnames, hcommitted, honce, hown, _⟩ := hT.writes hr h
  exact {
    filenames := by
      show db'.filenames = db'.committed.map Effect.file
      rw [hnames, hcommitted, List.map_append, hT.filenames]
    once := honce
    known := by
      intro e he
      have he' : e ∈ s.db.committed ++ new := hcommitted ▸ he
      rcases List.mem_append.mp he' with hold | hlast
      · exact (AList.mem_insert _).mpr (Or.inr (hT.known e hold))
      · exact (AList.mem_insert _).mpr (Or.inl (hown e hlast).1)
    held := by
      intro i q hq name hname
      rcases Table.lookup_insert_eq_some.mp hq with ⟨_, rfl⟩ | ⟨hne, hold⟩
      · obtain ⟨hdb, htable', hfree, _⟩ := h.holds hname
        subst hdb
        exact ⟨htable', hfree⟩
      · exact hT.other_held hr h hne hold hname
    exclusive := by
      have hother : ∀ j q name, s.runs.lookup j = some q → r'.pc.holds name = true →
          q.pc.holds name = true → j = id := fun j q name hq hname hname' =>
        heldBy_eq_false (h.holds hname).2.2.2 hq hname'
      intro i j q q' name hq hq' hname hname'
      rcases Table.lookup_insert_eq_some.mp hq with ⟨rfl, rfl⟩ | ⟨_, hold⟩
      · rcases Table.lookup_insert_eq_some.mp hq' with ⟨rfl, _⟩ | ⟨_, hold'⟩
        · rfl
        · exact (hother j q' name hold' hname hname').symm
      · rcases Table.lookup_insert_eq_some.mp hq' with ⟨rfl, rfl⟩ | ⟨_, hold'⟩
        · exact hother i q name hold hname' hname
        · exact hT.exclusive i j q q' name hold hold' hname hname'
    progress := by
      intro i q hq
      rcases Table.lookup_insert_eq_some.mp hq with ⟨rfl, rfl⟩ | ⟨hne, hold⟩
      · exact (hT.progress i r hr).stepped h (fun name hname => (hT.held i r hr name hname).1)
          (hT.began i r hr)
      · refine (hT.progress i q hold).mono ?_ ?_
        · intro f hf
          show f ∈ db'.filenames
          rw [hnames]
          exact List.mem_append_left _ hf
        · intro e he hid
          have he' : e ∈ s.db.committed ++ new := hcommitted ▸ he
          rcases List.mem_append.mp he' with hmem | hlast
          · exact hmem
          · exact absurd (hid.symm.trans (hown e hlast).1) hne
    began := by
      intro i q hq
      rcases Table.lookup_insert_eq_some.mp hq with ⟨_, rfl⟩ | ⟨_, hold⟩
      · rw [h.began]
        exact hT.began id r hr
      · exact hT.began i q hold }

end

/-- **Step.**  Every action keeps the invariant. -/
theorem Tracked.step (hT : s.Tracked) {a : MigrationAction} (h : s.step a = some s') : s'.Tracked := by
  cases a with
  | addFile name sql =>
      simp only [MigrationSystem.step] at h
      split at h
      · cases h
      · obtain rfl := Option.some.inj h
        exact hT.addFile
  | start id =>
      simp only [MigrationSystem.step] at h
      split at h
      · cases h
      · rename_i hnew
        obtain rfl := Option.some.inj h
        exact hT.start hnew
  | statement id ok =>
      simp only [MigrationSystem.step] at h
      split at h
      · cases h
      · rename_i r hr
        obtain ⟨⟨db', r'⟩, hstep, rfl⟩ := Option.map_eq_some_iff.mp h
        exact hT.statement hr (MigrationRun.stepped hstep)
  | crash id =>
      simp only [MigrationSystem.step] at h
      split at h
      · cases h
      · rename_i r hr
        split at h
        · cases h
        · obtain rfl := Option.some.inj h
          exact hT.crash hr

/-- The invariant over any number of runners. -/
theorem tracked_run {folder : Folder} {tr : List (MigrationSystem × MigrationAction)}
    (h : MigrationSystemRun folder tr s) : s.Tracked :=
  h.invariant (G := fun _ _ => True) (fun _ _ _ hT _ hs => hT.step hs) (fun _ _ => trivial)
    (tracked_initial folder)

/-! ## §4. Exactly once. -/

/-- What a run leaves: a prefix of the files that it read is applied, and it has committed
nothing else.  A run that is over by an error or a crash has committed neither the file where
it stopped nor a later one; one that returned leaves every file applied. -/
structure Leaves (s : MigrationSystem) (id : Nat) (r : MigrationRun) : Prop where
  nodup : r.files.Nodup
  split : ∃ done, r.files = done ++ r.pc.ahead ∧ (∀ f ∈ done, f ∈ s.db.filenames) ∧
    ∀ e ∈ s.db.committed, e.run = id → e.file ∈ done
  stopped : ∀ e ∈ s.db.committed, e.run = id → e.file ∉ r.pc.ahead
  returned : r.pc = .returned → (∀ f ∈ r.files, f ∈ s.db.filenames) ∧ ∀ f ∈ r.began, f ∈ r.files

/-- What the progress of a run means for the database. -/
theorem Tracked.leaves (hT : s.Tracked) {id : Nat} {r : MigrationRun} (hr : s.runs.lookup id = some r) :
    s.Leaves id r := by
  have hP := hT.progress id r hr
  obtain ⟨done, hfiles, hdone, heffects⟩ := hP.split
  exact {
    nodup := hP.nodup
    split := hP.split
    stopped := by
      intro e he hid hmem
      have hnodup : (done ++ r.pc.ahead).Nodup := hfiles ▸ hP.nodup
      exact (List.nodup_append.mp hnodup).2.2 _ (heffects e he hid) _ hmem rfl
    returned := by
      intro hpc
      refine ⟨?_, hP.began (by rw [hpc]; rfl)⟩
      intro f hf
      rw [hfiles, hpc] at hf
      exact hdone f (by simpa [MigratePc.ahead] using hf) }

/-- **Exactly once.**  After any run of any runners, `_migrations` lists the committed files,
none twice, and each runner leaves what it should. -/
theorem migrations_exactly_once {folder : Folder} {tr : List (MigrationSystem × MigrationAction)}
    (h : MigrationSystemRun folder tr s) :
    s.db.filenames = s.db.committed.map Effect.file ∧ (s.db.committed.map Effect.file).Nodup ∧
      ∀ id r, s.runs.lookup id = some r → s.Leaves id r := by
  have hT := tracked_run h
  exact ⟨hT.filenames, hT.filenames ▸ hT.once, fun _ _ hr => hT.leaves hr⟩

/-- A folder with two migrations. -/
def twoFiles : Folder := ((∅ : Folder).insert "002_b.sql" "B").insert "001_a.sql" "A"

/-- Two runners read the empty table; the second has run the first file when the other one
commits it. -/
def twoRunners : List MigrationAction :=
  [.start 0, .start 1] ++ List.replicate 3 (.statement 0 true) ++ List.replicate 6 (.statement 1 true)
    ++ List.replicate 5 (.statement 0 true) ++ List.replicate 2 (.statement 1 true)
    ++ List.replicate 6 (.statement 0 true)

/-- The second runner is turned away by the unique name and leaves nothing. -/
theorem migrations_exactly_once_two :
    ∃ s r, MigrationSystemRun twoFiles (trace MigrationSystem.step (initial twoFiles) twoRunners) s ∧
      s.db.filenames = ["001_a.sql", "002_b.sql"] ∧ (s.db.committed.map Effect.file).Nodup ∧
      s.runs.lookup 1 = some r ∧ r.pc = .failed ["001_a.sql", "002_b.sql"] ∧ s.Leaves 1 r := by
  have hrun := run_of_play MigrationSystem.step (initial twoFiles) twoRunners (by decide +kernel)
  have hexact := migrations_exactly_once hrun
  have hsome : ((play MigrationSystem.step (initial twoFiles) twoRunners).runs.lookup 1).isSome = true := by
    decide +kernel
  obtain ⟨r, hr⟩ := Option.isSome_iff_exists.mp hsome
  have hpc : ((play MigrationSystem.step (initial twoFiles) twoRunners).runs.lookup 1).map (·.pc)
      = some (.failed ["001_a.sql", "002_b.sql"]) := by decide +kernel
  rw [hr, Option.map_some] at hpc
  exact ⟨_, r, hrun, by decide +kernel, hexact.2.1, hr, Option.some.inj hpc, hexact.2.2 1 r hr⟩

end MigrationSystem

end JobScheduler
