/-
  JobScheduler.Migrations.Runner
  ──────────────────────────────
  `runMigrations` of `db/migrate.ts`, one statement a step, and any number of
  runners over one database and one folder.

  The set of applied files is read once, before the folder and outside the
  transactions of the files.  What a file's SQL does is recorded as one effect of
  its transaction; it is assumed not to control transactions and not to touch
  `_migrations`.  A row of `_migrations` that another transaction has inserted and
  not committed makes an INSERT of the same name wait.
-/
import Mathlib.Data.List.Lex
import Mathlib.Data.List.Sort
import JobScheduler.Library.Run
import JobScheduler.Library.Table

namespace JobScheduler

open Relational Transition

/-! ## §1. The folder. -/

/-- The files of MIGRATIONS_DIR and their texts. -/
abbrev Folder := Table String String

/-- `f.endsWith('.sql')`. -/
def isSqlFile (name : String) : Bool := name.endsWith ".sql"

/-- The UTF-16 code units of a text. -/
def codeUnits (text : String) : List Nat :=
  text.toList.flatMap (fun c =>
    if c.toNat < 0x10000 then [c.toNat]
    else [0xD800 + (c.toNat - 0x10000) / 0x400, 0xDC00 + (c.toNat - 0x10000) % 0x400])

/-- `readdirSync(MIGRATIONS_DIR).filter(...).sort()`; names are compared by code units. -/
def Folder.listing (folder : Folder) : List String :=
  (folder.keys.filter isSqlFile).insertionSort (fun a b => codeUnits a ≤ codeUnits b)

/-- The listing holds the SQL files of the folder. -/
theorem Folder.mem_listing {folder : Folder} {name : String} :
    name ∈ folder.listing ↔ name ∈ folder ∧ isSqlFile name = true := by
  unfold Folder.listing
  rw [List.mem_insertionSort, List.mem_filter, AList.mem_keys]

/-- The listing names no file twice. -/
theorem Folder.nodup_listing (folder : Folder) : folder.listing.Nodup := by
  unfold Folder.listing
  rw [(List.perm_insertionSort _ _).nodup_iff]
  exact folder.keys_nodup.filter _

/-! ## §2. The database. -/

/-- The committed transaction of one file. -/
structure Effect where
  run : Nat
  file : String
  sql : String

/-- What the runners share: the `_migrations` table and the effects that were committed. -/
structure MigrationDb where
  /-- `_migrations`; `none` until the table is created. -/
  migrations : Option (List String)
  /-- What the committed transactions did, in their order. -/
  committed : List Effect

namespace MigrationDb

/-- The filenames in `_migrations`. -/
def filenames (db : MigrationDb) : List String := db.migrations.getD []

/-- `CREATE TABLE IF NOT EXISTS _migrations`. -/
def createTable (db : MigrationDb) : MigrationDb := { db with migrations := some db.filenames }

/-- COMMIT of a transaction that has run a file and inserted its name. -/
def commit (db : MigrationDb) (e : Effect) : MigrationDb where
  migrations := db.migrations.map (fun names => names ++ [e.file])
  committed := db.committed ++ [e]

@[simp] theorem filenames_createTable (db : MigrationDb) : db.createTable.filenames = db.filenames :=
  rfl

/-- A commit adds its file at the end. -/
theorem filenames_commit {db : MigrationDb} (h : db.migrations.isSome = true) (e : Effect) :
    (db.commit e).filenames = db.filenames ++ [e.file] := by
  obtain ⟨names, hnames⟩ := Option.isSome_iff_exists.mp h
  simp [filenames, commit, hnames]

end MigrationDb

/-! ## §3. `runMigrations`. -/

/-- Where a run is; `rest` are the files after the current one. -/
inductive MigratePc
  | createTable
  | selectApplied
  | readFolder
  | next (files : List String)
  | beginTransaction (file sql : String) (rest : List String)
  | execute (file sql : String) (rest : List String)
  | insertName (file sql : String) (rest : List String)
  | commit (file sql : String) (rest : List String)
  | rollback (file : String) (rest : List String)
  | returned
  /-- The run threw, before the loop or at the first of these files. -/
  | failed (files : List String)
  /-- The process died; `files` are those it had not finished. -/
  | crashed (files : List String)
  deriving DecidableEq

namespace MigratePc

/-- The files from the current one on. -/
def ahead : MigratePc → List String
  | .createTable | .selectApplied | .readFolder | .returned => []
  | .next files | .failed files | .crashed files => files
  | .beginTransaction file _ rest | .execute file _ rest | .insertName file _ rest
  | .commit file _ rest | .rollback file rest => file :: rest

/-- The folder has not been read yet. -/
def early : MigratePc → Bool
  | .createTable | .selectApplied | .readFolder => true
  | _ => false

/-- The open transaction has inserted the name. -/
def holds (name : String) : MigratePc → Bool
  | .commit file _ _ => decide (file = name)
  | _ => false

/-- The folder has been read and the run is not over by an error or a crash. -/
def listed : MigratePc → Bool
  | .createTable | .selectApplied | .readFolder | .failed _ | .crashed _ => false
  | _ => true

/-- The run sends no further statement. -/
def ended : MigratePc → Bool
  | .returned | .failed _ | .crashed _ => true
  | _ => false

end MigratePc

/-- One `runMigrations` call. -/
structure MigrationRun where
  /-- `appliedSet`. -/
  appliedSet : List String := []
  files : List String := []
  /-- What the folder listed when the run began. -/
  began : List String
  pc : MigratePc := .createTable

namespace MigrationRun

/-- Move the run to another statement. -/
def goto (r : MigrationRun) (pc : MigratePc) : MigrationRun := { r with pc := pc }

/-- One statement of run `id`; `ok` says whether the database, or the file system,
executes it.  `held` are the names that other open transactions have inserted. -/
def step (id : Nat) (held : String → Bool) (folder : Folder) (ok : Bool) (r : MigrationRun)
    (db : MigrationDb) : Option (MigrationDb × MigrationRun) :=
  match r.pc with
  | .createTable =>
      if ok then some (db.createTable, r.goto .selectApplied) else some (db, r.goto (.failed []))
  | .selectApplied =>
      if ok && db.migrations.isSome then
        some (db, { r with appliedSet := db.filenames, pc := .readFolder })
      else some (db, r.goto (.failed []))
  | .readFolder =>
      if ok then some (db, { r with files := folder.listing, pc := .next folder.listing })
      else some (db, r.goto (.failed []))
  | .next [] => some (db, r.goto .returned)
  | .next (file :: rest) =>
      if file ∈ r.appliedSet then some (db, r.goto (.next rest))
      else
        match ok, folder.lookup file with
        | true, some sql => some (db, r.goto (.beginTransaction file sql rest))
        | _, _ => some (db, r.goto (.failed (file :: rest)))
  | .beginTransaction file sql rest =>
      -- outside the inner `try`
      if ok then some (db, r.goto (.execute file sql rest))
      else some (db, r.goto (.failed (file :: rest)))
  | .execute file sql rest =>
      if ok then some (db, r.goto (.insertName file sql rest)) else some (db, r.goto (.rollback file rest))
  | .insertName file sql rest =>
      -- `filename` is UNIQUE
      if !ok || db.migrations.isNone || decide (file ∈ db.filenames) then
        some (db, r.goto (.rollback file rest))
      else if held file then none
      else some (db, r.goto (.commit file sql rest))
  | .commit file sql rest =>
      if ok then some (db.commit ⟨id, file, sql⟩, r.goto (.next rest))
      else some (db, r.goto (.rollback file rest))
  | .rollback file rest => some (db, r.goto (.failed (file :: rest)))
  | .returned => none
  | .failed _ => none
  | .crashed _ => none

end MigrationRun

/-! ## §4. Runners. -/

/-- The database, the migration folder and the runs. -/
structure MigrationSystem where
  db : MigrationDb
  folder : Folder
  runs : Table Nat MigrationRun

/-- A file is added, a run starts, sends its next statement, or dies. -/
inductive MigrationAction
  | addFile (name sql : String)
  | start (id : Nat)
  | statement (id : Nat) (ok : Bool)
  /-- The process of the run dies, or its connection is lost: the open transaction is
  discarded. -/
  | crash (id : Nat)

namespace MigrationSystem

/-- No run so far, and an empty database. -/
def initial (folder : Folder) : MigrationSystem where
  db := ⟨none, []⟩
  folder := folder
  runs := ∅

/-- Another run's open transaction has inserted the name. -/
def heldBy (s : MigrationSystem) (id : Nat) (name : String) : Bool :=
  !s.runs.all (fun other r => decide (other = id) || !r.pc.holds name)

/-- One action on the migrations; `none` where it cannot happen. -/
def step (s : MigrationSystem) : MigrationAction → Option MigrationSystem
  | .addFile name sql =>
      if name ∈ s.folder then none else some { s with folder := s.folder.insert name sql }
  | .start id =>
      if id ∈ s.runs then none
      else some { s with runs := s.runs.insert id { began := s.folder.listing } }
  | .statement id ok =>
      match s.runs.lookup id with
      | none => none
      | some r => (r.step id (s.heldBy id) s.folder ok s.db).map (fun p =>
          { s with db := p.1, runs := s.runs.insert id p.2 })
  | .crash id =>
      match s.runs.lookup id with
      | none => none
      | some r =>
          if r.pc.ended then none
          else some { s with runs := s.runs.insert id (r.goto (.crashed r.pc.ahead)) }

end MigrationSystem

/-- Runs of the system from an empty database. -/
abbrev MigrationSystemRun (folder : Folder) (tr : List (MigrationSystem × MigrationAction))
    (s : MigrationSystem) : Prop :=
  Run MigrationSystem.step (MigrationSystem.initial folder) tr s

end JobScheduler
