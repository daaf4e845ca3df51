/-
  JobScheduler.Queues.Update
  ──────────────────────────
  PATCH /queues/:id from the JSON body to the row.  The SET clauses are texts
  that a loop makes of the body's own keys; the values go beside them by
  position.  What keeps the text harmless is that `validate` has replaced the
  body by what the schema knows.
-/
import JobScheduler.Queues.Shards
import JobScheduler.Schema.Requests

namespace JobScheduler

open Relational Transition Zod

/-! ## §1. The statement. -/

/-- The columns that the schema knows, in its order. -/
def updateColumns : List String :=
  ["name", "priority", "concurrency_limit", "retry_policy_id", "is_paused", "shard_key"]

/-- The keys of the validated body, with the values of those that are there. -/
def UpdateQueueBody.fields (b : UpdateQueueBody) : List (String × Option JsonValue) :=
  [("name", b.name.map .string),
    ("priority", b.priority.map (fun n : Nat => .number (.finite n))),
    ("concurrency_limit", b.concurrencyLimit.map (fun n : Nat => .number (.finite n))),
    ("retry_policy_id", b.retryPolicyId.map (fun id => (id.map JsonValue.string).getD .null)),
    ("is_paused", b.isPaused.map .bool),
    ("shard_key", b.shardKey.map .string)]

/-- `Object.entries(updates)`. -/
def UpdateQueueBody.entries (b : UpdateQueueBody) : List (String × JsonValue) :=
  b.fields.filterMap (fun f => f.2.map (fun v => (f.1, v)))

/-- The variables of the loop over the entries. -/
structure SetClauses where
  setClauses : List String := []
  values : List JsonValue := []
  paramIdx : Nat := 1

/-- `column = $i`. -/
def setClause (column : String) (paramIdx : Nat) : String := s!"{column} = ${paramIdx}"

/-- The body of the loop. -/
def SetClauses.push (c : SetClauses) (entry : String × JsonValue) : SetClauses where
  setClauses := c.setClauses ++ [setClause entry.1 c.paramIdx]
  values := c.values ++ [entry.2]
  paramIdx := c.paramIdx + 1

/-- The text of the UPDATE. -/
def updateText (setClauses : List String) (paramIdx : Nat) : String :=
  let set := ", ".intercalate setClauses
  s!"UPDATE queues q SET {set}
       FROM projects p
       JOIN organizations o ON o.id = p.org_id
       JOIN organization_members om ON om.org_id = o.id
       WHERE q.project_id = p.id AND q.id = ${paramIdx} AND om.user_id = ${paramIdx + 1} AND om.role IN ('owner', 'admin', 'operator')
       RETURNING q.*"

/-- The text and the values that go to `pool.query`; `none` is "No fields to update". -/
def updateStatement (b : UpdateQueueBody) (id userId : String) : Option (String × List JsonValue) :=
  let c := b.entries.foldl SetClauses.push {}
  if c.setClauses = [] then none
  else some (updateText c.setClauses c.paramIdx, c.values ++ [.string id, .string userId])

/-! ## §2. The loop. -/

/-- **The index bookkeeping**: the `i`-th entry gives the clause with the `i`-th placeholder, and
its value the `i`-th position. -/
theorem foldl_push (entries : List (String × JsonValue)) (c : SetClauses) :
    entries.foldl SetClauses.push c =
      { setClauses := c.setClauses ++
          ((entries.map Prod.fst).zipIdx c.paramIdx).map (fun e => setClause e.1 e.2)
        values := c.values ++ entries.map Prod.snd
        paramIdx := c.paramIdx + entries.length } := by
  induction entries generalizing c with
  | nil => simp
  | cons entry entries ih =>
      rw [List.foldl_cons, ih]
      simp [SetClauses.push, Nat.add_assoc, Nat.add_comm 1]

/-- The statement, by the keys of the body. -/
theorem updateStatement_eq (b : UpdateQueueBody) (id userId : String) :
    updateStatement b id userId =
      if b.entries = [] then none
      else some (updateText (((b.entries.map Prod.fst).zipIdx 1).map (fun e => setClause e.1 e.2))
          (1 + b.entries.length),
        b.entries.map Prod.snd ++ [.string id, .string userId]) := by
  unfold updateStatement
  rw [foldl_push]
  cases b.entries with
  | nil => rfl
  | cons entry entries => simp

example : (["priority", "is_paused"].zipIdx 1).map (fun e => setClause e.1 e.2) =
    ["priority = $1", "is_paused = $2"] := by decide

/-! ## §3. What it assigns. -/

/-- `SET column = value` on a row; `none` is an error of the database. -/
def Queue.assign (q : Queue) : String → JsonValue → Option Queue
  | "name", .string s => some { q with name := s }
  | "priority", .number n => some { q with priority := n.toNat }
  | "concurrency_limit", .number n => some { q with concurrencyLimit := n.toNat }
  | "retry_policy_id", .null => some { q with retryPolicyId := none }
  | "retry_policy_id", .string s =>
      (UuidText.read s).map (fun x => { q with retryPolicyId := some x.value })
  | "is_paused", .bool p => some { q with isPaused := p }
  | "shard_key", .string s => some { q with shardKey := s }
  | _, _ => none

/-- The clauses `column = $i` of a SET list with the values at their positions. -/
def Queue.assignAll (clauses : List (String × Nat)) (values : List JsonValue) (q : Queue) : Option Queue :=
  clauses.foldlM (fun q c => (values[c.2 - 1]?).bind (q.assign c.1)) q

/-- No clause takes the value of another, and none that of the WHERE clause. -/
theorem assignAll_eq (entries : List (String × JsonValue)) (before after : List JsonValue) (q : Queue) :
    q.assignAll ((entries.map Prod.fst).zipIdx (before.length + 1))
        (before ++ entries.map Prod.snd ++ after) =
      entries.foldlM (fun q e => q.assign e.1 e.2) q := by
  unfold Queue.assignAll
  induction entries generalizing before q with
  | nil => rfl
  | cons entry entries ih =>
      simp only [List.map_cons, List.zipIdx_cons, List.foldlM_cons, Nat.add_sub_cancel]
      rw [List.append_assoc, List.getElem?_append_right (le_refl _), Nat.sub_self, List.cons_append,
        List.getElem?_cons_zero, Option.bind_some]
      have hih := fun q => ih (before ++ [entry.2]) q
      simp only [List.length_append, List.length_singleton, List.append_assoc, List.cons_append,
        List.nil_append] at hih
      congr 1
      funext q'
      exact hih q'

/-- One key of the body. -/
def Queue.assignField (q : Queue) (f : String × Option JsonValue) : Option Queue :=
  match f.2 with
  | some v => q.assign f.1 v
  | none => some q

/-- Writing the entries is writing the fields. -/
theorem entries_foldlM (b : UpdateQueueBody) (q : Queue) :
    b.entries.foldlM (fun q e => q.assign e.1 e.2) q = b.fields.foldlM Queue.assignField q := by
  unfold UpdateQueueBody.entries
  rw [List.foldlM_filterMap]
  congr 1
  funext q f
  obtain ⟨key, v⟩ := f
  cases v <;> simp [Queue.assignField]

section
variable (q : Queue)

theorem assignField_name (o : Option String) :
    q.assignField ("name", o.map .string) = some { q with name := o.getD q.name } := by
  cases o <;> rfl

theorem assignField_priority (o : Option Nat) :
    q.assignField ("priority", o.map (fun n : Nat => .number (.finite n))) =
      some { q with priority := o.getD q.priority } := by
  cases o <;> simp [Queue.assignField, Queue.assign, Number.toNat]

theorem assignField_concurrencyLimit (o : Option Nat) :
    q.assignField ("concurrency_limit", o.map (fun n : Nat => .number (.finite n))) =
      some { q with concurrencyLimit := o.getD q.concurrencyLimit } := by
  cases o <;> simp [Queue.assignField, Queue.assign, Number.toNat]

/-- `validate` has let only texts through that PostgreSQL reads. -/
theorem assignField_retryPolicyId {o : Option (Option String)}
    (h : ∀ text, o = some (some text) → (UuidText.read text).isSome = true) :
    q.assignField ("retry_policy_id", o.map (fun id => (id.map JsonValue.string).getD .null)) =
      some { q with
        retryPolicyId := (o.map (fun id => id.bind (fun text =>
          (UuidText.read text).map (·.value)))).getD q.retryPolicyId } := by
  rcases o with _ | _ | text
  · rfl
  · rfl
  · obtain ⟨u, hu⟩ := Option.isSome_iff_exists.mp (h text rfl)
    simp [Queue.assignField, Queue.assign, hu]

theorem assignField_isPaused (o : Option Bool) :
    q.assignField ("is_paused", o.map .bool) = some { q with isPaused := o.getD q.isPaused } := by
  cases o <;> rfl

theorem assignField_shardKey (o : Option String) :
    q.assignField ("shard_key", o.map .string) = some { q with shardKey := o.getD q.shardKey } := by
  cases o <;> rfl

end

/-- The clauses of a validated body are the update of the model. -/
theorem entries_apply {b : UpdateQueueBody} (q : Queue)
    (h : ∀ text, b.retryPolicyId = some (some text) → (UuidText.read text).isSome = true) :
    b.entries.foldlM (fun q e => q.assign e.1 e.2) q = some (b.toInput.apply q) := by
  rw [entries_foldlM]
  simp only [UpdateQueueBody.fields, List.foldlM_cons, List.foldlM_nil, assignField_name,
    assignField_priority, assignField_concurrencyLimit, assignField_retryPolicyId _ h,
    assignField_isPaused, assignField_shardKey, Option.bind_eq_bind, Option.bind_some]
  rfl

/-! ## §4. What `validate` lets through. -/

/-- The known keys of a request, in the order of the schema. -/
def presentColumns (request : JsonValue) : List String :=
  updateColumns.filter (fun key => (request.get? key).isSome)

/-- The column has the value that the JSON value spells. -/
def Queue.Shows (q : Queue) : String → JsonValue → Prop
  | "name", .string s => q.name = s
  | "priority", .number n => n = .finite q.priority
  | "concurrency_limit", .number n => n = .finite q.concurrencyLimit
  | "retry_policy_id", .null => q.retryPolicyId = none
  | "retry_policy_id", .string s => ∃ u, UuidText.read s = some u ∧ q.retryPolicyId = some u.value
  | "is_paused", .bool p => q.isPaused = p
  | "shard_key", .string s => q.shardKey = s
  | _, _ => False

/-- An optional member is written back as it was read. -/
theorem optional_map {α : Type} {s : Schema α} {write : α → JsonValue} {path : Path}
    {data : Option JsonValue} {o : Option α}
    (hs : ∀ a, s path data = .ok a → data = some (write a)) (h : optional s path data = .ok o) :
    o.map write = data := by
  rcases optional_ok.mp h with ⟨rfl, rfl⟩ | ⟨_, a, ha, rfl⟩
  · rfl
  · exact (hs a ha).symm

theorem limitedText_ok {lo hi : Nat} {path : Path} {data : Option JsonValue} {a : String}
    (h : maxLength hi (minLength lo string) path data = .ok a) : data = some (.string a) :=
  string_ok.mp (check_ok.mp (check_ok.mp h).1).1

section
variable {path : Path} {members : List (String × JsonValue)} {b : UpdateQueueBody}

/-- The validated keys are written as the request has them. -/
theorem UpdateQueueAccepted.values (h : UpdateQueueAccepted path members b) :
    b.name.map .string = member members "name" ∧
      b.priority.map (fun n : Nat => .number (.finite n)) = member members "priority" ∧
      b.concurrencyLimit.map (fun n : Nat => .number (.finite n)) = member members "concurrency_limit" ∧
      b.retryPolicyId.map (fun id => (id.map JsonValue.string).getD .null) =
        member members "retry_policy_id" ∧
      b.isPaused.map .bool = member members "is_paused" ∧
      b.shardKey.map .string = member members "shard_key" := by
  refine ⟨optional_map (fun _ => limitedText_ok) h.name,
    optional_map (fun _ ha => (naturalUpTo_ok.mp ha).1) h.priority,
    optional_map (fun _ ha => (naturalUpTo_ok.mp ha).1) h.concurrencyLimit, ?_,
    optional_map (fun _ ha => boolean_ok.mp ha) h.isPaused,
    optional_map (fun _ => limitedText_ok) h.shardKey⟩
  rcases nullish_ok.mp h.retryPolicyId with ⟨hd, ho⟩ | ⟨hd, ho⟩ | ⟨_, _, a, ha, ho⟩
  · rw [ho, hd]; rfl
  · rw [ho, hd]; rfl
  · rw [ho, string_ok.mp (check_ok.mp ha).1]; rfl

/-- **The keys of the validated body are the known keys of the request, with the
values that the request gives them.** -/
theorem UpdateQueueAccepted.fields_eq (h : UpdateQueueAccepted path members b) :
    b.fields = updateColumns.map (fun key => (key, member members key)) := by
  obtain ⟨hname, hpriority, hlimit, hpolicy, hpaused, hshard⟩ := h.values
  simp only [UpdateQueueBody.fields, updateColumns, List.map_cons, List.map_nil, hname, hpriority,
    hlimit, hpolicy, hpaused, hshard]

/-- An accepted policy id can be read. -/
theorem UpdateQueueAccepted.policy_reads (h : UpdateQueueAccepted path members b) {text : String}
    (ht : b.retryPolicyId = some (some text)) : (UuidText.read text).isSome = true := by
  rcases nullish_ok.mp h.retryPolicyId with ⟨_, ho⟩ | ⟨_, ho⟩ | ⟨_, _, a, ha, ho⟩
  · rw [ho] at ht; cases ht
  · rw [ho] at ht; cases ht
  · rw [ho] at ht
    cases ht
    exact (check_ok.mp ha).2

/-- The entries are the members of the body that name a column, as they were sent. -/
theorem UpdateQueueAccepted.entries_eq (h : UpdateQueueAccepted path members b) :
    b.entries = updateColumns.filterMap (fun key =>
      ((JsonValue.object members).get? key).map (fun v => (key, v))) := by
  unfold UpdateQueueBody.entries
  rw [h.fields_eq, List.filterMap_map]
  rfl

theorem UpdateQueueAccepted.entries_keys (h : UpdateQueueAccepted path members b) :
    b.entries.map Prod.fst = presentColumns (.object members) := by
  rw [h.entries_eq, List.map_filterMap]
  unfold presentColumns
  rw [← List.filterMap_eq_filter]
  congr 1
  funext key
  cases hv : (JsonValue.object members).get? key <;> simp [Option.guard, hv]

/-- A key that is there sets its column to its own value. -/
theorem UpdateQueueAccepted.shows (h : UpdateQueueAccepted path members b) (q : Queue) {key : String}
    {v : JsonValue} (hkey : key ∈ updateColumns) (hv : member members key = some v) :
    (b.toInput.apply q).Shows key v := by
  obtain ⟨hname, hpriority, hlimit, hpolicy, hpaused, hshard⟩ := h.values
  simp only [updateColumns, List.mem_cons, List.not_mem_nil, or_false] at hkey
  rcases hkey with rfl | rfl | rfl | rfl | rfl | rfl
  · obtain ⟨_, ho, rfl⟩ := Option.map_eq_some_iff.mp (hname.trans hv)
    simp [Queue.Shows, UpdateQueueInput.apply, UpdateQueueBody.toInput, ho]
  · obtain ⟨_, ho, rfl⟩ := Option.map_eq_some_iff.mp (hpriority.trans hv)
    simp [Queue.Shows, UpdateQueueInput.apply, UpdateQueueBody.toInput, ho]
  · obtain ⟨_, ho, rfl⟩ := Option.map_eq_some_iff.mp (hlimit.trans hv)
    simp [Queue.Shows, UpdateQueueInput.apply, UpdateQueueBody.toInput, ho]
  · obtain ⟨_ | text, ho, rfl⟩ := Option.map_eq_some_iff.mp (hpolicy.trans hv)
    · simp [Queue.Shows, UpdateQueueInput.apply, UpdateQueueBody.toInput, ho]
    · obtain ⟨u, hu⟩ := Option.isSome_iff_exists.mp (h.policy_reads ho)
      simp [Queue.Shows, UpdateQueueInput.apply, UpdateQueueBody.toInput, ho, hu]
  · obtain ⟨_, ho, rfl⟩ := Option.map_eq_some_iff.mp (hpaused.trans hv)
    simp [Queue.Shows, UpdateQueueInput.apply, UpdateQueueBody.toInput, ho]
  · obtain ⟨_, ho, rfl⟩ := Option.map_eq_some_iff.mp (hshard.trans hv)
    simp [Queue.Shows, UpdateQueueInput.apply, UpdateQueueBody.toInput, ho]

/-- A key that is not there leaves its column alone. -/
theorem UpdateQueueAccepted.keeps (h : UpdateQueueAccepted path members b) (q : Queue) {key : String}
    (hkey : key ∈ updateColumns) (hv : member members key = none) (v : JsonValue) :
    (b.toInput.apply q).Shows key v ↔ q.Shows key v := by
  obtain ⟨hname, hpriority, hlimit, hpolicy, hpaused, hshard⟩ := h.values
  simp only [updateColumns, List.mem_cons, List.not_mem_nil, or_false] at hkey
  rcases hkey with rfl | rfl | rfl | rfl | rfl | rfl
  · have ho := Option.map_eq_none_iff.mp (hname.trans hv)
    cases v <;> simp [Queue.Shows, UpdateQueueInput.apply, UpdateQueueBody.toInput, ho]
  · have ho := Option.map_eq_none_iff.mp (hpriority.trans hv)
    cases v <;> simp [Queue.Shows, UpdateQueueInput.apply, UpdateQueueBody.toInput, ho]
  · have ho := Option.map_eq_none_iff.mp (hlimit.trans hv)
    cases v <;> simp [Queue.Shows, UpdateQueueInput.apply, UpdateQueueBody.toInput, ho]
  · have ho := Option.map_eq_none_iff.mp (hpolicy.trans hv)
    cases v <;> simp [Queue.Shows, UpdateQueueInput.apply, UpdateQueueBody.toInput, ho]
  · have ho := Option.map_eq_none_iff.mp (hpaused.trans hv)
    cases v <;> simp [Queue.Shows, UpdateQueueInput.apply, UpdateQueueBody.toInput, ho]
  · have ho := Option.map_eq_none_iff.mp (hshard.trans hv)
    cases v <;> simp [Queue.Shows, UpdateQueueInput.apply, UpdateQueueBody.toInput, ho]

end

/-! ## §5. The statement and the request. -/

/-- What `validate` and the loop make of a request. -/
structure UpdateStatement (request : JsonValue) (b : UpdateQueueBody) : Prop where
  /-- The entries are the known keys of the request, each with its own value. -/
  entries : b.entries = updateColumns.filterMap (fun key => (request.get? key).map (fun v => (key, v)))
  /-- The text is made of the names that are there, and of nothing else of the request. -/
  text : ∀ id userId sql, updateStatement b id userId = some sql →
    sql.1 = updateText (((presentColumns request).zipIdx 1).map (fun c => setClause c.1 c.2))
      (1 + (presentColumns request).length)
  /-- Its clauses, read with the values at their placeholders, are the update of the model. -/
  assigns : ∀ id userId sql, updateStatement b id userId = some sql → ∀ q : Queue,
    q.assignAll ((presentColumns request).zipIdx 1) sql.2 = some (b.toInput.apply q)
  /-- The WHERE clause gets the id of the path and the id of the user. -/
  whereClause : ∀ id userId sql, updateStatement b id userId = some sql →
    sql.2[(presentColumns request).length]? = some (.string id) ∧
      sql.2[(presentColumns request).length + 1]? = some (.string userId)
  /-- "No fields to update". -/
  refused : ∀ id userId, updateStatement b id userId = none ↔ b.toInput.isEmpty = true
  set : ∀ (q : Queue) key v, key ∈ updateColumns → request.get? key = some v →
    (b.toInput.apply q).Shows key v
  kept : ∀ (q : Queue) key v, key ∈ updateColumns → request.get? key = none →
    ((b.toInput.apply q).Shows key v ↔ q.Shows key v)
  project : ∀ q : Queue, (b.toInput.apply q).projectId = q.projectId

/-- Nothing to write is what the route refuses. -/
theorem entries_eq_nil (b : UpdateQueueBody) : b.entries = [] ↔ b.toInput.isEmpty = true := by
  simp [UpdateQueueBody.entries, UpdateQueueBody.fields, UpdateQueueInput.isEmpty,
    UpdateQueueBody.toInput, and_assoc]

/-- The SQL text and the values that an accepted body leads to. -/
theorem UpdateQueueAccepted.statement {path : Path} {members : List (String × JsonValue)}
    {b : UpdateQueueBody} (h : UpdateQueueAccepted path members b) :
    UpdateStatement (.object members) b := by
  have hsql : ∀ id userId sql, updateStatement b id userId = some sql →
      sql = (updateText (((presentColumns (.object members)).zipIdx 1).map (fun c => setClause c.1 c.2))
          (1 + (presentColumns (.object members)).length),
        b.entries.map Prod.snd ++ [.string id, .string userId]) := by
    intro id userId sql hs
    rw [updateStatement_eq, ← List.length_map Prod.fst, h.entries_keys] at hs
    split at hs <;> cases hs
    rfl
  have hlength : (presentColumns (.object members)).length = (b.entries.map Prod.snd).length := by
    rw [← h.entries_keys, List.length_map, List.length_map]
  constructor
  case entries => exact h.entries_eq
  case text =>
    intro id userId sql hs
    rw [hsql id userId sql hs]
  case assigns =>
    intro id userId sql hs q
    rw [hsql id userId sql hs, ← h.entries_keys]
    exact (assignAll_eq b.entries [] _ q).trans (entries_apply q (fun _ => h.policy_reads))
  case whereClause =>
    intro id userId sql hs
    rw [hsql id userId sql hs, hlength]
    simp
  case refused =>
    intro id userId
    rw [updateStatement_eq, ← entries_eq_nil]
    simp
  case set => exact fun q _ _ => h.shows q
  case kept => exact fun q _ v hkey hv => h.keeps q hkey hv v
  case project => exact fun _ => rfl

/-- The request behind `validate`. -/
def patchRequest (userId queueId : UUID) (request : JsonValue) : Except AppError Request :=
  (validate updateQueueSchema request).map (fun b => .patch userId queueId b.toInput)

/-- A body that the schema rejects starts nothing. -/
theorem patchRequest_cases (userId queueId : UUID) (request : JsonValue) :
    (∃ err, patchRequest userId queueId request = .error err ∧ err.statusCode = 400) ∨
      ∃ b, patchRequest userId queueId request = .ok (.patch userId queueId b.toInput) ∧
        UpdateStatement request b := by
  unfold patchRequest
  cases hb : validate updateQueueSchema request with
  | error err =>
      left
      refine ⟨err, rfl, ?_⟩
      unfold validate at hb
      split at hb <;> cases hb
      rfl
  | ok b =>
      right
      obtain ⟨members, hdata, haccepted⟩ := updateQueueSchema_ok (validate_ok.mp hb)
      obtain rfl := Option.some.inj hdata
      exact ⟨b, rfl, haccepted.statement⟩

/-! ## §6. The rows. -/

/-- What one statement of a PATCH does to the rows; `first` says whether it is the first one. -/
structure UpdateFrame (first : Prop) (userId queueId : UUID) (u : UpdateQueueInput) (db db' : Db) :
    Prop where
  /-- No other table is written, and events are only appended. -/
  others : ∃ events, db' = { db with queues := db'.queues, systemEvents := db.systemEvents ++ events }
  queues : db'.queues = db.queues ∨
    (first ∧ db.canOperate queueId userId = true ∧ ∀ q, db'.queues.lookup q =
      (db.queues.lookup q).map (fun row => if q = queueId then u.apply row else row))

/-- Client `pid` is this PATCH. -/
def Sys.patches (s : Sys) (pid : Nat) (userId queueId : UUID) (u : UpdateQueueInput) (r : Patch) :
    Prop :=
  s.proc pid = some (.patch r) ∧ r.userId = userId ∧ r.queueId = queueId ∧ r.updates = u

section
variable {cfg : Config} {ctx : Ctx} {env : Env} {db db' : Db} {r r' : Patch}

/-- The request writes queues and events only. -/
theorem Patch.step_others (h : r.step cfg ctx env db = some (db', r')) :
    ∃ events, db' = { db with queues := db'.queues, systemEvents := db.systemEvents ++ events } := by
  cases Patch.stepped h with
  | failed err => exact ⟨[], by rw [List.append_nil]⟩
  | updated q hpc hfree => exact ⟨[], by rw [List.append_nil]; rfl⟩
  | published ev row hpc => exact ⟨[ev], rfl⟩
  | replied ev hpc => exact ⟨[], by rw [List.append_nil]⟩

/-- The request stays what it is, and its UPDATE is behind it. -/
theorem Patch.step_keeps (h : r.step cfg ctx env db = some (db', r')) :
    r'.userId = r.userId ∧ r'.queueId = r.queueId ∧ r'.updates = r.updates ∧ r'.pc ≠ .update := by
  cases Patch.stepped h <;> exact ⟨rfl, rfl, rfl, by simp [Patch.goto, Patch.fail]⟩

end

section
variable {cfg : Config} {clock : Timestamp} {db : Db} {tr : List (Sys × Action)} {s s' : Sys}
  {pid : Nat} {userId queueId : UUID} {u : UpdateQueueInput}

/-- A started request is there, moved or not. -/
theorem patches_of_started (h : SysRun cfg (Sys.atRest clock db) tr s) {t : Sys}
    (hstart : (t, .start pid (.patch userId queueId u)) ∈ tr) :
    ∃ r, s.patches pid userId queueId u r := by
  induction h with
  | nil => cases hstart
  | @snoc tr x y a _ hs ih =>
      rcases List.mem_append.mp hstart with hmem | hmem
      · obtain ⟨r, hproc, rfl, rfl, rfl⟩ := ih hmem
        rcases proc_next hs hproc with ⟨hk, _⟩ | ⟨env, p', _, hk, hstep⟩
        · exact ⟨r, hk, rfl, rfl, rfl⟩
        · cases Proc.stepped hstep with
          | patch _ r' hq =>
              obtain ⟨hu, hid, hup, _⟩ := Patch.step_keeps hq
              exact ⟨r', hk, hu, hid, hup⟩
      · obtain ⟨rfl, rfl⟩ := Prod.mk.inj (List.mem_singleton.mp hmem)
        cases JobScheduler.stepped hs with
        | start _ _ hfree => exact ⟨_, Sys.put_proc_self _ _ _ _, rfl, rfl, rfl⟩

/-- A PATCH that is still at its UPDATE has executed no statement. -/
theorem no_statement_before (h : SysRun cfg (Sys.atRest clock db) tr s)
    (hs : s.proc pid = none ∨ ∃ r, s.proc pid = some (.patch r) ∧ r.pc = .update) :
    ∀ p ∈ tr, ∀ env, p.2 ≠ .run pid env := by
  induction h with
  | nil => exact fun _ hp => absurd hp List.not_mem_nil
  | @snoc tr x y a _ hstep ih =>
      have hbefore : (x.proc pid = none ∨ ∃ r, x.proc pid = some (.patch r) ∧ r.pc = .update) ∧
          ∀ env, a ≠ .run pid env := by
        cases hx : x.proc pid with
        | none =>
            refine ⟨.inl rfl, ?_⟩
            rintro env rfl
            cases JobScheduler.stepped hstep with
            | run _ _ p _ _ hp => rw [hx] at hp; cases hp
        | some p =>
            rcases proc_next hstep hx with ⟨hk, hne⟩ | ⟨env, p', rfl, hk, hp⟩
            · rcases hs with hnone | ⟨r, hr, hpc⟩
              · rw [hnone] at hk; cases hk
              · exact ⟨.inr ⟨r, hk.symm.trans hr, hpc⟩, hne⟩
            · -- its own statement would have left the UPDATE behind
              rcases hs with hnone | ⟨r, hr, hpc⟩
              · rw [hnone] at hk; cases hk
              · rw [hr] at hk
                cases hk
                obtain ⟨_, rfl, hq⟩ := patch_of_step hp
                exact absurd hpc (Patch.step_keeps hq).2.2.2
      intro p hp
      rcases List.mem_append.mp hp with hmem | hmem
      · exact ih hbefore.1 p hmem
      · rw [List.mem_singleton.mp hmem]
        exact hbefore.2

/-- One statement of the request keeps everything but its queue's listed columns. -/
theorem patch_frame (h : SysRun cfg (Sys.atRest clock db) tr s) {t : Sys}
    (hstart : (t, .start pid (.patch userId queueId u)) ∈ tr) {env : Env}
    (hs : step cfg s (.run pid env) = some s') :
    UpdateFrame (∀ p ∈ tr, ∀ env, p.2 ≠ .run pid env) userId queueId u s.db s'.db := by
  obtain ⟨r, hproc, rfl, rfl, rfl⟩ := patches_of_started h hstart
  obtain ⟨p', _, hstep⟩ := proc_run hs hproc
  cases Proc.stepped hstep with
  | patch _ r' hq =>
      refine ⟨Patch.step_others hq, ?_⟩
      rcases Patch.step_queues hq with ⟨heq, _⟩ | ⟨hpc, _, hcan, heq⟩
      · exact .inl heq
      · refine .inr ⟨no_statement_before h (.inr ⟨r, hproc, hpc⟩), hcan, fun q => ?_⟩
        rw [heq]
        exact updateQueue_lookup _ _ q _

end

/-! ## §7. The claim on the request. -/

/-- **A PATCH changes the columns that the body names, in the one row that the
path names, for a user who may operate it.**  Of the body, only six names get
into the statement. -/
theorem queue_update_frame (userId queueId : UUID) (request : JsonValue) :
    (∃ err, patchRequest userId queueId request = .error err ∧ err.statusCode = 400) ∨
      ∃ b, patchRequest userId queueId request = .ok (.patch userId queueId b.toInput) ∧
        UpdateStatement request b ∧
        ∀ {cfg : Config} {clock : Timestamp} {db : Db} {tr : List (Sys × Action)} {s s' t : Sys}
          {pid : Nat} {env : Env}, SysRun cfg (Sys.atRest clock db) tr s →
          (t, .start pid (.patch userId queueId b.toInput)) ∈ tr →
          step cfg s (.run pid env) = some s' →
          UpdateFrame (∀ p ∈ tr, ∀ env, p.2 ≠ .run pid env) userId queueId b.toInput s.db s'.db := by
  rcases patchRequest_cases userId queueId request with hrejected | ⟨b, haccepted, hstatement⟩
  · exact .inl hrejected
  · exact .inr ⟨b, haccepted, hstatement, fun h hstart hs => patch_frame h hstart hs⟩

/-- The body pauses the queue and asks for a project of another user. -/
def pauseBody : JsonValue := .object [("project_id", .string "2"), ("is_paused", .bool true)]

/-- PATCH /queues/1 with `is_paused: true`. -/
def pauseRequest : Request := .patch 1 1 { isPaused := some true }

theorem queue_update_frame_pause :
    let tr := trace (step Config.small) (Sys.atRest 0 (Db.small 1 [])) [.start 0 pauseRequest]
    let s := play (step Config.small) (Sys.atRest 0 (Db.small 1 [])) [.start 0 pauseRequest]
    let s' := play (step Config.small) s [.run 0 { now := 0 }]
    (s'.db.queues.lookup 1).map (·.isPaused) = some true ∧
      UpdateFrame (∀ p ∈ tr, ∀ env, p.2 ≠ .run 0 env) 1 1 { isPaused := some true } s.db s'.db := by
  refine ⟨by decide, ?_⟩
  rcases queue_update_frame 1 1 pauseBody with ⟨_, hrejected, _⟩ | ⟨b, haccepted, _, hframe⟩
  · cases hrejected
  · have hb : ({ isPaused := some true } : UpdateQueueInput) = b.toInput :=
      (Request.patch.inj (Except.ok.inj haccepted)).2.2
    rw [hb]
    refine hframe (t := Sys.atRest 0 (Db.small 1 [])) (run_of_play (step Config.small) _ _ (by rfl)) ?_
      (step_of_play (by rfl))
    rw [← hb]
    exact List.mem_singleton_self _

end JobScheduler
