/-
  JobScheduler.Submission.Inheritance
  ───────────────────────────────────
  What an item of a batch inherits from its request.  Two layers fill in what an
  item leaves out: the schema, which knows the item alone and always finds a
  default, and the route, whose `item || outer` takes a default for a value of
  the item and a stated zero for none.
-/
import JobScheduler.Schema.Requests
import JobScheduler.Submission.Rows

namespace JobScheduler

open Zod Transition

/-! ## §1. What a request states. -/

/-- A task type, as a body spells it. -/
def taskType? : JsonValue → Option TaskType
  | .string s => taskTypes.lookup s
  | _ => none

/-- A natural number. -/
def natural? : JsonValue → Option Nat
  | .number n => if n.isInteger && n.atLeast 0 then some n.toNat else none
  | _ => none

/-- The value that an object states under a key. -/
def stated {α : Type} (read : JsonValue → Option α) (key : String) (value : JsonValue) : Option α :=
  (value.get? key).bind read

/-- The item's own value, else that of the request, else the default. -/
def inherited {α : Type} (read : JsonValue → Option α) (key : String) (dflt : α)
    (request item : JsonValue) : α :=
  (stated read key item).getD ((stated read key request).getD dflt)

/-- The elements of `batch_jobs`. -/
def batchItems (request : JsonValue) : List JsonValue :=
  match request.get? "batch_jobs" with
  | some (.array items) => items
  | _ => []

/-- The row has what the item should inherit. -/
structure Job.Inherits (row : Job) (request item : JsonValue) : Prop where
  taskType : row.taskType = inherited taskType? "task_type" .simulated request item
  priority : row.priority = inherited natural? "priority" 0 request item
  maxAttempts : row.maxAttempts = inherited natural? "max_attempts" 3 request item

/-- The item leaves nothing to inherit but the schema's own defaults, except a priority
that is not zero. -/
structure Inheritable (request item : JsonValue) : Prop where
  taskType : (stated taskType? "task_type" item).isSome ∨
    (stated taskType? "task_type" request).getD .simulated = .simulated
  priority : stated natural? "priority" item = some 0 →
    (stated natural? "priority" request).getD 0 = 0
  maxAttempts : (stated natural? "max_attempts" item).isSome ∨
    (stated natural? "max_attempts" request).getD 3 = 3

/-! ## §2. What the schema makes of it. -/

section
variable {path : Path} {members : List (String × JsonValue)} {key : String}

/-- The accepted number is the stated one or the default. -/
theorem naturalUpTo_stated {dflt lo hi n : Nat}
    (h : field path members key (default dflt (naturalUpTo lo hi)) = .ok n) :
    n = (stated natural? key (.object members)).getD dflt := by
  unfold stated JsonValue.get?
  dsimp only
  rcases default_ok.mp h with ⟨hnone, rfl⟩ | ⟨_, hsome⟩
  · rw [hnone]
    rfl
  · rw [(naturalUpTo_ok.mp hsome).1]
    simp [natural?, Number.isInteger, Number.atLeast, Number.toNat]

/-- The accepted task type is the stated one or the default. -/
theorem taskTypeEnum_stated {t : TaskType}
    (h : field path members key (default .simulated taskTypeEnum) = .ok t) :
    t = (stated taskType? key (.object members)).getD .simulated := by
  unfold stated JsonValue.get?
  dsimp only
  rcases default_ok.mp h with ⟨hnone, rfl⟩ | ⟨_, hsome⟩
  · rw [hnone]
    rfl
  · obtain ⟨s, hs, hlookup⟩ := enum_ok.mp hsome
    simp [hs, taskType?, hlookup]

end

section
variable {fmt : Formats} {request : JsonValue} {body : CreateJobBody}

/-- The outer values of an accepted request. -/
theorem accepted_outer (h : validate (createJobSchema fmt) request = .ok body) :
    body.taskType = (stated taskType? "task_type" request).getD .simulated ∧
      body.priority = (stated natural? "priority" request).getD 0 ∧
      body.maxAttempts = (stated natural? "max_attempts" request).getD 3 := by
  obtain ⟨members, hreq, hacc⟩ := createJobSchema_ok (validate_ok.mp h)
  cases hreq
  exact ⟨taskTypeEnum_stated hacc.taskType, naturalUpTo_stated hacc.priority,
    naturalUpTo_stated hacc.maxAttempts⟩

/-- The values of an item: its own ones, or the schema's. -/
theorem accepted_item (h : validate (createJobSchema fmt) request = .ok body) {i : Nat}
    {b : BatchJobBody} (hb : (body.batchJobs.getD [])[i]? = some b) :
    ∃ item, (batchItems request)[i]? = some item ∧
      b.taskType = (stated taskType? "task_type" item).getD .simulated ∧
      b.priority = (stated natural? "priority" item).getD 0 ∧
      b.maxAttempts = (stated natural? "max_attempts" item).getD 3 := by
  obtain ⟨members, hreq, hacc⟩ := createJobSchema_ok (validate_ok.mp h)
  cases hreq
  rcases optional_ok.mp hacc.batchJobs with ⟨_, hnone⟩ | ⟨_, xs, hxs, hsome⟩
  · rw [hnone] at hb
    cases hb
  · obtain ⟨vs, hvs, hall⟩ := array_ok hxs
    rw [hsome, Option.getD_some] at hb
    obtain ⟨item, hitem, p, hp⟩ := getElem?_of_forall₂ hall hb
    obtain ⟨ms, hms, hb'⟩ := batchJobSchema_ok hp
    have hvs' : member members "batch_jobs" = some (.array vs) := hvs
    cases hms
    exact ⟨.object ms, by simpa [batchItems, JsonValue.get?, hvs'] using hitem,
      taskTypeEnum_stated hb'.taskType, naturalUpTo_stated hb'.priority,
      naturalUpTo_stated hb'.maxAttempts⟩

end

/-! ## §3. The rows of a request. -/

/-- The rows inserted so far are those of the first items, also when the request has
failed since. -/
def Submit.Prefixed (r : Submit) : Prop :=
  ∃ done rest, r.body.items (r.batch.map Prod.fst) = done ++ rest ∧ r.RowsFor done r.created

/-- The rows created so far are those of the first items. -/
theorem Submit.Shape.prefixed {r : Submit} (hS : r.Shape)
    (h : r.pc.writing = true ∨ r.created = []) : r.Prefixed := by
  rcases h with hw | hc
  · obtain ⟨done, hitems, hrows⟩ := hS.items hw
    exact ⟨done, r.todo, hitems, hrows⟩
  · exact ⟨[], _, rfl, by rw [hc]; exact .nil⟩

theorem Submit.nextEdge_writing (r : Submit) (j : UUID) (ds : List UUID) (items : List JobItem) :
    (r.nextEdge j ds items).writing = true := by
  cases ds
  · cases items <;> rfl
  · rfl

/-- A statement of the request creates the row of the next item. -/
theorem Submit.Prefixed.step {cfg : Config} {env : Env} {db db' : Db} {r r' : Submit}
    (hP : r.Prefixed) (hS : r.Shape) (h : Submit.Stepped cfg env r db db' r') : r'.Prefixed := by
  have hS' := hS.step h
  cases h with
  | failed err => exact hP
  | queueChecked hpc shardKey => exact hS'.prefixed (.inr (hS.fresh (.inl (by rw [hpc]; rfl))).2)
  | dependenciesChecked hpc satisfied _ =>
      refine hS'.prefixed (.inr ?_)
      obtain ⟨pc, heq, _⟩ := Submit.dispatch_eq cfg env.now
        { r with initialStatus := initialJobStatus r.body.type satisfied }
      rw [heq]
      exact (hS.fresh (.inl (by rw [hpc]; rfl))).2
  | batchInserted hpc _ q hq =>
      subst hq
      exact hS'.prefixed (.inr (hS.fresh (.inl (by rw [hpc]; rfl))).2)
  | jobInserted | attached => exact hS'.prefixed (.inl (Submit.nextEdge_writing _ _ _ _))
  | scheduleInserted | published | replied => exact hS'.prefixed (.inl rfl)

/-- Every request of a run. -/
theorem prefixed_run {cfg : Config} {clock : Timestamp} {db : Db} {tr : List (Sys × Action)} {s : Sys}
    (hrun : SysRun cfg (Sys.atRest clock db) tr s) :
    ∀ k r, s.proc k = some (.submit r) → r.Shape ∧ r.Prefixed := by
  induction hrun with
  | nil => intro k r hk; simp at hk
  | snoc _ hs ih =>
      intro k r' hk
      cases origin hs hk with
      | idle hk₀ _ => exact ih k r' hk₀
      | started request _ hp _ =>
          cases request <;> cases hp
          exact ⟨Submit.shape_fresh rfl rfl (.inl rfl),
            (Submit.shape_fresh rfl rfl (.inl rfl)).prefixed (.inr rfl)⟩
      | moved env p _ hk₀ hstep =>
          obtain ⟨r, rfl, hr⟩ := submit_of_step hstep
          obtain ⟨hS, hP⟩ := ih k r hk₀
          exact ⟨hS.step (Submit.stepped hr), hP.step hS (Submit.stepped hr)⟩

/-! ## §4. Inheritance. -/

section
variable {fmt : Formats} {request item : JsonValue} {body : CreateJobBody}

/-- The `i`-th row inserted is that of the `i`-th item. -/
theorem Submit.Prefixed.row_of_item {r : Submit} {i : Nat} {id : UUID} {row : Job} (hP : r.Prefixed)
    (hrow : r.created[i]? = some (id, row)) :
    ∃ jobItem now, (r.body.items (r.batch.map Prod.fst))[i]? = some jobItem ∧
      row = r.row now jobItem := by
  obtain ⟨done, rest, hitems, hrows⟩ := hP
  obtain ⟨jobItem, hitem, now, hval⟩ := getElem?_of_forall₂ hrows hrow
  refine ⟨jobItem, now, ?_, hval⟩
  rw [hitems, List.getElem?_append_left (List.getElem?_eq_some_iff.mp hitem).1]
  exact hitem

/-- The values that the `i`-th INSERT of a batch writes. -/
theorem Submit.Prefixed.batch_row {r : Submit} {hsound : body.Sound fmt} {i : Nat} {id : UUID}
    {row : Job} (hP : r.Prefixed) (hbody : r.body = body.toInput fmt hsound) (ht : body.type = .batch)
    (hrow : r.created[i]? = some (id, row)) :
    ∃ b, (body.batchJobs.getD [])[i]? = some b ∧ row.taskType = b.taskType ∧
      row.priority = (if b.priority = 0 then body.priority else b.priority) ∧
      row.maxAttempts = (if b.maxAttempts = 0 then body.maxAttempts else b.maxAttempts) := by
  obtain ⟨jobItem, now, hmem, rfl⟩ := hP.row_of_item hrow
  have htype : r.body.type = .batch := by rw [hbody]; exact ht
  unfold CreateJobInput.items at hmem
  rw [htype] at hmem
  cases hB : r.batch.map Prod.fst with
  | none => simp [hB] at hmem
  | some B =>
      rw [hB] at hmem
      simp only [hbody, CreateJobBody.toInput, List.map_map, List.getElem?_map,
        Option.map_eq_some_iff] at hmem
      obtain ⟨b, hb, rfl⟩ := hmem
      exact ⟨b, hb, rfl, rfl, rfl⟩

/-- **One item.** -/
theorem inherits_iff {row : Job} {b : BatchJobBody}
    (houter : body.taskType = (stated taskType? "task_type" request).getD .simulated ∧
      body.priority = (stated natural? "priority" request).getD 0 ∧
      body.maxAttempts = (stated natural? "max_attempts" request).getD 3)
    (hitem : b.taskType = (stated taskType? "task_type" item).getD .simulated ∧
      b.priority = (stated natural? "priority" item).getD 0 ∧
      b.maxAttempts = (stated natural? "max_attempts" item).getD 3)
    (hpos : 1 ≤ b.maxAttempts) (htask : row.taskType = b.taskType)
    (hprio : row.priority = (if b.priority = 0 then body.priority else b.priority))
    (hmax : row.maxAttempts = (if b.maxAttempts = 0 then body.maxAttempts else b.maxAttempts)) :
    row.Inherits request item ↔ Inheritable request item := by
  have hmax' : row.maxAttempts = b.maxAttempts := by rw [hmax, if_neg (by omega)]
  have hfields : row.Inherits request item ↔
      row.taskType = inherited taskType? "task_type" .simulated request item ∧
      row.priority = inherited natural? "priority" 0 request item ∧
      row.maxAttempts = inherited natural? "max_attempts" 3 request item :=
    ⟨fun h => ⟨h.1, h.2, h.3⟩, fun h => ⟨h.1, h.2.1, h.2.2⟩⟩
  have hconds : Inheritable request item ↔
      ((stated taskType? "task_type" item).isSome ∨
        (stated taskType? "task_type" request).getD .simulated = .simulated) ∧
      (stated natural? "priority" item = some 0 → (stated natural? "priority" request).getD 0 = 0) ∧
      ((stated natural? "max_attempts" item).isSome ∨
        (stated natural? "max_attempts" request).getD 3 = 3) :=
    ⟨fun h => ⟨h.1, h.2, h.3⟩, fun h => ⟨h.1, h.2.1, h.2.2⟩⟩
  rw [hfields, hconds, htask, hprio, hmax', hitem.1, hitem.2.1, hitem.2.2, houter.2.1]
  unfold inherited
  refine and_congr ?_ (and_congr ?_ ?_)
  · cases stated taskType? "task_type" item <;> simp [eq_comm]
  · -- a stated zero is taken for none
    cases hs : stated natural? "priority" item with
    | none => simp
    | some n =>
        by_cases hn : n = 0 <;> simp [hn]
  · cases stated natural? "max_attempts" item <;> simp [eq_comm]

end

/-- **Batch items inherit exactly when there is nothing to inherit.**  In every run of the
system and for every accepted batch request: the rows inserted so far have what their items
should inherit if and only if each of these items states its task type and its attempts, or
the request means the schema's defaults, and none states priority zero under a request with
another priority. -/
theorem batch_inheritance_iff {cfg : Config} {clock : Timestamp} {db : Db}
    {tr : List (Sys × Action)} {s : Sys} {fmt : Formats} {request : JsonValue} {body : CreateJobBody}
    {k : Nat} {r : Submit} (hrun : SysRun cfg (Sys.atRest clock db) tr s)
    (haccept : validate (createJobSchema fmt) request = .ok body) (ht : body.type = .batch)
    (hk : s.proc k = some (.submit r))
    (hbody : r.body = body.toInput fmt (CreateJobBody.sound_of_accepted haccept)) :
    (∀ (i : Nat) (id : UUID) (row : Job) (item : JsonValue), r.created[i]? = some (id, row) →
      (batchItems request)[i]? = some item → row.Inherits request item) ↔
    ∀ (i : Nat) (item : JsonValue), i < r.created.length → (batchItems request)[i]? = some item →
      Inheritable request item := by
  have hP := (prefixed_run hrun k r hk).2
  have hone : ∀ (i : Nat) (id : UUID) (row : Job) (item : JsonValue), r.created[i]? = some (id, row) →
      (batchItems request)[i]? = some item →
      (row.Inherits request item ↔ Inheritable request item) := by
    intro i id row item hrow hitem
    obtain ⟨b, hb, htask, hprio, hmax⟩ := hP.batch_row hbody ht hrow
    obtain ⟨item', hitem', hvalues⟩ := accepted_item haccept hb
    rw [hitem] at hitem'
    cases hitem'
    exact inherits_iff (accepted_outer haccept) hvalues
      ((CreateJobBody.sound_of_accepted haccept).batchMaxAttempts b (List.mem_of_getElem? hb))
      htask hprio hmax
  constructor
  · intro h i item hi hitem
    have hrow : r.created[i]? = some (r.created[i].1, r.created[i].2) := List.getElem?_eq_getElem hi
    exact (hone i _ _ item hrow hitem).mp (h i _ _ item hrow hitem)
  · intro h i id row item hrow hitem
    exact (hone i id row item hrow hitem).mpr (h i item (List.getElem?_eq_some_iff.mp hrow).1 hitem)

/-! ## §5. A request with one item. -/

/-- Formats that accept every URL and no date. -/
def Formats.small : Formats := { isUrl := fun _ => true, datetime := fun _ => none, stringify := fun _ => "" }

/-- A batch request with one item. -/
def batchRequest (outer item : List (String × JsonValue)) : JsonValue :=
  .object (("type", .string "batch") :: ("batch_jobs", .array [.object item]) :: outer)

/-- A natural number as JSON. -/
def jsonNatural (n : Nat) : JsonValue := .number (.finite n)

/-- What the schema makes of a request with one item. -/
def CreateJobBody.oneItem (taskType : TaskType) (priority maxAttempts : Nat) (item : BatchJobBody) :
    CreateJobBody where
  type := .batch
  taskType := taskType
  payload := []
  priority := priority
  maxAttempts := maxAttempts
  idempotencyKey := none
  dependsOn := []
  callbackUrl := none
  delayMs := none
  runAt := none
  cronExpression := none
  batchJobs := some [item]

/-- The request states task type, priority and attempts, the item priority zero. -/
def outerRequest : JsonValue :=
  batchRequest [("task_type", .string "http"), ("priority", jsonNatural 7), ("max_attempts", jsonNatural 5)]
    [("priority", jsonNatural 0)]

/-- A batch whose values stand outside its only item. -/
def outerBody : CreateJobBody :=
  .oneItem .http 7 5
    { taskType := .simulated, payload := [], priority := 0, maxAttempts := 3, idempotencyKey := none }

/-- The item states all three. -/
def itemRequest : JsonValue :=
  batchRequest [] [("task_type", .string "http"), ("priority", jsonNatural 7),
    ("max_attempts", jsonNatural 5)]

/-- The same batch with the values in the item. -/
def itemBody : CreateJobBody :=
  .oneItem .simulated 0 3
    { taskType := .http, payload := [], priority := 7, maxAttempts := 5, idempotencyKey := none }

theorem outerBody_sound : outerBody.Sound Formats.small :=
  ⟨by decide, by decide, by decide, by decide, by decide, fun _ => by simp [outerBody, CreateJobBody.oneItem]⟩

theorem itemBody_sound : itemBody.Sound Formats.small :=
  ⟨by decide, by decide, by decide, by decide, by decide, fun _ => by simp [itemBody, CreateJobBody.oneItem]⟩

/-- User 1 posts the body to queue 1. -/
def postBatchActions (body : CreateJobInput) : List Action :=
  .start 0 (.submit 1 1 body) :: Action.runs 0 { now := 0, fresh := 7 } 6

theorem itemRequest_inheritable {i : Nat} {item : JsonValue}
    (h : (batchItems itemRequest)[i]? = some item) : Inheritable itemRequest item := by
  match i with
  | 0 =>
      obtain rfl := Option.some.inj h
      exact ⟨.inl (by rfl), fun h => absurd h (by decide), .inl (by rfl)⟩
  | i + 1 => cases h

theorem batch_inheritance_item :
    ∃ tr s r row, SysRun Config.small (Sys.atRest 0 (Db.small 1 [])) tr s ∧
      s.proc 0 = some (.submit r) ∧ r.created[0]? = some (7, row) ∧
      row.Inherits itemRequest (.object [("task_type", .string "http"), ("priority", jsonNatural 7),
        ("max_attempts", jsonNatural 5)]) := by
  let s := play (step Config.small) (Sys.atRest 0 (Db.small 1 []))
    (postBatchActions (itemBody.toInput Formats.small itemBody_sound))
  have hrun := run_of_play (step Config.small) (Sys.atRest 0 (Db.small 1 []))
    (postBatchActions (itemBody.toInput Formats.small itemBody_sound)) (by rfl)
  have haccept : validate (createJobSchema Formats.small) itemRequest = .ok itemBody := by rfl
  have hk : s.proc 0 = some (.submit _) := rfl
  have hinherits := (batch_inheritance_iff hrun haccept rfl hk rfl).mpr
    (fun _ _ _ h => itemRequest_inheritable h)
  exact ⟨_, s, _, _, hrun, hk, rfl, hinherits 0 7 _ _ rfl rfl⟩

/-- The task type and the attempts that the request states are replaced by the schema's
defaults, the zero that the item states by the request's priority. -/
theorem stated_values_dropped :
    ∃ tr s r row, SysRun Config.small (Sys.atRest 0 (Db.small 1 [])) tr s ∧
      validate (createJobSchema Formats.small) outerRequest = .ok outerBody ∧
      s.proc 0 = some (.submit r) ∧ r.body = outerBody.toInput Formats.small outerBody_sound ∧
      r.created[0]? = some (7, row) ∧
      (batchItems outerRequest)[0]? = some (.object [("priority", jsonNatural 0)]) ∧
      (row.taskType, row.priority, row.maxAttempts) = (.simulated, 7, 3) ∧
      ¬ row.Inherits outerRequest (.object [("priority", jsonNatural 0)]) := by
  have hrun := run_of_play (step Config.small) (Sys.atRest 0 (Db.small 1 []))
    (postBatchActions (outerBody.toInput Formats.small outerBody_sound)) (by rfl)
  exact ⟨_, _, _, _, hrun, by rfl, rfl, rfl, rfl, rfl, rfl, fun h => absurd h.priority (by decide)⟩

end JobScheduler
