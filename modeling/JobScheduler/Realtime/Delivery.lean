/-
  JobScheduler.Realtime.Delivery
  ──────────────────────────────
  Which `/ws` clients an event reaches.  The ledger of one event and one socket:
  the frames written to it and the emissions still due in its process make one
  together if the event was published in that process, and none otherwise.
-/
import JobScheduler.Realtime.Deployment
import JobScheduler.Library.Run

namespace JobScheduler

open Relational Transition

/-! ## §1. The ledger. -/

namespace Deployment

/-- The emissions of event `id` that are still due in process `k`. -/
def due (d : Deployment) (id k : Nat) : Nat :=
  d.emissions.count (fun _ e => decide (e.id = id) && decide (e.process = k))

/-- The events `n₀`, `n₀ + 1`, ... are those published in the run. -/
structure Accounted (n₀ : Nat) (d : Deployment) : Prop where
  grown : n₀ ≤ d.db.systemEvents.length
  recorded : ∀ id, (d.published.lookup id).isSome = true ↔ n₀ ≤ id ∧ id < d.db.systemEvents.length
  pending : ∀ site e, d.emissions.lookup site = some e → e.id < d.db.systemEvents.length
  hosted : ∀ c s, d.sockets.lookup c = some s → d.hasHub s.process = true
  unsent : ∀ c s id, d.sockets.lookup c = some s → d.db.systemEvents.length ≤ id → s.written id = 0
  balance : ∀ c s id pub, d.sockets.lookup c = some s → d.published.lookup id = some pub →
    s.since ≤ id → s.written id + d.due id s.process = if pub.process = s.process then 1 else 0

/-- A step that opens no socket and persists nothing: every socket and every
emission it leaves was there before, and what is written of an event is no longer due. -/
structure Keeps (d d' : Deployment) : Prop where
  events : d'.db.systemEvents = d.db.systemEvents
  published : d'.published = d.published
  emissions : ∀ site e, d'.emissions.lookup site = some e → d.emissions.lookup site = some e
  sockets : ∀ c s', d'.sockets.lookup c = some s' → ∃ s, d.sockets.lookup c = some s ∧
    s'.process = s.process ∧ s'.since = s.since ∧
    (d.hasHub s.process = true → d'.hasHub s.process = true ∧
      ∀ id, s'.written id + d'.due id s.process = s.written id + d.due id s.process)

variable {cfg : Config} {n₀ : Nat} {d d' : Deployment} {o : DeploymentAction}

/-- No emission of an event that is not persisted is due. -/
theorem Accounted.due_eq_zero (hA : Accounted n₀ d) {id : Nat} (hid : d.db.systemEvents.length ≤ id)
    (k : Nat) : d.due id k = 0 := by
  by_contra hne
  obtain ⟨site, e, he, hp⟩ := (Table.count_ne_zero _ _).mp hne
  simp only [Bool.and_eq_true, decide_eq_true_eq] at hp
  have hlt := hA.pending site e he
  omega

/-- A step that publishes and delivers nothing new keeps the account. -/
theorem Accounted.keeps (hA : Accounted n₀ d) (h : Keeps d d') : Accounted n₀ d' where
  grown := h.events ▸ hA.grown
  recorded := fun id => by rw [h.published, h.events]; exact hA.recorded id
  pending := fun site e he => h.events ▸ hA.pending site e (h.emissions site e he)
  hosted := fun c s' hs' => by
    obtain ⟨s, hs, hproc, _, hrest⟩ := h.sockets c s' hs'
    rw [hproc]
    exact (hrest (hA.hosted c s hs)).1
  unsent := fun c s' id hs' hid => by
    obtain ⟨s, hs, _, _, hrest⟩ := h.sockets c s' hs'
    rw [h.events] at hid
    have hsum := (hrest (hA.hosted c s hs)).2 id
    rw [hA.unsent c s id hs hid, hA.due_eq_zero hid] at hsum
    omega
  balance := fun c s' id pub hs' hpub hsince => by
    obtain ⟨s, hs, hproc, hop, hrest⟩ := h.sockets c s' hs'
    rw [hproc, (hrest (hA.hosted c s hs)).2 id]
    exact hA.balance c s id pub hs (h.published ▸ hpub) (hop ▸ hsince)

/-- The processes, emissions and sockets are untouched. -/
theorem keeps_of_eq (hev : d'.db.systemEvents = d.db.systemEvents) (hpub : d'.published = d.published)
    (hproc : d'.processes = d.processes) (hem : d'.emissions = d.emissions)
    (hsock : d'.sockets = d.sockets) : Keeps d d' where
  events := hev
  published := hpub
  emissions := fun site e he => hem ▸ he
  sockets := fun c s hs => by
    refine ⟨s, hsock ▸ hs, rfl, rfl, fun hhub => ⟨?_, fun id => ?_⟩⟩
    · unfold hasHub at hhub ⊢
      rw [hproc]
      exact hhub
    · unfold due
      rw [hem]

/-! ## §2. Each step keeps the ledger. -/

theorem hasHub_insert {k l : Nat} {p : Process} (h : d.hasHub l = true) (hne : l ≠ k) :
    ((d.processes.insert k p).lookup l).any (fun q => q.alive && decide (q.kind = .api)) = true := by
  rw [AList.lookup_insert_ne hne]
  exact h

theorem keeps_booted {k : Nat} {kind : ProcessKind} (hk : d.processes.lookup k = none) :
    Keeps d { d with processes := d.processes.insert k ⟨kind, true⟩ } where
  events := rfl
  published := rfl
  emissions := fun _ _ he => he
  sockets := fun c s hs => by
    refine ⟨s, hs, rfl, rfl, fun hhub => ⟨hasHub_insert hhub ?_, fun _ => rfl⟩⟩
    rintro rfl
    simp [hasHub, hk] at hhub

/-- The sockets of the other processes stay, and so do their emissions. -/
theorem keeps_exited (k : Nat) (p : Process) : Keeps d (d.without k p) where
  events := rfl
  published := rfl
  emissions := fun _ _ he => (Table.lookup_delete_eq_some.mp he).1
  sockets := fun c s hs => by
    obtain ⟨hold, hne⟩ := Table.lookup_delete_eq_some.mp hs
    have hne : s.process ≠ k := of_decide_eq_false hne
    refine ⟨s, hold, rfl, rfl, fun hhub => ⟨hasHub_insert hhub hne, fun id => ?_⟩⟩
    congr 1
    refine Table.count_congr (fun site => ?_)
    rw [Table.mem_keysWhere, Table.mem_keysWhere]
    constructor
    · rintro ⟨e, he, hp⟩
      exact ⟨e, (Table.lookup_delete_eq_some.mp he).1, hp⟩
    · rintro ⟨e, he, hp⟩
      refine ⟨e, Table.lookup_delete_eq_some.mpr ⟨he, ?_⟩, hp⟩
      simp only [Bool.and_eq_true, decide_eq_true_eq] at hp
      exact decide_eq_false (hp.2 ▸ hne)

/-- What an emission does to one socket: a frame for the event, if the socket is
in the process that emits. -/
theorem emit_socket {e : Emission} {throws : Finset Nat} {c : Nat} {s' : Socket}
    (h : (d.emitLocalEvent e throws).lookup c = some s') :
    ∃ s, d.sockets.lookup c = some s ∧ s'.process = s.process ∧ s'.since = s.since ∧
      s'.holder = s.holder ∧ (d.hasHub s.process = true → ∀ id,
        s'.written id = s.written id + if e.id = id ∧ e.process = s.process then 1 else 0) := by
  unfold emitLocalEvent at h
  split at h
  · obtain ⟨s, hs, rfl⟩ := broadcast_lookup h
    by_cases hk : s.process = e.process
    · rw [if_pos hk]
      refine ⟨s, hs, rfl, rfl, rfl, fun _ id => ?_⟩
      simp [Socket.written_write, Frame.carries, hk]
    · rw [if_neg hk]
      exact ⟨s, hs, rfl, rfl, rfl, fun _ id => by simp [Ne.symm hk]⟩
  · rename_i hno
    refine ⟨s', h, rfl, rfl, rfl, fun hhub id => ?_⟩
    have hne : e.process ≠ s'.process := fun heq => hno (heq ▸ hhub)
    simp [hne]

/-- An emission handed to the listeners leaves the others as they were. -/
theorem keeps_emitted {site : Site} {throws : Finset Nat} {e : Emission}
    (he : d.emissions.lookup site = some e) :
    Keeps d { d with emissions := d.emissions.erase site, sockets := d.emitLocalEvent e throws } where
  events := rfl
  published := rfl
  emissions := fun _ _ he' => (Table.lookup_erase_eq_some.mp he').2
  sockets := fun c s' hs' => by
    obtain ⟨s, hs, hproc, hop, _, hw⟩ := emit_socket hs'
    refine ⟨s, hs, hproc, hop, fun hhub => ⟨hhub, fun id => ?_⟩⟩
    have hcount := Table.count_erase
      (fun _ e => decide (e.id = id) && decide (e.process = s.process)) d.emissions site
    simp only [he, Option.any_some, Bool.and_eq_true, decide_eq_true_eq] at hcount
    rw [hw hhub id]
    simp only [due]
    omega

/-- Flushing moves frames, and drops none. -/
theorem keeps_flushed {c : Nat} {s s' : Socket} (hs : d.sockets.lookup c = some s)
    (hf : s.flush = some s') : Keeps d { d with sockets := d.sockets.insert c s' } where
  events := rfl
  published := rfl
  emissions := fun _ _ he => he
  sockets := fun c' t ht => by
    rcases Table.lookup_insert_eq_some.mp ht with ⟨rfl, rfl⟩ | ⟨_, ht⟩
    · obtain ⟨hproc, _, hop⟩ := Socket.flush_fields hf
      exact ⟨s, hs, hproc, hop, fun hhub => ⟨hhub, fun id => by rw [Socket.written_flush hf]; rfl⟩⟩
    · exact ⟨t, ht, rfl, rfl, fun hhub => ⟨hhub, fun _ => rfl⟩⟩

/-- A closed connection is out of the account. -/
theorem keeps_closed (c : Nat) : Keeps d { d with sockets := d.sockets.erase c } where
  events := rfl
  published := rfl
  emissions := fun _ _ he => he
  sockets := fun _ t ht =>
    ⟨t, (Table.lookup_erase_eq_some.mp ht).2, rfl, rfl, fun hhub => ⟨hhub, fun _ => rfl⟩⟩

/-- A new socket has seen all events that are persisted already. -/
theorem accounted_connected {c k : Nat} {r : Upgrade} (hA : Accounted n₀ d)
    (hk : d.hasHub k = true) :
    Accounted n₀ { d with
      sockets := d.sockets.insert c (r.socket k d.db.systemEvents.length d.sockets) } where
  grown := hA.grown
  recorded := hA.recorded
  pending := hA.pending
  hosted := fun c' s hs => by
    rcases Table.lookup_insert_eq_some.mp hs with ⟨_, rfl⟩ | ⟨_, hold⟩
    · exact hk
    · exact hA.hosted c' s hold
  unsent := fun c' s id hs hid => by
    rcases Table.lookup_insert_eq_some.mp hs with ⟨_, rfl⟩ | ⟨_, hold⟩
    · exact Upgrade.socket_written ..
    · exact hA.unsent c' s id hold hid
  balance := fun c' s id pub hs hpub hsince => by
    rcases Table.lookup_insert_eq_some.mp hs with ⟨_, rfl⟩ | ⟨_, hold⟩
    · have hlt := ((hA.recorded id).mp (by rw [hpub]; rfl)).2
      exact absurd hsince (Nat.not_le.mpr hlt)
    · exact hA.balance c' s id pub hold hpub hsince

section
variable {site : Site} {k : Nat} {now : Timestamp} {n : Nat} {ev : SystemEvent}

/-- A `publishEvent` call is recorded under the id of its row. -/
theorem persist_published (id : Nat) :
    (d.persist k site now n ev).published.lookup id
      = if id = n then some ⟨k, ev.entity.bind d.tenants⟩ else d.published.lookup id := by
  unfold persist
  rw [Table.lookup_insert_ite]

/-- The one new emission is that of the event. -/
theorem persist_emission {site' : Site} {e : Emission}
    (h : (d.persist k site now n ev).emissions.lookup site' = some e) :
    e.id = n ∨ d.emissions.lookup site' = some e := by
  unfold persist at h
  dsimp only at h
  split at h
  · rcases Table.lookup_insert_eq_some.mp h with ⟨_, rfl⟩ | ⟨_, hold⟩
    · exact .inl rfl
    · exact .inr hold
  · exact .inr h

/-- The emissions due after an event is persisted: one more in the process of the
call, if that is still running. -/
theorem due_persist (hfree : d.emissions.lookup site = none) (id l : Nat) :
    (d.persist k site now n ev).due id l
      = d.due id l + if d.isAlive k = true ∧ n = id ∧ k = l then 1 else 0 := by
  unfold due persist
  cases hk : d.isAlive k with
  | false => simp
  | true =>
      have hcount := Table.count_insert
        (fun _ e => decide (e.id = id) && decide (e.process = l)) d.emissions site ⟨k, n, ev⟩
      rw [hfree] at hcount
      simpa using hcount

theorem isAlive_of_hasHub (h : d.hasHub k = true) : d.isAlive k = true := by
  simp only [hasHub, Option.any_eq_true, Bool.and_eq_true] at h
  obtain ⟨p, hp, halive, _⟩ := h
  simp [isAlive, hp, halive]

/-- Of the new event nothing is written; it is due in the process of the call. -/
theorem Accounted.balance_new (hA : Accounted n₀ d) (hfree : d.emissions.lookup site = none)
    (now : Timestamp) {c : Nat} {s : Socket} (hs : d.sockets.lookup c = some s) :
    s.written d.db.systemEvents.length
        + (d.persist k site now d.db.systemEvents.length ev).due d.db.systemEvents.length s.process
      = if k = s.process then 1 else 0 := by
  rw [due_persist hfree, hA.unsent c s _ hs (Nat.le_refl _), hA.due_eq_zero (Nat.le_refl _)]
  by_cases hk : k = s.process
  · subst hk
    simp [isAlive_of_hasHub (hA.hosted c s hs)]
  · simp [hk]

/-- A published event is due to each socket that was there. -/
theorem accounted_published {env : Env} {v : Service} (hA : Accounted n₀ d)
    (hfree : d.emissions.lookup site = none) (hev : v.db.systemEvents = d.db.systemEvents ++ [ev]) :
    Accounted n₀ ((d.carryOn cfg site env v).persist k site env.now d.db.systemEvents.length ev) := by
  have hlen : v.db.systemEvents.length = d.db.systemEvents.length + 1 := by
    rw [hev, List.length_append, List.length_singleton]
  have hle := hA.grown
  refine ⟨?grown, fun id => ?recorded, fun site' e he => ?pending, hA.hosted,
    fun c s id hs hid => ?unsent, fun c s id pub hs hpub hsince => ?balance⟩
  case grown =>
    show n₀ ≤ v.db.systemEvents.length
    omega
  case recorded =>
    show _ ↔ n₀ ≤ id ∧ id < v.db.systemEvents.length
    rw [persist_published]
    split
    · simp only [Option.isSome_some, true_iff]
      omega
    · have hrec := hA.recorded id
      show (d.published.lookup id).isSome = true ↔ _
      rw [hrec]
      omega
  case pending =>
    show e.id < v.db.systemEvents.length
    rcases persist_emission he with hid | hold
    · omega
    · have hlt := hA.pending site' e hold
      omega
  case unsent =>
    change v.db.systemEvents.length ≤ id at hid
    exact hA.unsent c s id hs (by omega)
  case balance =>
    rw [persist_published] at hpub
    split at hpub
    · rename_i hid
      subst hid
      cases hpub
      exact hA.balance_new hfree env.now hs
    · rename_i hid
      rw [due_persist (d := d.carryOn cfg site env v) hfree, if_neg (fun h => hid h.2.1.symm)]
      exact hA.balance c s id pub hs hpub hsince

end

/-- One step keeps the account of every event and every socket. -/
theorem accounted_step (hA : Accounted n₀ d) (h : d.step cfg o = some d') : Accounted n₀ d' := by
  cases stepped h with
  | waited ms v hdb => exact hA.keeps (keeps_of_eq (congrArg Db.systemEvents hdb) rfl rfl rfl rfl)
  | booted k kind hk => exact hA.keeps (keeps_booted hk)
  | exited k p => exact hA.keeps (keeps_exited k p)
  | arrived k a v hdb => exact hA.keeps (keeps_of_eq (congrArg Db.systemEvents hdb) rfl rfl rfl rfl)
  | carried site env v _ hev => exact hA.keeps (keeps_of_eq hev rfl rfl rfl rfl)
  | published site env k v ev _ hfree _ _ hev => exact accounted_published hA hfree hev
  | emitted site throws e he => exact hA.keeps (keeps_emitted he)
  | notified i => exact hA.keeps (keeps_of_eq rfl rfl rfl rfl rfl)
  | connected c k r _ hk => exact accounted_connected hA hk
  | refused c k r => exact hA
  | closed c => exact hA.keeps (keeps_closed c)
  | flushed c s s' hs hf => exact hA.keeps (keeps_flushed hs hf)

theorem accounted_atRest (clock : Timestamp) (db : Db) (directory : Directory)
    (createdAt : Nat → Timestamp) :
    Accounted db.systemEvents.length (atRest clock db directory createdAt) where
  grown := Nat.le_refl _
  recorded := fun id => by
    show (none : Option Publication).isSome = true ↔ _ ≤ id ∧ id < db.systemEvents.length
    simp only [Option.isSome_none, Bool.false_eq_true, false_iff]
    omega
  pending := fun _ _ he => by cases he
  hosted := fun _ _ hs => by cases hs
  unsent := fun _ _ _ hs => by cases hs
  balance := fun _ _ _ _ hs => by cases hs

/-- The account in every reachable deployment. -/
theorem accounted_run {clock : Timestamp} {db : Db} {directory : Directory}
    {createdAt : Nat → Timestamp} {tr : List (Deployment × DeploymentAction)}
    (h : DeploymentRun cfg (atRest clock db directory createdAt) tr d) :
    Accounted db.systemEvents.length d :=
  h.invariant (G := fun _ _ => True) (fun _ _ _ hA _ hs => accounted_step hA hs) (by simp)
    (accounted_atRest clock db directory createdAt)

/-! ## §3. Quiescent states. -/

/-- The client is inside a `publishEvent` call, and its process is running. -/
def calling (d : Deployment) (site : Site) (call : Option PublishStatement) : Bool :=
  call.isSome && (d.hosts.lookup site).any d.isAlive

/-- No `publishEvent` call, notification or socket write is pending. -/
def quiescent (d : Deployment) : Bool :=
  d.service.sys.clients.all (fun pid c => !d.calling (.client pid) c.proc.publishing)
    && d.service.accounts.all (fun pid c => !d.calling (.account pid) c.account.publishing)
    && d.emissions.all (fun _ _ => false)
    && d.notifications.isEmpty
    && d.sockets.all (fun _ s => s.outbox.isEmpty)

/-- In a quiescent state nothing is due. -/
theorem quiescent_due (h : d.quiescent = true) (id k : Nat) : d.due id k = 0 := by
  simp only [quiescent, Bool.and_eq_true] at h
  by_contra hne
  obtain ⟨site, e, he, _⟩ := (Table.count_ne_zero _ _).mp hne
  have hno := (Table.all_iff _ _).mp h.1.1.2 site e he
  cases hno

/-- In a quiescent state everything written has been sent. -/
theorem quiescent_outbox (h : d.quiescent = true) {c : Nat} {s : Socket}
    (hs : d.sockets.lookup c = some s) : s.outbox = [] := by
  simp only [quiescent, Bool.and_eq_true] at h
  exact List.isEmpty_iff.mp ((Table.all_iff _ _).mp h.2 c s hs)

/-- **An event reaches exactly the clients of the process that published it.**  In
every run of any number of processes, for every event persisted in it and every
quiescent state: a client that has been connected since before the publication
has been sent exactly one frame with the event if and only if `publishEvent` ran
in the process that the client is connected to. -/
theorem delivered_once_iff {clock : Timestamp} {db : Db} {directory : Directory}
    {createdAt : Nat → Timestamp} {tr : List (Deployment × DeploymentAction)}
    (h : DeploymentRun cfg (atRest clock db directory createdAt) tr d) (hq : d.quiescent = true)
    (id : Nat) (hnew : db.systemEvents.length ≤ id) (hid : id < d.db.systemEvents.length) :
    ∃ pub, d.published.lookup id = some pub ∧
      ∀ c s, d.sockets.lookup c = some s → s.since ≤ id →
        (s.received id = 1 ↔ pub.process = s.process) := by
  have hA := accounted_run h
  obtain ⟨pub, hpub⟩ := Option.isSome_iff_exists.mp ((hA.recorded id).mpr ⟨hnew, hid⟩)
  refine ⟨pub, hpub, fun c s hs hsince => ?_⟩
  have hsum := hA.balance c s id pub hs hpub hsince
  rw [quiescent_due hq, Socket.written_of_idle (quiescent_outbox hq hs)] at hsum
  split at hsum <;> simp_all

/-- Job 7 is queued; nothing runs. -/
def small : Deployment := atRest 0 (Db.small 1 [(7, Job.small .queued)]) Directory.small (fun _ => 0)

/-- An API process, a worker process, and a `/ws` client of user 1. -/
def bootActions : List DeploymentAction :=
  [.boot 0 .api, .boot 1 .worker, .connect 0 0 ⟨"/ws", some "key", some 1⟩]

/-- `n` statements of one client, all alike. -/
def statements (site : Site) (env : Env) (n : Nat) : List DeploymentAction :=
  List.replicate n (.statement site env)

/-- User 1 renames queue 1: `queue.updated` is published by the API process. -/
def patchActions : List DeploymentAction :=
  bootActions ++ [.arrive 0 (.client 10 (.patch 1 1 { name := some "q" }))]
    ++ statements (.client 10) { now := 0 } 2 ++ [.emit (.client 10) ∅]
    ++ statements (.client 10) { now := 0 } 1 ++ [.notified 0, .flush 0, .flush 0]

theorem delivered_once_iff_patch :
    ∃ d s, d = play (step Config.small) small patchActions ∧ d.sockets.lookup 0 = some s ∧
      s.received 0 = 1 := by
  have hrun := run_of_play (step Config.small) small patchActions (by rfl)
  obtain ⟨pub, hpub, hiff⟩ := delivered_once_iff hrun (by rfl) 0 (by decide) (by decide)
  -- the record names process 0
  cases hpub
  exact ⟨_, _, rfl, rfl, (hiff 0 _ rfl (by decide)).mpr rfl⟩

/-- The worker claims job 7 and publishes `job.running`. -/
def claimActions : List DeploymentAction :=
  bootActions ++ [.arrive 1 (.client 10 (.claim 5 none none))]
    ++ statements (.client 10) { now := 0, pick := some 7 } 8 ++ [.emit (.client 10) ∅]
    ++ statements (.client 10) { now := 0 } 1 ++ [.notified 0, .flush 0]

/-- Everything has been handed over, and the client, connected throughout, has not
been sent `job.running`. -/
theorem running_event_undelivered :
    ∃ tr d s ev, DeploymentRun Config.small small tr d ∧ d.quiescent = true ∧
      d.db.systemEvents[0]? = some ev ∧ ev.eventType = .jobRunning ∧
      d.sockets.lookup 0 = some s ∧ s.since ≤ 0 ∧ s.received 0 = 0 :=
  ⟨_, _, _, _, run_of_play (step Config.small) small claimActions (by rfl), by rfl, rfl, rfl, rfl,
    by decide, rfl⟩

end Deployment

end JobScheduler
