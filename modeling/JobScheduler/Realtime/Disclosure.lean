/-
  JobScheduler.Realtime.Disclosure
  ────────────────────────────────
  Who gets to see an event.  Neither outlet asks: GET /events lists the rows of
  all organisations to whoever is registered, and the hub writes each frame to
  every socket of the process, whoever holds it.
-/
import JobScheduler.Realtime.Delivery
import JobScheduler.Routes.Events

namespace JobScheduler

open Relational Transition

namespace Deployment

/-! ## §1. Disclosure. -/

/-- Event `id` was published in the run, and the row it describes belongs, or
belonged, to the organisation. -/
def Describes (d : Deployment) (id : Nat) (orgId : UUID) : Prop :=
  (d.published.lookup id).bind (·.organization) = some orgId

/-- The user has a role in the organisation. -/
def isMember (d : Deployment) (orgId userId : UUID) : Bool := (d.db.roleIn orgId userId).isSome

/-- The holder of the socket is a member of the organisation. -/
def seats (d : Deployment) (orgId : UUID) (s : Socket) : Bool := s.holder.any (d.isMember orgId)

/-- What can be disclosed in this state stays inside its organisation. -/
structure Confined (cfg : Config) (d : Deployment) : Prop where
  /-- No reply of GET /events, on any page and with any filter, lists an event to
  a user who is not a member. -/
  listed : ∀ (r : EventsRequest) (page : Page EventView),
    r.Replies d.createdAt d.service.store (.events page) →
    ∀ row ∈ page.data, ∀ orgId, d.Describes row.id orgId →
      ∃ userId, r.authorization = .verified userId ∧ d.isMember orgId userId = true
  /-- No step writes a frame of it to the socket of anybody else. -/
  pushed : ∀ o d' c s s' id, d.step cfg o = some d' → d.sockets.lookup c = some s →
    d'.sockets.lookup c = some s' → s.written id < s'.written id →
    ∀ orgId, d.Describes id orgId → d.seats orgId s = true

/-- All registered users are members of every organisation that has an event, and
all sockets of a process that is about to emit one are held by members. -/
structure MembersOnly (d : Deployment) : Prop where
  users : ∀ userId ∈ d.service.directory.users, ∀ id orgId, d.Describes id orgId →
    d.isMember orgId userId = true
  sockets : ∀ site e, d.emissions.lookup site = some e → ∀ orgId, d.Describes e.id orgId →
    ∀ c s, d.sockets.lookup c = some s → s.process = e.process → d.seats orgId s = true

/-! ## §2. Only an emission writes event frames. -/

variable {cfg : Config} {n₀ : Nat} {d d' : Deployment} {o : DeploymentAction} {c : Nat} {s s' : Socket}

/-- What a step does to a socket that stays: it leaves it alone, sends a frame,
or emits an event. -/
inductive SocketStep (d : Deployment) (c : Nat) (s s' : Socket) : Prop
  | same (h : s' = s)
  | flushed (h : s.flush = some s')
  | emitted (site : Site) (throws : Finset Nat) (e : Emission) (he : d.emissions.lookup site = some e)
      (hs' : (d.emitLocalEvent e throws).lookup c = some s')

/-- What one step writes to a socket. -/
theorem socketStep (h : d.step cfg o = some d') (hs : d.sockets.lookup c = some s)
    (hs' : d'.sockets.lookup c = some s') : SocketStep d c s s' := by
  cases stepped h with
  | waited | booted | arrived | carried | published | notified | refused =>
      exact .same (Option.some.inj (hs'.symm.trans hs))
  | exited k p =>
      have hold := (Table.lookup_delete_eq_some.mp hs').1
      exact .same (Option.some.inj (hold.symm.trans hs))
  | emitted site throws e he => exact .emitted site throws e he hs'
  | connected c' k r hc _ =>
      have hne : c ≠ c' := by
        rintro rfl
        rw [hc] at hs
        cases hs
      rw [Table.lookup_insert_ite, if_neg hne] at hs'
      exact .same (Option.some.inj (hs'.symm.trans hs))
  | closed c' =>
      have hold := (Table.lookup_erase_eq_some.mp hs').2
      exact .same (Option.some.inj (hold.symm.trans hs))
  | flushed c' t t' ht hf =>
      rcases Table.lookup_insert_eq_some.mp hs' with ⟨rfl, rfl⟩ | ⟨_, hold⟩
      · obtain rfl := Option.some.inj (ht.symm.trans hs)
        exact .flushed hf
      · exact .same (Option.some.inj (hold.symm.trans hs))

/-- An event is written to a socket only when its emission is handed over. -/
theorem emitted_of_written (h : d.step cfg o = some d') (hs : d.sockets.lookup c = some s)
    (hs' : d'.sockets.lookup c = some s') (hhub : d.hasHub s.process = true) {id : Nat}
    (hlt : s.written id < s'.written id) :
    ∃ site e, d.emissions.lookup site = some e ∧ e.id = id ∧ s.process = e.process := by
  cases socketStep h hs hs' with
  | same heq =>
      rw [heq] at hlt
      omega
  | flushed hf =>
      rw [Socket.written_flush hf] at hlt
      omega
  | emitted site throws e he hw =>
      obtain ⟨t, ht, _, _, _, hw⟩ := emit_socket hw
      obtain rfl := Option.some.inj (ht.symm.trans hs)
      rw [hw hhub id] at hlt
      split at hlt
      · rename_i hcond
        exact ⟨site, e, he, hcond.1, hcond.2.symm⟩
      · omega

/-- Every due emission can write its frame to every socket of its process. -/
theorem exists_emit (cfg : Config) {site : Site} {e : Emission} (he : d.emissions.lookup site = some e)
    (hs : d.sockets.lookup c = some s) (hk : s.process = e.process) (hhub : d.hasHub s.process = true) :
    ∃ d' s', d.step cfg (.emit site ∅) = some d' ∧ d'.sockets.lookup c = some s' ∧
      s.written e.id < s'.written e.id := by
  refine ⟨_, s.write (.event e.id e.event), by simp only [step, he, Option.map_some]; rfl, ?_, ?_⟩
  · show (d.emitLocalEvent e ∅).lookup c = _
    unfold emitLocalEvent
    rw [if_pos (hk ▸ hhub)]
    exact broadcast_reaches hs hk
  · simp [Socket.written_write, Frame.carries]

/-! ## §3. When events are confined. -/

/-- **Events stay inside their organisation only where everybody is a member.**  In
every state of every run of any number of processes: no page of GET /events and
no frame of the hub discloses an event to anybody outside its organisation, if
and only if all registered users, and the holders of all sockets that an event is
about to be written to, are members of it. -/
theorem events_confined_iff {clock : Timestamp} {db : Db} {directory : Directory}
    {createdAt : Nat → Timestamp} {tr : List (Deployment × DeploymentAction)}
    (h : DeploymentRun cfg (atRest clock db directory createdAt) tr d) :
    d.Confined cfg ↔ d.MembersOnly := by
  have hA := accounted_run h
  constructor
  · intro hc
    refine ⟨fun userId hu id orgId hdesc => ?_, fun site e he orgId hdesc c s hs hk => ?_⟩
    · -- the event is persisted, so the user can list it
      obtain ⟨pub, hpub, _⟩ := Option.bind_eq_some_iff.mp hdesc
      have hlt := ((hA.recorded id).mp (by rw [hpub]; rfl)).2
      obtain ⟨q, page, hreply, hmem⟩ := EventsRequest.exists_reply_listing d.createdAt
        d.service.store userId id hu (List.getElem?_eq_getElem hlt)
      obtain ⟨u, hu', hmember⟩ := hc.listed _ page hreply _ hmem orgId hdesc
      cases hu'
      exact hmember
    · obtain ⟨d', s', hstep, hs', hlt⟩ := exists_emit cfg he hs hk (hA.hosted c s hs)
      exact hc.pushed _ d' c s s' e.id hstep hs hs' hlt orgId hdesc
  · intro hm
    refine ⟨fun r page hreply row _ orgId hdesc => ?_, fun o d' c s s' id hstep hs hs' hlt orgId hdesc => ?_⟩
    · obtain ⟨userId, hauth, hu⟩ := EventsRequest.registered_of_replies hreply
      exact ⟨userId, hauth, hm.users userId hu row.id orgId hdesc⟩
    · obtain ⟨site, e, he, rfl, hk⟩ := emitted_of_written hstep hs hs' (hA.hosted c s hs) hlt
      exact hm.sockets site e he orgId hdesc c s hs hk

/-- `small` with user 1 alone. -/
def smallAlone : Deployment :=
  atRest 0 (Db.small 1 [(7, Job.small .queued)])
    { Directory.small with users := (∅ : Table UUID User).insert 1 ⟨"a@"⟩ } (fun _ => 0)

/-- `queue.updated` is persisted, and its emission is due. -/
theorem events_confined_iff_alone :
    (play (step Config.small) smallAlone (patchActions.take 6)).Confined Config.small ∧
      (play (step Config.small) smallAlone (patchActions.take 6)).db.systemEvents.length = 1 := by
  have hrun := run_of_play (step Config.small) smallAlone (patchActions.take 6) (by rfl)
  generalize hd : play (step Config.small) smallAlone (patchActions.take 6) = d at hrun ⊢
  have hpub : d.published = (∅ : Table Nat Publication).insert 0 ⟨0, some 1⟩ := by rw [← hd]; rfl
  have horg : ∀ id orgId, d.Describes id orgId → orgId = 1 := by
    intro id orgId hdesc
    rw [Describes, hpub, Table.lookup_insert_ite] at hdesc
    split at hdesc
    · exact (Option.some.inj hdesc).symm
    · cases hdesc
  refine ⟨(events_confined_iff hrun).mpr ⟨fun userId hu id orgId hdesc => ?_,
    fun site e _ orgId hdesc c s hs _ => ?_⟩, by rw [← hd]; rfl⟩
  · rw [horg id orgId hdesc]
    have husers : d.service.directory.users = (∅ : Table UUID User).insert 1 ⟨"a@"⟩ := by rw [← hd]; rfl
    rw [husers, AList.mem_insert] at hu
    obtain rfl | hu := hu
    · rw [← hd]
      rfl
    · cases hu
  · rw [horg e.id orgId hdesc]
    have hsockets : d.sockets = (∅ : Table Nat Socket).insert 0 ⟨0, some 1, 0, [.connected 1], []⟩ := by
      rw [← hd]
      rfl
    rw [hsockets, Table.lookup_insert_ite] at hs
    split at hs
    · cases hs
      rw [← hd]
      rfl
    · cases hs

/-- A `/ws` client without any account watches user 1 rename queue 1. -/
def watchActions : List DeploymentAction :=
  [.boot 0 .api, .connect 0 0 ⟨"/ws", some "key", none⟩,
    .arrive 0 (.client 10 (.patch 1 1 { name := some "q" }))]
    ++ statements (.client 10) { now := 0 } 2 ++ [.emit (.client 10) ∅]
    ++ statements (.client 10) { now := 0 } 1 ++ [.flush 0, .flush 0]

/-- Event 0 describes queue 1 of organisation 1.  It is sent to the anonymous
client, and user 2, who is not a member, reads it in GET /events. -/
theorem event_disclosed_to_outsiders :
    ∃ tr d q page row s, DeploymentRun Config.small small tr d ∧ d.Describes 0 1 ∧
      (EventsRequest.unfiltered 2 q).Replies d.createdAt d.service.store (.events page) ∧
      row ∈ page.data ∧ row.id = 0 ∧ d.isMember 1 2 = false ∧
      d.sockets.lookup 0 = some s ∧ s.holder = none ∧ s.received 0 = 1 := by
  have hrun := run_of_play (step Config.small) small watchActions (by rfl)
  obtain ⟨q, page, hreply, hmem⟩ := EventsRequest.exists_reply_listing
    (play (step Config.small) small watchActions).createdAt
    (play (step Config.small) small watchActions).service.store 2 0 (by decide) rfl
  exact ⟨_, _, q, page, _, _, hrun, rfl, hreply, hmem, rfl, rfl, rfl, rfl, rfl⟩

end Deployment

end JobScheduler
