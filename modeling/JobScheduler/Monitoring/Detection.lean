/-
  JobScheduler.Monitoring.Detection
  ─────────────────────────────────
  GET /workers as a failure detector.  The UPDATEs that a process sends of its row
  are the messages of a channel (`Library.Heartbeat`), and `last_heartbeat_at` is
  the stamp of the message received last.  So a process that has fallen silent is
  shown stale or offline after a while, and a process whose UPDATEs come in time is
  shown at work until it is told to stop.
-/
import JobScheduler.Execution.Shutdown
import JobScheduler.Library.Heartbeat
import JobScheduler.Monitoring.Presence

namespace JobScheduler

open Relational Transition

/-! ## §1. The end of a process. -/

namespace Worker

variable {s : Sys} {w u : Worker} {ev : WorkerEvent} {n : Option Nat}

/-- `gracefulShutdown` is past its wait loop. -/
def leaving (w : Worker) : Bool :=
  match w.shutdown with
  | .marking _ | .exiting _ | .exited _ _ => true
  | _ => false

/-- A worker that sends its last UPDATE is leaving. -/
theorem leaving_of_isMarking (h : w.isMarking = true) : w.leaving = true := by
  unfold isMarking at h
  split at h
  · rename_i hpc
    simp [leaving, hpc]
  · cases h

/-- A leaving worker has its shutdown flag set. -/
theorem leaving_flag (hflag : w.shutdown ≠ .idle → w.shuttingDown = true) (h : w.leaving = true) :
    w.shuttingDown = true := by
  refine hflag (fun hidle => ?_)
  simp [leaving, hidle] at h

/-- The wait loop of `gracefulShutdown` is not entered from behind it. -/
theorem not_leaving_of_checks (hflag : w.shutdown ≠ .idle → w.shuttingDown = true)
    (h : w.checks ev = true) : w.leaving = false := by
  by_contra hleaving
  rw [Bool.not_eq_false] at hleaving
  have hsd := leaving_flag hflag hleaving
  unfold leaving at hleaving
  unfold checks at h
  split at h
  · simp [hsd] at h
  all_goals
    first
    | cases h
    | split at h
      · simp [*] at hleaving
      · cases h

/-- No event takes the shutdown flag back. -/
theorem Stepped.shuttingDown (h : Stepped s w ev u n) (hsd : w.shuttingDown = true) :
    u.shuttingDown = true := by
  cases h with
  | polled v _ _ _ _ _ hv _ | parked v _ _ _ _ _ hv _ => exact hv.shuttingDown.trans hsd
  | freed n =>
      rcases free_cases { w with settling := n } with heq | ⟨_, _, _, heq⟩ <;> rw [heq] <;> exact hsd
  | signalled => rfl
  | waits _ sd _ _ _ _ _ hor | leaves _ sd _ _ _ _ _ hor _ =>
      rcases hor with rfl | ⟨rfl, _⟩
      · rfl
      · exact hsd
  | _ => exact hsd

/-- No event calls a leaving worker back. -/
theorem Stepped.leaving (hflag : w.shutdown ≠ .idle → w.shuttingDown = true)
    (h : Stepped s w ev u n) (hl : w.leaving = true) : u.leaving = true := by
  cases h with
  | polled v _ _ _ _ _ hv _ | parked v _ _ _ _ _ hv _ =>
      simpa only [Worker.leaving, stir, hv.frame.2.2] using hl
  | freed n =>
      rcases free_cases { w with settling := n } with heq | ⟨_, _, _, heq⟩ <;> rw [heq] <;> exact hl
  | signalled _ _ _ _ hlive =>
      rw [leaving_flag hflag hl] at hlive
      cases hlive
  | waits _ _ _ _ _ _ hev _ | leaves _ _ _ _ _ _ hev _ _ =>
      rw [not_leaving_of_checks hflag hev] at hl
      cases hl
  | settled | stirred => exact hl
  | marked | exited => rfl

/-- `gracefulShutdown` sends its UPDATE once. -/
theorem Stepped.isMarking (hflag : w.shutdown ≠ .idle → w.shuttingDown = true)
    (h : Stepped s w ev u n) (hm : u.isMarking = true) : w.isMarking = true ∨ w.leaving = false := by
  cases h with
  | polled v _ _ _ _ _ hv _ | parked v _ _ _ _ _ hv _ =>
      exact .inl (by simpa only [Worker.isMarking, stir, hv.frame.2.2] using hm)
  | freed n =>
      rcases free_cases { w with settling := n } with heq | ⟨_, _, _, heq⟩ <;> rw [heq] at hm <;>
        exact .inl hm
  | leaves _ _ _ _ _ _ hev _ _ => exact .inr (not_leaving_of_checks hflag hev)
  | settled | stirred => exact .inl hm
  | signalled | waits | marked | exited => cases hm

end Worker

/-! ## §2. A process, its heartbeat and its row. -/

/-- The time at which the callback sent the UPDATE that is under way. -/
def Beat.updateSent : Beat → Option Timestamp
  | .updating sentAt _ => some sentAt
  | _ => none

/-- The UPDATEs of the row that are under way. -/
def Pulse.sends (p : Pulse) : Multiset Timestamp :=
  ↑(p.beats.filterMap Beat.updateSent) + ↑p.mark.toList

/-- A statement under way that ends leaves the others. -/
theorem Beat.sends_erase {b : Beat} {beats : List Beat} (h : b ∈ beats) :
    (↑(beats.filterMap updateSent) : Multiset Timestamp)
      = ↑((b :: beats.erase b).filterMap updateSent) :=
  Multiset.coe_eq_coe.mpr ((List.perm_cons_erase h).filterMap _)

theorem Pulse.sends_mark (p : Pulse) {t : Timestamp} (h : p.mark = some t) :
    p.sends = t ::ₘ { p with mark := none }.sends := by
  simp only [sends, h, Option.toList_some, Option.toList_none, Multiset.coe_singleton,
    Multiset.coe_nil, add_zero]
  rw [add_comm, Multiset.singleton_add]

/-- The worker process `k`, its timer, its row and the row's stamp in the state `r`. -/
structure Presence.Post (r : Presence) (k : Nat) (w : Worker) (p : Pulse) (row : WorkerRow)
    (stamp : Timestamp) : Prop where
  worker_eq : r.fleet.workers.lookup k = some w
  pulse_eq : r.pulses.lookup k = some p
  row_eq : r.rows.lookup w.workerId = some row
  stamp_eq : row.lastHeartbeatAt = some stamp

/-- What `gracefulShutdown` has done to the heartbeat and to the row. -/
structure Seat (w : Worker) (p : Pulse) (row : WorkerRow) : Prop where
  armed : p.armed = !w.shuttingDown
  mark : p.mark.isSome = true → w.leaving = true
  offline : row.status = .offline → w.leaving = true
  beats : ∀ sentAt status, Beat.updating sentAt status ∈ p.beats → status ≠ .offline

/-- The heartbeat of one process as a channel: its sendings and the stamp of its row. -/
def Presence.channel (r : Presence) (p : Pulse) (stamp : Timestamp) : Heartbeat.Channel Timestamp :=
  ⟨r.clock, p.lastSent, p.sends, stamp⟩

/-- An UPDATE of the row is rejected. -/
def PulseEvent.rejectsUpdate : PulseEvent → Bool
  | .updated _ _ _ fails | .marked _ fails => fails
  | _ => false

/-- The action rejects a heartbeat UPDATE of the process `k`. -/
def PresenceAction.rejectsUpdate (k : Nat) : PresenceAction → Bool
  | .pulse l ev => decide (l = k) && ev.rejectsUpdate
  | _ => false

/-- `c'` is `c`, or what one event of the channel makes of it. -/
def Relays (lossy : Bool) (c c' : Heartbeat.Channel Timestamp) : Prop :=
  c' = c ∨ ∃ ev, Heartbeat.step c ev = some c' ∧ (ev.loses = true → lossy = true)

section
variable {clock : Timestamp} {w : Worker} {p p' : Pulse} {ev : PulseEvent} {out : Written}
variable {row : WorkerRow} {stamp : Timestamp}

theorem Pulse.statusOf_ne (w : Worker) : statusOf w ≠ .offline := by
  unfold statusOf
  split <;> simp

/-- The row after a statement of its process. -/
def Written.applied (row : WorkerRow) : Written → WorkerRow
  | .row status at_ => { row with status := status, lastHeartbeatAt := some at_ }
  | _ => row

/-- **One event of a heartbeat** is one of the channel, or none. -/
theorem Pulse.react_relays (hS : Seat w p row) (hstamp : row.lastHeartbeatAt = some stamp)
    (h : p.react clock w ev = some (p', out)) :
    Seat w p' (out.applied row) ∧ ∃ stamp', (out.applied row).lastHeartbeatAt = some stamp' ∧
      Relays ev.rejectsUpdate ⟨clock, p.lastSent, p.sends, stamp⟩
        ⟨clock, p'.lastSent, p'.sends, stamp'⟩ := by
  cases ev with
  | tick =>
      simp only [react] at h
      split at h
      · cases h
        refine ⟨⟨hS.armed, hS.mark, hS.offline, ?_⟩, stamp, hstamp,
          .inr ⟨.send, ?_, by simp [Heartbeat.Event.loses]⟩⟩
        · intro sentAt status hmem
          rcases List.mem_cons.mp hmem with heq | hmem
          · cases heq
            exact statusOf_ne w
          · exact hS.beats sentAt status hmem
        · simp [Heartbeat.step, sends, Beat.updateSent, ← Multiset.cons_coe]
      · cases h
  | updated sentAt status now fails =>
      simp only [react] at h
      split at h
      · rename_i hok
        obtain ⟨hmem, hle, hnow⟩ := hok
        have hsends : p.sends =
            sentAt ::ₘ { p with beats := p.beats.erase (.updating sentAt status) }.sends := by
          unfold sends
          rw [Beat.sends_erase hmem]
          simp [Beat.updateSent, ← Multiset.cons_coe]
        have hbeats :
            ∀ t st, Beat.updating t st ∈ p.beats.erase (.updating sentAt status) → st ≠ .offline :=
          fun t st hb => hS.beats t st (List.mem_of_mem_erase hb)
        cases fails with
        | true =>
            cases h
            refine ⟨⟨hS.armed, hS.mark, hS.offline, hbeats⟩, stamp, hstamp,
              .inr ⟨.lose sentAt, ?_, fun _ => rfl⟩⟩
            simp [Heartbeat.step, hsends]
        | false =>
            cases h
            refine ⟨⟨hS.armed, hS.mark, fun hoff => absurd hoff (hS.beats sentAt status hmem), ?_⟩,
              now, rfl, .inr ⟨.receive sentAt now, ?_, by simp [Heartbeat.Event.loses]⟩⟩
            · intro t st hb
              rcases List.mem_cons.mp hb with heq | hb
              · cases heq
              · exact hbeats t st hb
            · simp only [Heartbeat.step, hsends, Multiset.mem_cons_self, hle, hnow, and_self, if_true,
                Multiset.erase_cons_head]
              rfl
      · cases h
  | resumed =>
      simp only [react] at h
      split at h
      · rename_i hok
        cases h
        refine ⟨⟨hS.armed, hS.mark, hS.offline, ?_⟩, stamp, hstamp, .inl ?_⟩
        · intro t st hb
          rcases List.mem_cons.mp hb with heq | hb
          · cases heq
          · exact hS.beats t st (List.mem_of_mem_erase hb)
        · unfold sends
          rw [Beat.sends_erase hok.1]
          rfl
      · cases h
  | inserted sentAt count now fails =>
      simp only [react] at h
      split at h
      · rename_i hok
        have hsends : { p with beats := p.beats.erase (.inserting sentAt count) }.sends = p.sends := by
          unfold sends
          rw [Beat.sends_erase hok.1]
          rfl
        have hout : out.applied row = row := by
          cases fails <;> (cases h; rfl)
        have hp' : p' = { p with beats := p.beats.erase (.inserting sentAt count) } := by
          cases h
          rfl
        subst hp'
        rw [hout]
        refine ⟨⟨hS.armed, hS.mark, hS.offline, ?_⟩, stamp, hstamp, .inl ?_⟩
        · exact fun t st hb => hS.beats t st (List.mem_of_mem_erase hb)
        · rw [hsends]
      · cases h
  | marked now fails =>
      simp only [react] at h
      split at h
      · cases h
      · rename_i sentAt hmark
        split at h
        · rename_i hok
          obtain ⟨hle, hnow⟩ := hok
          have hleaving : w.leaving = true := hS.mark (by rw [hmark]; rfl)
          have hsends : p.sends = sentAt ::ₘ { p with mark := none }.sends := p.sends_mark hmark
          cases fails with
          | true =>
              cases h
              refine ⟨⟨hS.armed, by simp, hS.offline, hS.beats⟩, stamp, hstamp,
                .inr ⟨.lose sentAt, ?_, fun _ => rfl⟩⟩
              simp [Heartbeat.step, hsends]
          | false =>
              cases h
              refine ⟨⟨hS.armed, by simp, fun _ => hleaving, hS.beats⟩, now, rfl,
                .inr ⟨.receive sentAt now, ?_, by simp [Heartbeat.Event.loses]⟩⟩
              simp [Heartbeat.step, hsends, hle, hnow]
        · cases h

theorem Pulse.not_mem_of_sends {sentAt : Timestamp} {status : WorkerStatus} (h : p.sends = 0) :
    Beat.updating sentAt status ∉ p.beats := by
  intro hmem
  have hsent : sentAt ∈ p.beats.filterMap Beat.updateSent := List.mem_filterMap.mpr ⟨_, hmem, rfl⟩
  have hin : sentAt ∈ p.sends := Multiset.mem_add.mpr (.inl (Multiset.mem_coe.mpr hsent))
  rw [h] at hin
  exact Multiset.notMem_zero _ hin

/-- Without an interval and an UPDATE under way, no event writes the row. -/
theorem Pulse.react_closed (harmed : p.armed = false) (hsends : p.sends = 0)
    (h : p.react clock w ev = some (p', out)) : p'.sends = 0 ∧ out.applied row = row := by
  cases ev with
  | tick => simp [react, harmed] at h
  | updated sentAt status now fails => simp [react, not_mem_of_sends hsends] at h
  | resumed =>
      simp only [react] at h
      split at h
      · rename_i hok
        cases h
        refine ⟨?_, rfl⟩
        rw [← hsends]
        unfold sends
        rw [Beat.sends_erase hok.1]
        rfl
      · cases h
  | inserted sentAt count now fails =>
      simp only [react] at h
      split at h
      · rename_i hok
        have hp' : p' = { p with beats := p.beats.erase (.inserting sentAt count) } := by
          cases h
          rfl
        subst hp'
        refine ⟨?_, ?_⟩
        · rw [← hsends]
          unfold sends
          rw [Beat.sends_erase hok.1]
          rfl
        · cases fails <;> (cases h; rfl)
      · cases h
  | marked now fails =>
      simp only [react] at h
      split at h
      · cases h
      · rename_i sentAt hmark
        rw [p.sends_mark hmark] at hsends
        exact absurd hsends (Multiset.cons_ne_zero)

end

section
variable {cfg : Config} {past : Finset UUID} {r r' : Presence} {o : PresenceAction} {k : Nat}
variable {w w' : Worker} {p p' : Pulse} {row : WorkerRow} {stamp : Timestamp}

/-- What an event of the worker adds to the statements under way. -/
theorem Pulse.follow_sends (clock : Timestamp) (hmark : p.mark.isSome = true → w.leaving = true)
    (honce : w'.isMarking = true → w.isMarking = true ∨ w.leaving = false) :
    (p.follow clock w w').lastSent = p.lastSent ∧ (p.follow clock w w').sends = p.sends ∨
      (p.follow clock w w').lastSent = clock ∧ (p.follow clock w w').sends = clock ::ₘ p.sends := by
  by_cases hm : w'.isMarking = true ∧ w.isMarking = false
  · right
    have hnone : p.mark = none := by
      by_contra hne
      have hleaving := hmark (Option.isSome_iff_ne_none.mpr hne)
      rcases honce hm.1 with hold | hnot
      · rw [hm.2] at hold
        cases hold
      · rw [hnot] at hleaving
        cases hleaving
    have hsends : { p with mark := some clock }.sends = clock ::ₘ { p with mark := none }.sends :=
      sends_mark _ rfl
    rw [← hnone] at hsends
    simp only [follow, hm, Bool.not_false, Bool.and_self, if_true]
    exact ⟨trivial, hsends⟩
  · left
    have hsame : (w'.isMarking && !w.isMarking) = false := by
      cases hw' : w'.isMarking <;> simp_all
    simp [follow, sends, hsame]

/-- Of a leaving worker no further UPDATE is sent. -/
theorem Pulse.follow_closed (clock : Timestamp) (hl : w.leaving = true)
    (honce : w'.isMarking = true → w.isMarking = true ∨ w.leaving = false) :
    (p.follow clock w w').sends = p.sends := by
  have hsame : (w'.isMarking && !w.isMarking) = false := by
    cases hm : w'.isMarking with
    | false => rfl
    | true =>
        rcases honce hm with hold | hnot
        · simp [hold]
        · rw [hnot] at hl
          cases hl
  simp [follow, sends, hsame]

/-- An event of the worker keeps its timer and its row together. -/
theorem Seat.follow (hS : Seat w p row) (clock : Timestamp)
    (hflag : w.shuttingDown = true → w'.shuttingDown = true)
    (hleaving : w.leaving = true → w'.leaving = true) : Seat w' (p.follow clock w w') row := by
  have harmed : (p.armed && !w'.shuttingDown) = !w'.shuttingDown := by
    rw [hS.armed]
    cases hw : w.shuttingDown <;> simp_all
  by_cases hm : (w'.isMarking && !w.isMarking) = true
  · simp only [Pulse.follow, hm, if_true, harmed]
    have hw' : w'.leaving = true := Worker.leaving_of_isMarking (Bool.and_eq_true_iff.mp hm).1
    exact ⟨rfl, fun _ => hw', fun _ => hw', hS.beats⟩
  · simp only [Pulse.follow, hm, Bool.false_eq_true, if_false, harmed]
    exact ⟨rfl, fun h => hleaving (hS.mark h), fun h => hleaving (hS.offline h), hS.beats⟩

/-- One step seen from process `k`: the worker keeps its id, its channel follows, and
the row of a process that is leaving and has no UPDATE under way stays as it is. -/
structure Presence.Next (r' : Presence) (k : Nat) (w : Worker) (c : Heartbeat.Channel Timestamp)
    (row : WorkerRow) (lossy : Bool) (w' : Worker) (p' : Pulse) (row' : WorkerRow)
    (stamp' : Timestamp) : Prop where
  post : r'.Post k w' p' row' stamp'
  seat : Seat w' p' row'
  same : w'.workerId = w.workerId
  relays : Relays lossy c (r'.channel p' stamp')
  closed : w.leaving = true → c.pending = 0 → w'.leaving = true ∧ p'.sends = 0 ∧ row' = row

/-- A heartbeat statement writes its own worker's row. -/
theorem Presence.rows_write (r : Presence) (id x : UUID) (out : Written) :
    (r.write id out).rows.lookup x
      = if x = id then (r.rows.lookup x).map (fun row => out.applied row) else r.rows.lookup x := by
  cases out with
  | row status at_ =>
      simp only [write, Table.lookup_update, decide_eq_true_eq, Written.applied]
      split
      · rfl
      · cases r.rows.lookup x <;> rfl
  | _ =>
      simp only [write, Written.applied]
      split <;> cases r.rows.lookup x <;> rfl

theorem Presence.clock_write (r : Presence) (id : UUID) (out : Written) :
    (r.write id out).clock = r.clock := by
  cases out <;> rfl

theorem Presence.pulses_write (r : Presence) (id : UUID) (out : Written) :
    (r.write id out).pulses = r.pulses := by
  cases out <;> rfl

theorem Presence.fleet_write (r : Presence) (id : UUID) (out : Written) :
    (r.write id out).fleet = r.fleet := by
  cases out <;> rfl

/-- A step that leaves the process, its heartbeat and its row alone. -/
theorem Presence.Post.kept {lossy : Bool} (hP : r.Post k w p row stamp) (hS : Seat w p row)
    (hworker : r'.fleet.workers.lookup k = r.fleet.workers.lookup k)
    (hpulse : r'.pulses.lookup k = r.pulses.lookup k)
    (hrow : r'.rows.lookup w.workerId = r.rows.lookup w.workerId) (hclock : r.clock ≤ r'.clock) :
    r'.Next k w (r.channel p stamp) row lossy w p row stamp where
  post := ⟨hworker.trans hP.worker_eq, hpulse.trans hP.pulse_eq, hrow.trans hP.row_eq, hP.stamp_eq⟩
  seat := hS
  same := rfl
  relays := by
    refine .inr ⟨.pass (r'.clock - r.clock), ?_, by simp [Heartbeat.Event.loses]⟩
    simp [Heartbeat.step, Presence.channel, hclock]
  closed hl hc := ⟨hl, hc, rfl⟩

/-- **One step seen from a process.** -/
theorem post_step (hstaff : Staffed past r.fleet) (hP : r.Post k w p row stamp) (hS : Seat w p row)
    (h : r.step cfg o = some r') :
    ∃ w' p' row' stamp',
      r'.Next k w (r.channel p stamp) row (o.rejectsUpdate k) w' p' row' stamp' := by
  have hflag := hstaff.flag_set k w hP.worker_eq
  -- the row of another process is another row
  have hother : ∀ l v, r.fleet.workers.lookup l = some v → k ≠ l → w.workerId ≠ v.workerId :=
    fun l v hl hne heq => hne (hstaff.distinct k l w v hP.worker_eq hl heq)
  cases Presence.stepped h with
  | acted a s' hs f hf hsys hw =>
      refine ⟨w, p, row, stamp, hP.kept hS (by rw [hw]) rfl rfl ?_⟩
      simpa only [Presence.clock, hsys] using clock_mono hs
  | registered l id settings f hl hid hf hw hclock =>
      have hne : k ≠ l := by
        rintro rfl
        rw [hP.worker_eq] at hl
        cases hl
      have hid' : w.workerId ≠ id := by
        rintro rfl
        exact hid (hstaff.recorded k w hP.worker_eq).1
      refine ⟨w, p, row, stamp, hP.kept hS ?_ ?_ ?_ (le_of_eq hclock.symm)⟩
      · rw [hw, Table.lookup_insert_ite, if_neg hne]
      · simp only [Presence.enrol, Table.lookup_insert_ite, if_neg hne]
      · simp only [Presence.enrol, Table.lookup_insert_ite, if_neg hid']
  | turned l ev q v w' n f hq hl hev hf hw hclock =>
      by_cases hkl : k = l
      · subst hkl
        rw [hP.worker_eq] at hl
        rw [hP.pulse_eq] at hq
        cases hl
        cases hq
        have hturn := Worker.stepped hev
        have hsame : w'.workerId = w.workerId := hturn.frame.1
        refine ⟨w', p.follow r.clock w w', row, stamp, ⟨?_, ?_, ?_, hP.stamp_eq⟩,
          hS.follow r.clock hturn.shuttingDown (hturn.leaving hflag), hsame, ?_, ?_⟩
        · rw [hw, Table.lookup_insert_ite, if_pos rfl]
        · simp only [Presence.setPulse, Table.lookup_insert_ite, if_true]
        · rw [hsame]
          exact hP.row_eq
        · rcases Pulse.follow_sends r.clock hS.mark (hturn.isMarking hflag) with ⟨hlast, hsends⟩ |
            ⟨hlast, hsends⟩
          · exact .inl (by simp only [Presence.channel, hlast, hsends]; rw [← hclock]; rfl)
          · refine .inr ⟨.send, ?_, by simp [Heartbeat.Event.loses]⟩
            simp only [Heartbeat.step, Presence.channel, hlast, hsends]
            rw [← hclock]
            rfl
        · intro hl hc
          exact ⟨hturn.leaving hflag hl,
            (Pulse.follow_closed r.clock hl (hturn.isMarking hflag)).trans hc, rfl⟩
      · refine ⟨w, p, row, stamp, hP.kept hS ?_ ?_ rfl (le_of_eq hclock.symm)⟩
        · rw [hw, Table.lookup_insert_ite, if_neg hkl]
        · simp only [Presence.setPulse, Table.lookup_insert_ite, if_neg hkl]
  | beaten l ev q q' v out hq hl hev =>
      by_cases hkl : k = l
      · subst hkl
        rw [hP.worker_eq] at hl
        rw [hP.pulse_eq] at hq
        cases hl
        cases hq
        obtain ⟨hS', stamp', hstamp', hrel⟩ := Pulse.react_relays hS hP.stamp_eq hev
        refine ⟨w, q', out.applied row, stamp', ⟨?_, ?_, ?_, hstamp'⟩, hS', rfl, ?_, ?_⟩
        · rw [Presence.fleet_write]
          exact hP.worker_eq
        · simp only [Presence.pulses_write, Presence.setPulse, Table.lookup_insert_ite, if_true]
        · rw [Presence.rows_write, if_pos rfl]
          exact congrArg (Option.map _) hP.row_eq
        · have hclock : ((r.setPulse k q').write w.workerId out).clock = r.clock :=
            Presence.clock_write _ _ _
          simpa only [PresenceAction.rejectsUpdate, decide_true, Bool.true_and, Presence.channel,
            hclock] using hrel
        · intro hl hc
          have harmed : p.armed = false := by rw [hS.armed, Worker.leaving_flag hflag hl]; rfl
          exact ⟨hl, Pulse.react_closed harmed hc hev⟩
      · have hclock : ((r.setPulse l q').write v.workerId out).clock = r.clock :=
          Presence.clock_write _ _ _
        refine ⟨w, p, row, stamp, hP.kept hS ?_ ?_ ?_ (le_of_eq hclock.symm)⟩
        · rw [Presence.fleet_write]
          rfl
        · simp only [Presence.pulses_write, Presence.setPulse, Table.lookup_insert_ite, if_neg hkl]
        · rw [Presence.rows_write, if_neg (hother l v hl hkl)]
          rfl

/-- The process that the step registers. -/
theorem post_registered (hnone : r.fleet.workers.lookup k = none)
    (hk : r'.fleet.workers.lookup k = some w) (h : r.step cfg o = some r') :
    ∃ p row, r'.Post k w p row r'.clock ∧ Seat w p row ∧
      r'.channel p r'.clock = Heartbeat.Channel.fresh r'.clock := by
  cases Presence.stepped h with
  | acted a s' hs f hf hsys hw =>
      rw [show ({ r with fleet := f } : Presence).fleet.workers = _ from hw, hnone] at hk
      cases hk
  | registered l id settings f hl hid hf hw hclock =>
      have hkl : k = l := by
        by_contra hne
        rw [hw, Table.lookup_insert_ite, if_neg hne, hnone] at hk
        cases hk
      subst hkl
      have hclock' : ({ r.enrol k id with fleet := f } : Presence).clock = r.clock := hclock
      rw [hw, Table.lookup_insert_ite, if_pos rfl] at hk
      cases hk
      refine ⟨{ lastSent := r.clock }, ⟨.idle, some r.clock, r.clock⟩, ⟨?_, ?_, ?_, ?_⟩,
        ⟨rfl, by simp, by simp, by simp⟩, ?_⟩
      · rw [hw, Table.lookup_insert_ite, if_pos rfl]
      · simp only [Presence.enrol, Table.lookup_insert_ite, if_true]
      · simp only [Presence.enrol, Table.lookup_insert_ite, if_true]
      · rw [hclock']
      · simp only [Presence.channel, hclock', Heartbeat.Channel.fresh]
        rfl
  | turned l ev q v w' n f hq hl hev hf hw hclock =>
      rw [hw, Table.lookup_insert_ite] at hk
      split at hk
      · rename_i hkl
        rw [hkl, hl] at hnone
        cases hnone
      · rw [hnone] at hk
        cases hk
  | beaten l ev q q' v out hq hl hev =>
      rw [Presence.fleet_write] at hk
      rw [show (r.setPulse l q').fleet = r.fleet from rfl, hnone] at hk
      cases hk

end

/-! ## §3. Whole runs. -/

section
variable {cfg : Config} {clock : Timestamp} {db : Db} {rows : Table UUID WorkerRow}
variable {heartbeats : List WorkerHeartbeat} {tr : List (Presence × PresenceAction)} {r : Presence}
    {k : Nat}
variable {w : Worker}

theorem staffed_presence (h : PresenceRun cfg (Presence.atRest clock db rows heartbeats) tr r) :
    Staffed rows.keys.toFinset r.fleet := by
  induction h with
  | nil => exact staffed_atRest clock db _
  | snoc _ hs ih =>
      cases Presence.stepped hs with
      | acted _ _ _ f hf => exact staffed_step ih hf
      | registered _ _ _ f _ _ hf => exact staffed_step ih hf
      | turned _ _ _ _ _ _ f _ _ _ hf => exact staffed_step ih hf
      | beaten => rw [Presence.fleet_write]; exact ih

/-- The steps of a channel are those of process `k` in the recorded states. -/
def Witnessed (tr : List (Presence × PresenceAction)) (k : Nat)
    (c : Heartbeat.Channel Timestamp × Heartbeat.Event Timestamp) : Prop :=
  ∃ x ∈ tr, (∃ w p row stamp, x.1.Post k w p row stamp ∧ c.1 = x.1.channel p stamp) ∧
    (c.2.loses = true → x.2.rejectsUpdate k = true)

/-- The heartbeat of a worker runs as the abstract channel does. -/
theorem channel_run (h : PresenceRun cfg (Presence.atRest clock db rows heartbeats) tr r)
    (hk : r.fleet.workers.lookup k = some w) :
    ∃ p row stamp, r.Post k w p row stamp ∧ Seat w p row ∧
      ∃ t₀ tr', Run Heartbeat.step (.fresh t₀) tr' (r.channel p stamp) ∧
        ∀ c ∈ tr', Witnessed tr k c := by
  induction h generalizing w with
  | nil => simp [Presence.atRest, Fleet.atRest] at hk
  | @snoc tr r r' o hrun hs ih =>
      have hstaff := staffed_presence hrun
      cases hw : r.fleet.workers.lookup k with
      | none =>
          obtain ⟨p, row, hP, hS, hfresh⟩ := post_registered hw hk hs
          exact ⟨p, row, _, hP, hS, r'.clock, [], by rw [hfresh]; exact .nil, by simp⟩
      | some v =>
          obtain ⟨p, row, stamp, hP, hS, t₀, tr', hrun', hrec⟩ := ih hw
          obtain ⟨w', p', row', stamp', hN⟩ := post_step hstaff hP hS hs
          have hw' : w' = w := Option.some.inj (hN.post.worker_eq.symm.trans hk)
          subst hw'
          refine ⟨p', row', stamp', hN.post, hN.seat, t₀, ?_⟩
          have hold : ∀ c ∈ tr', Witnessed (tr ++ [(r, o)]) k c := by
            intro c hc
            obtain ⟨x, hx, hrest⟩ := hrec c hc
            exact ⟨x, List.mem_append_left _ hx, hrest⟩
          rcases hN.relays with heq | ⟨ev, hstep, hloses⟩
          · exact ⟨tr', heq ▸ hrun', hold⟩
          · refine ⟨_, hrun'.snoc hstep, fun c hc => ?_⟩
            rcases List.mem_append.mp hc with hc | hc
            · exact hold c hc
            · obtain rfl := List.mem_singleton.mp hc
              exact ⟨(r, o), by simp, ⟨v, p, row, stamp, hP, rfl⟩, hloses⟩

/-! ## §4. The detector. -/

/-- No UPDATE that process `k` has sent of its row is under way for longer than `latency`. -/
def Presence.UpdatesWithin (r : Presence) (latency : Int) (k : Nat) : Prop :=
  ∀ p ∈ r.pulses.lookup k, ∀ sentAt ∈ p.sends, r.clock - latency ≤ sentAt

/-- Process `k` has sent an UPDATE within the last `interval`. -/
def Presence.SendsWithin (r : Presence) (interval : Int) (k : Nat) : Prop :=
  ∀ p ∈ r.pulses.lookup k, r.clock - interval ≤ p.lastSent

instance (r : Presence) (latency : Int) (k : Nat) : Decidable (r.UpdatesWithin latency k) :=
  inferInstanceAs (Decidable (∀ p ∈ r.pulses.lookup k, ∀ sentAt ∈ p.sends, r.clock - latency ≤ sentAt))

instance (r : Presence) (interval : Int) (k : Nat) : Decidable (r.SendsWithin interval k) :=
  inferInstanceAs (Decidable (∀ p ∈ r.pulses.lookup k, r.clock - interval ≤ p.lastSent))

/-- The timing of the UPDATEs is the timing of the channel. -/
theorem swift_of_witnessed {latency : Int} (hlat : ∀ x ∈ tr, x.1.UpdatesWithin latency k)
    {c : Heartbeat.Channel Timestamp × Heartbeat.Event Timestamp} (hc : Witnessed tr k c) :
    c.1.Swift latency := by
  obtain ⟨x, hx, ⟨v, q, row₁, stamp₁, hQ, heq⟩, _⟩ := hc
  intro s hs
  rw [heq] at hs ⊢
  exact hlat x hx q hQ.pulse_eq s hs

/-- What GET /workers shows of a worker that is not marked offline. -/
theorem WorkerRow.effectiveStatus_of_stamp {row : WorkerRow} {stamp : Timestamp} {timeout now : Int}
    (h : row.lastHeartbeatAt = some stamp) :
    (stamp < now - timeout →
        row.effectiveStatus timeout now = .offline ∨ row.effectiveStatus timeout now = .stale) ∧
      (¬ stamp < now - timeout → row.status ≠ .offline →
        row.effectiveStatus timeout now = .idle ∨ row.effectiveStatus timeout now = .busy) := by
  unfold effectiveStatus
  rw [h]
  constructor
  · intro hlate
    by_cases hoff : row.status = .offline
    · exact .inl (by simp [hoff])
    · exact .inr (by simp [hoff, hlate])
  · intro hfresh hoff
    simp only [hoff, if_false, Option.any_some, hfresh, decide_false, Bool.false_eq_true]
    cases hstatus : row.status with
    | offline => exact absurd hstatus hoff
    | idle => exact .inl rfl
    | busy => exact .inr rfl

/-- **Silent workers are found out.**  In every run, a process that has sent nothing
for the latency of an UPDATE and the stale threshold, whether it has crashed, hangs,
or has left, is shown stale or offline. -/
theorem silence_detected (latency timeout : Int) {q : PageQuery} {reply : Page WorkerView}
    {v : WorkerView} {p : Pulse} (hl : 0 ≤ latency)
    (hrun : PresenceRun cfg (Presence.atRest clock db rows heartbeats) tr r)
    (hlat : ∀ x ∈ tr, x.1.UpdatesWithin latency k)
    (hk : r.fleet.workers.lookup k = some w) (hp : r.pulses.lookup k = some p)
    (hsilent : p.lastSent + latency + timeout < r.clock)
    (hreply : r.Workers timeout q reply) (hv : v ∈ reply.data) (hid : v.id = w.workerId) :
    v.effectiveStatus = .offline ∨ v.effectiveStatus = .stale := by
  obtain ⟨p', row, stamp, hP, _, t₀, tr', hchan, hrec⟩ := channel_run hrun hk
  obtain rfl := Option.some.inj (hp.symm.trans hP.pulse_eq)
  obtain ⟨hrow, hshown, _⟩ := hreply.mem hv
  rw [hid, hP.row_eq] at hrow
  have hB := Heartbeat.stamp_bounded hl hchan (fun c hc => swift_of_witnessed hlat (hrec c hc))
  rw [hshown, ← Option.some.inj hrow]
  exact (WorkerRow.effectiveStatus_of_stamp hP.stamp_eq).1 (hB.suspected hsilent)

/-- One worker process, with worker id 5, can start. -/
def Presence.calm : Presence := Presence.atRest 0 (Db.small 1 [(7, Job.small .queued)]) ∅ []

/-- GET /workers when there is one worker. -/
def Presence.onlyWorker (r : Presence) (timeout : Int) (row : WorkerRow) : Page WorkerView :=
  (⟨none, none⟩ : PageQuery).parse.paginated [r.workerView timeout (5, row)]

/-- The process starts and is never heard of again. -/
def crashedActions : List PresenceAction :=
  [.fleet (.register 0 5 .small), .fleet (.act (.wait 60000))]

theorem silence_detected_crashed :
    ∃ r v, r = play (Presence.step Config.small) Presence.calm crashedActions ∧
      r.Workers 30000 ⟨none, none⟩ (r.onlyWorker 30000 ⟨.idle, some 0, 0⟩) ∧
      v ∈ (r.onlyWorker 30000 ⟨.idle, some 0, 0⟩).data ∧
      (v.effectiveStatus = .offline ∨ v.effectiveStatus = .stale) := by
  have hrun := run_of_play (Presence.step Config.small) Presence.calm crashedActions (by rfl)
  have hreply : (play (Presence.step Config.small) Presence.calm crashedActions).Workers 30000
    ⟨none, none⟩
      ((play (Presence.step Config.small) Presence.calm crashedActions).onlyWorker 30000
        ⟨.idle, some 0, 0⟩) :=
    ⟨_, ⟨.refl _, List.pairwise_singleton _ _⟩, rfl⟩
  exact ⟨_, _, rfl, hreply, List.mem_singleton_self _,
    silence_detected (k := 0) 1000 30000 (by decide) hrun (by decide +kernel) rfl rfl (by decide) hreply
      (List.mem_singleton_self _) rfl⟩

/-- **Live workers are not accused.**  In every run in which a process sends its UPDATEs
at most one interval apart and none of them is rejected or takes longer than the
latency, the process is shown idle or busy until it is told to stop, if the stale
threshold leaves room for one interval and two latencies. -/
theorem liveness_shown (interval latency timeout : Int) {q : PageQuery} {reply : Page WorkerView}
    {v : WorkerView} (hi : 0 ≤ interval) (hl : 0 ≤ latency)
    (ht : interval + latency + latency ≤ timeout)
    (hrun : PresenceRun cfg (Presence.atRest clock db rows heartbeats) tr r)
    (hlat : ∀ x ∈ tr, x.1.UpdatesWithin latency k) (hlat' : r.UpdatesWithin latency k)
    (hint : ∀ x ∈ tr, x.1.SendsWithin interval k) (hint' : r.SendsWithin interval k)
    (hacc : ∀ x ∈ tr, x.2.rejectsUpdate k = false)
    (hk : r.fleet.workers.lookup k = some w) (hlive : w.shuttingDown = false)
    (hreply : r.Workers timeout q reply) (hv : v ∈ reply.data) (hid : v.id = w.workerId) :
    v.effectiveStatus = .idle ∨ v.effectiveStatus = .busy := by
  obtain ⟨p, row, stamp, hP, hS, t₀, tr', hchan, hrec⟩ := channel_run hrun hk
  obtain ⟨hrow, hshown, _⟩ := hreply.mem hv
  rw [hid, hP.row_eq] at hrow
  have hrecent := Heartbeat.stamp_recent hi hl hchan
    (fun c hc => swift_of_witnessed hlat (hrec c hc))
    (fun c hc => by
      obtain ⟨x, hx, ⟨v, q, row₁, stamp₁, hQ, heq⟩, _⟩ := hrec c hc
      rw [heq]
      exact hint x hx q hQ.pulse_eq)
    (fun c hc => by
      obtain ⟨x, hx, _, hloses⟩ := hrec c hc
      by_contra hlost
      have hrejected := hloses (eq_true_of_ne_false hlost)
      rw [hacc x hx] at hrejected
      cases hrejected)
    (hlat' p hP.pulse_eq) (hint' p hP.pulse_eq)
  have hnot : row.status ≠ .offline := by
    intro hoff
    have hflag := Worker.leaving_flag ((staffed_presence hrun).flag_set k w hk) (hS.offline hoff)
    rw [hlive] at hflag
    cases hflag
  rw [hshown, ← Option.some.inj hrow]
  exact (WorkerRow.effectiveStatus_of_stamp hP.stamp_eq).2 (Heartbeat.not_suspected ht hrecent) hnot

/-- The process sends a heartbeat every five seconds; the first took 100 ms. -/
def beatingActions : List PresenceAction :=
  [.fleet (.register 0 5 .small), .fleet (.act (.wait 5000)), .pulse 0 .tick, .fleet (.act (.wait 100)),
    .pulse 0 (.updated 5000 .idle 5100 false), .pulse 0 .resumed,
    .pulse 0 (.inserted 5100 0 5100 false),
    .fleet (.act (.wait 4900)), .pulse 0 .tick]

theorem liveness_shown_beating :
    ∃ r v, r = play (Presence.step Config.small) Presence.calm beatingActions ∧
      v ∈ (r.onlyWorker 30000 ⟨.idle, some 5100, 0⟩).data ∧
      (v.effectiveStatus = .idle ∨ v.effectiveStatus = .busy) := by
  have hrun := run_of_play (Presence.step Config.small) Presence.calm beatingActions (by rfl)
  have hreply : (play (Presence.step Config.small) Presence.calm beatingActions).Workers 30000
    ⟨none, none⟩
      ((play (Presence.step Config.small) Presence.calm beatingActions).onlyWorker 30000
        ⟨.idle, some 5100, 0⟩) :=
    ⟨_, ⟨.refl _, List.pairwise_singleton _ _⟩, rfl⟩
  exact ⟨_, _, rfl, List.mem_singleton_self _,
    liveness_shown (k := 0) 5000 1000 30000 (by decide) (by decide) (by decide) hrun
      (by decide +kernel) (by decide +kernel) (by decide +kernel) (by decide +kernel)
      (by decide +kernel) rfl rfl hreply (List.mem_singleton_self _) rfl⟩

/-! ## §5. Offline. -/

/-- Once a worker has left and nothing of it is under way, its row stays. -/
theorem closed_run {r₁ : Presence} {tr₁ : List (Presence × PresenceAction)} {p : Pulse}
    {row : WorkerRow}
    {stamp : Timestamp} (hrun₁ : PresenceRun cfg (Presence.atRest clock db rows heartbeats) tr₁ r₁)
    (hP : r₁.Post k w p row stamp) (hS : Seat w p row) (hl : w.leaving = true) (hp : p.sends = 0)
    (hrun : PresenceRun cfg r₁ tr r) : ∃ w' p', r.Post k w' p' row stamp ∧ Seat w' p' row ∧
      w'.workerId = w.workerId ∧ w'.leaving = true ∧ p'.sends = 0 := by
  induction hrun with
  | nil => exact ⟨w, p, hP, hS, rfl, hl, hp⟩
  | snoc hpre hs ih =>
      obtain ⟨v, q, hQ, hS', hid, hl', hq⟩ := ih
      obtain ⟨w', p', row', stamp', hN⟩ := post_step (staffed_presence (hrun₁.append hpre)) hQ hS' hs
      obtain ⟨hleaving, hsends, rfl⟩ := hN.closed hl' hq
      have hstamp : stamp' = stamp := Option.some.inj (hN.post.stamp_eq.symm.trans hQ.stamp_eq)
      exact ⟨w', p', hstamp ▸ hN.post, hN.seat, hN.same.trans hid, hleaving, hsends⟩

/-- **Offline is final, unless a heartbeat was still under way.**  When a worker is
marked offline and no UPDATE of its process is under way, GET /workers shows it
offline for good, whatever any process or client does. -/
theorem offline_final {r₁ : Presence} {tr₁ : List (Presence × PresenceAction)} {p : Pulse}
    {row : WorkerRow}
    (hrun₁ : PresenceRun cfg (Presence.atRest clock db rows heartbeats) tr₁ r₁)
    (hk : r₁.fleet.workers.lookup k = some w) (hp : r₁.pulses.lookup k = some p)
    (hrow : r₁.rows.lookup w.workerId = some row) (hoff : row.status = .offline) (hsends : p.sends = 0)
    (hrun : PresenceRun cfg r₁ tr r) {timeout : Int} {q : PageQuery} {reply : Page WorkerView}
    {v : WorkerView} (hreply : r.Workers timeout q reply) (hv : v ∈ reply.data)
    (hid : v.id = w.workerId) : v.row = row ∧ v.effectiveStatus = .offline := by
  obtain ⟨p₁, row₁, stamp, hP, hS, _⟩ := channel_run hrun₁ hk
  obtain rfl := Option.some.inj (hp.symm.trans hP.pulse_eq)
  obtain rfl := Option.some.inj (hrow.symm.trans hP.row_eq)
  obtain ⟨w', p', hP', _, hsame, _⟩ := closed_run hrun₁ hP hS (hS.offline hoff) hsends hrun
  obtain ⟨hshown, heff, _⟩ := hreply.mem hv
  rw [hid, ← hsame, hP'.row_eq] at hshown
  obtain rfl := Option.some.inj hshown
  exact ⟨rfl, by rw [heff]; simp [WorkerRow.effectiveStatus, hoff]⟩

end

/-- An UPDATE that is under way when the process exits overwrites its mark. -/
example : (((play (Presence.step Config.small) Presence.calm
    [.fleet (.register 0 5 .small), .fleet (.event 0 (.listening 10)), .fleet (.act (.wait 5000)),
      .pulse 0 .tick, .fleet (.event 0 .signal), .fleet (.event 0 .unlistened),
      .pulse 0 (.marked 5000 false), .fleet (.event 0 .markedOffline), .fleet (.event 0 .exit),
      .pulse 0 (.updated 5000 .idle 5000 false)]).rows.lookup 5).map (·.status)) = some .idle := by
  rfl

/-- SIGTERM arrives while nothing is in flight. -/
def leavingActions : List PresenceAction :=
  [.fleet (.register 0 5 .small), .fleet (.event 0 (.listening 10)), .fleet (.event 0 .signal),
    .fleet (.event 0 .unlistened), .pulse 0 (.marked 0 false)]

/-- The last steps of a process that shuts down, and a minute after them. -/
def leftActions : List PresenceAction :=
  [.fleet (.event 0 .markedOffline), .fleet (.event 0 .exit), .fleet (.act (.wait 60000))]

theorem offline_final_left :
    ∃ r v, r = play (Presence.step Config.small)
        (play (Presence.step Config.small) Presence.calm leavingActions) leftActions ∧
      v ∈ (r.onlyWorker 30000 ⟨.offline, some 0, 0⟩).data ∧ v.effectiveStatus = .offline := by
  have hrun₁ := run_of_play (Presence.step Config.small) Presence.calm leavingActions (by rfl)
  have hrun := run_of_play (Presence.step Config.small)
    (play (Presence.step Config.small) Presence.calm leavingActions) leftActions (by rfl)
  have hreply : (play (Presence.step Config.small)
        (play (Presence.step Config.small) Presence.calm leavingActions) leftActions).Workers 30000
          ⟨none, none⟩
      ((play (Presence.step Config.small)
        (play (Presence.step Config.small) Presence.calm leavingActions) leftActions).onlyWorker 30000
          ⟨.offline, some 0, 0⟩) :=
    ⟨_, ⟨.refl _, List.pairwise_singleton _ _⟩, rfl⟩
  exact ⟨_, _, rfl, List.mem_singleton_self _,
    (offline_final (k := 0) hrun₁ rfl rfl rfl rfl (by rfl) hrun hreply
    (List.mem_singleton_self _) rfl).2⟩

end JobScheduler
