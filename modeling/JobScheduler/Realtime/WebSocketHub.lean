/-
  JobScheduler.Realtime.WebSocketHub
  ──────────────────────────────────
  The `/ws` hub of `realtime/websocketHub.ts`: the `sockets` set of each API
  process, the upgrade that adds to it, and `broadcastRealtimeEvent`, which
  writes one frame to every socket in it.

  The sets of all processes are kept in one table, by connection.  A frame that
  is written waits in the socket's `outbox` until it is sent.
-/
import JobScheduler.Schema.Types
import JobScheduler.Library.Table

namespace JobScheduler

open Relational

/-! ## §1. Sockets. -/

/-- The messages of the hub. -/
inductive Frame
  /-- `socket.connected`, with `connected_clients`. -/
  | connected (clients : Nat)
  /-- A row of `system_events` under its serial id. -/
  | event (id : Nat) (ev : SystemEvent)

/-- The frame carries event `id`. -/
def Frame.carries (id : Nat) : Frame → Bool
  | .connected _ => false
  | .event i _ => decide (i = id)

/-- An upgraded connection in the set of its process. -/
structure Socket where
  /-- The process whose set the socket is in. -/
  process : Nat
  /-- Who opened the connection; the hub never learns it. -/
  holder : Option UUID
  /-- How many events had been persisted by then. -/
  since : Nat
  outbox : List Frame
  sent : List Frame

namespace Socket

/-- `socket.write(frame)`. -/
def write (s : Socket) (frame : Frame) : Socket := { s with outbox := s.outbox ++ [frame] }

/-- The oldest written frame goes out. -/
def flush (s : Socket) : Option Socket :=
  match s.outbox with
  | [] => none
  | frame :: rest => some { s with outbox := rest, sent := s.sent ++ [frame] }

/-- How many frames with event `id` have been sent. -/
def received (id : Nat) (s : Socket) : Nat := s.sent.countP (Frame.carries id)

/-- How many frames with event `id` have been written, sent or not. -/
def written (id : Nat) (s : Socket) : Nat := s.received id + s.outbox.countP (Frame.carries id)

end Socket

/-! ## §2. The hub. -/

/-- The headers of an upgrade that the hub reads; `key` is absent when
`sec-websocket-key` is, or is not one string. -/
structure Upgrade where
  url : String
  key : Option String
  holder : Option UUID

/-- The connection is not destroyed at once. -/
def Upgrade.accepted (r : Upgrade) : Bool := decide (r.url = "/ws") && r.key.any (fun key => !key.isEmpty)

/-- `sockets.size` in process `k`. -/
def connectedClients (k : Nat) (sockets : Table Nat Socket) : Nat :=
  sockets.count (fun _ s => decide (s.process = k))

/-- `sockets.add(socket)` in process `k`, and the first frame. -/
def Upgrade.socket (r : Upgrade) (k since : Nat) (sockets : Table Nat Socket) : Socket where
  process := k
  holder := r.holder
  since := since
  outbox := [.connected (connectedClients k sockets + 1)]
  sent := []

/-- `broadcastRealtimeEvent` in process `k`; the sockets in `throws` are those
whose `write` throws, which are destroyed. -/
def broadcastRealtimeEvent (k : Nat) (frame : Frame) (throws : Finset Nat)
    (sockets : Table Nat Socket) : Table Nat Socket :=
  (sockets.delete (fun c s => decide (s.process = k) && decide (c ∈ throws))).update
    (fun _ s => decide (s.process = k)) (fun s => s.write frame)

/-! ## §3. Counting frames. -/

namespace Socket

@[simp] theorem received_write (s : Socket) (frame : Frame) (id : Nat) :
    (s.write frame).received id = s.received id := rfl

theorem written_write (s : Socket) (frame : Frame) (id : Nat) :
    (s.write frame).written id = s.written id + if frame.carries id then 1 else 0 := by
  simp [written, write, received, List.countP_append, List.countP_singleton, Nat.add_assoc]

/-- Sending loses no frame and doubles none. -/
theorem written_flush {s s' : Socket} (h : s.flush = some s') (id : Nat) :
    s'.written id = s.written id := by
  unfold flush at h
  split at h
  · cases h
  · rename_i frame rest hout
    cases h
    simp only [written, received, hout, List.countP_append, List.countP_cons, List.countP_nil]
    omega

/-- Flushing changes the outbox only. -/
theorem flush_fields {s s' : Socket} (h : s.flush = some s') :
    s'.process = s.process ∧ s'.holder = s.holder ∧ s'.since = s.since := by
  unfold flush at h
  split at h
  · cases h
  · cases h
    exact ⟨rfl, rfl, rfl⟩

/-- Once everything is sent, the frames written are the frames received. -/
theorem written_of_idle {s : Socket} (h : s.outbox = []) (id : Nat) : s.written id = s.received id := by
  simp [written, h]

end Socket

@[simp] theorem Upgrade.socket_written (r : Upgrade) (k since : Nat) (sockets : Table Nat Socket)
    (id : Nat) : (r.socket k since sockets).written id = 0 := rfl

/-- What a broadcast does to one socket. -/
theorem broadcast_lookup {k : Nat} {frame : Frame} {throws : Finset Nat} {sockets : Table Nat Socket}
    {c : Nat} {s' : Socket}
    (h : (broadcastRealtimeEvent k frame throws sockets).lookup c = some s') :
    ∃ s, sockets.lookup c = some s ∧ s' = if s.process = k then s.write frame else s := by
  unfold broadcastRealtimeEvent at h
  rw [Table.lookup_update, Option.map_eq_some_iff] at h
  obtain ⟨s, hs, rfl⟩ := h
  exact ⟨s, (Table.lookup_delete_eq_some.mp hs).1, by simp only [decide_eq_true_eq]⟩

/-- A broadcast during which no write throws reaches every socket of the process. -/
theorem broadcast_reaches {k : Nat} {frame : Frame} {sockets : Table Nat Socket} {c : Nat} {s : Socket}
    (h : sockets.lookup c = some s) (hk : s.process = k) :
    (broadcastRealtimeEvent k frame ∅ sockets).lookup c = some (s.write frame) := by
  unfold broadcastRealtimeEvent
  rw [Table.lookup_update, Table.lookup_delete, h]
  simp [hk]

end JobScheduler
