/-
  JobScheduler.Realtime.Encoding
  ──────────────────────────────
  The bytes of the `/ws` hub: `encodeFrame` of `realtime/websocketHub.ts` with its
  three header layouts, and what an RFC 6455 client reads from them.

  Buffers are lists of bytes; a message is a sequence of Unicode scalar values, as
  `JSON.stringify` gives them.
-/
import JobScheduler.Library.Framing
import JobScheduler.Realtime.WebSocketHub

namespace JobScheduler

open Framing

/-! ## §1. `encodeFrame`. -/

/-- `Buffer.from(message)`. -/
def utf8 (message : String) : List UInt8 := message.toUTF8.data.toList

/-- `Buffer.alloc(size)`. -/
def alloc (size : Nat) : List UInt8 := List.replicate size 0

/-- `writeUInt16BE` (2 bytes) and `writeBigUInt64BE` (8 bytes) at an offset. -/
def writeBE (width : Nat) (buffer : List UInt8) (value offset : Nat) : List UInt8 :=
  buffer.take offset ++ toBigEndian width value ++ buffer.drop (offset + width)

/-- `encodeFrame(message)`: a final text frame without a mask, with the length in its shortest
form. -/
def encodeFrame (message : String) : List UInt8 :=
  let payload := utf8 message
  let length := payload.length
  if length < 126 then
    [0x81, UInt8.ofNat length] ++ payload
  else if length < 65536 then
    let header := ((alloc 4).set 0 0x81).set 1 126
    writeBE 2 header length 2 ++ payload
  else
    let header := ((alloc 10).set 0 0x81).set 1 127
    writeBE 8 header length 2 ++ payload

/-- The frame that a message becomes: final, text, not masked. -/
def textFrame (message : String) : WireFrame where
  fin := true
  rsv := 0
  opcode := 1
  maskingKey := none
  payload := utf8 message

/-- The text of a frame. -/
def frameText (frame : WireFrame) : Option String := String.fromUTF8? ⟨frame.payload.toArray⟩

theorem frameText_textFrame (message : String) : frameText (textFrame message) = some message := by
  show String.fromUTF8? message.toUTF8 = some message
  simp only [String.fromUTF8?, String.toUTF8_eq_toByteArray, dif_pos message.isValidUTF8]
  rfl

/-! ## §2. One frame. -/

/-- The three layouts put the shortest length before the payload. -/
theorem encodeFrame_eq (message : String) :
    encodeFrame message
      = (0x81 : UInt8) :: (shortestLength (utf8 message).length ++ utf8 message) := by
  unfold encodeFrame shortestLength
  by_cases hshort : (utf8 message).length < 126
  · simp only [if_pos hshort]
    rfl
  by_cases hmedium : (utf8 message).length < 65536
  · simp only [if_neg hshort, if_pos hmedium]
    simp [alloc, writeBE]
  · simp only [if_neg hshort, if_neg hmedium]
    simp [alloc, writeBE]

/-- A frame is its header and its payload. -/
theorem length_encodeFrame (message : String) :
    (encodeFrame message).length = headerLength (utf8 message).length + (utf8 message).length := by
  have hheader := length_shortestLength (utf8 message).length
  rw [encodeFrame_eq, List.length_cons, List.length_append]
  omega

/-- The first byte is a final text frame. -/
theorem readBody_text (message : String) (rest : List UInt8) :
    readBody 0x81 false (utf8 message).length (utf8 message ++ rest)
      = some (textFrame message, rest) := by
  unfold readBody readMaskingKey
  simp only [Bool.false_eq_true, if_false, Option.bind_eq_bind, Option.bind_some,
    splitBytes_append rest rfl]
  rfl

/-- The reader reads an encoded frame back, whatever follows. -/
theorem readFrame_encodeFrame {message : String} (h : (utf8 message).length < 2 ^ 63)
    (rest : List UInt8) :
    readFrame (encodeFrame message ++ rest) = some (textFrame message, rest) := by
  rw [encodeFrame_eq, List.cons_append, List.append_assoc, readFrame_shortest h, readBody_text]

/-! ## §3. What a client reads. -/

/-- **Round trip.**  The concatenated frames read back to the messages, one final text
frame each, with nothing left over, and no bytes that read back to such a payload are
fewer. -/
theorem frames_round_trip {messages : List String}
    (h : ∀ m ∈ messages, (utf8 m).length < 2 ^ 63) :
    readFrames (messages.flatMap encodeFrame) = some (messages.map textFrame) ∧
      (messages.map textFrame).map frameText = messages.map some ∧
      ∀ m ∈ messages, ∀ bytes frame rest, readFrame bytes = some (frame, rest) →
        frame.payload = utf8 m → (encodeFrame m).length + rest.length ≤ bytes.length := by
  refine ⟨readFrames_flatMap (fun m hm => readFrame_encodeFrame (h m hm)), ?_, ?_⟩
  · rw [List.map_map]
    exact List.map_congr_left (fun m _ => frameText_textFrame m)
  · intro m _ bytes frame rest hread hpayload
    have hlength := readFrame_length hread
    rw [hpayload] at hlength
    rw [length_encodeFrame]
    exact hlength

/-- A message of `n` bytes. -/
def messageOf (n : Nat) : String := String.ofList (List.replicate n 'a')

theorem length_utf8_messageOf (n : Nat) : (utf8 (messageOf n)).length = n := by
  have happend : ∀ s t : String, (utf8 (s ++ t)).length = (utf8 s).length + (utf8 t).length :=
    fun _ _ => String.utf8ByteSize_append
  induction n with
  | zero => rfl
  | succ n ih =>
      have hsplit : messageOf (n + 1) = String.ofList ['a'] ++ messageOf n := by
        rw [messageOf, messageOf, ← String.ofList_append]
        rfl
      have hone : (utf8 (String.ofList ['a'])).length = 1 := by decide
      rw [hsplit, happend, ih, hone, Nat.add_comm]

/-- The longest message with a length in one byte, the first with a length in two and the
first with a length in eight. -/
theorem frames_round_trip_layouts :
    let messages := [messageOf 125, messageOf 126, messageOf 65536]
    readFrames (messages.flatMap encodeFrame) = some (messages.map textFrame) ∧
      (messages.map textFrame).map frameText = messages.map some ∧
      messages.map (fun m => (encodeFrame m).length) = [2 + 125, 4 + 126, 10 + 65536] := by
  intro messages
  have hlengths : ∀ m ∈ messages, (utf8 m).length < 2 ^ 63 := by
    simp only [messages, List.forall_mem_cons, length_utf8_messageOf]
    decide
  obtain ⟨hread, htext, _⟩ := frames_round_trip hlengths
  refine ⟨hread, htext, ?_⟩
  simp only [messages, List.map_cons, List.map_nil, length_encodeFrame, length_utf8_messageOf]
  rfl

/-- The bytes that a socket has sent; `stringify` is `JSON.stringify` of the hub's messages. -/
def Socket.bytes (stringify : Frame → String) (s : Socket) : List UInt8 :=
  s.sent.flatMap (fun frame => encodeFrame (stringify frame))

/-- A client reads the frames that its socket has sent, in that order. -/
theorem Socket.bytes_read {stringify : Frame → String} {s : Socket}
    (h : ∀ frame ∈ s.sent, (utf8 (stringify frame)).length < 2 ^ 63) :
    readFrames (s.bytes stringify) = some (s.sent.map (fun frame => textFrame (stringify frame))) :=
  readFrames_flatMap (fun frame hframe => readFrame_encodeFrame (h frame hframe))

end JobScheduler
