/-
  JobScheduler.Library.Framing
  ────────────────────────────
  A reader of WebSocket frames (RFC 6455, section 5.2): the bits of the first two
  bytes, the length in 7, 16 or 64 bits, big-endian, the masking key and the
  payload.  A stream is read frame after frame until no byte is left.

  A reader never needs fewer bytes than `headerLength` says (`readFrame_length`),
  so a writer whose headers have that length uses the shortest forms.
-/
import Mathlib.Data.List.Basic
import Mathlib.Tactic.Ring

namespace Framing

/-! ## §1. Big-endian numbers. -/

/-- The number that bytes denote, the most significant one first. -/
def ofBigEndian : List UInt8 → Nat
  | [] => 0
  | b :: bytes => b.toNat * 256 ^ bytes.length + ofBigEndian bytes

/-- The last `k` bytes of a number, the most significant one first. -/
def toBigEndian : Nat → Nat → List UInt8
  | 0, _ => []
  | k + 1, n => UInt8.ofNat (n / 256 ^ k) :: toBigEndian k n

@[simp] theorem length_toBigEndian (k n : Nat) : (toBigEndian k n).length = k := by
  induction k with
  | zero => rfl
  | succ k ih => rw [toBigEndian, List.length_cons, ih]

/-- Written in `k` octets, a number is read back modulo `256 ^ k`. -/
theorem ofBigEndian_toBigEndian_mod (k n : Nat) : ofBigEndian (toBigEndian k n) = n % 256 ^ k := by
  induction k with
  | zero => rw [toBigEndian, ofBigEndian, pow_zero, Nat.mod_one]
  | succ k ih =>
      have hbyte : (UInt8.ofNat (n / 256 ^ k)).toNat = n / 256 ^ k % 256 := UInt8.toNat_ofNat'
      rw [toBigEndian, ofBigEndian, ih, hbyte, length_toBigEndian, Nat.mod_pow_succ]
      ring

theorem ofBigEndian_toBigEndian {k n : Nat} (h : n < 256 ^ k) :
    ofBigEndian (toBigEndian k n) = n := by
  rw [ofBigEndian_toBigEndian_mod, Nat.mod_eq_of_lt h]

/-- Octets stand for a number that fits into them. -/
theorem ofBigEndian_lt (bytes : List UInt8) : ofBigEndian bytes < 256 ^ bytes.length := by
  induction bytes with
  | nil => simp [ofBigEndian]
  | cons b bytes ih =>
      have hb : b.toNat + 1 ≤ 256 := b.toNat_lt
      have hmul : (b.toNat + 1) * 256 ^ bytes.length ≤ 256 * 256 ^ bytes.length :=
        Nat.mul_le_mul_right _ hb
      rw [ofBigEndian, List.length_cons, pow_succ]
      rw [Nat.add_mul] at hmul
      omega

/-! ## §2. Frames. -/

/-- A frame as the reader takes it apart. -/
structure WireFrame where
  fin : Bool
  rsv : Nat
  opcode : Nat
  maskingKey : Option (List UInt8)
  payload : List UInt8
  deriving DecidableEq

/-- The first `n` bytes. -/
def splitBytes (n : Nat) (bytes : List UInt8) : Option (List UInt8 × List UInt8) :=
  if n ≤ bytes.length then some (bytes.take n, bytes.drop n) else none

/-- The payload length, from the seven bits `code` on; the most significant bit of
a 64-bit length must be 0. -/
def readLength (code : Nat) (bytes : List UInt8) : Option (Nat × List UInt8) :=
  if code = 126 then
    (splitBytes 2 bytes).map (fun p => (ofBigEndian p.1, p.2))
  else if code = 127 then
    ((splitBytes 8 bytes).map (fun p => (ofBigEndian p.1, p.2))).filter (fun p => decide (p.1 < 2 ^ 63))
  else some (code, bytes)

/-- The four octets of the masking key, where the mask bit announces them. -/
def readMaskingKey (masked : Bool) (bytes : List UInt8) : Option (Option (List UInt8) × List UInt8) :=
  if masked then (splitBytes 4 bytes).map (fun p => (some p.1, p.2)) else some (none, bytes)

/-- Octet `i` of the payload is masked with octet `i mod 4` of the key. -/
def unmask (maskingKey : Option (List UInt8)) (payload : List UInt8) : List UInt8 :=
  match maskingKey with
  | none => payload
  | some key => payload.mapIdx (fun i b => b ^^^ key.getD (i % 4) 0)

/-- The bits of the first byte and what follows the length. -/
def readBody (first : UInt8) (masked : Bool) (length : Nat) (bytes : List UInt8) :
    Option (WireFrame × List UInt8) := do
  let (key, bytes) ← readMaskingKey masked bytes
  let (payload, rest) ← splitBytes length bytes
  return (⟨decide (128 ≤ first.toNat), first.toNat / 16 % 8, first.toNat % 16, key, unmask key payload⟩,
    rest)

/-- One frame, and the bytes after it. -/
def readFrame : List UInt8 → Option (WireFrame × List UInt8)
  | first :: second :: bytes => do
      let (length, bytes) ← readLength (second.toNat % 128) bytes
      readBody first (decide (128 ≤ second.toNat)) length bytes
  | _ => none

/-! ## §3. What reading consumes. -/

/-- The bytes before the payload of an unmasked frame, in the shortest form. -/
def headerLength (length : Nat) : Nat :=
  if length < 126 then 2 else if length < 65536 then 4 else 10

/-- What is split off and the rest make up the input. -/
theorem splitBytes_eq {n : Nat} {bytes taken rest : List UInt8}
    (h : splitBytes n bytes = some (taken, rest)) : bytes = taken ++ rest ∧ taken.length = n := by
  unfold splitBytes at h
  split at h
  · rename_i hle
    obtain ⟨rfl, rfl⟩ := Prod.mk.inj (Option.some.inj h)
    exact ⟨(List.take_append_drop n bytes).symm, List.length_take_of_le hle⟩
  · cases h

/-- A prefix of the right length is split off. -/
theorem splitBytes_append {n : Nat} {taken : List UInt8} (rest : List UInt8)
    (h : taken.length = n) : splitBytes n (taken ++ rest) = some (taken, rest) := by
  unfold splitBytes
  rw [if_pos (by rw [List.length_append]; omega), List.take_left' h, List.drop_left' h]

/-- A longer form than needed costs bytes. -/
theorem readLength_length {code length : Nat} {bytes rest : List UInt8} (hcode : code < 128)
    (h : readLength code bytes = some (length, rest)) :
    headerLength length + rest.length ≤ 2 + bytes.length := by
  unfold readLength at h
  split at h
  · obtain ⟨⟨taken, rest'⟩, hsplit, hpair⟩ := Option.map_eq_some_iff.mp h
    obtain ⟨rfl, rfl⟩ := Prod.mk.inj hpair
    obtain ⟨rfl, htaken⟩ := splitBytes_eq hsplit
    have hlt := ofBigEndian_lt taken
    rw [htaken] at hlt
    show headerLength (ofBigEndian taken) + rest'.length ≤ 2 + (taken ++ rest').length
    unfold headerLength
    rw [List.length_append]
    split
    · omega
    · rw [if_pos (by omega)]
      omega
  · split at h
    · obtain ⟨hmap, _⟩ := Option.filter_eq_some_iff.mp h
      obtain ⟨⟨taken, rest'⟩, hsplit, hpair⟩ := Option.map_eq_some_iff.mp hmap
      obtain ⟨rfl, rfl⟩ := Prod.mk.inj hpair
      obtain ⟨rfl, htaken⟩ := splitBytes_eq hsplit
      show headerLength (ofBigEndian taken) + rest'.length ≤ 2 + (taken ++ rest').length
      unfold headerLength
      rw [List.length_append]
      split
      · omega
      · split <;> omega
    · obtain ⟨rfl, rfl⟩ := Prod.mk.inj (Option.some.inj h)
      unfold headerLength
      rw [if_pos (by omega)]

/-- A body has its announced length, and takes at least that much of the input. -/
theorem readBody_length {first : UInt8} {masked : Bool} {length : Nat} {bytes rest : List UInt8}
    {frame : WireFrame} (h : readBody first masked length bytes = some (frame, rest)) :
    frame.payload.length = length ∧ length + rest.length ≤ bytes.length := by
  obtain ⟨⟨key, bytes'⟩, hkey, h⟩ := Option.bind_eq_some_iff.mp h
  obtain ⟨⟨payload, rest'⟩, hpayload, h⟩ := Option.bind_eq_some_iff.mp h
  obtain ⟨rfl, rfl⟩ := Prod.mk.inj (Option.some.inj h)
  obtain ⟨rfl, hlength⟩ := splitBytes_eq hpayload
  have hkeep : (payload ++ rest').length ≤ bytes.length := by
    unfold readMaskingKey at hkey
    split at hkey
    · obtain ⟨⟨taken, rest''⟩, hsplit, hpair⟩ := Option.map_eq_some_iff.mp hkey
      obtain ⟨rfl, rfl⟩ := Prod.mk.inj hpair
      obtain ⟨rfl, _⟩ := splitBytes_eq hsplit
      simp only [List.length_append]
      omega
    · obtain ⟨rfl, rfl⟩ := Prod.mk.inj (Option.some.inj hkey)
      exact le_rfl
  have hunmask : (unmask key payload).length = payload.length := by
    unfold unmask
    cases key <;> simp
  rw [List.length_append] at hkeep
  exact ⟨hunmask.trans hlength, by omega⟩

/-- A frame takes at least its shortest header and its payload. -/
theorem readFrame_length {bytes rest : List UInt8} {frame : WireFrame}
    (h : readFrame bytes = some (frame, rest)) :
    headerLength frame.payload.length + frame.payload.length + rest.length ≤ bytes.length := by
  match bytes, h with
  | first :: second :: bytes, h =>
      obtain ⟨⟨length, bytes'⟩, hlength, hbody⟩ := Option.bind_eq_some_iff.mp h
      have hheader := readLength_length (Nat.mod_lt _ (by omega)) hlength
      obtain ⟨hpayload, hrest⟩ := readBody_length hbody
      rw [hpayload, List.length_cons, List.length_cons]
      omega

theorem headerLength_pos (length : Nat) : 2 ≤ headerLength length := by
  unfold headerLength
  split
  · exact le_rfl
  · split <;> omega

/-- Reading a frame uses up input, so a stream has finitely many. -/
theorem readFrame_shrinks {bytes rest : List UInt8} {frame : WireFrame}
    (h : readFrame bytes = some (frame, rest)) : rest.length < bytes.length := by
  have hlength := readFrame_length h
  have hheader := headerLength_pos frame.payload.length
  omega

/-! ## §4. The shortest length. -/

/-- The bytes of the length in the shortest form, the masking bit not set. -/
def shortestLength (length : Nat) : List UInt8 :=
  if length < 126 then [UInt8.ofNat length]
  else if length < 65536 then 126 :: toBigEndian 2 length
  else 127 :: toBigEndian 8 length

theorem length_shortestLength (length : Nat) :
    (shortestLength length).length + 1 = headerLength length := by
  unfold shortestLength headerLength
  split
  · rfl
  · split
    · rw [List.length_cons, length_toBigEndian]
    · rw [List.length_cons, length_toBigEndian]

/-- The reader reads the shortest form of a length back. -/
theorem readLength_shortestLength {length : Nat} (h : length < 2 ^ 63) :
    ∃ second extended, shortestLength length = second :: extended ∧ second.toNat < 128 ∧
      ∀ rest, readLength second.toNat (extended ++ rest) = some (length, rest) := by
  unfold shortestLength readLength
  by_cases hshort : length < 126
  · have hbyte : (UInt8.ofNat length).toNat = length :=
      UInt8.toNat_ofNat_of_lt' (hshort.trans (by decide))
    refine ⟨UInt8.ofNat length, [], if_pos hshort, by omega, ?_⟩
    intro rest
    rw [hbyte, if_neg (by omega), if_neg (by omega)]
    rfl
  by_cases hmedium : length < 65536
  · refine ⟨126, toBigEndian 2 length, by rw [if_neg hshort, if_pos hmedium], by decide, ?_⟩
    intro rest
    rw [if_pos (by decide), splitBytes_append rest (length_toBigEndian 2 length), Option.map_some,
      ofBigEndian_toBigEndian (by omega)]
  · refine ⟨127, toBigEndian 8 length, by rw [if_neg hshort, if_neg hmedium], by decide, ?_⟩
    intro rest
    rw [if_neg (by decide), if_pos (by decide), splitBytes_append rest (length_toBigEndian 8 length),
      Option.map_some, ofBigEndian_toBigEndian (by omega), Option.filter_some, if_pos (by simpa using h)]

/-- An unmasked frame with the shortest length reads back, and leaves what follows it. -/
theorem readFrame_shortest {length : Nat} (h : length < 2 ^ 63) (first : UInt8) (bytes : List UInt8) :
    readFrame (first :: (shortestLength length ++ bytes)) = readBody first false length bytes := by
  obtain ⟨second, extended, hbytes, hsmall, hread⟩ := readLength_shortestLength h
  have hmasked : decide (128 ≤ second.toNat) = false := decide_eq_false (by omega)
  rw [hbytes, List.cons_append, readFrame, Nat.mod_eq_of_lt hsmall, hread, hmasked]
  rfl

/-! ## §5. Streams. -/

/-- All frames of a stream; nothing may be left over. -/
def readFrames (bytes : List UInt8) : Option (List WireFrame) :=
  if bytes = [] then some []
  else
    match h : readFrame bytes with
    | none => none
    | some (frame, rest) =>
        have := readFrame_shrinks h
        (readFrames rest).map (fun frames => frame :: frames)
  termination_by bytes.length

theorem readFrames_nil : readFrames [] = some [] := by
  rw [readFrames, if_pos rfl]

theorem readFrames_of_readFrame {bytes rest : List UInt8} {frame : WireFrame}
    (h : readFrame bytes = some (frame, rest)) :
    readFrames bytes = (readFrames rest).map (fun frames => frame :: frames) := by
  have hne : bytes ≠ [] := by
    intro hnil
    rw [hnil] at h
    cases h
  rw [readFrames, if_neg hne]
  split
  · rename_i hnone
    rw [h] at hnone
    cases hnone
  · rename_i frame' rest' hsome
    obtain ⟨rfl, rfl⟩ := Prod.mk.inj (Option.some.inj (h.symm.trans hsome))
    rfl

/-- **Streams of frames.**  Encodings that each read back to their frame, whatever
follows, read back one after the other. -/
theorem readFrames_flatMap {α : Type} {encode : α → List UInt8} {frame : α → WireFrame}
    {messages : List α} (h : ∀ m ∈ messages, ∀ rest, readFrame (encode m ++ rest) = some (frame m, rest)) :
    readFrames (messages.flatMap encode) = some (messages.map frame) := by
  induction messages with
  | nil => exact readFrames_nil
  | cons m messages ih =>
      have hrest := ih (fun m' hm' => h m' (List.mem_cons_of_mem m hm'))
      rw [List.flatMap_cons, readFrames_of_readFrame (h m List.mem_cons_self _), hrest]
      rfl

end Framing
