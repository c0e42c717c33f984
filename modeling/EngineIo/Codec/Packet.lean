import EngineIo.Codec.Base64

set_option autoImplicit false

/-! # Packets and the v4 codec (`packet.go`, `encoding.go`, `payload.go`)

A packet is a type, its data and the flag that marks a binary message. On the wire a packet is its
type digit followed by the data, or the marker `b` followed by base64; a v4 long-polling payload
joins packets with the record separator `0x1e`, and a websocket frame carries one packet. -/

namespace EngineIo

/-- `PacketType` is a byte; the codec only accepts the seven known values. -/
structure PacketType where
  code : UInt8
deriving DecidableEq, Repr

namespace PacketType

protected def «open» : PacketType := ⟨0⟩
def close : PacketType := ⟨1⟩
def ping : PacketType := ⟨2⟩
def pong : PacketType := ⟨3⟩
def message : PacketType := ⟨4⟩
def upgrade : PacketType := ⟨5⟩
def noop : PacketType := ⟨6⟩

/-- `Byte`: the ASCII digit of the type. -/
def byte (t : PacketType) : UInt8 := t.code + 48

def valid (t : PacketType) : Bool := t.code ≤ noop.code

/-- `PacketTypeFromByte`. -/
def ofByte (b : UInt8) : PacketType := ⟨b - 48⟩

end PacketType

structure Packet where
  type : PacketType
  data : List UInt8 := []
  isBinary : Bool := false
deriving DecidableEq, Repr

/-- The documented invariant of a packet, together with the validity of its type. -/
structure Packet.WellFormed (p : Packet) : Prop where
  type_valid : p.type.valid = true
  binary_message : p.isBinary = true → p.type = .message

/-- The messages among packets, in order. -/
def messages (ps : List Packet) : List Packet := ps.filter (·.type = .message)

theorem messages_append (ps qs : List Packet) : messages (ps ++ qs) = messages ps ++ messages qs := by
  simp [messages]

theorem messages_cons (p : Packet) (ps : List Packet) :
    messages (p :: ps) = messages [p] ++ messages ps :=
  messages_append [p] ps

inductive DecodeError
  | emptyPacket
  | invalidPacketType (b : UInt8)
  | base64
deriving DecidableEq, Repr

/-- `BinaryMarker`, the character `b`. -/
def binaryMarker : UInt8 := 98

/-- `Separator`, the record separator. -/
def separator : UInt8 := 0x1e

/-- `EncodePacket`. -/
def encodePacket (p : Packet) : List UInt8 :=
  if p.isBinary then binaryMarker :: Base64.encode p.data else p.type.byte :: p.data

/-- `DecodePacket`. -/
def decodePacket : List UInt8 → Except DecodeError Packet
  | [] => .error .emptyPacket
  | b :: rest =>
    if b = binaryMarker then
      match Base64.decode rest with
      | none => .error .base64
      | some data => .ok { type := .message, data, isBinary := true }
    else if (PacketType.ofByte b).valid then .ok { type := .ofByte b, data := rest }
    else .error (.invalidPacketType b)

/-- `EncodePayload`: the packets' wire forms joined by the separator. -/
def encodePayload (ps : List Packet) : List UInt8 :=
  [separator].intercalate (ps.map encodePacket)

/-- `decodeRecordSeparatorPayload`: split on the separator and decode every segment, stopping at
    the first that fails. -/
def decodeRecordSeparatorPayload (input : List UInt8) : Except DecodeError (List Packet) :=
  (input.splitOn separator).mapM decodePacket

/-- A websocket frame: binary messages travel raw, everything else as text. -/
inductive Frame
  | text (bytes : List UInt8)
  | binary (bytes : List UInt8)
deriving DecidableEq, Repr

/-- The frame both websocket transports write for a packet. -/
def encodeFrame (p : Packet) : Frame :=
  if p.isBinary then .binary p.data else .text (encodePacket p)

def decodeWebSocketFrame : Frame → Except DecodeError Packet
  | .binary bytes => .ok { type := .message, data := bytes, isBinary := true }
  | .text bytes => decodePacket bytes

/-! ## Round trips -/

/-- A text packet whose data holds the separator would be cut in two by the payload codec. -/
def Packet.Separable (p : Packet) : Prop := p.isBinary = false → separator ∉ p.data

instance (p : Packet) : Decidable p.Separable := inferInstanceAs (Decidable (_ → _))

theorem PacketType.ofByte_byte (t : PacketType) : ofByte t.byte = t := by
  obtain ⟨c⟩ := t
  simp [ofByte, byte]

theorem PacketType.byte_of_valid {t : PacketType} (h : t.valid = true) :
    48 ≤ t.byte ∧ t.byte ≤ 54 := by
  obtain ⟨c⟩ := t
  have hc : c.toNat ≤ 6 := by simpa [valid, noop, UInt8.le_iff_toNat_le] using h
  simp only [byte, UInt8.le_iff_toNat_le, UInt8.toNat_add]
  have h48 : (48 : UInt8).toNat = 48 := rfl
  have h54 : (54 : UInt8).toNat = 54 := rfl
  omega

theorem decodePacket_encodePacket {p : Packet} (hp : p.WellFormed) :
    decodePacket (encodePacket p) = .ok p := by
  obtain ⟨t, data, bin⟩ := p
  cases bin with
  | true =>
    obtain rfl : t = .message := hp.binary_message rfl
    simp [encodePacket, decodePacket, Base64.decode_encode]
  | false =>
    have hvalid : t.valid = true := hp.type_valid
    have hmark : t.byte ≠ binaryMarker := by
      intro h
      have hle := (PacketType.byte_of_valid hvalid).2
      rw [h] at hle
      exact absurd hle (by decide)
    simp [encodePacket, decodePacket, hmark, PacketType.ofByte_byte, hvalid]

theorem decodeWebSocketFrame_encodeFrame {p : Packet} (hp : p.WellFormed) :
    decodeWebSocketFrame (encodeFrame p) = .ok p := by
  cases hb : p.isBinary with
  | true =>
    obtain ⟨t, data, bin⟩ := p
    obtain rfl : bin = true := hb
    obtain rfl : t = .message := hp.binary_message rfl
    simp [encodeFrame, decodeWebSocketFrame]
  | false => simpa [encodeFrame, hb, decodeWebSocketFrame] using decodePacket_encodePacket hp

theorem encodePacket_ne_nil (p : Packet) : encodePacket p ≠ [] := by
  unfold encodePacket
  split <;> simp

theorem encodePayload_ne_nil {ps : List Packet} (hne : ps ≠ []) : encodePayload ps ≠ [] := by
  cases ps with
  | nil => exact absurd rfl hne
  | cons p ps =>
    cases ps with
    | nil => simpa [encodePayload] using encodePacket_ne_nil p
    | cons q ps => simp [encodePayload, List.intercalate, encodePacket_ne_nil]

theorem separator_not_mem_encodePacket {p : Packet} (hp : p.WellFormed) (hs : p.Separable) :
    separator ∉ encodePacket p := by
  cases hb : p.isBinary with
  | true =>
    simp only [encodePacket, hb, if_true, List.mem_cons, not_or]
    refine ⟨by decide, fun hmem => ?_⟩
    exact absurd (Base64.encode_ge _ _ hmem) (by decide)
  | false =>
    simp only [encodePacket, hb, Bool.false_eq_true, if_false, List.mem_cons, not_or]
    refine ⟨fun h => ?_, hs hb⟩
    have hge := (PacketType.byte_of_valid hp.type_valid).1
    rw [← h] at hge
    exact absurd hge (by decide)

theorem splitOn_encodePayload {ps : List Packet} (hne : ps ≠ [])
    (hps : ∀ p ∈ ps, p.WellFormed ∧ p.Separable) :
    (encodePayload ps).splitOn separator = ps.map encodePacket := by
  refine List.splitOn_intercalate separator ?_ (by simpa using hne)
  intro l hl
  obtain ⟨p, hp, rfl⟩ := List.mem_map.1 hl
  exact separator_not_mem_encodePacket (hps p hp).1 (hps p hp).2

/-- Decoding a payload gives back the packets it was built from. -/
theorem decodeRecordSeparatorPayload_encodePayload {ps : List Packet} (hne : ps ≠ [])
    (hps : ∀ p ∈ ps, p.WellFormed ∧ p.Separable) :
    decodeRecordSeparatorPayload (encodePayload ps) = .ok ps := by
  rw [decodeRecordSeparatorPayload, splitOn_encodePayload hne hps]
  clear hne
  induction ps with
  | nil => rfl
  | cons p ps ih =>
    have hhead := decodePacket_encodePacket (hps p (List.mem_cons_self ..)).1
    have htail := ih fun q hq => hps q (List.mem_cons_of_mem _ hq)
    rw [List.map_cons, List.mapM_cons, hhead, htail]
    rfl

/-! ## Encoding into a buffer -/

/-- `appendPacket`. -/
def appendPacket (dst : List UInt8) (p : Packet) : List UInt8 :=
  if p.isBinary then (dst ++ [binaryMarker]) ++ Base64.encode p.data
  else (dst ++ [p.type.byte]) ++ p.data

/-- One round of the loop of `appendPayload`; the first packet has no separator before it. -/
def appendNext (dst : List UInt8) (first : Bool) (p : Packet) : List UInt8 :=
  appendPacket (if first then dst else dst ++ [separator]) p

theorem appendPacket_eq (dst : List UInt8) (p : Packet) : appendPacket dst p = dst ++ encodePacket p := by
  unfold appendPacket encodePacket
  split <;> simp

theorem encodePayload_concat {done : List Packet} (hne : done ≠ []) (p : Packet) :
    encodePayload (done ++ [p]) = encodePayload done ++ separator :: encodePacket p := by
  induction done with
  | nil => exact absurd rfl hne
  | cons q done ih =>
    cases done with
    | nil => simp [encodePayload, List.intercalate]
    | cons r done =>
      have hjoin (qs : List Packet) : encodePayload (q :: r :: qs) =
          encodePacket q ++ separator :: encodePayload (r :: qs) := by
        simp [encodePayload, List.intercalate]
      have htail := ih (List.cons_ne_nil r done)
      rw [List.cons_append] at htail
      rw [List.cons_append, List.cons_append, hjoin, hjoin, htail]
      simp

/-- What the loop of `appendPayload` has in an emptied buffer, after the packets of `done`. -/
theorem appendNext_encodePayload (done : List Packet) (p : Packet) :
    appendNext (encodePayload done) done.isEmpty p = encodePayload (done ++ [p]) := by
  rw [appendNext, appendPacket_eq]
  cases done with
  | nil => simp [encodePayload]
  | cons q done =>
    rw [encodePayload_concat (List.cons_ne_nil q done)]
    simp

end EngineIo
