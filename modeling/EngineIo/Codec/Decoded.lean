import EngineIo.Codec.Payload
import EngineIo.Codec.WebTransport

set_option autoImplicit false

/-! # What the decoders return

A packet has a valid type, and a binary packet is a message (`Packet.IsBinary`). The v4 codec, websocket
frames and WebTransport frames make a binary packet a message by construction. The older long-polling
framings read its type from the payload, so there the invariant is a property of the payload. -/

namespace EngineIo

open Cursor Stream

/-! ## Packets, websocket frames and WebTransport frames -/

theorem wellFormed_binary (data : List UInt8) :
    Packet.WellFormed { type := .message, data, isBinary := true } :=
  ⟨rfl, fun _ => rfl⟩

theorem wellFormed_of_decodePacket {bytes : List UInt8} {p : Packet}
    (h : decodePacket bytes = .ok p) : p.WellFormed := by
  cases bytes with
  | nil => cases h
  | cons b rest =>
    rw [decodePacket] at h
    split at h
    · split at h
      · cases h
      · obtain rfl := Except.ok.inj h
        exact wellFormed_binary _
    · split at h
      · next hvalid =>
        obtain rfl := Except.ok.inj h
        exact ⟨hvalid, by simp⟩
      · cases h

theorem wellFormed_of_decodeWebSocketFrame {frame : Frame} {p : Packet}
    (h : decodeWebSocketFrame frame = .ok p) : p.WellFormed := by
  cases frame with
  | text bytes => exact wellFormed_of_decodePacket h
  | binary bytes =>
    obtain rfl := Except.ok.inj h
    exact wellFormed_binary bytes

theorem wellFormed_of_decodeWebTransportPayload {isBinary : Bool} {payload : List UInt8} {p : Packet}
    (h : decodeWebTransportPayload isBinary payload = .ok p) : p.WellFormed := by
  unfold decodeWebTransportPayload at h
  split at h
  · obtain rfl := Except.ok.inj h
    exact wellFormed_binary payload
  · cases hd : decodePacket payload with
    | error e =>
      rw [hd] at h
      cases h
    | ok q =>
      obtain rfl : q = p := by simpa [hd, Except.mapError] using h
      exact wellFormed_of_decodePacket hd

theorem wellFormed_of_readWebTransportPacket {maxPayload : Int} {r r' : List UInt8} {p : Packet}
    (h : readWebTransportPacket maxPayload r = (.ok p, r')) : p.WellFormed := by
  unfold readWebTransportPacket readWebTransportPacketOn at h
  obtain ⟨header, r₁, -, h⟩ := bind_eq_ok h
  obtain ⟨length, r₂, -, h⟩ := bind_eq_ok h
  split at h
  · cases h
  · split at h
    · cases h
    · obtain ⟨payload, r₃, -, h⟩ := bind_eq_ok h
      cases hd : decodeWebTransportPayload (header.headD 0 &&& webTransportBinaryFlag != 0) payload with
      | error e =>
        rw [hd] at h
        cases h
      | ok q =>
        rw [hd] at h
        cases h
        exact wellFormed_of_decodeWebTransportPayload hd

/-! ## The older framings -/

/-- The type that the body of a string frame gives to a binary packet. -/
def stringBinaryType : List UInt8 → Option PacketType
  | b :: t :: _ => if b = binaryMarker then some (.ofByte t) else none
  | _ => none

/-- The type that the body of a binary frame gives to a binary packet. -/
def binaryBinaryType (marker : UInt8) (body : List UInt8) : Option PacketType :=
  if marker = binaryStringMarker then stringBinaryType body else body.head?.map PacketType.mk

/-- The type of the binary packet in the frame at `cursor`, for either framing. -/
def typeAt {α : Type} (binaryType : List α → Option PacketType) (xs : List α) (start stop : Int) :
    Option PacketType :=
  match (slice xs start stop : Except (Fault PayloadError) (List α)) with
  | .error _ => none
  | .ok body => binaryType body

def stringBinaryTypeAt (runes : List Nat) (cursor : Int) : Option PacketType :=
  match stringHeader runes cursor with
  | .error _ => none
  | .ok (start, length) =>
    typeAt (fun body => stringBinaryType (Utf8.string body)) runes start (int64 (start + length))

def binaryBinaryTypeAt (input : List UInt8) (cursor : Int) : Option PacketType :=
  match binaryHeader input cursor with
  | .error _ => none
  | .ok (marker, start, length) =>
    typeAt (binaryBinaryType marker) input start (int64 (start + length))

/-- The packet has a valid type, and it is binary exactly when the frame gives it that type so. -/
def Packet.HasType (p : Packet) (binaryType : Option PacketType) : Prop :=
  p.type.valid = true ∧ binaryType = if p.isBinary then some p.type else none

theorem decodeStringFramedPacket_type {body : List UInt8} {p : Packet}
    (h : decodeStringFramedPacket body = .ok p) : p.HasType (stringBinaryType body) := by
  revert h
  fun_cases decodeStringFramedPacket body with
  | case4 t encoded hvalid =>
    rintro ⟨⟩
    exact ⟨hvalid, by simp [stringBinaryType]⟩
  | case6 b rest hb hvalid =>
    rintro ⟨⟩
    exact ⟨hvalid, by cases rest <;> simp [stringBinaryType, hb]⟩
  | _ => nofun

theorem decodeBinaryFramedPacket_type {marker : UInt8} {body : List UInt8} {p : Packet}
    (h : decodeBinaryFramedPacket marker body = .ok p) : p.HasType (binaryBinaryType marker body) := by
  unfold decodeBinaryFramedPacket at h
  unfold binaryBinaryType
  split at h
  · next hm =>
    rw [if_pos hm]
    exact decodeStringFramedPacket_type h
  · next hm =>
    rw [if_neg hm]
    split at h
    · cases h
    · split at h
      · next hvalid =>
        obtain rfl := Except.ok.inj h
        exact ⟨hvalid, rfl⟩
      · cases h

theorem decodeBody_type {α : Type} {decode : List α → Except PayloadError Packet}
    {binaryType : List α → Option PacketType}
    (hdecode : ∀ {body p}, decode body = .ok p → p.HasType (binaryType body))
    {xs : List α} {start stop next : Int} {p : Packet}
    (h : decodeBody decode xs start stop = .ok (p, next)) :
    p.HasType (typeAt binaryType xs start stop) := by
  unfold decodeBody at h
  unfold typeAt
  cases hs : slice xs start stop with
  | error e =>
    rw [hs] at h
    cases h
  | ok body =>
    simp only [hs] at h ⊢
    cases hd : decode body with
    | error e =>
      rw [hd] at h
      cases h
    | ok packet =>
      rw [hd] at h
      cases h
      exact hdecode hd

theorem stringFrame_type {runes : List Nat} {cursor next : Int} {p : Packet}
    (h : stringFrame runes cursor = .ok (p, next)) : p.HasType (stringBinaryTypeAt runes cursor) := by
  unfold stringFrame at h
  unfold stringBinaryTypeAt
  cases hh : stringHeader runes cursor with
  | error e =>
    rw [hh] at h
    cases h
  | ok header =>
    simp only [hh] at h ⊢
    split at h
    · cases h
    · exact decodeBody_type decodeStringFramedPacket_type h

theorem binaryFrame_type {input : List UInt8} {cursor next : Int} {p : Packet}
    (h : binaryFrame input cursor = .ok (p, next)) : p.HasType (binaryBinaryTypeAt input cursor) := by
  unfold binaryFrame at h
  unfold binaryBinaryTypeAt
  cases hh : binaryHeader input cursor with
  | error e =>
    rw [hh] at h
    cases h
  | ok header =>
    simp only [hh] at h ⊢
    split at h
    · cases h
    · exact decodeBody_type decodeBinaryFramedPacket_type h

/-- Every frame with a binary packet that a loop reaches gives it the type of a message. -/
def BinaryMessages (step : Int → Except (Fault PayloadError) (Packet × Int)) (len : Int)
    (typeAt : Int → Option PacketType) : Prop :=
  ∀ c t, Reached step len c → c < len → typeAt c = some t → t = .message

/-- A payload in which every binary packet has the type of a message. In v4 a binary packet has no type
    to give. -/
def BinaryFramesAreMessages (version : Int) (input : List UInt8) : Prop :=
  (version = 3 ∧ startsBinary input = true →
    BinaryMessages (binaryFrame input) input.length (binaryBinaryTypeAt input)) ∧
  (version = 2 ∨ version = 3 ∧ startsBinary input = false →
    BinaryMessages (stringFrame (Utf8.runes input)) (Utf8.runes input).length
      (stringBinaryTypeAt (Utf8.runes input)))

theorem Packet.HasType.wellFormed_iff {p : Packet} {t : Option PacketType} (h : p.HasType t) :
    p.WellFormed ↔ ∀ t', t = some t' → t' = .message := by
  obtain ⟨hvalid, ht⟩ := h
  constructor
  · rintro hp t' rfl
    cases hb : p.isBinary with
    | true =>
      obtain rfl : t' = p.type := by simpa [hb] using ht
      exact hp.binary_message hb
    | false => simp [hb] at ht
  · intro hall
    exact ⟨hvalid, fun hb => hall _ (by rw [ht, if_pos hb])⟩

/-- Both framings are loops whose packets have the types that their frames give them. -/
theorem run_wellFormed_iff {step : Int → Except (Fault PayloadError) (Packet × Int)} {len : Int}
    {typeAt : Int → Option PacketType}
    (htype : ∀ {c next p}, step c = .ok (p, next) → p.HasType (typeAt c)) {fuel : Nat}
    {ps : List Packet} (h : run step len fuel 0 = .ok ps) :
    (∀ p ∈ ps, p.type.valid = true) ∧
      ((∀ p ∈ ps, p.WellFormed) ↔ BinaryMessages step len typeAt) := by
  have hstep : ∀ c, Reached step len c → c < len → ∃ p next, step c = .ok (p, next) ∧ True :=
    (forall_mem_run_iff h fun _ => True).1 fun _ _ => trivial
  constructor
  · refine (forall_mem_run_iff h _).2 fun c hr hlt => ?_
    obtain ⟨p, next, hs, -⟩ := hstep c hr hlt
    exact ⟨p, next, hs, (htype hs).1⟩
  · rw [forall_mem_run_iff h]
    constructor
    · intro hall c t hr hlt ht
      obtain ⟨p, next, hs, hp⟩ := hall c hr hlt
      exact (htype hs).wellFormed_iff.1 hp t ht
    · intro hall c hr hlt
      obtain ⟨p, next, hs, -⟩ := hstep c hr hlt
      exact ⟨p, next, hs, (htype hs).wellFormed_iff.2 fun t => hall c t hr hlt⟩

theorem wellFormed_of_decodeRecordSeparatorPayload {input : List UInt8} {ps : List Packet}
    (h : decodeRecordSeparatorPayload input = .ok ps) : ∀ p ∈ ps, p.WellFormed := by
  intro p hp
  obtain ⟨segment, -, hd⟩ := AllOrNothing.exists_of_mem_mapM h hp
  exact wellFormed_of_decodePacket hd

theorem decodePayload_wellFormed_iff {version : Int} {input : List UInt8} {ps : List Packet}
    (h : decodePayload version input = .ok ps) :
    (∀ p ∈ ps, p.type.valid = true) ∧
      ((∀ p ∈ ps, p.WellFormed) ↔ BinaryFramesAreMessages version input) := by
  unfold decodePayload at h
  split at h
  · next h4 =>
    subst h4
    split at h
    · cases h
    · next packets hd =>
      obtain rfl := Except.ok.inj h
      have hwf := wellFormed_of_decodeRecordSeparatorPayload hd
      exact ⟨fun p hp => (hwf p hp).type_valid, by simpa [BinaryFramesAreMessages] using hwf⟩
  · split at h
    · next h3 =>
      subst h3
      split at h
      · next hb =>
        have hrun := run_wellFormed_iff binaryFrame_type h
        simpa [BinaryFramesAreMessages, hb] using hrun
      · next hb =>
        have hrun := run_wellFormed_iff stringFrame_type h
        simpa [BinaryFramesAreMessages, hb] using hrun
    · split at h
      · next h2 =>
        subst h2
        have hrun := run_wellFormed_iff stringFrame_type h
        simpa [BinaryFramesAreMessages] using hrun
      · cases h

/-- **Decoded packets.** Every decoder gives packets of valid types. Packets, websocket frames and
    WebTransport frames always satisfy the invariant; the packets of a payload satisfy it exactly when the
    binary packets of the older framings have the type of a message. -/
theorem decoded_wellFormed (bytes : List UInt8) (frame : Frame) (maxPayload : Int) (version : Int) :
    (∀ p, decodePacket bytes = .ok p → p.WellFormed) ∧
      (∀ p, decodeWebSocketFrame frame = .ok p → p.WellFormed) ∧
      (∀ p rest, readWebTransportPacket maxPayload bytes = (.ok p, rest) → p.WellFormed) ∧
      ∀ ps, decodePayload version bytes = .ok ps →
        (∀ p ∈ ps, p.type.valid = true) ∧
          ((∀ p ∈ ps, p.WellFormed) ↔ BinaryFramesAreMessages version bytes) :=
  ⟨fun _ => wellFormed_of_decodePacket, fun _ => wellFormed_of_decodeWebSocketFrame,
    fun _ _ => wellFormed_of_readWebTransportPacket, fun _ => decodePayload_wellFormed_iff⟩

/-- A binary packet of type open in the string framing (`6:b0YQ==`) and one in the binary framing. -/
theorem decodePayload_binary_open :
    decodePayload 2 [54, 58, 98, 48, 89, 81, 61, 61] =
        .ok [{ type := .open, data := [97], isBinary := true }] ∧
      decodePayload 3 [1, 2, 255, 0, 97] =
        .ok [{ type := .open, data := [97], isBinary := true }] ∧
      ¬ Packet.WellFormed { type := .open, data := [97], isBinary := true } := by
  refine ⟨by decide +kernel, by decide +kernel, fun h => ?_⟩
  exact absurd (h.binary_message rfl) (by decide)

end EngineIo
