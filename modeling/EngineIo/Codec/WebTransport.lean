import EngineIo.Codec.Cursor
import EngineIo.Codec.Packet
import EngineIo.Codec.Stream

set_option autoImplicit false

/-! # WebTransport framing (`encoding_webtransport.go`)

Every packet travels on one stream behind a header byte whose top bit flags a binary message and whose
low seven bits are the length, or a marker for a length in the next two or eight bytes.

`make` panics at a length above what the runtime can allocate, which depends on the platform and is a
parameter here (`maxAlloc`). Where the payloads of the frames exist as Go slices, as they do when they are
written, all that matters is that the length of a slice is an `int`. -/

namespace EngineIo

open Cursor (Fault)
open Stream

/-! ## The codec -/

/-- `webTransportLen16Marker`. -/
def webTransportLen16Marker : UInt8 := 126

/-- `webTransportLen64Marker`. -/
def webTransportLen64Marker : UInt8 := 127

/-- `webTransportBinaryFlag`. -/
def webTransportBinaryFlag : UInt8 := 0x80

inductive WebTransportError
  | read (e : ReadError)
  | frameTooLarge (length : Nat) (maxPayload : Int)
  | decode (e : DecodeError)
deriving DecidableEq, Repr

/-- What `appendWebTransportFrame` puts behind the header, and the flag it folds into it. -/
def webTransportPayload (packet : Packet) : List UInt8 × UInt8 :=
  if packet.isBinary then (packet.data, webTransportBinaryFlag) else (encodePacket packet, 0)

/-- The header byte and the extended length of a payload. -/
def webTransportHeader (length : Nat) (flag : UInt8) : List UInt8 :=
  if length < webTransportLen16Marker.toNat then [UInt8.ofNat length ||| flag]
  else if length < 2 ^ 16 then (webTransportLen16Marker ||| flag) :: bigEndian 2 length
  else (webTransportLen64Marker ||| flag) :: bigEndian 8 length

def appendWebTransportFrame (dst : List UInt8) (packet : Packet) : List UInt8 :=
  let (payload, flag) := webTransportPayload packet
  dst ++ webTransportHeader payload.length flag ++ payload

/-- The bytes that the transports' `writeFrames` hands to the stream. -/
def appendWebTransportFrames (packets : List Packet) : List UInt8 :=
  packets.foldl appendWebTransportFrame []

abbrev WebTransportReader := Reader (Fault WebTransportError)

/-- The length that the low seven bits of the header announce, or the one in the bytes behind it. -/
def readWebTransportLength (marker : UInt8) : WebTransportReader Nat :=
  if marker < webTransportLen16Marker then pure marker.toNat
  else if marker = webTransportLen16Marker then do
    let extended ← readFull (.error ∘ .read) 2
    return ofBigEndian extended
  else do
    let extended ← readFull (.error ∘ .read) 8
    return ofBigEndian extended

/-- The last lines of `readWebTransportPacket`: a flagged frame is a binary message, any other frame
    the text form. -/
def decodeWebTransportPayload (isBinary : Bool) (payload : List UInt8) :
    Except (Fault WebTransportError) Packet :=
  if isBinary then .ok { type := .message, data := payload, isBinary := true }
  else (decodePacket payload).mapError (.error ∘ .decode)

/-- `readWebTransportPacket` on a platform where `make` panics above `maxAlloc` bytes. -/
def readWebTransportPacketOn (maxAlloc : Nat) (maxPayload : Int) : WebTransportReader Packet := do
  let header ← readFull (.error ∘ .read) 1
  let first := header.headD 0
  let isBinary := first &&& webTransportBinaryFlag != 0
  let length ← readWebTransportLength (first &&& ~~~webTransportBinaryFlag)
  if maxPayload > 0 ∧ (length : Int) > maxPayload then
    throw (.error (.frameTooLarge length maxPayload))
  -- `make([]byte, length)`
  else if maxAlloc < length then throw .panic
  else do
    let payload ← readFull (.error ∘ .read) length
    MonadExcept.ofExcept (decodeWebTransportPayload isBinary payload)

/-- The same where every length that is an `int` can be allocated. -/
def readWebTransportPacket (maxPayload : Int) : WebTransportReader Packet :=
  readWebTransportPacketOn (2 ^ 63 - 1) maxPayload

/-! ## Headers

The header of a frame as any peer may write it: the short form is not always the one used for a short
payload. -/

/-- How many bytes of length follow a header byte with these low seven bits. -/
def extendedWidth (marker : UInt8) : Nat :=
  if marker < webTransportLen16Marker then 0 else if marker = webTransportLen16Marker then 2 else 8

structure FrameHeader where
  isBinary : Bool
  /-- The low seven bits of the header byte. -/
  marker : UInt8
  extended : List UInt8
  marker_lt : marker < 128
  extended_length : extended.length = extendedWidth marker

/-- The length the header declares. -/
def FrameHeader.length (h : FrameHeader) : Nat :=
  if h.marker < webTransportLen16Marker then h.marker.toNat else ofBigEndian h.extended

def FrameHeader.bytes (h : FrameHeader) : List UInt8 :=
  (h.marker ||| if h.isBinary then webTransportBinaryFlag else 0) :: h.extended

/-- The first reads of `readWebTransportPacket`: the flag and the declared length. -/
def readWebTransportHeader : WebTransportReader (Bool × Nat) := do
  let header ← readFull (.error ∘ .read) 1
  let first := header.headD 0
  let length ← readWebTransportLength (first &&& ~~~webTransportBinaryFlag)
  return (first &&& webTransportBinaryFlag != 0, length)

/-- The rest of it, once the length is known. -/
def readWebTransportBody (maxAlloc : Nat) (maxPayload : Int) (isBinary : Bool) (length : Nat) :
    WebTransportReader Packet :=
  if maxPayload > 0 ∧ (length : Int) > maxPayload then
    throw (.error (.frameTooLarge length maxPayload))
  else if maxAlloc < length then throw .panic
  else do
    let payload ← readFull (.error ∘ .read) length
    MonadExcept.ofExcept (decodeWebTransportPayload isBinary payload)

theorem readWebTransportPacketOn_eq (maxAlloc : Nat) (maxPayload : Int) :
    readWebTransportPacketOn maxAlloc maxPayload =
      readWebTransportHeader >>= fun h => readWebTransportBody maxAlloc maxPayload h.1 h.2 := by
  simp only [readWebTransportPacketOn, readWebTransportHeader, readWebTransportBody, bind_assoc,
    pure_bind]

/-- The flag and the low seven bits of the header can be told apart again. -/
theorem header_bits (isBinary : Bool) {marker : UInt8} (hm : marker < 128) :
    ((marker ||| if isBinary then webTransportBinaryFlag else 0) &&& webTransportBinaryFlag != 0) =
        isBinary ∧
      (marker ||| if isBinary then webTransportBinaryFlag else 0) &&& ~~~webTransportBinaryFlag =
        marker := by
  have hbits : ∀ n < 128, ∀ b : Bool,
      ((UInt8.ofNat n ||| if b then webTransportBinaryFlag else 0) &&& webTransportBinaryFlag != 0) =
          b ∧
        (UInt8.ofNat n ||| if b then webTransportBinaryFlag else 0) &&& ~~~webTransportBinaryFlag =
          UInt8.ofNat n := by
    decide
  have hmarker : UInt8.ofNat marker.toNat = marker := by simp
  have hlt : marker.toNat < 128 := by simpa [UInt8.lt_iff_toNat_lt] using hm
  simpa only [hmarker] using hbits marker.toNat hlt isBinary

/-- Every byte is a flag and seven low bits. -/
theorem byte_split (b : UInt8) : ∃ (isBinary : Bool) (marker : UInt8), marker < 128 ∧
    b = marker ||| if isBinary then webTransportBinaryFlag else 0 := by
  have hbits : ∀ n : Fin 256, UInt8.ofNat n &&& ~~~webTransportBinaryFlag < 128 ∧
      UInt8.ofNat n = (UInt8.ofNat n &&& ~~~webTransportBinaryFlag) |||
        if UInt8.ofNat n &&& webTransportBinaryFlag != 0 then webTransportBinaryFlag else 0 := by
    decide +kernel
  obtain ⟨hlt, heq⟩ := hbits ⟨b.toNat, b.toNat_lt⟩
  simp only [UInt8.ofNat_toNat] at hlt heq
  exact ⟨_, _, hlt, heq⟩

theorem readWebTransportLength_append (h : FrameHeader) (rest : List UInt8) :
    readWebTransportLength h.marker (h.extended ++ rest) = (.ok h.length, rest) := by
  have hwidth := h.extended_length
  unfold extendedWidth at hwidth
  unfold readWebTransportLength FrameHeader.length
  split at hwidth
  · next hshort =>
    obtain hnil : h.extended = [] := List.eq_nil_of_length_eq_zero hwidth
    rw [if_pos hshort, if_pos hshort, hnil]
    rfl
  · next hlong =>
    rw [if_neg hlong, if_neg hlong]
    split at hwidth <;> next h16 =>
      simp only [h16, if_true, if_false]
      rw [bind_ok (readFull_append _ hwidth rest)]
      rfl

theorem readWebTransportLength_short {marker : UInt8} {r : List UInt8}
    (h : r.length < extendedWidth marker) :
    readWebTransportLength marker r =
      (.error (.error (.read (if r = [] then .eof else .unexpectedEOF))), []) := by
  unfold extendedWidth at h
  unfold readWebTransportLength
  split at h
  · exact absurd h (Nat.not_lt_zero _)
  · next hlong =>
    rw [if_neg hlong]
    split at h <;> next h16 =>
      simp only [h16, if_true, if_false]
      exact bind_error (readFull_short _ h)

/-- A complete header is consumed exactly, whatever follows. -/
theorem readWebTransportHeader_append (h : FrameHeader) (rest : List UInt8) :
    readWebTransportHeader (h.bytes ++ rest) = (.ok (h.isBinary, h.length), rest) := by
  obtain ⟨hbinary, hlow⟩ := header_bits h.isBinary h.marker_lt
  have hfirst : h.bytes ++ rest =
      [h.marker ||| if h.isBinary then webTransportBinaryFlag else 0] ++ (h.extended ++ rest) := rfl
  rw [hfirst, readWebTransportHeader, bind_ok (readFull_append _ (n := 1) rfl _)]
  simp only [List.headD_cons, hbinary, hlow]
  rw [bind_ok (readWebTransportLength_append h rest)]
  rfl

/-- The end of the stream behind the header byte reads as one before it. -/
theorem readWebTransportHeader_take (h : FrameHeader) {k : Nat} (hk : k < h.bytes.length) :
    readWebTransportHeader (h.bytes.take k) =
      (.error (.error (.read (if k ≤ 1 then .eof else .unexpectedEOF))), []) := by
  cases k with
  | zero => rfl
  | succ k =>
    obtain ⟨hbinary, hlow⟩ := header_bits h.isBinary h.marker_lt
    have hfirst : h.bytes.take (k + 1) =
        [h.marker ||| if h.isBinary then webTransportBinaryFlag else 0] ++ h.extended.take k := rfl
    have hext : k < h.extended.length := by simpa [FrameHeader.bytes] using hk
    have hshort : (h.extended.take k).length < extendedWidth h.marker := by
      rw [← h.extended_length, List.length_take]
      omega
    have hnil : h.extended.take k = [] ↔ k = 0 := by
      rw [List.take_eq_nil_iff]
      constructor
      · rintro (hk0 | hext0)
        · exact hk0
        · rw [hext0] at hext
          exact absurd hext (Nat.not_lt_zero _)
      · exact .inl
    rw [hfirst, readWebTransportHeader, bind_ok (readFull_append _ (n := 1) rfl _)]
    simp only [List.headD_cons, hlow]
    rw [bind_error (readWebTransportLength_short hshort)]
    simp only [hnil, show k + 1 ≤ 1 ↔ k = 0 by omega]

/-- Every stream begins with a header, or with a part of one. -/
theorem FrameHeader.cases (r : List UInt8) :
    (∃ (h : FrameHeader) (rest : List UInt8), r = h.bytes ++ rest) ∨
      ∃ (h : FrameHeader) (k : Nat), k < h.bytes.length ∧ r = h.bytes.take k := by
  cases r with
  | nil => exact .inr ⟨⟨false, 0, [], by decide, rfl⟩, 0, by simp [bytes], rfl⟩
  | cons first r =>
    obtain ⟨isBinary, marker, hlt, hfirst⟩ := byte_split first
    by_cases hlen : extendedWidth marker ≤ r.length
    · refine .inl ⟨⟨isBinary, marker, r.take (extendedWidth marker), hlt, by simp [hlen]⟩,
        r.drop (extendedWidth marker), ?_⟩
      simp [bytes, ← hfirst]
    · -- what is there of the length, filled up with zeros
      have hlen' : r.length < extendedWidth marker := Nat.lt_of_not_le hlen
      refine .inr ⟨⟨isBinary, marker,
        r ++ List.replicate (extendedWidth marker - r.length) 0, hlt, ?_⟩, r.length + 1, ?_, ?_⟩
      · simp only [List.length_append, List.length_replicate]
        omega
      · simp only [bytes, List.length_cons, List.length_append, List.length_replicate]
        omega
      · simp [bytes, ← hfirst]

/-! ## Frames -/

/-- A frame that carries a packet: a header, and as many bytes as it declares, which decode. -/
structure WebTransportFrame extends FrameHeader where
  payload : List UInt8
  packet : Packet
  payload_length : payload.length = toFrameHeader.length
  payload_lt : payload.length < 2 ^ 63
  decodes : decodeWebTransportPayload isBinary payload = .ok packet

namespace WebTransportFrame

def bytes (f : WebTransportFrame) : List UInt8 := f.toFrameHeader.bytes ++ f.payload

/-- The payload does not exceed the ceiling, if there is one. -/
def Fits (maxPayload : Int) (f : WebTransportFrame) : Prop :=
  maxPayload ≤ 0 ∨ (f.payload.length : Int) ≤ maxPayload

end WebTransportFrame

theorem readWebTransportBody_eq {maxAlloc : Nat} {maxPayload : Int} {length : Nat}
    (hmax : maxPayload ≤ 0 ∨ (length : Int) ≤ maxPayload) (hle : length ≤ maxAlloc) (isBinary : Bool) :
    readWebTransportBody maxAlloc maxPayload isBinary length = (do
      let payload ← readFull (.error ∘ .read) length
      MonadExcept.ofExcept (decodeWebTransportPayload isBinary payload)) := by
  rw [readWebTransportBody, if_neg (by omega), if_neg (by omega)]

/-- A payload that is there as a whole is consumed and decoded. -/
theorem readWebTransportBody_append {maxAlloc : Nat} {maxPayload : Int} {payload : List UInt8}
    (hmax : maxPayload ≤ 0 ∨ (payload.length : Int) ≤ maxPayload) (hle : payload.length ≤ maxAlloc)
    (isBinary : Bool) (rest : List UInt8) :
    readWebTransportBody maxAlloc maxPayload isBinary payload.length (payload ++ rest) =
      (decodeWebTransportPayload isBinary payload, rest) := by
  rw [readWebTransportBody_eq hmax hle, bind_ok (readFull_append _ rfl rest), ofExcept_eq]

theorem readWebTransportPacketOn_header (maxAlloc : Nat) (maxPayload : Int) (h : FrameHeader)
    (rest : List UInt8) :
    readWebTransportPacketOn maxAlloc maxPayload (h.bytes ++ rest) =
      readWebTransportBody maxAlloc maxPayload h.isBinary h.length rest := by
  rw [readWebTransportPacketOn_eq, bind_ok (readWebTransportHeader_append h rest)]

/-- A frame whose payload is a Go slice. -/
theorem readWebTransportPacket_append {maxPayload : Int} {h : FrameHeader} {payload : List UInt8}
    (hlen : payload.length = h.length) (hlt : payload.length < 2 ^ 63)
    (hmax : maxPayload ≤ 0 ∨ (payload.length : Int) ≤ maxPayload) (rest : List UInt8) :
    readWebTransportPacket maxPayload (h.bytes ++ (payload ++ rest)) =
      (decodeWebTransportPayload h.isBinary payload, rest) := by
  rw [readWebTransportPacket, readWebTransportPacketOn_header, ← hlen,
    readWebTransportBody_append hmax (Nat.le_sub_one_of_lt hlt)]

theorem readWebTransportPacket_frame {maxPayload : Int} {f : WebTransportFrame}
    (hmax : f.Fits maxPayload) (rest : List UInt8) :
    readWebTransportPacket maxPayload (f.bytes ++ rest) = (.ok f.packet, rest) := by
  rw [WebTransportFrame.bytes, List.append_assoc,
    readWebTransportPacket_append f.payload_length f.payload_lt hmax, f.decodes]

/-! ## Round trip -/

/-- Whichever of the three forms the length takes, the header is one that declares it. -/
theorem webTransportHeader_eq (isBinary : Bool) {length : Nat} (hlen : length < 2 ^ 64) :
    ∃ h : FrameHeader, h.isBinary = isBinary ∧ h.length = length ∧
      h.bytes = webTransportHeader length (if isBinary then webTransportBinaryFlag else 0) := by
  by_cases h7 : length < webTransportLen16Marker.toNat
  · have hmarker : (UInt8.ofNat length).toNat = length := by
      rw [UInt8.toNat_ofNat']
      exact Nat.mod_eq_of_lt (Nat.lt_trans h7 (by decide))
    have hlt : UInt8.ofNat length < webTransportLen16Marker := by
      rw [UInt8.lt_iff_toNat_lt, hmarker]
      exact h7
    refine ⟨⟨isBinary, UInt8.ofNat length, [], UInt8.lt_trans hlt (by decide), ?_⟩, rfl, ?_, ?_⟩
    · rw [extendedWidth, if_pos hlt]
      rfl
    · rw [FrameHeader.length, if_pos hlt, hmarker]
    · rw [webTransportHeader, if_pos h7]
      rfl
  · by_cases h16 : length < 2 ^ 16
    · refine ⟨⟨isBinary, webTransportLen16Marker, bigEndian 2 length, by decide, by simp; rfl⟩, rfl,
        ?_, ?_⟩
      · exact ofBigEndian_bigEndian (by omega)
      · rw [webTransportHeader, if_neg h7, if_pos h16]
        rfl
    · refine ⟨⟨isBinary, webTransportLen64Marker, bigEndian 8 length, by decide, by simp; rfl⟩, rfl,
        ?_, ?_⟩
      · exact ofBigEndian_bigEndian (by omega)
      · rw [webTransportHeader, if_neg h7, if_neg h16]
        rfl

theorem decodeWebTransportPayload_webTransportPayload {packet : Packet} (hp : packet.WellFormed) :
    decodeWebTransportPayload packet.isBinary (webTransportPayload packet).1 = .ok packet := by
  cases hb : packet.isBinary with
  | true =>
    obtain ⟨type, data, bin⟩ := packet
    obtain rfl : bin = true := hb
    obtain rfl : type = .message := hp.binary_message rfl
    simp [decodeWebTransportPayload, webTransportPayload]
  | false =>
    simp [decodeWebTransportPayload, webTransportPayload, hb, decodePacket_encodePacket hp,
      Except.mapError]

theorem foldl_appendWebTransportFrame (packets : List Packet) (dst : List UInt8) :
    packets.foldl appendWebTransportFrame dst =
      dst ++ packets.flatMap (appendWebTransportFrame []) := by
  induction packets generalizing dst with
  | nil => simp
  | cons packet packets ih =>
    rw [List.foldl_cons, ih, List.flatMap_cons]
    simp [appendWebTransportFrame]

/-- What is written for a packet is a frame that carries it. -/
theorem appendWebTransportFrame_eq {packet : Packet} (hp : packet.WellFormed)
    (hlen : (webTransportPayload packet).1.length < 2 ^ 63) :
    ∃ f : WebTransportFrame, f.packet = packet ∧ f.payload = (webTransportPayload packet).1 ∧
      f.bytes = appendWebTransportFrame [] packet := by
  have hflag : (webTransportPayload packet).2 =
      if packet.isBinary then webTransportBinaryFlag else 0 := by
    unfold webTransportPayload
    split <;> rfl
  obtain ⟨h, hbinary, hlength, hbytes⟩ :=
    webTransportHeader_eq packet.isBinary
      (show (webTransportPayload packet).1.length < 2 ^ 64 by omega)
  have hdecode := decodeWebTransportPayload_webTransportPayload hp
  rw [← hbinary] at hdecode
  refine ⟨⟨h, (webTransportPayload packet).1, packet, hlength.symm, hlen, hdecode⟩, rfl, rfl, ?_⟩
  simp only [WebTransportFrame.bytes, appendWebTransportFrame, hbytes, hflag, List.nil_append]

/-- A frame is read back, whatever follows it. -/
theorem readWebTransportPacket_inverts {packet : Packet} {maxPayload : Int}
    (hp : packet.WellFormed) (hlen : (webTransportPayload packet).1.length < 2 ^ 63)
    (hmax : maxPayload ≤ 0 ∨ ((webTransportPayload packet).1.length : Int) ≤ maxPayload) :
    Inverts (readWebTransportPacket maxPayload) (appendWebTransportFrame []) packet := by
  intro rest
  obtain ⟨f, hpacket, hpayload, hbytes⟩ := appendWebTransportFrame_eq hp hlen
  rw [← hpayload] at hmax
  rw [← hbytes, readWebTransportPacket_frame hmax, hpacket]

/-- **WebTransport framing.** Reading as many packets as were framed gives back exactly those packets and
    leaves exactly what follows the frames. -/
theorem readWebTransportPacket_frames (packets : List Packet) (rest : List UInt8) (maxPayload : Int)
    (hps : ∀ p ∈ packets, p.WellFormed)
    (hlen : ∀ p ∈ packets, (webTransportPayload p).1.length < 2 ^ 63)
    (hmax : maxPayload ≤ 0 ∨
      ∀ p ∈ packets, ((webTransportPayload p).1.length : Int) ≤ maxPayload) :
    readMany (readWebTransportPacket maxPayload) packets.length
      (appendWebTransportFrames packets ++ rest) = (.ok packets, rest) := by
  have hinverts : ∀ p ∈ packets,
      Inverts (readWebTransportPacket maxPayload) (appendWebTransportFrame []) p := fun p hp =>
    readWebTransportPacket_inverts (hps p hp) (hlen p hp) (hmax.imp_right fun h => h p hp)
  have hframes : appendWebTransportFrames packets =
      packets.flatMap (appendWebTransportFrame []) := by
    rw [appendWebTransportFrames, foldl_appendWebTransportFrame, List.nil_append]
  rw [hframes]
  exact readMany_flatMap hinverts rest

/-- An empty binary message and an open packet under a ceiling they just meet, with a byte to follow. -/
theorem readWebTransportPacket_empty_binary :
    readMany (readWebTransportPacket 1) 2
      (appendWebTransportFrames
        [{ type := .message, isBinary := true }, { type := .open }] ++ [7]) =
      (.ok [{ type := .message, isBinary := true }, { type := .open }], [7]) :=
  readWebTransportPacket_frames [{ type := .message, isBinary := true }, { type := .open }] [7] 1
    (by simp only [List.forall_mem_cons]; exact ⟨⟨by decide, by decide⟩, ⟨by decide, by decide⟩, by simp⟩)
    (by decide) (.inr (by decide))

end EngineIo
