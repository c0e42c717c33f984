import EngineIo.Codec.WebTransport

set_option autoImplicit false

/-! # Streams that end early, and frames that are too large (`encoding_webtransport.go`)

`readWebTransportPacket` reads a frame field by field: the header byte, the bytes of an extended length,
the payload. `io.ReadFull` answers `io.EOF` when the stream ends in front of a field, so a stream that is
cut between two fields of one frame ends like a stream that is cut between two frames.

The ceiling is tested once the length is known and before the payload is allocated, so with a positive
ceiling every allocation is bounded by it, whatever the stream holds. -/

namespace EngineIo

open Cursor (Fault)
open Stream

/-! ## Streams that end early -/

/-- Where a stream of frames ends. -/
structure Cut where
  /-- The frames that are there as a whole. -/
  complete : List WebTransportFrame
  /-- The frame that was begun, and how many of its bytes are there. -/
  begun : Option (WebTransportFrame × Nat)

/-- Cut the concatenation of frames after `n` bytes. -/
def cutFrames : List WebTransportFrame → Nat → Cut
  | [], _ => { complete := [], begun := none }
  | f :: fs, n =>
    if f.bytes.length ≤ n then
      let cut := cutFrames fs (n - f.bytes.length)
      { cut with complete := f :: cut.complete }
    else { complete := [], begun := if n = 0 then none else some (f, n) }

/-- The bytes of a frame that was begun. -/
def Cut.rest (c : Cut) : List UInt8 :=
  match c.begun with
  | none => []
  | some (f, k) => f.bytes.take k

/-- The error that `readWebTransportPacket` documents for a stream that ends here. -/
def Cut.documented (c : Cut) : ReadError :=
  match c.begun with
  | none => .eof
  | some _ => .unexpectedEOF

/-- The stream ends inside a frame, right behind its header byte or its extended length. -/
def Cut.BetweenFields (c : Cut) : Prop :=
  ∃ f k, c.begun = some (f, k) ∧ (k = 1 ∨ k = f.toFrameHeader.bytes.length)

theorem WebTransportFrame.bytes_length_pos (f : WebTransportFrame) : 0 < f.bytes.length := by
  simp [bytes, FrameHeader.bytes]

/-- The first `n` bytes are the complete frames and what is there of the next one, which is a part of a
    frame and not all of it. -/
theorem take_flatMap_eq (frames : List WebTransportFrame) (n : Nat) :
    (frames.flatMap WebTransportFrame.bytes).take n =
        (cutFrames frames n).complete.flatMap WebTransportFrame.bytes ++ (cutFrames frames n).rest ∧
      (∀ f k, (cutFrames frames n).begun = some (f, k) →
        f ∈ frames ∧ 0 < k ∧ k < f.bytes.length) ∧
      (∀ f ∈ (cutFrames frames n).complete, f ∈ frames) ∧
      (cutFrames frames n).complete.length ≤ n := by
  induction frames generalizing n with
  | nil => simp [cutFrames, Cut.rest]
  | cons f fs ih =>
    rw [cutFrames]
    split
    · next hle =>
      obtain ⟨htake, hbegun, hmem, hlen⟩ := ih (n - f.bytes.length)
      have hpos := f.bytes_length_pos
      refine ⟨?_, fun g k hg => ?_, ?_, ?_⟩
      · rw [List.flatMap_cons, List.take_append, List.take_of_length_le hle, htake]
        simp [Cut.rest]
      · obtain ⟨hin, hk⟩ := hbegun g k hg
        exact ⟨List.mem_cons_of_mem _ hin, hk⟩
      · rw [List.forall_mem_cons]
        exact ⟨List.mem_cons_self .., fun g hg => List.mem_cons_of_mem _ (hmem g hg)⟩
      · simp only [List.length_cons]
        omega
    · next hlt =>
      have hlt' : n < f.bytes.length := Nat.lt_of_not_le hlt
      have htake : ((f :: fs).flatMap WebTransportFrame.bytes).take n = f.bytes.take n := by
        rw [List.flatMap_cons, List.take_append_of_le_length (Nat.le_of_lt hlt')]
      rw [htake]
      by_cases hn : n = 0
      · simp [hn, Cut.rest]
      · simp only [hn, if_false, Cut.rest, List.flatMap_nil, List.nil_append, true_and]
        refine ⟨?_, by simp, Nat.zero_le n⟩
        rintro g k ⟨⟩
        exact ⟨List.mem_cons_self .., Nat.pos_of_ne_zero hn, hlt'⟩

/-- A frame that is there in part, but for at least one byte. -/
theorem readWebTransportPacket_take {maxPayload : Int} {f : WebTransportFrame}
    (hmax : f.Fits maxPayload) {k : Nat} (hk : k < f.bytes.length) :
    readWebTransportPacket maxPayload (f.bytes.take k) =
      (.error (.error (.read
        (if k ≤ 1 ∨ k = f.toFrameHeader.bytes.length then .eof else .unexpectedEOF))), []) := by
  by_cases hheader : k < f.toFrameHeader.bytes.length
  · -- the stream ends in the header
    have htake : f.bytes.take k = f.toFrameHeader.bytes.take k :=
      List.take_append_of_le_length (Nat.le_of_lt hheader)
    rw [htake, readWebTransportPacket, readWebTransportPacketOn_eq,
      bind_error (readWebTransportHeader_take _ hheader)]
    simp only [Nat.ne_of_lt hheader, or_false]
  · -- the header is complete, and the stream ends in the payload
    obtain ⟨j, rfl⟩ := Nat.exists_eq_add_of_le (Nat.le_of_not_lt hheader)
    have htake : f.bytes.take (f.toFrameHeader.bytes.length + j) =
        f.toFrameHeader.bytes ++ f.payload.take j :=
      List.take_length_add_append j
    have hj : j < f.payload.length := by
      simpa [WebTransportFrame.bytes] using hk
    have hshort : (f.payload.take j).length < f.payload.length := by
      rw [List.length_take]
      omega
    have hpos : 0 < f.toFrameHeader.bytes.length := Nat.succ_pos _
    have hnil : f.payload.take j = [] ↔
        f.toFrameHeader.bytes.length + j ≤ 1 ∨
          f.toFrameHeader.bytes.length + j = f.toFrameHeader.bytes.length := by
      rw [← List.length_eq_zero_iff, List.length_take]
      omega
    have hle : f.payload.length ≤ 2 ^ 63 - 1 := Nat.le_sub_one_of_lt f.payload_lt
    rw [htake, readWebTransportPacket, readWebTransportPacketOn_header, ← f.payload_length,
      readWebTransportBody_eq hmax hle, bind_error (readFull_short _ hshort)]
    simp only [hnil]
    rfl

/-- **End of the stream.** Reading the first `n` bytes of any frames gives every frame that is there as a
    whole, and then a read error. It is the documented one (`io.EOF` between frames and
    `io.ErrUnexpectedEOF` inside one) unless the stream ends between two fields of a frame. -/
theorem readWebTransportPacket_cut (frames : List WebTransportFrame) (maxPayload : Int) (n : Nat)
    (hmax : ∀ f ∈ frames, f.Fits maxPayload) :
    ∃ e, readUntilError (readWebTransportPacket maxPayload) (n + 1)
          ((frames.flatMap WebTransportFrame.bytes).take n) =
        some ((cutFrames frames n).complete.map WebTransportFrame.packet, .error (.read e)) ∧
      (e = (cutFrames frames n).documented ↔ ¬ (cutFrames frames n).BetweenFields) := by
  obtain ⟨htake, hbegun, hmem, hlen⟩ := take_flatMap_eq frames n
  have hread : ∀ f ∈ (cutFrames frames n).complete, ∀ rest,
      readWebTransportPacket maxPayload (f.bytes ++ rest) = (.ok f.packet, rest) := fun f hf =>
    readWebTransportPacket_frame (hmax f (hmem f hf))
  have huntil : ∀ {e}, readWebTransportPacket maxPayload (cutFrames frames n).rest =
      (.error (.error (.read e)), []) →
      readUntilError (readWebTransportPacket maxPayload) (n + 1)
          ((frames.flatMap WebTransportFrame.bytes).take n) =
        some ((cutFrames frames n).complete.map WebTransportFrame.packet, .error (.read e)) := by
    intro e he
    rw [htake]
    exact readUntilError_flatMap hread he (by omega)
  unfold Cut.documented Cut.BetweenFields
  cases hcut : (cutFrames frames n).begun with
  | none =>
    refine ⟨.eof, huntil ?_, by simp⟩
    simp only [Cut.rest, hcut]
    rfl
  | some begun =>
    obtain ⟨f, k⟩ := begun
    obtain ⟨hf, hpos, hk⟩ := hbegun f k hcut
    have hrest : (cutFrames frames n).rest = f.bytes.take k := by simp only [Cut.rest, hcut]
    have herror := readWebTransportPacket_take (hmax f hf) hk
    rw [← hrest] at herror
    refine ⟨_, huntil herror, ?_⟩
    have hle : k ≤ 1 ↔ k = 1 := by omega
    simp only [hle, Option.some.injEq, Prod.mk.injEq]
    constructor
    · rintro h ⟨g, j, ⟨rfl, rfl⟩, hj⟩
      rw [if_pos hj] at h
      cases h
    · intro h
      exact if_neg fun hj => h ⟨f, k, ⟨rfl, rfl⟩, hj⟩

/-- The text frame of the message `a`. -/
def shortFrame : WebTransportFrame where
  isBinary := false
  marker := 2
  extended := []
  marker_lt := by decide
  extended_length := rfl
  payload := [52, 97]
  packet := { type := .message, data := [97] }
  payload_length := rfl
  payload_lt := by decide
  decodes := rfl

/-- The same message behind an extended length. -/
def longFrame : WebTransportFrame where
  isBinary := false
  marker := 126
  extended := [0, 2]
  marker_lt := by decide
  extended_length := rfl
  payload := [52, 97]
  packet := { type := .message, data := [97] }
  payload_length := rfl
  payload_lt := by decide
  decodes := rfl

/-- Two frames, of which the second ends one byte behind its extended length. -/
theorem readWebTransportPacket_cut_payload :
    ∃ e, readUntilError (readWebTransportPacket 200) 8
          (([shortFrame, longFrame].flatMap WebTransportFrame.bytes).take 7) =
        some ([{ type := .message, data := [97] }], .error (.read e)) ∧
      (e = (cutFrames [shortFrame, longFrame] 7).documented ↔
        ¬ (cutFrames [shortFrame, longFrame] 7).BetweenFields) :=
  readWebTransportPacket_cut [shortFrame, longFrame] 200 7 (by
    simp only [List.forall_mem_cons]
    exact ⟨.inr (by decide), .inr (by decide), by simp⟩)

/-- A stream that ends behind the header byte, of a short frame or of a long one, or behind the extended
    length, ends as if no frame had been begun. -/
theorem truncated_frame_reads_as_eof :
    (readUntilError (readWebTransportPacket 200) 2 (shortFrame.bytes.take 1) =
        some ([], .error (.read .eof)) ∧
      (cutFrames [shortFrame] 1).documented = .unexpectedEOF) ∧
    (readUntilError (readWebTransportPacket 200) 2 (longFrame.bytes.take 1) =
        some ([], .error (.read .eof)) ∧
      (cutFrames [longFrame] 1).documented = .unexpectedEOF) ∧
    readUntilError (readWebTransportPacket 200) 2 (longFrame.bytes.take 3) =
        some ([], .error (.read .eof)) ∧
      (cutFrames [longFrame] 3).documented = .unexpectedEOF :=
  ⟨⟨rfl, rfl⟩, ⟨rfl, rfl⟩, rfl, rfl⟩

/-! ## Frames that are too large -/

/-- `webTransportReadLimit`, the ceiling of the client's read loop. -/
def webTransportReadLimit : Int := 16 * 2 ^ 20

/-- `webTransportServerReadLimit`. -/
def webTransportServerReadLimit (maxPayload : Int) : Int :=
  if maxPayload ≤ 0 then webTransportReadLimit else maxPayload

/-- The length given to `make` in a read of one packet, if the read comes that far. -/
def webTransportAllocation (maxPayload : Int) (stream : List UInt8) : Option Nat :=
  match readWebTransportHeader stream with
  | (.ok (_, length), _) =>
    if maxPayload > 0 ∧ (length : Int) > maxPayload then none else some length
  | (.error _, _) => none

/-- One read under a ceiling, on a platform that can allocate `maxAlloc` bytes: what it allocates, rejects and
    returns. -/
structure BoundedRead (maxAlloc : Nat) (limit : Int) (stream : List UInt8) : Prop where
  positive : 0 < limit
  /-- `make` is given a length within the ceiling that is in range. -/
  allocates : ∀ n, webTransportAllocation limit stream = some n → (n : Int) ≤ limit ∧ n ≤ maxAlloc
  no_panic : (readWebTransportPacketOn maxAlloc limit stream).1 ≠ .error .panic
  /-- A larger frame is refused, with its header consumed and nothing behind it. -/
  rejects : ∀ (h : FrameHeader) (rest : List UInt8), stream = h.bytes ++ rest →
    limit < (h.length : Int) →
    readWebTransportPacketOn maxAlloc limit stream =
        (.error (.error (.frameTooLarge h.length limit)), rest) ∧
      webTransportAllocation limit stream = none
  returns : ∀ packet rest, readWebTransportPacketOn maxAlloc limit stream = (.ok packet, rest) →
    ∃ (h : FrameHeader) (payload : List UInt8), stream = h.bytes ++ (payload ++ rest) ∧
      decodeWebTransportPayload h.isBinary payload = .ok packet ∧
      payload.length = h.length ∧ (payload.length : Int) ≤ limit ∧
      webTransportAllocation limit stream = some payload.length

theorem webTransportServerReadLimit_pos (maxPayload : Int) :
    0 < webTransportServerReadLimit maxPayload := by
  unfold webTransportServerReadLimit
  split
  · decide
  · omega

theorem webTransportServerReadLimit_lt {maxPayload : Int} (h : maxPayload < 2 ^ 63) :
    webTransportServerReadLimit maxPayload < 2 ^ 63 := by
  unfold webTransportServerReadLimit
  split
  · decide
  · exact h

/-- What follows a complete header that declares a length within the ceiling. -/
theorem readWebTransportBody_within {maxAlloc : Nat} {limit : Int} {length : Nat}
    (hle : (length : Int) ≤ limit) (halloc : length ≤ maxAlloc) (isBinary : Bool) (rest : List UInt8) :
    (readWebTransportBody maxAlloc limit isBinary length rest).1 ≠ .error .panic ∧
      ∀ packet rest', readWebTransportBody maxAlloc limit isBinary length rest = (.ok packet, rest') →
        ∃ payload, rest = payload ++ rest' ∧ payload.length = length ∧
          decodeWebTransportPayload isBinary payload = .ok packet := by
  by_cases hlen : length ≤ rest.length
  · obtain ⟨payload, rest, rfl, rfl⟩ : ∃ payload rest', rest = payload ++ rest' ∧
        payload.length = length :=
      ⟨rest.take length, rest.drop length, by simp, by simp [hlen]⟩
    rw [readWebTransportBody_append (.inr hle) halloc]
    refine ⟨fun h => ?_, fun packet rest' h => ?_⟩
    · -- the decoder gives errors, and does not panic
      unfold decodeWebTransportPayload at h
      split at h
      · cases h
      · cases hp : decodePacket payload <;> rw [hp] at h <;> cases h
    · obtain ⟨hdecode, rfl⟩ := Prod.mk.inj h
      exact ⟨payload, rfl, rfl, hdecode⟩
  · rw [readWebTransportBody_eq (.inr hle) halloc,
      bind_error (readFull_short _ (Nat.lt_of_not_le hlen))]
    exact ⟨fun h => (by cases h), fun packet rest' h => by cases h⟩

section Bounded

variable {maxAlloc : Nat} {limit : Int}

/-- The header of a stream is unique: reading it gives the same flag, length and rest. -/
theorem FrameHeader.unique {h h' : FrameHeader} {rest rest' : List UInt8}
    (heq : h.bytes ++ rest = h'.bytes ++ rest') :
    h'.isBinary = h.isBinary ∧ h'.length = h.length ∧ rest' = rest := by
  have hread := readWebTransportHeader_append h rest
  rw [heq, readWebTransportHeader_append] at hread
  obtain ⟨hfields, hrest⟩ := ok_inj hread
  exact ⟨congrArg Prod.fst hfields, congrArg Prod.snd hfields, hrest⟩

theorem webTransportAllocation_header (hpos : 0 < limit) (h : FrameHeader) (rest : List UInt8) :
    webTransportAllocation limit (h.bytes ++ rest) =
      if limit < (h.length : Int) then none else some h.length := by
  simp only [webTransportAllocation, readWebTransportHeader_append, gt_iff_lt, hpos, true_and]

theorem boundedRead_of_large (hpos : 0 < limit) {h : FrameHeader} (hlarge : limit < (h.length : Int))
    (rest : List UInt8) : BoundedRead maxAlloc limit (h.bytes ++ rest) := by
  have hreject : readWebTransportPacketOn maxAlloc limit (h.bytes ++ rest) =
      (.error (.error (.frameTooLarge h.length limit)), rest) := by
    rw [readWebTransportPacketOn_header, readWebTransportBody, if_pos ⟨hpos, hlarge⟩]
    rfl
  have halloc : webTransportAllocation limit (h.bytes ++ rest) = none := by
    rw [webTransportAllocation_header hpos, if_pos hlarge]
  refine ⟨hpos, fun n hn => ?_, ?_, fun h' rest' heq _ => ?_, fun packet rest' hp => ?_⟩
  · rw [halloc] at hn
    cases hn
  · rw [hreject]
    exact fun h => by cases h
  · obtain ⟨-, hlength, hrest⟩ := FrameHeader.unique heq
    rw [hlength, hrest]
    exact ⟨hreject, halloc⟩
  · rw [hreject] at hp
    cases hp

theorem boundedRead_of_within (hpos : 0 < limit) {h : FrameHeader} (hle : (h.length : Int) ≤ limit)
    (hfits : h.length ≤ maxAlloc) (rest : List UInt8) : BoundedRead maxAlloc limit (h.bytes ++ rest) := by
  have hsmall : ¬ limit < (h.length : Int) := Int.not_lt.2 hle
  have halloc : webTransportAllocation limit (h.bytes ++ rest) = some h.length := by
    rw [webTransportAllocation_header hpos, if_neg hsmall]
  obtain ⟨hpanic, hreturns⟩ := readWebTransportBody_within hle hfits h.isBinary rest
  rw [← readWebTransportPacketOn_header] at hpanic hreturns
  refine ⟨hpos, fun n hn => ?_, hpanic, fun h' rest' heq hlarge => ?_, fun packet rest' hp => ?_⟩
  · obtain rfl : h.length = n := by simpa [halloc] using hn
    exact ⟨hle, hfits⟩
  · obtain ⟨-, hlength, -⟩ := FrameHeader.unique heq
    rw [hlength] at hlarge
    exact absurd hlarge hsmall
  · obtain ⟨payload, rfl, hlength, hdecode⟩ := hreturns packet rest' hp
    exact ⟨h, payload, rfl, hdecode, hlength, by omega, by rw [halloc, hlength]⟩

theorem boundedRead_of_take (hpos : 0 < limit) {h : FrameHeader} {k : Nat} (hk : k < h.bytes.length) :
    BoundedRead maxAlloc limit (h.bytes.take k) := by
  have hread := readWebTransportHeader_take h hk
  have hpacket := bind_error (f := fun h => readWebTransportBody maxAlloc limit h.1 h.2) hread
  rw [← readWebTransportPacketOn_eq] at hpacket
  have halloc : webTransportAllocation limit (h.bytes.take k) = none := by
    simp only [webTransportAllocation, hread]
  refine ⟨hpos, fun n hn => ?_, ?_, fun h' rest' heq _ => ?_, fun packet rest' hp => ?_⟩
  · rw [halloc] at hn
    cases hn
  · rw [hpacket]
    exact fun h => by cases h
  · rw [heq, readWebTransportHeader_append] at hread
    cases hread
  · rw [hpacket] at hp
    cases hp

/-- One stream under a positive ceiling: the read is bounded unless the stream declares a length within the
    ceiling that cannot be allocated. -/
theorem boundedRead_iff (hpos : 0 < limit) (stream : List UInt8) :
    BoundedRead maxAlloc limit stream ↔
      ∀ (h : FrameHeader) (rest : List UInt8), stream = h.bytes ++ rest → (h.length : Int) ≤ limit →
        h.length ≤ maxAlloc := by
  constructor
  · rintro hread h rest rfl hle
    have halloc : webTransportAllocation limit (h.bytes ++ rest) = some h.length := by
      rw [webTransportAllocation_header hpos, if_neg (Int.not_lt.2 hle)]
    exact (hread.allocates _ halloc).2
  · intro hfits
    rcases FrameHeader.cases stream with ⟨h, rest, rfl⟩ | ⟨h, k, hk, rfl⟩
    · by_cases hlarge : limit < (h.length : Int)
      · exact boundedRead_of_large hpos hlarge rest
      · have hle := Int.not_lt.1 hlarge
        exact boundedRead_of_within hpos hle (hfits h rest rfl hle) rest
    · exact boundedRead_of_take hpos hk

end Bounded

/-- **Bounded reads.** Whatever `maxPayload` a server is configured with, and with the client's fixed ceiling: a
    read allocates no more than its ceiling, which is positive, and never a length that is out of range; a frame
    that declares more is refused behind its header; and a packet comes from a payload within the ceiling. This
    holds of a stream if and only if it does not declare a length within the ceiling that the platform cannot
    allocate, and so of every stream if and only if the ceiling itself can be allocated. -/
theorem readWebTransportPacket_bounded_iff (maxAlloc : Nat) (maxPayload limit : Int)
    (hint : maxPayload < 2 ^ 63)
    (hlimit : limit = webTransportServerReadLimit maxPayload ∨ limit = webTransportReadLimit) :
    (∀ stream, BoundedRead maxAlloc limit stream ↔
      ∀ (h : FrameHeader) (rest : List UInt8), stream = h.bytes ++ rest → (h.length : Int) ≤ limit →
        h.length ≤ maxAlloc) ∧
    ((∀ stream, BoundedRead maxAlloc limit stream) ↔ limit ≤ maxAlloc) := by
  have hpos : 0 < limit := by
    rcases hlimit with rfl | rfl
    · exact webTransportServerReadLimit_pos maxPayload
    · decide
  have hlt : limit < 2 ^ 63 := by
    rcases hlimit with rfl | rfl
    · exact webTransportServerReadLimit_lt hint
    · decide
  refine ⟨boundedRead_iff hpos, fun hall => ?_, fun hle stream => ?_⟩
  · -- a peer may declare the ceiling itself
    obtain ⟨h, -, hlength, -⟩ := webTransportHeader_eq false (show limit.toNat < 2 ^ 64 by omega)
    have hfits := (boundedRead_iff hpos h.bytes).1 (hall h.bytes) h [] (by simp) (by omega)
    omega
  · exact (boundedRead_iff hpos stream).2 fun h _ _ hh => by omega

/-- A server without a configured maximum, on a platform that can allocate `2 ^ 48` bytes, and a peer that
    declares the largest length there is. -/
theorem readWebTransportPacket_bounded_unset :
    webTransportServerReadLimit 0 = webTransportReadLimit ∧
      BoundedRead (2 ^ 48) (webTransportServerReadLimit 0) (127 :: List.replicate 8 255) :=
  ⟨rfl, (readWebTransportPacket_bounded_iff (2 ^ 48) 0 _ (by decide) (.inl rfl)).2.2 (by decide +kernel) _⟩

/-- The header of a text frame of `2 ^ 50` bytes. -/
def largeHeader : FrameHeader where
  isBinary := false
  marker := 127
  extended := [0, 4, 0, 0, 0, 0, 0, 0]
  marker_lt := by decide
  extended_length := rfl

/-- On the same platform, a server with a maximum of `2 ^ 51`, and a peer that declares `2 ^ 50` bytes: the frame
    is not refused, and `make` panics. -/
theorem large_maximum_panics :
    webTransportServerReadLimit (2 ^ 51) = 2 ^ 51 ∧ largeHeader.bytes = [127, 0, 4, 0, 0, 0, 0, 0, 0] ∧
      webTransportAllocation (2 ^ 51) largeHeader.bytes = some (2 ^ 50) ∧
      readWebTransportPacketOn (2 ^ 48) (2 ^ 51) largeHeader.bytes = (.error .panic, []) ∧
      ¬ BoundedRead (2 ^ 48) (webTransportServerReadLimit (2 ^ 51)) largeHeader.bytes := by
  have hlength : largeHeader.length = 2 ^ 50 := by decide
  have hlimit : webTransportServerReadLimit (2 ^ 51) = 2 ^ 51 := by decide
  have hpanic : readWebTransportPacketOn (2 ^ 48) (2 ^ 51) largeHeader.bytes = (.error .panic, []) := by
    rw [← List.append_nil largeHeader.bytes, readWebTransportPacketOn_header, hlength,
      readWebTransportBody, if_neg (by decide), if_pos (by decide)]
    rfl
  refine ⟨hlimit, rfl, ?_, hpanic, fun h => h.no_panic ?_⟩
  · rw [← List.append_nil largeHeader.bytes, webTransportAllocation_header (by decide), hlength,
      if_neg (by decide)]
  · rw [hlimit, hpanic]

end EngineIo
