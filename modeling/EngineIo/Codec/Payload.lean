import EngineIo.Codec.Cursor
import EngineIo.Codec.Packet
import EngineIo.Codec.Utf8
import EngineIo.Data.AllOrNothing
import Mathlib.Algebra.Order.BigOperators.Group.List

set_option autoImplicit false

/-! # Long-polling payloads of every protocol version (`payload.go`)

`EncodePayload` and the record-separated v4 decoder are in `Codec/Packet.lean`. Here are the two
length-prefixed framings of v2 and v3 and `DecodePayload`, which selects among the three. Offsets and
lengths are `int`s, so their arithmetic wraps at 64 bits, and a slice expression that is out of range
panics. -/

namespace EngineIo

open Cursor

inductive AtoiError
  | invalidSyntax
  | outOfRange
deriving DecidableEq, Repr

/-- What is wrong with a payload (`ErrMalformedPayload`). -/
inductive Malformed
  | missingLengthSeparator
  | invalidLength (e : AtoiError)
  | lengthExceedsPayload
  | truncatedBinaryPacket
  | invalidFrameMarker (marker : UInt8)
  | invalidLengthDigit (digit : UInt8)
  | missingLengthTerminator
  | emptyBinaryPacket
deriving DecidableEq, Repr

inductive PayloadError
  | packet (e : DecodeError)
  | malformed (m : Malformed)
  | unsupportedProtocolVersion (version : Int)
deriving DecidableEq, Repr

/-! ## The string framing -/

/-- The loop of `strconv.ParseUint` over decimal digits. -/
def parseUint (n : Nat) : List UInt8 → Except AtoiError Nat
  | [] => .ok n
  | c :: cs =>
    if c < 48 ∨ 57 < c then .error .invalidSyntax
    else if 2 ^ 64 ≤ n * 10 + (c.toNat - 48) then .error .outOfRange
    else parseUint (n * 10 + (c.toNat - 48)) cs

/-- `strconv.Atoi`, behind the sign. -/
def atoiDigits (negative : Bool) (digits : List UInt8) : Except AtoiError Int :=
  match digits with
  | [] => .error .invalidSyntax
  | _ :: _ =>
    match parseUint 0 digits with
    | .error e => .error e
    | .ok n =>
      if negative then if 2 ^ 63 < n then .error .outOfRange else .ok (-n)
      else if 2 ^ 63 ≤ n then .error .outOfRange
      else .ok n

/-- `strconv.Atoi`. -/
def atoi (s : List UInt8) : Except AtoiError Int :=
  match s with
  | 43 :: digits => atoiDigits false digits
  | 45 :: digits => atoiDigits true digits
  | digits => atoiDigits false digits

/-- `decodeStringFramedPacket`. -/
def decodeStringFramedPacket : List UInt8 → Except PayloadError Packet
  | [] => .error (.packet .emptyPacket)
  | b :: rest =>
    if b = binaryMarker then
      match rest with
      | [] => .error (.malformed .truncatedBinaryPacket)
      | t :: data =>
        if (PacketType.ofByte t).valid then
          match Base64.decode data with
          | none => .error (.packet .base64)
          | some data => .ok { type := .ofByte t, data, isBinary := true }
        else .error (.packet (.invalidPacketType t))
    else if (PacketType.ofByte b).valid then .ok { type := .ofByte b, data := rest }
    else .error (.packet (.invalidPacketType b))

/-- The colon after a length. -/
def lengthSeparator : Nat := 58

/-- `decodeStringFramedPayload`, first half of an iteration: where the body starts, and its length. -/
def stringHeader (runes : List Nat) (cursor : Int) : Except (Fault PayloadError) (Int × Int) :=
  match slice runes cursor runes.length with
  | .error e => .error e
  | .ok rest =>
    match rest.findIdx? (· = lengthSeparator) with
    | none => .error (.error (.malformed .missingLengthSeparator))
    | some i =>
      match slice runes cursor (int64 (i + cursor)) with
      | .error e => .error e
      | .ok digits =>
        match atoi (Utf8.string digits) with
        | .error e => .error (.error (.malformed (.invalidLength e)))
        | .ok length => .ok (int64 (int64 (i + cursor) + 1), length)

/-- The end of an iteration of either framing: the body is sliced out and decoded, and the cursor moves
    behind it. -/
def decodeBody {α : Type} (decode : List α → Except PayloadError Packet) (xs : List α)
    (start stop : Int) : Except (Fault PayloadError) (Packet × Int) :=
  match slice xs start stop with
  | .error e => .error e
  | .ok body =>
    match decode body with
    | .error e => .error (.error e)
    | .ok packet => .ok (packet, stop)

/-- `decodeStringFramedPayload`, one iteration. -/
def stringFrame (runes : List Nat) (cursor : Int) : Except (Fault PayloadError) (Packet × Int) :=
  match stringHeader runes cursor with
  | .error e => .error e
  | .ok (start, length) =>
    if length < 0 ∨ runes.length < int64 (start + length) then
      .error (.error (.malformed .lengthExceedsPayload))
    else
      decodeBody (fun body => decodeStringFramedPacket (Utf8.string body)) runes start
        (int64 (start + length))

/-- `decodeStringFramedPayload`: the length counts runes. -/
def decodeStringFramedPayload (input : List UInt8) : Except (Fault PayloadError) (List Packet) :=
  run (stringFrame (Utf8.runes input)) (Utf8.runes input).length ((Utf8.runes input).length + 1) 0

/-! ## The binary framing -/

def binaryStringMarker : UInt8 := 0x00
def binaryBinaryMarker : UInt8 := 0x01
def binaryLengthTerminator : UInt8 := 0xff

/-- `decodeBinaryFramedPacket`. -/
def decodeBinaryFramedPacket (marker : UInt8) (body : List UInt8) : Except PayloadError Packet :=
  if marker = binaryStringMarker then decodeStringFramedPacket body
  else
    match body with
    | [] => .error (.malformed .emptyBinaryPacket)
    | t :: data =>
      if PacketType.valid ⟨t⟩ then .ok { type := ⟨t⟩, data, isBinary := true }
      else .error (.packet (.invalidPacketType t))

/-- `decodeBinaryFramedPayload`, the loop over the digits of a length: the length and the cursor
    behind the terminator. -/
def binaryLength (length cursor : Int) : List UInt8 → Except (Fault PayloadError) (Int × Int)
  | [] => .error (.error (.malformed .missingLengthTerminator))
  | digit :: rest =>
    if digit = binaryLengthTerminator then .ok (length, cursor + 1)
    else if 9 < digit then .error (.error (.malformed (.invalidLengthDigit digit)))
    else binaryLength (int64 (int64 (length * 10) + digit.toNat)) (cursor + 1) rest

/-- `decodeBinaryFramedPayload`, first half of an iteration: the marker, where the body starts, and its
    length. -/
def binaryHeader (input : List UInt8) (cursor : Int) :
    Except (Fault PayloadError) (UInt8 × Int × Int) :=
  match index input cursor with
  | .error e => .error e
  | .ok marker =>
    if marker ≠ binaryStringMarker ∧ marker ≠ binaryBinaryMarker then
      .error (.error (.malformed (.invalidFrameMarker marker)))
    else
      match binaryLength 0 (cursor + 1) (input.drop (cursor.toNat + 1)) with
      | .error e => .error e
      | .ok (length, start) => .ok (marker, start, length)

/-- `decodeBinaryFramedPayload`, one iteration. -/
def binaryFrame (input : List UInt8) (cursor : Int) : Except (Fault PayloadError) (Packet × Int) :=
  match binaryHeader input cursor with
  | .error e => .error e
  | .ok (marker, start, length) =>
    if input.length < int64 (start + length) then .error (.error (.malformed .lengthExceedsPayload))
    else decodeBody (decodeBinaryFramedPacket marker) input start (int64 (start + length))

/-- `decodeBinaryFramedPayload`. -/
def decodeBinaryFramedPayload (input : List UInt8) : Except (Fault PayloadError) (List Packet) :=
  run (binaryFrame input) input.length (input.length + 1) 0

/-! ## `DecodePayload` -/

/-- Whether a v3 payload starts with the marker of a binary frame. -/
def startsBinary : List UInt8 → Bool
  | [] => false
  | b :: _ => b = binaryStringMarker || b = binaryBinaryMarker

/-- `DecodePayload`. -/
def decodePayload (version : Int) (input : List UInt8) : Except (Fault PayloadError) (List Packet) :=
  if version = 4 then
    match decodeRecordSeparatorPayload input with
    | .error e => .error (.error (.packet e))
    | .ok packets => .ok packets
  else if version = 3 then
    if startsBinary input then decodeBinaryFramedPayload input else decodeStringFramedPayload input
  else if version = 2 then decodeStringFramedPayload input
  else .error (.error (.unsupportedProtocolVersion version))

/-! ## The v4 round trip

Splitting finds one segment more than there are separators, so a separator inside a packet shows in
the number of packets. -/

theorem length_splitOn (x : UInt8) (l : List UInt8) : (l.splitOn x).length = l.count x + 1 := by
  induction l with
  | nil => rfl
  | cons y l ih =>
    rw [List.splitOn, List.splitOnP_cons_eq_if_modifyHead, List.count_cons]
    split
    · rw [List.length_cons, ← List.splitOn, ih]
    · rw [List.length_modifyHead, ← List.splitOn, ih, Nat.add_zero]

theorem count_encodePayload {ps : List Packet} (hne : ps ≠ []) :
    (encodePayload ps).count separator + 1 =
      ps.length + (ps.map fun p => (encodePacket p).count separator).sum := by
  induction ps with
  | nil => exact absurd rfl hne
  | cons p ps ih =>
    cases ps with
    | nil => simp [encodePayload, Nat.add_comm]
    | cons q ps =>
      have hrest := ih (by simp)
      have hjoin : encodePayload (p :: q :: ps) =
          encodePacket p ++ separator :: encodePayload (q :: ps) := by
        simp [encodePayload, List.intercalate]
      rw [hjoin, List.count_append, List.count_cons_self]
      simp only [List.length_cons, List.map_cons, List.sum_cons] at hrest ⊢
      omega

/-- A payload that decodes to the packets it was built from has no separators but those between
    them. -/
theorem separable_of_decodes {ps : List Packet} (hne : ps ≠ [])
    (h : decodeRecordSeparatorPayload (encodePayload ps) = .ok ps) : ∀ p ∈ ps, p.Separable := by
  have hlength := (AllOrNothing.mapM_eq_ok_iff.1 h).length_eq
  rw [length_splitOn, count_encodePayload hne] at hlength
  have hnone : (ps.map fun p => (encodePacket p).count separator).sum = 0 := by omega
  intro p hp hbinary hmem
  have hzero : (encodePacket p).count separator = 0 := by
    have hle := List.le_sum_of_mem
      (List.mem_map_of_mem (f := fun p => (encodePacket p).count separator) hp)
    omega
  rw [List.count_eq_zero, encodePacket, hbinary] at hzero
  exact hzero (by simp [hmem])

theorem decodePayload_v4_eq_ok {input : List UInt8} {ps : List Packet} :
    decodePayload 4 input = .ok ps ↔ decodeRecordSeparatorPayload input = .ok ps := by
  unfold decodePayload
  cases decodeRecordSeparatorPayload input with
  | error e => simp
  | ok qs => simp

/-- **v4 payloads.** Packets with valid types, of which only messages are binary, come back from a v4
    payload exactly when no text among them holds the separator. -/
theorem decodePayload_encodePayload_iff (ps : List Packet) (hne : ps ≠ [])
    (hps : ∀ p ∈ ps, p.WellFormed) :
    decodePayload 4 (encodePayload ps) = .ok ps ↔
      ∀ p ∈ ps, p.isBinary = false → separator ∉ p.data := by
  rw [decodePayload_v4_eq_ok]
  exact ⟨separable_of_decodes hne, fun hs =>
    decodeRecordSeparatorPayload_encodePayload hne fun p hp => ⟨hps p hp, hs p hp⟩⟩

/-- A text and a binary message whose bytes hold the separator: it is harmless only in the latter. -/
theorem decodePayload_encodePayload_separator :
    decodePayload 4 (encodePayload [{ type := .message, data := [97] },
      { type := .message, data := [0x1e], isBinary := true }]) =
      .ok [{ type := .message, data := [97] },
        { type := .message, data := [0x1e], isBinary := true }] ∧
    decodePayload 4 (encodePayload [{ type := .message, data := [0x1e, 52] }]) ≠
      .ok [{ type := .message, data := [0x1e, 52] }] := by
  constructor
  · refine (decodePayload_encodePayload_iff _ (by simp) ?_).2 (by decide)
    simp only [List.mem_cons, List.not_mem_nil, or_false, forall_eq_or_imp, forall_eq]
    exact ⟨⟨by decide, by decide⟩, ⟨by decide, by decide⟩⟩
  · intro h
    have hsep := (decodePayload_encodePayload_iff _ (by simp) ?_).1 h _ (List.mem_singleton.2 rfl) rfl
    · exact hsep (by decide)
    · simp only [List.mem_singleton, forall_eq]
      exact ⟨by decide, by decide⟩

/-! ## Bounds of the framed decoders -/

theorem atoiDigits_bounds {negative : Bool} {digits : List UInt8} {n : Int}
    (h : atoiDigits negative digits = .ok n) : n < 2 ^ 63 := by
  unfold atoiDigits at h
  split at h
  · cases h
  · split at h
    · cases h
    · next m hm =>
      split at h
      · split at h
        · cases h
        · obtain rfl : -(m : Int) = n := by simpa using h
          omega
      · split at h
        · cases h
        · next hlt =>
          obtain rfl : (m : Int) = n := by simpa using h
          omega

theorem atoi_bounds {s : List UInt8} {n : Int} (h : atoi s = .ok n) : n < 2 ^ 63 := by
  unfold atoi at h
  split at h <;> exact atoiDigits_bounds h

/-- The header at the cursor: the first colon ahead, and the numeral before it. -/
theorem stringHeader_eq {pre rest : List Nat} {cursor : Int} (hcursor : cursor = pre.length)
    (hlen : ((pre ++ rest).length : Int) < 2 ^ 63) :
    stringHeader (pre ++ rest) cursor =
      match rest.findIdx? (· = lengthSeparator) with
      | none => .error (.error (.malformed .missingLengthSeparator))
      | some i =>
        match atoi (Utf8.string (rest.take i)) with
        | .error e => .error (.error (.malformed (.invalidLength e)))
        | .ok length => .ok (i + cursor + 1, length) := by
  have hrest : slice (ε := PayloadError) (pre ++ rest) cursor (pre ++ rest).length = .ok rest := by
    have hmiddle := slice_middle (ε := PayloadError) pre rest []
    rwa [List.append_nil, ← Int.natCast_add, ← List.length_append, ← hcursor] at hmiddle
  unfold stringHeader
  rw [hrest]
  simp only
  cases hi : rest.findIdx? (· = lengthSeparator) with
  | none => rfl
  | some i =>
    obtain ⟨hlt, -⟩ := List.findIdx?_eq_some_iff_getElem.1 hi
    rw [List.length_append] at hlen
    have hnumeral : slice (ε := PayloadError) (pre ++ rest) cursor (i + cursor) = .ok (rest.take i) := by
      have hmiddle := slice_middle (ε := PayloadError) pre (rest.take i) (rest.drop i)
      rwa [List.take_append_drop, List.length_take_of_le hlt.le, ← hcursor, Int.add_comm] at hmiddle
    have hsep : int64 (i + cursor) = i + cursor := int64_eq_self (by omega) (by omega)
    have hstart : int64 (i + cursor + 1) = i + cursor + 1 := int64_eq_self (by omega) (by omega)
    cases hread : atoi (Utf8.string (rest.take i)) <;> simp only [hsep, hstart, hnumeral, hread]

/-- The header of a string frame panics nowhere, and the body starts behind the cursor. -/
theorem stringHeader_spec {runes : List Nat} {cursor : Int} (hlen : (runes.length : Int) < 2 ^ 63)
    (h0 : 0 ≤ cursor) (hlt : cursor < runes.length) :
    (∃ e, stringHeader runes cursor = .error (.error e)) ∨
      ∃ start length, stringHeader runes cursor = .ok (start, length) ∧ cursor < start ∧
        start ≤ runes.length ∧ length < 2 ^ 63 := by
  have hsplit := List.take_append_drop cursor.toNat runes
  have hcursor : cursor = (runes.take cursor.toNat).length := by
    rw [List.length_take]
    omega
  have hwhole : ((runes.take cursor.toNat ++ runes.drop cursor.toNat).length : Int) < 2 ^ 63 := by
    simpa only [hsplit] using hlen
  have hheader := stringHeader_eq hcursor hwhole
  rw [hsplit] at hheader
  rw [hheader]
  cases hi : (runes.drop cursor.toNat).findIdx? (· = lengthSeparator) with
  | none => exact .inl ⟨_, rfl⟩
  | some i =>
    obtain ⟨hbound, -⟩ := List.findIdx?_eq_some_iff_getElem.1 hi
    rw [List.length_drop] at hbound
    cases hn : atoi (Utf8.string ((runes.drop cursor.toNat).take i)) with
    | error e => exact .inl ⟨.malformed (.invalidLength e), by simp only [hn]⟩
    | ok n => exact .inr ⟨i + cursor + 1, n, by simp only [hn], by omega, by omega, atoi_bounds hn⟩

/-- The body that is sliced out and decoded, when the payload is long enough for it. -/
theorem iteration_body {α : Type} {xs : List α} {cursor start length : Int}
    (decode : List α → Except PayloadError Packet) (hlen : (xs.length : Int) < 2 ^ 63)
    (hstart : cursor < start) (h0 : 0 ≤ cursor) (hle : start ≤ xs.length) (hlow : -2 ^ 63 ≤ length)
    (hhigh : length < 2 ^ 63) (hfits : ¬ xs.length < int64 (start + length)) :
    Iteration xs.length cursor (decodeBody decode xs start (int64 (start + length)))
      (length < 0 || 2 ^ 63 ≤ start + length) := by
  unfold decodeBody
  by_cases hover : length < 0 ∨ 2 ^ 63 ≤ start + length
  · -- the end lies before the start, and passed the comparison with the length of the payload
    have hend : int64 (start + length) < start := by
      rcases hover with hneg | hover
      · rw [int64_eq_self (by omega) (by omega)]
        omega
      · rw [int64_eq_sub hover (by omega)]
        omega
    rw [(slice_eq_panic (ε := PayloadError)).2 (by omega),
      show (decide (length < 0) || decide (2 ^ 63 ≤ start + length)) = true by simpa using hover]
    exact .panics
  · have hend : int64 (start + length) = start + length := int64_eq_self (by omega) (by omega)
    rw [hend] at hfits ⊢
    rw [show (decide (length < 0) || decide (2 ^ 63 ≤ start + length)) = false by simpa using hover,
      slice, if_pos ⟨by omega, by omega, by omega⟩]
    simp only
    split
    · exact .fails _
    · exact .advances _ (by omega) (by omega)

/-- Whether the length declared at the cursor takes the end of its body out of the `int` range. -/
def stringOverruns (runes : List Nat) (cursor : Int) : Bool :=
  match stringHeader runes cursor with
  | .ok (start, length) => 2 ^ 63 ≤ start + length
  | .error _ => false

theorem stringFrame_iteration {runes : List Nat} (hlen : (runes.length : Int) < 2 ^ 63)
    (cursor : Int) (h0 : 0 ≤ cursor) (hlt : cursor < runes.length) :
    Iteration runes.length cursor (stringFrame runes cursor) (stringOverruns runes cursor) := by
  unfold stringFrame stringOverruns
  rcases stringHeader_spec hlen h0 hlt with ⟨e, he⟩ | ⟨start, length, hheader, hstart, hle, hbound⟩
  · rw [he]
    exact .fails e
  · rw [hheader]
    simp only
    by_cases hneg : length < 0
    · rw [if_pos (.inl hneg), decide_eq_false (by omega)]
      exact .fails _
    · by_cases hbeyond : (runes.length : Int) < int64 (start + length)
      · rw [if_pos (.inr hbeyond), decide_eq_false]
        · exact .fails _
        · intro hover
          rw [int64_eq_sub hover (by omega)] at hbeyond
          omega
      · rw [if_neg (by simp [hneg, hbeyond])]
        have hbody := iteration_body (fun body => decodeStringFramedPacket (Utf8.string body))
          hlen hstart h0 hle (by omega) hbound hbeyond
        rw [decide_eq_false hneg, Bool.false_or] at hbody
        exact hbody

/-- The digits of a length: an error, or a length in the `int` range and the cursor moved forward. -/
theorem binaryLength_spec (length cursor : Int) (rest : List UInt8)
    (hlow : -2 ^ 63 ≤ length) (hhigh : length < 2 ^ 63) :
    (∃ e, binaryLength length cursor rest = .error (.error e)) ∨
      ∃ n start, binaryLength length cursor rest = .ok (n, start) ∧ cursor < start ∧
        start ≤ cursor + rest.length ∧ -2 ^ 63 ≤ n ∧ n < 2 ^ 63 := by
  induction rest generalizing length cursor with
  | nil => exact .inl ⟨_, rfl⟩
  | cons digit rest ih =>
    unfold binaryLength
    split
    · exact .inr ⟨length, cursor + 1, rfl, by omega, by simp, hlow, hhigh⟩
    · split
      · exact .inl ⟨_, rfl⟩
      · obtain ⟨hlow', hhigh'⟩ := int64_bounds (int64 (length * 10) + digit.toNat)
        rcases ih _ (cursor + 1) hlow' hhigh' with he | ⟨n, start, hok, h1, h2, h3⟩
        · exact .inl he
        · refine .inr ⟨n, start, hok, by omega, ?_, h3⟩
          rw [List.length_cons]
          omega

theorem binaryHeader_spec {input : List UInt8} {cursor : Int} (h0 : 0 ≤ cursor)
    (hlt : cursor < input.length) :
    (∃ e, binaryHeader input cursor = .error (.error e)) ∨
      ∃ marker start length, binaryHeader input cursor = .ok (marker, start, length) ∧
        cursor < start ∧ start ≤ input.length ∧ -2 ^ 63 ≤ length ∧ length < 2 ^ 63 := by
  obtain ⟨marker, hmarker⟩ := index_eq (ε := PayloadError) h0 hlt
  unfold binaryHeader
  rw [hmarker]
  simp only
  split
  · exact .inl ⟨_, rfl⟩
  · rcases binaryLength_spec 0 (cursor + 1) (input.drop (cursor.toNat + 1)) (by decide) (by decide)
      with ⟨e, he⟩ | ⟨n, start, hok, h1, h2, h3⟩
    · rw [he]
      exact .inl ⟨e, rfl⟩
    · rw [hok]
      rw [List.length_drop] at h2
      exact .inr ⟨marker, start, n, rfl, by omega, by omega, h3⟩

/-- Whether the length declared at the cursor has wrapped to a negative one, or takes the end of its
    body out of the `int` range. -/
def binaryOverruns (input : List UInt8) (cursor : Int) : Bool :=
  match binaryHeader input cursor with
  | .ok (_, start, length) => length < 0 || 2 ^ 63 ≤ start + length
  | .error _ => false

theorem binaryFrame_iteration {input : List UInt8} (hlen : (input.length : Int) < 2 ^ 63)
    (cursor : Int) (h0 : 0 ≤ cursor) (hlt : cursor < input.length) :
    Iteration input.length cursor (binaryFrame input cursor) (binaryOverruns input cursor) := by
  unfold binaryFrame binaryOverruns
  rcases binaryHeader_spec h0 hlt with ⟨e, he⟩ | ⟨marker, start, length, hheader, hstart, hle, hlow, hhigh⟩
  · rw [he]
    exact .fails e
  · rw [hheader]
    simp only
    by_cases hbeyond : (input.length : Int) < int64 (start + length)
    · have hover : ¬ (length < 0 ∨ 2 ^ 63 ≤ start + length) := by
        rintro (hneg | hover)
        · rw [int64_eq_self (by omega) (by omega)] at hbeyond
          omega
        · rw [int64_eq_sub hover (by omega)] at hbeyond
          omega
      rw [if_pos hbeyond,
        show (decide (length < 0) || decide (2 ^ 63 ≤ start + length)) = false by simpa using hover]
      exact .fails _
    · rw [if_neg hbeyond]
      exact iteration_body _ hlen hstart h0 hle hlow hhigh hbeyond

/-! ## Panics -/

/-- Some length that the decoder for this version reaches takes the end of its body out of the `int`
    range. -/
def Overruns (version : Int) (input : List UInt8) : Prop :=
  (version = 3 ∧ startsBinary input = true ∧
    ∃ c, Reached (binaryFrame input) input.length c ∧ c < input.length ∧
      binaryOverruns input c = true) ∨
  ((version = 2 ∨ version = 3 ∧ startsBinary input = false) ∧
    ∃ c, Reached (stringFrame (Utf8.runes input)) (Utf8.runes input).length c ∧
      c < (Utf8.runes input).length ∧ stringOverruns (Utf8.runes input) c = true)

/-- The string framing always ends, and panics at the lengths it reaches that overrun. -/
theorem decodeStringFramedPayload_spec {input : List UInt8} (hlen : input.length < 2 ^ 63) :
    Advances (stringFrame (Utf8.runes input)) (Utf8.runes input).length ∧
      decodeStringFramedPayload input ≠ .error .looping ∧
      (decodeStringFramedPayload input = .error .panic ↔
        ∃ c, Reached (stringFrame (Utf8.runes input)) (Utf8.runes input).length c ∧
          c < (Utf8.runes input).length ∧ stringOverruns (Utf8.runes input) c = true) := by
  have hrunes := Utf8.length_runes_le input
  exact run_spec (stringFrame_iteration (by omega)) (Int.natCast_nonneg _) (by omega)

/-- The binary framing always ends, and panics at the lengths it reaches that overrun. -/
theorem decodeBinaryFramedPayload_spec {input : List UInt8} (hlen : input.length < 2 ^ 63) :
    Advances (binaryFrame input) input.length ∧
      decodeBinaryFramedPayload input ≠ .error .looping ∧
      (decodeBinaryFramedPayload input = .error .panic ↔
        ∃ c, Reached (binaryFrame input) input.length c ∧ c < input.length ∧
          binaryOverruns input c = true) :=
  run_spec (binaryFrame_iteration (by omega)) (Int.natCast_nonneg _) (by omega)

/-- **Decoding a payload.** For every version and every byte slice the loops end and their cursors
    strictly increase; and a slice expression is out of range exactly when a declared length takes the
    end of its body out of the `int` range. -/
theorem decodePayload_panics_iff (version : Int) (input : List UInt8)
    (hlen : input.length < 2 ^ 63) :
    decodePayload version input ≠ .error .looping ∧
      Advances (stringFrame (Utf8.runes input)) (Utf8.runes input).length ∧
      Advances (binaryFrame input) input.length ∧
      (decodePayload version input = .error .panic ↔ Overruns version input) := by
  obtain ⟨hadv, hloop, hpanic⟩ := decodeStringFramedPayload_spec hlen
  obtain ⟨hadv', hloop', hpanic'⟩ := decodeBinaryFramedPayload_spec hlen
  refine ⟨?_, hadv, hadv', ?_⟩
  · unfold decodePayload
    split
    · split <;> simp
    · split
      · split
        · exact hloop'
        · exact hloop
      · split
        · exact hloop
        · simp
  · unfold decodePayload Overruns
    by_cases h4 : version = 4
    · subst h4
      cases decodeRecordSeparatorPayload input <;> simp
    · by_cases h3 : version = 3
      · subst h3
        cases hb : startsBinary input with
        | true => simpa using hpanic'
        | false => simpa using hpanic
      · by_cases h2 : version = 2
        · subst h2
          simpa using hpanic
        · simp [h4, h3, h2]

/-- A short length: the packet is decoded, as nothing overruns. -/
theorem decodePayload_short_length :
    decodePayload 3 [50, 58, 52, 97] = .ok [{ type := .message, data := [97] }] ∧
      ¬ Overruns 3 [50, 58, 52, 97] := by
  have hok : decodePayload 3 [50, 58, 52, 97] = .ok [{ type := .message, data := [97] }] := by
    decide +kernel
  refine ⟨hok, fun hover => ?_⟩
  have hpanic := (decodePayload_panics_iff 3 [50, 58, 52, 97] (by decide)).2.2.2.2 hover
  rw [hok] at hpanic
  cases hpanic

/-- The largest `int` as the length of a string frame, and one more than it as the length of a binary
    frame: in both the end of the body comes out negative, passes the comparison with the length of
    the payload, and the slice expression panics. -/
theorem decodePayload_panics :
    decodePayload 2 [57, 50, 50, 51, 51, 55, 50, 48, 51, 54, 56, 53, 52, 55, 55, 53, 56, 48, 55, 58] =
      .error .panic ∧
    decodePayload 3 [0, 9, 2, 2, 3, 3, 7, 2, 0, 3, 6, 8, 5, 4, 7, 7, 5, 8, 0, 8, 255] =
      .error .panic := by
  decide +kernel

end EngineIo
