import EngineIo.Codec.WebTransportStream
import EngineIo.Server.Goroutine

set_option autoImplicit false

/-! # The read loops of the server (`server_transport_websocket.go`, `server_transport_webtransport.go`)

One turn of a read loop: what becomes of a frame, or of the error that came in its place. The websocket
loop decodes what it has read and so knows a malformed frame from a failed read. The webtransport loop has
one error for both and asks `isWebTransportParseError`, which knows all malformed frames but those whose
base64 is corrupt. -/

namespace EngineIo.Server

/-- What one turn of a read loop does. -/
inductive Turn
  /-- `handlePacket`. -/
  | dispatch (p : Packet)
  /-- `handleProbePacket`. -/
  | probe (p : Packet)
  /-- The loop ends: the server has closed the transport. -/
  | exit
  | abortUpgrade
  | close (reason : Reason)
  | panic
deriving DecidableEq, Repr

/-- `serverWebSocketTransport.readLoop`; there is no frame when the read failed. -/
def webSocketTurn (closed probing : Bool) : Option Frame → Turn
  | none =>
    if closed then .exit
    else if probing then .abortUpgrade
    else .close .transportClose
  | some frame =>
    match decodeWebSocketFrame frame with
    | .error _ => if probing then .abortUpgrade else .close .parseError
    | .ok p => if probing then .probe p else .dispatch p

/-- `isWebTransportParseError`. -/
def isWebTransportParseError : WebTransportError → Bool
  | .frameTooLarge _ _ => true
  | .decode .emptyPacket => true
  | .decode (.invalidPacketType _) => true
  | .decode .base64 => false
  | .read _ => false

/-- `serverWebTransportTransport.readLoop`, with what it leaves of the stream. -/
def webTransportTurn (closed probing : Bool) (maxPayload : Int) (stream : List UInt8) :
    Turn × List UInt8 :=
  match readWebTransportPacket (webTransportServerReadLimit maxPayload) stream with
  | (.ok p, rest) => (if probing then .probe p else .dispatch p, rest)
  | (.error (.error e), rest) =>
    (if closed then .exit
    else if probing then .abortUpgrade
    else if isWebTransportParseError e then .close .parseError
    else .close .transportClose, rest)
  | (.error _, rest) => (.panic, rest)

/-- The error is about what was read, and not about reading. -/
def WebTransportError.malformed : WebTransportError → Bool
  | .frameTooLarge _ _ | .decode _ => true
  | .read _ => false

theorem isWebTransportParseError_iff (e : WebTransportError) :
    isWebTransportParseError e = true ↔
      WebTransportError.malformed e = true ∧ e ≠ .decode .base64 := by
  cases e with
  | decode e => cases e <;> simp [isWebTransportParseError, WebTransportError.malformed]
  | _ => simp [isWebTransportParseError, WebTransportError.malformed]

/-- A text frame on a promoted websocket. -/
theorem webSocketTurn_text (payload : List UInt8) :
    webSocketTurn false false (some (.text payload)) = .close .parseError ↔
      ∃ e, decodePacket payload = .error e := by
  simp only [webSocketTurn, decodeWebSocketFrame]
  cases decodePacket payload <;> simp

/-- The same text in a frame on a promoted webtransport stream, in any form of its length. -/
theorem webTransportTurn_text {maxPayload : Int} {h : FrameHeader} {payload : List UInt8}
    (hint : maxPayload < 2 ^ 63) (htext : h.isBinary = false) (hlen : payload.length = h.length)
    (hfits : (payload.length : Int) ≤ webTransportServerReadLimit maxPayload) (rest : List UInt8) :
    (webTransportTurn false false maxPayload (h.bytes ++ (payload ++ rest))).1 = .close .parseError ↔
      ∃ e, decodePacket payload = .error e ∧ e ≠ .base64 := by
  have hlt := webTransportServerReadLimit_lt hint
  have hread := readWebTransportPacket_append hlen (by omega) (.inr hfits) rest
  rw [htext] at hread
  simp only [webTransportTurn, hread, decodeWebTransportPayload, Bool.false_eq_true, if_false]
  cases hdecode : decodePacket payload with
  | ok p => simp [Except.mapError]
  | error e => cases e <;> simp [Except.mapError, isWebTransportParseError]

/-- **Malformed frames.** A text frame within the limit is a parse error on a promoted websocket if and only
    if it is one on a promoted webtransport stream, unless its base64 is corrupt; and of all errors that
    reading any stream gives, the classifier misses exactly that one. -/
theorem parse_errors_alike_iff (maxPayload : Int) (h : FrameHeader) (payload rest : List UInt8)
    (hint : maxPayload < 2 ^ 63) (htext : h.isBinary = false) (hlen : payload.length = h.length)
    (hfits : (payload.length : Int) ≤ webTransportServerReadLimit maxPayload) :
    ((webSocketTurn false false (some (.text payload)) = .close .parseError ↔
        (webTransportTurn false false maxPayload (h.bytes ++ (payload ++ rest))).1 =
          .close .parseError) ↔
      decodePacket payload ≠ .error .base64) ∧
    ∀ stream e rest', readWebTransportPacket (webTransportServerReadLimit maxPayload) stream =
        (.error (.error e), rest') →
      ((isWebTransportParseError e = true ↔ WebTransportError.malformed e = true) ↔
        e ≠ .decode .base64) := by
  refine ⟨?_, fun stream e rest' _ => ?_⟩
  · rw [webSocketTurn_text, webTransportTurn_text hint htext hlen hfits]
    cases hdecode : decodePacket payload with
    | ok p => simp
    | error e => cases e <;> simp
  · rw [isWebTransportParseError_iff]
    by_cases hbase64 : e = .decode .base64
    · simp [hbase64, WebTransportError.malformed]
    · simp [hbase64]

/-- The header of a text frame of two bytes. -/
def twoBytes : FrameHeader := shortFrame.toFrameHeader

/-- A packet of an unknown type. -/
theorem parse_errors_alike_unknown_type :
    (webSocketTurn false false (some (.text [57, 97])) = .close .parseError ↔
        (webTransportTurn false false 100 (twoBytes.bytes ++ ([57, 97] ++ []))).1 =
          .close .parseError) ↔
      decodePacket [57, 97] ≠ .error .base64 :=
  (parse_errors_alike_iff 100 twoBytes [57, 97] [] (by decide) rfl rfl (by decide)).1

/-- The text `b!` closes the session with a parse error on a websocket, and as if the transport had closed on
    a webtransport stream. -/
theorem corrupt_base64_told_apart :
    webSocketTurn false false (some (.text [98, 33])) = .close .parseError ∧
      webTransportTurn false false 100 [2, 98, 33] = (.close .transportClose, []) ∧
      readWebTransportPacket (webTransportServerReadLimit 100) [2, 98, 33] =
        (.error (.error (.decode .base64)), []) ∧
      WebTransportError.malformed (.decode .base64) = true ∧
      isWebTransportParseError (.decode .base64) = false :=
  ⟨rfl, rfl, rfl, rfl, rfl⟩

end EngineIo.Server
