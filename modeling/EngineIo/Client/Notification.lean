import EngineIo.Client.Socket
import EngineIo.Codec.Payload
import EngineIo.Codec.WebTransportStream

set_option autoImplicit false

/-! # What the packet handler sees (`OnPacket` in `socket.go`)

Three loops hand the packets of a server to the socket: `onData` of the polling transport, payload by payload,
and the read loops of the other two, frame by frame. Here one goroutine runs such a loop while nothing else
happens to the socket; the handlers of the application only look on.

The loops agree on every packet but one. The read loops hand a close packet to the socket and then close the
transport. `onData` closes the transport first, and the teardown that follows detaches the socket from it, so
the close packet reaches no one. -/

namespace EngineIo.Client

open Stream

/-! ## The socket, in one goroutine -/

namespace Socket

/-- `flush`, over a transport that takes everything. The buffer is empty behind it, so there is one round. -/
def flushAll (s : Socket) : Socket :=
  match s.beginFlush with
  | none => s
  | some (s', _, entries, _) =>
    match s'.endFlush entries.length false with
    | none => s'
    | some (s'', _) => s''

/-- `Send` of a pong. -/
def sendPong (conn : Nat) (s : Socket) : Socket :=
  match s.send [{ packet := { type := .pong }, conn, seq := 0 }] with
  | none => s
  | some s' => s'.flushAll

/-- `onOpen`. -/
def onOpen (conn : Nat) (p : OpenPacket) (s : Socket) : Socket :=
  match (s.recordOpen p).transport with
  | none => s.recordOpen p
  | some _ => ((s.recordOpen p).reschedulePingTimeout conn).flushAll

/-- `onPacket`, from the switch on; `unmarshal` is `json.Unmarshal`. -/
def handlePacket (unmarshal : List UInt8 → Option OpenPacket) (conn : Nat) (p : Packet) (s : Socket) : Socket :=
  if p.type = .open then
    match unmarshal p.data with
    | none => s
    | some openPacket => s.onOpen conn openPacket
  else if p.type = .ping then s.sendPong conn
  else s

end Socket

/-! ## A socket that receives on a transport -/

structure Receiver where
  sock : Socket
  self : Transport
  /-- The state of the transport. -/
  state : TransportState
  /-- Whether the handlers of the transport are those that `Open` set. -/
  attached : Bool
  /-- What the packet handler of the application was called with. -/
  observed : List Packet
deriving DecidableEq, Repr

namespace Receiver

/-- The socket detaches its handlers from the transport and closes it. -/
def detach (r : Receiver) : Receiver :=
  { r with
    attached := false
    state := if r.state = .opening ∨ r.state = .open then .closed else r.state }

/-- `Socket.onClose`. -/
def socketOnClose (r : Receiver) : Receiver :=
  match r.sock.beginTeardown with
  | none => r
  | some (s, transport) =>
    if transport = some r.self then { r with sock := s }.detach else { r with sock := s }

/-- `onClose` of a transport. -/
def onClose (r : Receiver) : Receiver :=
  if r.state = .closed then r
  else if r.attached then { r with state := .closed }.socketOnClose
  else { r with state := .closed }

/-- `Socket.onError`. A retry goes on with another transport. -/
def socketOnError (r : Receiver) : Receiver :=
  match r.sock.beginRetry with
  | (s, false) => { r with sock := s }.socketOnClose
  | (s, true) =>
    if r.sock.transport = some r.self then { r with sock := s }.detach else { r with sock := s }

/-- `onError` of a transport. -/
def onError (r : Receiver) : Receiver := if r.attached then r.socketOnError else r

variable (unmarshal : List UInt8 → Option OpenPacket)

/-- `Socket.onPacket`. -/
def socketOnPacket (r : Receiver) (p : Packet) : Receiver :=
  if r.sock.state.live then
    { r with
      sock := (r.sock.reschedulePingTimeout r.self.id).handlePacket unmarshal r.self.id p
      observed := r.observed ++ [p] }
  else r

/-- `onPacket` of a transport. -/
def onPacket (r : Receiver) (p : Packet) : Receiver :=
  if r.attached then r.socketOnPacket unmarshal p else r

/-- One turn of the loop in `PollingTransport.onData`. -/
def dispatch (r : Receiver) (p : Packet) : Receiver :=
  let r :=
    if p.type = .open ∧ r.state = .opening then { r with state := .open }
    else if p.type = .close ∧ r.state ≠ .closed then r.onClose
    else r
  r.onPacket unmarshal p

/-- `PollingTransport.onData`, and whether it starts another poll. -/
def onData (r : Receiver) (data : List UInt8) : Receiver × Bool :=
  match decodePayload 4 data with
  | .error _ => (r.onError, false)
  | .ok packets =>
    let r := packets.foldl (dispatch unmarshal) r
    (r, r.state = .open)

/-- `PollingTransport.poll`, again and again; the last poll is not answered. -/
def polls (r : Receiver) : List (List UInt8) → Receiver
  | [] => r
  | body :: bodies =>
    if r.state = .opening ∨ r.state = .open then
      if body.length ≠ 0 then
        match r.onData unmarshal body with
        | (r, true) => r.polls bodies
        | (r, false) => r
      else r
    else r

/-- `WebSocketTransport.readLoop`; the read behind the last frame blocks. -/
def readFrames (r : Receiver) : List Frame → Receiver
  | [] => r
  | frame :: frames =>
    if r.state = .closing ∨ r.state = .closed then r
    else
      match decodeWebSocketFrame frame with
      | .error _ => r.onError.readFrames frames
      | .ok p =>
        if p.type = .close then (r.onPacket unmarshal p).onClose
        else (r.onPacket unmarshal p).readFrames frames

/-- `WebTransportTransport.readLoop`; the read behind the last of `reads` blocks. -/
def readStream (r : Receiver) : Nat → List UInt8 → Receiver
  | 0, _ => r
  | reads + 1, stream =>
    if r.state = .closing ∨ r.state = .closed then r
    else
      match readWebTransportPacket webTransportReadLimit stream with
      | (.error _, _) => r.onError.onClose
      | (.ok p, rest) =>
        if p.type = .close then (r.onPacket unmarshal p).onClose
        else (r.onPacket unmarshal p).readStream reads rest

/-- An open socket, on an open transport. -/
structure Open (r : Receiver) : Prop where
  sock_open : r.sock.state = .open
  current : r.sock.transport = some r.self
  transport_open : r.state = .open
  attached : r.attached = true

end Receiver

/-- The packets before the first close packet. -/
def beforeClose : List Packet → List Packet
  | [] => []
  | p :: ps => if p.type = .close then [] else p :: beforeClose ps

/-- The packets up to the first close packet, with it. -/
def throughClose : List Packet → List Packet
  | [] => []
  | p :: ps => if p.type = .close then [p] else p :: throughClose ps

theorem beforeClose_append_of_not_close {ps : List Packet} (h : ∀ p ∈ ps, p.type ≠ .close) (qs : List Packet) :
    beforeClose (ps ++ qs) = ps ++ beforeClose qs := by
  induction ps with
  | nil => rfl
  | cons p ps ih =>
    obtain ⟨hp, hps⟩ := List.forall_mem_cons.1 h
    rw [List.cons_append, beforeClose, if_neg hp, ih hps, List.cons_append]

theorem beforeClose_append_of_close {ps : List Packet} (h : ∃ p ∈ ps, p.type = .close) (qs : List Packet) :
    beforeClose (ps ++ qs) = beforeClose ps := by
  induction ps with
  | nil => simp at h
  | cons p ps ih =>
    rw [List.cons_append, beforeClose, beforeClose]
    split
    · rfl
    · next hp => rw [ih (by simpa [hp] using h)]

/-- The two are the same only for want of a close packet. -/
theorem beforeClose_eq_throughClose_iff {ps : List Packet} :
    beforeClose ps = throughClose ps ↔ ∀ p ∈ ps, p.type ≠ .close := by
  induction ps with
  | nil => simp [beforeClose, throughClose]
  | cons p ps ih =>
    rw [beforeClose, throughClose]
    by_cases hp : p.type = .close
    · simp [hp]
    · simp [hp, ih]

/-! ## One packet -/

/-- A section that leaves the socket open on its transport. -/
def Socket.Stays (s s' : Socket) : Prop := s.state = .open → s'.state = .open ∧ s'.transport = s.transport

namespace Socket

variable {s : Socket}

theorem flushAll_stays (s : Socket) : s.Stays s.flushAll := by
  intro hopen
  unfold flushAll
  split
  · exact ⟨hopen, rfl⟩
  · next s' t entries m hbegin =>
    obtain ⟨-, rfl, -, -⟩ := beginFlush_eq_some.1 hbegin
    split
    · exact ⟨hopen, rfl⟩
    · next s'' more hend =>
      obtain ⟨-, rfl⟩ := endFlush_eq_some hend
      exact ⟨hopen, rfl⟩

theorem reschedulePingTimeout_stays (conn : Nat) (s : Socket) : s.Stays (s.reschedulePingTimeout conn) := by
  intro hopen
  obtain ⟨timer, htimer⟩ := reschedulePingTimeout_eq conn s
  rw [htimer]
  exact ⟨hopen, rfl⟩

theorem Stays.trans {s' s'' : Socket} (h : s.Stays s') (h' : s'.Stays s'') : s.Stays s'' := by
  intro hopen
  obtain ⟨hopen', htransport⟩ := h hopen
  obtain ⟨hopen'', htransport'⟩ := h' hopen'
  exact ⟨hopen'', htransport'.trans htransport⟩

theorem sendPong_stays (conn : Nat) (s : Socket) : s.Stays (s.sendPong conn) := by
  unfold sendPong
  split
  · exact fun hopen => ⟨hopen, rfl⟩
  · next s' hsend =>
    obtain ⟨-, rfl⟩ := send_eq_some.1 hsend
    exact fun hopen => flushAll_stays _ hopen

theorem onOpen_stays (conn : Nat) (p : OpenPacket) (s : Socket) : s.Stays (s.onOpen conn p) := by
  have hrecord : s.Stays (s.recordOpen p) := fun _ => ⟨rfl, rfl⟩
  unfold onOpen
  split
  · exact hrecord
  · exact hrecord.trans ((reschedulePingTimeout_stays conn _).trans (flushAll_stays _))

theorem handlePacket_stays (unmarshal : List UInt8 → Option OpenPacket) (conn : Nat) (p : Packet) (s : Socket) :
    s.Stays (s.handlePacket unmarshal conn p) := by
  have hrefl : s.Stays s := fun hopen => ⟨hopen, rfl⟩
  unfold handlePacket
  split
  · split
    · exact hrefl
    · exact onOpen_stays conn _ s
  · split
    · exact sendPong_stays conn s
    · exact hrefl

end Socket

namespace Receiver

variable {r : Receiver} {p : Packet} (unmarshal : List UInt8 → Option OpenPacket)

/-- An open receiver stays one, and its packet handler is called. -/
theorem Open.onPacket (h : r.Open) (p : Packet) :
    (r.onPacket unmarshal p).Open ∧ (r.onPacket unmarshal p).observed = r.observed ++ [p] := by
  obtain ⟨hopen, hcurrent, hstate, hattached⟩ := h
  have hlive : r.sock.state.live = true := by rw [hopen]; rfl
  obtain ⟨hopen', htransport⟩ := ((Socket.reschedulePingTimeout_stays r.self.id r.sock).trans
    (Socket.handlePacket_stays unmarshal r.self.id p _)) hopen
  rw [Receiver.onPacket, if_pos hattached, socketOnPacket, if_pos hlive]
  exact ⟨⟨hopen', htransport.trans hcurrent, hstate, hattached⟩, rfl⟩

/-- A transport that is closed and from which the socket is detached. -/
structure Done (r : Receiver) : Prop where
  closed : r.state = .closed
  detached : r.attached = false

/-- Closing the transport tears the socket down, which detaches it. -/
theorem Open.onClose (h : r.Open) : r.onClose.Done ∧ r.onClose.observed = r.observed := by
  obtain ⟨hopen, hcurrent, hstate, hattached⟩ := h
  have hteardown := (Socket.beginTeardown_eq_some (s := r.sock)).2 ⟨by rw [hopen]; rfl, rfl, rfl⟩
  rw [Receiver.onClose, if_neg (by rw [hstate]; decide), if_pos hattached, socketOnClose]
  simp only [hteardown, hcurrent, if_true]
  exact ⟨⟨rfl, rfl⟩, rfl⟩

theorem Done.dispatch (h : r.Done) (p : Packet) : r.dispatch unmarshal p = r := by
  obtain ⟨hclosed, hdetached⟩ := h
  simp [Receiver.dispatch, Receiver.onPacket, hclosed, hdetached]

theorem Open.dispatch (h : r.Open) (hp : p.type ≠ .close) :
    r.dispatch unmarshal p = r.onPacket unmarshal p := by
  simp [Receiver.dispatch, h.transport_open, hp]

theorem Open.dispatch_close (h : r.Open) (hp : p.type = .close) :
    (r.dispatch unmarshal p).Done ∧ (r.dispatch unmarshal p).observed = r.observed := by
  obtain ⟨hdone, hobserved⟩ := h.onClose
  have heq : r.dispatch unmarshal p = r.onClose := by
    simp [Receiver.dispatch, Receiver.onPacket, h.transport_open, hp, hdone.detached]
  rw [heq]
  exact ⟨hdone, hobserved⟩

/-! ## Whole sequences -/

/-- The packets of one payload. -/
theorem Open.foldl_dispatch (h : r.Open) (ps : List Packet) :
    (ps.foldl (Receiver.dispatch unmarshal) r).observed = r.observed ++ beforeClose ps ∧
      ((∀ p ∈ ps, p.type ≠ .close) ∧ (ps.foldl (Receiver.dispatch unmarshal) r).Open ∨
        (∃ p ∈ ps, p.type = .close) ∧ (ps.foldl (Receiver.dispatch unmarshal) r).Done) := by
  induction ps generalizing r with
  | nil => simp [beforeClose, h]
  | cons p ps ih =>
    rw [List.foldl_cons, beforeClose]
    by_cases hp : p.type = .close
    · obtain ⟨hdone, hobserved⟩ := h.dispatch_close unmarshal hp
      rw [List.foldl_fixed' (fun q => hdone.dispatch unmarshal q) ps, hobserved, if_pos hp, List.append_nil]
      exact ⟨rfl, .inr ⟨⟨p, List.mem_cons_self .., hp⟩, hdone⟩⟩
    · rw [h.dispatch unmarshal hp, if_neg hp]
      obtain ⟨hopen, hobserved⟩ := h.onPacket unmarshal p
      obtain ⟨hrest, hstate⟩ := ih hopen
      refine ⟨?_, by simpa [hp] using hstate⟩
      rw [hrest, hobserved, List.append_assoc, List.singleton_append]

/-- Poll after poll, the packet handler is called with what comes before a close packet. -/
theorem Open.polls (h : r.Open) {groups : List (List Packet)} (hne : ∀ g ∈ groups, g ≠ [])
    (hps : ∀ g ∈ groups, ∀ p ∈ g, p.WellFormed ∧ p.Separable) :
    (r.polls unmarshal (groups.map encodePayload)).observed = r.observed ++ beforeClose groups.flatten := by
  induction groups generalizing r with
  | nil => simp [Receiver.polls, beforeClose]
  | cons g groups ih =>
    obtain ⟨hg, hgroups⟩ := List.forall_mem_cons.1 hne
    obtain ⟨hpg, hpgroups⟩ := List.forall_mem_cons.1 hps
    have hdecode := decodePayload_v4_eq_ok.2 (decodeRecordSeparatorPayload_encodePayload hg hpg)
    have hbody : (encodePayload g).length ≠ 0 := by simpa using encodePayload_ne_nil hg
    obtain ⟨hobserved, hstate⟩ := h.foldl_dispatch unmarshal g
    rw [List.map_cons, Receiver.polls, if_pos (.inr h.transport_open), if_pos hbody, onData, hdecode,
      List.flatten_cons]
    simp only
    rcases hstate with ⟨hnone, hopen⟩ | ⟨hclose, hdone⟩
    · rw [decide_eq_true hopen.transport_open]
      simp only
      have hall : beforeClose g = g := by simpa [beforeClose] using beforeClose_append_of_not_close hnone []
      rw [ih hopen hgroups hpgroups, hobserved, hall, beforeClose_append_of_not_close hnone, List.append_assoc]
    · rw [hdone.closed, beforeClose_append_of_close hclose]
      exact hobserved

/-- Frame after frame on a websocket, the close packet is among them. -/
theorem Open.readFrames (h : r.Open) {ps : List Packet} (hps : ∀ p ∈ ps, p.WellFormed) :
    (r.readFrames unmarshal (ps.map encodeFrame)).observed = r.observed ++ throughClose ps := by
  induction ps generalizing r with
  | nil => simp [Receiver.readFrames, throughClose]
  | cons p ps ih =>
    obtain ⟨hp, hrest⟩ := List.forall_mem_cons.1 hps
    obtain ⟨hopen, hobserved⟩ := h.onPacket unmarshal p
    rw [List.map_cons, Receiver.readFrames, if_neg (by rw [h.transport_open]; decide),
      decodeWebSocketFrame_encodeFrame hp, throughClose]
    simp only
    split
    · rw [hopen.onClose.2, hobserved]
    · rw [ih hopen hrest, hobserved, List.append_assoc, List.singleton_append]

/-- And so it is on a webtransport stream. -/
theorem Open.readStream (h : r.Open) {ps : List Packet} (hps : ∀ p ∈ ps, p.WellFormed)
    (hlimit : ∀ p ∈ ps, ((webTransportPayload p).1.length : Int) ≤ webTransportReadLimit) :
    (r.readStream unmarshal ps.length (appendWebTransportFrames ps)).observed =
      r.observed ++ throughClose ps := by
  rw [appendWebTransportFrames, foldl_appendWebTransportFrame, List.nil_append]
  induction ps generalizing r with
  | nil => simp [Receiver.readStream, throughClose]
  | cons p ps ih =>
    obtain ⟨hp, hrest⟩ := List.forall_mem_cons.1 hps
    obtain ⟨hle, hrestLimit⟩ := List.forall_mem_cons.1 hlimit
    obtain ⟨hopen, hobserved⟩ := h.onPacket unmarshal p
    have hlt : webTransportReadLimit < 2 ^ 63 := by decide
    have hread := readWebTransportPacket_inverts hp (by omega) (.inr hle)
      (ps.flatMap (appendWebTransportFrame []))
    rw [List.length_cons, List.flatMap_cons, Receiver.readStream,
      if_neg (by rw [h.transport_open]; decide), hread, throughClose]
    simp only
    split
    · rw [hopen.onClose.2, hobserved]
    · rw [ih hopen hrest hrestLimit, hobserved, List.append_assoc, List.singleton_append]

end Receiver

/-- **Notification.** However the packets of a server are grouped into payloads, over polling the packet handler
    sees those before the first close packet, and over either of the other transports the close packet, too. So
    it sees the same over all three exactly when there is no close packet. -/
theorem notification_alike_iff (unmarshal : List UInt8 → Option OpenPacket) (r : Receiver) (hr : r.Open)
    (groups : List (List Packet)) (hne : ∀ g ∈ groups, g ≠ [])
    (hps : ∀ p ∈ groups.flatten, p.WellFormed ∧ p.Separable)
    (hlimit : ∀ p ∈ groups.flatten, ((webTransportPayload p).1.length : Int) ≤ webTransportReadLimit) :
    (r.polls unmarshal (groups.map encodePayload)).observed = r.observed ++ beforeClose groups.flatten ∧
    (r.readFrames unmarshal (groups.flatten.map encodeFrame)).observed =
      r.observed ++ throughClose groups.flatten ∧
    (r.readStream unmarshal groups.flatten.length (appendWebTransportFrames groups.flatten)).observed =
      r.observed ++ throughClose groups.flatten ∧
    ((r.polls unmarshal (groups.map encodePayload)).observed =
        (r.readFrames unmarshal (groups.flatten.map encodeFrame)).observed ↔
      ∀ p ∈ groups.flatten, p.type ≠ .close) := by
  have hpolls := hr.polls unmarshal hne fun g hg p hp =>
    hps p (List.mem_flatten.2 ⟨g, hg, hp⟩)
  have hframes := hr.readFrames unmarshal fun p hp => (hps p hp).1
  have hstream := hr.readStream unmarshal (fun p hp => (hps p hp).1) hlimit
  refine ⟨hpolls, hframes, hstream, ?_⟩
  rw [hpolls, hframes, List.append_right_inj]
  exact beforeClose_eq_throughClose_iff

/-- An open socket on an open transport, with nothing received. -/
def freshReceiver : Receiver where
  sock := { state := .open, transport := some ⟨0, .polling⟩ }
  self := ⟨0, .polling⟩
  state := .open
  attached := true
  observed := []

theorem freshReceiver_open : freshReceiver.Open := ⟨rfl, rfl, rfl, rfl⟩

/-- A message and a ping in one payload, and a close packet in the next. -/
theorem notification_alike_message :
    (freshReceiver.polls (fun _ => none) ([[{ type := .message }, { type := .ping }], [{ type := .close }]].map
      encodePayload)).observed = [{ type := .message }, { type := .ping }] ∧
    (freshReceiver.readFrames (fun _ => none) ([{ type := .message }, { type := .ping }, { type := .close }].map
      encodeFrame)).observed = [{ type := .message }, { type := .ping }, { type := .close }] := by
  have hboth := notification_alike_iff (fun _ => none) freshReceiver freshReceiver_open
    [[{ type := .message }, { type := .ping }], [{ type := .close }]] (by decide)
    (by simp only [List.flatten_cons, List.flatten_nil, List.append_nil, List.cons_append, List.nil_append,
          List.forall_mem_cons]
        exact ⟨⟨⟨by decide, by decide⟩, by decide⟩, ⟨⟨by decide, by decide⟩, by decide⟩,
          ⟨⟨by decide, by decide⟩, by decide⟩, by simp⟩)
    (by decide)
  exact ⟨hboth.1, hboth.2.1⟩

/-- A close packet alone: the polling transport tells no one. -/
theorem close_packet_unobserved :
    (freshReceiver.polls (fun _ => none) [encodePayload [{ type := .close }]]).observed = [] ∧
    (freshReceiver.readFrames (fun _ => none) [encodeFrame { type := .close }]).observed =
      [{ type := .close }] ∧
    (freshReceiver.readStream (fun _ => none) 1 (appendWebTransportFrames [{ type := .close }])).observed =
      [{ type := .close }] := by
  decide

end EngineIo.Client
