import EngineIo.Concurrency.Pool
import EngineIo.Server.Socket

set_option autoImplicit false

/-! # The goroutines of a `ServerSocket`

The application (`Send`, `Close`), the timers, the poll requests, the read loops of the websocket
and webtransport transports and the noop ticker of a probe all run the lock sections of
`Server/Socket.lean` on one session. `Pc` says which section a goroutine runs next and holds its
local variables; `exec` runs it.

Who calls what, and when, is left open: any packet may arrive on any transport at any moment, so a
call of `completeUpgrade` or `abortUpgrade` may come for any transport. A payload is put into the
channel of a poll in the section that claims the channel, as the channel is buffered and empty then.
`promote` only changes how a transport's own read loop dispatches and has no section here. -/

namespace EngineIo.Server

/-- The reasons given to the close handler. -/
inductive Reason
  | forcedClose
  | transportError
  | transportClose
  | pingTimeout
  | parseError
deriving DecidableEq, Repr

/-- The session, the resources it uses, and the history the statements speak about. -/
structure World where
  sock : ServerSocket
  /-- The long-polling transport, if the session was established on one. -/
  polling : PollingTransport := {}
  /-- The other transports that have been closed. -/
  closed : List Transport := []
  /-- The payloads put into the channels of polls. -/
  inbox : List (Nat × List Packet) := []
  /-- The stop channels that have been closed. -/
  stopped : List Nat := []
  /-- Whether `flushMu` is locked. -/
  flushMu : Bool := false
  made : Nat := 1
  channels : Nat := 0
  stops : Nat := 0
  accepted : List Packet := []
  /-- The packets of the writes of `flush` that reported success. -/
  handed : List Packet := []
  /-- How often the active transport has been replaced. -/
  swaps : Nat := 0
  /-- The probing transports that were refused or aborted. -/
  discarded : List Transport := []
  closeReasons : List Reason := []
deriving DecidableEq, Repr

/-- What follows in the method that called `flush`. -/
inductive Cont
  /-- `Send`, `sendPing`, `completeUpgrade`: nothing. -/
  | done
  /-- `Close`. -/
  | close
  /-- `handlePoll`, which then waits on its channel. -/
  | poll (ch : Nat)
deriving DecidableEq, Repr

inductive FlushPc
  | lock (k : Cont)
  | beginFlush (k : Cont)
  | send (k : Cont) (t : Transport) (packets : List Packet)
  /-- The websocket or webtransport connection was not closed; its frames are being written. -/
  | writeFrames (k : Cont) (packets : List Packet)
  | endFlush (k : Cont) (packets : List Packet)
  | unlock (k : Cont)
deriving DecidableEq, Repr

def FlushPc.cont : FlushPc → Cont
  | .lock k | .beginFlush k | .send k _ _ | .writeFrames k _ | .endFlush k _ | .unlock k => k

/-- What follows in the method that called `closeWithReason`. -/
inductive Return
  | done
  /-- `flush`, which holds `flushMu`. -/
  | flush (k : Cont)
deriving DecidableEq, Repr

inductive TeardownPc
  | beginTeardown (reason : Reason) (r : Return)
  | closeStop (reason : Reason) (r : Return) (old probe : Option Transport) (stop : Option Nat)
  | closeTransport (reason : Reason) (r : Return) (old probe : Option Transport)
  | closeUpgrade (reason : Reason) (r : Return) (probe : Option Transport)
  | closeHandler (reason : Reason) (r : Return)
deriving DecidableEq, Repr

inductive PollPc
  | hold (ch : Nat)
  | await (ch : Nat)
deriving DecidableEq, Repr

inductive UpgradePc
  | startUpgrade (t : Transport)
  | refused (t : Transport)
  | onProbe
  /-- The noop ticker, between two ticks. -/
  | ticker (stop : Nat)
  | writeNoop (stop : Nat)
  | beginCompleteUpgrade (t : Transport)
  | completeStop (old : Option Transport) (stop : Option Nat)
  | completeClose (old : Option Transport)
  | beginAbortUpgrade (t : Transport)
  | abortStop (t : Transport) (stop : Option Nat)
  | abortClose (t : Transport)
deriving DecidableEq, Repr

inductive Pc
  | idle
  | open
  | send (data : List UInt8) (isBinary : Bool)
  | beginClose
  | armCloseTimer
  | onPong
  | sendPing
  | flush (pc : FlushPc)
  | teardown (pc : TeardownPc)
  | poll (pc : PollPc)
  | upgrade (pc : UpgradePc)
deriving DecidableEq, Repr

/-- The calls an idle goroutine can take up. -/
inductive Call
  | open
  | send (data : List UInt8) (isBinary : Bool)
  | close
  | onPong
  | closeWithReason (reason : Reason)
  | poll
  | startUpgrade (type : TransportType)
  | onProbe
  | completeUpgrade (t : Transport)
  | abortUpgrade (t : Transport)
  | pingTimer
  | pongTimer
  | closeTimer
  | upgradeTimer
deriving DecidableEq, Repr

inductive Choice
  | go
  | call (c : Call)
  /-- The frames were written, or a write failed. -/
  | written (ok : Bool)
  /-- The poll's payload was received, and the response was written or not. -/
  | responded (ok : Bool)
  /-- The client went away, or the ticker is stopped. -/
  | cancelled
deriving DecidableEq, Repr

/-- Return from `flush`. -/
def Cont.resume : Cont → Pc
  | .done => .idle
  | .close => .armCloseTimer
  | .poll ch => .poll (.await ch)

/-- Return from `closeWithReason`. -/
def Return.resume : Return → Pc
  | .done => .idle
  | .flush k => .flush (.unlock k)

/-- Put a payload into the channel of a poll, if one was claimed. -/
def World.deliver (packets : List Packet) (w : World) : Option Nat → World
  | none => w
  | some ch => { w with inbox := w.inbox ++ [(ch, packets)] }

/-- `close` of a transport. -/
def World.closeTransport (w : World) (t : Transport) : World :=
  if t.type = .polling then
    { w with polling := w.polling.close.1 }.deliver [ServerSocket.closePacket] w.polling.close.2
  else { w with closed := t :: w.closed }

/-- `close` of a transport that may be nil. -/
def World.closeTransport? (w : World) : Option Transport → World
  | none => w
  | some t => w.closeTransport t

/-- `close` of a stop channel that may be nil. -/
def World.closeStop? (w : World) : Option Nat → World
  | none => w
  | some stop => { w with stopped := stop :: w.stopped }

/-- Only the resources outside the session differ: the transports and the channels. -/
def World.Releases (w w' : World) : Prop :=
  ∃ polling closed inbox stopped, w' = { w with polling, closed, inbox, stopped }

theorem World.Releases.sock {w w' : World} (h : w.Releases w') : w'.sock = w.sock := by
  obtain ⟨polling, closed, inbox, stopped, rfl⟩ := h
  rfl

theorem World.deliver_releases (w : World) (polling : PollingTransport) (packets : List Packet)
    (ch : Option Nat) : w.Releases ({ w with polling }.deliver packets ch) := by
  cases ch with
  | none => exact ⟨polling, w.closed, w.inbox, w.stopped, rfl⟩
  | some ch => exact ⟨polling, w.closed, _, w.stopped, rfl⟩

theorem World.closeTransport_releases (w : World) (t : Transport) :
    w.Releases (w.closeTransport t) := by
  unfold World.closeTransport
  split
  · exact w.deliver_releases _ _ _
  · exact ⟨w.polling, _, w.inbox, w.stopped, rfl⟩

theorem World.closeTransport?_releases (w : World) (t : Option Transport) :
    w.Releases (w.closeTransport? t) := by
  cases t with
  | none => exact ⟨w.polling, w.closed, w.inbox, w.stopped, rfl⟩
  | some t => exact w.closeTransport_releases t

theorem World.closeStop?_releases (w : World) (stop : Option Nat) :
    w.Releases (w.closeStop? stop) := by
  cases stop with
  | none => exact ⟨w.polling, w.closed, w.inbox, w.stopped, rfl⟩
  | some stop => exact ⟨w.polling, w.closed, w.inbox, _, rfl⟩

/-- An idle goroutine takes up a call. -/
def startCall (w : World) : Call → Option (World × Pc)
  | .open => some (w, .open)
  | .send data isBinary => some (w, .send data isBinary)
  | .close => some (w, .beginClose)
  | .onPong => some (w, .onPong)
  | .closeWithReason reason => some (w, .teardown (.beginTeardown reason .done))
  | .poll =>
    -- `activePollingTransport`
    if w.sock.transport.map (·.type) = some .polling then
      some ({ w with channels := w.channels + 1 }, .poll (.hold w.channels))
    else none
  | .startUpgrade type =>
    -- only websocket and webtransport connections are probed
    if type = .polling then none
    else some ({ w with made := w.made + 1 }, .upgrade (.startUpgrade ⟨w.made, type⟩))
  | .onProbe => some (w, .upgrade .onProbe)
  | .completeUpgrade t => some (w, .upgrade (.beginCompleteUpgrade t))
  | .abortUpgrade t => some (w, .upgrade (.beginAbortUpgrade t))
  | .pingTimer =>
    if w.sock.pingTimer = some {} then
      some ({ w with sock := { w.sock with pingTimer := some { fired := true } } }, .sendPing)
    else none
  | .pongTimer =>
    if w.sock.pongTimer = some {} then
      some ({ w with sock := { w.sock with pongTimer := some { fired := true } } },
        .teardown (.beginTeardown .pingTimeout .done))
    else none
  | .closeTimer =>
    if w.sock.closeTimer = some {} then
      some ({ w with sock := { w.sock with closeTimer := some { fired := true } } },
        .teardown (.beginTeardown .forcedClose .done))
    else none
  | .upgradeTimer =>
    match w.sock.upgradeTimer with
    | some timer =>
      if timer.fired then none
      else
        some ({ w with sock := { w.sock with upgradeTimer := some { timer with fired := true } } },
          .upgrade (.beginAbortUpgrade timer.transport))
    | none => none

/-- `flush`. -/
def execFlush (w : World) : FlushPc → Choice → Option (World × Pc)
  | .lock k, .go =>
    if w.flushMu then none else some ({ w with flushMu := true }, .flush (.beginFlush k))
  | .beginFlush k, .go =>
    match w.sock.beginFlush with
    | none => some (w, .flush (.unlock k))
    | some (t, packets) => some (w, .flush (.send k t packets))
  | .send k t packets, .go =>
    if t.type = .polling then
      match w.polling.send with
      | (polling, none) => some ({ w with polling }, .flush (.unlock k))
      | (polling, some ch) =>
        some ({ w with polling, handed := w.handed ++ packets }.deliver packets (some ch),
          .flush (.endFlush k packets))
    else if t ∈ w.closed then some (w, .flush (.unlock k))
    else some (w, .flush (.writeFrames k packets))
  | .writeFrames k packets, .written true =>
    some ({ w with handed := w.handed ++ packets }, .flush (.endFlush k packets))
  | .writeFrames k _, .written false =>
    some (w, .teardown (.beginTeardown .transportError (.flush k)))
  | .endFlush k packets, .go =>
    let s := w.sock.endFlush packets.length
    some ({ w with sock := s },
      if s.writeBuffer = [] ∧ s.state = .closing then
        .teardown (.beginTeardown .forcedClose (.flush k))
      else if s.writeBuffer = [] ∨ s.state = .closed then .flush (.unlock k)
      else .flush (.beginFlush k))
  | .unlock k, .go => some ({ w with flushMu := false }, k.resume)
  | _, _ => none

/-- `closeWithReason`. -/
def execTeardown (w : World) : TeardownPc → Choice → Option (World × Pc)
  | .beginTeardown reason r, .go =>
    match w.sock.beginTeardown with
    | none => some (w, r.resume)
    | some (s, old, probe, stop) =>
      some ({ w with sock := s }, .teardown (.closeStop reason r old probe stop))
  | .closeStop reason r old probe stop, .go =>
    some (w.closeStop? stop, .teardown (.closeTransport reason r old probe))
  | .closeTransport reason r old probe, .go =>
    some (w.closeTransport? old, .teardown (.closeUpgrade reason r probe))
  | .closeUpgrade reason r probe, .go =>
    some (w.closeTransport? probe, .teardown (.closeHandler reason r))
  | .closeHandler reason r, .go =>
    some ({ w with closeReasons := w.closeReasons ++ [reason] }, r.resume)
  | _, _ => none

/-- `handlePoll`. -/
def execPoll (w : World) : PollPc → Choice → Option (World × Pc)
  | .hold ch, .go =>
    match w.polling.hold ch with
    | (polling, .held) => some ({ w with polling }, .flush (.lock (.poll ch)))
    | (polling, .pollOverlap) =>
      some ({ w with polling }, .teardown (.beginTeardown .transportError .done))
    | (polling, .pollClosed) => some ({ w with polling }, .idle)
  | .await ch, .responded ok =>
    if (w.inbox.any fun m => m.1 = ch) then
      some (w, if ok then .idle else .teardown (.beginTeardown .transportError .done))
    else none
  | .await ch, .cancelled =>
    some ({ w with polling := (w.polling.release ch).1 },
      .teardown (.beginTeardown .transportClose .done))
  | _, _ => none

/-- `startUpgrade`, `onProbe`, `completeUpgrade` and `abortUpgrade`. -/
def execUpgrade (w : World) : UpgradePc → Choice → Option (World × Pc)
  | .startUpgrade t, .go =>
    match w.sock.startUpgrade t with
    | none => some ({ w with discarded := t :: w.discarded }, .upgrade (.refused t))
    | some s => some ({ w with sock := s }, .idle)
  | .refused t, .go => some (w.closeTransport t, .idle)
  | .onProbe, .go =>
    match w.sock.onProbe w.stops with
    | none => some (w, .idle)
    | some s => some ({ w with sock := s, stops := w.stops + 1 }, .upgrade (.ticker w.stops))
  | .ticker stop, .go =>
    -- `flushProbeNoop`, first section
    some (w, if w.sock.transport.map (·.type) = some .polling then .upgrade (.writeNoop stop)
      else .upgrade (.ticker stop))
  | .ticker stop, .cancelled => if stop ∈ w.stopped then some (w, .idle) else none
  | .writeNoop stop, .go =>
    some ({ w with polling := w.polling.writeNoop.1 }.deliver [{ type := .noop }]
      w.polling.writeNoop.2, .upgrade (.ticker stop))
  | .beginCompleteUpgrade t, .go =>
    match w.sock.beginCompleteUpgrade t with
    | none => some (w, .idle)
    | some (s, old, stop) =>
      some ({ w with sock := s, swaps := w.swaps + 1 }, .upgrade (.completeStop old stop))
  | .completeStop old stop, .go => some (w.closeStop? stop, .upgrade (.completeClose old))
  | .completeClose old, .go => some (w.closeTransport? old, .flush (.lock .done))
  | .beginAbortUpgrade t, .go =>
    match w.sock.beginAbortUpgrade t with
    | none => some (w, .idle)
    | some (s, stop) =>
      some ({ w with sock := s, discarded := t :: w.discarded }, .upgrade (.abortStop t stop))
  | .abortStop t stop, .go => some (w.closeStop? stop, .upgrade (.abortClose t))
  | .abortClose t, .go => some (w.closeTransport t, .idle)
  | _, _ => none

/-- Run the next section of a goroutine. -/
def exec (w : World) : Pc → Choice → Option (World × Pc)
  | .idle, .call c => startCall w c
  | .open, .go => some ({ w with sock := w.sock.open }, .idle)
  | .send data isBinary, .go =>
    match w.sock.send data isBinary with
    | none => some (w, .idle)
    | some s =>
      some ({ w with
        sock := s
        accepted := w.accepted ++ [{ type := .message, data := data, isBinary := isBinary }] },
        .flush (.lock .done))
  | .beginClose, .go =>
    match w.sock.beginClose with
    | none => some (w, .idle)
    | some s =>
      some ({ w with sock := s, accepted := w.accepted ++ [ServerSocket.closePacket] },
        .flush (.lock .close))
  | .armCloseTimer, .go => some ({ w with sock := w.sock.armCloseTimer }, .idle)
  | .onPong, .go => some ({ w with sock := w.sock.onPong }, .idle)
  | .sendPing, .go =>
    match w.sock.sendPing with
    | none => some (w, .idle)
    | some s =>
      some ({ w with sock := s, accepted := w.accepted ++ [{ type := .ping }] },
        .flush (.lock .done))
  | .flush pc, a => execFlush w pc a
  | .teardown pc, a => execTeardown w pc a
  | .poll pc, a => execPoll w pc a
  | .upgrade pc, a => execUpgrade w pc a
  | _, _ => none

/-- A fresh session on a transport of any type (`newServerSocket`). -/
def World.Fresh (w : World) : Prop := ∃ type, w = { sock := { transport := some ⟨0, type⟩ } }

/-- Any number of goroutines on one session. -/
def program : Concurrency.Program World Pc Choice where
  init := World.Fresh
  idle := .idle
  exec := exec

/-- A session that was established on a websocket. -/
def freshWebSocket : Concurrency.Pool World Pc :=
  ⟨{ sock := { transport := some ⟨0, .websocket⟩ } }, fun _ => .idle⟩

theorem freshWebSocket_reachable : program.Reachable freshWebSocket := .init ⟨.websocket, rfl⟩

/-- A session that was established on long polling. -/
def freshPolling : Concurrency.Pool World Pc :=
  ⟨{ sock := { transport := some ⟨0, .polling⟩ } }, fun _ => .idle⟩

theorem freshPolling_reachable : program.Reachable freshPolling := .init ⟨.polling, rfl⟩

end EngineIo.Server
