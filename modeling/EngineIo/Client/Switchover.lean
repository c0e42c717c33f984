import EngineIo.Client.Socket
import EngineIo.Concurrency.CallStack

set_option autoImplicit false

/-! # A client socket and its transports during upgrades

`Client/Goroutine.lean` lets any transport call back at any moment. Here the transports are the ones
of the source: the `PollingTransport` the connection was established on (number 0) and the
`WebSocketTransport`s that probes construct, each with its state, its handlers and, for polling, the
`pollMu` and `pollWG` that its requests and `Pause` synchronise on. A goroutine is a stack of frames,
since a transport calls a handler of the socket, which closes a transport, which calls a handler.

A run starts when `recordOpen` has marked the socket open, while the poll that brought the open packet
is still being dispatched. The connection stays the only one: nobody calls `Open`, and no further
open packet arrives. The heartbeat timer is left out. A probe starts with its websocket dialled, as
a failed dial touches neither the socket nor the old transport; and `probeUpgrades`, which waits for
the outcome of a probe, continues in the goroutine that runs the pong callback. -/

namespace EngineIo.Client.Switchover

/-- Whom a transport notifies: nobody, the socket, or the probe that constructed it. -/
inductive Handler
  | unset
  | socket
  | probe
deriving DecidableEq, Repr

/-- A transport. The last two fields are history: whether it has reported an error or its close to
    the socket, and whether it has reported one to anybody else. -/
structure TransportObject where
  type : TransportType := .websocket
  state : TransportState := .closed
  onOpen : Handler := .unset
  onClose : Handler := .unset
  onPacket : Handler := .unset
  onError : Handler := .unset
  heard : Bool := false
  missed : Bool := false
deriving DecidableEq, Repr

structure World where
  sock : Socket
  object : Nat → TransportObject
  /-- `pollMu` of the polling transport. -/
  pollMu : Bool := false
  /-- `pollWG` of the polling transport; the handshake's poll is still being dispatched. -/
  pollWG : Nat := 1
  /-- Poll goroutines that were started and do not run yet. -/
  polls : Nat := 0
  /-- The rest of the handshake's dispatch, until it goes on. -/
  dispatch : Bool := true
  /-- `probeUpgrades` was started and does not run yet. -/
  probes : Bool := false
  made : Nat := 1
  /-- Whether `Close` has been called. -/
  closeCalled : Bool := false
  /-- How often the close handler has run. -/
  closeRuns : Nat := 0

/-- The frames of `probeUpgrades`, of `probe` and of its pong callback, for the transport `t` that is
    probed and the transport `old` it replaces. -/
inductive ProbeFrame
  | next
  | awaitPong (t : Nat)
  | pong (t : Nat)
  | detachOpen (t : Nat) (old : Option Transport)
  | detachClose (t : Nat) (old : Option Transport)
  | detachError (t : Nat) (old : Option Transport)
  | drain (t : Nat) (old : Option Transport)
  | sendUpgrade (t : Nat) (old : Option Transport)
  | abandonUpgrade (t : Nat) (old : Option Transport)
  | restoreError (t : Nat) (old : Option Transport)
  | restoreClose (t : Nat) (old : Option Transport)
  | beginPause (t : Nat) (old : Option Transport)
  | pauseLock (t : Nat) (old : Nat)
  | pauseMark (t : Nat) (old : Nat)
  | pauseUnlock (t : Nat)
  | pauseWait (t : Nat)
  | adoptTransport (t : Nat)
  | bindPacket (t : Nat)
  | bindError (t : Nat)
  | bindClose (t : Nat)
deriving DecidableEq, Repr

inductive Frame
  /- `Socket.Close` -/
  | beginClose
  | beginCloseTransport
  /- `Socket.onError` and `Socket.onClose` -/
  | beginRetry
  | beginTeardown
  | detachOpen (t : Nat)
  | detachClose (t : Nat)
  | detachPacket (t : Nat)
  | detachError (t : Nat)
  | closeHandler
  /- `Socket.onPacket`, `Socket.Send` and `Socket.flush` -/
  | handlePacket (p : Packet)
  | send (ps : List Packet)
  | beginFlush
  | sendChunks (handed : List Entry) (chunks : List (List Entry))
  | endFlush (handed : List Entry) (failed : Bool)
  /- `Close` of a transport, and what it calls -/
  | close (t : Nat)
  | closeSend (t : Nat)
  | closeBegin (t : Nat)
  | closeLock (t : Nat)
  | closeUnlock
  | onClose (t : Nat)
  | onError (t : Nat)
  | onPacket (t : Nat) (p : Packet)
  /- `PollingTransport.poll` and `onData` -/
  | pollLock
  | pollCheck
  | pollRequest
  | onData (ps : List Packet)
  | pollDone
  /- the end of the socket's `onOpen` -/
  | goProbe
  /- `WebSocketTransport.readLoop` -/
  | read (t : Nat)
  /- the probe's handlers for an error or a close of `t` -/
  | discardOpen (t : Nat)
  | discardClose (t : Nat)
  | discardError (t : Nat)
  | discardPacket (t : Nat)
  | probe (pc : ProbeFrame)
deriving DecidableEq, Repr

/-- What a poll returns. -/
inductive PollResult
  /-- The request failed, its status was not 200, or its body could not be read. -/
  | failed
  | empty
  /-- A body, decoded or not. -/
  | body (packets : Option (List Packet))
deriving DecidableEq, Repr

inductive Choice
  | go
  /-- A call of `Close`, by the user's code or by a handler of it. -/
  | close
  | send (ps : List Packet)
  /-- `onOpen` goes on, and then the dispatch of the packets after the open packet. -/
  | handshake (ps : List Packet)
  | poll
  | probeUpgrades
  /-- The next candidate's transport has been constructed and dialled. -/
  | dialled
  /-- The pong that answers the probe. -/
  | pong
  /-- The websocket connection failed. -/
  | failed
  | sent (ok : Bool)
  | polled (r : PollResult)
  /-- A frame of the websocket, decoded or not. -/
  | frame (p : Option Packet)
deriving DecidableEq, Repr

def World.modify (w : World) (t : Nat) (f : TransportObject → TransportObject) : World :=
  { w with object := Function.update w.object t (f (w.object t)) }

/-- Setting a handler of a transport that may be nil. -/
def World.modify? (w : World) (t : Option Transport) (f : TransportObject → TransportObject) : World :=
  match t with
  | none => w
  | some t => w.modify t.id f

/-- A poll has its answer: its dispatch is recorded on `pollWG` before `pollMu` is released. -/
def World.beginDispatch (w : World) : World := { w with pollWG := w.pollWG + 1, pollMu := false }

/-- What `Close` of the transport `t` does after the close packet. -/
def World.closeRest (w : World) (t : Nat) : Frame :=
  if (w.object t).type = .polling then .closeBegin t else .onClose t

/-- A transport reports an error or its close to the handler `h`. -/
def TransportObject.report (h : Handler) (o : TransportObject) : TransportObject :=
  if h = .socket then { o with heard := true } else { o with missed := true }

/-- The frames of a handler for an error or a close, `socket` being the socket's. -/
def Handler.frames (socket : Frame) (t : Nat) : Handler → List Frame
  | .unset => []
  | .socket => [socket]
  | .probe => [.discardOpen t]

/-- A call taken up by an idle goroutine. -/
def start (w : World) : Choice → Option (World × List Frame)
  | .close => some ({ w with closeCalled := true }, [.beginClose])
  | .send ps => some (w, [.send ps])
  | .handshake ps =>
    if w.dispatch ∧ ps.all (·.type ≠ .open) then
      some ({ w with dispatch := false }, [.beginFlush, .goProbe, .onData ps, .pollDone])
    else none
  | .poll => if w.polls = 0 then none else some ({ w with polls := w.polls - 1 }, [.pollLock])
  | .probeUpgrades =>
    if w.probes then some ({ w with probes := false }, [.probe .next]) else none
  | _ => none

/-- `probeUpgrades`, `probe` and its pong callback. -/
def execProbe (w : World) : ProbeFrame → Choice → Option (World × List Frame)
  | .next, .go => some (w, [])
  | .next, .dialled =>
    some ({ w with made := w.made + 1 }.modify w.made fun _ =>
      { state := .open, onClose := .probe, onPacket := .probe, onError := .probe },
      [.probe (.awaitPong w.made)])
  | .awaitPong t, .failed =>
    -- the read loop reports the error, and the probe's handler discards the transport
    some (w, [.onError t, .onClose t, .probe .next])
  | .awaitPong t, .frame none => some (w, [.onError t, .probe .next])
  | .awaitPong t, .frame (some p) =>
    if p.type = .close then some (w, [.onClose t, .probe .next])
    else some (w, [.probe (.awaitPong t)])
  | .awaitPong t, .pong => some (w, [.probe (.pong t)])
  | .pong t, .go =>
    match w.sock.beginUpgrade with
    | none => some (w, [.discardOpen t, .probe .next])
    | some (s, old) => some ({ w with sock := s }, [.probe (.detachOpen t old)])
  | .detachOpen t old, .go =>
    some (w.modify? old fun o => { o with onOpen := .unset }, [.probe (.detachClose t old)])
  | .detachClose t old, .go =>
    some (w.modify? old fun o => { o with onClose := .unset }, [.probe (.detachError t old)])
  | .detachError t old, .go =>
    some (w.modify? old fun o => { o with onError := .unset }, [.probe (.drain t old)])
  | .drain t old, .go =>
    if w.sock.flushWG = 0 then some (w, [.probe (.sendUpgrade t old)]) else none
  | .sendUpgrade t old, .sent true => some (w, [.probe (.beginPause t old)])
  | .sendUpgrade t old, .sent false => some (w, [.probe (.abandonUpgrade t old)])
  | .abandonUpgrade t old, .go =>
    some ({ w with sock := w.sock.abandonUpgrade }, [.probe (.restoreError t old)])
  | .restoreError t old, .go =>
    some (w.modify? old fun o => { o with onError := .socket }, [.probe (.restoreClose t old)])
  | .restoreClose t old, .go =>
    some (w.modify? old fun o => { o with onClose := .socket },
      [.beginFlush, .discardOpen t, .probe .next])
  | .beginPause t none, .go => some (w, [.probe (.adoptTransport t)])
  | .beginPause t (some old), .go =>
    -- only a polling transport that is opening or open has something to drain
    if (w.object old.id).type = .polling ∧
        ((w.object old.id).state = .opening ∨ (w.object old.id).state = .open) then
      some (w.modify old.id fun o => { o with state := .pausing }, [.probe (.pauseLock t old.id)])
    else some (w, [.probe (.adoptTransport t)])
  | .pauseLock t old, .go =>
    if w.pollMu then none else some ({ w with pollMu := true }, [.probe (.pauseMark t old)])
  | .pauseMark t old, .go =>
    -- the state is not tested again
    some (w.modify old fun o => { o with state := .paused }, [.probe (.pauseUnlock t)])
  | .pauseUnlock t, .go => some ({ w with pollMu := false }, [.probe (.pauseWait t)])
  | .pauseWait t, .go => if w.pollWG = 0 then some (w, [.probe (.adoptTransport t)]) else none
  | .adoptTransport t, .go =>
    match w.sock.adoptTransport ⟨t, .websocket⟩ with
    | none => some (w, [.discardOpen t, .probe .next])
    | some s => some ({ w with sock := s }, [.probe (.bindPacket t)])
  | .bindPacket t, .go =>
    some (w.modify t fun o => { o with onPacket := .socket }, [.probe (.bindError t)])
  | .bindError t, .go =>
    some (w.modify t fun o => { o with onError := .socket }, [.probe (.bindClose t)])
  | .bindClose t, .go =>
    -- after the flush the read loop goes on
    some (w.modify t fun o => { o with onClose := .socket }, [.beginFlush, .read t])
  | _, _ => none

/-- `Send` and `flush` of the socket. -/
def execFlush (w : World) : Frame → Choice → Option (World × List Frame)
  | .send ps, .go =>
    match w.sock.send (ps.map fun p => ⟨p, 0, 0⟩) with
    | none => some (w, [])
    | some s => some ({ w with sock := s }, [.beginFlush])
  | .beginFlush, .go =>
    match w.sock.beginFlush with
    | none => some (w, [])
    | some (s, _, es, maxPayload) =>
      some ({ w with sock := s }, [.sendChunks [] (Socket.chunkPackets es maxPayload)])
  | .sendChunks handed (chunk :: chunks), .sent true =>
    some (w, [.sendChunks (handed ++ chunk) chunks])
  | .sendChunks handed (_ :: _), .sent false => some (w, [.endFlush handed true])
  | .sendChunks handed [], .go => some (w, [.endFlush handed false])
  | .endFlush handed failed, .go =>
    match w.sock.endFlush handed.length failed with
    | none => none
    | some (s, true) => some ({ w with sock := s }, [.beginFlush])
    | some (s, false) => some ({ w with sock := s }, [])
  | _, _ => none

/-- `Close`, `onError`, `onClose` and `onPacket` of the socket, whose handlers for a packet may send
    or close, and the end of `onOpen`. -/
def execSocket (w : World) : Frame → Choice → Option (World × List Frame)
  | .beginClose, .go =>
    match w.sock.beginClose with
    | (false, _) => some (w, [])
    | (true, true) => some (w, [.beginFlush, .beginCloseTransport])
    | (true, false) => some (w, [.beginCloseTransport])
  | .beginCloseTransport, .go =>
    match w.sock.beginCloseTransport with
    | none => some (w, [])
    | some (s, none) => some ({ w with sock := s }, [])
    | some (s, some t) => some ({ w with sock := s }, [.close t.id])
  | .beginRetry, .go =>
    match w.sock.beginRetry with
    | (_, true) => none  -- only while the socket is opening
    | (s, false) => some ({ w with sock := s }, [.beginTeardown])
  | .beginTeardown, .go =>
    match w.sock.beginTeardown with
    | none => some (w, [])
    | some (s, none) => some ({ w with sock := s }, [.closeHandler])
    | some (s, some t) => some ({ w with sock := s }, [.detachOpen t.id])
  | .detachOpen t, .go =>
    some (w.modify t fun o => { o with onOpen := .unset }, [.detachClose t])
  | .detachClose t, .go =>
    some (w.modify t fun o => { o with onClose := .unset }, [.detachPacket t])
  | .detachPacket t, .go =>
    some (w.modify t fun o => { o with onPacket := .unset }, [.detachError t])
  | .detachError t, .go =>
    some (w.modify t fun o => { o with onError := .unset }, [.close t, .closeHandler])
  | .closeHandler, .go => some ({ w with closeRuns := w.closeRuns + 1 }, [])
  | .handlePacket p, .go =>
    if w.sock.state.live ∧ p.type = .ping then some (w, [.send [{ type := .pong }]])
    else some (w, [])
  | .handlePacket _, .send ps => if w.sock.state.live then some (w, [.send ps]) else none
  | .handlePacket _, .close =>
    if w.sock.state.live then some ({ w with closeCalled := true }, [.beginClose]) else none
  | .goProbe, .go => some (w, [])
  | .goProbe, .probeUpgrades => some ({ w with probes := true }, [])
  | _, _ => none

/-- The methods of the transports. -/
def execTransport (w : World) : Frame → Choice → Option (World × List Frame)
  | .close t, .go =>
    if (w.object t).state = .opening ∨ (w.object t).state = .open then some (w, [.closeSend t])
    else some (w, [])
  | .closeSend t, .sent ok =>
    -- a transport that is not open drops the packet and reports success
    if ok then some (w, [w.closeRest t])
    else if (w.object t).state = .open then some (w, [.onError t, w.closeRest t])
    else none
  | .closeBegin t, .go =>
    if (w.object t).state = .closed then some (w, [])
    else some (w.modify t fun o => { o with state := .closing }, [.closeLock t])
  | .closeLock t, .go =>
    if w.pollMu then none else some ({ w with pollMu := true }, [.onClose t, .closeUnlock])
  | .closeUnlock, .go => some ({ w with pollMu := false }, [])
  | .onClose t, .go =>
    if (w.object t).state = .closed then some (w, [])
    else
      some (w.modify t fun o => { o.report o.onClose with state := .closed },
        (w.object t).onClose.frames .beginTeardown t)
  | .onClose t, .failed =>
    -- closing the websocket connection failed
    if (w.object t).state = .closed ∨ (w.object t).type = .polling then none
    else
      some (w.modify t fun o => { o.report o.onClose with state := .closed },
        .onError t :: (w.object t).onClose.frames .beginTeardown t)
  | .onError t, .go =>
    some (w.modify t fun o => o.report o.onError, (w.object t).onError.frames .beginRetry t)
  | .onPacket t p, .go =>
    -- a probe has had its pong when it gets here
    if (w.object t).onPacket = .socket then some (w, [.handlePacket p]) else some (w, [])
  | .discardOpen t, .go =>
    some (w.modify t fun o => { o with onOpen := .unset }, [.discardClose t])
  | .discardClose t, .go =>
    some (w.modify t fun o => { o with onClose := .unset }, [.discardError t])
  | .discardError t, .go =>
    some (w.modify t fun o => { o with onError := .unset }, [.discardPacket t])
  | .discardPacket t, .go =>
    some (w.modify t fun o => { o with onPacket := .unset }, [.close t])
  | _, _ => none

/-- The poll goroutine of the polling transport and the read loop of a websocket. -/
def execLoop (w : World) : Frame → Choice → Option (World × List Frame)
  | .pollLock, .go => if w.pollMu then none else some ({ w with pollMu := true }, [.pollCheck])
  | .pollCheck, .go =>
    if (w.object 0).state = .opening ∨ (w.object 0).state = .open then some (w, [.pollRequest])
    else some ({ w with pollMu := false }, [])
  | .pollRequest, .polled r =>
    match r with
    | .failed => some (w.beginDispatch, [.onError 0, .pollDone])
    | .empty => some (w.beginDispatch, [.pollDone])
    | .body none => some (w.beginDispatch, [.onError 0, .pollDone])
    | .body (some ps) =>
      if ps.all (·.type ≠ .open) then some (w.beginDispatch, [.onData ps, .pollDone]) else none
  | .onData [], .go =>
    if (w.object 0).state = .open then some ({ w with polls := w.polls + 1 }, [])
    else some (w, [])
  | .onData (p :: ps), .go =>
    if p.type = .close ∧ (w.object 0).state ≠ .closed then
      some (w, [.onClose 0, .onPacket 0 p, .onData ps])
    else some (w, [.onPacket 0 p, .onData ps])
  | .pollDone, .go => some ({ w with pollWG := w.pollWG - 1 }, [])
  | .read t, .go =>
    if (w.object t).state = .closing ∨ (w.object t).state = .closed then some (w, []) else none
  | .read t, .frame none => some (w, [.onError t, .read t])
  | .read t, .frame (some p) =>
    if p.type = .open then none
    else if p.type = .close then some (w, [.onPacket t p, .onClose t])
    else some (w, [.onPacket t p, .read t])
  | .read t, .failed =>
    -- a deliberate close is not an error
    if (w.object t).state = .closing ∨ (w.object t).state = .closed then some (w, [.onClose t])
    else some (w, [.onError t, .onClose t])
  | _, _ => none

/-- Run the next section of a frame. -/
def exec (w : World) (f : Frame) (a : Choice) : Option (World × List Frame) :=
  match f with
  | .probe pc => execProbe w pc a
  | .send _ | .beginFlush | .sendChunks _ _ | .endFlush _ _ => execFlush w f a
  | .beginClose | .beginCloseTransport | .beginRetry | .beginTeardown | .detachOpen _
  | .detachClose _ | .detachPacket _ | .detachError _ | .closeHandler | .handlePacket _
  | .goProbe => execSocket w f a
  | .close _ | .closeSend _ | .closeBegin _ | .closeLock _ | .closeUnlock | .onClose _
  | .onError _ | .onPacket _ _ | .discardOpen _ | .discardClose _ | .discardError _
  | .discardPacket _ => execTransport w f a
  | .pollLock | .pollCheck | .pollRequest | .onData _ | .pollDone | .read _ => execLoop w f a

/-- Which part of the code runs the next section of a frame. -/
inductive Runs (w : World) (a : Choice) (w' : World) (fs : List Frame) : Frame → Prop
  | probe {pc : ProbeFrame} (h : execProbe w pc a = some (w', fs)) : Runs w a w' fs (.probe pc)
  | flush {f : Frame} (h : execFlush w f a = some (w', fs)) : Runs w a w' fs f
  | socket {f : Frame} (h : execSocket w f a = some (w', fs)) : Runs w a w' fs f
  | transport {f : Frame} (h : execTransport w f a = some (w', fs)) : Runs w a w' fs f
  | loop {f : Frame} (h : execLoop w f a = some (w', fs)) : Runs w a w' fs f

theorem runs_of_exec {w w' : World} {f : Frame} {a : Choice} {fs : List Frame}
    (h : exec w f a = some (w', fs)) : Runs w a w' fs f := by
  cases f
  case probe => exact .probe h
  case send | beginFlush | sendChunks | endFlush => exact .flush h
  case beginClose | beginCloseTransport | beginRetry | beginTeardown | detachOpen | detachClose
    | detachPacket | detachError | closeHandler | handlePacket | goProbe => exact .socket h
  case pollLock | pollCheck | pollRequest | onData | pollDone | read => exact .loop h
  all_goals exact .transport h

/-- The polling transport of an established connection. -/
def established : TransportObject where
  type := .polling
  state := .open
  onClose := .socket
  onPacket := .socket
  onError := .socket

/-- An open socket on its polling transport, with any options and any packets buffered. -/
def World.Established (w : World) : Prop :=
  w.sock.state = .open ∧ w.sock.transport = some ⟨0, .polling⟩ ∧ w.sock.upgrading = false ∧
    w.sock.flushing = false ∧ w.sock.flushWG = 0 ∧
    w = { sock := w.sock, object := Function.update (fun _ => {}) 0 established }

/-- Any number of goroutines on the socket and its transports. -/
def frames : Concurrency.Frames World Frame Choice where
  init := World.Established
  start := start
  exec := exec

/-- Frames that only wait: for a poll to be sent or answered, for a frame of the websocket, for the
    outcome of a probe. -/
def Frame.waits : Frame → Bool
  | .pollLock | .pollCheck | .pollRequest | .read _ | .probe .next | .probe (.awaitPong _) => true
  | _ => false

/-- A goroutine that runs no call, callback, dispatch or flush. -/
def Quiet (l : List Frame) : Prop := ∀ f ∈ l, f.waits = true

/-! ## The beginning of an upgrade -/

/-- An established connection with nothing buffered. -/
def connected : Concurrency.Pool World (List Frame) where
  shared :=
    { sock := { state := .open, transport := some ⟨0, .polling⟩ }
      object := Function.update (fun _ => {}) 0 established }
  thread := fun _ => []

theorem connected_reach {C : World → List Frame → Choice → Prop} :
    frames.program.Reach C connected :=
  .init (P := frames.program) (s := connected.shared) ⟨rfl, rfl, rfl, rfl, rfl, rfl⟩

/-- The handshake's dispatch ends and starts `probeUpgrades`, whose probe gets its pong; it claims the
    upgrade and goes on to the first of the old transport's handlers. -/
def upgradeBegun : List (Nat × Choice) :=
  [(0, .handshake []), (0, .go), (0, .probeUpgrades), (0, .go), (0, .go), (1, .probeUpgrades),
    (1, .dialled), (1, .pong), (1, .go)]

end EngineIo.Client.Switchover
