import EngineIo.Codec.Packet
import EngineIo.Transport

set_option autoImplicit false

/-! # The client `Socket` and its lock sections (`socket.go`)

`Socket` holds the fields that `s.mu` guards. Every definition below is one section of the source
between `s.mu.Lock()` and `s.mu.Unlock()`, as a function of the fields it reads and writes; what the
surrounding method does with the result is in `Client/Goroutine.lean`.

The user's handlers and the contexts are left out: reading a handler changes nothing, and what a
cancelled context does to a transport is up to the transport. Two kinds of ghost data, which no
section reads, ride along: a buffered packet carries the connection `Send` accepted it for and its
rank among all accepted packets, and a timer carries the connection whose packet armed it. -/

namespace EngineIo.Client

inductive SocketState
  | closed
  | opening
  | open
  | closing
deriving DecidableEq, Repr

/-- A packet in the write buffer, with its ghost stamps. -/
structure Entry where
  packet : Packet
  conn : Nat
  seq : Nat
deriving DecidableEq, Repr

/-- A heartbeat timer: `fired` once its function has been started, after which `Stop` is too late. -/
structure Timer where
  conn : Nat
  fired : Bool
deriving DecidableEq, Repr

/-- The JSON payload of an open packet. -/
structure OpenPacket where
  sessionID : String
  upgrades : List TransportType
  pingInterval : Int
  pingTimeout : Int
  maxPayload : Int
deriving DecidableEq, Repr

structure Socket where
  upgrade : Bool := true
  rememberUpgrade : Bool := false
  tryAllTransports : Bool := false
  transports : List TransportType := [.polling, .websocket]
  sessionID : String := ""
  pingInterval : Int := 0
  pingTimeout : Int := 0
  maxPayload : Int := 0
  state : SocketState := .closed
  transport : Option Transport := none
  priorUpgrade : Option TransportType := none
  pingTimeoutTimer : Option Timer := none
  writeBuffer : List Entry := []
  upgrading : Bool := false
  flushing : Bool := false
  flushWG : Nat := 0
deriving DecidableEq, Repr

/-- Open or opening: the states in which `Send` and `Close` act. -/
def SocketState.active : SocketState → Bool
  | .open | .opening => true
  | .closing | .closed => false

/-- Open, opening or closing: the states in which packets are handled and teardown acts. -/
def SocketState.live : SocketState → Bool
  | .open | .opening | .closing => true
  | .closed => false

namespace Socket

/-! ## Opening -/

/-- `beginOpen`: claim the opening transition and reset what a prior connection left. -/
def beginOpen (s : Socket) : Option Socket :=
  if s.state ≠ .closed then none
  else some { s with state := .opening, upgrading := false, writeBuffer := [] }

/-- `selectTransport`: the first transport in the list, or a remembered upgrade. -/
def selectTransport (s : Socket) : Option TransportType :=
  match s.transports with
  | [] => none
  | first :: _ =>
    match s.priorUpgrade with
    | some t => some (if s.rememberUpgrade && s.transports.contains t then t else first)
    | none => some first

/-- `Open`, when no transport could be created. -/
def failOpen (s : Socket) : Socket := { s with state := .closed }

/-- `Open`, installing the created transport. -/
def installTransport (t : Transport) (s : Socket) : Socket := { s with transport := some t }

/-- A number of milliseconds as a `time.Duration`, in 64-bit two's complement nanoseconds. -/
def duration (milliseconds : Int) : Int := (milliseconds * 1000000).bmod (2 ^ 64)

/-- `recordOpen`: it marks the socket open whatever its state was. -/
def recordOpen (p : OpenPacket) (s : Socket) : Socket :=
  { s with
    sessionID := p.sessionID
    maxPayload := p.maxPayload
    pingTimeout := duration p.pingTimeout
    pingInterval := duration p.pingInterval
    state := .open
    priorUpgrade :=
      match s.transport with
      | some t => if t.type ≠ .polling then some t.type else none
      | none => none }

/-- `reschedulePingTimeout`, on behalf of a packet of connection `conn`. -/
def reschedulePingTimeout (conn : Nat) (s : Socket) : Socket :=
  if (s.pingInterval + s.pingTimeout).bmod (2 ^ 64) ≤ 0 then { s with pingTimeoutTimer := none }
  else { s with pingTimeoutTimer := some { conn, fired := false } }

/-! ## Sending -/

/-- `Send`: append to the write buffer, or drop the packets of a closing or closed socket. -/
def send (ps : List Entry) (s : Socket) : Option Socket :=
  if s.state.active then some { s with writeBuffer := s.writeBuffer ++ ps } else none

/-- `flush`, first section: claim the flush and snapshot what it writes. -/
def beginFlush (s : Socket) : Option (Socket × Transport × List Entry × Int) :=
  match s.transport with
  | none => none
  | some t =>
    if s.state ≠ .open || s.upgrading || s.writeBuffer.isEmpty || s.flushing then none
    else some ({ s with flushing := true, flushWG := s.flushWG + 1 }, t, s.writeBuffer, s.maxPayload)

/-- `flush`, last section: drop the packets written. `none` is the panic of `writeBuffer[sent:]`
    with `sent` beyond the length; otherwise the flag tells whether the loop goes round. -/
def endFlush (sent : Nat) (failed : Bool) (s : Socket) : Option (Socket × Bool) :=
  if s.state = .open && s.writeBuffer.length < sent then none
  else
    let buffer := if s.state = .open then s.writeBuffer.drop sent else s.writeBuffer
    let more := !failed && s.state = .open && !s.upgrading && s.transport.isSome && !buffer.isEmpty
    some ({ s with writeBuffer := buffer, flushing := false, flushWG := s.flushWG - 1 }, more)

/-- The length of a packet's wire form, which is all `chunkPackets` looks at. -/
def Entry.size (e : Entry) : Int := (encodePacket e.packet).length

/-- The loop of `chunkPackets`; `current` and `size` are its variables, and the chunks finished so
    far come first in the result. -/
def chunkLoop (maxPayload : Int) : List Entry → List Entry → Int → List (List Entry)
  | [], current, _ => [current]
  | e :: rest, current, size =>
    if current.isEmpty then chunkLoop maxPayload rest [e] (size + Entry.size e)
    else if size + (Entry.size e + 1) > maxPayload then
      current :: chunkLoop maxPayload rest [e] (Entry.size e)
    else chunkLoop maxPayload rest (current ++ [e]) (size + (Entry.size e + 1))

/-- `chunkPackets`. -/
def chunkPackets (ps : List Entry) (maxPayload : Int) : List (List Entry) :=
  if maxPayload ≤ 0 || ps.length ≤ 1 then [ps] else chunkLoop maxPayload ps [] 0

/-! ## Closing -/

/-- `beginClose`: whether the socket can be closed, and whether its buffer is drained first. -/
def beginClose (s : Socket) : Bool × Bool :=
  if s.state.active then (true, s.state = .open && !s.upgrading && !s.writeBuffer.isEmpty)
  else (false, false)

/-- `beginCloseTransport`: claim the closing transition; the result includes the transport to
    close. -/
def beginCloseTransport (s : Socket) : Option (Socket × Option Transport) :=
  if s.state.active then some ({ s with state := .closing }, s.transport) else none

/-- `beginTeardown`: claim the closed transition and reset the session. -/
def beginTeardown (s : Socket) : Option (Socket × Option Transport) :=
  if s.state.live then
    some ({ s with
      state := .closed
      pingTimeoutTimer := none
      transport := none
      sessionID := ""
      writeBuffer := []
      upgrading := false }, s.transport)
  else none

/-- Whether `beginRetry` falls back to the next transport. -/
def retries (s : Socket) : Bool :=
  s.tryAllTransports && 1 < s.transports.length && s.state = .opening

/-- `beginRetry`: forget a remembered upgrade and, when retrying, drop the failed transport. -/
def beginRetry (s : Socket) : Socket × Bool :=
  if s.retries then
    ({ s with
      priorUpgrade := none
      transports := s.transports.tail
      state := .closed
      transport := none
      writeBuffer := [] }, true)
  else ({ s with priorUpgrade := none }, false)

/-! ## Upgrading -/

/-- `beginProbe`. -/
def beginProbe (s : Socket) : Socket := { s with priorUpgrade := none }

/-- The pong callback of `probe`, first section: suppress flushes and snapshot the old transport. -/
def beginUpgrade (s : Socket) : Option (Socket × Option Transport) :=
  if s.state ≠ .open then none else some ({ s with upgrading := true }, s.transport)

/-- The pong callback, when the upgrade packet could not be sent. -/
def abandonUpgrade (s : Socket) : Socket := { s with upgrading := false }

/-- The pong callback, last section: switch to the new transport. -/
def adoptTransport (t : Transport) (s : Socket) : Option Socket :=
  if s.state ≠ .open then none
  else some { s with priorUpgrade := some t.type, transport := some t, upgrading := false }

/-! ## What the sections do

One lemma for each section that can refuse: when it acts, and what it leaves behind. -/

variable {s s' : Socket} {t : Transport}

theorem beginOpen_eq_some :
    s.beginOpen = some s' ↔ s.state = .closed ∧
      s' = { s with state := .opening, upgrading := false, writeBuffer := [] } := by
  unfold beginOpen
  by_cases h : s.state = .closed
  · simp [h, eq_comm]
  · simp [h]

theorem send_eq_some {ps : List Entry} :
    s.send ps = some s' ↔ s.state.active = true ∧
      s' = { s with writeBuffer := s.writeBuffer ++ ps } := by
  unfold send
  by_cases h : s.state.active = true
  · simp [h, eq_comm]
  · simp [h]

theorem send_eq_none {ps : List Entry} : s.send ps = none ↔ s.state.active = false := by
  unfold send
  simp

theorem beginFlush_eq_some {es : List Entry} {m : Int} :
    s.beginFlush = some (s', t, es, m) ↔
      (s.transport = some t ∧ s.state = .open ∧ s.upgrading = false ∧ s.writeBuffer ≠ [] ∧
        s.flushing = false) ∧
      s' = { s with flushing := true, flushWG := s.flushWG + 1 } ∧ es = s.writeBuffer ∧
      m = s.maxPayload := by
  unfold beginFlush
  cases ht : s.transport with
  | none => simp
  | some t' =>
    simp only [Option.ite_none_left_eq_some, Prod.mk.injEq, Option.some.injEq]
    constructor
    · rintro ⟨hg, rfl, rfl, rfl, rfl⟩
      simp_all
    · rintro ⟨⟨rfl, hs, hu, hb, hf⟩, rfl, rfl, rfl⟩
      simp_all

theorem endFlush_eq_none {sent : Nat} {failed : Bool} :
    s.endFlush sent failed = none ↔ s.state = .open ∧ s.writeBuffer.length < sent := by
  unfold endFlush
  simp

theorem endFlush_eq_some {sent : Nat} {failed more : Bool}
    (h : s.endFlush sent failed = some (s', more)) :
    (s.state = .open → sent ≤ s.writeBuffer.length) ∧
      s' = { s with
        writeBuffer := if s.state = .open then s.writeBuffer.drop sent else s.writeBuffer
        flushing := false
        flushWG := s.flushWG - 1 } := by
  unfold endFlush at h
  simp only [Bool.and_eq_true, decide_eq_true_eq, Option.ite_none_left_eq_some, Option.some.injEq,
    Prod.mk.injEq, not_and, not_lt] at h
  exact ⟨h.1, h.2.1.symm⟩

theorem beginCloseTransport_eq_some {old : Option Transport} :
    s.beginCloseTransport = some (s', old) ↔ s.state.active = true ∧
      s' = { s with state := .closing } ∧ old = s.transport := by
  unfold beginCloseTransport
  by_cases h : s.state.active = true
  · simp [h, eq_comm]
  · simp [h]

theorem beginCloseTransport_eq_none : s.beginCloseTransport = none ↔ s.state.active = false := by
  unfold beginCloseTransport
  simp

theorem beginTeardown_eq_some {old : Option Transport} :
    s.beginTeardown = some (s', old) ↔ s.state.live = true ∧
      s' = { s with
        state := .closed
        pingTimeoutTimer := none
        transport := none
        sessionID := ""
        writeBuffer := []
        upgrading := false } ∧ old = s.transport := by
  unfold beginTeardown
  by_cases h : s.state.live = true
  · simp [h, eq_comm]
  · simp [h]

theorem beginTeardown_eq_none : s.beginTeardown = none ↔ s.state.live = false := by
  unfold beginTeardown
  simp

theorem beginRetry_eq_true (h : s.beginRetry = (s', true)) :
    s.retries = true ∧
      s' = { s with
        priorUpgrade := none
        transports := s.transports.tail
        state := .closed
        transport := none
        writeBuffer := [] } := by
  unfold beginRetry at h
  by_cases hr : s.retries = true
  · simp only [hr, if_true, Prod.mk.injEq, and_true] at h
    exact ⟨hr, h.symm⟩
  · simp [hr] at h

theorem beginRetry_eq_false (h : s.beginRetry = (s', false)) :
    s.retries = false ∧ s' = { s with priorUpgrade := none } := by
  unfold beginRetry at h
  by_cases hr : s.retries = true
  · simp [hr] at h
  · simp only [hr, Bool.false_eq_true, if_false, Prod.mk.injEq, and_true] at h
    exact ⟨by simpa using hr, h.symm⟩

theorem beginUpgrade_eq_some {old : Option Transport} :
    s.beginUpgrade = some (s', old) ↔ s.state = .open ∧ s' = { s with upgrading := true } ∧
      old = s.transport := by
  unfold beginUpgrade
  by_cases h : s.state = .open
  · simp [h, eq_comm]
  · simp [h]

theorem beginUpgrade_eq_none : s.beginUpgrade = none ↔ s.state ≠ .open := by
  unfold beginUpgrade
  simp

theorem adoptTransport_eq_some :
    s.adoptTransport t = some s' ↔ s.state = .open ∧
      s' = { s with priorUpgrade := some t.type, transport := some t, upgrading := false } := by
  unfold adoptTransport
  by_cases h : s.state = .open
  · simp [h, eq_comm]
  · simp [h]

theorem adoptTransport_eq_none : s.adoptTransport t = none ↔ s.state ≠ .open := by
  unfold adoptTransport
  simp

/-- Rescheduling the heartbeat touches nothing but the timer. -/
theorem reschedulePingTimeout_eq (conn : Nat) (s : Socket) :
    ∃ timer, s.reschedulePingTimeout conn = { s with pingTimeoutTimer := timer } := by
  unfold reschedulePingTimeout
  split
  · exact ⟨_, rfl⟩
  · exact ⟨_, rfl⟩

/-! ## Chunking loses nothing -/

theorem chunkLoop_flatten (m : Int) (es : List Entry) :
    ∀ (current : List Entry) (size : Int),
      (chunkLoop m es current size).flatten = current ++ es := by
  induction es with
  | nil => intro current size; simp [chunkLoop]
  | cons e rest ih =>
    intro current size
    rw [chunkLoop]
    by_cases hc : current.isEmpty = true
    · obtain rfl : current = [] := by simpa using hc
      simp [ih]
    · rw [if_neg hc]
      split
      · simp [ih]
      · simp [ih]

theorem chunkPackets_flatten (es : List Entry) (m : Int) : (chunkPackets es m).flatten = es := by
  unfold chunkPackets
  split
  · simp
  · simp [chunkLoop_flatten]

end Socket

end EngineIo.Client
