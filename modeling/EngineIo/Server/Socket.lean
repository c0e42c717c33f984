import EngineIo.Codec.Packet
import EngineIo.Transport

set_option autoImplicit false

/-! # The `ServerSocket` and its lock sections (`server_socket.go`)

`ServerSocket` holds the fields that `s.mu` guards, and every definition below is one section of the
source between `s.mu.Lock()` and `s.mu.Unlock()`. `PollingTransport` does the same for
`serverPollingTransport` and its own mutex. What the surrounding methods do with the results is in
`Server/Goroutine.lean`.

The application's handlers, the session id and the options are left out: no section changes them or
decides anything by them. A timer is present from `time.AfterFunc` on until its field is cleared, and
remembers whether its function has started, since `Stop` is too late then. -/

namespace EngineIo.Server

inductive SessionState
  | opening
  | open
  | closing
  | closed
deriving DecidableEq, Repr

structure Timer where
  fired : Bool := false
deriving DecidableEq, Repr

/-- The upgrade timer aborts the probe of the transport it was armed for. -/
structure UpgradeTimer where
  transport : Transport
  fired : Bool := false
deriving DecidableEq, Repr

structure ServerSocket where
  state : SessionState := .opening
  transport : Option Transport
  upgradeTransport : Option Transport := none
  upgrading : Bool := false
  writeBuffer : List Packet := []
  pingTimer : Option Timer := none
  pongTimer : Option Timer := none
  upgradeTimer : Option UpgradeTimer := none
  closeTimer : Option Timer := none
  /-- The stop channel of the probe's noop ticker. -/
  probeNoopStop : Option Nat := none
deriving DecidableEq, Repr

namespace ServerSocket

/-! ## Lifecycle -/

/-- `open`: mark the session open and arm the heartbeat. -/
def «open» (s : ServerSocket) : ServerSocket :=
  if s.state ≠ .opening then s else { s with state := .open, pingTimer := some {} }

/-- `stopTimersLocked`. -/
def stopTimersLocked (s : ServerSocket) : ServerSocket :=
  { s with pingTimer := none, pongTimer := none, upgradeTimer := none, closeTimer := none }

/-- The packet that ends a session. -/
def closePacket : Packet := { type := .close }

/-- `beginClose`: claim the closing transition, stop the timers and queue the close packet. -/
def beginClose (s : ServerSocket) : Option ServerSocket :=
  if s.state ≠ .opening ∧ s.state ≠ .open then none
  else
    some { s.stopTimersLocked with
      state := .closing
      writeBuffer := s.writeBuffer ++ [closePacket] }

/-- `Close`, last section: arm the fallback of a close that could not be drained at once. -/
def armCloseTimer (s : ServerSocket) : ServerSocket :=
  if s.state = .closing ∧ s.closeTimer = none then { s with closeTimer := some {} } else s

/-- `beginTeardown`: claim the closed transition; the result includes what is to be released. -/
def beginTeardown (s : ServerSocket) :
    Option (ServerSocket × Option Transport × Option Transport × Option Nat) :=
  if s.state = .closed then none
  else
    some ({ s.stopTimersLocked with
      state := .closed
      transport := none
      upgradeTransport := none
      upgrading := false
      probeNoopStop := none
      writeBuffer := [] }, s.transport, s.upgradeTransport, s.probeNoopStop)

/-! ## Sending -/

/-- `Send`. -/
def send (data : List UInt8) (isBinary : Bool) (s : ServerSocket) : Option ServerSocket :=
  if s.state = .closed ∨ s.state = .closing then none
  else
    some { s with
      writeBuffer := s.writeBuffer ++ [{ type := .message, data := data, isBinary := isBinary }] }

/-- `flush`, head of the loop: snapshot the buffer and the transport. -/
def beginFlush (s : ServerSocket) : Option (Transport × List Packet) :=
  if s.state = .closed ∨ s.writeBuffer = [] then none
  else s.transport.map fun t => (t, s.writeBuffer)

/-- `flush`, after a write: drop the packets handed off. -/
def endFlush (count : Nat) (s : ServerSocket) : ServerSocket :=
  { s with
    writeBuffer := if count ≤ s.writeBuffer.length then s.writeBuffer.drop count else [] }

/-- `onPong`: clear the deadline and schedule the next ping. -/
def onPong (s : ServerSocket) : ServerSocket :=
  if s.state ≠ .open then s else { s with pongTimer := none, pingTimer := some {} }

/-- `sendPing`: queue a ping and arm the pong deadline. -/
def sendPing (s : ServerSocket) : Option ServerSocket :=
  if s.state ≠ .open then none
  else
    some { s with writeBuffer := s.writeBuffer ++ [{ type := .ping }], pongTimer := some {} }

/-! ## Upgrading -/

/-- `startUpgrade`: begin probing `t` while the polling transport keeps running. -/
def startUpgrade (t : Transport) (s : ServerSocket) : Option ServerSocket :=
  if s.state ≠ .open ∨ s.upgrading ∨ s.transport.map (·.type) ≠ some .polling then none
  else
    some { s with
      upgrading := true
      upgradeTransport := some t
      upgradeTimer := some { transport := t } }

/-- `onProbe`, with `stop` the channel it makes. -/
def onProbe (stop : Nat) (s : ServerSocket) : Option ServerSocket :=
  if !s.upgrading ∨ s.probeNoopStop ≠ none then none else some { s with probeNoopStop := some stop }

/-- `beginCompleteUpgrade`: swap the probing transport in. -/
def beginCompleteUpgrade (t : Transport) (s : ServerSocket) :
    Option (ServerSocket × Option Transport × Option Nat) :=
  if !s.upgrading ∨ s.upgradeTransport ≠ some t then none
  else
    some ({ s with
      upgrading := false
      transport := some t
      upgradeTransport := none
      upgradeTimer := none
      probeNoopStop := none }, s.transport, s.probeNoopStop)

/-- `beginAbortUpgrade`: clear the upgrade in flight. -/
def beginAbortUpgrade (t : Transport) (s : ServerSocket) :
    Option (ServerSocket × Option Nat) :=
  if !s.upgrading ∨ s.upgradeTransport ≠ some t then none
  else
    some ({ s with
      upgrading := false
      upgradeTransport := none
      upgradeTimer := none
      probeNoopStop := none }, s.probeNoopStop)

/-! ## What the sections do -/

variable {s s' : ServerSocket} {t : Transport}

theorem open_cases (s : ServerSocket) :
    s.state = .opening ∧ s.open = { s with state := .open, pingTimer := some {} } ∨
      s.open = s := by
  by_cases h : s.state = .opening
  · exact .inl ⟨h, if_neg (not_not_intro h)⟩
  · exact .inr (if_pos h)

theorem beginClose_eq_some :
    s.beginClose = some s' ↔ (s.state = .opening ∨ s.state = .open) ∧
      s' = { s.stopTimersLocked with
        state := .closing
        writeBuffer := s.writeBuffer ++ [closePacket] } := by
  unfold beginClose
  by_cases h : s.state ≠ .opening ∧ s.state ≠ .open
  · simp [h]
  · rw [if_neg h]
    have hs : s.state = .opening ∨ s.state = .open := by tauto
    rw [Option.some.injEq]
    exact ⟨fun h' => ⟨hs, h'.symm⟩, fun h' => h'.2.symm⟩

theorem beginTeardown_eq_some {old probe : Option Transport} {stop : Option Nat} :
    s.beginTeardown = some (s', old, probe, stop) ↔ s.state ≠ .closed ∧
      s' = { s.stopTimersLocked with
        state := .closed
        transport := none
        upgradeTransport := none
        upgrading := false
        probeNoopStop := none
        writeBuffer := [] } ∧ old = s.transport ∧ probe = s.upgradeTransport ∧
      stop = s.probeNoopStop := by
  unfold beginTeardown
  by_cases h : s.state = .closed
  · simp [h]
  · simp [h, eq_comm]

theorem send_eq_some {data : List UInt8} {isBinary : Bool} :
    s.send data isBinary = some s' ↔ (s.state = .opening ∨ s.state = .open) ∧
      s' = { s with
        writeBuffer := s.writeBuffer ++ [{ type := .message, data := data, isBinary := isBinary }] }
    := by
  unfold send
  cases hs : s.state <;> simp [eq_comm]

theorem beginFlush_eq_some {packets : List Packet} :
    s.beginFlush = some (t, packets) ↔ s.state ≠ .closed ∧ s.writeBuffer ≠ [] ∧
      s.transport = some t ∧ packets = s.writeBuffer := by
  unfold beginFlush
  by_cases h : s.state = .closed ∨ s.writeBuffer = []
  · rw [if_pos h]
    rcases h with h | h <;> simp [h]
  · rw [if_neg h]
    obtain ⟨h1, h2⟩ := not_or.1 h
    simp [h1, h2, eq_comm]

theorem sendPing_eq_some :
    s.sendPing = some s' ↔ s.state = .open ∧
      s' = { s with writeBuffer := s.writeBuffer ++ [{ type := .ping }], pongTimer := some {} } := by
  unfold sendPing
  by_cases h : s.state = .open
  · simp [h, eq_comm]
  · simp [h]

theorem startUpgrade_eq_some :
    s.startUpgrade t = some s' ↔ (s.state = .open ∧ s.upgrading = false ∧
        s.transport.map (·.type) = some .polling) ∧
      s' = { s with
        upgrading := true
        upgradeTransport := some t
        upgradeTimer := some { transport := t } } := by
  unfold startUpgrade
  split
  · rename_i h
    simp only [reduceCtorEq, false_iff, not_and]
    rintro ⟨h1, h2, h3⟩
    simp [h1, h2, h3] at h
  · rename_i h
    obtain ⟨h1, h2, h3⟩ : s.state = .open ∧ s.upgrading = false ∧
        s.transport.map (·.type) = some .polling := by
      simpa [not_or] using h
    simp [h1, h2, h3, eq_comm]

theorem onProbe_eq_some {stop : Nat} :
    s.onProbe stop = some s' ↔ (s.upgrading = true ∧ s.probeNoopStop = none) ∧
      s' = { s with probeNoopStop := some stop } := by
  unfold onProbe
  cases hu : s.upgrading <;> cases hp : s.probeNoopStop <;> simp [eq_comm]

theorem beginCompleteUpgrade_eq_some {old : Option Transport} {stop : Option Nat} :
    s.beginCompleteUpgrade t = some (s', old, stop) ↔
      (s.upgrading = true ∧ s.upgradeTransport = some t) ∧
      s' = { s with
        upgrading := false
        transport := some t
        upgradeTransport := none
        upgradeTimer := none
        probeNoopStop := none } ∧ old = s.transport ∧ stop = s.probeNoopStop := by
  unfold beginCompleteUpgrade
  by_cases hu : s.upgrading = true
  · by_cases ht : s.upgradeTransport = some t
    · simp [hu, ht, eq_comm]
    · simp [hu, ht]
  · simp [hu]

theorem beginAbortUpgrade_eq_some {stop : Option Nat} :
    s.beginAbortUpgrade t = some (s', stop) ↔
      (s.upgrading = true ∧ s.upgradeTransport = some t) ∧
      s' = { s with
        upgrading := false
        upgradeTransport := none
        upgradeTimer := none
        probeNoopStop := none } ∧ stop = s.probeNoopStop := by
  unfold beginAbortUpgrade
  by_cases hu : s.upgrading = true
  · by_cases ht : s.upgradeTransport = some t
    · simp [hu, ht, eq_comm]
    · simp [hu, ht]
  · simp [hu]

end ServerSocket

/-! ## The long-polling transport (`server_transport_polling.go`) -/

/-- `dataCh` is the channel of the poll GET that is held, if there is one. -/
structure PollingTransport where
  closed : Bool := false
  dataCh : Option Nat := none
deriving DecidableEq, Repr

/-- What `hold` answers. -/
inductive HoldResult
  | held
  | pollOverlap
  | pollClosed
deriving DecidableEq, Repr

namespace PollingTransport

/-- `send`: claim the held poll, if any; the channel is the one the payload goes to. -/
def send (t : PollingTransport) : PollingTransport × Option Nat :=
  if t.closed then (t, none) else ({ t with dataCh := none }, t.dataCh)

/-- `hold`: register a poll GET as the held request. -/
def hold (ch : Nat) (t : PollingTransport) : PollingTransport × HoldResult :=
  if t.closed then (t, .pollClosed)
  else if t.dataCh ≠ none then (t, .pollOverlap)
  else ({ t with dataCh := some ch }, .held)

/-- `release`: abandon a held poll; the flag tells whether it was reclaimed. -/
def release (ch : Nat) (t : PollingTransport) : PollingTransport × Bool :=
  if t.dataCh = some ch then ({ t with dataCh := none }, true) else (t, false)

/-- `writeNoop`: claim the held poll for a noop. -/
def writeNoop (t : PollingTransport) : PollingTransport × Option Nat :=
  ({ t with dataCh := none }, t.dataCh)

/-- `close`: the held poll, if any, gets a close packet. -/
def close (t : PollingTransport) : PollingTransport × Option Nat :=
  if t.closed then (t, none) else ({ closed := true, dataCh := none }, t.dataCh)

end PollingTransport

end EngineIo.Server
