import EngineIo.Client.Socket
import EngineIo.Concurrency.Pool

set_option autoImplicit false

/-! # The goroutines of a client `Socket`

Callers of `Open`, `Close` and `Send`, the transports' callbacks (`onPacket`, `onError`, `onClose`),
the heartbeat timer and the upgrade probe all run the lock sections of `Client/Socket.lean` on one
socket. `Pc` says which section a goroutine runs next and holds its local variables; `exec` runs it.
Everything the socket does not decide itself is a `Choice`: which call an idle goroutine takes up,
whether a transport could be constructed, whether a write succeeded, what arrived.

Transports are left open here. Any transport of any connection so far may call back at any moment,
so what is proved holds for every implementation of the `Transport` interface. -/

namespace EngineIo.Client

/-- A successful write on a transport. -/
inductive Write
  | probe (t : Transport)
  | upgrade (t : Transport)
  | entry (t : Transport) (e : Entry)
deriving DecidableEq, Repr

/-- The socket and the history the statements speak about. -/
structure World where
  sock : Socket := {}
  /-- How many connections `beginOpen` has claimed; the current one has this number. -/
  conn : Nat := 0
  /-- How many times `Open` has been called. -/
  calls : Nat := 0
  /-- The call of `Open` the current connection belongs to. -/
  call : Nat := 0
  /-- How many transports have been constructed. -/
  made : Nat := 0
  /-- How many times the write buffer has been reset. -/
  resets : Nat := 0
  /-- How many open packets have been recorded. -/
  opened : Nat := 0
  /-- The transport the last `Open` installed. -/
  installed : Option Transport := none
  accepted : List Entry := []
  wire : List Write := []
  /-- The calls of `Open` whose connection has reported its close to the close handler. -/
  closeRuns : List Nat := []
  panicked : Bool := false
deriving DecidableEq, Repr

/-- What follows in the method that called `flush`. -/
inductive Cont
  /-- `Send`: nothing. -/
  | done
  /-- `Close`. -/
  | close
  /-- `onOpen`, which starts `probeUpgrades`. -/
  | opened (candidates : List TransportType)
  /-- `probe`, after a failed upgrade: the remaining candidates are tried. -/
  | discard (rest : List TransportType)
  /-- `probe`, after the switch. -/
  | upgraded
deriving DecidableEq, Repr

/-- Where a goroutine stands in `Open`. -/
inductive OpenPc
  | beginOpen (call : Nat)
  | createTransport
  | failOpen
  | installTransport (t : Transport)
deriving DecidableEq, Repr

/-- Where a goroutine stands in `Send` and `flush`. `resets` is ghost: how often the buffer had been
    reset when the flush took its snapshot. -/
inductive FlushPc
  | send (ps : List Packet)
  | beginFlush (k : Cont)
  | sendChunks (k : Cont) (resets : Nat) (t : Transport) (handed : List Entry)
      (chunks : List (List Entry))
  | endFlush (k : Cont) (resets : Nat) (t : Transport) (handed : List Entry) (failed : Bool)
deriving DecidableEq, Repr

/-- Where a goroutine stands in `Close`. -/
inductive ClosePc
  | beginClose
  | beginCloseTransport
deriving DecidableEq, Repr

/-- Where a goroutine stands in `onPacket` and `onOpen`. -/
inductive PacketPc
  | onPacket (p : Packet)
  | reschedulePingTimeout (p : Packet)
  | unmarshal
  | recordOpen (p : OpenPacket)
  | armHeartbeat (candidates : List TransportType)
  | resolveURL (candidates : List TransportType)
deriving DecidableEq, Repr

/-- Where a goroutine stands in `onError` and `onClose`. -/
inductive TeardownPc
  | beginRetry
  | beginTeardown
  | closeHandler (call : Nat)
deriving DecidableEq, Repr

/-- Where a goroutine stands in `probeUpgrades` and `probe`, including the pong callback, which runs
    while the probing goroutine waits for its outcome. -/
inductive ProbePc
  | probeUpgrades (candidates : List TransportType)
  | createTransport (type : TransportType) (rest : List TransportType)
  | openTransport (t : Transport) (rest : List TransportType)
  | awaitPong (t : Transport) (rest : List TransportType)
  | beginUpgrade (t : Transport) (rest : List TransportType)
  | drain (t : Transport) (rest : List TransportType)
  | sendUpgrade (t : Transport) (rest : List TransportType)
  | abandonUpgrade (rest : List TransportType)
  | adoptTransport (t : Transport) (rest : List TransportType)
deriving DecidableEq, Repr

/-- The section a goroutine runs next, with its local variables. -/
inductive Pc
  | idle
  | opening (pc : OpenPc)
  | flush (pc : FlushPc)
  | close (pc : ClosePc)
  | packet (pc : PacketPc)
  | teardown (pc : TeardownPc)
  | probe (pc : ProbePc)
deriving DecidableEq, Repr

/-- Who a goroutine works for: the user, or a connection whose callback it is. -/
inductive Origin
  | user
  | callback (conn : Nat)
deriving DecidableEq, Repr

structure Goroutine where
  origin : Origin
  pc : Pc
deriving DecidableEq, Repr

/-- The calls an idle goroutine can take up. -/
inductive Call
  | open
  | close
  | send (ps : List Packet)
  | onPacket (conn : Nat) (p : Packet)
  | onError (conn : Nat)
  | onClose (conn : Nat)
  | pingTimeout
deriving DecidableEq, Repr

inductive Choice
  | go
  | call (c : Call)
  /-- A constructor succeeded or failed. -/
  | create (ok : Bool)
  /-- A write succeeded or failed. -/
  | sent (ok : Bool)
  /-- What `json.Unmarshal` made of an open packet's data. -/
  | parsed (p : Option OpenPacket)
  | resolved (ok : Bool)
  /-- The probing transport delivered the probe pong. -/
  | pong
  /-- The probing transport failed or closed before the pong. -/
  | failed
deriving DecidableEq, Repr

def Goroutine.idle : Goroutine := ⟨.user, .idle⟩

/-- Return from `flush`. -/
def Cont.resume (o : Origin) : Cont → Goroutine
  | .done => .idle
  | .close => ⟨o, .close .beginCloseTransport⟩
  | .opened candidates => ⟨o, .probe (.probeUpgrades candidates)⟩
  | .discard rest => ⟨o, .probe (.probeUpgrades rest)⟩
  | .upgraded => .idle

/-- The connection a goroutine works for; the user always means the current one. -/
def Origin.conn (w : World) : Origin → Nat
  | .user => w.conn
  | .callback c => c

/-- A goroutine whose `beginOpen` succeeded works for the connection it claimed. -/
def Origin.claim (conn : Nat) : Origin → Origin
  | .user => .user
  | .callback _ => .callback conn

/-- Stamp the packets of a `Send`. -/
def World.stamp (w : World) (ps : List Packet) : List Entry :=
  ps.zipIdx.map fun q => { packet := q.1, conn := w.conn, seq := w.accepted.length + q.2 }

/-- An idle goroutine takes up a call. -/
def startCall (w : World) : Call → Option (World × Goroutine)
  | .open => some ({ w with calls := w.calls + 1 }, ⟨.user, .opening (.beginOpen w.calls)⟩)
  | .close => some (w, ⟨.user, .close .beginClose⟩)
  | .send ps => some (w, ⟨.user, .flush (.send ps)⟩)
  | .onPacket conn p =>
    if 0 < conn ∧ conn ≤ w.conn then some (w, ⟨.callback conn, .packet (.onPacket p)⟩) else none
  | .onError conn =>
    if 0 < conn ∧ conn ≤ w.conn then some (w, ⟨.callback conn, .teardown .beginRetry⟩) else none
  | .onClose conn =>
    if 0 < conn ∧ conn ≤ w.conn then some (w, ⟨.callback conn, .teardown .beginTeardown⟩) else none
  | .pingTimeout =>
    match w.sock.pingTimeoutTimer with
    | some t =>
      if t.fired then none
      else some ({ w with sock := { w.sock with pingTimeoutTimer := some { t with fired := true } } },
        ⟨.callback t.conn, .teardown .beginTeardown⟩)
    | none => none

/-- `Open`. Once the transport is installed and opened, what it delivers arrives as callbacks. -/
def execOpen (w : World) (o : Origin) : OpenPc → Choice → Option (World × Goroutine)
  | .beginOpen call, .go =>
    match w.sock.beginOpen with
    | none => some (w, .idle)
    | some s =>
      some ({ w with sock := s, conn := w.conn + 1, call, resets := w.resets + 1 },
        ⟨o.claim (w.conn + 1), .opening .createTransport⟩)
  | .createTransport, .create ok =>
    match ok, w.sock.selectTransport with
    | true, some type =>
      some ({ w with made := w.made + 1 }, ⟨o, .opening (.installTransport ⟨w.made, type⟩)⟩)
    | _, _ => some (w, ⟨o, .opening .failOpen⟩)
  | .failOpen, .go => some ({ w with sock := w.sock.failOpen }, .idle)
  | .installTransport t, .go =>
    some ({ w with sock := w.sock.installTransport t, installed := some t }, .idle)
  | _, _ => none

/-- `Send` and `flush`. -/
def execFlush (w : World) (o : Origin) : FlushPc → Choice → Option (World × Goroutine)
  | .send ps, .go =>
    match w.sock.send (w.stamp ps) with
    | none => some (w, .idle)
    | some s =>
      some ({ w with sock := s, accepted := w.accepted ++ w.stamp ps },
        ⟨o, .flush (.beginFlush .done)⟩)
  | .beginFlush k, .go =>
    match w.sock.beginFlush with
    | none => some (w, k.resume o)
    | some (s, t, es, maxPayload) =>
      some ({ w with sock := s },
        ⟨o, .flush (.sendChunks k w.resets t [] (Socket.chunkPackets es maxPayload))⟩)
  | .sendChunks k r t handed (chunk :: chunks), .sent true =>
    some ({ w with wire := w.wire ++ chunk.map (.entry t) },
      ⟨o, .flush (.sendChunks k r t (handed ++ chunk) chunks)⟩)
  | .sendChunks k r t handed (_ :: _), .sent false =>
    some (w, ⟨o, .flush (.endFlush k r t handed true)⟩)
  | .sendChunks k r t handed [], .go => some (w, ⟨o, .flush (.endFlush k r t handed false)⟩)
  | .endFlush k r t handed failed, .go =>
    match w.sock.endFlush handed.length failed with
    | none => some ({ w with panicked := true }, ⟨o, .flush (.endFlush k r t handed failed)⟩)
    | some (s, more) =>
      some ({ w with sock := s }, if more then ⟨o, .flush (.beginFlush k)⟩ else k.resume o)
  | _, _ => none

/-- `Close`. The transport it asks to close reports back through `onClose`. -/
def execClose (w : World) (o : Origin) : ClosePc → Choice → Option (World × Goroutine)
  | .beginClose, .go =>
    match w.sock.beginClose with
    | (false, _) => some (w, .idle)
    | (true, true) => some (w, ⟨o, .flush (.beginFlush .close)⟩)
    | (true, false) => some (w, ⟨o, .close .beginCloseTransport⟩)
  | .beginCloseTransport, .go =>
    match w.sock.beginCloseTransport with
    | none => some (w, .idle)
    | some (s, _) => some ({ w with sock := s }, .idle)
  | _, _ => none

/-- `onPacket` and `onOpen`. -/
def execPacket (w : World) (o : Origin) : PacketPc → Choice → Option (World × Goroutine)
  | .onPacket p, .go =>
    if w.sock.state.live then some (w, ⟨o, .packet (.reschedulePingTimeout p)⟩)
    else some (w, .idle)
  | .reschedulePingTimeout p, .go =>
    some ({ w with sock := w.sock.reschedulePingTimeout (o.conn w) },
      if p.type = .open then ⟨o, .packet .unmarshal⟩
      else if p.type = .ping then ⟨o, .flush (.send [{ type := .pong }])⟩
      else .idle)
  | .unmarshal, .parsed none => some (w, .idle)
  | .unmarshal, .parsed (some p) => some (w, ⟨o, .packet (.recordOpen p)⟩)
  | .recordOpen p, .go =>
    some ({ w with sock := w.sock.recordOpen p, opened := w.opened + 1 },
      if w.sock.transport.isNone then .idle
      else ⟨o, .packet (.armHeartbeat
        (if w.sock.upgrade then p.upgrades.filter w.sock.transports.contains else []))⟩)
  | .armHeartbeat candidates, .go =>
    some ({ w with sock := w.sock.reschedulePingTimeout (o.conn w) },
      ⟨o, .packet (.resolveURL candidates)⟩)
  | .resolveURL _, .resolved false => some (w, .idle)
  | .resolveURL candidates, .resolved true =>
    some (w, ⟨o, .flush (.beginFlush (.opened candidates))⟩)
  | _, _ => none

/-- `onError` and `onClose`. -/
def execTeardown (w : World) (o : Origin) : TeardownPc → Choice → Option (World × Goroutine)
  | .beginRetry, .go =>
    match w.sock.beginRetry with
    | (s, true) =>
      some ({ w with sock := s, resets := w.resets + 1 }, ⟨o, .opening (.beginOpen w.call)⟩)
    | (s, false) => some ({ w with sock := s }, ⟨o, .teardown .beginTeardown⟩)
  | .beginTeardown, .go =>
    match w.sock.beginTeardown with
    | none => some (w, .idle)
    | some (s, _) =>
      some ({ w with sock := s, resets := w.resets + 1 }, ⟨o, .teardown (.closeHandler w.call)⟩)
  | .closeHandler call, .go => some ({ w with closeRuns := call :: w.closeRuns }, .idle)
  | _, _ => none

/-- `probeUpgrades` and `probe`. -/
def execProbe (w : World) (o : Origin) : ProbePc → Choice → Option (World × Goroutine)
  | .probeUpgrades [], .go => some (w, .idle)
  | .probeUpgrades (type :: rest), .go =>
    some ({ w with sock := w.sock.beginProbe }, ⟨o, .probe (.createTransport type rest)⟩)
  | .createTransport _ rest, .create false => some (w, ⟨o, .probe (.probeUpgrades rest)⟩)
  | .createTransport type rest, .create true =>
    some ({ w with made := w.made + 1 }, ⟨o, .probe (.openTransport ⟨w.made, type⟩ rest)⟩)
  | .openTransport _ rest, .failed => some (w, ⟨o, .probe (.probeUpgrades rest)⟩)
  | .openTransport t rest, .sent ok =>
    some ({ w with wire := if ok then w.wire ++ [.probe t] else w.wire },
      ⟨o, .probe (.awaitPong t rest)⟩)
  | .awaitPong _ rest, .failed => some (w, ⟨o, .probe (.probeUpgrades rest)⟩)
  | .awaitPong t rest, .pong => some (w, ⟨o, .probe (.beginUpgrade t rest)⟩)
  | .beginUpgrade t rest, .go =>
    match w.sock.beginUpgrade with
    | none => some (w, ⟨o, .probe (.probeUpgrades rest)⟩)
    | some (s, _) => some ({ w with sock := s }, ⟨o, .probe (.drain t rest)⟩)
  | .drain t rest, .go =>
    -- `flushWG.Wait` returns once no flush is in flight
    if w.sock.flushWG = 0 then some (w, ⟨o, .probe (.sendUpgrade t rest)⟩) else none
  | .sendUpgrade t rest, .sent true =>
    some ({ w with wire := w.wire ++ [.upgrade t] }, ⟨o, .probe (.adoptTransport t rest)⟩)
  | .sendUpgrade _ rest, .sent false => some (w, ⟨o, .probe (.abandonUpgrade rest)⟩)
  | .abandonUpgrade rest, .go =>
    some ({ w with sock := w.sock.abandonUpgrade }, ⟨o, .flush (.beginFlush (.discard rest))⟩)
  | .adoptTransport t rest, .go =>
    match w.sock.adoptTransport t with
    | none => some (w, ⟨o, .probe (.probeUpgrades rest)⟩)
    | some s => some ({ w with sock := s }, ⟨o, .flush (.beginFlush .upgraded)⟩)
  | _, _ => none

/-- Run the next section of a goroutine; a panic stops the whole process. -/
def exec (w : World) (g : Goroutine) (a : Choice) : Option (World × Goroutine) :=
  if w.panicked then none
  else
    match g.pc, a with
    | .idle, .call c => startCall w c
    | .idle, _ => none
    | .opening pc, a => execOpen w g.origin pc a
    | .flush pc, a => execFlush w g.origin pc a
    | .close pc, a => execClose w g.origin pc a
    | .packet pc, a => execPacket w g.origin pc a
    | .teardown pc, a => execTeardown w g.origin pc a
    | .probe pc, a => execProbe w g.origin pc a

/-- Which method the section a goroutine ran belongs to. -/
inductive Dispatch (w : World) (a : Choice) (r : World × Goroutine) : Goroutine → Prop
  | call {o : Origin} {c : Call} (h : startCall w c = some r) : Dispatch w a r ⟨o, .idle⟩
  | opening {o : Origin} {pc : OpenPc} (h : execOpen w o pc a = some r) :
      Dispatch w a r ⟨o, .opening pc⟩
  | flush {o : Origin} {pc : FlushPc} (h : execFlush w o pc a = some r) :
      Dispatch w a r ⟨o, .flush pc⟩
  | close {o : Origin} {pc : ClosePc} (h : execClose w o pc a = some r) :
      Dispatch w a r ⟨o, .close pc⟩
  | packet {o : Origin} {pc : PacketPc} (h : execPacket w o pc a = some r) :
      Dispatch w a r ⟨o, .packet pc⟩
  | teardown {o : Origin} {pc : TeardownPc} (h : execTeardown w o pc a = some r) :
      Dispatch w a r ⟨o, .teardown pc⟩
  | probe {o : Origin} {pc : ProbePc} (h : execProbe w o pc a = some r) :
      Dispatch w a r ⟨o, .probe pc⟩

theorem exec_dispatch {w : World} {g : Goroutine} {a : Choice} {r : World × Goroutine}
    (h : exec w g a = some r) : w.panicked = false ∧ Dispatch w a r g := by
  obtain ⟨o, pc⟩ := g
  unfold exec at h
  split at h
  · cases h
  · rename_i hp
    refine ⟨by simpa using hp, ?_⟩
    split at h <;> rename_i heq
    · subst heq; exact .call h
    · cases h
    · subst heq; exact .opening h
    · subst heq; exact .flush h
    · subst heq; exact .close h
    · subst heq; exact .packet h
    · subst heq; exact .teardown h
    · subst heq; exact .probe h

/-- Only the last section of a flush can panic. -/
theorem exec_panicked {w w' : World} {g g' : Goroutine} {a : Choice}
    (h : exec w g a = some (w', g')) (hp : w'.panicked = true) :
    ∃ k r t handed failed, g.pc = .flush (.endFlush k r t handed failed) ∧
      w.sock.state = .open ∧ w.sock.writeBuffer.length < handed.length := by
  obtain ⟨hw, hd⟩ := exec_dispatch h
  clear h
  cases hd with
  | @flush o pc h =>
    revert h
    fun_cases execFlush w o pc a <;> intro h <;> cases h
    all_goals first
      | (simp [hw] at hp; done)
      | (rename_i hs; exact ⟨_, _, _, _, _, rfl, Socket.endFlush_eq_none.1 hs⟩)
  | @call o c h =>
    revert h
    fun_cases startCall w c <;> intro h <;> cases h <;> simp [hw] at hp
  | @opening o pc h =>
    revert h
    fun_cases execOpen w o pc a <;> intro h <;> cases h <;> simp [hw] at hp
  | @close o pc h =>
    revert h
    fun_cases execClose w o pc a <;> intro h <;> cases h <;> simp [hw] at hp
  | @packet o pc h =>
    revert h
    fun_cases execPacket w o pc a <;> intro h <;> cases h <;> simp [hw] at hp
  | @teardown o pc h =>
    revert h
    fun_cases execTeardown w o pc a <;> intro h <;> cases h <;> simp [hw] at hp
  | @probe o pc h =>
    revert h
    fun_cases execProbe w o pc a <;> intro h <;> cases h <;> simp [hw] at hp

/-- A fresh socket, configured in any way (`NewSocket`). -/
def World.Fresh (w : World) : Prop :=
  ∃ upgrade rememberUpgrade tryAllTransports transports,
    w = { sock := { upgrade, rememberUpgrade, tryAllTransports, transports } }

/-- Any number of goroutines on one socket. -/
def program : Concurrency.Program World Goroutine Choice where
  init := World.Fresh
  idle := .idle
  exec := exec

/-! ## Schedules

Pieces of the concrete runs that the counterexamples are made of. -/

/-- `NewSocket` with the default options. -/
def fresh : Concurrency.Pool World Goroutine := ⟨{}, fun _ => .idle⟩

theorem fresh_reach {C : World → Goroutine → Choice → Prop} : program.Reach C fresh :=
  .init ⟨true, false, false, [.polling, .websocket], rfl⟩

theorem fresh_reachable : program.Reachable fresh := fresh_reach

/-- Goroutine `i` calls `Open`, which installs a polling transport. -/
def openBy (i : Nat) : List (Nat × Choice) :=
  [(i, .call .open), (i, .go), (i, .create true), (i, .go)]

/-- Goroutine `i` handles the open packet of connection `conn`, up to the flush in `onOpen`. -/
def handshakeBy (i conn : Nat) (p : OpenPacket) : List (Nat × Choice) :=
  [(i, .call (.onPacket conn { type := .open })), (i, .go), (i, .go), (i, .parsed (some p)), (i, .go),
    (i, .go), (i, .resolved true), (i, .go)]

/-- Goroutine `i` runs the close callback of a transport of connection `conn`. -/
def closedBy (i conn : Nat) : List (Nat × Choice) :=
  [(i, .call (.onClose conn)), (i, .go), (i, .go)]

/-- The open packet of a server that offers a websocket upgrade. -/
def serverOpen : OpenPacket :=
  { sessionID := "sid", upgrades := [.websocket], pingInterval := 25000, pingTimeout := 20000,
    maxPayload := 1000000 }

end EngineIo.Client
