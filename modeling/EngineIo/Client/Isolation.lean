import EngineIo.Client.Goroutine

set_option autoImplicit false

/-! # Callbacks of an earlier connection

A socket can be opened again after it closed, and callbacks of the connection before may still be
running then: a probe past its first test, a ping timeout that has fired, a transport's handler. The
sections they run test the socket's state at most, and never which connection it belongs to. After
the next handshake the state is again the one they test for, and then they go ahead, on a connection
that is not theirs.

So connections are isolated as far as the tests go: in a run in which no left-over callback finds its
test met, whatever becomes of a connection is the work of the user and of its own callbacks. -/

namespace EngineIo.Client

open Concurrency

/-- A callback of a connection that has been followed by another. -/
def Goroutine.Stale (w : World) (g : Goroutine) : Prop :=
  ∃ conn, g.origin = .callback conn ∧ conn < w.conn

instance (w : World) (g : Goroutine) : Decidable (g.Stale w) :=
  match ho : g.origin with
  | .user => .isFalse fun ⟨_, h, _⟩ => (by rw [ho] at h; cases h)
  | .callback conn =>
    if hlt : conn < w.conn then .isTrue ⟨conn, ho, hlt⟩
    else .isFalse fun ⟨_, h, h'⟩ => (by rw [ho] at h; cases h; exact hlt h')

/-! ## What the sections test -/

/-- The test that stands before what the next section writes is met; some sections make no test. -/
def Goroutine.goesAhead (s : Socket) (g : Goroutine) : Bool :=
  match g.pc with
  | .opening (.beginOpen _) => s.state = .closed
  | .opening .failOpen | .opening (.installTransport _) => true
  | .flush (.send _) => s.state.active
  | .flush (.endFlush _ _ _ handed _) => s.state = .open && !handed.isEmpty
  | .close .beginCloseTransport => s.state.active
  | .packet (.recordOpen _) => true
  | .teardown .beginRetry => s.retries
  | .teardown .beginTeardown => s.state.live
  | .probe (.beginUpgrade _ _) | .probe (.adoptTransport _ _) => s.state = .open
  | .probe (.abandonUpgrade _) => s.upgrading
  -- the other sections write nothing that belongs to a connection
  | _ => false

/-- What a connection consists of, and whether the process is still running. -/
structure View where
  state : SocketState
  transport : Option Transport
  sessionID : String
  upgrading : Bool
  writeBuffer : List Entry
  panicked : Bool
deriving DecidableEq, Repr

def World.view (w : World) : View where
  state := w.sock.state
  transport := w.sock.transport
  sessionID := w.sock.sessionID
  upgrading := w.sock.upgrading
  writeBuffer := w.sock.writeBuffer
  panicked := w.panicked

variable {w w' : World} {o : Origin} {a : Choice} {g g' : Goroutine}

theorem execOpen_view {pc : OpenPc} (h : execOpen w o pc a = some (w', g'))
    (hg : Goroutine.goesAhead w.sock ⟨o, .opening pc⟩ = false) : w'.view = w.view := by
  revert h
  fun_cases execOpen w o pc a <;> intro h <;> cases h
  case case2 hs =>
    have hclosed := (Socket.beginOpen_eq_some.1 hs).1
    simp [Goroutine.goesAhead, hclosed] at hg
  case case5 => cases hg
  case case6 => cases hg
  all_goals rfl

theorem execFlush_view {pc : FlushPc} (h : execFlush w o pc a = some (w', g'))
    (hg : Goroutine.goesAhead w.sock ⟨o, .flush pc⟩ = false) : w'.view = w.view := by
  revert h
  fun_cases execFlush w o pc a <;> intro h <;> cases h
  case case2 hs =>
    have hactive := (Socket.send_eq_some.1 hs).1
    simp [Goroutine.goesAhead, hactive] at hg
  case case4 hs =>
    obtain ⟨-, rfl, -, -⟩ := Socket.beginFlush_eq_some.1 hs
    rfl
  case case8 handed _ hs =>
    -- the slice expression panics
    obtain ⟨hopen, hlt⟩ := Socket.endFlush_eq_none.1 hs
    have hnil : handed = [] := by simpa [Goroutine.goesAhead, hopen] using hg
    rw [hnil] at hlt
    cases hlt
  case case9 handed _ _ _ hs =>
    obtain ⟨-, rfl⟩ := Socket.endFlush_eq_some hs
    have hbuffer : (if w.sock.state = .open then w.sock.writeBuffer.drop handed.length
        else w.sock.writeBuffer) = w.sock.writeBuffer := by
      split
      · next hopen =>
        have hnil : handed = [] := by simpa [Goroutine.goesAhead, hopen] using hg
        simp [hnil]
      · rfl
    simp [World.view, hbuffer]
  all_goals rfl

theorem execClose_view {pc : ClosePc} (h : execClose w o pc a = some (w', g'))
    (hg : Goroutine.goesAhead w.sock ⟨o, .close pc⟩ = false) : w'.view = w.view := by
  revert h
  fun_cases execClose w o pc a <;> intro h <;> cases h
  case case5 hs =>
    have hactive := (Socket.beginCloseTransport_eq_some.1 hs).1
    simp [Goroutine.goesAhead, hactive] at hg
  all_goals rfl

theorem execPacket_view {pc : PacketPc} (h : execPacket w o pc a = some (w', g'))
    (hg : Goroutine.goesAhead w.sock ⟨o, .packet pc⟩ = false) : w'.view = w.view := by
  obtain ⟨timer, htimer⟩ := Socket.reschedulePingTimeout_eq (o.conn w) w.sock
  revert h
  fun_cases execPacket w o pc a <;> intro h <;> cases h
  case case6 => cases hg
  all_goals
    try rw [htimer]
    rfl

theorem execTeardown_view {pc : TeardownPc} (h : execTeardown w o pc a = some (w', g'))
    (hg : Goroutine.goesAhead w.sock ⟨o, .teardown pc⟩ = false) : w'.view = w.view := by
  revert h
  fun_cases execTeardown w o pc a <;> intro h <;> cases h
  case case1 hs =>
    have hretries := (Socket.beginRetry_eq_true hs).1
    simp [Goroutine.goesAhead, hretries] at hg
  case case2 hs =>
    obtain ⟨-, rfl⟩ := Socket.beginRetry_eq_false hs
    rfl
  case case4 hs =>
    have hlive := (Socket.beginTeardown_eq_some.1 hs).1
    simp [Goroutine.goesAhead, hlive] at hg
  all_goals rfl

theorem execProbe_view {pc : ProbePc} (h : execProbe w o pc a = some (w', g'))
    (hg : Goroutine.goesAhead w.sock ⟨o, .probe pc⟩ = false) : w'.view = w.view := by
  revert h
  fun_cases execProbe w o pc a <;> intro h <;> cases h
  case case10 hs =>
    have hopen := (Socket.beginUpgrade_eq_some.1 hs).1
    simp [Goroutine.goesAhead, hopen] at hg
  case case15 =>
    have hup : w.sock.upgrading = false := hg
    simp [World.view, Socket.abandonUpgrade, hup]
  case case17 hs =>
    have hopen := (Socket.adoptTransport_eq_some.1 hs).1
    simp [Goroutine.goesAhead, hopen] at hg
  all_goals rfl

/-- A section whose test is not met leaves the connection alone. -/
theorem exec_view (h : exec w g a = some (w', g')) (hg : g.goesAhead w.sock = false) :
    w'.view = w.view := by
  have hd := (exec_dispatch h).2
  clear h
  cases hd with
  | @call o c h =>
    revert h
    fun_cases startCall w c <;> intro h <;> cases h <;> rfl
  | opening h => exact execOpen_view h hg
  | flush h => exact execFlush_view h hg
  | close h => exact execClose_view h hg
  | packet h => exact execPacket_view h hg
  | teardown h => exact execTeardown_view h hg
  | probe h => exact execProbe_view h hg

/-! ## Who has changed a connection -/

/-- A change of a connection: who made it, and which connection was the current one. -/
structure Change where
  origin : Origin
  conn : Nat
deriving DecidableEq, Repr

/-- It was made by the user, or on behalf of no earlier connection than the one it was made to. -/
def Change.Own (x : Change) : Prop := ∀ conn, x.origin = .callback conn → x.conn ≤ conn

/-- The socket, and every change of what its connections consisted of. -/
structure Account where
  world : World
  changes : List Change := []

/-- Run the next section of a goroutine, and write down whether it changed the connection. -/
def account (m : Account) (g : Goroutine) (a : Choice) : Option (Account × Goroutine) :=
  (exec m.world g a).map fun r =>
    (⟨r.1, if r.1.view = m.world.view then m.changes else ⟨g.origin, m.world.conn⟩ :: m.changes⟩, r.2)

/-- Any number of goroutines on one socket, opened and closed as often as they like. -/
def accounted : Program Account Goroutine Choice where
  init m := m.world.Fresh ∧ m.changes = []
  idle := .idle
  exec := account

/-- A left-over callback does not find the test met that stands before what it would write. -/
def TurnedAway (m : Account) (g : Goroutine) (_ : Choice) : Prop :=
  g.Stale m.world → g.goesAhead m.world.sock = false

instance (m : Account) (g : Goroutine) (a : Choice) : Decidable (TurnedAway m g a) :=
  inferInstanceAs (Decidable (_ → _))

/-- Every run of the socket has its account. -/
theorem exists_account {C : World → Goroutine → Choice → Prop} {c : Pool World Goroutine}
    (hc : program.Reach C c) :
    ∃ changes, accounted.Reach (fun m => C m.world) ⟨⟨c.shared, changes⟩, c.thread⟩ := by
  induction hc with
  | init h => exact ⟨[], .init ⟨h, rfl⟩⟩
  | @step c c' i a _ hC hstep ih =>
    obtain ⟨changes, hreach⟩ := ih
    obtain ⟨w', g', hx, rfl⟩ := Program.step_eq_some hstep
    have haccount : account ⟨c.shared, changes⟩ (c.thread i) a = some (⟨w',
        if w'.view = c.shared.view then changes else ⟨(c.thread i).origin, c.shared.conn⟩ :: changes⟩, g') :=
      congrArg (Option.map _) hx
    exact ⟨_, .step hreach hC (Program.step_of_exec haccount)⟩

/-- The ping timeout of the first connection has fired when its transport closes, and the user opens
    a second connection. -/
def lateTimeout : List (Nat × Choice) :=
  openBy 0 ++ handshakeBy 1 1 serverOpen ++ [(2, Choice.call .pingTimeout)] ++ closedBy 3 1 ++ openBy 0 ++
    handshakeBy 4 2 serverOpen

/-- The probe of the first connection has written the upgrade packet when its polling transport
    closes, and the user opens a second connection. -/
def lateProbe : List (Nat × Choice) :=
  openBy 0 ++ handshakeBy 1 1 serverOpen ++
    [(1, Choice.go), (1, .create true), (1, .sent true), (1, .pong), (1, .go), (1, .go), (1, .sent true)] ++
    closedBy 2 1 ++ openBy 0 ++ handshakeBy 3 2 serverOpen

end EngineIo.Client
