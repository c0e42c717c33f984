import EngineIo.Client.Lifecycle
import EngineIo.Concurrency.Timers

set_option autoImplicit false

/-! # The heartbeat of a client against the clock (`socket.go`)

A client has one timer. Every packet arms it, of whatever kind, and the open packet once more, when the interval and
the timeout are known. Its function closes the socket. In between the open packet is recorded and the timer is armed
for it there is no deadline: these are two sections of one goroutine.

What the server negotiates is a number of milliseconds, and the sum is taken in 64 bits. -/

namespace EngineIo.Client

open Concurrency

/-- The delay with which `reschedulePingTimeout` arms the timer, if it is positive. -/
def Socket.heartbeat (s : Socket) : Int := (s.pingInterval + s.pingTimeout).bmod (2 ^ 64)

def Socket.pending (s : Socket) : Bool := s.pingTimeoutTimer.any fun timer => !timer.fired

/-- A goroutine is about to call `reschedulePingTimeout`. -/
def Goroutine.rearms (g : Goroutine) : Bool :=
  match g.pc with
  | .packet (.reschedulePingTimeout _) | .packet (.armHeartbeat _) => true
  | _ => false

/-- A goroutine has recorded an open packet and not armed the timer for it. -/
def Goroutine.unarmed (g : Goroutine) : Bool :=
  match g.pc with
  | .packet (.armHeartbeat _) => true
  | _ => false

theorem Goroutine.rearms_of_unarmed {g : Goroutine} (h : g.unarmed = true) : g.rearms = true := by
  unfold Goroutine.unarmed at h
  unfold Goroutine.rearms
  split at h
  · next hpc => rw [hpc]
  · cases h

/-- A goroutine is about to tear the socket down, for instance as the function of the timer. -/
def Goroutine.closes (g : Goroutine) : Bool :=
  match g.pc with
  | .teardown .beginTeardown => true
  | _ => false

/-- What a section does to the heartbeat. -/
inductive WatchStep (w : World) (g : Goroutine) (a : Choice) (w' : World) (g' : Goroutine) : Prop
  | other (htimer : w'.sock.pingTimeoutTimer = w.sock.pingTimeoutTimer)
      (hheartbeat : w'.sock.heartbeat = w.sock.heartbeat)
      (hopen : w'.sock.state = .open → w.sock.state = .open ∧ g.closes = false)
      (hg : g.rearms = false)
  | record (p : OpenPacket) (hpc : g.pc = .packet (.recordOpen p)) (hs : w'.sock = w.sock.recordOpen p)
      (hg' : w.sock.transport.isSome = true → g'.unarmed = true)
  | rearm (conn : Nat) (hg : g.rearms = true) (hs : w'.sock = w.sock.reschedulePingTimeout conn)
  | fire (timer : Timer) (ha : a = .call .pingTimeout) (ht : w.sock.pingTimeoutTimer = some timer)
      (hf : timer.fired = false) (hg : g.rearms = false)
      (hs : w'.sock = { w.sock with pingTimeoutTimer := some { timer with fired := true } })
  | release (hclosed : w'.sock.state = .closed) (htimer : w'.sock.pingTimeoutTimer = none)
      (hheartbeat : w'.sock.heartbeat = w.sock.heartbeat)

variable {w w' : World} {o : Origin} {g g' : Goroutine} {a : Choice}

theorem startCall_watch {c : Call} (h : startCall w c = some (w', g')) : WatchStep w ⟨o, .idle⟩ (.call c) w' g' := by
  revert h
  fun_cases startCall w c <;> intro h <;> cases h
  case case11 timer ht hfired => exact .fire timer rfl ht (by simpa using hfired) rfl rfl
  all_goals exact .other rfl rfl (fun h => ⟨h, rfl⟩) rfl

theorem execOpen_watch {pc : OpenPc} (h : execOpen w o pc a = some (w', g')) :
    WatchStep w ⟨o, .opening pc⟩ a w' g' := by
  revert h
  fun_cases execOpen w o pc a <;> intro h <;> cases h
  case case2 hs =>
    obtain ⟨-, rfl⟩ := Socket.beginOpen_eq_some.1 hs
    exact .other rfl rfl (fun h => by cases h) rfl
  case case5 => exact .other rfl rfl (fun h => by cases h) rfl
  all_goals exact .other rfl rfl (fun h => ⟨h, rfl⟩) rfl

theorem execFlush_watch {pc : FlushPc} (h : execFlush w o pc a = some (w', g')) :
    WatchStep w ⟨o, .flush pc⟩ a w' g' := by
  revert h
  fun_cases execFlush w o pc a <;> intro h <;> cases h
  case case2 hs =>
    obtain ⟨-, rfl⟩ := Socket.send_eq_some.1 hs
    exact .other rfl rfl (fun h => ⟨h, rfl⟩) rfl
  case case4 hs =>
    obtain ⟨-, rfl, -⟩ := Socket.beginFlush_eq_some.1 hs
    exact .other rfl rfl (fun h => ⟨h, rfl⟩) rfl
  case case9 hs =>
    obtain ⟨-, rfl⟩ := Socket.endFlush_eq_some hs
    exact .other rfl rfl (fun h => ⟨h, rfl⟩) rfl
  all_goals exact .other rfl rfl (fun h => ⟨h, rfl⟩) rfl

theorem execClose_watch {pc : ClosePc} (h : execClose w o pc a = some (w', g')) :
    WatchStep w ⟨o, .close pc⟩ a w' g' := by
  revert h
  fun_cases execClose w o pc a <;> intro h <;> cases h
  case case5 hs =>
    obtain ⟨-, rfl, -⟩ := Socket.beginCloseTransport_eq_some.1 hs
    exact .other rfl rfl (fun h => by cases h) rfl
  all_goals exact .other rfl rfl (fun h => ⟨h, rfl⟩) rfl

theorem execPacket_watch {pc : PacketPc} (h : execPacket w o pc a = some (w', g')) :
    WatchStep w ⟨o, .packet pc⟩ a w' g' := by
  revert h
  fun_cases execPacket w o pc a <;> intro h <;> cases h
  case case3 | case7 => exact .rearm _ rfl rfl
  case case6 p =>
    refine .record p rfl rfl fun htransport => ?_
    rw [if_neg]
    · rfl
    · simpa [Option.isSome_iff_ne_none] using htransport
  all_goals exact .other rfl rfl (fun h => ⟨h, rfl⟩) rfl

theorem execTeardown_watch {pc : TeardownPc} (h : execTeardown w o pc a = some (w', g')) :
    WatchStep w ⟨o, .teardown pc⟩ a w' g' := by
  revert h
  fun_cases execTeardown w o pc a <;> intro h <;> cases h
  case case1 hs =>
    obtain ⟨-, rfl⟩ := Socket.beginRetry_eq_true hs
    exact .other rfl rfl (fun h => by cases h) rfl
  case case2 hs =>
    obtain ⟨-, rfl⟩ := Socket.beginRetry_eq_false hs
    exact .other rfl rfl (fun h => ⟨h, rfl⟩) rfl
  case case3 hs =>
    refine .other rfl rfl (fun hopen => ?_) rfl
    have hlive := Socket.beginTeardown_eq_none.1 hs
    rw [hopen] at hlive
    cases hlive
  case case4 hs =>
    obtain ⟨-, rfl, -⟩ := Socket.beginTeardown_eq_some.1 hs
    exact .release rfl rfl rfl
  case case5 => exact .other rfl rfl (fun h => ⟨h, rfl⟩) rfl

theorem execProbe_watch {pc : ProbePc} (h : execProbe w o pc a = some (w', g')) :
    WatchStep w ⟨o, .probe pc⟩ a w' g' := by
  revert h
  fun_cases execProbe w o pc a <;> intro h <;> cases h
  case case10 hs =>
    obtain ⟨-, rfl, -⟩ := Socket.beginUpgrade_eq_some.1 hs
    exact .other rfl rfl (fun h => ⟨h, rfl⟩) rfl
  case case17 hs =>
    obtain ⟨-, rfl⟩ := Socket.adoptTransport_eq_some.1 hs
    exact .other rfl rfl (fun h => ⟨h, rfl⟩) rfl
  all_goals exact .other rfl rfl (fun h => ⟨h, rfl⟩) rfl

theorem exec_watch (h : exec w g a = some (w', g')) : WatchStep w g a w' g' := by
  have hpanicked : ¬ w.panicked = true := by simp [(exec_dispatch h).1]
  unfold exec at h
  rw [if_neg hpanicked] at h
  obtain ⟨o, pc⟩ := g
  cases pc with
  | idle =>
    cases a with
    | call c => exact startCall_watch h
    | _ => cases h
  | opening pc => exact execOpen_watch h
  | flush pc => exact execFlush_watch h
  | close pc => exact execClose_watch h
  | packet pc => exact execPacket_watch h
  | teardown pc => exact execTeardown_watch h
  | probe pc => exact execProbe_watch h

/-! ## The timer -/

/-- What a goroutine arms the timer with. -/
def Goroutine.arms (g : Goroutine) (s : Socket) : Option Nat :=
  if g.rearms ∧ 0 < s.heartbeat then some s.heartbeat.toNat else none

theorem pending_reschedule {s : Socket} {conn : Nat} (h : (s.reschedulePingTimeout conn).pending = true) :
    0 < s.heartbeat := by
  by_contra hle
  rw [Socket.reschedulePingTimeout, if_pos (by simpa [Socket.heartbeat] using hle)] at h
  cases h

theorem reschedule_pending {s : Socket} (conn : Nat) (h : 0 < s.heartbeat) :
    (s.reschedulePingTimeout conn).pending = true := by
  rw [Socket.reschedulePingTimeout, if_neg (by simpa [Socket.heartbeat] using h)]
  rfl

theorem WatchStep.pending (h : WatchStep w g a w' g') (hp : w'.sock.pending = true) :
    (g.arms w.sock).isSome = true ∨ w.sock.pending = true := by
  cases h with
  | other htimer =>
    rw [Socket.pending, htimer] at hp
    exact .inr hp
  | record p _ hs =>
    rw [hs] at hp
    exact .inr hp
  | rearm conn hg hs =>
    rw [hs] at hp
    exact .inl (by simp [Goroutine.arms, hg, pending_reschedule hp])
  | fire timer _ _ _ _ hs =>
    rw [hs] at hp
    cases hp
  | release _ htimer =>
    rw [Socket.pending, htimer] at hp
    cases hp

/-- Only an idle goroutine takes up a call. -/
theorem exec_call {c : Call} {r : World × Goroutine} (h : exec w g (.call c) = some r) : startCall w c = some r := by
  have hpanicked : ¬ w.panicked = true := by simp [(exec_dispatch h).1]
  unfold exec at h
  rw [if_neg hpanicked] at h
  obtain ⟨o, pc⟩ := g
  cases pc with
  | idle => exact h
  | opening pc => cases pc <;> cases h
  | flush pc =>
    cases pc with
    | sendChunks k resets t handed chunks => cases chunks <;> cases h
    | _ => cases h
  | close pc => cases pc <;> cases h
  | packet pc => cases pc <;> cases h
  | teardown pc => cases pc <;> cases h
  | probe pc =>
    cases pc with
    | probeUpgrades candidates => cases candidates <;> cases h
    | _ => cases h

theorem startCall_pingTimeout (h : startCall w .pingTimeout = some (w', g')) : g'.closes = true := by
  revert h
  rw [startCall]
  split
  · split <;> intro h <;> cases h
    rfl
  · intro h
    cases h

theorem startCall_pingTimeout_pending {r : World × Goroutine} (h : startCall w .pingTimeout = some r) :
    w.sock.pending = true := by
  rw [startCall] at h
  split at h
  · next timer ht =>
    have hf := (Option.ite_none_left_eq_some.1 h).1
    simpa [Socket.pending, ht] using hf
  · cases h

/-- The timer of a client. -/
def timers : Timers program Unit where
  pending _ w := w.sock.pending
  arms _ w g _ := g.arms w.sock
  fires _ w a := decide (a = .call .pingTimeout) && w.sock.pending
  serves _ g := g.closes
  pending_init := by
    rintro - w ⟨upgrade, remember, tryAll, transports, rfl⟩
    rfl
  pending_of_exec h hp := (exec_watch h).pending hp
  pending_of_fires _ hf := (Bool.and_eq_true_iff.1 hf).2
  serves_of_fires := by
    intro _ w g a w' g' h hf
    rw [of_decide_eq_true (Bool.and_eq_true_iff.1 hf).1] at h
    exact startCall_pingTimeout (exec_call h)

/-! ## Main result -/

variable {slack : Slack} {t : Timed World Goroutine Unit}

theorem arms_of_rearms_eq_false (h : g.rearms = false) (s : Socket) : g.arms s = none := by
  simp [Goroutine.arms, h]

theorem heartbeat_reschedule (s : Socket) (conn : Nat) : (s.reschedulePingTimeout conn).heartbeat = s.heartbeat := by
  obtain ⟨timer, htimer⟩ := Socket.reschedulePingTimeout_eq conn s
  rw [htimer]
  rfl

/-- The timer was armed last with what is negotiated, or some goroutine has yet to arm it for an open packet. -/
theorem delay_owned (ht : timers.Reach slack RecordsLive t)
    (hlive : t.pool.shared.sock.state = .open ∨ t.pool.shared.sock.pending = true)
    (hpos : 0 < t.pool.shared.sock.heartbeat) :
    t.delay () = t.pool.shared.sock.heartbeat.toNat ∨ ∃ i, (t.pool.thread i).unarmed = true := by
  by_cases hdelay : t.delay () = t.pool.shared.sock.heartbeat.toNat
  · exact .inl hdelay
  refine .inr (ht.owner (O := fun _ g => g.unarmed = true)
    (H := fun t => (t.pool.shared.sock.state = .open ∨ t.pool.shared.sock.pending = true) ∧
      0 < t.pool.shared.sock.heartbeat ∧ t.delay () ≠ t.pool.shared.sock.heartbeat.toNat) ?_ id ?_
    ⟨hlive, hpos, hdelay⟩)
  · rintro w ⟨upgrade, remember, tryAll, transports, rfl⟩ ⟨-, h, -⟩
    cases h
  · rintro t i a w' g' ht hC hx ⟨hlive', hpos', hdelay'⟩
    -- the delay is that of before, unless the section arms the timer
    have hsame (hg : (t.pool.thread i).rearms = false) : (timers.after t i a w' g').delay () = t.delay () :=
      congrArg (Option.getD · (t.delay ())) (arms_of_rearms_eq_false hg t.pool.shared.sock)
    have hnot (hg : (t.pool.thread i).rearms = false) : ¬ (t.pool.thread i).unarmed = true := fun hunarmed =>
      absurd (hg.symm.trans (Goroutine.rearms_of_unarmed hunarmed)) (by decide)
    cases exec_watch hx with
    | other htimer hheartbeat hopen hg =>
      rw [hsame hg] at hdelay'
      refine .inr ⟨⟨hlive'.imp (fun h => (hopen h).1) fun h => ?_, hheartbeat ▸ hpos', hheartbeat ▸ hdelay'⟩, hnot hg⟩
      simpa [Socket.pending, timers, Timers.after, htimer] using h
    | record p hpc hs hg' => exact .inl (hg' (hC.at_recordOpen hpc).2)
    | rearm conn hg hs =>
      have hheartbeat : w'.sock.heartbeat = t.pool.shared.sock.heartbeat := by rw [hs, heartbeat_reschedule]
      have harms : (t.pool.thread i).arms t.pool.shared.sock = some t.pool.shared.sock.heartbeat.toNat :=
        if_pos ⟨hg, hheartbeat ▸ hpos'⟩
      refine absurd ?_ hdelay'
      show ((t.pool.thread i).arms t.pool.shared.sock).getD (t.delay ()) = w'.sock.heartbeat.toNat
      rw [harms, hheartbeat]
      rfl
    | fire timer _ _ _ hg hs =>
      rw [hsame hg] at hdelay'
      have hheartbeat : w'.sock.heartbeat = t.pool.shared.sock.heartbeat := by rw [hs]; rfl
      have hopen' : w'.sock.state = .open := hlive'.resolve_right (by simp [Timers.after, hs, Socket.pending])
      rw [hs] at hopen'
      exact .inr ⟨⟨.inl hopen', hheartbeat ▸ hpos', hheartbeat ▸ hdelay'⟩, hnot hg⟩
    | release hclosed htimer =>
      rcases hlive' with hopen' | hpending'
      · cases hclosed.symm.trans hopen'
      · simp [Timers.after, Socket.pending, htimer] at hpending'

/-- An open client whose timer is not pending runs the function of the timer, or has yet to arm it for an open
    packet. -/
theorem heartbeat_owned (ht : timers.Reach slack RecordsLive t) (hopen : t.pool.shared.sock.state = .open)
    (hpos : 0 < t.pool.shared.sock.heartbeat) (hpending : ¬ t.pool.shared.sock.pending = true) :
    ∃ i, (t.started i ()).isSome = true ∨ (t.pool.thread i).unarmed = true := by
  refine ht.served (k := ()) (O := fun g => g.unarmed = true)
    (H := fun w => w.sock.state = .open ∧ 0 < w.sock.heartbeat ∧ ¬ w.sock.pending = true) ?_ ?_
    ⟨hopen, hpos, hpending⟩
  · rintro w ⟨upgrade, remember, tryAll, transports, rfl⟩ ⟨h, -⟩
    cases h
  · rintro t i a w' g' ht hC hx ⟨hopen', hpos', hpending'⟩
    cases exec_watch hx with
    | other htimer hheartbeat hopen hg =>
      refine .inr (.inr ⟨⟨(hopen hopen').1, hheartbeat ▸ hpos', ?_⟩, fun hunarmed => ?_, fun hserves => ?_⟩)
      · rwa [Socket.pending, ← htimer]
      · exact absurd (hg.symm.trans (Goroutine.rearms_of_unarmed hunarmed)) (by decide)
      · exact absurd (hserves.symm.trans (hopen hopen').2) (by decide)
    | record p hpc hs hg' => exact .inr (.inl (hg' (hC.at_recordOpen hpc).2))
    | rearm conn _ hs =>
      rw [hs, heartbeat_reschedule] at hpos'
      rw [hs] at hpending'
      exact absurd (reschedule_pending conn hpos') hpending'
    | fire timer ha htimer hf => exact .inl (by simp [timers, ha, Socket.pending, htimer, hf])
    | release hclosed => cases hclosed.symm.trans hopen'

end EngineIo.Client
