import EngineIo.Client.Switchover

set_option autoImplicit false

/-! # What the sections do to the session and to the transports

Two views of a step of `Client/Switchover.lean`, from which the invariants of a run are derived.

* `SessionStep` is the life of the session: who may close the socket, who tears it down, who calls
  the close handler.
* `Touch` is the life of one transport: whose handlers it has, whether it is closed, and to whom it
  has reported. -/

namespace EngineIo.Client.Switchover

/-! ## The session -/

/-- What concerns the closing of the socket. -/
structure Session where
  state : SocketState
  transport : Option Transport
  closeCalled : Bool
  closeRuns : Nat

def World.session (w : World) : Session :=
  { state := w.sock.state, transport := w.sock.transport, closeCalled := w.closeCalled,
    closeRuns := w.closeRuns }

/-- The part a frame plays in closing the socket: a call of `Close` that has not claimed the closing
    transition, a failure or close on its way to `onClose`, or the rest of a teardown, whose last
    frame calls the close handler. -/
inductive Role
  | bystander
  | claimer
  | alarm
  | ticket
deriving DecidableEq

def Frame.role : Frame → Role
  | .beginClose | .beginCloseTransport => .claimer
  | .beginRetry | .beginTeardown => .alarm
  | .detachOpen _ | .detachClose _ | .detachPacket _ | .detachError _ | .closeHandler => .ticket
  | _ => .bystander

theorem Frame.role_of_waits {f : Frame} (h : f.waits = true) : f.role = .bystander := by
  cases f <;> simp_all [Frame.waits, Frame.role]

/-- What one section does to the session, and which frames it leaves. -/
inductive SessionStep (s : Session) : Frame → Session → List Frame → Prop
  | pass {f fs} (hf : f.role = .bystander)
      (hfs : ∀ g ∈ fs, g.role = .bystander ∨ g.role = .alarm) : SessionStep s f s fs
  | call {f} (hf : f.role = .bystander) :
      SessionStep s f { s with closeCalled := true } [.beginClose]
  | decline {f} (hf : f.role = .claimer) (hs : s.state.active = false) : SessionStep s f s []
  | proceed {fs} (hmem : .beginCloseTransport ∈ fs)
      (hfs : ∀ g ∈ fs, g.role = .bystander ∨ g.role = .claimer) : SessionStep s .beginClose s fs
  | claim (hs : s.state.active = true) :
      SessionStep s .beginCloseTransport { s with state := .closing }
        (s.transport.map fun t => Frame.close t.id).toList
  | retry : SessionStep s .beginRetry s [.beginTeardown]
  | teardown {g} (hs : s.state.live = true) (hg : g.role = .ticket) :
      SessionStep s .beginTeardown { s with state := .closed, transport := none } [g]
  | torn (hs : s.state.live = false) : SessionStep s .beginTeardown s []
  | detach {f g} (hf : f.role = .ticket) (fs) (hfs : ∀ g ∈ fs, g.role = .bystander)
      (hg : g.role = .ticket) : SessionStep s f s (fs ++ [g])
  | notify : SessionStep s .closeHandler { s with closeRuns := s.closeRuns + 1 } []
  | adopt {t} (hs : s.state = .open) :
      SessionStep s (.probe (.adoptTransport t)) { s with transport := some ⟨t, .websocket⟩ }
        [.probe (.bindPacket t)]

variable {w w' : World} {f : Frame} {pc : ProbeFrame} {a : Choice} {fs : List Frame}

/-! Setting a field of a transport leaves everything else. -/

@[simp]
theorem World.modify_object (t u : Nat) (g : TransportObject → TransportObject) :
    (w.modify t g).object u = if u = t then g (w.object t) else w.object u := by
  simp [World.modify, Function.update_apply]

@[simp]
theorem World.modify_session (t : Nat) (g : TransportObject → TransportObject) :
    (w.modify t g).session = w.session := rfl

@[simp]
theorem World.modify?_session (t : Option Transport) (g : TransportObject → TransportObject) :
    (w.modify? t g).session = w.session := by
  cases t with
  | none => rfl
  | some t => rfl

/-- A section of a bystander that leaves the session alone. -/
theorem SessionStep.of_session (hs : w'.session = w.session) (hf : f.role = .bystander)
    (hfs : ∀ g ∈ fs, g.role = .bystander ∨ g.role = .alarm) :
    SessionStep w.session f w'.session fs := by
  rw [hs]
  exact .pass hf hfs

/-- A handler of a transport passes the socket nothing but an alarm. -/
theorem Handler.frames_role {h : Handler} {socket : Frame} {t : Nat} (hs : socket.role = .alarm) :
    ∀ g ∈ h.frames socket t, g.role = .bystander ∨ g.role = .alarm := by
  cases h with
  | unset => simp [Handler.frames]
  | socket => simp [Handler.frames, hs]
  | probe => simp [Handler.frames, Frame.role]

theorem execFlush_session (h : execFlush w f a = some (w', fs)) :
    SessionStep w.session f w'.session fs := by
  revert h
  fun_cases execFlush w f a <;> intro h <;> cases h
  case case2 s hs =>
    obtain ⟨-, rfl⟩ := Socket.send_eq_some.1 hs
    exact .of_session rfl rfl (of_decide_eq_true rfl)
  case case4 s t es m hs =>
    obtain ⟨-, rfl, -, -⟩ := Socket.beginFlush_eq_some.1 hs
    exact .of_session rfl rfl (of_decide_eq_true rfl)
  case case9 s hs | case10 s hs =>
    obtain ⟨-, rfl⟩ := Socket.endFlush_eq_some hs
    exact .of_session rfl rfl (of_decide_eq_true rfl)
  all_goals exact .of_session rfl rfl (of_decide_eq_true rfl)

theorem execSocket_session (h : execSocket w f a = some (w', fs)) :
    SessionStep w.session f w'.session fs := by
  revert h
  fun_cases execSocket w f a <;> intro h <;> cases h
  case case1 hs =>
    refine .decline rfl (Bool.eq_false_iff.2 fun hactive => ?_)
    simp [Socket.beginClose, show w.sock.state.active = true from hactive] at hs
  case case2 | case3 => exact .proceed (by simp) (by simp [Frame.role])
  case case4 hs => exact .decline rfl (Socket.beginCloseTransport_eq_none.1 hs)
  case case5 | case6 =>
    rename_i hs
    obtain ⟨hactive, rfl, ht⟩ := Socket.beginCloseTransport_eq_some.1 hs
    have hstep := SessionStep.claim (s := w.session) hactive
    rw [show (w.session.transport.map fun t => Frame.close t.id).toList = _ by
      simp only [World.session, ← ht]; rfl] at hstep
    exact hstep
  case case8 s hs =>
    obtain ⟨-, rfl⟩ := Socket.beginRetry_eq_false hs
    exact .retry
  case case9 hs => exact .torn (Socket.beginTeardown_eq_none.1 hs)
  case case10 | case11 =>
    rename_i hs
    obtain ⟨hlive, rfl, -⟩ := Socket.beginTeardown_eq_some.1 hs
    exact .teardown hlive rfl
  case case12 | case13 | case14 => exact .detach rfl [] (by simp) rfl
  case case15 t => exact .detach rfl [.close t] (by simp [Frame.role]) rfl
  case case16 => exact .notify
  case case21 => exact .call rfl
  all_goals exact .of_session rfl rfl (of_decide_eq_true rfl)

theorem execTransport_session (h : execTransport w f a = some (w', fs)) :
    SessionStep w.session f w'.session fs := by
  revert h
  fun_cases execTransport w f a <;> intro h <;> cases h
  case case3 | case4 =>
    refine .pass rfl ?_
    unfold World.closeRest
    split <;> simp [Frame.role]
  case case12 => exact .pass rfl (Handler.frames_role rfl)
  case case14 => exact .pass rfl (List.forall_mem_cons.2 ⟨.inl rfl, Handler.frames_role rfl⟩)
  case case15 => exact .pass rfl (Handler.frames_role rfl)
  all_goals exact .of_session rfl rfl (of_decide_eq_true rfl)

theorem execLoop_session (h : execLoop w f a = some (w', fs)) :
    SessionStep w.session f w'.session fs := by
  revert h
  fun_cases execLoop w f a <;> intro h <;> cases h
  all_goals exact .of_session rfl rfl (of_decide_eq_true rfl)

theorem execProbe_session (h : execProbe w pc a = some (w', fs)) :
    SessionStep w.session (.probe pc) w'.session fs := by
  revert h
  fun_cases execProbe w pc a <;> intro h <;> cases h
  case case9 t s old hs =>
    obtain ⟨-, rfl, -⟩ := Socket.beginUpgrade_eq_some.1 hs
    exact .of_session rfl rfl (of_decide_eq_true rfl)
  case case30 t s hs =>
    obtain ⟨hopen, rfl⟩ := Socket.adoptTransport_eq_some.1 hs
    exact .adopt hopen
  case case10 | case11 | case12 | case18 | case19 =>
    exact .of_session (World.modify?_session _ _) rfl (of_decide_eq_true rfl)
  all_goals exact .of_session rfl rfl (of_decide_eq_true rfl)

/-- **Sessions.** Every section is a step of the session. -/
theorem exec_session (h : exec w f a = some (w', fs)) :
    SessionStep w.session f w'.session fs := by
  cases runs_of_exec h with
  | probe h => exact execProbe_session h
  | flush h => exact execFlush_session h
  | socket h => exact execSocket_session h
  | transport h => exact execTransport_session h
  | loop h => exact execLoop_session h

/-- The session between two sections. -/
structure Session.Sound (s : Session) : Prop where
  settled : s.state ≠ .opening
  transport : s.transport = none ↔ s.state = .closed
  runs : s.closeRuns ≤ 1
  notRun : s.state ≠ .closed → s.closeRuns = 0

/-- A teardown that is not over keeps the socket closed and owes the close handler its call. -/
def Session.Owes (s : Session) (f : Frame) : Prop :=
  f.role = .ticket → s.state = .closed ∧ s.closeRuns = 0

theorem SocketState.active_iff {st : SocketState} (h : st ≠ .opening) :
    st.active = true ↔ st = .open := by
  cases st <;> simp_all [SocketState.active]

theorem SocketState.live_iff {st : SocketState} : st.live = true ↔ st ≠ .closed := by
  cases st <;> simp [SocketState.live]

variable {s s' : Session}

theorem SessionStep.sound (h : SessionStep s f s' fs) (hs : s.Sound) (hf : s.Owes f) :
    s'.Sound := by
  cases h with
  | pass | decline | proceed | retry | torn | detach => exact hs
  | call => exact ⟨hs.settled, hs.transport, hs.runs, hs.notRun⟩
  | claim hactive =>
    have hopen := (SocketState.active_iff hs.settled).1 hactive
    refine ⟨by simp, ?_, hs.runs, fun _ => hs.notRun (by simp [hopen])⟩
    simp [hs.transport, hopen]
  | teardown hlive _ =>
    have hrun := hs.notRun (SocketState.live_iff.1 hlive)
    exact ⟨by simp, by simp, by simp [hrun], by simp⟩
  | notify =>
    obtain ⟨hclosed, hrun⟩ := hf rfl
    exact ⟨hs.settled, hs.transport, by simp [hrun], by simp [hclosed]⟩
  | adopt hopen => exact ⟨hs.settled, by simp [hopen], hs.runs, hs.notRun⟩

/-- Pairs of frames of which at most one is the rest of a teardown. -/
def Alone (f m : Frame) : Prop := f.role ≠ .ticket ∨ m.role ≠ .ticket

theorem pairwise_alone (h : ∀ g ∈ fs, g.role ≠ .ticket) : fs.Pairwise Alone :=
  List.pairwise_of_forall_mem_list fun g hg _ _ => .inl (h g hg)

/-- The frames left by a section: at most one ticket, left by a ticket or by a teardown. -/
theorem SessionStep.tickets (h : SessionStep s f s' fs) (hs : s.Sound) (hf : s.Owes f) :
    fs.Pairwise Alone ∧ ∀ g ∈ fs, g.role = .ticket →
      (s'.state = .closed ∧ s'.closeRuns = 0) ∧ (f.role = .ticket ∨ s.state ≠ .closed) := by
  have none_of : (∀ g ∈ fs, g.role ≠ .ticket) → fs.Pairwise Alone ∧ ∀ g ∈ fs, g.role = .ticket →
      (s'.state = .closed ∧ s'.closeRuns = 0) ∧ (f.role = .ticket ∨ s.state ≠ .closed) :=
    fun hno => ⟨pairwise_alone hno, fun g hg hticket => absurd hticket (hno g hg)⟩
  cases h with
  | pass _ hfs => exact none_of fun g hg => by rcases hfs g hg with h | h <;> simp [h]
  | call | retry => exact none_of (by simp [Frame.role])
  | decline | torn | notify => exact none_of (by simp)
  | proceed _ hfs => exact none_of fun g hg => by rcases hfs g hg with h | h <;> simp [h]
  | claim => exact none_of (by cases s.transport <;> simp [Frame.role])
  | adopt => exact none_of (by simp [Frame.role])
  | teardown hlive _ =>
    have hopen := SocketState.live_iff.1 hlive
    exact ⟨List.pairwise_singleton .., fun g _ _ => ⟨⟨rfl, hs.notRun hopen⟩, .inr hopen⟩⟩
  | detach hticket fs hfs hg =>
    have hno : ∀ m ∈ fs, m.role ≠ .ticket := fun m hm => by simp [hfs m hm]
    refine ⟨List.pairwise_append.2 ⟨pairwise_alone hno, List.pairwise_singleton ..,
      fun m hm _ _ => .inl (hno m hm)⟩, fun _ _ _ => ⟨hf hticket, .inl hticket⟩⟩

theorem SessionStep.owes (h : SessionStep s f s' fs) {m : Frame} (hm : s.Owes m)
    (hfm : Alone f m) : s'.Owes m := by
  intro hticket
  obtain ⟨hclosed, hrun⟩ := hm hticket
  cases h with
  | pass | decline | proceed | retry | torn | detach | call => exact ⟨hclosed, hrun⟩
  | claim hactive => simp [hclosed, SocketState.active] at hactive
  | teardown hlive => simp [hclosed, SocketState.live] at hlive
  | notify => exact absurd rfl (hfm.resolve_right (not_not.2 hticket))
  | adopt hopen => simp [hclosed] at hopen

/-- A call leaves the session alone, but for `Close` being called. -/
theorem start_session (h : start w a = some (w', fs)) :
    (∃ called, w'.session = { w.session with closeCalled := called } ∧
      (called = true → w.closeCalled = true ∨ .beginClose ∈ fs)) ∧
    ∀ g ∈ fs, g.role = .bystander ∨ g.role = .claimer := by
  revert h
  fun_cases start w a <;> intro h <;> cases h
  case case1 => exact ⟨⟨true, rfl, by simp⟩, by simp [Frame.role]⟩
  all_goals exact ⟨⟨w.closeCalled, rfl, .inl⟩, by simp [Frame.role]⟩

open Concurrency in
/-- The session is sound in every run, and a teardown owes the close handler its one call. -/
theorem reach_session {C : World → Option Frame → Choice → Prop} {c : Pool World (List Frame)}
    (h : frames.program.Reach (Frames.When C) c) :
    c.shared.session.Sound ∧ ∀ i, ∀ f ∈ c.thread i, c.shared.session.Owes f := by
  have hout := Frames.outline (I := fun w => w.session.Sound) (J := fun w f => w.session.Owes f)
    (K := Alone) (fun _ _ => Or.symm) ?_ ?_ ?_ h
  · exact ⟨hout.1, hout.2.1⟩
  · rintro w ⟨hstate, htransport, -, -, -, hw⟩
    refine ⟨by simp [World.session, hstate], by simp [World.session, hstate, htransport], ?_, ?_⟩
    · rw [hw]; exact Nat.zero_le _
    · rw [hw]; exact fun _ => rfl
  · intro w a w' fs _ hs hx
    obtain ⟨⟨called, heq, -⟩, hroles⟩ := start_session hx
    have hno : ∀ g ∈ fs, g.role ≠ .ticket := fun g hg => by
      rcases hroles g hg with h | h <;> simp [h]
    rw [heq]
    exact ⟨⟨hs.settled, hs.transport, hs.runs, hs.notRun⟩, fun g hg h => absurd h (hno g hg),
      pairwise_alone hno, fun m hm => ⟨hm, fun g hg => .inl (hno g hg)⟩⟩
  · intro w f a w' fs _ hs hf hx
    have hstep := exec_session hx
    obtain ⟨hpair, hnew⟩ := hstep.tickets hs hf
    refine ⟨hstep.sound hs hf, fun g hg hticket => (hnew g hg hticket).1, hpair, fun m hm hfm =>
      ⟨hstep.owes hm hfm, fun g hg => ?_⟩⟩
    -- a second ticket would have kept the socket closed, or would have met the first one
    by_cases hticket : g.role = .ticket
    · refine .inr fun hmticket => ?_
      rcases (hnew g hg hticket).2 with hf | hopen
      · exact hfm.elim (· hf) (· hmticket)
      · exact hopen (hm hmticket).1
    · exact .inl hticket

/-! ## The transports -/

/-- Frames of `probeUpgrades`, counting the one that starts it. -/
def Frame.prober : Frame → Bool
  | .goProbe | .probe _ => true
  | _ => false

/-- The transport a probe is about to adopt. -/
def ProbeFrame.probing : ProbeFrame → Option Nat
  | .awaitPong t | .pong t | .detachOpen t _ | .detachClose t _ | .detachError t _ | .drain t _
  | .sendUpgrade t _ | .beginPause t _ | .pauseLock t _ | .pauseMark t _ | .pauseUnlock t
  | .pauseWait t | .adoptTransport t => some t
  | _ => none

def Frame.probing : Frame → Option Nat
  | .probe pc => pc.probing
  | _ => none

theorem TransportObject.report_heard {h : Handler} {o : TransportObject} :
    (o.report h).heard = (o.heard || h = .socket) := by
  unfold TransportObject.report
  split
  next hs => simp [hs]
  next hs => simp [hs]

/-- The transport whose handlers a probe is taking away, having failed. -/
def Frame.discards : Frame → Option Nat
  | .discardOpen t | .discardClose t | .discardError t | .discardPacket t => some t
  | _ => none

/-- The frames that take the error handler from the transport `u`. -/
def Frame.DetachesError (f : Frame) (u : Nat) : Prop :=
  f.role = .ticket ∨ f.discards = some u ∨ ∃ t old, f = .probe (.detachError t old)

/-- The frames that take the close handler from the transport `u`. -/
def Frame.DetachesClose (f : Frame) (u : Nat) : Prop :=
  f.role = .ticket ∨ f.discards = some u ∨ ∃ t old, f = .probe (.detachClose t old)

/-- What a section of the frame `f` makes of the transport `u`. -/
inductive Touch (w : World) (f : Frame) (u : Nat) : TransportObject → Prop
  | same : Touch w f u (w.object u)
  | dial (hf : f.prober = true) (hu : u = w.made) {o} (ho : o.heard = false)
      (hc : o.onClose = .probe) (he : o.onError = .probe) : Touch w f u o
  | detach {o} (hstate : o.state = (w.object u).state) (hheard : o.heard = (w.object u).heard)
      (hmissed : o.missed = (w.object u).missed)
      (hc : o.onClose = (w.object u).onClose ∨ o.onClose = .unset ∧ f.DetachesClose u)
      (he : o.onError = (w.object u).onError ∨ o.onError = .unset ∧ f.DetachesError u) :
      Touch w f u o
  | attach (hf : f.prober = true) (hp : f.probing = none) {o}
      (hstate : o.state = (w.object u).state) (hheard : o.heard = (w.object u).heard)
      (hmissed : o.missed = (w.object u).missed)
      (hc : o.onClose = (w.object u).onClose ∨ o.onClose = .socket)
      (he : o.onError = (w.object u).onError ∨ o.onError = .socket) : Touch w f u o
  | setState {st} (hs : st ≠ .closed) : Touch w f u { w.object u with state := st }
  | error (hf : f = .onError u) : Touch w f u ((w.object u).report (w.object u).onError)
  | close (hf : f = .onClose u) (hs : (w.object u).state ≠ .closed) :
      Touch w f u { (w.object u).report (w.object u).onClose with state := .closed }

theorem Touch.of_modify {t u : Nat} {g : TransportObject → TransportObject}
    (h : Touch w f t (g (w.object t))) : Touch w f u ((w.modify t g).object u) := by
  rw [World.modify_object]
  split
  next hu => rwa [hu]
  next => exact .same

theorem Touch.of_modify? {t : Option Transport} {u : Nat} {g : TransportObject → TransportObject}
    (h : ∀ t, Touch w f t (g (w.object t))) : Touch w f u ((w.modify? t g).object u) := by
  cases t with
  | none => exact .same
  | some t => exact .of_modify (h t.id)

theorem execFlush_object (h : execFlush w f a = some (w', fs)) : w'.object = w.object := by
  revert h
  fun_cases execFlush w f a <;> intro h <;> cases h <;> rfl

theorem execLoop_object (h : execLoop w f a = some (w', fs)) : w'.object = w.object := by
  revert h
  fun_cases execLoop w f a <;> intro h <;> cases h <;> rfl

theorem execSocket_touch (h : execSocket w f a = some (w', fs)) (u : Nat) :
    Touch w f u (w'.object u) := by
  revert h
  fun_cases execSocket w f a <;> intro h <;> cases h
  case case12 | case14 => exact .of_modify (.detach rfl rfl rfl (.inl rfl) (.inl rfl))
  case case13 => exact .of_modify (.detach rfl rfl rfl (.inr ⟨rfl, .inl rfl⟩) (.inl rfl))
  case case15 => exact .of_modify (.detach rfl rfl rfl (.inl rfl) (.inr ⟨rfl, .inl rfl⟩))
  all_goals exact .same

theorem execTransport_touch (h : execTransport w f a = some (w', fs)) (u : Nat) :
    Touch w f u (w'.object u) := by
  revert h
  fun_cases execTransport w f a <;> intro h <;> cases h
  case case7 => exact .of_modify (.setState (by simp))
  case case12 t hs => exact .of_modify (.close rfl hs)
  case case14 t hs => exact .of_modify (.close rfl (not_or.1 hs).1)
  case case15 => exact .of_modify (.error rfl)
  case case18 | case21 => exact .of_modify (.detach rfl rfl rfl (.inl rfl) (.inl rfl))
  case case19 => exact .of_modify (.detach rfl rfl rfl (.inr ⟨rfl, .inr (.inl rfl)⟩) (.inl rfl))
  case case20 => exact .of_modify (.detach rfl rfl rfl (.inl rfl) (.inr ⟨rfl, .inr (.inl rfl)⟩))
  all_goals exact .same

theorem execProbe_touch (h : execProbe w pc a = some (w', fs)) (u : Nat) :
    Touch w (.probe pc) u (w'.object u) := by
  revert h
  fun_cases execProbe w pc a <;> intro h <;> cases h
  case case10 => exact .of_modify? fun _ => .detach rfl rfl rfl (.inl rfl) (.inl rfl)
  case case11 =>
    exact .of_modify? fun _ =>
      .detach rfl rfl rfl (.inr ⟨rfl, .inr (.inr ⟨_, _, rfl⟩)⟩) (.inl rfl)
  case case12 =>
    exact .of_modify? fun _ =>
      .detach rfl rfl rfl (.inl rfl) (.inr ⟨rfl, .inr (.inr ⟨_, _, rfl⟩)⟩)
  case case18 => exact .of_modify? fun _ => .attach rfl rfl rfl rfl rfl (.inl rfl) (.inr rfl)
  case case19 => exact .of_modify? fun _ => .attach rfl rfl rfl rfl rfl (.inr rfl) (.inl rfl)
  case case2 =>
    rw [World.modify_object]
    split
    next hu => exact .dial rfl hu rfl rfl rfl
    next => exact .same
  case case21 | case25 => exact .of_modify (.setState (by simp))
  case case31 => exact .of_modify (.attach rfl rfl rfl rfl rfl (.inl rfl) (.inl rfl))
  case case32 => exact .of_modify (.attach rfl rfl rfl rfl rfl (.inl rfl) (.inr rfl))
  case case33 => exact .of_modify (.attach rfl rfl rfl rfl rfl (.inr rfl) (.inl rfl))
  all_goals exact .same

/-- **Transports.** Every section touches a transport in one of these ways. -/
theorem exec_touch (h : exec w f a = some (w', fs)) (u : Nat) : Touch w f u (w'.object u) := by
  cases runs_of_exec h with
  | probe h => exact execProbe_touch h u
  | flush h => exact execFlush_object h ▸ .same
  | socket h => exact execSocket_touch h u
  | transport h => exact execTransport_touch h u
  | loop h => exact execLoop_object h ▸ .same

/-- Only a new transport has its history cleared. -/
theorem Touch.heard_mono {u : Nat} {o : TransportObject} (h : Touch w f u o) (hu : u ≠ w.made)
    (hheard : (w.object u).heard = true) : o.heard = true := by
  cases h with
  | same | setState => exact hheard
  | dial _ hmade => exact absurd hmade hu
  | detach _ hh => exact hh.trans hheard
  | attach _ _ _ hh => exact hh.trans hheard
  | error => simp [TransportObject.report_heard, hheard]
  | close => simp [TransportObject.report_heard, hheard]

/-- A transport is closed by `onClose`, which reports to the close handler. -/
theorem Touch.closed {u : Nat} {o : TransportObject} (h : Touch w f u o) (hu : u ≠ w.made)
    (ho : o.state = .closed) :
    (w.object u).state = .closed ∨
      f = .onClose u ∧ ((w.object u).onClose = .socket → o.heard = true) := by
  cases h with
  | same => exact .inl ho
  | dial _ hmade => exact absurd hmade hu
  | detach hs => exact .inl (hs ▸ ho)
  | attach _ _ hs => exact .inl (hs ▸ ho)
  | setState hs => exact absurd ho hs
  | error =>
    refine .inl ?_
    unfold TransportObject.report at ho
    split at ho <;> exact ho
  | close hf => exact .inr ⟨hf, fun hsocket => by simp [TransportObject.report_heard, hsocket]⟩

/-! ## One probe at a time -/

/-- A transport that has not reported to the socket, and would not. -/
structure TransportObject.Unheard (o : TransportObject) : Prop where
  heard : o.heard = false
  onError : o.onError ≠ .socket
  onClose : o.onClose ≠ .socket

theorem TransportObject.Unheard.report {o : TransportObject} (ho : o.Unheard) {h : Handler}
    (hh : h ≠ .socket) : (o.report h).Unheard := by
  unfold TransportObject.report
  rw [if_neg hh]
  exact ⟨ho.heard, ho.onError, ho.onClose⟩

/-- Only a probe that has its outcome gives a transport the socket's handlers. -/
theorem Touch.unheard {u : Nat} {o : TransportObject} (h : Touch w f u o)
    (hf : f.prober = false ∨ f.probing ≠ none) (hu : (w.object u).Unheard) : o.Unheard := by
  obtain ⟨hheard, herror, hclose⟩ := hu
  cases h with
  | same => exact ⟨hheard, herror, hclose⟩
  | dial hf hu ho hc he => exact ⟨ho, by simp [he], by simp [hc]⟩
  | detach _ hh _ hc he =>
    refine ⟨hh.trans hheard, ?_, ?_⟩
    · rcases he with he | ⟨he, -⟩ <;> simp [he, herror]
    · rcases hc with hc | ⟨hc, -⟩ <;> simp [hc, hclose]
  | attach hp hn => simp [hp, hn] at hf
  | setState => exact ⟨hheard, herror, hclose⟩
  | error => exact TransportObject.Unheard.report ⟨hheard, herror, hclose⟩ herror
  | close =>
    obtain ⟨hr, he, hc⟩ := TransportObject.Unheard.report ⟨hheard, herror, hclose⟩ hclose
    exact ⟨hr, he, hc⟩

/-- What tells whether `probeUpgrades` runs, and what it has constructed. -/
structure Launch where
  dispatch : Bool
  probes : Bool
  made : Nat

def World.launch (w : World) : Launch :=
  { dispatch := w.dispatch, probes := w.probes, made := w.made }

theorem World.modify?_launch (t : Option Transport) (g : TransportObject → TransportObject) :
    (w.modify? t g).launch = w.launch := by
  cases t with
  | none => rfl
  | some t => rfl

theorem Handler.frames_prober {h : Handler} {socket : Frame} {t : Nat}
    (hs : socket.prober = false) : ∀ g ∈ h.frames socket t, g.prober = false := by
  cases h with
  | unset => simp [Handler.frames]
  | socket => simp [Handler.frames, hs]
  | probe => simp [Handler.frames, Frame.prober]

theorem execTransport_launch (h : execTransport w f a = some (w', fs)) :
    w'.launch = w.launch ∧ ∀ g ∈ fs, g.prober = false := by
  revert h
  fun_cases execTransport w f a <;> intro h <;> cases h
  case case3 | case4 =>
    refine ⟨rfl, ?_⟩
    unfold World.closeRest
    split <;> simp [Frame.prober]
  case case12 | case15 => exact ⟨rfl, Handler.frames_prober rfl⟩
  case case14 => exact ⟨rfl, List.forall_mem_cons.2 ⟨rfl, Handler.frames_prober rfl⟩⟩
  all_goals exact ⟨rfl, of_decide_eq_true rfl⟩

/-- A section of another goroutine neither starts a probe nor dials. -/
theorem exec_launch (hf : f.prober = false) (h : exec w f a = some (w', fs)) :
    w'.launch = w.launch ∧ ∀ g ∈ fs, g.prober = false := by
  cases runs_of_exec h with
  | probe => cases hf
  | flush h =>
    revert h
    fun_cases execFlush w f a <;> intro h <;> cases h
    all_goals exact ⟨rfl, of_decide_eq_true rfl⟩
  | socket h =>
    revert h
    fun_cases execSocket w f a <;> intro h <;> cases h
    case socket.case23 | socket.case24 => cases hf
    all_goals exact ⟨rfl, of_decide_eq_true rfl⟩
  | transport h => exact execTransport_launch h
  | loop h =>
    revert h
    fun_cases execLoop w f a <;> intro h <;> cases h
    all_goals exact ⟨rfl, of_decide_eq_true rfl⟩

/-- Pairs of frames of which at most one belongs to `probeUpgrades`. -/
def Apart (f m : Frame) : Prop := f.prober = false ∨ m.prober = false

/-- A probe goes on with its transport, until it dials the next one. -/
theorem execProbe_launch (h : execProbe w pc a = some (w', fs)) :
    fs.Pairwise Apart ∧
      ((w'.launch = w.launch ∧ ∀ g ∈ fs, ∀ t, g.probing = some t → pc.probing = some t) ∨
        (w'.launch = { w.launch with made := w.made + 1 } ∧ fs = [.probe (.awaitPong w.made)] ∧
          (w'.object w.made).Unheard)) := by
  have hover : ∀ {l : List Frame} {pc : ProbeFrame}, l.all (·.probing.isNone) = true →
      ∀ g ∈ l, ∀ t, g.probing = some t → pc.probing = some t := by
    intro l pc hl g hg t ht
    have hnone := List.all_eq_true.1 hl g hg
    rw [ht] at hnone
    cases hnone
  revert h
  fun_cases execProbe w pc a <;> intro h <;> cases h
  case case2 =>
    refine ⟨by simp, .inr ⟨rfl, rfl, ?_⟩⟩
    rw [World.modify_object, if_pos rfl]
    exact ⟨rfl, by simp, by simp⟩
  case case10 | case11 | case12 | case18 =>
    exact ⟨List.pairwise_singleton _ _, .inl ⟨World.modify?_launch _ _,
      List.forall_mem_singleton.2 fun _ h => h⟩⟩
  -- the probe is over
  case case19 =>
    exact ⟨by simp [Apart, Frame.prober], .inl ⟨World.modify?_launch _ _, hover rfl⟩⟩
  case case1 | case3 | case4 | case5 | case8 | case16 | case29 | case30 | case33 =>
    exact ⟨by simp [Apart, Frame.prober], .inl ⟨rfl, hover rfl⟩⟩
  all_goals
    exact ⟨List.pairwise_singleton _ _, .inl ⟨rfl, List.forall_mem_singleton.2 fun _ h => h⟩⟩

/-- `probeUpgrades` is started at most once, and the transport of the socket has been made. -/
structure World.Launched (w : World) : Prop where
  once : w.dispatch = true → w.probes = false
  made : ∀ t, w.sock.transport = some t → t.id < w.made

/-- A frame of `probeUpgrades` uses up the start, and a transport being probed is not the socket's
    yet. -/
structure World.Probes (w : World) (f : Frame) : Prop where
  started : f.prober = true → w.dispatch = false ∧ w.probes = false
  probing : ∀ t, f.probing = some t → t < w.made ∧ (w.object t).Unheard

theorem Frame.prober_of_probing {f : Frame} {t : Nat} (h : f.probing = some t) : f.prober = true := by
  cases f <;> simp_all [Frame.probing, Frame.prober]

/-- The transport of the socket changes only by adoption. -/
theorem SessionStep.transport (h : SessionStep s f s' fs) {t : Transport}
    (ht : s'.transport = some t) : s.transport = some t ∨ f = .probe (.adoptTransport t.id) := by
  cases h with
  | teardown => simp at ht
  | adopt => simp only [Option.some.injEq] at ht; exact .inr (by rw [← ht])
  | _ => exact .inl ht

/-- Until the teardown, an alarm stays one. -/
theorem SessionStep.alarm (h : SessionStep s f s' fs) (hs : s'.state ≠ .closed) :
    s.state ≠ .closed ∧ (f.role ≠ .alarm ∨ ∃ g ∈ fs, g.role = .alarm) := by
  cases h with
  | pass hf | call hf | decline hf | detach hf => exact ⟨hs, .inl (by simp [hf])⟩
  | proceed => exact ⟨hs, .inl (by simp [Frame.role])⟩
  | claim hactive =>
    refine ⟨fun hc => ?_, .inl (by simp [Frame.role])⟩
    simp [hc, SocketState.active] at hactive
  | retry => exact ⟨hs, .inr ⟨_, List.mem_singleton.2 rfl, rfl⟩⟩
  | teardown => simp at hs
  | torn hlive => simp [SocketState.live_iff.2 hs] at hlive
  | notify => exact ⟨hs, .inl (by simp [Frame.role])⟩
  | adopt => exact ⟨hs, .inl (by simp [Frame.role])⟩

/-- The socket starts closing by `Close`, which goes on to close the transport. -/
theorem SessionStep.closing (h : SessionStep s f s' fs) (hs : s'.state = .closing) :
    s'.transport = s.transport ∧ (s.state = .closing ∨ s.state.active = true ∧
      f = .beginCloseTransport ∧ fs = (s.transport.map fun t => Frame.close t.id).toList) := by
  cases h with
  | claim hactive => exact ⟨rfl, .inr ⟨hactive, rfl, rfl⟩⟩
  | teardown => simp at hs
  | adopt hopen => simp [hopen] at hs
  | _ => exact ⟨rfl, .inl hs⟩

theorem World.Launched.of_launch (hw : w.Launched) (h : w'.launch = w.launch)
    (ht : ∀ t, w'.sock.transport = some t → w.sock.transport = some t ∨ t.id < w.made) :
    w'.Launched := by
  simp only [World.launch, Launch.mk.injEq] at h
  obtain ⟨hd, hp, hm⟩ := h
  exact ⟨by rw [hd, hp]; exact hw.once, fun t h => hm ▸ (ht t h).elim (hw.made t) id⟩

theorem World.Probes.of_launch {m : Frame} (hw : w.Probes m) (h : w'.launch = w.launch)
    (hu : ∀ t, m.probing = some t → (w.object t).Unheard → (w'.object t).Unheard) : w'.Probes m := by
  simp only [World.launch, Launch.mk.injEq] at h
  obtain ⟨hd, hp, hm⟩ := h
  exact ⟨by rw [hd, hp]; exact hw.started,
    fun t ht => ⟨hm ▸ (hw.probing t ht).1, hu t ht (hw.probing t ht).2⟩⟩

theorem World.Probes.of_not_prober (h : f.prober = false) : w.Probes f :=
  ⟨by simp [h], fun t ht => by simp [Frame.prober_of_probing ht] at h⟩

theorem World.launched_of_start (hw : w.Launched) (h : start w a = some (w', fs)) :
    w'.Launched ∧ (∀ f ∈ fs, w'.Probes f) ∧ fs.Pairwise Apart ∧
      ∀ m, w.Probes m → w'.Probes m ∧ ∀ f ∈ fs, Apart f m := by
  obtain ⟨honce, hmade⟩ := hw
  revert h
  fun_cases start w a <;> intro h <;> cases h
  case case3 ps hd =>
    -- `goProbe` comes with the end of the handshake's dispatch
    refine ⟨⟨by simp, hmade⟩, ?_, by simp [Apart, Frame.prober], fun m hm => ?_⟩
    · simp only [List.mem_cons, List.not_mem_nil, or_false, forall_eq_or_imp, forall_eq]
      exact ⟨.of_not_prober rfl, ⟨fun _ => ⟨rfl, honce hd.1⟩, by simp [Frame.probing]⟩,
        .of_not_prober rfl, .of_not_prober rfl⟩
    · have hno : m.prober = false := Bool.eq_false_iff.2 fun h => by simpa [hd.1] using (hm.started h).1
      exact ⟨.of_not_prober hno, fun f _ => .inr hno⟩
  case case7 hp =>
    refine ⟨⟨by simp, hmade⟩, ?_, by simp, fun m hm => ?_⟩
    · simp only [List.mem_singleton, forall_eq]
      refine ⟨fun _ => ⟨?_, rfl⟩, by simp [Frame.probing, ProbeFrame.probing]⟩
      exact Bool.eq_false_iff.2 fun hd => by simp [honce hd] at hp
    · have hno : m.prober = false := Bool.eq_false_iff.2 fun h => by simpa [hp] using (hm.started h).2
      exact ⟨.of_not_prober hno, fun f _ => .inr hno⟩
  all_goals
    refine ⟨⟨honce, hmade⟩, ?_, by simp, fun m hm => ⟨⟨hm.started, hm.probing⟩, ?_⟩⟩
    · simp only [List.mem_singleton, forall_eq]
      exact .of_not_prober rfl
    · simp [Apart, Frame.prober]

theorem exec_goProbe (h : exec w .goProbe a = some (w', fs)) :
    w'.dispatch = w.dispatch ∧ w'.sock = w.sock ∧ w'.made = w.made ∧ fs = [] := by
  cases a
  case go | probeUpgrades =>
    cases h
    exact ⟨rfl, rfl, rfl, rfl⟩
  all_goals cases h

/-- The prober's own sections. -/
theorem World.launched_of_execProbe (hw : w.Launched) (hf : w.Probes (.probe pc))
    (h : execProbe w pc a = some (w', fs)) :
    w'.Launched ∧ (∀ f ∈ fs, w'.Probes f) := by
  obtain ⟨hd, hp⟩ := hf.started rfl
  have htransport : ∀ t, w'.sock.transport = some t → t.id < w.made := by
    intro t ht
    rcases (execProbe_session h).transport (t := t) ht with hold | hadopt
    · exact hw.made t hold
    · exact (hf.probing t.id (by rw [hadopt]; rfl)).1
  rcases (execProbe_launch h).2 with ⟨hsame, hnext⟩ | ⟨hdial, rfl, hunheard⟩
  · refine ⟨hw.of_launch hsame fun t ht => .inr (htransport t ht), fun g hg => ?_⟩
    simp only [World.launch, Launch.mk.injEq] at hsame
    refine ⟨fun _ => by simp [hsame, hd, hp], fun t ht => ?_⟩
    obtain ⟨hlt, hun⟩ := hf.probing t (hnext g hg t ht)
    exact ⟨hsame.2.2 ▸ hlt, (execProbe_touch h t).unheard (.inr (by simp [Frame.probing, hnext g hg t ht])) hun⟩
  · simp only [World.launch, Launch.mk.injEq] at hdial
    refine ⟨⟨fun h => by simp [hdial, hp], fun t ht => ?_⟩, ?_⟩
    · exact hdial.2.2 ▸ Nat.lt_succ_of_lt (htransport t ht)
    · simp only [List.mem_singleton, forall_eq]
      refine ⟨fun _ => by simp [hdial, hd, hp], fun t ht => ?_⟩
      obtain rfl : w.made = t := by simpa [Frame.probing, ProbeFrame.probing] using ht
      exact ⟨by omega, hunheard⟩

open Concurrency in
/-- There is one prober, and the transport it probes has reported nothing to the socket. -/
theorem reach_launch {C : World → Option Frame → Choice → Prop} {c : Pool World (List Frame)}
    (h : frames.program.Reach (Frames.When C) c) :
    c.shared.Launched ∧ (∀ i, ∀ f ∈ c.thread i, c.shared.Probes f) ∧
      (∀ i, (c.thread i).Pairwise Apart) ∧
      ∀ i j, i ≠ j → ∀ f ∈ c.thread i, ∀ m ∈ c.thread j, Apart f m := by
  refine Frames.outline (fun _ _ => Or.symm) ?_ ?_ ?_ h
  · rintro w ⟨-, htransport, -, -, -, hw⟩
    refine ⟨fun _ => by rw [hw], fun t ht => ?_⟩
    obtain rfl : ⟨0, .polling⟩ = t := by simpa [htransport] using ht
    rw [hw]; exact Nat.one_pos
  · exact fun w a w' fs _ hw hx => World.launched_of_start hw hx
  · intro w f a w' fs _ hw hf hx
    cases hprober : f.prober with
    | false =>
      obtain ⟨hsame, hnone⟩ := exec_launch hprober hx
      refine ⟨hw.of_launch hsame fun t ht => ?_, fun g hg => .of_not_prober (hnone g hg),
        List.pairwise_of_forall_mem_list fun g hg _ _ => .inl (hnone g hg), fun m hm _ =>
        ⟨hm.of_launch hsame fun t _ => (exec_touch hx t).unheard (.inl hprober),
          fun g hg => .inl (hnone g hg)⟩⟩
      refine .inl (((exec_session hx).transport (t := t) ht).resolve_right fun hadopt => ?_)
      simp [hadopt, Frame.prober] at hprober
    | true =>
      -- every other frame is not of the prober
      have hby : ∀ m, Apart f m → w'.Probes m ∧ ∀ g ∈ fs, Apart g m := fun m hm =>
        have hno := hm.resolve_left (by simp [hprober])
        ⟨.of_not_prober hno, fun g _ => .inr hno⟩
      cases f
      case probe pc =>
        obtain ⟨hw', hnew⟩ := World.launched_of_execProbe hw hf hx
        exact ⟨hw', hnew, (execProbe_launch hx).1, fun m _ hm => hby m hm⟩
      case goProbe =>
        obtain ⟨hd, -⟩ := hf.started rfl
        obtain ⟨hd', hs', hm', rfl⟩ := exec_goProbe hx
        exact ⟨⟨by simp [hd', hd], by rw [hs', hm']; exact hw.made⟩, by simp, .nil,
          fun m _ hm => hby m hm⟩
      all_goals simp [Frame.prober] at hprober

/-! ## What the socket has heard -/

theorem exec_onError {u : Nat} (h : exec w (.onError u) a = some (w', fs)) :
    fs = (w.object u).onError.frames .beginRetry u := by
  cases a
  case go => cases h; rfl
  all_goals cases h

theorem exec_onClose {u : Nat} (h : exec w (.onClose u) a = some (w', fs)) :
    (w.object u).state = .closed ∨
      ∃ pre, fs = pre ++ (w.object u).onClose.frames .beginTeardown u := by
  by_cases hs : (w.object u).state = .closed
  · exact .inl hs
  · right
    cases a
    case go =>
      simp only [exec, execTransport, if_neg hs, Option.some.injEq, Prod.mk.injEq] at h
      exact ⟨[], h.2.symm⟩
    case failed =>
      simp only [exec, execTransport, hs, false_or, Option.ite_none_left_eq_some, Option.some.injEq,
        Prod.mk.injEq] at h
      exact ⟨[.onError u], h.2.2.symm⟩
    all_goals cases h

/-- A report to the socket leaves the frame that acts on it. -/
theorem exec_heard (h : exec w f a = some (w', fs)) {u : Nat} (hu : (w'.object u).heard = true) :
    (w.object u).heard = true ∨ ∃ g ∈ fs, g.role = .alarm := by
  have htouch := exec_touch h u
  generalize w'.object u = o at htouch hu
  cases htouch with
  | same => exact .inl hu
  | dial _ _ ho => simp [ho] at hu
  | detach _ hh => exact .inl (hh ▸ hu)
  | attach _ _ _ hh => exact .inl (hh ▸ hu)
  | setState => exact .inl hu
  | error hf =>
    rw [TransportObject.report_heard, Bool.or_eq_true, decide_eq_true_eq] at hu
    refine hu.imp_right fun hsocket => ⟨.beginRetry, ?_, rfl⟩
    subst hf
    rw [exec_onError h, hsocket]
    exact List.mem_singleton.2 rfl
  | close hf hs =>
    replace hu : ((w.object u).report (w.object u).onClose).heard = true := hu
    rw [TransportObject.report_heard, Bool.or_eq_true, decide_eq_true_eq] at hu
    refine hu.imp_right fun hsocket => ⟨.beginTeardown, ?_, rfl⟩
    obtain ⟨pre, hfs⟩ := (exec_onClose (hf ▸ h)).resolve_left hs
    rw [hfs, hsocket]
    exact List.mem_append_right _ (List.mem_singleton.2 rfl)

theorem start_object (h : start w a = some (w', fs)) : w'.object = w.object := by
  revert h
  fun_cases start w a <;> intro h <;> cases h <;> rfl

open Concurrency in
/-- As long as the socket has not been torn down, what it has heard of its transport is still being
    acted upon. -/
theorem heard_alarm {C : World → Option Frame → Choice → Prop} {c : Pool World (List Frame)}
    (h : frames.program.Reach (Frames.When C) c) {t : Transport}
    (ht : c.shared.sock.transport = some t) (hheard : (c.shared.object t.id).heard = true) :
    ∃ i, ∃ f ∈ c.thread i, f.role = .alarm := by
  refine Frames.owner (H := fun w => w.sock.state ≠ .closed ∧ ∃ t, w.sock.transport = some t ∧
    (w.object t.id).heard = true) (O := fun f => f.role = .alarm) ?_ ?_ ?_ h
    ⟨fun hc => ?_, t, ht, hheard⟩
  · rintro w ⟨-, htransport, -, -, -, hw⟩ ⟨-, t, ht, hheard⟩
    obtain rfl : ⟨0, .polling⟩ = t := by simpa [htransport] using ht
    rw [hw] at hheard
    simp [established] at hheard
  · rintro w a w' fs hx ⟨hs, t, ht, hheard⟩
    obtain ⟨⟨called, hsession, -⟩, -⟩ := start_session hx
    simp only [World.session, Session.mk.injEq] at hsession
    rw [start_object hx] at hheard
    exact .inl ⟨hsession.1 ▸ hs, t, hsession.2.1 ▸ ht, hheard⟩
  · rintro c i f rest a w' fs hc hi - hx ⟨hs, t, ht, hheard⟩
    rcases exec_heard hx hheard with hold | hnew
    · obtain ⟨hlive, halarm⟩ := (exec_session hx).alarm hs
      refine halarm.imp_left fun hf => ⟨⟨hlive, t, ?_, hold⟩, hf⟩
      refine ((exec_session hx).transport (t := t) ht).resolve_right fun hadopt => ?_
      -- a transport that is adopted has not been heard of
      have hprobes := (reach_launch hc).2.1 i f (by rw [hi]; exact List.mem_cons_self ..)
      have hun := (hprobes.probing t.id (by rw [hadopt]; rfl)).2.heard
      simp [hun] at hold
    · exact .inr hnew
  · exact absurd ht (by rw [show c.shared.sock.transport = none from
      (reach_session h).1.transport.2 hc]; simp)

end EngineIo.Client.Switchover
