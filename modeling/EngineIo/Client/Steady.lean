import EngineIo.Client.Counters

set_option autoImplicit false

/-! # The goroutines of a client that stays open

As long as the socket stays open and the network does not fail, a goroutine is one of a few things: a
call, the poll loop, the dispatch of a response, the probe, or the read loop of the websocket, with the
calls and callbacks it is in on top (`Stack`).

What `Pause` is for is part of this (`View.Drained`): when the websocket is adopted the polling
transport has been closed, or it is paused with no dispatch left, so that no poll awaits a response and
no response still holds a message. -/

namespace EngineIo.Client.Switchover

open Concurrency

variable {w w' : World} {f : Frame} {pc : ProbeFrame} {a : Choice} {fs l l' : List Frame}

/-! ## What a goroutine is -/

/-- A response that closes the transport carries nothing else. -/
def CloseAlone (ps : List Packet) : Prop := ∀ p ∈ ps, p.type = .close → ps = [p]

/-- Runs in which the socket stays open and the network does not fail: a frame of the adopted
    websocket decodes, and is not a close packet. -/
structure Steady (w : World) (l : List Frame) (a : Choice) : Prop where
  stays : frames.program.Stays (fun w => w.sock.state = .open) w l a
  polled : ∀ ps, a = .polled (.body (some ps)) ∨ a = .handshake ps → CloseAlone ps
  reads : ∀ t, l.head? = some (.read t) → a = .go ∨ ∃ p, a = .frame (some p) ∧ p.type ≠ .close

/-- What decides where a packet goes. -/
structure View where
  object : Nat → TransportObject
  transport : Option Transport
  pollWG : Nat
  dispatch : Bool
  probes : Bool
  made : Nat

def World.view (w : World) : View :=
  { object := w.object, transport := w.sock.transport, pollWG := w.pollWG, dispatch := w.dispatch,
    probes := w.probes, made := w.made }

/-- The polling transport is the socket's, and has not been paused. -/
def View.Unpaused (v : View) : Prop :=
  v.transport = some ⟨0, .polling⟩ ∧ ((v.object 0).state = .open ∨ (v.object 0).state = .closed)

/-- No further poll is sent. -/
def View.Stopped (v : View) : Prop := (v.object 0).state = .paused ∨ (v.object 0).state = .closed

/-- Nothing more comes from the polling transport. -/
def View.Drained (v : View) : Prop :=
  (v.object 0).state = .closed ∨ (v.object 0).state = .paused ∧ v.pollWG = 0

theorem View.Drained.stopped {v : View} (h : v.Drained) : v.Stopped :=
  h.elim .inr fun h => .inl h.1

/-- The messages a frame holds that the message handler has not seen. -/
def Frame.messages : Frame → List Packet
  | .onPacket _ p | .handlePacket p => EngineIo.messages [p]
  | .onData ps => EngineIo.messages ps
  | _ => []

def held (l : List Frame) : List Packet := l.flatMap Frame.messages

/-- Frames of `Send`, `Close` and `flush`, and of an error or a close on its way to the socket. -/
def Frame.inert : Frame → Bool
  | .beginClose | .beginCloseTransport | .beginRetry | .beginTeardown | .send _ | .beginFlush
  | .sendChunks _ _ | .endFlush _ _ => true
  | _ => false

/-- Frames that bring a packet of the transport `t` to the message handler. -/
def Frame.Carries (t : Nat) (f : Frame) : Prop := ∃ p, f = .onPacket t p ∨ f = .handlePacket p

/-- Frames that get rid of a transport other than the polling transport. -/
def Frame.tidies : Frame → Bool
  | .discardOpen t | .discardClose t | .discardError t | .discardPacket t | .close t | .closeSend t
  | .closeBegin t | .closeLock t | .onClose t | .onError t => t ≠ 0
  | .closeUnlock => true
  | _ => false

/-- What a probe relies on. -/
def ProbeFrame.Holds (v : View) : ProbeFrame → Prop
  | .next => v.Unpaused
  | .awaitPong t | .pong t => t ≠ 0 ∧ v.Unpaused
  | .detachOpen t old | .detachClose t old | .detachError t old | .drain t old | .sendUpgrade t old
  | .abandonUpgrade t old | .restoreError t old | .restoreClose t old | .beginPause t old =>
    t ≠ 0 ∧ old = some ⟨0, .polling⟩ ∧ v.Unpaused
  | .pauseLock t old | .pauseMark t old => t ≠ 0 ∧ old = 0
  | .pauseUnlock t | .pauseWait t => t ≠ 0 ∧ v.Stopped
  | .adoptTransport t | .bindPacket t => t ≠ 0 ∧ v.Drained
  | .bindError t | .bindClose t => t ≠ 0 ∧ v.Drained ∧ (v.object t).onPacket = .socket

/-- The stacks of a steady run. -/
inductive Stack (v : View) : List Frame → Prop
  | calls {l : List Frame} (hl : ∀ f ∈ l, f.inert = true) : Stack v l
  | poll {f : Frame} (hf : f = .pollLock ∨ f = .pollCheck) : Stack v [f]
  | request (h : ¬ v.Stopped) : Stack v [.pollRequest]
  | dispatch (top : List Frame) {ps : List Packet}
      (htop : ∀ f ∈ top, f.inert = true ∨ f.Carries 0 ∨ f = .goProbe ∨ f = .onClose 0)
      (hgo : .goProbe ∈ top → v.Unpaused) (halone : CloseAlone ps)
      (hclosed : .onClose 0 ∈ top ∨ (v.object 0).state = .closed →
        held (top ++ [Frame.onData ps]) = []) :
      Stack v (top ++ [Frame.onData ps, .pollDone])
  | done (top : List Frame) (htop : ∀ f ∈ top, f.inert = true ∨ f = .onError 0) :
      Stack v (top ++ [Frame.pollDone])
  | tidy (top : List Frame) (htop : ∀ f ∈ top, f.inert = true ∨ f.tidies = true) (h : v.Unpaused) :
      Stack v (top ++ [Frame.probe .next])
  | probe {pc : ProbeFrame} (h : pc.Holds v) : Stack v [.probe pc]
  | read (top : List Frame) {t : Nat} (ht : t ≠ 0) (hpacket : (v.object t).onPacket = .socket) (hdrained : v.Drained)
      (htop : ∀ f ∈ top, f.inert = true ∨ f.Carries t) : Stack v (top ++ [Frame.read t])

/-- The polling transport of a steady run. -/
structure View.Sound (v : View) : Prop where
  type : (v.object 0).type = .polling
  onPacket : (v.object 0).onPacket = .socket
  onError : (v.object 0).onError ≠ .probe
  onClose : (v.object 0).onClose ≠ .probe
  fresh : v.dispatch = true → (v.object 0).state = .open
  pending : v.dispatch = true ∨ v.probes = true → v.Unpaused
  made : v.made ≠ 0

/-! ## What the frames do -/

theorem execFlush_inert (h : execFlush w f a = some (w', fs)) :
    w'.view = w.view ∧ ∀ g ∈ fs, g.inert = true := by
  revert h
  fun_cases execFlush w f a <;> intro h <;> cases h
  case case2 s hs =>
    obtain ⟨-, rfl⟩ := Socket.send_eq_some.1 hs
    exact ⟨rfl, of_decide_eq_true rfl⟩
  case case4 s t es m hs =>
    obtain ⟨-, rfl, -, -⟩ := Socket.beginFlush_eq_some.1 hs
    exact ⟨rfl, of_decide_eq_true rfl⟩
  case case9 s hs | case10 s hs =>
    obtain ⟨-, rfl⟩ := Socket.endFlush_eq_some hs
    exact ⟨rfl, of_decide_eq_true rfl⟩
  all_goals exact ⟨rfl, of_decide_eq_true rfl⟩

/-- As long as the socket stays open, nothing comes of a call but further ones. -/
theorem exec_inert (hf : f.inert = true) (h : exec w f a = some (w', fs))
    (hopen' : w'.sock.state = .open) : w'.view = w.view ∧ ∀ g ∈ fs, g.inert = true := by
  have hsocket : execSocket w f a = some (w', fs) → w'.view = w.view ∧ ∀ g ∈ fs, g.inert = true := by
    fun_cases execSocket w f a <;> intro h <;> cases h
    case case5 hs | case6 hs =>
      obtain ⟨-, rfl, -⟩ := Socket.beginCloseTransport_eq_some.1 hs
      simp at hopen'
    case case8 s hs =>
      obtain ⟨-, rfl⟩ := Socket.beginRetry_eq_false hs
      exact ⟨rfl, of_decide_eq_true rfl⟩
    case case10 hs | case11 hs =>
      obtain ⟨-, rfl, -⟩ := Socket.beginTeardown_eq_some.1 hs
      simp at hopen'
    case case12 | case13 | case14 | case15 | case16 | case24 => simp [Frame.inert] at hf
    all_goals exact ⟨rfl, of_decide_eq_true rfl⟩
  cases f
  case beginClose | beginCloseTransport | beginRetry | beginTeardown => exact hsocket h
  case send | beginFlush | sendChunks | endFlush => exact execFlush_inert h
  all_goals simp [Frame.inert] at hf

theorem exec_handlePacket {p : Packet} (h : exec w (.handlePacket p) a = some (w', fs)) :
    w'.view = w.view ∧ ∀ g ∈ fs, g.inert = true := by
  cases a
  case go =>
    simp only [exec, execSocket] at h
    split at h <;> cases h <;> exact ⟨rfl, of_decide_eq_true rfl⟩
  case send | close =>
    simp only [exec, execSocket, Option.ite_none_right_eq_some] at h
    obtain ⟨-, h⟩ := h
    cases h
    exact ⟨rfl, of_decide_eq_true rfl⟩
  all_goals cases h

theorem exec_onPacket {t : Nat} {p : Packet} (hp : (w.object t).onPacket = .socket)
    (h : exec w (.onPacket t p) a = some (w', fs)) : w' = w ∧ fs = [.handlePacket p] := by
  cases a
  case go =>
    simp only [exec, execTransport, if_pos hp, Option.some.injEq, Prod.mk.injEq] at h
    exact ⟨h.1.symm, h.2.symm⟩
  all_goals cases h

/-- The same transport, for all that its state and its history may have become. -/
structure TransportObject.Like (o o' : TransportObject) : Prop where
  type : o'.type = o.type
  onPacket : o'.onPacket = o.onPacket
  onError : o'.onError = o.onError
  onClose : o'.onClose = o.onClose

theorem TransportObject.report_like (h : Handler) (o : TransportObject) : o.Like (o.report h) := by
  unfold TransportObject.report
  split <;> exact ⟨rfl, rfl, rfl, rfl⟩

/-- Exchange a transport. -/
def View.set (v : View) (t : Nat) (o : TransportObject) : View :=
  { v with object := Function.update v.object t o }

theorem View.set_self (v : View) (t : Nat) : v.set t (v.object t) = v := by
  simp [View.set]

@[simp]
theorem View.set_object (v : View) (t u : Nat) (o : TransportObject) :
    (v.set t o).object u = if u = t then o else v.object u := by
  simp [View.set, Function.update_apply]

theorem World.modify_view (t : Nat) (g : TransportObject → TransportObject) :
    (w.modify t g).view = w.view.set t (g (w.object t)) := rfl

theorem Handler.frames_inert {h : Handler} {socket : Frame} {t : Nat} (hs : socket.inert = true)
    (hh : h ≠ .probe) : ∀ g ∈ h.frames socket t, g.inert = true := by
  cases h with
  | unset => simp [Handler.frames]
  | socket => simp [Handler.frames, hs]
  | probe => exact absurd rfl hh

/-- The polling transport closes. -/
theorem exec_onClose_polling (hI : w.view.Sound) (h : exec w (.onClose 0) a = some (w', fs)) :
    (∃ o, w'.view = w.view.set 0 o ∧ o.state = .closed ∧ (w.object 0).Like o) ∧
      ∀ g ∈ fs, g.inert = true := by
  have htype : (w.object 0).type = .polling := hI.type
  cases a
  case go =>
    simp only [exec, execTransport] at h
    split at h
    · next hs =>
      cases h
      exact ⟨⟨w.object 0, (w.view.set_self 0).symm, hs, ⟨rfl, rfl, rfl, rfl⟩⟩, by simp⟩
    · cases h
      obtain ⟨h1, h2, h3, h4⟩ := TransportObject.report_like (w.object 0).onClose (w.object 0)
      exact ⟨⟨_, World.modify_view _ _, rfl, ⟨h1, h2, h3, h4⟩⟩,
        Handler.frames_inert rfl hI.onClose⟩
  case failed => simp [exec, execTransport, htype] at h
  all_goals cases h

/-- The polling transport reports an error. -/
theorem exec_onError_polling (hI : w.view.Sound) (h : exec w (.onError 0) a = some (w', fs)) :
    (∃ o, w'.view = w.view.set 0 o ∧ o.state = (w.object 0).state ∧ (w.object 0).Like o) ∧
      ∀ g ∈ fs, g.inert = true := by
  cases a
  case go =>
    cases h
    refine ⟨⟨_, World.modify_view _ _, ?_, TransportObject.report_like ..⟩,
      Handler.frames_inert rfl hI.onError⟩
    unfold TransportObject.report
    split <;> rfl
  all_goals cases h

theorem Handler.frames_tidies {h : Handler} {socket : Frame} {t : Nat} (hs : socket.inert = true)
    (ht : t ≠ 0) : ∀ g ∈ h.frames socket t, g.inert = true ∨ g.tidies = true := by
  cases h with
  | unset => simp [Handler.frames]
  | socket => simp [Handler.frames, hs]
  | probe => simp [Handler.frames, Frame.tidies, ht]

/-- Getting rid of another transport leaves the polling transport alone. -/
theorem exec_tidies (hf : f.tidies = true) (h : exec w f a = some (w', fs)) :
    (∃ t o, t ≠ 0 ∧ w'.view = w.view.set t o) ∧ ∀ g ∈ fs, g.inert = true ∨ g.tidies = true := by
  have hsame : ∃ t o, t ≠ 0 ∧ w.view = w.view.set t o :=
    ⟨1, w.object 1, by decide, (w.view.set_self 1).symm⟩
  have htransport : execTransport w f a = some (w', fs) → (∃ t o, t ≠ 0 ∧ w'.view = w.view.set t o) ∧
      ∀ g ∈ fs, g.inert = true ∨ g.tidies = true := by
    fun_cases execTransport w f a <;> intro h <;> cases h
    case case16 | case17 => simp [Frame.tidies] at hf
    case case3 | case4 =>
      refine ⟨hsame, ?_⟩
      unfold World.closeRest
      split <;> simp_all [Frame.tidies]
    case case12 | case15 =>
      have ht := of_decide_eq_true hf
      exact ⟨⟨_, _, ht, World.modify_view _ _⟩, Handler.frames_tidies rfl ht⟩
    case case14 =>
      have ht := of_decide_eq_true hf
      exact ⟨⟨_, _, ht, World.modify_view _ _⟩,
        List.forall_mem_cons.2 ⟨.inr hf, Handler.frames_tidies rfl ht⟩⟩
    case case7 | case18 | case19 | case20 | case21 =>
      exact ⟨⟨_, _, of_decide_eq_true hf, World.modify_view _ _⟩,
        by simpa [Frame.tidies, Frame.inert] using hf⟩
    all_goals exact ⟨hsame, by simp_all [Frame.tidies]⟩
  cases f
  case discardOpen | discardClose | discardError | discardPacket | close | closeSend | closeBegin
    | closeLock | closeUnlock | onClose | onError => exact htransport h
  all_goals simp [Frame.tidies] at hf

/-! ## What one goroutine does to the others -/

/-- What a section of a goroutine with the stack `l` does to the view. -/
inductive Change (v v' : View) (l : List Frame) : Prop
  | quiet (hstate : (v'.object 0).state = (v.object 0).state)
      (hpacket : ∀ t, (v'.object t).onPacket = (v.object t).onPacket)
      (htransport : v'.transport = v.transport) (hwg : v'.pollWG ≤ v.pollWG)
  | close (hl : 0 < Frames.units Frame.polls l) (hstate : (v'.object 0).state = .closed)
      (hpacket : ∀ t, (v'.object t).onPacket = (v.object t).onPacket)
      (htransport : v'.transport = v.transport)
  | respond (hl : 0 < Frames.units Frame.polls l) (h : ¬ v.Stopped) (hobject : v'.object = v.object)
      (htransport : v'.transport = v.transport)
  | probe (hl : 0 < Frames.units Frame.probes l)
      (hmark : v'.Stopped → v.Stopped ∨ 0 < Frames.units Frame.holdsPollMu l)
      (hclosed : (v'.object 0).state = .closed → (v.object 0).state = .closed)

variable {v v' : View} {m : List Frame}

theorem Change.refl : Change v v l := .quiet rfl (fun _ => rfl) rfl le_rfl

/-- What a probe, and the read loop after it, relies on survives the sections of other goroutines. -/
theorem Change.survives (h : Change v v' l) (hl : Frames.units Frame.probes l = 0) :
    (v.Unpaused → v'.Unpaused) ∧ (v.Stopped → v'.Stopped) ∧ (v.Drained → v'.Drained) ∧
      (v.Stopped → ∀ t, (v'.object t).onPacket = (v.object t).onPacket) := by
  cases h with
  | quiet hstate hpacket htransport hwg =>
    refine ⟨?_, ?_, ?_, fun _ => hpacket⟩
    · rintro ⟨ht, hs⟩
      exact ⟨htransport.trans ht, by rwa [hstate]⟩
    · intro hs
      unfold View.Stopped
      rwa [hstate]
    · rintro (hs | ⟨hs, h0⟩)
      · exact .inl (hstate.trans hs)
      · exact .inr ⟨hstate.trans hs, by omega⟩
  | close _ hstate hpacket htransport =>
    exact ⟨fun h => ⟨htransport.trans h.1, .inr hstate⟩, fun _ => .inr hstate, fun _ => .inl hstate,
      fun _ => hpacket⟩
  | respond _ hrunning hobject htransport =>
    refine ⟨?_, fun h => absurd h hrunning, fun h => absurd h.stopped hrunning,
      fun h => absurd h hrunning⟩
    rintro ⟨ht, hs⟩
    exact ⟨htransport.trans ht, by rwa [hobject]⟩
  | probe hpos => omega

theorem ProbeFrame.Holds.survives (hpc : pc.Holds v) (h : Change v v' l)
    (hl : Frames.units Frame.probes l = 0) : pc.Holds v' := by
  obtain ⟨hunpaused, hstopped, hdrained, hpacket⟩ := h.survives hl
  cases pc
  case next => exact hunpaused hpc
  case awaitPong | pong => exact ⟨hpc.1, hunpaused hpc.2⟩
  case pauseLock | pauseMark => exact hpc
  case pauseUnlock | pauseWait => exact ⟨hpc.1, hstopped hpc.2⟩
  case adoptTransport | bindPacket => exact ⟨hpc.1, hdrained hpc.2⟩
  case bindError | bindClose =>
    exact ⟨hpc.1, hdrained hpc.2.1, (hpacket hpc.2.1.stopped _).trans hpc.2.2⟩
  all_goals exact ⟨hpc.1, hpc.2.1, hunpaused hpc.2.2⟩

/-- A goroutine stays what it is while another one runs. -/
theorem Stack.bystander (hm : Stack v m) (h : Change v v' l)
    (hpolls : 0 < Frames.units Frame.polls l → Frames.units Frame.polls m = 0)
    (hmu : 0 < Frames.units Frame.holdsPollMu l → Frames.units Frame.holdsPollMu m = 0)
    (hprobes : 0 < Frames.units Frame.probes m → Frames.units Frame.probes l = 0) : Stack v' m := by
  cases hm with
  | calls hl => exact .calls hl
  | poll hf => exact .poll hf
  | request hrunning =>
    refine .request fun hstopped => ?_
    cases h with
    | quiet hstate =>
      unfold View.Stopped at hstopped
      rw [hstate] at hstopped
      exact hrunning hstopped
    | close hl => simp [Frame.polls] at hpolls; omega
    | respond hl => simp [Frame.polls] at hpolls; omega
    | probe _ hmark =>
      rcases hmark hstopped with hs | hs
      · exact hrunning hs
      · simp [Frame.holdsPollMu] at hmu; omega
  | @dispatch top ps htop hgo halone hclosed =>
    have hone : Frames.units Frame.polls (top ++ [Frame.onData ps, .pollDone]) ≠ 0 := by
      simp [Frame.polls]
    refine .dispatch top htop (fun hmem => ?_) halone ?_
    · have hpos := Frames.weight_le_units Frame.probes (List.mem_append_left [.onData ps, .pollDone] hmem)
      exact (h.survives (hprobes hpos)).1 (hgo hmem)
    · rintro (hmem | hs)
      · exact hclosed (.inl hmem)
      · cases h with
        | quiet hstate => exact hclosed (.inr (hstate ▸ hs))
        | close hl => exact absurd (hpolls hl) hone
        | respond hl => exact absurd (hpolls hl) hone
        | probe _ _ hc => exact hclosed (.inr (hc hs))
  | done top htop => exact .done top htop
  | tidy top htop hun =>
    exact .tidy top htop ((h.survives (hprobes (by simp [Frame.probes]))).1 hun)
  | probe hpc => exact .probe (hpc.survives h (hprobes (by simp [Frame.probes])))
  | read top ht hpacket hdrained htop =>
    obtain ⟨-, -, hdr, hpk⟩ := h.survives (hprobes (by simp [Frame.probes]))
    exact .read top ht ((hpk hdrained.stopped _).trans hpacket) (hdr hdrained) htop

/-! ## What a goroutine makes of itself -/

/-- What is not counted among the goroutines while it is pending. -/
structure Spare (w : World) (l : List Frame) : Prop where
  dispatch : w.dispatch = true → Frames.units Frame.polls l = 0
  probes : w.dispatch = true ∨ w.probes = true → Frames.units Frame.probes l = 0

/-- A goroutine with the stack `l` has run a section. -/
structure Kept (w w' : World) (l l' : List Frame) : Prop where
  sound : w'.view.Sound
  stack : Stack w'.view l'
  change : Change w.view w'.view l

theorem Kept.of_view (hI : w.view.Sound) (hview : w'.view = w.view) (h : Stack w.view l') :
    Kept w w' l l' :=
  ⟨hview ▸ hI, hview ▸ h, hview ▸ .refl⟩

theorem View.Sound.of_object (hI : v.Sound) {o : TransportObject} (htype : o.type = .polling)
    (hpacket : o.onPacket = .socket) (herror : o.onError ≠ .probe) (hclose : o.onClose ≠ .probe)
    (hfresh : v.dispatch = true → o.state = .open)
    (hpending : v.dispatch = true ∨ v.probes = true → o.state = .open ∨ o.state = .closed) :
    (v.set 0 o).Sound := by
  have h0 : (v.set 0 o).object 0 = o := by simp
  exact ⟨by rwa [h0], by rwa [h0], by rwa [h0], by rwa [h0], fun hd => h0 ▸ hfresh hd,
    fun hd => ⟨(hI.pending hd).1, h0 ▸ hpending hd⟩, hI.made⟩

theorem View.Sound.of_like (hI : v.Sound) {o : TransportObject} (hlike : (v.object 0).Like o)
    (hfresh : v.dispatch = true → o.state = .open)
    (hpending : v.dispatch = true ∨ v.probes = true → o.state = .open ∨ o.state = .closed) :
    (v.set 0 o).Sound :=
  hI.of_object (hlike.type.trans hI.type) (hlike.onPacket.trans hI.onPacket)
    (hlike.onError ▸ hI.onError) (hlike.onClose ▸ hI.onClose) hfresh hpending

theorem View.Sound.set (hI : v.Sound) {t : Nat} (ht : t ≠ 0) (o : TransportObject) :
    (v.set t o).Sound := by
  have h0 : (v.set t o).object 0 = v.object 0 := by simp [ht.symm]
  exact ⟨h0 ▸ hI.type, h0 ▸ hI.onPacket, h0 ▸ hI.onError, h0 ▸ hI.onClose, h0 ▸ hI.fresh,
    fun hd => ⟨(hI.pending hd).1, h0 ▸ (hI.pending hd).2⟩, hI.made⟩

/-- A call taken up by an idle goroutine. -/
theorem start_kept (hI : w.view.Sound) (ha : ∀ ps, a = .handshake ps → CloseAlone ps)
    (h : start w a = some (w', fs)) : Kept w w' [] fs := by
  revert h
  fun_cases start w a <;> intro h <;> cases h
  case case3 ps hd =>
    have hunpaused := hI.pending (.inl hd.1)
    have hopen := hI.fresh hd.1
    refine ⟨⟨hI.type, hI.onPacket, hI.onError, hI.onClose, fun h => (by cases h), fun h => ?_, hI.made⟩, ?_,
      .quiet rfl (fun _ => rfl) rfl le_rfl⟩
    · exact hI.pending (h.imp_left fun h => by cases h)
    · refine .dispatch [.beginFlush, .goProbe] (by simp [Frame.inert]) (fun _ => hunpaused)
        (ha ps rfl) fun h => ?_
      have hclosed : (w.object 0).state = .closed := h.resolve_left (by simp)
      rw [show (w.object 0).state = .open from hopen] at hclosed
      cases hclosed
  case case6 => exact .of_view hI rfl (.poll (.inl rfl))
  case case7 hp =>
    refine ⟨⟨hI.type, hI.onPacket, hI.onError, hI.onClose, hI.fresh, fun h => ?_, hI.made⟩, ?_,
      .quiet rfl (fun _ => rfl) rfl le_rfl⟩
    · exact hI.pending (h.imp_right fun h => by cases h)
    · exact .probe (hI.pending (.inr hp))
  all_goals exact .of_view hI rfl (.calls (by simp [Frame.inert]))

theorem held_cons (f : Frame) (l : List Frame) : held (f :: l) = f.messages ++ held l := rfl

theorem held_append (l m : List Frame) : held (l ++ m) = held l ++ held m := by
  simp [held]

theorem held_dispatch (p : Packet) (ps : List Packet) :
    held [Frame.onData (p :: ps)] = held ([Frame.onPacket 0 p] ++ [Frame.onData ps]) := by
  simp [held, Frame.messages, messages_cons p ps]

theorem Frame.messages_of_inert (hf : f.inert = true) : f.messages = [] := by
  cases f <;> simp_all [Frame.inert, Frame.messages]

theorem held_of_inert (hl : ∀ f ∈ l, f.inert = true) : held l = [] :=
  List.flatMap_eq_nil_iff.2 fun f hf => Frame.messages_of_inert (hl f hf)

theorem not_mem_of_inert (hl : ∀ f ∈ l, f.inert = true) (hf : f.inert = false) : f ∉ l := by
  intro hmem
  simp [hl f hmem] at hf

/-- The frames above a base, when the innermost of them has been replaced. -/
theorem forall_mem_replace {P : Frame → Prop} {rest : List Frame}
    (h : ∀ g ∈ f :: rest, P g) (hfs : ∀ g ∈ fs, P g) : ∀ g ∈ fs ++ rest, P g := by
  intro g hg
  rcases List.mem_append.1 hg with hg | hg
  · exact hfs g hg
  · exact h g (List.mem_cons_of_mem _ hg)

theorem exec_goProbe_view (h : exec w .goProbe a = some (w', fs)) :
    (w'.view = w.view ∨ w'.view = { w.view with probes := true }) ∧ fs = [] := by
  cases a
  case go => cases h; exact ⟨.inl rfl, rfl⟩
  case probeUpgrades => cases h; exact ⟨.inr rfl, rfl⟩
  all_goals cases h

theorem exec_pollLock (h : exec w .pollLock a = some (w', fs)) :
    w'.view = w.view ∧ fs = [.pollCheck] := by
  cases a
  case go =>
    simp only [exec, execLoop, Option.ite_none_left_eq_some, Option.some.injEq, Prod.mk.injEq] at h
    obtain ⟨-, rfl, rfl⟩ := h
    exact ⟨rfl, rfl⟩
  all_goals cases h

theorem exec_pollCheck (h : exec w .pollCheck a = some (w', fs)) :
    w'.view = w.view ∧ (fs = [] ∨ fs = [.pollRequest] ∧ ¬ w.view.Stopped) := by
  cases a
  case go =>
    simp only [exec, execLoop] at h
    split at h <;> cases h
    · next hs =>
      refine ⟨rfl, .inr ⟨rfl, ?_⟩⟩
      rintro (h | h) <;> rw [show (w.object 0).state = _ from h] at hs <;> simp at hs
    · exact ⟨rfl, .inl rfl⟩
  all_goals cases h

/-- The response is handed to the dispatch, or reported as an error. -/
theorem exec_pollRequest (h : exec w .pollRequest a = some (w', fs)) :
    w'.view = { w.view with pollWG := w.pollWG + 1 } ∧
      ((∃ ps, a = .polled (.body (some ps)) ∧ fs = [.onData ps, .pollDone]) ∨
        fs = [.onError 0, .pollDone] ∨ fs = [.pollDone]) := by
  cases a
  case polled r =>
    cases r with
    | failed => cases h; exact ⟨rfl, .inr (.inl rfl)⟩
    | empty => cases h; exact ⟨rfl, .inr (.inr rfl)⟩
    | body ps =>
      cases ps with
      | none => cases h; exact ⟨rfl, .inr (.inl rfl)⟩
      | some ps =>
        simp only [exec, execLoop, Option.ite_none_right_eq_some, Option.some.injEq,
          Prod.mk.injEq] at h
        obtain ⟨-, rfl, rfl⟩ := h
        exact ⟨rfl, .inl ⟨ps, rfl, rfl⟩⟩
  all_goals cases h

theorem exec_onData {ps : List Packet} (h : exec w (.onData ps) a = some (w', fs)) :
    w'.view = w.view ∧ (ps = [] ∧ fs = [] ∨ ∃ p qs, ps = p :: qs ∧
      (fs = [.onPacket 0 p, .onData qs] ∨
        p.type = .close ∧ fs = [.onClose 0, .onPacket 0 p, .onData qs])) := by
  cases a
  case go =>
    cases ps with
    | nil =>
      simp only [exec, execLoop] at h
      split at h <;> cases h <;> exact ⟨rfl, .inl ⟨rfl, rfl⟩⟩
    | cons p qs =>
      simp only [exec, execLoop] at h
      split at h <;> cases h
      · next hs => exact ⟨rfl, .inr ⟨p, qs, rfl, .inr ⟨hs.1, rfl⟩⟩⟩
      · exact ⟨rfl, .inr ⟨p, qs, rfl, .inl rfl⟩⟩
  all_goals cases ps <;> cases h

theorem exec_pollDone (h : exec w .pollDone a = some (w', fs)) :
    w'.view = { w.view with pollWG := w.pollWG - 1 } ∧ fs = [] := by
  cases a
  case go => cases h; exact ⟨rfl, rfl⟩
  all_goals cases h

theorem exec_read {t : Nat} (ha : a = .go ∨ ∃ p, a = .frame (some p) ∧ p.type ≠ .close)
    (h : exec w (.read t) a = some (w', fs)) :
    w' = w ∧ (fs = [] ∨ ∃ p, a = .frame (some p) ∧ fs = [.onPacket t p, .read t]) := by
  rcases ha with rfl | ⟨p, rfl, hp⟩
  · simp only [exec, execLoop, Option.ite_none_right_eq_some, Option.some.injEq,
      Prod.mk.injEq] at h
    exact ⟨h.2.1.symm, .inl h.2.2.symm⟩
  · simp only [exec, execLoop, if_neg hp, Option.ite_none_left_eq_some, Option.some.injEq,
      Prod.mk.injEq] at h
    exact ⟨h.2.1.symm, .inr ⟨p, rfl, h.2.2.symm⟩⟩

theorem CloseAlone.tail {p : Packet} {ps : List Packet} (h : CloseAlone (p :: ps)) :
    CloseAlone ps := by
  intro q hq hclose
  have heq := h q (List.mem_cons_of_mem _ hq) hclose
  obtain ⟨rfl, rfl⟩ : p = q ∧ ps = [] := by simpa using heq
  simp at hq

/-- The loop over the packets of a response. -/
theorem onData_kept {ps : List Packet} (halone : CloseAlone ps)
    (hclosed : (w.view.object 0).state = .closed → held [Frame.onData ps] = []) (hI : w.view.Sound)
    (hx : frames.step w [Frame.onData ps, .pollDone] a = some (w', l')) :
    Kept w w' [Frame.onData ps, .pollDone] l' := by
  obtain ⟨fs, hfs, rfl⟩ := Frames.step_cons hx
  obtain ⟨hview, ⟨rfl, rfl⟩ | ⟨p, qs, rfl, rfl | ⟨hp, rfl⟩⟩⟩ := exec_onData hfs
  · exact .of_view hI hview (.done [] (by simp))
  · refine .of_view hI hview (.dispatch [.onPacket 0 p] ?_ (by simp) halone.tail ?_)
    · exact fun f hf => .inr (.inl ⟨p, .inl (List.mem_singleton.1 hf)⟩)
    · intro h
      have hnil := hclosed (h.resolve_left (by simp))
      rwa [held_dispatch] at hnil
  · -- the close packet is the whole response
    obtain rfl : qs = [] := by simpa using halone p (List.mem_cons_self ..) hp
    refine .of_view hI hview (.dispatch [.onClose 0, .onPacket 0 p] ?_ (by simp)
      (by simp [CloseAlone]) fun _ => ?_)
    · simp [Frame.Carries]
    · have hmsg : p.type ≠ .message := by rw [hp]; decide
      simp [held, Frame.messages, EngineIo.messages, hmsg]

/-- The dispatch of a response. -/
theorem dispatch_kept {top : List Frame} {ps : List Packet}
    (htop : ∀ f ∈ top, f.inert = true ∨ f.Carries 0 ∨ f = .goProbe ∨ f = .onClose 0)
    (hgo : .goProbe ∈ top → w.view.Unpaused) (halone : CloseAlone ps)
    (hclosed : .onClose 0 ∈ top ∨ (w.view.object 0).state = .closed →
      held (top ++ [Frame.onData ps]) = [])
    (hI : w.view.Sound) (hspare : Spare w (top ++ [Frame.onData ps, .pollDone]))
    (hopen' : w'.sock.state = .open)
    (hx : frames.step w (top ++ [Frame.onData ps, .pollDone]) a = some (w', l')) :
    Kept w w' (top ++ [Frame.onData ps, .pollDone]) l' := by
  have hone : 0 < Frames.units Frame.polls (top ++ [Frame.onData ps, .pollDone]) := by
    simp [Frame.polls]
  cases top with
  | nil => exact onData_kept halone (fun h => hclosed (.inr h)) hI hx
  | cons f rest =>
    rw [List.cons_append] at hx
    obtain ⟨fs, hfs, rfl⟩ := Frames.step_cons hx
    have hrest : held (f :: rest ++ [Frame.onData ps]) = [] →
        held (rest ++ [Frame.onData ps]) = [] := by
      rw [List.cons_append, held_cons]
      exact fun h => (List.append_eq_nil_iff.1 h).2
    have hinert : (∀ g ∈ fs, g.inert = true) → ∀ g ∈ fs ++ rest,
        g.inert = true ∨ g.Carries 0 ∨ g = .goProbe ∨ g = .onClose 0 := fun h =>
      forall_mem_replace htop fun g hg => .inl (h g hg)
    -- frames that hold nothing have been put in the place of the innermost one
    have hreplaced : (∀ g ∈ fs, g.inert = true) →
        Stack w.view (fs ++ (rest ++ [Frame.onData ps, .pollDone])) := by
      intro hfs'
      rw [← List.append_assoc]
      refine .dispatch _ (hinert hfs') (fun h => hgo ?_) halone fun h => ?_
      · exact List.mem_cons_of_mem _
          ((List.mem_append.1 h).resolve_left (not_mem_of_inert hfs' rfl))
      · rw [List.append_assoc, held_append, held_of_inert hfs', List.nil_append]
        refine hrest (hclosed (h.imp_left fun h => ?_))
        exact List.mem_cons_of_mem _
          ((List.mem_append.1 h).resolve_left (not_mem_of_inert hfs' rfl))
    rcases htop f (List.mem_cons_self ..) with hf | ⟨p, rfl | rfl⟩ | rfl | rfl
    · obtain ⟨hview, hfs'⟩ := exec_inert hf hfs hopen'
      exact .of_view hI hview (hreplaced hfs')
    · obtain ⟨rfl, rfl⟩ := exec_onPacket hI.onPacket hfs
      refine .of_view hI rfl (.dispatch (.handlePacket p :: rest) ?_ ?_ halone ?_)
      · refine forall_mem_replace htop (show ∀ g ∈ [Frame.handlePacket p], _ from fun g hg => ?_)
        exact .inr (.inl ⟨p, .inr (List.mem_singleton.1 hg)⟩)
      · exact fun h => hgo (List.mem_cons_of_mem _ (by simpa using h))
      · intro h
        exact hclosed (h.imp_left fun h => List.mem_cons_of_mem _ (by simpa using h))
    · obtain ⟨hview, hfs'⟩ := exec_handlePacket hfs
      exact .of_view hI hview (hreplaced hfs')
    · obtain ⟨hview, rfl⟩ := exec_goProbe_view hfs
      have hunpaused := hgo (List.mem_cons_self ..)
      have hstack := hreplaced (by simp)
      rcases hview with hview | hview
      · exact .of_view hI hview hstack
      · refine ⟨hview ▸ ⟨hI.type, hI.onPacket, hI.onError, hI.onClose, hI.fresh, fun _ => hunpaused,
          hI.made⟩, ?_, hview ▸ .quiet rfl (fun _ => rfl) rfl le_rfl⟩
        exact hstack.bystander (l := []) (hview ▸ .quiet rfl (fun _ => rfl) rfl le_rfl) (by simp)
          (by simp) (by simp)
    · obtain ⟨⟨o, hview, ho, hlike⟩, hfs'⟩ := exec_onClose_polling hI hfs
      have hsound : (w.view.set 0 o).Sound :=
        hI.of_like hlike (fun hd => absurd (hspare.dispatch hd) hone.ne') fun _ => .inr ho
      refine ⟨hview ▸ hsound, hview ▸ ?_, hview ▸ .close hone (by simpa using ho) (fun t => ?_) rfl⟩
      · rw [← List.append_assoc]
        refine .dispatch _ (hinert hfs') (fun h => ⟨(hgo ?_).1, .inr (by simpa using ho)⟩) halone
          fun _ => ?_
        · exact List.mem_cons_of_mem _
            ((List.mem_append.1 h).resolve_left (not_mem_of_inert hfs' rfl))
        · rw [List.append_assoc, held_append, held_of_inert hfs', List.nil_append]
          exact hrest (hclosed (.inl (List.mem_cons_self ..)))
      · rw [View.set_object]
        split
        · next ht => rw [ht]; exact hlike.onPacket
        · rfl

/-- The end of a dispatch. -/
theorem done_kept {top : List Frame} (htop : ∀ f ∈ top, f.inert = true ∨ f = .onError 0)
    (hI : w.view.Sound) (hopen' : w'.sock.state = .open)
    (hx : frames.step w (top ++ [Frame.pollDone]) a = some (w', l')) :
    Kept w w' (top ++ [Frame.pollDone]) l' := by
  cases top with
  | nil =>
    obtain ⟨fs, hfs, rfl⟩ := Frames.step_cons hx
    obtain ⟨hview, rfl⟩ := exec_pollDone hfs
    exact ⟨hview ▸ ⟨hI.type, hI.onPacket, hI.onError, hI.onClose, hI.fresh, hI.pending, hI.made⟩,
      .calls (by simp), hview ▸ .quiet rfl (fun _ => rfl) rfl (Nat.sub_le _ _)⟩
  | cons f rest =>
    rw [List.cons_append] at hx
    obtain ⟨fs, hfs, rfl⟩ := Frames.step_cons hx
    have hstack : ∀ v : View, (∀ g ∈ fs, g.inert = true) →
        Stack v (fs ++ (rest ++ [Frame.pollDone])) := by
      intro v hfs'
      rw [← List.append_assoc]
      exact .done _ (forall_mem_replace htop fun g hg => .inl (hfs' g hg))
    rcases htop f (List.mem_cons_self ..) with hf | rfl
    · obtain ⟨hview, hfs'⟩ := exec_inert hf hfs hopen'
      exact .of_view hI hview (hstack _ hfs')
    · obtain ⟨⟨o, hview, ho, hlike⟩, hfs'⟩ := exec_onError_polling hI hfs
      refine ⟨hview ▸ hI.of_like hlike (fun hd => ho.trans (hI.fresh hd)) fun h => ?_,
        hstack _ hfs', hview ▸ .quiet ?_ (fun t => ?_) rfl le_rfl⟩
      · rw [ho]
        exact (hI.pending h).2
      · rw [View.set_object, if_pos rfl]
        exact ho
      · rw [View.set_object]
        split
        · next ht => rw [ht]; exact hlike.onPacket
        · rfl

/-- The read loop of the adopted websocket. -/
theorem read_kept {top : List Frame} {t : Nat} (ht : t ≠ 0)
    (hpacket : (w.view.object t).onPacket = .socket) (hdrained : w.view.Drained)
    (htop : ∀ f ∈ top, f.inert = true ∨ f.Carries t) (hI : w.view.Sound)
    (hst : Steady w (top ++ [Frame.read t]) a) (hopen' : w'.sock.state = .open)
    (hx : frames.step w (top ++ [Frame.read t]) a = some (w', l')) :
    Kept w w' (top ++ [Frame.read t]) l' := by
  have hstack : ∀ top : List Frame, (∀ f ∈ top, f.inert = true ∨ f.Carries t) →
      Stack w.view (top ++ [Frame.read t]) := fun top h => .read top ht hpacket hdrained h
  cases top with
  | nil =>
    obtain ⟨fs, hfs, rfl⟩ := Frames.step_cons hx
    obtain ⟨rfl, rfl | ⟨p, -, rfl⟩⟩ := exec_read (hst.reads t rfl) hfs
    · exact .of_view hI rfl (.calls (by simp))
    · refine .of_view hI rfl (hstack [.onPacket t p] fun f hf => .inr ⟨p, .inl ?_⟩)
      exact List.mem_singleton.1 hf
  | cons f rest =>
    rw [List.cons_append] at hx
    obtain ⟨fs, hfs, rfl⟩ := Frames.step_cons hx
    rw [← List.append_assoc]
    rcases htop f (List.mem_cons_self ..) with hf | ⟨p, rfl | rfl⟩
    · obtain ⟨hview, hfs'⟩ := exec_inert hf hfs hopen'
      exact .of_view hI hview (hstack _ (forall_mem_replace htop fun g hg => .inl (hfs' g hg)))
    · obtain ⟨rfl, rfl⟩ := exec_onPacket hpacket hfs
      refine .of_view hI rfl (hstack _ (forall_mem_replace htop fun g hg => .inr ⟨p, .inr ?_⟩))
      exact List.mem_singleton.1 hg
    · obtain ⟨hview, hfs'⟩ := exec_handlePacket hfs
      exact .of_view hI hview (hstack _ (forall_mem_replace htop fun g hg => .inl (hfs' g hg)))

/-- A prober that has failed gets rid of its transport. -/
theorem tidy_kept {f : Frame} {rest : List Frame}
    (htop : ∀ g ∈ f :: rest, g.inert = true ∨ g.tidies = true) (hun : w.view.Unpaused)
    (hI : w.view.Sound) (hopen' : w'.sock.state = .open)
    (hx : frames.step w (f :: rest ++ [Frame.probe .next]) a = some (w', l')) :
    Kept w w' (f :: rest ++ [Frame.probe .next]) l' := by
  rw [List.cons_append] at hx
  obtain ⟨fs, hfs, rfl⟩ := Frames.step_cons hx
  rw [← List.append_assoc]
  rcases htop f (List.mem_cons_self ..) with hf | hf
  · obtain ⟨hview, hfs'⟩ := exec_inert hf hfs hopen'
    exact .of_view hI hview (.tidy _ (forall_mem_replace htop fun g hg => .inl (hfs' g hg)) hun)
  · obtain ⟨⟨t, o, ht, hview⟩, hfs'⟩ := exec_tidies hf hfs
    have h0 : (w.view.set t o).object 0 = w.view.object 0 := by simp [ht.symm]
    refine ⟨hview ▸ hI.set ht o, hview ▸ .tidy _ (forall_mem_replace htop hfs') ⟨hun.1, h0 ▸ hun.2⟩,
      hview ▸ .probe ?_ (fun h => .inl ?_) fun h => h0 ▸ h⟩
    · simp [Frame.probes]
    · unfold View.Stopped at h
      rwa [h0] at h

/-- Only a prober that holds `pollMu` marks the polling transport as paused. -/
theorem Change.of_probe (hstate : (v'.object 0).state = (v.object 0).state) :
    Change v v' [.probe pc] := by
  refine .probe (by simp [Frame.probes]) (fun h => .inl ?_) fun h => hstate ▸ h
  unfold View.Stopped at h
  rwa [hstate] at h

/-- A prober sets a handler of the polling transport. -/
theorem Kept.of_handler {g : TransportObject → TransportObject} (hI : w.view.Sound)
    (htype : (g (w.object 0)).type = (w.object 0).type)
    (hpacket : (g (w.object 0)).onPacket = (w.object 0).onPacket)
    (herror : (g (w.object 0)).onError ≠ .probe) (hclose : (g (w.object 0)).onClose ≠ .probe)
    (hstate : (g (w.object 0)).state = (w.object 0).state)
    (hstack : ∀ v : View, v.Unpaused → Stack v l') (hun : w.view.Unpaused) :
    Kept w (w.modify? (some ⟨0, .polling⟩) g) [.probe pc] l' := by
  have hview : (w.modify? (some ⟨0, .polling⟩) g).view = w.view.set 0 (g (w.object 0)) := rfl
  have h0 : (w.view.set 0 (g (w.object 0))).object 0 = g (w.object 0) := by simp
  refine ⟨hview ▸ hI.of_object (htype.trans hI.type) (hpacket.trans hI.onPacket) herror hclose
    (fun hd => hstate.trans (hI.fresh hd)) (fun hd => hstate ▸ (hI.pending hd).2),
    hview ▸ hstack _ ⟨hun.1, ?_⟩, hview ▸ .of_probe ?_⟩
  · rw [h0, hstate]
    exact hun.2
  · rw [h0]
    exact hstate

/-- A prober sets a handler of the transport it has adopted. -/
theorem Kept.of_bind {t : Nat} {g : TransportObject → TransportObject} (hI : w.view.Sound)
    (ht : t ≠ 0) (hdrained : w.view.Drained) (hpacket : (g (w.object t)).onPacket = .socket)
    (hstack : ∀ v : View, v.Drained → (v.object t).onPacket = .socket → Stack v l') :
    Kept w (w.modify t g) [.probe pc] l' := by
  have h0 : ((w.modify t g).view.object 0).state = (w.view.object 0).state := by
    rw [World.modify_view, View.set_object, if_neg ht.symm]
  refine ⟨hI.set ht _, hstack _ ?_ ?_, .of_probe h0⟩
  · unfold View.Drained
    rwa [h0]
  · rwa [World.modify_view, View.set_object, if_pos rfl]

/-- The transport that a prober dials is not the polling transport. -/
theorem Kept.of_dial (hI : w.view.Sound) (hun : w.view.Unpaused) (o : TransportObject) :
    Kept w ({ w with made := w.made + 1 }.modify w.made fun _ => o) [.probe .next]
      [.probe (.awaitPong w.made)] := by
  have hset := hI.set hI.made o
  have h0 : (({ w with made := w.made + 1 }.modify w.made fun _ => o).object 0).state =
      (w.object 0).state := by
    have hmade : 0 ≠ w.made := Ne.symm hI.made
    rw [World.modify_object, if_neg hmade]
  refine ⟨⟨hset.type, hset.onPacket, hset.onError, hset.onClose, hset.fresh, hset.pending,
    Nat.succ_ne_zero _⟩, .probe ⟨hI.made, hun.1, ?_⟩, .of_probe h0⟩
  exact h0 ▸ hun.2

/-- `probeUpgrades`, `probe` and its pong callback. -/
theorem probe_kept (hpc : pc.Holds w.view) (hI : w.view.Sound) (hspare : Spare w [.probe pc])
    (hopen : w.sock.state = .open) (h : execProbe w pc a = some (w', fs)) :
    Kept w w' [.probe pc] fs := by
  have hflags : ¬ (w.dispatch = true ∨ w.probes = true) := fun h => by
    simpa [Frame.probes] using hspare.probes h
  revert h
  fun_cases execProbe w pc a <;> intro h <;> cases h
  case case1 => exact .of_view hI rfl (.calls (by simp))
  case case2 => exact .of_dial hI hpc _
  case case3 t => exact .of_view hI rfl (.tidy [.onError t, .onClose t] (by simp [Frame.tidies, hpc.1]) hpc.2)
  case case4 t => exact .of_view hI rfl (.tidy [.onError t] (by simp [Frame.tidies, hpc.1]) hpc.2)
  case case5 t _ _ => exact .of_view hI rfl (.tidy [.onClose t] (by simp [Frame.tidies, hpc.1]) hpc.2)
  case case6 | case7 => exact .of_view hI rfl (.probe hpc)
  case case8 hs => exact absurd hopen (Socket.beginUpgrade_eq_none.1 hs)
  case case9 t s old hs =>
    obtain ⟨-, rfl, rfl⟩ := Socket.beginUpgrade_eq_some.1 hs
    exact .of_view hI rfl (.probe ⟨hpc.1, hpc.2.1, hpc.2⟩)
  case case10 t old =>
    obtain ⟨ht, rfl, hun⟩ := hpc
    exact .of_handler hI rfl rfl hI.onError hI.onClose rfl (fun v hv => .probe ⟨ht, rfl, hv⟩) hun
  case case11 t old =>
    obtain ⟨ht, rfl, hun⟩ := hpc
    exact .of_handler hI rfl rfl hI.onError (by simp) rfl (fun v hv => .probe ⟨ht, rfl, hv⟩) hun
  case case12 t old =>
    obtain ⟨ht, rfl, hun⟩ := hpc
    exact .of_handler hI rfl rfl (by simp) hI.onClose rfl (fun v hv => .probe ⟨ht, rfl, hv⟩) hun
  case case18 t old =>
    obtain ⟨ht, rfl, hun⟩ := hpc
    exact .of_handler hI rfl rfl (by simp) hI.onClose rfl (fun v hv => .probe ⟨ht, rfl, hv⟩) hun
  case case19 t old =>
    obtain ⟨ht, rfl, hun⟩ := hpc
    exact .of_handler hI rfl rfl hI.onError (by simp) rfl
      (fun v hv => .tidy [.beginFlush, .discardOpen t] (by simp [Frame.inert, Frame.tidies, ht]) hv) hun
  case case13 | case15 | case16 => exact .of_view hI rfl (.probe hpc)
  case case17 => exact .of_view hI rfl (.probe hpc)
  case case20 => simp [ProbeFrame.Holds] at hpc
  case case21 t old hs =>
    obtain ⟨ht, hold, hun⟩ := hpc
    obtain rfl : old = ⟨0, .polling⟩ := by simpa using hold
    refine ⟨hI.of_like ⟨rfl, rfl, rfl, rfl⟩ (fun h => absurd (.inl h) hflags)
      (fun h => absurd h hflags), .probe ⟨ht, rfl⟩, .probe (by simp [Frame.probes]) ?_ ?_⟩
    · simp [View.Stopped, World.modify_view]
    · simp [World.modify_view]
  case case22 t old hs =>
    obtain ⟨ht, hold, -, hstate⟩ := hpc
    obtain rfl : old = ⟨0, .polling⟩ := by simpa using hold
    -- it is not paused yet, so it was closed
    refine .of_view hI rfl (.probe ⟨ht, .inl (hstate.resolve_left fun hopen0 => hs ?_)⟩)
    exact ⟨hI.type, .inr hopen0⟩
  case case24 => exact .of_view hI rfl (.probe hpc)
  case case25 t old =>
    obtain ⟨ht, rfl⟩ := hpc
    refine ⟨hI.of_like ⟨rfl, rfl, rfl, rfl⟩ (fun h => absurd (.inl h) hflags)
      (fun h => absurd h hflags), .probe ⟨ht, .inl ?_⟩, .probe (by simp [Frame.probes])
      (fun _ => .inr (by simp [Frame.holdsPollMu])) ?_⟩
    · simp [World.modify_view]
    · simp [World.modify_view]
  case case26 => exact .of_view hI rfl (.probe hpc)
  case case27 hwg => exact .of_view hI rfl (.probe ⟨hpc.1, hpc.2.elim (.inr ⟨·, hwg⟩) .inl⟩)
  case case29 hs => exact absurd hopen (Socket.adoptTransport_eq_none.1 hs)
  case case30 t s hs =>
    obtain ⟨-, rfl⟩ := Socket.adoptTransport_eq_some.1 hs
    exact ⟨⟨hI.type, hI.onPacket, hI.onError, hI.onClose, hI.fresh, fun h => absurd h hflags,
      hI.made⟩, .probe hpc, .of_probe rfl⟩
  case case31 t => exact .of_bind hI hpc.1 hpc.2 rfl fun v hv hp => .probe ⟨hpc.1, hv, hp⟩
  case case32 t =>
    exact .of_bind hI hpc.1 hpc.2.1 hpc.2.2 fun v hv hp => .probe ⟨hpc.1, hv, hp⟩
  case case33 t =>
    exact .of_bind hI hpc.1 hpc.2.1 hpc.2.2 fun v hv hp =>
      .read [.beginFlush] hpc.1 hp hv (by simp [Frame.inert])

/-- **Stacks.** A section of a steady goroutine leaves a steady goroutine. -/
theorem Stack.kept (hs : Stack w.view l) (hI : w.view.Sound) (hspare : Spare w l)
    (hst : Steady w l a) (hopen : w.sock.state = .open)
    (hx : frames.step w l a = some (w', l')) : Kept w w' l l' := by
  have hopen' : w'.sock.state = .open := hst.stays _ hx
  cases hs with
  | calls hl =>
    cases l with
    | nil => exact start_kept hI (fun ps hps => hst.polled ps (.inr hps)) hx
    | cons f rest =>
      obtain ⟨fs, hfs, rfl⟩ := Frames.step_cons hx
      obtain ⟨hview, hfs'⟩ := exec_inert (hl f (List.mem_cons_self ..)) hfs hopen'
      exact .of_view hI hview (.calls (forall_mem_replace hl hfs'))
  | poll hf =>
    obtain ⟨fs, hfs, rfl⟩ := Frames.step_cons hx
    rcases hf with rfl | rfl
    · obtain ⟨hview, rfl⟩ := exec_pollLock hfs
      exact .of_view hI hview (.poll (.inr rfl))
    · obtain ⟨hview, rfl | ⟨rfl, hrunning⟩⟩ := exec_pollCheck hfs
      · exact .of_view hI hview (.calls (by simp))
      · exact .of_view hI hview (.request hrunning)
  | request hrunning =>
    obtain ⟨fs, hfs, rfl⟩ := Frames.step_cons hx
    obtain ⟨hview, hdispatch⟩ := exec_pollRequest hfs
    refine ⟨hview ▸ ⟨hI.type, hI.onPacket, hI.onError, hI.onClose, hI.fresh, hI.pending, hI.made⟩,
      hview ▸ ?_, hview ▸ .respond (by simp [Frame.polls]) hrunning rfl rfl⟩
    rcases hdispatch with ⟨ps, rfl, rfl⟩ | rfl | rfl
    · refine .dispatch [] (by simp) (by simp) (hst.polled ps (.inl rfl)) fun h => ?_
      exact absurd (.inr (h.resolve_left (by simp))) hrunning
    · exact .done [.onError 0] (by simp)
    · exact .done [] (by simp)
  | dispatch _ htop hgo halone hclosed =>
    exact dispatch_kept htop hgo halone hclosed hI hspare hopen' hx
  | done _ htop => exact done_kept htop hI hopen' hx
  | @tidy top htop hun =>
    cases top with
    | nil =>
      obtain ⟨fs, hfs, rfl⟩ := Frames.step_cons hx
      rw [List.append_nil]
      exact probe_kept hun hI hspare hopen hfs
    | cons f rest => exact tidy_kept htop hun hI hopen' hx
  | probe hpc =>
    obtain ⟨fs, hfs, rfl⟩ := Frames.step_cons hx
    rw [List.append_nil]
    exact probe_kept hpc hI hspare hopen hfs
  | read _ ht hpacket hdrained htop => exact read_kept ht hpacket hdrained htop hI hst hopen' hx

/-- **Steady runs.** Every goroutine of a client that stays open is one of the stacks above. -/
theorem reach_steady {c : Pool World (List Frame)} (h : frames.program.Reach Steady c) :
    (c.shared.sock.state = .open ∧ c.shared.view.Sound) ∧
      ∀ i, Stack c.shared.view (c.thread i) := by
  refine h.invariant (I := fun w => w.sock.state = .open ∧ w.view.Sound)
    (J := fun w l => Stack w.view l) ?_ ?_
  · rintro w ⟨hstate, htransport, -, -, -, hw⟩
    have hobject : w.object 0 = established := by rw [hw]; simp
    refine ⟨⟨hstate, ?_⟩, .calls (by simp [Frames.program, frames])⟩
    have h0 : w.view.object 0 = established := hobject
    refine ⟨?_, ?_, ?_, ?_, fun _ => ?_, fun _ => ⟨htransport, .inl ?_⟩, ?_⟩
    · rw [h0]; rfl
    · rw [h0]; rfl
    · rw [h0]; simp [established]
    · rw [h0]; simp [established]
    · rw [h0]; rfl
    · rw [h0]; rfl
    · show w.made ≠ 0
      rw [hw]
      exact Nat.one_ne_zero
  · intro c i a w' l' hc hst hI hJ hx
    have hcount := fun S => reach_counters hc S
    have hspare : Spare c.shared (c.thread i) := by
      have hi := hcount {i}
      simp only [Finset.sum_singleton] at hi
      refine ⟨fun hd => ?_, fun hd => ?_⟩
      · rw [hd] at hi
        simp only [Bool.toNat_true] at hi
        omega
      · rcases hd with hd | hd <;> rw [hd] at hi <;> simp only [Bool.toNat_true] at hi <;> omega
    obtain ⟨hsound, hstack, hchange⟩ := (hJ i).kept hI.2 hspare hst hI.1 hx
    refine ⟨⟨hst.stays _ hx, hsound⟩, hstack, fun j hj => (hJ j).bystander hchange ?_ ?_ ?_⟩
    all_goals
      have hij := hcount {i, j}
      simp only [Finset.sum_pair (Ne.symm hj)] at hij
      intro hpos
      omega

end EngineIo.Client.Switchover
