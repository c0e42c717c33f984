import EngineIo.Server.Upgrade

set_option autoImplicit false

/-! # The packets of a session on their way to a poll or a websocket

`Outgoing` keeps the fields that say which packets a session has accepted, handed to a transport and
put into the channel of a poll, and `OutgoingStep` what a section can do to them. `Pc.serving` is the
channel of the poll that a goroutine serves. -/

namespace EngineIo.Server

structure Outgoing where
  accepted : List Packet
  handed : List Packet
  /-- The channel of the poll that is held. -/
  dataCh : Option Nat
  inbox : List (Nat × List Packet)
  channels : Nat

def World.outgoing (w : World) : Outgoing where
  accepted := w.accepted
  handed := w.handed
  dataCh := w.polling.dataCh
  inbox := w.inbox
  channels := w.channels

def Cont.serving : Cont → Option Nat
  | .poll ch => some ch
  | .done | .close => none

def Return.serving : Return → Option Nat
  | .done => none
  | .flush k => k.serving

def TeardownPc.return : TeardownPc → Return
  | .beginTeardown _ r | .closeStop _ r _ _ _ | .closeTransport _ r _ _ | .closeUpgrade _ r _
  | .closeHandler _ r => r

/-- The channel of the poll that a goroutine serves. -/
def Pc.serving : Pc → Option Nat
  | .flush pc => pc.cont.serving
  | .teardown pc => pc.return.serving
  | .poll (.hold ch) | .poll (.await ch) => some ch
  | _ => none

/-- Neither a section of `handlePoll` nor the end of a write. -/
def Pc.Aside (pc : Pc) (a : Choice) : Prop :=
  (∀ poll, pc ≠ .poll poll) ∧ a ≠ .call .poll ∧ a ≠ .written true

/-- What a section can do to the outgoing packets. -/
inductive OutgoingStep (v : Outgoing) (pc : Pc) (a : Choice) : Outgoing → Pc → Prop
  | quiet {pc' : Pc} (haside : pc.Aside a) (hserving : pc'.serving = pc.serving) :
      OutgoingStep v pc a v pc'
  | accept {p : Packet} {pc' : Pc}
      (hp : (∃ data isBinary, pc = .send data isBinary ∧
        p = { type := .message, data := data, isBinary := isBinary }) ∨
        pc = .sendPing ∧ p = { type := .ping } ∨ pc = .beginClose)
      (hserving : pc'.serving = none) :
      OutgoingStep v pc a { v with accepted := v.accepted ++ [p] } pc'
  | serve (hpc : pc = .idle) (ha : a = .call .poll) :
      OutgoingStep v pc a { v with channels := v.channels + 1 } (.poll (.hold v.channels))
  | hold {ch : Nat} (hpc : pc = .poll (.hold ch)) (h : v.dataCh = none) :
      OutgoingStep v pc a { v with dataCh := some ch } (.flush (.lock (.poll ch)))
  | refuse {ch : Nat} {pc' : Pc} (hpc : pc = .poll (.hold ch)) (hserving : pc'.serving = none) :
      OutgoingStep v pc a v pc'
  /-- The held poll gets a noop, or the close packet. -/
  | claim {ch : Nat} {p : Packet} {pc' : Pc} (haside : pc.Aside a)
      (hserving : pc'.serving = pc.serving) (h : v.dataCh = some ch)
      (hp : p = ServerSocket.closePacket ∨ p = { type := .noop }) :
      OutgoingStep v pc a { v with dataCh := none, inbox := v.inbox ++ [(ch, [p])] } pc'
  /-- The held poll gets the snapshot of a flush. -/
  | send {k : Cont} {t : Transport} {packets : List Packet} {ch : Nat}
      (hpc : pc = .flush (.send k t packets)) (ht : t.type = .polling) (h : v.dataCh = some ch) :
      OutgoingStep v pc a
        { v with
          dataCh := none, inbox := v.inbox ++ [(ch, packets)], handed := v.handed ++ packets }
        (.flush (.endFlush k packets))
  | write {k : Cont} {packets : List Packet} (hpc : pc = .flush (.writeFrames k packets))
      (ha : a = .written true) :
      OutgoingStep v pc a { v with handed := v.handed ++ packets } (.flush (.endFlush k packets))
  | respond {ch : Nat} {ok : Bool} {pc' : Pc} (hpc : pc = .poll (.await ch))
      (ha : a = .responded ok) (h : ∃ m ∈ v.inbox, m.1 = ch) (hserving : pc'.serving = none) :
      OutgoingStep v pc a v pc'
  | cancel {ch : Nat} {dataCh : Option Nat} {pc' : Pc} (hpc : pc = .poll (.await ch))
      (ha : a = .cancelled) : OutgoingStep v pc a { v with dataCh } pc'

variable {w w' : World} {pc' : Pc} {a : Choice}

theorem World.Releases.swaps (h : w.Releases w') : w'.swaps = w.swaps := by
  obtain ⟨polling, closed, inbox, stopped, rfl⟩ := h
  rfl

theorem Cont.resume_serving (k : Cont) : k.resume.serving = k.serving := by
  cases k <;> rfl

theorem Return.resume_serving (r : Return) : r.resume.serving = r.serving := by
  cases r <;> rfl

theorem OutgoingStep.unchanged {pc : Pc} (h : w'.outgoing = w.outgoing)
    (haside : pc.Aside a) (hserving : pc'.serving = pc.serving) :
    OutgoingStep w.outgoing pc a w'.outgoing pc' := by
  rw [h]
  exact .quiet haside hserving

/-- Closing a transport gives the close packet to the poll that is held, if there is one. -/
theorem OutgoingStep.closes {pc : Pc} (t : Transport) (haside : pc.Aside a)
    (hserving : pc'.serving = pc.serving) :
    OutgoingStep w.outgoing pc a (w.closeTransport t).outgoing pc' := by
  unfold World.closeTransport PollingTransport.close
  split
  · split
    · exact .quiet haside hserving
    · cases hch : w.polling.dataCh with
      | none =>
        refine .unchanged ?_ haside hserving
        simp [World.outgoing, World.deliver, hch]
      | some ch => exact .claim haside hserving hch (.inl rfl)
  · exact .quiet haside hserving

theorem OutgoingStep.closes? {pc : Pc} (t : Option Transport) (haside : pc.Aside a)
    (hserving : pc'.serving = pc.serving) :
    OutgoingStep w.outgoing pc a (w.closeTransport? t).outgoing pc' := by
  cases t with
  | none => exact .quiet haside hserving
  | some t => exact .closes t haside hserving

theorem OutgoingStep.stops? {pc : Pc} (stop : Option Nat) (haside : pc.Aside a)
    (hserving : pc'.serving = pc.serving) :
    OutgoingStep w.outgoing pc a (w.closeStop? stop).outgoing pc' := by
  cases stop <;> exact .quiet haside hserving

theorem startCall_outgoing {c : Call} (h : startCall w c = some (w', pc')) :
    OutgoingStep w.outgoing .idle (.call c) w'.outgoing pc' := by
  revert h
  fun_cases startCall w c <;> intro h <;> cases h
  case case6 => exact .serve rfl rfl
  all_goals exact .quiet (by simp [Pc.Aside]) rfl

theorem PollingTransport.send_eq_none {t t' : PollingTransport} (h : t.send = (t', none)) :
    t'.dataCh = t.dataCh := by
  unfold PollingTransport.send at h
  split at h
  · cases h
    rfl
  · obtain ⟨rfl, hch⟩ := Prod.mk.inj h
    exact hch.symm

theorem PollingTransport.send_eq_some {t t' : PollingTransport} {ch : Nat}
    (h : t.send = (t', some ch)) : t.dataCh = some ch ∧ t'.dataCh = none := by
  unfold PollingTransport.send at h
  split at h
  · cases h
  · obtain ⟨rfl, hch⟩ := Prod.mk.inj h
    exact ⟨hch, rfl⟩

theorem execFlush_outgoing {pc : FlushPc} (h : execFlush w pc a = some (w', pc')) :
    OutgoingStep w.outgoing (.flush pc) a w'.outgoing pc' := by
  revert h
  fun_cases execFlush w pc a <;> intro h <;> cases h
  case case5 hs =>
    refine .unchanged ?_ (by simp [Pc.Aside]) rfl
    simp only [World.outgoing, PollingTransport.send_eq_none hs]
  case case6 ht _ _ hs =>
    obtain ⟨hch, hnone⟩ := PollingTransport.send_eq_some hs
    simp only [World.outgoing, World.deliver, hnone]
    exact .send rfl ht hch
  case case9 => exact .write rfl rfl
  case case11 =>
    refine .quiet (by simp [Pc.Aside]) ?_
    split
    · rfl
    · split <;> rfl
  case case12 k => exact .quiet (by simp [Pc.Aside]) k.resume_serving
  all_goals exact .quiet (by simp [Pc.Aside]) rfl

theorem execTeardown_outgoing {pc : TeardownPc} (h : execTeardown w pc a = some (w', pc')) :
    OutgoingStep w.outgoing (.teardown pc) a w'.outgoing pc' := by
  revert h
  fun_cases execTeardown w pc a <;> intro h <;> cases h
  case case1 r _ => exact .quiet (by simp [Pc.Aside]) r.resume_serving
  case case3 => exact .stops? _ (by simp [Pc.Aside]) rfl
  case case4 => exact .closes? _ (by simp [Pc.Aside]) rfl
  case case5 => exact .closes? _ (by simp [Pc.Aside]) rfl
  case case6 r => exact .quiet (by simp [Pc.Aside]) r.resume_serving
  all_goals exact .quiet (by simp [Pc.Aside]) rfl

/-- A poll is held only where none was; otherwise nothing changes. -/
theorem PollingTransport.hold_eq {t t' : PollingTransport} {ch : Nat} {r : HoldResult}
    (h : t.hold ch = (t', r)) :
    if r = .held then t.dataCh = none ∧ t'.dataCh = some ch else t' = t := by
  unfold PollingTransport.hold at h
  split at h
  · cases h
    rfl
  · split at h
    · cases h
      rfl
    · next hnone =>
      cases h
      exact ⟨not_not.1 hnone, rfl⟩

theorem execPoll_outgoing {pc : PollPc} (h : execPoll w pc a = some (w', pc')) :
    OutgoingStep w.outgoing (.poll pc) a w'.outgoing pc' := by
  revert h
  fun_cases execPoll w pc a <;> intro h <;> cases h
  case case1 ch polling hs =>
    obtain ⟨hnone, hch⟩ := PollingTransport.hold_eq hs
    simp only [World.outgoing, hch]
    exact .hold rfl hnone
  case case2 ch polling hs =>
    obtain rfl : polling = w.polling := PollingTransport.hold_eq hs
    exact .refuse rfl rfl
  case case3 ch polling hs =>
    obtain rfl : polling = w.polling := PollingTransport.hold_eq hs
    exact .refuse rfl rfl
  case case4 ch ok hany =>
    refine .respond rfl rfl ?_ (by cases ok <;> rfl)
    simpa [World.outgoing] using hany
  case case6 => exact .cancel rfl rfl

theorem execUpgrade_outgoing {pc : UpgradePc} (h : execUpgrade w pc a = some (w', pc')) :
    OutgoingStep w.outgoing (.upgrade pc) a w'.outgoing pc' := by
  revert h
  fun_cases execUpgrade w pc a <;> intro h <;> cases h
  case case3 => exact .closes _ (by simp [Pc.Aside]) rfl
  case case6 =>
    refine .quiet (by simp [Pc.Aside]) ?_
    split <;> rfl
  case case9 =>
    cases hch : w.polling.dataCh with
    | none =>
      refine .unchanged ?_ (by simp [Pc.Aside]) rfl
      simp [World.outgoing, World.deliver, PollingTransport.writeNoop, hch]
    | some ch =>
      simp only [World.outgoing, World.deliver, PollingTransport.writeNoop, hch]
      exact .claim (by simp [Pc.Aside]) rfl rfl (.inr rfl)
  case case12 => exact .stops? _ (by simp [Pc.Aside]) rfl
  case case13 => exact .closes? _ (by simp [Pc.Aside]) rfl
  case case16 => exact .stops? _ (by simp [Pc.Aside]) rfl
  case case17 => exact .closes _ (by simp [Pc.Aside]) rfl
  all_goals exact .quiet (by simp [Pc.Aside]) rfl

/-- **Outgoing packets.** Every section makes one of these steps. -/
theorem exec_outgoing {pc : Pc} (h : exec w pc a = some (w', pc')) :
    OutgoingStep w.outgoing pc a w'.outgoing pc' := by
  revert h
  fun_cases exec w pc a <;> intro h
  case case1 => exact startCall_outgoing h
  case case11 => exact execFlush_outgoing h
  case case12 => exact execTeardown_outgoing h
  case case13 => exact execPoll_outgoing h
  case case14 => exact execUpgrade_outgoing h
  all_goals cases h
  case case4 => exact .accept (.inl ⟨_, _, rfl, rfl⟩) rfl
  case case6 => exact .accept (.inr (.inr rfl)) rfl
  case case10 => exact .accept (.inr (.inl ⟨rfl, rfl⟩)) rfl
  all_goals exact .quiet (by simp [Pc.Aside]) rfl

theorem OutgoingStep.accepted {v v' : Outgoing} {pc : Pc} (h : OutgoingStep v pc a v' pc') :
    v'.accepted = v.accepted ∨ ∃ p, v'.accepted = v.accepted ++ [p] ∧
      ((∃ data isBinary, pc = .send data isBinary ∧
        p = { type := .message, data := data, isBinary := isBinary }) ∨
        pc = .sendPing ∧ p = { type := .ping } ∨ pc = .beginClose) := by
  cases h with
  | accept hp => exact .inr ⟨_, rfl, hp⟩
  | _ => exact .inl rfl

theorem OutgoingStep.inbox {v v' : Outgoing} {pc : Pc} (h : OutgoingStep v pc a v' pc') :
    v'.inbox = v.inbox ∨ ∃ ch packets, v'.inbox = v.inbox ++ [(ch, packets)] ∧
      (packets = [ServerSocket.closePacket] ∨ packets = [{ type := .noop }] ∨
        ∃ k t, pc = .flush (.send k t packets)) := by
  cases h with
  | claim _ _ _ hp =>
    rcases hp with rfl | rfl
    · exact .inr ⟨_, _, rfl, .inl rfl⟩
    · exact .inr ⟨_, _, rfl, .inr (.inl rfl)⟩
  | send hpc => exact .inr ⟨_, _, rfl, .inr (.inr ⟨_, _, hpc⟩)⟩
  | _ => exact .inl rfl

/-- A poll that is answered has got its payload. -/
theorem OutgoingStep.responded {v v' : Outgoing} {ch : Nat} {ok : Bool}
    (h : OutgoingStep v (.poll (.await ch)) (.responded ok) v' pc') : ∃ m ∈ v.inbox, m.1 = ch := by
  cases h with
  | respond hpc _ h =>
    cases hpc
    exact h
  | quiet haside | claim haside => exact absurd rfl (haside.1 _)
  | accept hp => simp at hp
  | serve hpc | hold hpc | refuse hpc | send hpc | write hpc => cases hpc
  | cancel _ ha => cases ha

/-- The close packet is accepted as the session begins to close. -/
theorem exec_beginClose (h : exec w .beginClose a = some (w', pc')) :
    w'.accepted = w.accepted ∨ w'.sock.state = .closing := by
  cases a with
  | go =>
    simp only [exec] at h
    split at h
    · cases h
      exact .inl rfl
    · next s hs =>
      cases h
      obtain ⟨-, rfl⟩ := ServerSocket.beginClose_eq_some.1 hs
      exact .inr rfl
  | _ => cases h

/-- What is known where a goroutine has got to. -/
def Pc.Entered (w : World) (pc : Pc) (a : Choice) : Pc → Prop
  | .send data isBinary => pc = .idle ∧ a = .call (.send data isBinary)
  | .flush (.send _ t packets) => packets ≠ [] ∧ w.sock.transport = some t
  | .flush (.writeFrames k packets) => ∃ t, pc = .flush (.send k t packets) ∧ t.type ≠ .polling
  | .poll (.hold _) => pc = .idle ∧ a = .call .poll
  | .upgrade (.beginCompleteUpgrade t) => pc = .idle ∧ a = .call (.completeUpgrade t)
  | _ => True

theorem Cont.resume_entered {pc : Pc} (k : Cont) : pc.Entered w a k.resume := by
  cases k <;> trivial

theorem Return.resume_entered {pc : Pc} (r : Return) : pc.Entered w a r.resume := by
  cases r <;> trivial

theorem exec_entered {pc : Pc} (h : exec w pc a = some (w', pc')) : pc.Entered w a pc' := by
  revert h
  fun_cases exec w pc a <;> intro h
  case case1 c =>
    revert h
    fun_cases startCall w c <;> intro h <;> cases h <;> trivial
  case case11 pc =>
    revert h
    fun_cases execFlush w pc a <;> intro h <;> cases h
    case case4 hs =>
      obtain ⟨-, hne, ht, rfl⟩ := ServerSocket.beginFlush_eq_some.1 hs
      exact ⟨hne, ht⟩
    case case8 ht _ => exact ⟨_, rfl, ht⟩
    case case11 =>
      split
      · trivial
      · split <;> trivial
    case case12 k => exact k.resume_entered
    all_goals trivial
  case case12 pc =>
    revert h
    fun_cases execTeardown w pc a <;> intro h <;> cases h
    case case1 r _ => exact r.resume_entered
    case case6 r => exact r.resume_entered
    all_goals trivial
  case case13 pc =>
    revert h
    fun_cases execPoll w pc a <;> intro h <;> cases h
    case case4 => split <;> trivial
    all_goals trivial
  case case14 pc =>
    revert h
    fun_cases execUpgrade w pc a <;> intro h <;> cases h
    case case6 => split <;> trivial
    all_goals trivial
  all_goals cases h <;> trivial

/-! ## Flushes to a websocket -/

/-- A flush that has seen a transport other than long polling. -/
def Pc.Departs : Pc → Prop
  | .flush (.send _ t _) => t.type ≠ .polling
  | .flush (.writeFrames _ _) => True
  | _ => False

def World.onPolling (w : World) : Prop := w.sock.transport.map (·.type) = some .polling

/-- A session that has left long polling does not return to it. -/
theorem exec_not_onPolling {pc : Pc} (hI : w.handover.Sound) (h : exec w pc a = some (w', pc'))
    (hw : ¬ w.onPolling) : ¬ w'.onPolling := by
  unfold World.onPolling at hw ⊢
  rcases (exec_handover h).transport with ht | ⟨-, ht⟩ | ⟨hu, -⟩
  · have ht : w'.sock.transport = w.sock.transport := ht
    rwa [ht]
  · have ht : w'.sock.transport = none := ht
    simp [ht]
  · exact absurd (hI.polling hu).1 hw

theorem reach_departs {c : Concurrency.Pool World Pc} (hc : program.Reachable c) {i : Nat}
    (hi : (c.thread i).Departs) : ¬ c.shared.onPolling := by
  refine (hc.invariant (I := fun _ => True) (J := fun w pc => pc.Departs → ¬ w.onPolling)
    ?_ ?_).2 i hi
  · exact fun w _ => ⟨trivial, False.elim⟩
  · intro c i a w' pc' hc _ _ hJ hx
    have hstays := exec_not_onPolling (reach_handover hc) hx
    refine ⟨trivial, fun hpc' => hstays ?_, fun j _ hj => hstays (hJ j hj)⟩
    have hentered := exec_entered hx
    -- the transport is read when the snapshot is taken
    cases pc' with
    | flush pc =>
      cases pc with
      | send k t packets =>
        unfold World.onPolling
        rw [hentered.2]
        exact fun ht => hpc' (Option.some.inj ht)
      | writeFrames k packets =>
        obtain ⟨t, hpc, ht⟩ := hentered
        exact hJ i (by rw [hpc]; exact ht)
      | _ => exact hpc'.elim
    | _ => exact hpc'.elim

/-- The active transport is replaced in the first section of `completeUpgrade` only. -/
theorem exec_swaps {pc : Pc} (h : exec w pc a = some (w', pc')) :
    w'.swaps = w.swaps ∨ ∃ t, pc = .upgrade (.beginCompleteUpgrade t) := by
  revert h
  fun_cases exec w pc a <;> intro h
  case case1 c =>
    revert h
    fun_cases startCall w c <;> intro h <;> cases h <;> exact .inl rfl
  case case11 pc =>
    revert h
    fun_cases execFlush w pc a <;> intro h <;> cases h <;> exact .inl rfl
  case case12 pc =>
    revert h
    fun_cases execTeardown w pc a <;> intro h <;> cases h
    case case3 => exact .inl (w.closeStop?_releases _).swaps
    case case4 => exact .inl (w.closeTransport?_releases _).swaps
    case case5 => exact .inl (w.closeTransport?_releases _).swaps
    all_goals exact .inl rfl
  case case13 pc =>
    revert h
    fun_cases execPoll w pc a <;> intro h <;> cases h <;> exact .inl rfl
  case case14 pc =>
    revert h
    fun_cases execUpgrade w pc a <;> intro h <;> cases h
    case case3 => exact .inl (w.closeTransport_releases _).swaps
    case case9 => exact .inl (w.deliver_releases _ _ _).swaps
    case case10 t _ => exact .inr ⟨t, rfl⟩
    case case11 t _ _ _ _ => exact .inr ⟨t, rfl⟩
    case case12 => exact .inl (w.closeStop?_releases _).swaps
    case case13 => exact .inl (w.closeTransport?_releases _).swaps
    case case16 => exact .inl (w.closeStop?_releases _).swaps
    case case17 => exact .inl (w.closeTransport_releases _).swaps
    all_goals exact .inl rfl
  all_goals cases h <;> exact .inl rfl

theorem exec_transport {pc : Pc} (h : exec w pc a = some (w', pc')) :
    w'.sock.transport = w.sock.transport ∨ w'.sock.state = .closed ∨
      ∃ t, pc = .upgrade (.beginCompleteUpgrade t) := by
  have hstep := exec_handover h
  have hswaps : w'.handover.swaps = w.handover.swaps ∨
      ∃ t, pc = .upgrade (.beginCompleteUpgrade t) := exec_swaps h
  suffices w'.handover.transport = w.handover.transport ∨ w'.handover.state = .closed ∨
      ∃ t, pc = .upgrade (.beginCompleteUpgrade t) from this
  generalize w'.handover = v', pc.candidate = q, pc'.candidate = q' at hstep hswaps ⊢
  cases hstep with
  | teardown => exact .inr (.inl rfl)
  | complete => exact .inr (.inr (hswaps.resolve_left (Nat.succ_ne_self _)))
  | _ => exact .inl rfl

end EngineIo.Server
