import EngineIo.Codec.OpenPacket
import EngineIo.Server.Routing

set_option autoImplicit false

/-! # A fresh handshake (`server.go`, `server_transport_webtransport.go`)

`handleHandshake`, `handleWebSocketHandshake` and `webTransportHandshake` register the session, write
its open packet and only then mark it open. From the registration on, other goroutines can obtain
the session (`Server.Sockets`, `Server.Socket`, `Server.Close`) and call it. A poll, a POST or a probe
needs the session's id. Here the client learns it from the open packet; a server whose `WithGenerateID` takes
the id from the request may have clients that know it before.

`State.wire` is what has been written to the client. On long polling nothing but the handshake's own
response can carry a packet as long as no poll is held, so the open packet comes first. On a websocket
or webtransport connection `flush` writes to the same connection as the handshake does. -/

namespace EngineIo.Server.Handshake

open Concurrency
open Client (OpenPacket)

/-! ## Model -/

/-- Where the goroutine of the handshake is. -/
inductive Stage
  | put (openPacket : Packet)
  /-- `send` of the transport, which first looks whether the transport is closed. -/
  | send (openPacket : Packet)
  | write (openPacket : Packet)
  | delete
  | close
  | open
deriving DecidableEq, Repr

structure State where
  session : World
  /-- The transport the session is established on. -/
  type : TransportType
  started : Bool := false
  registered : Bool := false
  /-- The packets written to the client. -/
  wire : List Packet := []
deriving DecidableEq, Repr

inductive Pc
  | idle
  | handshake (stage : Stage)
  /-- It has the session. -/
  | session (pc : Server.Pc)
deriving DecidableEq, Repr

inductive Choice
  | handshake
  /-- Obtain the session from the registry. -/
  | lookup
  | go
  /-- The open packet was written, or the write failed and the client got it or not. -/
  | written (ok arrived : Bool)
  /-- A section of the session; of a failed write the first `arrived` packets reach the client. -/
  | session (a : Server.Choice) (arrived : Nat)
deriving DecidableEq, Repr

/-- Calls that need no packet from the client. -/
def unprompted : Server.Choice → Bool
  | .call (.send _ _) | .call .close | .call (.closeWithReason _) | .call .pingTimer
  | .call .pongTimer | .call .closeTimer => true
  | .call _ => false
  | _ => true

/-- What a section of the session writes to the client. -/
def written (w : World) (pc : Server.Pc) (a : Server.Choice) (arrived : Nat) (w' : World) :
    List Packet :=
  match pc, a with
  | .flush (.writeFrames _ packets), .written true => packets
  | .flush (.writeFrames _ packets), .written false => packets.take arrived
  | _, _ => (w'.inbox.drop w.inbox.length).flatMap Prod.snd

/-- The sections of the handshake. -/
def execHandshake (s : State) : Stage → Choice → Option (State × Pc)
  | .put p, .go => some ({ s with registered := true }, .handshake (.send p))
  | .send p, .go =>
    -- the polling handshake writes the response itself
    if s.type ≠ .polling ∧ ⟨0, s.type⟩ ∈ s.session.closed then some (s, .handshake .open)
    else some (s, .handshake (.write p))
  | .write p, .written ok arrived =>
    some ({ s with wire := if ok || arrived then s.wire ++ [p] else s.wire },
      if ok then .handshake .open else .handshake .delete)
  | .delete, .go =>
    some ({ s with registered := false },
      if s.type = .polling then .idle else .handshake .close)
  | .close, .go => some ({ s with session := s.session.closeTransport ⟨0, s.type⟩ }, .idle)
  | .open, .go =>
    some ({ s with session := { s.session with sock := s.session.sock.open } }, .session .idle)
  | _, _ => none

/-- The open packet of a session; only a session on long polling is offered upgrades. -/
def openPacket (marshal : OpenPacket → Option (List UInt8)) (options : Options) (id : String)
    (type : TransportType) : Option Packet :=
  buildOpenPacket marshal options id (type = .polling)

section

variable (marshal : OpenPacket → Option (List UInt8)) (options : Options) (id : String)

def exec (s : State) : Pc → Choice → Option (State × Pc)
  | .idle, .handshake =>
    if s.started then none
    else
      match openPacket marshal options id s.type with
      | none => some ({ s with started := true }, .idle)
      | some p => some ({ s with started := true }, .handshake (.put p))
  | .idle, .lookup => if s.registered then some (s, .session .idle) else none
  | .handshake stage, a => execHandshake s stage a
  | .session pc, .session a arrived =>
    if unprompted a ∨ s.wire ≠ [] then
      match Server.exec s.session pc a with
      | none => none
      | some (w', pc') =>
        some ({ s with session := w', wire := s.wire ++ written s.session pc a arrived w' },
          .session pc')
    else none
  | _, _ => none

/-- The handshake of one session, on a transport of any type, and any number of other goroutines. -/
def program : Program State Pc Choice where
  init := fun s => ∃ type, s = { session := { sock := { transport := some ⟨0, type⟩ } }, type }
  idle := .idle
  exec := exec marshal options id

end

/-- Nobody obtains a websocket or webtransport session before its open packet is written. -/
def Waits (s : State) (_ : Pc) (a : Choice) : Prop :=
  a = .lookup → s.type = .polling ∨ s.wire ≠ []

instance (s : State) (pc : Pc) (a : Choice) : Decidable (Waits s pc a) :=
  inferInstanceAs (Decidable (_ → _))

/-! ## A polling session that no client knows -/

/-- No poll is held, and the session cannot leave its polling transport. -/
structure Unknown (w : World) : Prop where
  dataCh : w.polling.dataCh = none
  staysOn : w.StaysOn ⟨0, .polling⟩

theorem Unknown.transport {w : World} {t : Transport} (h : Unknown w)
    (ht : w.sock.transport = some t) : t.type = .polling := by
  rcases h.staysOn.1 with h | h <;> rw [ht] at h <;> cases h
  rfl

/-- The sections that neither hold a poll nor write frames nor offer a transport. -/
def Silent : Server.Pc → Prop
  | .poll (.hold _) | .upgrade (.startUpgrade _) | .flush (.writeFrames _ _) => False
  | .flush (.send _ t _) => t.type = .polling
  | _ => True

theorem Silent.candidate {pc : Server.Pc} (h : Silent pc) : pc.candidate = none := by
  cases pc with
  | upgrade pc => cases pc <;> first | rfl | cases h
  | _ => rfl

theorem silent_resume (k : Cont) : Silent k.resume := by
  cases k <;> trivial

theorem silent_return (r : Return) : Silent r.resume := by
  cases r <;> trivial

variable {w w' : World} {pc pc' : Server.Pc} {a : Server.Choice}

/-- With no poll held, nothing is delivered. -/
def Still (w w' : World) : Prop := w'.polling.dataCh = none ∧ w'.inbox = w.inbox

theorem still_closeTransport (h : w.polling.dataCh = none) (t : Transport) :
    Still w (w.closeTransport t) := by
  unfold World.closeTransport PollingTransport.close
  split
  · split
    · exact ⟨h, rfl⟩
    · simp only [h]
      exact ⟨rfl, rfl⟩
  · exact ⟨h, rfl⟩

theorem still_closeTransport? (h : w.polling.dataCh = none) (t : Option Transport) :
    Still w (w.closeTransport? t) := by
  cases t with
  | none => exact ⟨h, rfl⟩
  | some t => exact still_closeTransport h t

theorem still_closeStop? (h : w.polling.dataCh = none) (stop : Option Nat) :
    Still w (w.closeStop? stop) := by
  cases stop <;> exact ⟨h, rfl⟩

theorem send_of_dataCh {t : PollingTransport} (h : t.dataCh = none) : t.send = (t, none) := by
  obtain ⟨closed, dataCh⟩ := t
  cases h
  cases closed <;> rfl

theorem startCall_silent {c : Call} (h : startCall w c = some (w', pc'))
    (hw : w.polling.dataCh = none) (hc : unprompted (.call c) = true) : Still w w' ∧ Silent pc' := by
  revert h
  fun_cases startCall w c <;> intro h <;> cases h <;> try cases hc
  all_goals exact ⟨⟨hw, rfl⟩, trivial⟩

theorem execFlush_silent {pc : FlushPc} (h : execFlush w pc a = some (w', pc')) (hw : Unknown w)
    (hpc : Silent (.flush pc)) : Still w w' ∧ Silent pc' := by
  revert h
  fun_cases execFlush w pc a <;> intro h <;> cases h
  case case4 hs =>
    obtain ⟨-, -, ht, -⟩ := ServerSocket.beginFlush_eq_some.1 hs
    exact ⟨⟨hw.dataCh, rfl⟩, hw.transport ht⟩
  case case11 =>
    refine ⟨⟨hw.dataCh, rfl⟩, ?_⟩
    split
    · trivial
    · split <;> trivial
  case case12 k => exact ⟨⟨hw.dataCh, rfl⟩, silent_resume k⟩
  case case5 hs =>
    rw [send_of_dataCh hw.dataCh] at hs
    cases hs
    exact ⟨⟨hw.dataCh, rfl⟩, trivial⟩
  case case6 hs =>
    rw [send_of_dataCh hw.dataCh] at hs
    cases hs
  case case8 htype _ => exact absurd hpc htype
  case case9 => cases hpc
  case case10 => cases hpc
  all_goals exact ⟨⟨hw.dataCh, rfl⟩, trivial⟩

theorem execTeardown_silent {pc : TeardownPc} (h : execTeardown w pc a = some (w', pc'))
    (hw : w.polling.dataCh = none) : Still w w' ∧ Silent pc' := by
  revert h
  fun_cases execTeardown w pc a <;> intro h <;> cases h
  · exact ⟨⟨hw, rfl⟩, silent_return _⟩
  · exact ⟨⟨hw, rfl⟩, trivial⟩
  · exact ⟨still_closeStop? hw _, trivial⟩
  · exact ⟨still_closeTransport? hw _, trivial⟩
  · exact ⟨still_closeTransport? hw _, trivial⟩
  · exact ⟨⟨hw, rfl⟩, silent_return _⟩

theorem execPoll_silent {pc : PollPc} (h : execPoll w pc a = some (w', pc'))
    (hw : w.polling.dataCh = none) (hpc : Silent (.poll pc)) : Still w w' ∧ Silent pc' := by
  revert h
  fun_cases execPoll w pc a <;> intro h <;> cases h <;> try cases hpc
  · refine ⟨⟨hw, rfl⟩, ?_⟩
    split <;> trivial
  · refine ⟨⟨?_, rfl⟩, trivial⟩
    simp [PollingTransport.release, hw]

theorem execUpgrade_silent {pc : UpgradePc} (h : execUpgrade w pc a = some (w', pc'))
    (hw : w.polling.dataCh = none) (hpc : Silent (.upgrade pc)) : Still w w' ∧ Silent pc' := by
  revert h
  fun_cases execUpgrade w pc a <;> intro h <;> cases h <;> try cases hpc
  case case3 => exact ⟨still_closeTransport hw _, trivial⟩
  case case6 =>
    refine ⟨⟨hw, rfl⟩, ?_⟩
    split <;> trivial
  case case9 =>
    simp only [PollingTransport.writeNoop, hw]
    exact ⟨⟨rfl, rfl⟩, trivial⟩
  case case12 => exact ⟨still_closeStop? hw _, trivial⟩
  case case13 => exact ⟨still_closeTransport? hw _, trivial⟩
  case case16 => exact ⟨still_closeStop? hw _, trivial⟩
  case case17 => exact ⟨still_closeTransport hw _, trivial⟩
  all_goals exact ⟨⟨hw, rfl⟩, trivial⟩

theorem exec_silent (h : Server.exec w pc a = some (w', pc')) (hw : Unknown w) (hpc : Silent pc)
    (ha : unprompted a = true) : Still w w' ∧ Silent pc' := by
  revert h
  fun_cases Server.exec w pc a <;> intro h
  case case1 c => exact startCall_silent h hw.dataCh ha
  case case11 pc => exact execFlush_silent h hw hpc
  case case12 pc => exact execTeardown_silent h hw.dataCh
  case case13 pc => exact execPoll_silent h hw.dataCh hpc
  case case14 pc => exact execUpgrade_silent h hw.dataCh hpc
  all_goals cases h <;> exact ⟨⟨hw.dataCh, rfl⟩, trivial⟩

/-- Such a session stays unknown and writes nothing. -/
theorem exec_unknown (arrived : Nat) (h : Server.exec w pc a = some (w', pc')) (hw : Unknown w)
    (hpc : Silent pc) (ha : unprompted a = true) :
    Unknown w' ∧ Silent pc' ∧ written w pc a arrived w' = [] := by
  obtain ⟨⟨hdata, hinbox⟩, hpc'⟩ := exec_silent h hw hpc ha
  refine ⟨⟨hdata, (exec_handover h).staysOn hw.staysOn fun _ => hpc.candidate⟩, hpc', ?_⟩
  have hnone : (w'.inbox.drop w.inbox.length).flatMap Prod.snd = [] := by
    rw [hinbox, List.drop_length]
    rfl
  unfold written
  split
  · cases hpc
  · cases hpc
  · exact hnone

/-! ## The invariant -/

section

variable (marshal : OpenPacket → Option (List UInt8)) (options : Options) (id : String)

/-- What the goroutine of the handshake knows while nothing has been written. -/
def Stage.Early (s : State) : Stage → Prop
  | .put p | .send p =>
    openPacket marshal options id s.type = some p ∧
      (s.type ≠ .polling → s.session.closed = [])
  | .write p => openPacket marshal options id s.type = some p
  | .delete => True
  | .close => s.type ≠ .polling
  | .open => s.type = .polling

/-- What a goroutine knows while nothing has been written. -/
def Pc.Early (s : State) : Pc → Prop
  | .idle => True
  | .handshake stage => stage.Early marshal options id s
  | .session pc => s.type = .polling ∧ Silent pc

/-- Either nothing has been written, and a polling session is still unknown to its client, or the open
    packet was written first. -/
def OpensFirst (s : State) : Prop :=
  s.wire = [] ∧ (s.type = .polling → Unknown s.session) ∨
    ∃ p rest, openPacket marshal options id s.type = some p ∧ s.wire = p :: rest

end

def Pc.shaking : Pc → Bool
  | .handshake _ => true
  | _ => false

variable {marshal : OpenPacket → Option (List UInt8)} {options : Options} {id : String} {s s' : State}

/-- Behind the open packet nothing matters. -/
theorem OpensFirst.append (h : OpensFirst marshal options id s) (hwire : s.wire ≠ [])
    (htype : s'.type = s.type) {more : List Packet} (hmore : s'.wire = s.wire ++ more) :
    OpensFirst marshal options id s' := by
  rcases h with ⟨h, -⟩ | ⟨p, rest, hp, h⟩
  · exact absurd h hwire
  · refine .inr ⟨p, rest ++ more, htype ▸ hp, ?_⟩
    rw [hmore, h]
    rfl

/-- What every section does: the transport stays, and the wire grows. -/
def Extends (s s' : State) : Prop :=
  s'.type = s.type ∧ (s.started = true → s'.started = true) ∧ ∃ more, s'.wire = s.wire ++ more

theorem execHandshake_extends {stage : Stage} {a : Choice} {pc' : Pc}
    (h : execHandshake s stage a = some (s', pc')) : Extends s s' := by
  revert h
  fun_cases execHandshake s stage a <;> intro h <;> cases h
  case case4 p ok arrived =>
    refine ⟨rfl, fun h => h, ?_⟩
    simp only
    split
    · exact ⟨[p], rfl⟩
    · exact ⟨[], (List.append_nil _).symm⟩
  all_goals exact ⟨rfl, fun h => h, [], (List.append_nil _).symm⟩

/-- What the goroutine of a handshake does next, while nothing has been written. -/
theorem execHandshake_early {stage : Stage} {a : Choice} {pc' : Pc}
    (h : execHandshake s stage a = some (s', pc')) (hwire : s.wire = [])
    (hs : s.type = .polling → Unknown s.session) (hstage : stage.Early marshal options id s) :
    OpensFirst marshal options id s' ∧ (s'.wire = [] → pc'.Early marshal options id s') := by
  revert h
  fun_cases execHandshake s stage a <;> intro h <;> cases h
  case case1 => exact ⟨.inl ⟨hwire, hs⟩, fun _ => hstage⟩
  case case2 hclosed =>
    -- the transport was not closed yet
    rw [hstage.2 hclosed.1] at hclosed
    exact absurd hclosed.2 List.not_mem_nil
  case case3 => exact ⟨.inl ⟨hwire, hs⟩, fun _ => hstage.1⟩
  case case4 p ok arrived =>
    by_cases hsent : (ok || arrived) = true
    · simp only [hsent, if_true, hwire, List.nil_append]
      exact ⟨.inr ⟨p, [], hstage, rfl⟩, nofun⟩
    · obtain ⟨rfl, rfl⟩ : ok = false ∧ arrived = false := by simpa using hsent
      exact ⟨.inl ⟨hwire, hs⟩, fun _ => trivial⟩
  case case5 =>
    refine ⟨.inl ⟨hwire, hs⟩, fun _ => ?_⟩
    split
    · trivial
    · assumption
  case case6 => exact ⟨.inl ⟨hwire, fun h => absurd h hstage⟩, fun _ => trivial⟩
  case case7 =>
    have hopen : Server.exec s.session .open .go =
        some ({ s.session with sock := s.session.sock.open }, .idle) := rfl
    refine ⟨.inl ⟨hwire, fun h => ?_⟩, fun _ => ⟨hstage, trivial⟩⟩
    exact (exec_unknown 0 hopen (hs h) trivial rfl).1

theorem exec_extends {pc pc' : Pc} {a : Choice}
    (h : exec marshal options id s pc a = some (s', pc')) : Extends s s' := by
  revert h
  fun_cases exec marshal options id s pc a <;> intro h
  case case6 => exact execHandshake_extends h
  all_goals cases h
  case case2 => exact ⟨rfl, fun _ => rfl, [], (List.append_nil _).symm⟩
  case case3 => exact ⟨rfl, fun _ => rfl, [], (List.append_nil _).symm⟩
  case case4 => exact ⟨rfl, fun h => h, [], (List.append_nil _).symm⟩
  case case8 => exact ⟨rfl, fun h => h, _, rfl⟩

/-- Every section keeps the open packet first, if nobody obtains the session too early. -/
theorem exec_early {pc pc' : Pc} {a : Choice}
    (h : exec marshal options id s pc a = some (s', pc')) (hwaits : Waits s pc a)
    (hwire : s.wire = []) (hs : s.type = .polling → Unknown s.session)
    (hpc : pc.Early marshal options id s) (hfresh : s.started = false → s.session.closed = []) :
    OpensFirst marshal options id s' ∧ (s'.wire = [] → pc'.Early marshal options id s') := by
  revert h
  fun_cases exec marshal options id s pc a <;> intro h
  case case6 => exact execHandshake_early h hwire hs hpc
  all_goals cases h
  case case2 => exact ⟨.inl ⟨hwire, hs⟩, fun _ => trivial⟩
  case case3 hstarted p hp =>
    refine ⟨.inl ⟨hwire, hs⟩, fun _ => ⟨hp, fun _ => hfresh ?_⟩⟩
    exact Bool.eq_false_iff.2 hstarted
  case case4 =>
    refine ⟨.inl ⟨hwire, hs⟩, fun _ => ⟨?_, trivial⟩⟩
    exact (hwaits rfl).resolve_right (not_not_intro hwire)
  case case8 pc a arrived hown w' pc' hx =>
    obtain ⟨hpolling, hsilent⟩ := hpc
    have hown : unprompted a = true := hown.resolve_right (not_not_intro hwire)
    obtain ⟨hw', hpc', hnone⟩ := exec_unknown arrived hx (hs hpolling) hsilent hown
    refine ⟨.inl ⟨?_, fun _ => hw'⟩, fun _ => ⟨hpolling, hpc'⟩⟩
    simp only [hwire, hnone, List.append_nil]

theorem Pc.Early.bystander {m : Pc} (hm : m.Early marshal options id s) (htype : s'.type = s.type)
    (hclosed : m.shaking = true → s.type ≠ .polling → s'.session.closed = s.session.closed) :
    m.Early marshal options id s' := by
  cases m with
  | idle => trivial
  | session pc => exact ⟨htype.trans hm.1, hm.2⟩
  | handshake stage =>
    cases stage with
    | put p | send p =>
      refine ⟨htype ▸ hm.1, fun h => ?_⟩
      rw [htype] at h
      exact (hclosed rfl h).trans (hm.2 h)
    | write p => exact (congrArg _ htype).trans hm
    | delete => trivial
    | close => exact fun h => hm (htype.symm.trans h)
    | «open» => exact htype.trans hm

/-- A section of a goroutine that does not run the handshake closes no connection while nothing has
    been written. -/
theorem exec_closed {pc pc' : Pc} {a : Choice} (h : exec marshal options id s pc a = some (s', pc'))
    (hshaking : pc.shaking = false) (hpc : pc.Early marshal options id s) (htype : s.type ≠ .polling) :
    s'.session.closed = s.session.closed := by
  revert h
  fun_cases exec marshal options id s pc a <;> intro h
  case case6 => cases hshaking
  all_goals cases h
  case case8 => exact absurd hpc.1 htype
  all_goals rfl

/-- A handshake that has not started yet is the only one. -/
def State.Untouched (s : State) : Prop := s.registered = false ∧ s.session.closed = []

theorem exec_started {pc pc' : Pc} {a : Choice} (h : exec marshal options id s pc a = some (s', pc'))
    (hs : s.started = false → s.Untouched) (hpc : pc ≠ .idle → s.started = true) :
    s'.started = true ∧ (pc'.shaking = true → pc.shaking = true ∨ s.started = false) := by
  revert h
  fun_cases exec marshal options id s pc a <;> intro h
  case case6 => exact ⟨(execHandshake_extends h).2.1 (hpc nofun), fun _ => .inl rfl⟩
  all_goals cases h
  case case2 => exact ⟨rfl, nofun⟩
  case case3 hstarted p hp => exact ⟨rfl, fun _ => .inr (Bool.eq_false_iff.2 hstarted)⟩
  case case4 hreg =>
    refine ⟨?_, nofun⟩
    by_contra hstarted
    rw [(hs (Bool.eq_false_iff.2 hstarted)).1] at hreg
    cases hreg
  case case8 => exact ⟨hpc nofun, nofun⟩

/-! ## Main result -/

/-- **The open packet is first.** In every run in which nobody obtains a websocket or webtransport
    session before its open packet is written, whatever the client gets starts with the open packet.
    A session on long polling needs no such condition. -/
theorem open_packet_first (marshal : OpenPacket → Option (List UInt8)) (options : Options)
    (id : String) (c : Pool State Pc) (hc : (program marshal options id).Reach Waits c) :
    c.shared.wire = [] ∨ ∃ p rest,
      openPacket marshal options id c.shared.type = some p ∧ c.shared.wire = p :: rest := by
  have hinv := hc.outline
    (I := fun s => OpensFirst marshal options id s ∧ (s.started = false → s.Untouched))
    (J := fun s pc => (pc ≠ .idle → s.started = true) ∧
      (s.wire = [] → pc.Early marshal options id s))
    (K := fun l m => ¬ (l.shaking = true ∧ m.shaking = true)) ?_
    (fun h => Bool.false_ne_true h.1) ?_ ?_
  · rcases hinv.1.1 with ⟨h, -⟩ | h
    · exact .inl h
    · exact .inr h
  · exact fun l m h hml => h hml.symm
  · rintro s ⟨type, rfl⟩
    refine ⟨⟨.inl ⟨rfl, ?_⟩, fun _ => ⟨rfl, rfl⟩⟩, nofun, fun _ => trivial⟩
    rintro rfl
    exact ⟨rfl, .inl rfl, rfl⟩
  · intro s pc a s' pc' hwaits ⟨hfirst, huntouched⟩ ⟨hstarted, hearly⟩ hx
    obtain ⟨htype, -, more, hmore⟩ := exec_extends hx
    obtain ⟨hstarted', hshaking⟩ := exec_started hx huntouched hstarted
    have hwire : s'.wire = [] → s.wire = [] := fun h =>
      (List.append_eq_nil_iff.1 (hmore.symm.trans h)).1
    have hnext : OpensFirst marshal options id s' ∧
        (s'.wire = [] → pc'.Early marshal options id s') := by
      rcases hfirst with ⟨hnil, hs⟩ | hopen
      · exact exec_early hx hwaits hnil hs (hearly hnil) fun h => (huntouched h).2
      · have hne : s.wire ≠ [] := by
          obtain ⟨p, rest, -, h⟩ := hopen
          rw [h]
          exact List.cons_ne_nil p rest
        exact ⟨OpensFirst.append (.inr hopen) hne htype hmore, fun h => absurd (hwire h) hne⟩
    refine ⟨⟨hnext.1, fun h => ?_⟩, ⟨fun _ => hstarted', hnext.2⟩, fun m ⟨hm, hmearly⟩ hK => ?_⟩
    · rw [hstarted'] at h
      cases h
    refine ⟨⟨fun _ => hstarted', fun h => ?_⟩, fun ⟨hpc', hm'⟩ => ?_⟩
    · refine (hmearly (hwire h)).bystander htype fun hms htypes => ?_
      refine exec_closed hx (Bool.eq_false_iff.2 fun hpcs => hK ⟨hpcs, hms⟩) (hearly (hwire h)) htypes
    · rcases hshaking hpc' with hpcs | hfresh
      · exact hK ⟨hpcs, hm'⟩
      · have hidle : m = .idle := by
          by_contra hne
          rw [hm hne] at hfresh
          cases hfresh
        rw [hidle] at hm'
        cases hm'

/-- A fresh session on a websocket, before its handshake. -/
def freshWebSocket : Pool State Pc :=
  ⟨{ session := { sock := { transport := some ⟨0, .websocket⟩ } }, type := .websocket },
    fun _ => .idle⟩

/-- Goroutine 1 obtains the session, takes up a call and flushes what it queued. -/
def broadcast (call : Call) : List (Nat × Choice) :=
  [(1, .lookup), (1, .session (.call call) 0), (1, .session .go 0), (1, .session .go 0),
    (1, .session .go 0), (1, .session .go 0), (1, .session (.written true) 0)]

/-- A broadcast that waits for the open packet. -/
theorem open_packet_first_run :
    ∃ c p, (program marshalOpenPacket {} "sid").Reach Waits c ∧
      openPacket marshalOpenPacket {} "sid" .websocket = some p ∧
      c.shared.wire = [p, { type := .message, data := [7] }] ∧
      (c.shared.wire = [] ∨ ∃ p rest, openPacket marshalOpenPacket {} "sid" c.shared.type = some p ∧
        c.shared.wire = p :: rest) := by
  have hinit : (program marshalOpenPacket {} "sid").Reach Waits freshWebSocket :=
    .init ⟨.websocket, rfl⟩
  have hrun : ∃ c p, (program marshalOpenPacket {} "sid").runIf Waits freshWebSocket
      ([(0, Choice.handshake), (0, .go), (0, .go), (0, .written true true)] ++
        broadcast (.send [7] false)) = some c ∧ openPacket marshalOpenPacket {} "sid" .websocket = some p ∧
      c.shared.wire = [p, { type := .message, data := [7] }] :=
    ⟨_, _, rfl, rfl, rfl⟩
  obtain ⟨c, p, hrun, hp, hwire⟩ := hrun
  have hc := hinit.runIf hrun
  exact ⟨c, p, hc, hp, hwire, open_packet_first _ _ _ c hc⟩

/-- Between the registration of a websocket session and the write of its open packet, another goroutine
    sends a message or closes the session, and the client gets that first. -/
theorem broadcast_overtakes_open :
    (∃ c p, (program marshalOpenPacket {} "sid").Reachable c ∧
      openPacket marshalOpenPacket {} "sid" .websocket = some p ∧
      c.shared.wire = [{ type := .message, data := [7] }, p]) ∧
    ∃ c, (program marshalOpenPacket {} "sid").Reachable c ∧
      c.shared.wire = [ServerSocket.closePacket] := by
  have hinit : (program marshalOpenPacket {} "sid").Reachable freshWebSocket :=
    .init ⟨.websocket, rfl⟩
  have hsend : ∃ c p, (program marshalOpenPacket {} "sid").run freshWebSocket
      ([(0, Choice.handshake), (0, .go)] ++ broadcast (.send [7] false) ++
        [(0, Choice.go), (0, .written true true)]) = some c ∧
      openPacket marshalOpenPacket {} "sid" .websocket = some p ∧
      c.shared.wire = [{ type := .message, data := [7] }, p] :=
    ⟨_, _, rfl, rfl, rfl⟩
  have hclose : ∃ c, (program marshalOpenPacket {} "sid").run freshWebSocket
      ([(0, Choice.handshake), (0, .go)] ++ broadcast .close) = some c ∧
      c.shared.wire = [ServerSocket.closePacket] :=
    ⟨_, rfl, rfl⟩
  obtain ⟨c, p, hrun, hp, hwire⟩ := hsend
  obtain ⟨d, hrun', hwire'⟩ := hclose
  exact ⟨⟨c, p, hinit.run hrun, hp, hwire⟩, d, hinit.run hrun', hwire'⟩

end EngineIo.Server.Handshake
