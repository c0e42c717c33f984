import EngineIo.Client.Delivery
import EngineIo.Concurrency.Carried
import EngineIo.EndToEnd.System
import EngineIo.EndToEnd.Upload
import EngineIo.Server.Inbound
import EngineIo.Server.Outgoing

set_option autoImplicit false

/-! # From the client's buffer to the server's message handler

The other direction of a session during an upgrade. A `State` is the goroutines of the client `Socket`,
those that feed packets into the `ServerSocket` (the POSTs and the read loop of the websocket), and what
is between them: the POST that is outstanding and the frames on the websocket the client has dialled.

A flush over long polling is a POST that one goroutine of the client waits for while one of the server
dispatches its packets; its response may get lost. A write on the websocket that fails may have put some
of its frames on the wire, but none is written behind them. The application sends messages whose text does
not contain the separator. What the server writes does not matter here: the client's callbacks run at any
moment, with anything. -/

namespace EngineIo.EndToEnd.Uplink

open Concurrency
open Client (Entry Goroutine Write)
open Server.Inbound (Event)
open Server.Inbound renaming State → Session, Pc → Handler, Choice → HandlerChoice
open Server (handleSend Post SendOutcome)

/-! ## The network -/

/-- The POST that goroutine `i` of the client waits for, and the goroutine `j` of the server that dispatches
    its packets. -/
inductive Posting
  | none
  | handling (i j : Nat)
  | answered (i : Nat)
deriving DecidableEq, Repr

/-- The goroutine of the client that waits. -/
def Posting.waiting : Posting → Option Nat
  | .none => Option.none
  | .handling i _ | .answered i => some i

/-- Goroutine `j` of the server is done. -/
def Posting.answer (j : Nat) : Posting → Posting
  | .handling i j' => if j' = j then .answered i else .handling i j'
  | p => p

structure Network where
  post : Posting := .none
  /-- The websocket of the client, and whether a write on it has failed. -/
  dialled : Option Transport := none
  broken : Bool := false
  /-- The packets whose frames are on their way to the server. -/
  up : List Packet := []
  /-- Whether the server has started to read them. -/
  reading : Bool := false
deriving DecidableEq, Repr

structure State where
  client : Pool Client.World Goroutine
  server : Pool Session Handler
  net : Network

/-- What the application may send. -/
def Message (p : Packet) : Prop := p.type = .message ∧ p.Separable

instance (p : Packet) : Decidable (Message p) := inferInstanceAs (Decidable (_ ∧ _))

/-- The request of a flush over long polling. -/
def posts (chunk : List Entry) : Post :=
  { contentType := textPlain, bytes := encodePayload (chunk.map Entry.packet) }

/-! ## Steps -/

/-- The network's part in a section of goroutine `i` of the client; `out` is how many frames a failing write
    has put on the wire. -/
def Network.client (net : Network) (i : Nat) (g : Goroutine) (a : Client.Choice) (out : Nat) :
    Option Network :=
  match g.pc, a with
  | .idle, .call (.send ps) => if ∀ p ∈ ps, Message p then some net else none
  | .flush (.sendChunks _ _ t _ (chunk :: _)), .sent ok =>
    if t.type = .polling then
      if ok then
        if net.post = .answered i then some { net with post := .none } else none
      else
        -- nobody has taken the request, or its response is lost
        if net.post = .none then some net
        else if net.post.waiting = some i then some { net with post := .none } else none
    else if net.dialled = some t ∧ net.broken = false then
      if ok then some { net with up := net.up ++ chunk.map Entry.packet }
      else some { net with up := net.up ++ (chunk.take out).map Entry.packet, broken := true }
    else if ok then none else some net
  | .probe (.openTransport t _), .sent ok =>
    if net.dialled = none ∧ t.type = .websocket then
      some { net with
        dialled := some t, broken := !ok, up := if ok then net.up ++ [probePing] else net.up }
    else none
  | .probe (.sendUpgrade t _), .sent ok =>
    if ok then
      if net.dialled = some t ∧ net.broken = false then
        some { net with up := net.up ++ [upgradePacket] }
      else none
    else some { net with broken := true }
  | _, _ => some net

/-- The network's part in a section of goroutine `j` of the server. The websocket is probing until the
    session has switched to it. -/
def Network.server (net : Network) (j : Nat) (s : Session) (l : Handler) (a : HandlerChoice) :
    Option Network :=
  match l, a with
  | .idle, .post _ => none
  | .idle, .read t =>
    if t.type = .websocket ∧ net.dialled ≠ none ∧ net.reading = false then
      some { net with reading := true }
    else none
  | .idle, .onMessage registered => if registered then some net else none
  -- only the upgrade packet completes an upgrade
  | _, .session (.call (.completeUpgrade _)) => none
  | .read _, .frame probing frame =>
    if probing = decide (s.world.swaps = 0) then
      match frame, net.up with
      | none, _ => some net
      | some frame, p :: up => if frame = encodeFrame p then some { net with up } else none
      | some _, [] => none
    else none
  | .read _, .stream _ _ => none
  | .dispatch [] none, _ => some { net with post := net.post.answer j }
  | _, _ => some net

/-- What can happen. -/
inductive Act
  | client (i : Nat) (a : Client.Choice) (out : Nat)
  | server (j : Nat) (a : HandlerChoice)
  /-- Goroutine `j` of the server takes the POST of goroutine `i` of the client. -/
  | post (i j : Nat)
deriving DecidableEq, Repr

def step (maxPayload : Int) (s : State) : Act → Option State
  | .client i a out =>
    match Client.program.step s.client i a with
    | none => none
    | some client =>
      (s.net.client i (s.client.thread i) a out).map fun net => { s with client, net }
  | .server j a =>
    match (Server.Inbound.program maxPayload).step s.server j a with
    | none => none
    | some server =>
      (s.net.server j s.server.shared (s.server.thread j) a).map fun net => { s with server, net }
  | .post i j =>
    match (s.client.thread i).pc with
    | .flush (.sendChunks _ _ t _ (chunk :: _)) =>
      match handleSend maxPayload (posts chunk) with
      | .ok _ =>
        if t.type = .polling ∧ s.net.post = .none then
          ((Server.Inbound.program maxPayload).step s.server j (.post (posts chunk))).map
            fun server => { s with server, net := { s.net with post := .handling i j } }
        else none
      -- what the session does then does not matter: the client sees the write fail
      | _ => none
    | _ => none

/-- A write that fails while the server has taken its packets: the response was lost. -/
def Lost (s : State) : Act → Prop
  | .client i a _ => a = .sent false ∧ s.net.post.waiting = some i
  | _ => False

instance (s : State) : DecidablePred (Lost s)
  | .client .. => inferInstanceAs (Decidable (_ ∧ _))
  | .server .. | .post .. => inferInstanceAs (Decidable False)

/-- A client that has not been opened, and a fresh session with a message handler. -/
def State.Initial (s : State) : Prop :=
  s.client.shared.Fresh ∧ (∀ i, s.client.thread i = .idle) ∧
    (s.server.shared.world.Fresh ∧ s.server.shared.events = []) ∧
    s.server.shared.onMessageHandler = true ∧ (∀ j, s.server.thread j = .idle) ∧ s.net = {}

/-- The states that are reached on one connection of the client that loses no response. -/
inductive Reaches (maxPayload : Int) : State → Prop
  | init {s : State} (h : s.Initial) : Reaches maxPayload s
  | step {s s' : State} {a : Act} (hs : Reaches maxPayload s)
      (h : step maxPayload s a = some s') (hone : Client.OneConnection s'.client.shared)
      (hlost : ¬ Lost s a) : Reaches maxPayload s'

/-! ## What a goroutine of the server holds -/

/-- The read loop a goroutine belongs to. -/
def source : Handler → Option Transport
  | .idle => none
  | .read t => some t
  | .dispatch _ t | .invoke _ _ t | .session _ _ t => t

/-- The messages a goroutine has got and not given to the message handler yet. -/
def load : Handler → List Packet
  | .idle | .read _ => []
  | .dispatch ps _ | .session _ ps _ => messages ps
  | .invoke p ps _ => p :: messages ps

/-- Whether a goroutine is about to switch the session to its transport. -/
def completing : Handler → Bool
  | .session (.upgrade (.beginCompleteUpgrade _)) _ _ => true
  | _ => false

/-- The messages given to the message handler. -/
def heard (s : Session) : List Packet :=
  s.events.filterMap fun
    | .message p => some p
    | .close _ => none

/-- A section that takes no packets from the network. -/
structure Passes (s : Session) (l : Handler) (s' : Session) (l' : Handler) : Prop where
  grows : heard s <+: heard s'
  passes : heard s' ++ load l' = heard s ++ load l
  handler : s'.onMessageHandler = s.onMessageHandler
  source : source l' = source l ∨ source l' = none ∧ load l' = []
  swaps : s'.world.swaps = s.world.swaps ∨ completing l = true
  completing : completing l' = false

/-- What a section of the server does, with the network's part. -/
inductive ServerStep (net : Network) (j : Nat) (s : Session) (l : Handler) :
    Network → Session → Handler → Prop
  | pass {s' : Session} {l' : Handler} (h : Passes s l s' l') : ServerStep net j s l net s' l'
  /-- All packets of a POST have been dispatched. -/
  | answer (hl : l = .dispatch [] none) :
      ServerStep net j s l { net with post := net.post.answer j } s .idle
  | start {t : Transport} (hl : l = .idle) (hreading : net.reading = false) :
      ServerStep net j s l { net with reading := true } s (.read t)
  | probe {t : Transport} {p : Packet} {up : List Packet} (hl : l = .read t)
      (hswaps : s.world.swaps = 0) (hup : net.up = p :: up) :
      ServerStep net j s l { net with up } s (Server.Inbound.handleProbePacket t p)
  | frame {t : Transport} {p : Packet} {up : List Packet} (hl : l = .read t)
      (hswaps : s.world.swaps ≠ 0) (hup : net.up = p :: up) :
      ServerStep net j s l { net with up } s (.dispatch [p] (some t))

variable {net net' : Network} {s s' : Session} {l l' : Handler} {j : Nat}

/-- Nothing but a call of `completeUpgrade` leads to its first section. -/
theorem exec_completing {w w' : Server.World} {pc : Server.Pc} {a : Server.Choice} {t : Transport}
    (h : Server.exec w pc a = some (w', .upgrade (.beginCompleteUpgrade t))) :
    a = .call (.completeUpgrade t) := by
  revert h
  fun_cases Server.exec w pc a <;> intro h
  case case1 c =>
    revert h
    fun_cases Server.startCall w c <;> intro h <;> cases h
    rfl
  case case11 pc =>
    revert h
    fun_cases Server.execFlush w pc a <;> intro h
    case case11 =>
      obtain ⟨-, h⟩ := Prod.mk.inj (Option.some.inj h)
      split at h
      · cases h
      · split at h <;> cases h
    case case12 k => cases k <;> cases h
    all_goals cases h
  case case12 pc =>
    revert h
    fun_cases Server.execTeardown w pc a <;> intro h
    case case1 r _ => cases r <;> cases h
    case case6 r => cases r <;> cases h
    all_goals cases h
  case case13 pc =>
    revert h
    fun_cases Server.execPoll w pc a <;> intro h
    all_goals first
      | cases h
      | (obtain ⟨-, h⟩ := Prod.mk.inj (Option.some.inj h)
         split at h <;> cases h)
  case case14 pc =>
    revert h
    fun_cases Server.execUpgrade w pc a <;> intro h
    all_goals first
      | cases h
      | (obtain ⟨-, h⟩ := Prod.mk.inj (Option.some.inj h)
         split at h <;> cases h)
  all_goals cases h

/-- Of the sections of a session only the switch to the websocket is noticed here. -/
theorem execSession_passes {pc : Server.Pc} {ps : List Packet} {t : Option Transport}
    {a : Server.Choice} (h : Server.Inbound.execSession s pc ps t a = some (s', l'))
    (ha : ∀ t, a ≠ .call (.completeUpgrade t)) (hload : load l = messages ps) (ht : source l = t)
    (hpc : ∀ t, pc = .upgrade (.beginCompleteUpgrade t) → completing l = true) :
    Passes s l s' l' := by
  unfold Server.Inbound.execSession at h
  split at h
  · cases h
  · next w pc' hx =>
    cases h
    have hheard : heard { s with
        world := w
        events := s.events ++ (w.closeReasons.drop s.world.closeReasons.length).map .close } =
        heard s := by
      unfold heard
      rw [List.filterMap_append, List.filterMap_map]
      exact (congrArg _ (List.filterMap_eq_nil_iff.2 fun _ _ => rfl)).trans (List.append_nil _)
    have hload' : load (if pc' = .idle then .dispatch ps t else .session pc' ps t) = messages ps := by
      split <;> rfl
    refine ⟨by rw [hheard], by rw [hheard, hload', hload], rfl, .inl ?_, ?_, ?_⟩
    · rw [ht]
      split <;> rfl
    · exact (Server.exec_swaps hx).imp_right fun ⟨t, heq⟩ => hpc t heq
    · split
      · rfl
      · refine Bool.eq_false_iff.2 fun hcompleting => ?_
        unfold completing at hcompleting
        split at hcompleting
        · next heq =>
          cases heq
          exact ha _ (exec_completing hx)
        · cases hcompleting

theorem handlePacket_passes {p : Packet} {ps : List Packet} {t : Option Transport}
    (hs : s.onMessageHandler = true) :
    Passes s (.dispatch (p :: ps) t) (Server.Inbound.handlePacket s p ps t).1
      (Server.Inbound.handlePacket s p ps t).2 := by
  have hother (hp : p.type ≠ .message) : messages ps = messages (p :: ps) := by
    simp [messages, hp]
  unfold Server.Inbound.handlePacket
  split
  · next hp =>
    have hne : p.type ≠ .message := by rw [hp]; decide
    exact ⟨List.prefix_rfl, congrArg _ (hother hne), rfl, .inl rfl, .inl rfl, rfl⟩
  · split
    · next hp =>
      have hload : p :: messages ps = messages (p :: ps) := by simp [messages, hp]
      exact ⟨List.prefix_rfl, congrArg _ hload, rfl, .inl rfl, .inl rfl, rfl⟩
    · next hp =>
      split <;> exact ⟨List.prefix_rfl, congrArg _ (hother hp), rfl, .inl rfl, .inl rfl, rfl⟩

theorem invoke_passes {p : Packet} {ps : List Packet} {t : Option Transport} :
    Passes s (.invoke p ps t)
      { s with called := s.called - 1, events := s.events ++ [.message p] } (.dispatch ps t) := by
  have hheard : heard { s with called := s.called - 1, events := s.events ++ [.message p] } =
      heard s ++ [p] := by
    unfold heard
    rw [List.filterMap_append]
    rfl
  refine ⟨?_, ?_, rfl, .inl rfl, .inl rfl, rfl⟩
  · rw [hheard]
    exact List.prefix_append _ _
  · rw [hheard, List.append_assoc]
    rfl

/-- The turn of a read loop whose read has failed. -/
theorem failedTurn_passes {t : Transport} {closed probing : Bool}
    (h : Server.Inbound.execTurn s t (Server.webSocketTurn closed probing none) = some (s', l')) :
    Passes s (.read t) s' l' := by
  cases closed <;> cases probing <;> cases h <;>
    exact ⟨List.prefix_rfl, rfl, rfl, .inr ⟨rfl, rfl⟩, .inl rfl, rfl⟩

/-- The turn of a read loop that has read the frame of a packet. -/
theorem execTurn_frame {t : Transport} {closed probing : Bool} {p : Packet} (hp : p.WellFormed) :
    Server.Inbound.execTurn s t (Server.webSocketTurn closed probing (some (encodeFrame p))) =
      some (s, if probing then Server.Inbound.handleProbePacket t p else .dispatch [p] (some t)) := by
  simp only [Server.webSocketTurn, decodeWebSocketFrame_encodeFrame hp]
  cases probing <;> rfl

theorem server_session {a : Server.Choice} (hl : l ≠ .dispatch [] none)
    (h : net.server j s l (.session a) = some net') :
    net' = net ∧ ∀ t, a ≠ .call (.completeUpgrade t) := by
  generalize hb : Server.Inbound.Choice.session a = b at h
  revert h
  fun_cases Network.server net j s l b <;> intro h
  case case13 => exact absurd rfl hl
  case case14 hcomplete _ _ _ _ _ =>
    cases h
    exact ⟨rfl, fun t ha => hcomplete t (by rw [← hb, ha])⟩
  all_goals first
    | (cases hb; done)
    | cases h

theorem serverStep_of_server {maxPayload : Int} {a : HandlerChoice}
    (hs : s.onMessageHandler = true) (hup : ∀ p ∈ net.up, p.WellFormed)
    (hx : Server.Inbound.exec maxPayload s l a = some (s', l'))
    (hnet : net.server j s l a = some net') : ServerStep net j s l net' s' l' := by
  revert hx
  fun_cases Server.Inbound.exec maxPayload s l a <;> intro hx
  case case5 t =>
    obtain ⟨⟨-, -, hreading⟩, heq⟩ := Option.ite_none_right_eq_some.1 hnet
    cases heq
    cases hx
    exact .start rfl hreading
  case case6 registered =>
    obtain ⟨hregistered, heq⟩ := Option.ite_none_right_eq_some.1 hnet
    cases heq
    cases hx
    exact .pass ⟨List.prefix_rfl, rfl, hregistered.trans hs.symm, .inl rfl, .inl rfl, rfl⟩
  case case7 a =>
    obtain ⟨rfl, ha⟩ := server_session (by simp) hnet
    exact .pass (execSession_passes hx ha rfl rfl fun _ h => by cases h)
  case case8 t probing frame _ =>
    obtain ⟨hprobing, hnet⟩ := Option.ite_none_right_eq_some.1 hnet
    cases frame with
    | none =>
      cases hnet
      exact .pass (failedTurn_passes hx)
    | some frame =>
      split at hnet
      · next heq => cases heq
      · next p up heq hnetup =>
        cases heq
        obtain ⟨rfl, heq⟩ := Option.ite_none_right_eq_some.1 hnet
        cases heq
        rw [execTurn_frame (hup p (hnetup ▸ List.mem_cons_self))] at hx
        cases hx
        by_cases hswaps : s.world.swaps = 0
        · simp only [hswaps, decide_true] at hprobing
          rw [hprobing]
          exact .probe rfl hswaps hnetup
        · simp only [hswaps, decide_false] at hprobing
          rw [hprobing]
          exact .frame rfl hswaps hnetup
      · cases hnet
  case case12 =>
    cases hnet
    cases hx
    exact .answer rfl
  case case13 t =>
    cases hnet
    cases hx
    exact .pass ⟨List.prefix_rfl, rfl, rfl, .inl rfl, .inl rfl, rfl⟩
  case case14 p ps t =>
    cases hnet
    obtain ⟨rfl, rfl⟩ : (Server.Inbound.handlePacket s p ps t).1 = s' ∧
        (Server.Inbound.handlePacket s p ps t).2 = l' := by
      simpa [Prod.ext_iff] using hx
    exact .pass (handlePacket_passes hs)
  case case15 p ps t =>
    cases hnet
    cases hx
    exact .pass invoke_passes
  case case16 pc ps t a =>
    obtain ⟨rfl, ha⟩ := server_session (by simp) hnet
    exact .pass (execSession_passes hx ha rfl rfl fun t h => by rw [h]; rfl)
  all_goals first
    | (cases hx; done)
    | cases hnet

/-! ## What a goroutine of the client writes -/

/-- The chunk a goroutine is posting. -/
def posting (g : Goroutine) : Option (List Entry) :=
  match g.pc with
  | .flush (.sendChunks _ _ t _ (chunk :: _)) => if t.type = .polling then some chunk else none
  | _ => none

/-- The packets of a `Send` that is about to append them to the buffer. -/
def sending (g : Goroutine) : List Packet :=
  match g.pc with
  | .flush (.send ps) => ps
  | _ => []

/-- What is sent: the messages of the application and the answers to pings. -/
def Posted (p : Packet) : Prop := Message p ∨ p = { type := .pong }

/-- What a section of the client does to the wire, with the network's part. -/
inductive Wrote (net : Network) (i : Nat) (g : Goroutine) (wire : List Write) :
    Network → List Write → Prop
  | nothing (h : posting g = none ∨ net.post = .none) : Wrote net i g wire net wire
  /-- The response of a POST. -/
  | posted {k : Client.Cont} {r : Nat} {t : Transport} {handed chunk : List Entry}
      {chunks : List (List Entry)} (hg : g.pc = .flush (.sendChunks k r t handed (chunk :: chunks)))
      (ht : t.type = .polling) (hpost : net.post = .answered i) :
      Wrote net i g wire { net with post := .none } (wire ++ chunk.map (.entry t))
  /-- All frames of a write are on the websocket. -/
  | written {k : Client.Cont} {r : Nat} {t : Transport} {handed chunk : List Entry}
      {chunks : List (List Entry)} (hg : g.pc = .flush (.sendChunks k r t handed (chunk :: chunks)))
      (hdialled : net.dialled = some t) (hbroken : net.broken = false) :
      Wrote net i g wire { net with up := net.up ++ chunk.map Entry.packet }
        (wire ++ chunk.map (.entry t))
  /-- Some frames of a write are. -/
  | cut {k : Client.Cont} {r : Nat} {t : Transport} {handed chunk : List Entry}
      {chunks : List (List Entry)} {out : Nat}
      (hg : g.pc = .flush (.sendChunks k r t handed (chunk :: chunks)))
      (hdialled : net.dialled = some t) (hbroken : net.broken = false) :
      Wrote net i g wire
        { net with up := net.up ++ (chunk.take out).map Entry.packet, broken := true } wire
  | dial {t : Transport} {rest : List TransportType} (ok : Bool)
      (hg : g.pc = .probe (.openTransport t rest)) (hdialled : net.dialled = none)
      (ht : t.type = .websocket) :
      Wrote net i g wire
        { net with
          dialled := some t, broken := !ok, up := if ok then net.up ++ [probePing] else net.up }
        (if ok then wire ++ [.probe t] else wire)
  | upgrade {t : Transport} {rest : List TransportType} (hg : g.pc = .probe (.sendUpgrade t rest))
      (hdialled : net.dialled = some t) (hbroken : net.broken = false) :
      Wrote net i g wire { net with up := net.up ++ [upgradePacket] } (wire ++ [.upgrade t])
  | abandoned {t : Transport} {rest : List TransportType} (hg : g.pc = .probe (.sendUpgrade t rest)) :
      Wrote net i g wire { net with broken := true } wire

structure ClientStep (net : Network) (i : Nat) (w : Client.World) (g : Goroutine) (net' : Network)
    (w' : Client.World) (g' : Goroutine) : Prop where
  wrote : Wrote net i g w.wire net' w'.wire
  accepted : w'.accepted = w.accepted ∨ w'.accepted = w.accepted ++ w.stamp (sending g)
  sending : ∀ p ∈ sending g', Posted p
  installed : w'.installed = w.installed ∨ ∃ t, g.pc = .opening (.installTransport t)

variable {w w' : Client.World} {g g' : Goroutine} {o : Client.Origin} {a : Client.Choice} {i out : Nat}

theorem ClientStep.of_eq (hg : posting g = none) (hwire : w'.wire = w.wire)
    (haccepted : w'.accepted = w.accepted) (hinstalled : w'.installed = w.installed)
    (hg' : ∀ p ∈ Uplink.sending g', Posted p) : ClientStep net i w g net w' g' :=
  ⟨hwire ▸ .nothing (.inl hg), .inl haccepted, hg', .inl hinstalled⟩

theorem sending_idle : ∀ p ∈ sending .idle, Posted p := fun _ hp => absurd hp List.not_mem_nil

theorem sending_resume (o : Client.Origin) (k : Client.Cont) : sending (k.resume o) = [] := by
  cases k <;> rfl

theorem clientStep_call {c : Client.Call} (h : Client.startCall w c = some (w', g'))
    (hnet : net.client i ⟨o, .idle⟩ (.call c) out = some net') :
    ClientStep net i w ⟨o, .idle⟩ net' w' g' := by
  obtain ⟨rfl, hsend⟩ : net' = net ∧ ∀ ps, c = .send ps → ∀ p ∈ ps, Message p := by
    unfold Network.client at hnet
    split at hnet
    · next heq =>
      obtain ⟨hps, heq'⟩ := Option.ite_none_right_eq_some.1 hnet
      cases heq
      cases heq'
      exact ⟨rfl, fun ps hc => by cases hc; exact hps⟩
    · next heq _ => cases heq
    · next heq _ => cases heq
    · next heq _ => cases heq
    · next hne _ _ _ =>
      cases hnet
      exact ⟨rfl, fun ps hc => (hne ps rfl (by rw [hc])).elim⟩
  revert h
  fun_cases Client.startCall w c <;> intro h <;> cases h
  case case3 ps => exact .of_eq rfl rfl rfl rfl fun p hp => .inl (hsend ps rfl p hp)
  all_goals exact .of_eq rfl rfl rfl rfl fun _ hp => absurd hp List.not_mem_nil

theorem clientStep_open {pc : Client.OpenPc} (h : Client.execOpen w o pc a = some (w', g'))
    (hnet : net.client i ⟨o, .opening pc⟩ a out = some net') :
    ClientStep net i w ⟨o, .opening pc⟩ net' w' g' := by
  obtain rfl : net = net' := Option.some.inj hnet
  revert h
  fun_cases Client.execOpen w o pc a <;> intro h <;> cases h
  case case6 t =>
    exact ⟨.nothing (.inl rfl), .inl rfl, fun _ hp => absurd hp List.not_mem_nil, .inr ⟨t, rfl⟩⟩
  all_goals exact .of_eq rfl rfl rfl rfl fun _ hp => absurd hp List.not_mem_nil

theorem clientStep_flush {pc : Client.FlushPc} (h : Client.execFlush w o pc a = some (w', g'))
    (hlost : ¬ (a = .sent false ∧ net.post.waiting = some i))
    (hnet : net.client i ⟨o, .flush pc⟩ a out = some net') :
    ClientStep net i w ⟨o, .flush pc⟩ net' w' g' := by
  revert h
  fun_cases Client.execFlush w o pc a <;> intro h <;> cases h
  case case1 =>
    cases hnet
    exact .of_eq rfl rfl rfl rfl sending_idle
  case case2 =>
    cases hnet
    exact ⟨.nothing (.inl rfl), .inr rfl, fun _ hp => absurd hp List.not_mem_nil, .inl rfl⟩
  case case3 k _ =>
    cases hnet
    exact .of_eq rfl rfl rfl rfl fun _ hp => by rw [sending_resume] at hp; cases hp
  case case4 =>
    cases hnet
    exact .of_eq rfl rfl rfl rfl fun _ hp => absurd hp List.not_mem_nil
  case case5 k r t handed chunk chunks =>
    refine ⟨?_, .inl rfl, fun _ hp => absurd hp List.not_mem_nil, .inl rfl⟩
    simp only [Network.client, if_true] at hnet
    split at hnet
    · next ht =>
      obtain ⟨hpost, heq⟩ := Option.ite_none_right_eq_some.1 hnet
      cases heq
      exact .posted rfl ht hpost
    · split at hnet
      · next hws =>
        cases hnet
        exact .written rfl hws.1 hws.2
      · cases hnet
  case case6 k r t handed chunk chunks =>
    refine ⟨?_, .inl rfl, fun _ hp => absurd hp List.not_mem_nil, .inl rfl⟩
    simp only [Network.client, Bool.false_eq_true, if_false] at hnet
    split at hnet
    · split at hnet
      · next hpost =>
        cases hnet
        exact .nothing (.inr hpost)
      · obtain ⟨hpost, -⟩ := Option.ite_none_right_eq_some.1 hnet
        exact absurd ⟨rfl, hpost⟩ hlost
    · next ht =>
      split at hnet
      · next hws =>
        cases hnet
        exact .cut rfl hws.1 hws.2
      · cases hnet
        exact .nothing (.inl (if_neg ht))
  case case7 =>
    cases hnet
    exact .of_eq rfl rfl rfl rfl fun _ hp => absurd hp List.not_mem_nil
  case case8 =>
    cases hnet
    exact .of_eq rfl rfl rfl rfl fun _ hp => absurd hp List.not_mem_nil
  case case9 k _ _ _ _ more _ =>
    cases hnet
    refine .of_eq rfl rfl rfl rfl fun _ hp => ?_
    split at hp
    · cases hp
    · rw [sending_resume] at hp
      cases hp

theorem clientStep_probe {pc : Client.ProbePc} (h : Client.execProbe w o pc a = some (w', g'))
    (hnet : net.client i ⟨o, .probe pc⟩ a out = some net') :
    ClientStep net i w ⟨o, .probe pc⟩ net' w' g' := by
  revert h
  fun_cases Client.execProbe w o pc a <;> intro h <;> cases h
  case case6 t rest ok =>
    obtain ⟨⟨hdialled, ht⟩, heq⟩ := Option.ite_none_right_eq_some.1 hnet
    cases heq
    exact ⟨.dial ok rfl hdialled ht, .inl rfl, fun _ hp => absurd hp List.not_mem_nil, .inl rfl⟩
  case case13 t rest =>
    obtain ⟨⟨hdialled, hbroken⟩, heq⟩ := Option.ite_none_right_eq_some.1 hnet
    cases heq
    exact ⟨.upgrade rfl hdialled hbroken, .inl rfl, fun _ hp => absurd hp List.not_mem_nil, .inl rfl⟩
  case case14 t rest =>
    cases hnet
    exact ⟨.abandoned rfl, .inl rfl, fun _ hp => absurd hp List.not_mem_nil, .inl rfl⟩
  all_goals
    cases hnet
    exact .of_eq rfl rfl rfl rfl fun _ hp => absurd hp List.not_mem_nil

theorem clientStep_packet {pc : Client.PacketPc} (h : Client.execPacket w o pc a = some (w', g'))
    (hnet : net.client i ⟨o, .packet pc⟩ a out = some net') :
    ClientStep net i w ⟨o, .packet pc⟩ net' w' g' := by
  obtain rfl : net = net' := Option.some.inj hnet
  revert h
  fun_cases Client.execPacket w o pc a <;> intro h <;> cases h
  case case3 p =>
    refine .of_eq rfl rfl rfl rfl fun q hq => ?_
    split at hq
    · cases hq
    · split at hq
      · exact .inr (List.mem_singleton.1 hq)
      · cases hq
  case case6 p =>
    refine .of_eq rfl rfl rfl rfl fun q hq => ?_
    split at hq <;> cases hq
  all_goals exact .of_eq rfl rfl rfl rfl fun _ hp => absurd hp List.not_mem_nil

theorem clientStep_of_client (hx : Client.exec w g a = some (w', g'))
    (hlost : ¬ (a = .sent false ∧ net.post.waiting = some i))
    (hnet : net.client i g a out = some net') : ClientStep net i w g net' w' g' := by
  obtain ⟨hp, hd⟩ := Client.exec_dispatch hx
  cases hd with
  | call =>
    cases a with
    | call c =>
      have hcall : Client.startCall w c = some (w', g') := by simpa [Client.exec, hp] using hx
      exact clientStep_call hcall hnet
    | _ => simp [Client.exec, hp] at hx
  | opening h => exact clientStep_open h hnet
  | flush h => exact clientStep_flush h hlost hnet
  | @close o pc h =>
    cases hnet
    clear hx
    revert h
    fun_cases Client.execClose w o pc a <;> intro h <;> cases h <;>
      exact .of_eq rfl rfl rfl rfl fun _ hp => absurd hp List.not_mem_nil
  | packet h => exact clientStep_packet h hnet
  | @teardown o pc h =>
    cases hnet
    clear hx
    revert h
    fun_cases Client.execTeardown w o pc a <;> intro h <;> cases h <;>
      exact .of_eq rfl rfl rfl rfl fun _ hp => absurd hp List.not_mem_nil
  | probe h => exact clientStep_probe h hnet

end EngineIo.EndToEnd.Uplink
