import EngineIo.Client.Passage
import EngineIo.Codec.Payload
import EngineIo.Server.Routing

set_option autoImplicit false

/-! # A session and its client during an upgrade

A `System` is the goroutines of one `ServerSocket` that was established on long polling, those of the
client `Socket` at the other end, and the network between them: the poll request or response that is
outstanding, and the two directions of the websocket the client probes. `step` runs one section at
either end, as the network allows it.

The network is reliable. A response that was written arrives, a frame that was written arrives behind
the earlier ones, a connection does not fail under its readers and writers, and a write of the upgrade
packet that fails has put nothing on the wire. Text messages do not contain the separator of the
payload format. What the client sends apart from its probe plays no role here: its pongs reach the
server at any moment, and its messages touch no section of the session. -/

namespace EngineIo.EndToEnd

open Concurrency
open Server (Pc World)
open Client.Switchover (PollResult frames handles)
open Client.Switchover renaming Frame → CallFrame, Choice → ClientChoice

/-! ## The network -/

/-- Where the client's poll is. -/
inductive Poll
  | idle
  | requested
  /-- A goroutine of the server waits on the channel. -/
  | serving (ch : Nat)
  /-- The response is on its way: the packets of its body, or an error status. -/
  | answered (packets : Option (List Packet))
deriving DecidableEq, Repr

structure Network where
  poll : Poll := .idle
  /-- Whether the client has dialled the websocket, and the server taken it up. -/
  dialled : Bool := false
  accepted : Bool := false
  /-- The packets of the probe that are on their way to the server. -/
  up : List Packet := []
  /-- The packets whose frames are on their way to the client. -/
  down : List Packet := []
  /-- The packets of the server's write in progress whose frames have been written. -/
  batch : List Packet := []
  /-- The messages the client's message handler has got. -/
  delivered : List Packet := []
  /-- History: whether the upgrade packet has been sent, and whether a flush has written a frame. -/
  upgradeSent : Bool := false
  committed : Bool := false
deriving DecidableEq, Repr

structure System where
  server : Pool World Pc
  client : Pool Client.Switchover.World (List CallFrame)
  net : Network

/-- The websocket at the server's end: the first transport constructed after the polling one. -/
def webSocket : Transport := ⟨1, .websocket⟩

def probePing : Packet := { type := .ping, data := Server.probeData }
def probePong : Packet := { type := .pong, data := Server.probeData }
def upgradePacket : Packet := { type := .upgrade }

/-- What the client's read loop makes of a frame. -/
def received (p : Packet) : Option Packet := (decodeWebSocketFrame (encodeFrame p)).toOption

/-- What the client's poll returns. -/
def pollResult : Option (List Packet) → PollResult
  | none => .failed
  | some ps => .body (decodePayload 4 (encodePayload ps)).toOption

/-- The payload in the channel of a poll. -/
def payload (inbox : List (Nat × List Packet)) (ch : Nat) : List Packet :=
  ((inbox.find? (·.1 = ch)).map Prod.snd).getD []

/-! ## Steps -/

/-- The first packet of the probe that is on its way, if the server's read loop gives it to the call `c`. -/
def Network.read (net : Network) (w : World) (c : Server.Call) : Option (List Packet) :=
  match net.up with
  | [] => none
  | p :: up =>
    if w.sock.upgradeTransport = some webSocket ∧
      Server.handleProbePacket webSocket p true = some c then some up
    else none

/-- The network's part in a section of the server that takes a goroutine from `pc` to `pc'`. -/
def Network.server (net : Network) (w : World) (pc : Pc) (a : Server.Choice) (pc' : Pc) :
    Option Network :=
  match pc, a with
  | .idle, .call (.send data isBinary) =>
    if isBinary = false ∧ separator ∈ data then none else some net
  | .idle, .call .poll =>
    if net.poll = .requested then some { net with poll := .serving w.channels } else none
  | .idle, .call (.startUpgrade type) =>
    if type = .websocket ∧ net.dialled = true ∧ net.accepted = false then
      some { net with accepted := true }
    else none
  | .idle, .call .onProbe =>
    -- the pong is written first
    (net.read w .onProbe).map fun up => { net with up, down := net.down ++ [probePong] }
  | .idle, .call (.completeUpgrade t) =>
    (net.read w (.completeUpgrade t)).map fun up => { net with up }
  | .poll (.hold ch), _ =>
    -- a poll that cannot be held is answered with an error
    some (if pc' = .flush (.lock (.poll ch)) then net else { net with poll := .answered none })
  | .poll (.await ch), .responded true =>
    some { net with poll := .answered (some (payload w.inbox ch)) }
  | .poll (.await _), _ => none
  | .flush (.writeFrames _ packets), .written true =>
    if net.batch = packets then some { net with batch := [] } else none
  | .flush (.writeFrames _ _), _ => none
  | _, _ => some net

/-- The network's part in a section of the client that takes a goroutine from `l` to `l'`. -/
def Network.client (net : Network) (l : List CallFrame) (a : ClientChoice) (l' : List CallFrame) :
    Option Network :=
  match l, a with
  | [], .handshake ps =>
    -- the server writes nothing but the open packet
    if ps = [] then some net else none
  | .pollCheck :: _, _ =>
    some (if l' = [.pollRequest] then { net with poll := .requested } else net)
  | .pollRequest :: _, .polled r =>
    match net.poll with
    | .answered packets => if r = pollResult packets then some { net with poll := .idle } else none
    | _ => none
  | .read _ :: _, .frame r =>
    match net.down with
    | p :: down => if r = received p then some { net with down } else none
    | [] => none
  | .read _ :: _, .failed => none
  | .probe .next :: _, .dialled =>
    if net.dialled then none
    else some { net with dialled := true, up := net.up ++ [probePing] }
  | .probe (.awaitPong _) :: _, .pong =>
    match net.down with
    | p :: down => if received p = some probePong then some { net with down } else none
    | [] => none
  | .probe (.awaitPong _) :: _, .frame r =>
    match net.down with
    | p :: down =>
      if r = received p ∧ r ≠ some probePong then some { net with down } else none
    | [] => none
  | .probe (.sendUpgrade _ _) :: _, .sent true =>
    some { net with up := net.up ++ [upgradePacket], upgradeSent := true }
  | _, _ => some net

/-- What can happen. -/
inductive Act
  | server (i : Nat) (a : Server.Choice)
  | client (i : Nat) (a : ClientChoice)
  /-- The server writes the next frame of a flush. -/
  | writeFrame (i : Nat)
  /-- The client's poll meets a session that is not on long polling any more. -/
  | refuse
deriving DecidableEq, Repr

def step (s : System) : Act → Option System
  | .server i a =>
    match Server.program.step s.server i a with
    | none => none
    | some server =>
      (s.net.server s.server.shared (s.server.thread i) a (server.thread i)).map fun net =>
        { s with server, net }
  | .client i a =>
    match frames.program.step s.client i a with
    | none => none
    | some client =>
      (s.net.client (s.client.thread i) a (client.thread i)).map fun net =>
        { s with
          client
          net := { net with delivered := net.delivered ++ handles (s.client.thread i) } }
  | .writeFrame i =>
    match s.server.thread i with
    | .flush (.writeFrames _ packets) =>
      match packets.drop s.net.batch.length with
      | [] => none
      | p :: _ =>
        some { s with net := { s.net with
          batch := s.net.batch ++ [p], down := s.net.down ++ [p], committed := true } }
    | _ => none
  | .refuse =>
    if s.net.poll = .requested ∧
        s.server.shared.sock.transport.map (·.type) ≠ some .polling then
      some { s with net := { s.net with poll := .answered none } }
    else none

/-- Neither side has closed the session. -/
def System.BothOpen (s : System) : Prop :=
  s.client.shared.sock.state = .open ∧
    (s.server.shared.sock.state = .opening ∨ s.server.shared.sock.state = .open)

instance (s : System) : Decidable s.BothOpen := inferInstanceAs (Decidable (_ ∧ _))

/-- The client has read the open packet; the server may not have called `open` yet. -/
def System.Initial (s : System) : Prop :=
  s.server = Server.freshPolling ∧ s.client.shared.Established ∧
    (∀ i, s.client.thread i = []) ∧ s.net = {}

/-- The systems that are reached while neither side closes the session. -/
inductive Reaches : System → Prop
  | init {s : System} (h : s.Initial) : Reaches s
  | step {s s' : System} {a : Act} (hs : Reaches s) (h : step s a = some s') (hopen : s'.BothOpen) :
      Reaches s'

/-- Run a whole schedule, as long as neither side closes the session. -/
def run : System → List Act → Option System
  | s, [] => some s
  | s, a :: rest =>
    match step s a with
    | none => none
    | some s' => if s'.BothOpen then run s' rest else none

theorem Reaches.run {s s' : System} (hs : Reaches s) :
    ∀ {as : List Act}, run s as = some s' → Reaches s'
  | [], h => by
    cases h
    exact hs
  | a :: rest, h => by
    rw [EndToEnd.run] at h
    split at h
    · cases h
    · next s₁ hstep =>
      rw [Option.ite_none_right_eq_some] at h
      exact Reaches.run (.step hs hstep h.1) h.2

end EngineIo.EndToEnd
