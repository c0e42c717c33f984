import EngineIo.Client.Socket
import EngineIo.Server.Upgrade

set_option autoImplicit false

/-! # Requests (`server.go`, `server_handshake.go`, `server_transport_webtransport.go`)

`serveHTTP` decides what a request leads to, and `gateway` is one session of a server that gets nothing
but requests and the packets on its connections: a poll or an upgrade starts only if `serveHTTP` lets
a request through to it. The requests and the probe packets a client sends are arbitrary.

`allowUpgrades` is read where the open packet is built and nowhere else, so whether a session can leave
the transport it was established on depends on the transports the server serves alone. -/

namespace EngineIo.Server

open Concurrency
open Client (OpenPacket)

/-! ## Options and the open packet -/

/-- The options a request is judged by; durations are in nanoseconds. -/
structure Options where
  pingInterval : Int := 25000000000
  pingTimeout : Int := 20000000000
  maxPayload : Int := 1000000
  transports : List TransportType := [.polling, .websocket]
  allowUpgrades : Bool := true
  /-- Whether `WithWebTransportServer` wired an HTTP/3 upgrader. -/
  webTransportUpgrade : Bool := false
deriving DecidableEq, Repr

namespace Options

def allowsTransport (options : Options) (type : TransportType) : Bool :=
  options.transports.contains type

/-- A transport the server can probe for an upgrade. -/
def upgradable (options : Options) : TransportType → Bool
  | .polling => false
  | .websocket => true
  | .webtransport => options.webTransportUpgrade

end Options

/-- `buildOpenPacket`; `marshal` is `json.Marshal`. -/
def buildOpenPacket (marshal : OpenPacket → Option (List UInt8)) (options : Options) (id : String)
    (offerUpgrades : Bool) : Option Packet :=
  let upgrades :=
    if offerUpgrades ∧ options.allowUpgrades then options.transports.filter options.upgradable
    else []
  (marshal {
    sessionID := id
    upgrades
    pingInterval := options.pingInterval.tdiv 1000000
    pingTimeout := options.pingTimeout.tdiv 1000000
    maxPayload := options.maxPayload }).map fun data => { type := .open, data }

/-! ## Routing -/

inductive Method
  | get
  | post
  | connect
  | options
  | other
deriving DecidableEq, Repr

inductive ConnectionErrorCode
  | unknownTransport
  | unknownSessionID
  | badHandshakeMethod
  | badRequest
  | forbidden
  | unsupportedProtocolVersion
deriving DecidableEq, Repr

/-- What `serveWebTransport` reads from the stream of an accepted session. -/
inductive FirstPacket
  /-- An error, a packet that is not an open packet, or one that has no session id in it. -/
  | invalid
  | empty
  | sid (sid : String)
deriving DecidableEq, Repr

structure Request where
  method : Method := .get
  /-- Whether `r.Proto` is `webtransport`. -/
  webTransport : Bool := false
  eio : String := "4"
  /-- The transport the query names; `none` for any other text. -/
  transport : Option TransportType := none
  sid : String := ""
  /-- The answer of the application's `allowRequest`. -/
  allowed : Bool := true
  /-- Whether the connection is accepted (`websocket.Accept`, `wt.Upgrade`). -/
  accepted : Bool := true
  first : FirstPacket := .invalid
deriving DecidableEq, Repr

/-- What a request leads to. -/
inductive Route
  | preflight
  | reject (code : ConnectionErrorCode)
  /-- The connection was not accepted, or is closed again. -/
  | dropped
  | handshake (type : TransportType)
  | poll (sid : String)
  | send (sid : String)
  | upgrade (type : TransportType) (sid : String)
deriving DecidableEq, Repr

/-- `handlePolling`, with the ids that are registered. -/
def handlePolling (registered : String → Bool) (r : Request) : Route :=
  if r.sid = "" then
    if r.method ≠ .get then .reject .badHandshakeMethod
    else if r.allowed then .handshake .polling
    else .reject .forbidden
  else if registered r.sid then
    match r.method with
    | .get => .poll r.sid
    | .post => .send r.sid
    | _ => .reject .badRequest
  else .reject .unknownSessionID

/-- `handleWebSocket`. -/
def handleWebSocket (registered : String → Bool) (r : Request) : Route :=
  if r.sid = "" ∧ !r.allowed then .reject .forbidden
  else if !r.accepted then .dropped
  else if r.sid = "" then .handshake .websocket
  else if registered r.sid then .upgrade .websocket r.sid
  else .dropped

/-- `serveWebTransport`. -/
def serveWebTransport (registered : String → Bool) (r : Request) : Route :=
  if !r.accepted then .dropped
  else
    match r.first with
    | .invalid => .dropped
    | .empty => if r.allowed then .handshake .webtransport else .dropped
    | .sid sid =>
      -- `parseWebTransportSessionID` refuses an empty id
      if sid = "" then .dropped
      else if registered sid then .upgrade .webtransport sid
      else .dropped

/-- `ServeHTTP`. -/
def serveHTTP (options : Options) (registered : String → Bool) (r : Request) : Route :=
  if r.method = .options then .preflight
  else if r.method = .connect ∧ r.webTransport then
    if !options.webTransportUpgrade ∨ !options.allowsTransport .webtransport then
      .reject .unknownTransport
    else serveWebTransport registered r
  else if r.eio ≠ "4" then .reject .unsupportedProtocolVersion
  else
    match r.transport with
    | none => .reject .unknownTransport
    | some type =>
      if !options.allowsTransport type then .reject .unknownTransport
      else
        match type with
        | .websocket => handleWebSocket registered r
        | .polling => handlePolling registered r
        | .webtransport => .reject .unknownTransport

/-- The server takes upgrades to the transport. -/
def Options.serves (options : Options) (type : TransportType) : Bool :=
  options.upgradable type && options.allowsTransport type

variable {options : Options} {registered : String → Bool} {r : Request} {type : TransportType}
  {sid : String}

theorem handlePolling_ne_upgrade : handlePolling registered r ≠ .upgrade type sid := by
  fun_cases handlePolling registered r <;> nofun

theorem handleWebSocket_eq_upgrade (h : handleWebSocket registered r = .upgrade type sid) :
    type = .websocket ∧ sid ≠ "" ∧ registered sid = true := by
  revert h
  fun_cases handleWebSocket registered r <;> intro h <;> cases h
  case case4 hsid hreg => exact ⟨rfl, hsid, hreg⟩

theorem serveWebTransport_eq_upgrade (h : serveWebTransport registered r = .upgrade type sid) :
    type = .webtransport ∧ sid ≠ "" ∧ registered sid = true := by
  revert h
  fun_cases serveWebTransport registered r <;> intro h <;> cases h
  case case6 hsid hreg => exact ⟨rfl, hsid, hreg⟩

/-- An upgrade that gets through is to a transport the server serves, whatever `allowUpgrades` is. -/
theorem serveHTTP_eq_upgrade (h : serveHTTP options registered r = .upgrade type sid) :
    options.serves type = true ∧ sid ≠ "" ∧ registered sid = true := by
  revert h
  fun_cases serveHTTP options registered r <;> intro h <;> try cases h
  case case3 hserved =>
    obtain ⟨rfl, hsid, hreg⟩ := serveWebTransport_eq_upgrade h
    refine ⟨?_, hsid, hreg⟩
    simpa [Options.serves, Options.upgradable, not_or] using hserved
  case case7 hallows =>
    obtain ⟨rfl, hsid, hreg⟩ := handleWebSocket_eq_upgrade h
    refine ⟨?_, hsid, hreg⟩
    simpa [Options.serves, Options.upgradable] using hallows
  case case8 => exact absurd h handlePolling_ne_upgrade

/-- A request that asks for the upgrade of a session. -/
def upgradeRequest (sid : String) : TransportType → Request
  | .webtransport => { method := .connect, webTransport := true, first := .sid sid }
  | type => { transport := some type, sid }

/-- Such a request gets through to every session there is, if the server serves the transport. -/
theorem serveHTTP_upgradeRequest (hserves : options.serves type = true) (hsid : sid ≠ "")
    (hreg : registered sid = true) :
    serveHTTP options registered (upgradeRequest sid type) = .upgrade type sid := by
  obtain ⟨hup, hallows⟩ : options.upgradable type = true ∧ options.allowsTransport type = true := by
    simpa [Options.serves] using hserves
  cases type with
  | polling => cases hup
  | websocket => simp [serveHTTP, upgradeRequest, hallows, handleWebSocket, hsid, hreg]
  | webtransport =>
    have hwired : options.webTransportUpgrade = true := hup
    simp [serveHTTP, upgradeRequest, hwired, hallows, serveWebTransport, hsid, hreg]

/-! ## A session behind the server -/

/-- The data of a probe's ping. -/
def probeData : List UInt8 := "probe".toUTF8.toList

/-- `handlePacket`; a message goes to the application. -/
def handlePacket (p : Packet) : Option Call :=
  if p.type = .pong then some .onPong
  else if p.type = .close then some (.closeWithReason .transportClose)
  else none

/-- `handleProbePacket` of a probing transport; `ok` tells whether the pong could be written. -/
def handleProbePacket (t : Transport) (p : Packet) (ok : Bool) : Option Call :=
  if p.type = .ping ∧ p.data = probeData then
    if ok then some .onProbe else some (.abortUpgrade t)
  else if p.type = .upgrade then some (.completeUpgrade t)
  else none

/-- What can happen to a session. -/
inductive Event
  | request (r : Request)
  /-- A packet on the active transport or in a POST. -/
  | packet (p : Packet)
  | probePacket (t : Transport) (p : Packet) (ok : Bool)
  /-- The next section of a goroutine, or a call of the application, a timer or a failed read. -/
  | next (a : Choice)
deriving DecidableEq, Repr

/-- The calls that only a request or a probe packet leads to. -/
def Call.requested : Call → Bool
  | .poll | .startUpgrade _ | .onProbe | .completeUpgrade _ => true
  | _ => false

def Choice.requested : Choice → Bool
  | .call c => c.requested
  | _ => false

/-- What a request asks of the session with the given id. -/
def Route.call (id : String) : Route → Option Call
  | .poll sid => if sid = id then some .poll else none
  | .upgrade type sid => if sid = id then some (.startUpgrade type) else none
  | _ => none

/-- What an event makes a goroutine do. A goroutine may have looked the session up before it was
    deleted, so the id counts as registered throughout. -/
def Event.choice (options : Options) (id : String) : Event → Option Choice
  | .request r => ((serveHTTP options (· = id) r).call id).map .call
  | .packet p => (handlePacket p).map .call
  | .probePacket t p ok => (handleProbePacket t p ok).map .call
  | .next a => if a.requested then none else some a

/-- One session of a server, established on a transport of the given type. -/
def gateway (options : Options) (id : String) (type : TransportType) : Program World Pc Event where
  init := fun w => w = { sock := { transport := some ⟨0, type⟩ } }
  idle := .idle
  exec := fun w pc e =>
    match e.choice options id with
    | some a => exec w pc a
    | none => none

/-- Only a request can make an event start an upgrade. -/
theorem Event.choice_startUpgrade {id : String} {e : Event}
    (h : e.choice options id = some (.call (.startUpgrade type))) :
    options.serves type = true ∧ id ≠ "" := by
  cases e with
  | request r =>
    obtain ⟨c, hc, hcall⟩ := Option.map_eq_some_iff.1 h
    cases hcall
    cases hroute : serveHTTP options (· = id) r with
    | upgrade type' sid =>
      rw [hroute, Route.call, Option.ite_none_right_eq_some] at hc
      obtain ⟨rfl, htype⟩ := hc
      cases htype
      exact ⟨(serveHTTP_eq_upgrade hroute).1, (serveHTTP_eq_upgrade hroute).2.1⟩
    | poll sid =>
      rw [hroute, Route.call, Option.ite_none_right_eq_some] at hc
      cases hc.2
    | _ =>
      rw [hroute] at hc
      cases hc
  | packet p =>
    obtain ⟨c, hc, hcall⟩ := Option.map_eq_some_iff.1 h
    cases hcall
    revert hc
    fun_cases handlePacket p <;> nofun
  | probePacket t p ok =>
    obtain ⟨c, hc, hcall⟩ := Option.map_eq_some_iff.1 h
    cases hcall
    revert hc
    fun_cases handleProbePacket t p ok <;> nofun
  | next a =>
    rw [Event.choice, Option.ite_none_left_eq_some] at h
    obtain ⟨hreq, ha⟩ := h
    cases ha
    exact absurd rfl hreq

/-- A goroutine gets a candidate from a call of `startUpgrade` only. -/
theorem exec_candidate {w w' : World} {pc pc' : Pc} {a : Choice}
    (h : exec w pc a = some (w', pc')) :
    pc'.candidate = none ∨ ∃ type, a = .call (.startUpgrade type) := by
  revert h
  fun_cases exec w pc a <;> intro h
  case case1 c =>
    revert h
    fun_cases startCall w c <;> intro h <;> cases h
    case case9 type _ => exact .inr ⟨type, rfl⟩
    all_goals exact .inl rfl
  case case11 pc =>
    revert h
    fun_cases execFlush w pc a <;> intro h <;> cases h
    case case11 => exact .inl (by split <;> [rfl; split <;> rfl])
    case case12 => exact .inl (Cont.resume_candidate _)
    all_goals exact .inl rfl
  case case12 pc =>
    revert h
    fun_cases execTeardown w pc a <;> intro h <;> cases h
    case case1 => exact .inl (Return.resume_candidate _)
    case case6 => exact .inl (Return.resume_candidate _)
    all_goals exact .inl rfl
  case case13 pc =>
    revert h
    fun_cases execPoll w pc a <;> intro h <;> cases h
    case case4 => exact .inl (by split <;> rfl)
    all_goals exact .inl rfl
  case case14 pc =>
    revert h
    fun_cases execUpgrade w pc a <;> intro h <;> cases h
    case case6 => exact .inl (by split <;> rfl)
    all_goals exact .inl rfl
  all_goals cases h <;> exact .inl rfl

/-- A session whose active transport is the given one, with no upgrade under way. -/
def World.StaysOn (t : Transport) (w : World) : Prop :=
  (w.sock.transport = some t ∨ w.sock.transport = none) ∧ w.sock.upgradeTransport = none

/-- Only a polling session starts an upgrade, and only with a candidate. -/
theorem HandoverStep.staysOn {w w' : World} {q q' : Option Transport} {t : Transport}
    (h : HandoverStep w.handover q w'.handover q') (hw : w.StaysOn t)
    (hq : t.type = .polling → q = none) : w'.StaysOn t := by
  obtain ⟨htransport, hup⟩ := hw
  generalize hv : w.handover = v at h
  generalize hv' : w'.handover = v' at h
  have h1 : v.transport = some t ∨ v.transport = none := hv ▸ htransport
  have h2 : v.upgradeTransport = none := hv ▸ hup
  suffices (v'.transport = some t ∨ v'.transport = none) ∧ v'.upgradeTransport = none by
    rw [← hv'] at this
    exact this
  cases h with
  | teardown => exact ⟨.inr rfl, rfl⟩
  | start t' _ _ ht =>
    rcases h1 with h1 | h1
    · rw [h1] at ht
      cases hq (Option.some.inj ht)
    · rw [h1] at ht
      cases ht
  | complete t' _ ht =>
    rw [h2] at ht
    cases ht
  | abort t' _ ht =>
    rw [h2] at ht
    cases ht
  | _ => exact ⟨h1, h2⟩

/-- The events of a schedule, if each makes its goroutine do something. -/
def choices (options : Options) (id : String) (events : List (Nat × Event)) :
    Option (List (Nat × Choice)) :=
  events.mapM fun e => (e.2.choice options id).map (e.1, ·)

/-- A schedule of events runs what the events make the goroutines of the session do. -/
theorem gateway_run {id : String} {c : Pool World Pc} {events : List (Nat × Event)}
    {as : List (Nat × Choice)} (h : choices options id events = some as) :
    (gateway options id type).run c events = program.run c as := by
  induction events generalizing c as with
  | nil =>
    cases h
    rfl
  | cons e events ih =>
    obtain ⟨i, e⟩ := e
    rw [choices, List.mapM_cons] at h
    obtain ⟨ia, hia, h⟩ := Option.bind_eq_some_iff.1 h
    obtain ⟨rest, hrest, h⟩ := Option.bind_eq_some_iff.1 h
    cases h
    obtain ⟨a, ha, rfl⟩ := Option.map_eq_some_iff.1 hia
    have hstep : (gateway options id type).step c i e = program.step c i a := by
      simp only [Program.step, gateway, ha]
      rfl
    rw [Program.run, Program.run, hstep]
    exact congrArg _ (funext fun c' => ih hrest)

/-- A polling session whose upgrade completes without a probe. -/
def upgradeSchedule (id : String) (type : TransportType) : List (Nat × Event) :=
  [(0, .next (.call .open)), (0, .next .go), (1, .request (upgradeRequest id type)), (1, .next .go),
    (1, .probePacket ⟨1, type⟩ { type := .upgrade } true), (1, .next .go)]

theorem choices_upgradeSchedule {id : String} (hserves : options.serves type = true)
    (hid : id ≠ "") :
    choices options id (upgradeSchedule id type) =
      some [(0, .call .open), (0, .go), (1, .call (.startUpgrade type)), (1, .go),
        (1, .call (.completeUpgrade ⟨1, type⟩)), (1, .go)] := by
  have hroute : (Event.request (upgradeRequest id type)).choice options id =
      some (.call (.startUpgrade type)) := by
    simp only [Event.choice]
    rw [serveHTTP_upgradeRequest hserves hid (by simp)]
    simp [Route.call]
  simp only [choices, upgradeSchedule, List.mapM_cons, hroute]
  rfl

/-- Whatever `allowUpgrades` is, a polling session can move to any transport the server serves. -/
theorem gateway_upgrades {id : String} (hserves : options.serves type = true) (hid : id ≠ "") :
    ∃ c, (gateway options id .polling).Reachable c ∧ c.shared.sock.transport = some ⟨1, type⟩ := by
  have hinit : (gateway options id .polling).Reachable freshPolling := .init rfl
  have hrun : ∃ c, (gateway options id .polling).run freshPolling (upgradeSchedule id type) =
      some c ∧ c.shared.sock.transport = some ⟨1, type⟩ := by
    rw [gateway_run (choices_upgradeSchedule hserves hid)]
    cases type with
    | polling => cases hserves
    | websocket => exact ⟨_, rfl, rfl⟩
    | webtransport => exact ⟨_, rfl, rfl⟩
  obtain ⟨c, hrun, htransport⟩ := hrun
  exact ⟨c, hinit.run hrun, htransport⟩

/-! ## Main result -/

/-- **When a session keeps its transport.** A session stays on the transport it was established on
    until it is closed, in every run, exactly if that is no polling transport, or requests cannot
    name the session, or the server serves neither websocket nor webtransport. `allowUpgrades` has no
    say in it. -/
theorem keeps_transport_iff (options : Options) (id : String) (type : TransportType) :
    (∀ c, (gateway options id type).Reachable c →
      c.shared.sock.transport = some ⟨0, type⟩ ∨ c.shared.sock.transport = none) ↔
    type ≠ .polling ∨ id = "" ∨ ∀ other, options.serves other = false := by
  constructor
  · intro hkeeps
    by_contra h
    obtain ⟨hpolling, hid, hserves⟩ : type = .polling ∧ id ≠ "" ∧
        ∃ other, options.serves other = true := by
      simpa [not_or] using h
    obtain ⟨other, hother⟩ := hserves
    subst hpolling
    obtain ⟨c, hc, htransport⟩ := gateway_upgrades hother hid
    have := hkeeps c hc
    simp [htransport] at this
  · intro hcond c hc
    have hinv := hc.invariant (I := World.StaysOn ⟨0, type⟩)
      (J := fun _ pc => type = .polling → pc.candidate = none) ?_ ?_
    · exact hinv.1.1
    · rintro w rfl
      exact ⟨⟨.inl rfl, rfl⟩, fun _ => rfl⟩
    · intro c i e w' pc' _ _ hI hJ hx
      simp only [gateway] at hx
      split at hx
      · rename_i a ha
        refine ⟨(exec_handover hx).staysOn hI (hJ i), fun hpolling => ?_, fun j _ => hJ j⟩
        rcases exec_candidate hx with h | ⟨other, rfl⟩
        · exact h
        · obtain ⟨hserves, hid⟩ := Event.choice_startUpgrade ha
          rcases hcond with h | h | h
          · exact absurd hpolling h
          · exact absurd h hid
          · rw [h other] at hserves
            cases hserves
      · cases hx

/-- A server with upgrades disabled and the default transports: its open packet offers no upgrade,
    and a session that was established on long polling ends up on a websocket. -/
theorem upgrades_though_disabled :
    (∃ c, (gateway { allowUpgrades := false } "sid" .polling).Reachable c ∧
      c.shared.sock.transport = some ⟨1, .websocket⟩) ∧
    ∀ marshal, buildOpenPacket marshal { allowUpgrades := false } "sid" true =
      (marshal ⟨"sid", [], 25000, 20000, 1000000⟩).map fun data => { type := .open, data } :=
  ⟨gateway_upgrades (by decide) (by decide), fun _ => rfl⟩

end EngineIo.Server
