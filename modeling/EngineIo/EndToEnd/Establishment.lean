import EngineIo.Client.Address
import EngineIo.Codec.WebTransportStream

set_option autoImplicit false

/-! # Establishing a session

A handshake goes through four formats: the server writes the parameters of a session as JSON, the client reads
them, puts the session id into the query of its requests or, for webtransport, into JSON again, and the server
reads it there. Here the way is followed to its end: with what the client knows from the open packet, its requests
reach the session they are meant for.

An id that is not valid UTF-8 does not survive the first of these steps. -/

namespace EngineIo.EndToEnd

open Client (Socket OpenPacket URL resolveURL requestURL)
open Server (Options Request Route FirstPacket serveHTTP buildOpenPacket)
open Query (Text)
open Utf8 (runes)

/-! ## What the client learns -/

/-- The numbers that a server can be configured with. -/
structure InRange (options : Options) : Prop where
  pingInterval : OpenFields.IsInt options.pingInterval
  pingTimeout : OpenFields.IsInt options.pingTimeout
  maxPayload : OpenFields.IsInt options.maxPayload

/-- The upgrades that an open packet offers. -/
def offered (options : Options) (offerUpgrades : Bool) : List TransportType :=
  if offerUpgrades ∧ options.allowUpgrades then options.transports.filter options.upgradable else []

/-- What the server puts into the open packet of a session. -/
def sent (options : Options) (id : Text) (offerUpgrades : Bool) : OpenPacket where
  sessionID := goString id
  upgrades := offered options offerUpgrades
  pingInterval := options.pingInterval.tdiv 1000000
  pingTimeout := options.pingTimeout.tdiv 1000000
  maxPayload := options.maxPayload

/-- What a client reads in it. -/
def learned (options : Options) (id : Text) (offerUpgrades : Bool) : OpenPacket :=
  { sent options id offerUpgrades with sessionID := goString (Utf8.string (runes id)) }

/-- A number of nanoseconds without its fraction of a millisecond is no further from zero. -/
theorem tdiv_mul_bounds (n : Int) :
    n.tdiv 1000000 * 1000000 = n - n.tmod 1000000 ∧
      (0 ≤ n → 0 ≤ n.tdiv 1000000 ∧ n.tdiv 1000000 * 1000000 ≤ n) ∧
      (n ≤ 0 → n.tdiv 1000000 ≤ 0 ∧ n ≤ n.tdiv 1000000 * 1000000) := by
  have hsplit := Int.mul_tdiv_add_tmod n 1000000
  refine ⟨by omega, fun h => ?_, fun h => ?_⟩
  · have hnonneg : 0 ≤ n.tdiv 1000000 := Int.tdiv_nonneg h (by decide)
    have hmod := Int.tmod_nonneg 1000000 h
    omega
  · have hnonpos : 0 ≤ (-n).tdiv 1000000 := Int.tdiv_nonneg (by omega) (by decide)
    have hmod := Int.tmod_nonneg 1000000 (show 0 ≤ -n by omega)
    rw [Int.neg_tdiv] at hnonpos
    rw [Int.neg_tmod] at hmod
    omega

theorem isInt_tdiv {n : Int} (h : OpenFields.IsInt n) : OpenFields.IsInt (n.tdiv 1000000) := by
  have hbounds := tdiv_mul_bounds n
  unfold OpenFields.IsInt at h ⊢
  omega

theorem open_packet_received {options : Options} (h : InRange options) (id : Text) (offerUpgrades : Bool) :
    ∃ packet, buildOpenPacket marshalOpenPacket options (goString id) offerUpgrades = some packet ∧
      packet.type = .open ∧ unmarshalOpenPacket packet.data = some (learned options id offerUpgrades) := by
  have hread := unmarshalOpenPacket_marshal id (offered options offerUpgrades) (isInt_tdiv h.pingInterval)
    (isInt_tdiv h.pingTimeout) h.maxPayload
  rw [marshalOpenPacket, Option.bind_some] at hread
  exact ⟨⟨.open, (OpenFields.ofPacket (sent options id offerUpgrades)).marshal, false⟩, rfl, rfl, hread⟩

theorem duration_tdiv {n : Int} (h : OpenFields.IsInt n) :
    Socket.duration (n.tdiv 1000000) = n - n.tmod 1000000 := by
  have hbounds := tdiv_mul_bounds n
  unfold OpenFields.IsInt at h
  rw [Socket.duration, ← hbounds.1]
  exact Int.bmod_eq_of_le (by omega) (by omega)

/-- **The two ends agree.** A client that records the open packet of a server has its payload limit, its ping
    interval and its ping timeout without their fractions of a millisecond, and its upgrades. It has the session
    id exactly if that is valid UTF-8. -/
theorem parameters_agree (options : Options) (h : InRange options) (id : Text) (offerUpgrades : Bool) (s : Socket) :
    ∃ packet p, buildOpenPacket marshalOpenPacket options (goString id) offerUpgrades = some packet ∧
      unmarshalOpenPacket packet.data = some p ∧ p.upgrades = offered options offerUpgrades ∧
      (s.recordOpen p).maxPayload = options.maxPayload ∧
      (s.recordOpen p).pingInterval = options.pingInterval - options.pingInterval.tmod 1000000 ∧
      (s.recordOpen p).pingTimeout = options.pingTimeout - options.pingTimeout.tmod 1000000 ∧
      ((s.recordOpen p).sessionID = goString id ↔ Utf8.Valid id) := by
  obtain ⟨packet, hbuild, -, hread⟩ := open_packet_received h id offerUpgrades
  refine ⟨packet, _, hbuild, hread, rfl, rfl, duration_tdiv h.pingInterval, duration_tdiv h.pingTimeout, ?_⟩
  rw [← Utf8.string_runes_eq_iff, ← goString_inj]
  rfl

theorem inRange_default : InRange {} := ⟨by decide, by decide, by decide⟩

theorem parameters_agree_default :
    ∃ packet p, buildOpenPacket marshalOpenPacket {} "abc" true = some packet ∧
      unmarshalOpenPacket packet.data = some p ∧ (({} : Socket).recordOpen p).pingInterval = 25000000000 ∧
      (({} : Socket).recordOpen p).sessionID = "abc" := by
  have hname : goString (goBytes "abc") = "abc" := by decide
  obtain ⟨packet, p, hbuild, hread, -, -, hinterval, -, hid⟩ :=
    parameters_agree {} inRange_default (goBytes "abc") true {}
  rw [hname] at hbuild hid
  exact ⟨packet, p, hbuild, hread, hinterval, hid.2 (by decide)⟩

/-! ## Where its requests go -/

/-- The first packet of a webtransport stream, as `serveWebTransport` reads it. -/
def firstPacket (maxPayload : Int) (stream : List UInt8) : FirstPacket :=
  match readWebTransportPacket (webTransportServerReadLimit maxPayload) stream with
  | (.error _, _) => .invalid
  | (.ok first, _) =>
    if first.type ≠ .open then .invalid
    else if first.data.length = 0 then .empty
    else
      match parseWebTransportSessionID first.data with
      | none => .invalid
      | some sid => .sid (goString sid)

section

variable (limit : Nat) (u : URL) (sessionID : Text)

/-- A poll or a POST of the polling transport, as the server reads it. -/
def pollingRequest (data : List UInt8) (t : Text) : Request :=
  let request := requestURL (resolveURL limit u sessionID .polling) data t
  Request.ofQuery limit request.1 request.2.rawQuery

/-- The request with which a transport other than polling is opened. A webtransport session writes its first packet
    by what its URL has for the session id; `rest` is what follows on the stream. -/
def dialRequest (maxPayload : Int) (rest : List UInt8) : TransportType → Request
  | .webtransport =>
    let sid := (Query.parse limit (resolveURL limit u sessionID .webtransport).rawQuery).get (goBytes "sid")
    { method := .connect
      webTransport := true
      first := firstPacket maxPayload (appendWebTransportFrames [writeOpen sid] ++ rest) }
  | type => Request.ofQuery limit .get (URL.parse (resolveURL limit u sessionID type).string).rawQuery

end

/-- The server accepts the frame with which `writeOpen` names a session. -/
def openFrameFits (options : Options) (sid : Text) : Prop :=
  ((marshalSessionID sid).length + 1 : Int) ≤ webTransportServerReadLimit options.maxPayload

section

variable {limit : Nat} {u : URL} {sessionID : Text}

/-- What the server reads in the query of a request that names a session. -/
theorem ofQuery_session (hlimit : (Query.parse limit u.rawQuery).length + 4 ≤ limit) (hsid : sessionID ≠ [])
    (type : TransportType) (method : Server.Method) (data : List UInt8) (t : Text) :
    Request.ofQuery limit method (requestURL (resolveURL limit u sessionID type) data t).2.rawQuery =
      { method, eio := "4", transport := some type, sid := goString sessionID } := by
  rw [Client.ofQuery_requestURL sessionID type hlimit data t, if_neg hsid]

theorem serveHTTP_poll {options : Options} {registered : String → Bool}
    (hlimit : (Query.parse limit u.rawQuery).length + 4 ≤ limit) (hsid : sessionID ≠ [])
    (hpolling : options.allowsTransport .polling = true) (t : Text) :
    serveHTTP options registered (pollingRequest limit u sessionID [] t) =
      if registered (goString sessionID) then .poll (goString sessionID) else .reject .unknownSessionID := by
  have hmethod : (requestURL (resolveURL limit u sessionID .polling) [] t).1 = .get := rfl
  have hname : goString sessionID ≠ "" := fun h => hsid (goString_eq_empty.1 h)
  rw [pollingRequest, hmethod, ofQuery_session hlimit hsid]
  simp [serveHTTP, hpolling, Server.handlePolling, hname]

theorem serveHTTP_send {options : Options} {registered : String → Bool}
    (hlimit : (Query.parse limit u.rawQuery).length + 4 ≤ limit) (hsid : sessionID ≠ [])
    (hpolling : options.allowsTransport .polling = true) {data : List UInt8} (hdata : data ≠ []) (t : Text) :
    serveHTTP options registered (pollingRequest limit u sessionID data t) =
      if registered (goString sessionID) then .send (goString sessionID) else .reject .unknownSessionID := by
  have hmethod : (requestURL (resolveURL limit u sessionID .polling) data t).1 = .post := by
    rw [requestURL, if_pos]
    simpa using hdata
  have hname : goString sessionID ≠ "" := fun h => hsid (goString_eq_empty.1 h)
  rw [pollingRequest, hmethod, ofQuery_session hlimit hsid]
  simp [serveHTTP, hpolling, Server.handlePolling, hname]

/-- The server reads the session id that `writeOpen` sent, whatever follows on the stream. -/
theorem firstPacket_writeOpen {maxPayload : Int} {sid : List UInt8} (hsid : sid ≠ [])
    (hfits : ((marshalSessionID sid).length + 1 : Int) ≤ webTransportServerReadLimit maxPayload)
    (hmax : maxPayload < 2 ^ 63) (rest : List UInt8) :
    firstPacket maxPayload (appendWebTransportFrames [writeOpen sid] ++ rest) =
      .sid (goString (Utf8.string (runes sid))) := by
  have hopen : writeOpen sid = { type := .open, data := marshalSessionID sid } := by rw [writeOpen, if_neg hsid]
  have hlength : (webTransportPayload (writeOpen sid)).1.length = (marshalSessionID sid).length + 1 := by
    rw [hopen]
    rfl
  have hlimit := webTransportServerReadLimit_lt hmax
  have hwell : (writeOpen sid).WellFormed := by
    rw [hopen]
    exact ⟨rfl, nofun⟩
  have hread : readWebTransportPacket (webTransportServerReadLimit maxPayload)
      (appendWebTransportFrames [writeOpen sid] ++ rest) = (.ok (writeOpen sid), rest) :=
    readWebTransportPacket_inverts hwell (by omega) (.inr (by omega)) rest
  have hne : (marshalSessionID sid).length ≠ 0 := by
    simp only [marshalSessionID, Json.object, Utf8.string_cons, List.length_append]
    have hbrace : (Utf8.encodeRune 123).length = 1 := by decide
    omega
  rw [firstPacket, hread, hopen]
  simp only [ne_eq, not_true_eq_false, if_false, if_neg hne, parseWebTransportSessionID_marshal hsid]

/-- A transport the server serves is opened on the session that the client names. -/
theorem serveHTTP_dial {options : Options} {registered : String → Bool} {type : TransportType}
    (hlimit : (Query.parse limit u.rawQuery).length + 4 ≤ limit) (hsid : sessionID ≠ [])
    (hvalid : Utf8.Valid sessionID) (hserves : options.serves type = true)
    (hfits : type = .webtransport → openFrameFits options sessionID)
    (hmax : options.maxPayload < 2 ^ 63) (rest : List UInt8) :
    serveHTTP options registered (dialRequest limit u sessionID options.maxPayload rest type) =
      if registered (goString sessionID) then .upgrade type (goString sessionID) else .dropped := by
  have hname : goString sessionID ≠ "" := fun h => hsid (goString_eq_empty.1 h)
  obtain ⟨hup, hallows⟩ : options.upgradable type = true ∧ options.allowsTransport type = true := by
    simpa [Options.serves] using hserves
  cases type with
  | polling => cases hup
  | websocket =>
    have hquery := ofQuery_session hlimit hsid .websocket .get [0] []
    rw [requestURL, if_pos (by decide)] at hquery
    rw [dialRequest, hquery]
    · simp [serveHTTP, hallows, Server.handleWebSocket, hname]
    · intro h
      cases h
  | webtransport =>
    have hwired : options.webTransportUpgrade = true := hup
    have hget : (Query.parse limit (resolveURL limit u sessionID .webtransport).rawQuery).get (goBytes "sid") =
        sessionID := by
      have hquery := Client.all_requestURL sessionID .webtransport hlimit [0] [] (goBytes "sid")
      have hkeys : goBytes "sid" ≠ goBytes "EIO" ∧ goBytes "sid" ≠ goBytes "transport" ∧
          goBytes "sid" ≠ goBytes "t" := by decide
      rw [requestURL, if_pos (by decide),
        URL.parse_string_rawQuery (Client.resolveURL_rawQuery_ne_nil limit u sessionID .webtransport), Client.expected,
        if_neg hkeys.1, if_neg hkeys.2.1, if_pos ⟨rfl, hsid⟩, if_neg (fun h => hkeys.2.2 h.1)] at hquery
      rw [Query.Values.get, hquery]
      rfl
    have hfirst := firstPacket_writeOpen hsid (hfits rfl) hmax rest
    rw [(Utf8.string_runes_eq_iff sessionID).2 hvalid] at hfirst
    rw [dialRequest, hget, hfirst]
    simp [serveHTTP, hwired, hallows, Server.serveWebTransport, hname]

end

/-- The open packet offers what the server serves. -/
theorem serves_of_mem_offered {options : Options} {offerUpgrades : Bool} {type : TransportType}
    (h : type ∈ offered options offerUpgrades) : options.serves type = true := by
  unfold offered at h
  split at h
  · obtain ⟨hmem, hup⟩ := List.mem_filter.1 h
    simp [Options.serves, hup, Options.allowsTransport, hmem]
  · cases h

/-- **The requests of a client reach its session.** Once the client has recorded the open packet, its polls and POSTs,
    if the server allows long polling, and the connections for every upgrade that it was offered lead to the session of
    that packet; a webtransport connection does, if its open frame is within the payload limit. If the id of the
    session is not valid UTF-8, none of them does. -/
theorem requests_reach_session (options : Options) (hrange : InRange options) (id : Text) (hid : id ≠ [])
    (offerUpgrades : Bool) (s : Socket) (limit : Nat) (u : URL)
    (hlimit : (Query.parse limit u.rawQuery).length + 4 ≤ limit) :
    ∃ packet p, buildOpenPacket marshalOpenPacket options (goString id) offerUpgrades = some packet ∧
      unmarshalOpenPacket packet.data = some p ∧ p.upgrades = offered options offerUpgrades ∧
      ∀ sid, sid = goBytes (s.recordOpen p).sessionID →
        (options.allowsTransport .polling = true →
          (∀ t, serveHTTP options (· = goString id) (pollingRequest limit u sid [] t) =
            if Utf8.Valid id then .poll (goString id) else .reject .unknownSessionID) ∧
          ∀ data, data ≠ [] → ∀ t, serveHTTP options (· = goString id) (pollingRequest limit u sid data t) =
            if Utf8.Valid id then .send (goString id) else .reject .unknownSessionID) ∧
        ∀ type ∈ p.upgrades, (type = .webtransport → openFrameFits options sid) → ∀ rest,
          serveHTTP options (· = goString id) (dialRequest limit u sid options.maxPayload rest type) =
            if Utf8.Valid id then .upgrade type (goString id) else .dropped := by
  obtain ⟨packet, hbuild, -, hread⟩ := open_packet_received hrange id offerUpgrades
  refine ⟨packet, _, hbuild, hread, rfl, ?_⟩
  rintro sid rfl
  have hsid : goBytes (s.recordOpen (learned options id offerUpgrades)).sessionID = Utf8.string (runes id) :=
    goBytes_goString _
  have hne : Utf8.string (runes id) ≠ [] := by
    have hlength := Utf8.length_string_runes id
    have hpos := List.length_pos_of_ne_nil hid
    exact List.ne_nil_of_length_pos (by omega)
  have hvalid : Utf8.Valid (Utf8.string (runes id)) := Utf8.valid_string fun _ => Utf8.scalar_of_mem_runes
  -- the id that the client has is registered exactly if it is the session's
  have hregistered : goString (Utf8.string (runes id)) = goString id ↔ Utf8.Valid id := by
    rw [goString_inj, Utf8.string_runes_eq_iff]
  have hroute : ∀ accept : String → Route, ∀ refuse : Route,
      (if goString (Utf8.string (runes id)) = goString id then accept (goString (Utf8.string (runes id))) else refuse) =
        if Utf8.Valid id then accept (goString id) else refuse := by
    intro accept refuse
    by_cases h : Utf8.Valid id
    · rw [if_pos (hregistered.2 h), if_pos h, hregistered.2 h]
    · rw [if_neg (fun heq => h (hregistered.1 heq)), if_neg h]
  rw [hsid]
  refine ⟨fun hpolling => ⟨fun t => ?_, fun data hdata t => ?_⟩, fun type htype hfits rest => ?_⟩
  · rw [serveHTTP_poll hlimit hne hpolling]
    simpa using hroute .poll _
  · rw [serveHTTP_send hlimit hne hpolling hdata]
    simpa using hroute .send _
  · rw [serveHTTP_dial hlimit hne hvalid (serves_of_mem_offered htype) hfits hrange.maxPayload.2]
    simpa using hroute (.upgrade type) _

/-- A poll and a websocket connection under the default options. -/
theorem requests_reach_session_default :
    ∃ packet p, buildOpenPacket marshalOpenPacket {} "abc" true = some packet ∧
      unmarshalOpenPacket packet.data = some p ∧ ∀ sid, sid = goBytes (({} : Socket).recordOpen p).sessionID →
      serveHTTP {} (· = "abc") (pollingRequest 10 Client.configured sid [] []) = .poll "abc" ∧
      serveHTTP {} (· = "abc") (dialRequest 10 Client.configured sid 1000000 [] .websocket) =
        .upgrade .websocket "abc" := by
  have hlimit : (Query.parse 10 Client.configured.rawQuery).length + 4 ≤ 10 := by simp [Client.parse_configured]
  have hname : goString (goBytes "abc") = "abc" := by decide
  obtain ⟨packet, p, hbuild, hread, hupgrades, hroutes⟩ := requests_reach_session {} inRange_default (goBytes "abc")
    (by decide) true {} 10 Client.configured hlimit
  rw [hname] at hbuild hroutes
  refine ⟨packet, p, hbuild, hread, fun sid hsid => ?_⟩
  obtain ⟨hpolling, hdial⟩ := hroutes sid hsid
  have hpoll := (hpolling (by decide)).1 []
  have hdial := hdial .websocket (by rw [hupgrades]; decide) (fun h => (by cases h)) []
  rw [if_pos (by decide)] at hpoll hdial
  exact ⟨hpoll, hdial⟩

end EngineIo.EndToEnd
