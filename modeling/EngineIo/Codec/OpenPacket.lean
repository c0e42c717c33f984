import EngineIo.Client.Socket
import EngineIo.Data.Json

set_option autoImplicit false

/-! # Open packets (`packet.go`, `server_handshake.go`, `socket_transport_webtransport.go`)

The server writes the parameters of a session as JSON into its open packet, and the client reads them back. Over
webtransport the client also writes an open packet of its own, with the id of the session it wants to upgrade.

The numbers and the names of the transports arrive as they were sent. Of the session id its runes arrive: an id
with a byte that is not UTF-8 comes out as another one. -/

namespace EngineIo

open Json (Value)
open Utf8 (runes)

namespace TransportType

/-- The names are plain ASCII. -/
theorem string_runes_name (type : TransportType) : Utf8.string (runes type.name) = type.name := by
  cases type <;> decide

end TransportType

/-! ## The open packet of the server -/

/-- The fields of `OpenPacket`, as they are on the wire. -/
structure OpenFields where
  sessionID : List UInt8 := []
  upgrades : List (List UInt8) := []
  pingInterval : Int := 0
  pingTimeout : Int := 0
  maxPayload : Int := 0
deriving DecidableEq, Repr

namespace OpenFields

def keys : List (List UInt8) :=
  [goBytes "sid", goBytes "upgrades", goBytes "pingInterval", goBytes "pingTimeout", goBytes "maxPayload"]

/-- `json.Marshal`. -/
def marshal (p : OpenFields) : List UInt8 :=
  Utf8.string (Json.object
    [(goBytes "sid", Json.quote p.sessionID),
      (goBytes "upgrades", Json.array (p.upgrades.map Json.quote)),
      (goBytes "pingInterval", Json.int p.pingInterval),
      (goBytes "pingTimeout", Json.int p.pingTimeout),
      (goBytes "maxPayload", Json.int p.maxPayload)])

/-- The member of the field with the given number. -/
def assign (field : Nat) (v : Value) (p : OpenFields) : Option OpenFields :=
  match field with
  | 0 => (Json.asString p.sessionID v).map fun sessionID => { p with sessionID }
  | 1 => (Json.asStrings v).map fun upgrades => { p with upgrades }
  | 2 => (Json.asInt p.pingInterval v).map fun pingInterval => { p with pingInterval }
  | 3 => (Json.asInt p.pingTimeout v).map fun pingTimeout => { p with pingTimeout }
  | _ => (Json.asInt p.maxPayload v).map fun maxPayload => { p with maxPayload }

/-- `json.Unmarshal`. -/
def unmarshal (data : List UInt8) : Option OpenFields :=
  match Json.parse data with
  | none => none
  | some v => Json.unmarshal keys assign {} v

/-- What a Go `int` holds. -/
def IsInt (n : Int) : Prop := -2 ^ 63 ≤ n ∧ n < 2 ^ 63

instance (n : Int) : Decidable (IsInt n) := inferInstanceAs (Decidable (_ ∧ _))

/-- The fields once their strings have gone through JSON. -/
def normal (p : OpenFields) : OpenFields :=
  { p with
    sessionID := Utf8.string (runes p.sessionID)
    upgrades := p.upgrades.map fun s => Utf8.string (runes s) }

theorem parse_marshal (p : OpenFields) :
    Json.parse p.marshal = some (.object
      [(goBytes "sid", .string p.normal.sessionID),
        (goBytes "upgrades", .array (p.normal.upgrades.map .string)),
        (goBytes "pingInterval", .number (Json.int p.pingInterval)),
        (goBytes "pingTimeout", .number (Json.int p.pingTimeout)),
        (goBytes "maxPayload", .number (Json.int p.maxPayload))]) := by
  have hupgrades : List.Forall₂ (fun v text => Json.Reads v 0 text) (p.normal.upgrades.map Value.string)
      (p.upgrades.map Json.quote) := by
    rw [normal, List.map_map, List.forall₂_map_left_iff, List.forall₂_map_right_iff, List.forall₂_same]
    exact fun s _ => Json.reads_quote s
  have hkey : ∀ key ∈ keys, key = Utf8.string (runes key) := by decide
  have hint (n : Int) := (Json.reads_int n).mono (Nat.zero_le 1)
  refine Json.parse_eq (Json.reads_object ?_) (show 2 ≤ Json.maxDepth by decide)
  refine .cons ⟨hkey _ (by simp [keys]), (Json.reads_quote p.sessionID).mono (Nat.zero_le 1)⟩ ?_
  refine .cons ⟨hkey _ (by simp [keys]), Json.reads_array hupgrades⟩ ?_
  refine .cons ⟨hkey _ (by simp [keys]), hint _⟩ (.cons ⟨hkey _ (by simp [keys]), hint _⟩ ?_)
  exact .cons ⟨hkey _ (by simp [keys]), hint _⟩ .nil

theorem asStrings_array (ss : List (List UInt8)) : Json.asStrings (.array (ss.map .string)) = some ss := by
  rw [Json.asStrings]
  induction ss with
  | nil => rfl
  | cons s ss ih => simp [Json.asString, ih]

/-- **What the client reads.** -/
theorem unmarshal_marshal {p : OpenFields} (hinterval : IsInt p.pingInterval) (htimeout : IsInt p.pingTimeout)
    (hpayload : IsInt p.maxPayload) : unmarshal p.marshal = some p.normal := by
  have hsid : Json.field keys (goBytes "sid") = some 0 := by decide
  have hupgradesField : Json.field keys (goBytes "upgrades") = some 1 := by decide
  have hintervalField : Json.field keys (goBytes "pingInterval") = some 2 := by decide
  have htimeoutField : Json.field keys (goBytes "pingTimeout") = some 3 := by decide
  have hpayloadField : Json.field keys (goBytes "maxPayload") = some 4 := by decide
  have hint {n : Int} (h : IsInt n) (old : Int) : Json.asInt old (.number (Json.int n)) = some n :=
    Json.parseInt_int h.1 h.2
  rw [unmarshal, parse_marshal]
  simp only [Json.unmarshal, List.foldlM_cons, List.foldlM_nil, hsid, hupgradesField, hintervalField, htimeoutField,
    hpayloadField, assign, Json.asString, asStrings_array, hint hinterval, hint htimeout, hint hpayload,
    Option.map_some, Option.bind_eq_bind, Option.bind_some]
  rfl

def ofPacket (p : Client.OpenPacket) : OpenFields where
  sessionID := goBytes p.sessionID
  upgrades := p.upgrades.map TransportType.name
  pingInterval := p.pingInterval
  pingTimeout := p.pingTimeout
  maxPayload := p.maxPayload

/-- The client has no use for an upgrade whose name it does not know. -/
def toPacket (p : OpenFields) : Client.OpenPacket where
  sessionID := goString p.sessionID
  upgrades := p.upgrades.filterMap TransportType.ofName
  pingInterval := p.pingInterval
  pingTimeout := p.pingTimeout
  maxPayload := p.maxPayload

end OpenFields

/-- `json.Marshal` of an `OpenPacket`. -/
def marshalOpenPacket (p : Client.OpenPacket) : Option (List UInt8) := some (OpenFields.ofPacket p).marshal

/-- `json.Unmarshal` into an `OpenPacket`. -/
def unmarshalOpenPacket (data : List UInt8) : Option Client.OpenPacket :=
  (OpenFields.unmarshal data).map OpenFields.toPacket

/-- What becomes of an open packet on its way: its session id is what JSON makes of it. -/
theorem unmarshalOpenPacket_marshal (id : List UInt8) (upgrades : List TransportType)
    {pingInterval pingTimeout maxPayload : Int} (hinterval : OpenFields.IsInt pingInterval)
    (htimeout : OpenFields.IsInt pingTimeout) (hpayload : OpenFields.IsInt maxPayload) :
    (marshalOpenPacket ⟨goString id, upgrades, pingInterval, pingTimeout, maxPayload⟩).bind unmarshalOpenPacket =
      some ⟨goString (Utf8.string (runes id)), upgrades, pingInterval, pingTimeout, maxPayload⟩ := by
  have hupgrades : (upgrades.map fun type => Utf8.string (runes type.name)).filterMap TransportType.ofName =
      upgrades := by
    rw [List.filterMap_map]
    refine (List.filterMap_congr fun type _ => ?_).trans List.filterMap_some
    rw [Function.comp_apply, TransportType.string_runes_name, TransportType.ofName_name]
  rw [marshalOpenPacket, Option.bind_some, unmarshalOpenPacket,
    OpenFields.unmarshal_marshal hinterval htimeout hpayload]
  simp only [OpenFields.toPacket, OpenFields.normal, OpenFields.ofPacket, goBytes_goString, List.map_map,
    Function.comp_def, Option.map_some, hupgrades]

/-! ## The open packet of a webtransport client -/

/-- The JSON that `writeOpen` sends to upgrade a session. -/
def marshalSessionID (sid : List UInt8) : List UInt8 :=
  Utf8.string (Json.object [(goBytes "sid", Json.quote sid)])

/-- `writeOpen`. -/
def writeOpen (sid : List UInt8) : Packet :=
  if sid = [] then { type := .open } else { type := .open, data := marshalSessionID sid }

/-- `parseWebTransportSessionID`; an empty id is an error. -/
def parseWebTransportSessionID (data : List UInt8) : Option (List UInt8) :=
  match Json.parse data with
  | none => none
  | some v =>
    match Json.unmarshal [goBytes "sid"] (fun _ v sid => Json.asString sid v) [] v with
    | none => none
    | some sid => if sid = [] then none else some sid

theorem parseWebTransportSessionID_marshal {sid : List UInt8} (h : sid ≠ []) :
    parseWebTransportSessionID (marshalSessionID sid) = some (Utf8.string (runes sid)) := by
  have hkey : goBytes "sid" = Utf8.string (runes (goBytes "sid")) := by decide
  have hfield : Json.field [goBytes "sid"] (goBytes "sid") = some 0 := by decide
  have hne : Utf8.string (runes sid) ≠ [] := by
    have hlength := Utf8.length_string_runes sid
    have hpos := List.length_pos_of_ne_nil h
    exact List.ne_nil_of_length_pos (by omega)
  have hparse : Json.parse (marshalSessionID sid) =
      some (.object [(goBytes "sid", .string (Utf8.string (runes sid)))]) :=
    Json.parse_eq (Json.reads_object (.cons ⟨hkey, Json.reads_quote sid⟩ .nil)) (show 1 ≤ Json.maxDepth by decide)
  simp only [parseWebTransportSessionID, hparse, Json.unmarshal, List.foldlM_cons, List.foldlM_nil, hfield,
    Json.asString, Option.bind_eq_bind, Option.bind_some, pure, if_neg hne]

end EngineIo
