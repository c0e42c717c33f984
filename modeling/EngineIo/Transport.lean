import Mathlib.Data.List.Basic

set_option autoImplicit false

/-! # Transports (`transport.go`)

What the client and the server have in common about the transports they use, and the strings in which they name
them. -/

namespace EngineIo

/-! ## Strings -/

/-- A Go string is a sequence of bytes. Where it is kept as a `String`, there is one character for each byte. -/
def goString (bs : List UInt8) : String := String.ofList (bs.map fun b => Char.ofNat b.toNat)

def goBytes (s : String) : List UInt8 := s.toList.map fun c => UInt8.ofNat c.toNat

theorem goBytes_goString (bs : List UInt8) : goBytes (goString bs) = bs := by
  have hbyte : ∀ b : UInt8, UInt8.ofNat (Char.ofNat b.toNat).toNat = b := by
    intro b
    have hvalid : b.toNat.isValidChar := .inl (by have := b.toNat_lt; omega)
    have hchar : (Char.ofNat b.toNat).toNat = b.toNat := by
      rw [Char.ofNat, dif_pos hvalid]
      rfl
    rw [hchar]
    simp
  rw [goBytes, goString, String.toList_ofList, List.map_map]
  exact (List.map_congr_left fun b _ => hbyte b).trans (List.map_id bs)

theorem goString_inj {bs cs : List UInt8} : goString bs = goString cs ↔ bs = cs :=
  ⟨fun h => by rw [← goBytes_goString bs, h, goBytes_goString], fun h => h ▸ rfl⟩

theorem goString_eq_empty {bs : List UInt8} : goString bs = "" ↔ bs = [] := by
  rw [show "" = goString [] from rfl, goString_inj]

/-! ## Transports -/

/-- The three transports that the package has. In the source a `TransportType` is a string, and the registry
    `Transports` can be given an entry for another name; a transport of that kind is left out. -/
inductive TransportType
  | polling
  | websocket
  | webtransport
deriving DecidableEq, Repr

namespace TransportType

/-- The name of a transport on the wire. -/
def name : TransportType → List UInt8
  | .polling => goBytes "polling"
  | .websocket => goBytes "websocket"
  | .webtransport => goBytes "webtransport"

/-- A name from outside, such as a request's `transport` or one of a server's `upgrades`, can be any string. -/
def ofName (name : List UInt8) : Option TransportType :=
  [TransportType.polling, .websocket, .webtransport].find? (·.name = name)

theorem ofName_name (type : TransportType) : ofName type.name = some type := by
  cases type <;> decide

end TransportType

/-- A transport object; `id` tells one constructed transport from another. -/
structure Transport where
  id : Nat
  type : TransportType
deriving DecidableEq, Repr

inductive TransportState
  | opening
  | open
  | closing
  | closed
  | pausing
  | paused
deriving DecidableEq, Repr

end EngineIo
