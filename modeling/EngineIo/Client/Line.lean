import EngineIo.Client.Goroutine
import EngineIo.Concurrency.Outbox

set_option autoImplicit false

/-! # The outgoing line of a connection

What a packet goes through between `Send` and the wire depends on few of the socket's fields and on
little of what a goroutine is doing. `Line` keeps those fields and `Role` that little, and `Move` is
the machine they make: packets are accepted, a flush takes them to the transport it snapshotted, and
an upgrade suppresses flushes, waits for the one in flight, sends the upgrade packet and then either
switches transports or lets the flushes go on.

The invariant is proved for this machine; `Client/Delivery.lean` shows that the sections of a socket
make its moves. -/

namespace EngineIo.Client

open Concurrency

/-- The fields on which the way of a packet depends. -/
structure Line where
  conn : Nat
  opened : Nat
  made : Nat
  state : SocketState
  transport : Option Transport
  installed : Option Transport
  writeBuffer : List Entry
  accepted : List Entry
  wire : List Write
  upgrading : Bool
  flushing : Bool
  flushWG : Nat

/-- How far a goroutine is with opening a connection or with probing for an upgrade. -/
inductive Stage
  | other
  | opener
  | installing (t : Transport)
  | packet
  | prober
  | probing (t : Transport)
  | draining (t : Transport)
  | committing (t : Transport)
  | abandoning
  | switching (t : Transport)

/-- The stage of a goroutine and the flush it has in flight: the transport it writes to, what it has
    written, and what it may still write. -/
structure Role where
  stage : Stage
  writing : Option (Transport × List Entry × List Entry) := none

/-- The moves of a goroutine in a given role. -/
inductive Move (v : Line) : Role → Line → Role → Prop
  | quiet {st st' : Stage} (h : st' = st ∨ st' = .other) : Move v ⟨st, none⟩ v ⟨st', none⟩
  | arrive (h : 0 < v.conn) : Move v ⟨.other, none⟩ v ⟨.packet, none⟩
  | claim (h : v.state = .closed) :
      Move v ⟨.other, none⟩
        { v with state := .opening, upgrading := false, writeBuffer := [], conn := v.conn + 1 }
        ⟨.opener, none⟩
  | create (type : TransportType) :
      Move v ⟨.opener, none⟩ { v with made := v.made + 1 } ⟨.installing ⟨v.made, type⟩, none⟩
  | install (t : Transport) :
      Move v ⟨.installing t, none⟩ { v with transport := some t, installed := some t }
        ⟨.other, none⟩
  | accept (es : List Entry) (h : v.state.active = true) :
      Move v ⟨.other, none⟩
        { v with writeBuffer := v.writeBuffer ++ es, accepted := v.accepted ++ es } ⟨.other, none⟩
  | begin {st : Stage} {t : Transport} (ht : v.transport = some t) (hs : v.state = .open)
      (hu : v.upgrading = false) (hf : v.flushing = false) :
      Move v ⟨st, none⟩ { v with flushing := true, flushWG := v.flushWG + 1 }
        ⟨st, some (t, [], v.writeBuffer)⟩
  | write {st : Stage} {t : Transport} {handed chunk rest : List Entry} :
      Move v ⟨st, some (t, handed, chunk ++ rest)⟩
        { v with wire := v.wire ++ chunk.map (.entry t) } ⟨st, some (t, handed ++ chunk, rest)⟩
  | cease {st : Stage} {t : Transport} {handed rest : List Entry} :
      Move v ⟨st, some (t, handed, rest)⟩ v ⟨st, some (t, handed, [])⟩
  | finish {st : Stage} {t : Transport} {handed : List Entry} :
      Move v ⟨st, some (t, handed, [])⟩
        { v with
          writeBuffer :=
            if v.state = .open then v.writeBuffer.drop handed.length else v.writeBuffer
          flushing := false
          flushWG := v.flushWG - 1 } ⟨st, none⟩
  | record {st : Stage} (h : st = .other ∨ st = .prober ∧ v.transport.isSome = true) :
      Move v ⟨.packet, none⟩ { v with state := .open, opened := v.opened + 1 } ⟨st, none⟩
  | construct (type : TransportType) :
      Move v ⟨.prober, none⟩ { v with made := v.made + 1 } ⟨.probing ⟨v.made, type⟩, none⟩
  | ping (t : Transport) :
      Move v ⟨.probing t, none⟩ { v with wire := v.wire ++ [.probe t] } ⟨.probing t, none⟩
  | giveUp (t : Transport) : Move v ⟨.probing t, none⟩ v ⟨.prober, none⟩
  | suppress (t : Transport) :
      Move v ⟨.probing t, none⟩ { v with upgrading := true } ⟨.draining t, none⟩
  | drained (t : Transport) (h : v.flushWG = 0) :
      Move v ⟨.draining t, none⟩ v ⟨.committing t, none⟩
  | commit (t : Transport) :
      Move v ⟨.committing t, none⟩ { v with wire := v.wire ++ [.upgrade t] } ⟨.switching t, none⟩
  | fail (t : Transport) : Move v ⟨.committing t, none⟩ v ⟨.abandoning, none⟩
  | resume : Move v ⟨.abandoning, none⟩ { v with upgrading := false } ⟨.prober, none⟩
  | adopt (t : Transport) :
      Move v ⟨.switching t, none⟩ { v with transport := some t, upgrading := false } ⟨.other, none⟩
  | refuse (t : Transport) (h : v.state ≠ .open) : Move v ⟨.switching t, none⟩ v ⟨.prober, none⟩
  /-- The connection ends. -/
  | leave {st : Stage} {r' : Role} {v' : Line} (h : st = .opener ∨ v.state ≠ .closed)
      (hc : v'.conn = v.conn) (hf : v'.flushing = v.flushing)
      (hs : v'.state = .closing ∨ v'.state = .closed) : Move v ⟨st, none⟩ v' r'

/-- A section that does not touch the line. -/
theorem Move.unchanged {v v' : Line} {r r' : Role} (hv : v' = v) (hr : r.writing = none)
    (hr' : r'.writing = none) (h : r'.stage = r.stage ∨ r'.stage = .other) : Move v r v' r' := by
  obtain ⟨st, w⟩ := r
  obtain ⟨st', w'⟩ := r'
  subst hv hr hr'
  exact .quiet h

/-! ## The invariant -/

/-- One call of `Open`, one open packet, and no end of the connection. -/
structure Line.Steady (v : Line) : Prop where
  conn : v.conn ≤ 1
  opened : v.opened ≤ 1
  closing : v.state ≠ .closing
  closed : v.conn = 1 → v.state ≠ .closed

/-- A write of the time before the switch: flushed packets go to the transport of `Open`. -/
def Write.Old (installed : Option Transport) : Write → Prop
  | .probe _ => True
  | .upgrade _ => False
  | .entry t _ => some t = installed

/-- A write of the time after the switch to `t`. -/
def Write.New (t : Transport) : Write → Prop
  | .probe _ => True
  | .upgrade _ => False
  | .entry t' _ => t' = t

/-- The packets among the writes that a flush wrote. -/
def flushed (wire : List Write) : List Entry :=
  wire.filterMap fun
    | .entry _ e => some e
    | .probe _ | .upgrade _ => none

/-- The packets written by flushes over the transports that satisfy `p`. -/
def flushedOver (p : Transport → Bool) (wire : List Write) : List Entry :=
  wire.filterMap fun
    | .entry t e => if p t then some e else none
    | .probe _ | .upgrade _ => none

def Line.outbox (v : Line) : Outbox Entry := ⟨v.accepted, flushed v.wire, v.writeBuffer⟩

/-- No upgrade packet has been written. -/
structure Line.Before (v : Line) : Prop where
  transport : v.transport = v.installed
  wire : ∀ x ∈ v.wire, x.Old v.installed

/-- The upgrade packet is the last write, and no flush is in flight or may start. -/
structure Line.Committed (v : Line) (t : Transport) : Prop where
  opened : v.opened = 1
  transport : v.transport = v.installed
  installed : v.installed.isSome = true
  fresh : some t ≠ v.installed
  upgrading : v.upgrading = true
  flushing : v.flushing = false
  wire : ∃ pre, v.wire = pre ++ [.upgrade t] ∧ ∀ x ∈ pre, x.Old v.installed

/-- The socket has switched to `t`. -/
structure Line.Adopted (v : Line) (t : Transport) : Prop where
  opened : v.opened = 1
  transport : v.transport = some t
  fresh : some t ≠ v.installed
  wire : ∃ pre post, v.wire = pre ++ .upgrade t :: post ∧ (∀ x ∈ pre, x.Old v.installed) ∧
    ∀ x ∈ post, x.New t

def Line.Phase (v : Line) : Prop := v.Before ∨ (∃ t, v.Committed t) ∨ ∃ t, v.Adopted t

structure Line.Sound (v : Line) : Prop where
  unopened : v.conn = 0 →
    v.state = .closed ∧ v.writeBuffer = [] ∧ v.installed = none ∧ v.transport = none
  live : v.opened = 1 → v.state = .open
  fresh : ∀ t, v.installed = some t → t.id < v.made
  waitGroup : v.flushWG = if v.flushing then 1 else 0
  settled : v.flushing = false → v.outbox.Balanced []
  phase : v.Phase

/-- What a prober can rely on as long as no upgrade packet has been written. -/
structure Line.Probed (v : Line) : Prop where
  opened : v.opened = 1
  installed : v.installed.isSome = true
  before : v.Before

/-- A transport constructed for a probe is not the one `Open` installed. -/
structure Line.Apart (v : Line) (t : Transport) : Prop where
  made : t.id < v.made
  fresh : some t ≠ v.installed

/-- What a goroutine can rely on at its stage. -/
def Stage.Holds (v : Line) : Stage → Prop
  | .other => True
  | .opener => v.conn = 1 ∧ v.installed = none ∧ v.transport = none
  | .installing t => (v.conn = 1 ∧ v.installed = none ∧ v.transport = none) ∧ t.id < v.made
  | .packet => 0 < v.conn
  | .prober | .abandoning => v.Probed
  | .probing t => v.Probed ∧ v.Apart t
  | .draining t => v.Probed ∧ v.Apart t ∧ v.upgrading = true
  | .committing t => v.Probed ∧ v.Apart t ∧ v.upgrading = true ∧ v.flushing = false
  | .switching t => v.Committed t

/-- What a flush in flight can rely on. -/
structure Line.Flying (v : Line) (t : Transport) (handed rest : List Entry) : Prop where
  flushing : v.flushing = true
  state : v.state = .open
  transport : v.transport = some t
  balanced : v.outbox.Balanced handed
  front : handed ++ rest <+: v.writeBuffer

structure Role.Holds (v : Line) (r : Role) : Prop where
  stage : r.stage.Holds v
  writing : ∀ t handed rest, r.writing = some (t, handed, rest) → v.Flying t handed rest

/-- Whether a goroutine is the one that opens the connection. -/
def Stage.opens : Stage → Bool
  | .opener | .installing _ => true
  | _ => false

/-- Whether a goroutine is the one that probes for upgrades. -/
def Stage.probes : Stage → Bool
  | .other | .opener | .installing _ | .packet => false
  | _ => true

/-- At most one goroutine opens, one probes and one flushes. -/
structure Role.Compatible (r m : Role) : Prop where
  opens : r.stage.opens = false ∨ m.stage.opens = false
  probes : r.stage.probes = false ∨ m.stage.probes = false
  writes : r.writing = none ∨ m.writing = none

/-! ## What the moves keep -/

theorem flushed_append (xs ys : List Write) : flushed (xs ++ ys) = flushed xs ++ flushed ys :=
  List.filterMap_append

theorem flushed_entries (t : Transport) (es : List Entry) : flushed (es.map (.entry t)) = es := by
  induction es with
  | nil => rfl
  | cons e es ih =>
    show e :: flushed (es.map (.entry t)) = e :: es
    rw [ih]

theorem flushed_snoc_probe (wire : List Write) (t : Transport) :
    flushed (wire ++ [.probe t]) = flushed wire := by
  rw [flushed_append]
  exact List.append_nil _

theorem flushed_snoc_upgrade (wire : List Write) (t : Transport) :
    flushed (wire ++ [.upgrade t]) = flushed wire := by
  rw [flushed_append]
  exact List.append_nil _

variable {v v' : Line} {r r' m : Role}

theorem Line.Before.snoc_probe (h : v.Before) (t : Transport) :
    Line.Before { v with wire := v.wire ++ [.probe t] } where
  transport := h.transport
  wire := by
    intro x hx
    rcases List.mem_append.1 hx with hx | hx
    · exact h.wire x hx
    · obtain rfl := List.mem_singleton.1 hx
      trivial

/-- A flush in flight before the switch writes to the transport of `Open`. -/
theorem Line.Before.append_entries {t : Transport} (h : v.Before) (ht : v.transport = some t)
    (es : List Entry) : Line.Before { v with wire := v.wire ++ es.map (.entry t) } where
  transport := h.transport
  wire := by
    intro x hx
    rcases List.mem_append.1 hx with hx | hx
    · exact h.wire x hx
    · obtain ⟨e, -, rfl⟩ := List.mem_map.1 hx
      show some t = v.installed
      rw [← ht, h.transport]

theorem Line.Adopted.append_entries {t t' : Transport} (h : v.Adopted t)
    (ht : v.transport = some t') (es : List Entry) :
    Line.Adopted { v with wire := v.wire ++ es.map (.entry t') } t where
  opened := h.opened
  transport := h.transport
  fresh := h.fresh
  wire := by
    obtain ⟨pre, post, hwire, hpre, hpost⟩ := h.wire
    refine ⟨pre, post ++ es.map (.entry t'), ?_, hpre, ?_⟩
    · simp [hwire]
    · intro x hx
      rcases List.mem_append.1 hx with hx | hx
      · exact hpost x hx
      · obtain ⟨e, -, rfl⟩ := List.mem_map.1 hx
        show t' = t
        exact Option.some.inj (ht.symm.trans h.transport)

theorem Line.Probed.commit {t : Transport} (h : v.Probed) (ht : v.Apart t)
    (hu : v.upgrading = true) (hf : v.flushing = false) :
    Line.Committed { v with wire := v.wire ++ [.upgrade t] } t where
  opened := h.opened
  transport := h.before.transport
  installed := h.installed
  fresh := ht.fresh
  upgrading := hu
  flushing := hf
  wire := ⟨v.wire, rfl, h.before.wire⟩

theorem Line.Committed.adopt {t : Transport} (h : v.Committed t) :
    Line.Adopted { v with transport := some t, upgrading := false } t where
  opened := h.opened
  transport := rfl
  fresh := h.fresh
  wire := by
    obtain ⟨pre, hwire, hpre⟩ := h.wire
    exact ⟨pre, [], hwire, hpre, fun x hx => absurd hx List.not_mem_nil⟩

/-- With nothing installed, nothing has been flushed, so installing keeps the wire in order. -/
theorem Line.Before.install (h : v.Before) (hi : v.installed = none) (t : Transport) :
    Line.Before { v with transport := some t, installed := some t } where
  transport := rfl
  wire := by
    intro x hx
    have hold := h.wire x hx
    rw [hi] at hold
    cases x with
    | probe _ => trivial
    | upgrade _ => exact hold
    | entry t' e => cases hold

theorem Line.Flying.write {t : Transport} {handed chunk rest : List Entry}
    (h : v.Flying t handed (chunk ++ rest)) :
    Line.Flying { v with wire := v.wire ++ chunk.map (.entry t) } t (handed ++ chunk) rest where
  flushing := h.flushing
  state := h.state
  transport := h.transport
  balanced := by
    have hchunk : handed ++ chunk <+: v.writeBuffer := by
      refine List.IsPrefix.trans ?_ h.front
      rw [← List.append_assoc]
      exact List.prefix_append _ _
    have hw := h.balanced.write hchunk
    unfold Outbox.write Line.outbox at hw
    unfold Line.outbox
    rwa [flushed_append, flushed_entries]
  front := by
    rw [List.append_assoc]
    exact h.front

theorem Line.Flying.cease {t : Transport} {handed rest : List Entry} (h : v.Flying t handed rest) :
    v.Flying t handed [] where
  flushing := h.flushing
  state := h.state
  transport := h.transport
  balanced := h.balanced
  front := by
    rw [List.append_nil]
    exact h.balanced.front

/-- Only the prober can be past the upgrade packet with the switch outstanding, and it has no flush
    in flight; so whoever flushes does so before the upgrade packet or after the switch. -/
theorem Line.Sound.phase_of_flushing (hI : v.Sound) (hf : v.flushing = true) :
    v.Before ∨ ∃ t, v.Adopted t := by
  rcases hI.phase with h | ⟨t, h⟩ | h
  · exact .inl h
  · rw [h.flushing] at hf
    cases hf
  · exact .inr h

theorem Line.Before.frame (h : v.Before) (ht : v'.transport = v.transport)
    (hi : v'.installed = v.installed) (hw : v'.wire = v.wire) : v'.Before := by
  refine ⟨?_, ?_⟩
  · rw [ht, hi]; exact h.transport
  · rw [hw, hi]; exact h.wire

theorem Line.Adopted.frame {t : Transport} (h : v.Adopted t) (ho : v'.opened = v.opened)
    (ht : v'.transport = v.transport) (hi : v'.installed = v.installed) (hw : v'.wire = v.wire) :
    v'.Adopted t := by
  refine ⟨ho.trans h.opened, ?_, ?_, ?_⟩
  · rw [ht]; exact h.transport
  · rw [hi]; exact h.fresh
  · rw [hw, hi]; exact h.wire

theorem Line.Phase.frame (h : v.Phase) (ho : v'.opened = v.opened) (ht : v'.transport = v.transport)
    (hi : v'.installed = v.installed) (hu : v.upgrading = true → v'.upgrading = true)
    (hf : v'.flushing = v.flushing) (hw : v'.wire = v.wire) : v'.Phase := by
  rcases h with h | ⟨t, h⟩ | ⟨t, h⟩
  · exact .inl (h.frame ht hi hw)
  · refine .inr (.inl ⟨t, ho.trans h.opened, ?_, ?_, ?_, hu h.upgrading, ?_, ?_⟩)
    · rw [ht, hi]; exact h.transport
    · rw [hi]; exact h.installed
    · rw [hi]; exact h.fresh
    · rw [hf]; exact h.flushing
    · rw [hw, hi]; exact h.wire
  · exact .inr (.inr ⟨t, h.frame ho ht hi hw⟩)

/-- A phase other than the one in which flushes are held back does not depend on the flags. -/
theorem Line.Phase.of_flags (h : v.Before ∨ ∃ t, v.Adopted t) (ho : v'.opened = v.opened)
    (ht : v'.transport = v.transport) (hi : v'.installed = v.installed) (hw : v'.wire = v.wire) : v'.Phase := by
  rcases h with h | ⟨t, h⟩
  · exact .inl (h.frame ht hi hw)
  · exact .inr (.inr ⟨t, h.frame ho ht hi hw⟩)

theorem Line.Sound.phase_of_not_upgrading (hI : v.Sound) (hu : v.upgrading = false) :
    v.Before ∨ ∃ t, v.Adopted t := by
  rcases hI.phase with h | ⟨t, h⟩ | h
  · exact .inl h
  · rw [h.upgrading] at hu
    cases hu
  · exact .inr h

theorem Line.Sound.phase_of_uninstalled (hI : v.Sound) (hi : v.installed = none)
    (ht : v.transport = none) : v.Before := by
  rcases hI.phase with h | ⟨t, h⟩ | ⟨t, h⟩
  · exact h
  · have := h.installed
    rw [hi] at this
    cases this
  · have := h.transport
    rw [ht] at this
    cases this

/-- No connection ends in a steady run. -/
theorem Line.Sound.not_leave (hI : v.Sound) (hJ : r.Holds v) (hS' : v'.Steady)
    (h : r.stage = .opener ∨ v.state ≠ .closed) (hc : v'.conn = v.conn)
    (hs : v'.state = .closing ∨ v'.state = .closed) : False := by
  rcases hs with hs | hs
  · exact hS'.closing hs
  · refine hS'.closed ?_ hs
    have hle := hS'.conn
    rcases h with h | h
    · have hst := hJ.stage
      rw [h] at hst
      exact hc.trans hst.1
    · have hne : v.conn ≠ 0 := fun h0 => h (hI.unopened h0).1
      omega

theorem Line.Sound.claim (hI : v.Sound) (hs : v.state = .closed) (hc : v.conn + 1 ≤ 1) :
    Line.Sound
      { v with state := .opening, upgrading := false, writeBuffer := [], conn := v.conn + 1 } := by
  obtain ⟨-, hb, hi, -⟩ := hI.unopened (by omega)
  refine ⟨fun h => ?_, fun h => ?_, hI.fresh, hI.waitGroup, fun hf => ?_, ?_⟩
  · cases h
  · have := hI.live h
    rw [hs] at this
    cases this
  · have := hI.settled hf
    unfold Line.outbox at *
    rwa [hb] at this
  · rcases hI.phase with h | ⟨t, h⟩ | ⟨t, h⟩
    · exact .inl ⟨h.transport, h.wire⟩
    · have := h.installed
      rw [hi] at this
      cases this
    · exact .inr (.inr ⟨t, h.opened, h.transport, h.fresh, h.wire⟩)

theorem Line.Sound.made (hI : v.Sound) : Line.Sound { v with made := v.made + 1 } where
  unopened := hI.unopened
  live := hI.live
  fresh := fun t ht => Nat.lt_succ_of_lt (hI.fresh t ht)
  waitGroup := hI.waitGroup
  settled := hI.settled
  phase := hI.phase.frame rfl rfl rfl id rfl rfl

theorem Line.Sound.finish {t : Transport} {handed : List Entry} (hI : v.Sound)
    (hF : v.Flying t handed []) :
    Line.Sound
      { v with
        writeBuffer := if v.state = .open then v.writeBuffer.drop handed.length else v.writeBuffer
        flushing := false
        flushWG := v.flushWG - 1 } where
  unopened := fun h => by
    have := (hI.unopened h).1
    rw [hF.state] at this
    cases this
  live := hI.live
  fresh := hI.fresh
  waitGroup := by
    have := hI.waitGroup
    rw [if_pos hF.flushing] at this
    show v.flushWG - 1 = 0
    omega
  settled := fun _ => by
    have := hF.balanced.trim
    unfold Outbox.trim Line.outbox at *
    simpa [hF.state] using this
  phase := Line.Phase.of_flags (hI.phase_of_flushing hF.flushing) rfl rfl rfl rfl

theorem Line.Sound.phase_of_unrecorded (hI : v.Sound) (ho : v.opened + 1 ≤ 1) : v.Before := by
  rcases hI.phase with h | ⟨t, h⟩ | ⟨t, h⟩
  · exact h
  · have := h.opened
    omega
  · have := h.opened
    omega

theorem Line.Sound.record (hI : v.Sound) (hc : 0 < v.conn) (ho : v.opened + 1 ≤ 1) :
    Line.Sound { v with state := .open, opened := v.opened + 1 } where
  unopened := fun h => absurd h hc.ne'
  live := fun _ => rfl
  fresh := hI.fresh
  waitGroup := hI.waitGroup
  settled := hI.settled
  phase := by
    have h := hI.phase_of_unrecorded ho
    exact .inl ⟨h.transport, h.wire⟩

theorem Move.sound (h : Move v r v' r') (hS' : v'.Steady) (hI : v.Sound) (hJ : r.Holds v) :
    v'.Sound := by
  cases h with
  | quiet _ => exact hI
  | arrive _ => exact hI
  | claim hs => exact hI.claim hs hS'.conn
  | create type => exact hI.made
  | install t =>
    obtain ⟨⟨hc, hi, ht⟩, hlt⟩ := hJ.stage
    refine ⟨fun h => ?_, hI.live, ?_, hI.waitGroup, hI.settled, ?_⟩
    · rw [hc] at h
      cases h
    · intro t' ht'
      cases ht'
      exact hlt
    · exact .inl ((hI.phase_of_uninstalled hi ht).install hi t)
  | accept es hs =>
    refine ⟨fun h => ?_, hI.live, hI.fresh, hI.waitGroup, fun hf => (hI.settled hf).accept es,
      hI.phase.frame rfl rfl rfl id rfl rfl⟩
    rw [(hI.unopened h).1] at hs
    cases hs
  | begin ht hs hu hf =>
    refine ⟨hI.unopened, hI.live, hI.fresh, ?_, fun h => ?_,
      Line.Phase.of_flags (hI.phase_of_not_upgrading hu) rfl rfl rfl rfl⟩
    · have := hI.waitGroup
      rw [hf] at this
      show v.flushWG + 1 = 1
      simp [this]
    · cases h
  | @write st t handed chunk rest =>
    have hF := hJ.writing _ _ _ rfl
    refine ⟨hI.unopened, hI.live, hI.fresh, hI.waitGroup, fun h => ?_, ?_⟩
    · have := hF.flushing.symm.trans h
      cases this
    · rcases hI.phase_of_flushing hF.flushing with h | ⟨t', h⟩
      · exact .inl (h.append_entries hF.transport chunk)
      · exact .inr (.inr ⟨t', h.append_entries hF.transport chunk⟩)
  | cease => exact hI
  | finish => exact hI.finish (hJ.writing _ _ _ rfl)
  | record _ => exact hI.record hJ.stage hS'.opened
  | construct type => exact hI.made
  | ping t =>
    refine ⟨hI.unopened, hI.live, hI.fresh, hI.waitGroup, fun hf => ?_,
      .inl (hJ.stage.1.before.snoc_probe t)⟩
    have := hI.settled hf
    unfold Line.outbox at *
    rwa [flushed_snoc_probe]
  | giveUp t => exact hI
  | suppress t =>
    exact ⟨hI.unopened, hI.live, hI.fresh, hI.waitGroup, hI.settled,
      hI.phase.frame rfl rfl rfl (fun _ => rfl) rfl rfl⟩
  | drained t _ => exact hI
  | commit t =>
    obtain ⟨hP, hA, hu, hf⟩ := hJ.stage
    refine ⟨hI.unopened, hI.live, hI.fresh, hI.waitGroup, fun hf => ?_,
      .inr (.inl ⟨t, hP.commit hA hu hf⟩)⟩
    have := hI.settled hf
    unfold Line.outbox at *
    rwa [flushed_snoc_upgrade]
  | fail t => exact hI
  | resume =>
    have hP : v.Probed := hJ.stage
    exact ⟨hI.unopened, hI.live, hI.fresh, hI.waitGroup, hI.settled,
      Line.Phase.of_flags (.inl hP.before) rfl rfl rfl rfl⟩
  | adopt t =>
    have hC : v.Committed t := hJ.stage
    refine ⟨fun h => ?_, hI.live, hI.fresh, hI.waitGroup, hI.settled, .inr (.inr ⟨t, hC.adopt⟩)⟩
    have := hC.installed
    rw [(hI.unopened h).2.2.1] at this
    cases this
  | refuse t _ => exact hI
  | leave h hc _ hs => exact (hI.not_leave hJ hS' h hc hs).elim

/-- A goroutine outside a flush relies on its stage alone. -/
theorem Role.Holds.of_stage {st : Stage} (h : st.Holds v) : Role.Holds v ⟨st, none⟩ where
  stage := h
  writing := fun t handed rest hw => by cases hw

/-- What a stage relies on, as far as a move of somebody else can touch it. -/
theorem Stage.Holds.frame {st : Stage} (h : st.Holds v) (hc : v'.conn = v.conn)
    (ho : v'.opened = v.opened) (hm : v.made ≤ v'.made) (ht : v'.transport = v.transport)
    (hi : v'.installed = v.installed) (hu : v'.upgrading = v.upgrading)
    (hf : v.upgrading = true → v.flushing = false → v'.flushing = false)
    (hB : v.Before → v'.Before)
    (hC : ∀ t, v.Committed t → v'.Committed t) : st.Holds v' := by
  have hP : v.Probed → v'.Probed := fun h => ⟨ho.trans h.opened, by rw [hi]; exact h.installed,
    hB h.before⟩
  have hA : ∀ t, v.Apart t → v'.Apart t := fun t h => ⟨h.made.trans_le hm, by rw [hi]; exact h.fresh⟩
  cases st with
  | other => trivial
  | opener => exact ⟨hc.trans h.1, hi.trans h.2.1, ht.trans h.2.2⟩
  | installing t =>
    obtain ⟨⟨h1, h2, h3⟩, h4⟩ := h
    exact ⟨⟨hc.trans h1, hi.trans h2, ht.trans h3⟩, h4.trans_le hm⟩
  | packet =>
    show 0 < v'.conn
    rw [hc]
    exact h
  | prober => exact hP h
  | abandoning => exact hP h
  | probing t => exact ⟨hP h.1, hA t h.2⟩
  | draining t => exact ⟨hP h.1, hA t h.2.1, hu.trans h.2.2⟩
  | committing t =>
    obtain ⟨h1, h2, h3, h4⟩ := h
    exact ⟨hP h1, hA t h2, hu.trans h3, hf h3 h4⟩
  | switching t => exact hC t h

theorem Stage.Holds.accept {st : Stage} (h : st.Holds v) (es : List Entry) :
    st.Holds { v with writeBuffer := v.writeBuffer ++ es, accepted := v.accepted ++ es } :=
  h.frame rfl rfl le_rfl rfl rfl rfl (fun _ => id) (fun h => ⟨h.transport, h.wire⟩)
    (fun _ h => ⟨h.opened, h.transport, h.installed, h.fresh, h.upgrading, h.flushing, h.wire⟩)

theorem Stage.Holds.made {st : Stage} (h : st.Holds v) :
    st.Holds { v with made := v.made + 1 } :=
  h.frame rfl rfl (Nat.le_succ _) rfl rfl rfl (fun _ => id) (fun h => ⟨h.transport, h.wire⟩)
    (fun _ h => ⟨h.opened, h.transport, h.installed, h.fresh, h.upgrading, h.flushing, h.wire⟩)

/-- A flush starts only while no upgrade holds flushes back. -/
theorem Stage.Holds.begin {st : Stage} (h : st.Holds v) (hu : v.upgrading = false) (n : Nat) :
    st.Holds { v with flushing := true, flushWG := n } := by
  refine h.frame rfl rfl le_rfl rfl rfl rfl (fun hu' => ?_) (fun h => ⟨h.transport, h.wire⟩)
    (fun t h => ?_)
  · rw [hu] at hu'
    cases hu'
  · have := h.upgrading
    rw [hu] at this
    cases this

theorem Stage.Holds.write {st : Stage} {t : Transport} {handed rest : List Entry}
    (h : st.Holds v) (hF : v.Flying t handed rest) (es : List Entry) :
    st.Holds { v with wire := v.wire ++ es.map (.entry t) } := by
  refine h.frame rfl rfl le_rfl rfl rfl rfl (fun _ => id)
    (fun h => h.append_entries hF.transport es) (fun t' h => ?_)
  have := h.flushing
  rw [hF.flushing] at this
  cases this

theorem Stage.Holds.finish {st : Stage} (h : st.Holds v) (buffer : List Entry) (n : Nat) :
    st.Holds { v with writeBuffer := buffer, flushing := false, flushWG := n } :=
  h.frame rfl rfl le_rfl rfl rfl rfl (fun _ _ => rfl) (fun h => ⟨h.transport, h.wire⟩)
    (fun _ h => ⟨h.opened, h.transport, h.installed, h.fresh, h.upgrading, rfl, h.wire⟩)

/-- What the goroutine that moves can rely on next. -/
theorem Move.holds (h : Move v r v' r') (hS' : v'.Steady) (hI : v.Sound) (hJ : r.Holds v) :
    r'.Holds v' := by
  cases h with
  | quiet hst =>
    rcases hst with rfl | rfl
    · exact hJ
    · exact .of_stage trivial
  | arrive hc => exact .of_stage hc
  | claim hs =>
    have hc : v.conn = 0 := by simpa using hS'.conn
    obtain ⟨-, -, hi, ht⟩ := hI.unopened hc
    exact .of_stage ⟨congrArg (· + 1) hc, hi, ht⟩
  | create type =>
    obtain ⟨hc, hi, ht⟩ := hJ.stage
    exact .of_stage ⟨⟨hc, hi, ht⟩, Nat.lt_succ_self _⟩
  | install t => exact .of_stage trivial
  | accept es hs => exact .of_stage trivial
  | @begin st t ht hs hu hf =>
    refine ⟨hJ.stage.begin hu _, fun t' handed rest hw => ?_⟩
    cases hw
    exact ⟨rfl, hs, ht, hI.settled hf, List.prefix_rfl⟩
  | @write st t handed chunk rest =>
    have hF := hJ.writing _ _ _ rfl
    refine ⟨hJ.stage.write hF chunk, fun t' handed' rest' hw => ?_⟩
    cases hw
    exact hF.write
  | @cease st t handed rest =>
    refine ⟨hJ.stage, fun t' handed' rest' hw => ?_⟩
    cases hw
    exact (hJ.writing _ _ _ rfl).cease
  | finish => exact .of_stage (hJ.stage.finish _ _)
  | record hst =>
    rcases hst with rfl | ⟨rfl, ht⟩
    · exact .of_stage trivial
    · -- the open packet counted here is the first, so no upgrade has begun
      have hB := hI.phase_of_unrecorded hS'.opened
      have h0 : v.opened = 0 := by simpa using hS'.opened
      refine .of_stage ⟨congrArg (· + 1) h0, ?_, hB.transport, hB.wire⟩
      show v.installed.isSome = true
      rw [← hB.transport]
      exact ht
  | construct type =>
    have hP : v.Probed := hJ.stage
    refine .of_stage ⟨⟨hP.opened, hP.installed, ⟨hP.before.transport, hP.before.wire⟩⟩,
      Nat.lt_succ_self _, fun h => ?_⟩
    exact absurd (hI.fresh _ h.symm) (Nat.lt_irrefl _)
  | ping t =>
    obtain ⟨hP, hA⟩ := hJ.stage
    exact .of_stage ⟨⟨hP.opened, hP.installed, hP.before.snoc_probe t⟩, hA.made, hA.fresh⟩
  | giveUp t => exact .of_stage hJ.stage.1
  | suppress t =>
    obtain ⟨hP, hA⟩ := hJ.stage
    exact .of_stage ⟨⟨hP.opened, hP.installed, ⟨hP.before.transport, hP.before.wire⟩⟩,
      ⟨hA.made, hA.fresh⟩, rfl⟩
  | drained t hwg =>
    obtain ⟨hP, hA, hu⟩ := hJ.stage
    refine .of_stage ⟨hP, hA, hu, ?_⟩
    have := hI.waitGroup
    cases hf : v.flushing with
    | false => rfl
    | true => rw [hf, hwg] at this; cases this
  | commit t =>
    obtain ⟨hP, hA, hu, hf⟩ := hJ.stage
    exact .of_stage (hP.commit hA hu hf)
  | fail t => exact .of_stage hJ.stage.1
  | resume =>
    have hP : v.Probed := hJ.stage
    exact .of_stage ⟨hP.opened, hP.installed, ⟨hP.before.transport, hP.before.wire⟩⟩
  | adopt t => exact .of_stage trivial
  | refuse t hs => exact absurd (hI.live (Line.Committed.opened hJ.stage)) hs
  | leave h hc _ hs => exact (hI.not_leave hJ hS' h hc hs).elim

/-! ## What the moves leave to the others -/

theorem Stage.Holds.opened_of_probes {st : Stage} (h : st.Holds v) (hp : st.probes = true) :
    v.opened = 1 := by
  cases st with
  | prober => exact Line.Probed.opened h
  | abandoning => exact Line.Probed.opened h
  | probing t => exact h.1.opened
  | draining t => exact h.1.opened
  | committing t => exact h.1.opened
  | switching t => exact Line.Committed.opened h
  | _ => cases hp

theorem Stage.Holds.installed_of_probes {st : Stage} (h : st.Holds v) (hp : st.probes = true) :
    v.installed.isSome = true := by
  cases st with
  | prober => exact Line.Probed.installed h
  | abandoning => exact Line.Probed.installed h
  | probing t => exact h.1.installed
  | draining t => exact h.1.installed
  | committing t => exact h.1.installed
  | switching t => exact Line.Committed.installed h
  | _ => cases hp

theorem Stage.Holds.opener {st : Stage} (h : st.Holds v) (hp : st.opens = true) :
    v.conn = 1 ∧ v.installed = none ∧ v.transport = none := by
  cases st with
  | opener => exact h
  | installing t => exact h.1
  | _ => cases hp

/-- A stage outside the probe relies on the connection being there and, in the opener's case, on
    there being no transport yet. -/
theorem Stage.Holds.of_not_probes {st : Stage} (h : st.Holds v) (hp : st.probes = false)
    (hc : v.conn ≤ v'.conn)
    (ho : st.opens = true → v'.conn = v.conn ∧ v'.installed = v.installed ∧
      v'.transport = v.transport ∧ v.made ≤ v'.made) : st.Holds v' := by
  cases st with
  | other => trivial
  | packet => exact Nat.lt_of_lt_of_le h hc
  | opener =>
    obtain ⟨hc', hi, ht, -⟩ := ho rfl
    exact ⟨hc'.trans h.1, hi.trans h.2.1, ht.trans h.2.2⟩
  | installing t =>
    obtain ⟨hc', hi, ht, hm⟩ := ho rfl
    obtain ⟨⟨h1, h2, h3⟩, h4⟩ := h
    exact ⟨⟨hc'.trans h1, hi.trans h2, ht.trans h3⟩, h4.trans_le hm⟩
  | _ => cases hp

/-- Nobody opens while somebody probes, so a bystander of the prober relies on the connection
    alone. -/
theorem Stage.Holds.of_prober {st m : Stage} (hst : st.Holds v) (hp : st.probes = true)
    (h : m.Holds v) (hm : st.probes = false ∨ m.probes = false) (hc : v'.conn = v.conn) :
    m.Holds v' := by
  refine h.of_not_probes (hm.resolve_left (by simp [hp])) hc.ge fun ho => ?_
  have hinst := hst.installed_of_probes hp
  rw [(h.opener ho).2.1] at hinst
  cases hinst

theorem Move.stage_bystander {m : Stage} (h : Move v r v' r') (hS' : v'.Steady) (hI : v.Sound)
    (hJ : r.Holds v) (hm : m.Holds v) (ho : r.stage.opens = false ∨ m.opens = false)
    (hp : r.stage.probes = false ∨ m.probes = false) : m.Holds v' := by
  cases h with
  | quiet _ => exact hm
  | arrive _ => exact hm
  | claim hs =>
    have hc : v.conn = 0 := by simpa using hS'.conn
    refine hm.of_not_probes ?_ (Nat.le_succ _) fun ho => ?_
    · by_contra hcon
      have := hI.live (hm.opened_of_probes (by simpa using hcon))
      rw [hs] at this
      cases this
    · have := (hm.opener ho).1
      omega
  | create type => exact hm.made
  | install t =>
    obtain ⟨⟨-, hi, -⟩, -⟩ := hJ.stage
    refine hm.of_not_probes ?_ le_rfl fun h => ?_
    · by_contra hcon
      have := hm.installed_of_probes (by simpa using hcon)
      rw [hi] at this
      cases this
    · rcases ho with ho | ho
      · cases ho
      · rw [ho] at h
        cases h
  | accept es _ => exact hm.accept es
  | begin _ _ hu _ => exact hm.begin hu _
  | write => exact hm.write (hJ.writing _ _ _ rfl) _
  | cease => exact hm
  | finish => exact hm.finish _ _
  | record _ =>
    refine hm.of_not_probes ?_ le_rfl fun _ => ⟨rfl, rfl, rfl, le_rfl⟩
    by_contra hcon
    have h1 := hm.opened_of_probes (by simpa using hcon)
    have h2 : v.opened + 1 ≤ 1 := hS'.opened
    omega
  | construct type => exact hm.made
  | ping t => exact hJ.stage.of_prober rfl hm hp rfl
  | giveUp t => exact hm
  | suppress t => exact hJ.stage.of_prober rfl hm hp rfl
  | drained t _ => exact hm
  | commit t => exact hJ.stage.of_prober rfl hm hp rfl
  | fail t => exact hm
  | resume => exact hJ.stage.of_prober rfl hm hp rfl
  | adopt t => exact hJ.stage.of_prober rfl hm hp rfl
  | refuse t _ => exact hm
  | leave h hc _ hs => exact (hI.not_leave hJ hS' h hc hs).elim

theorem Move.flying_bystander {t : Transport} {handed rest : List Entry} (h : Move v r v' r')
    (hS' : v'.Steady) (hI : v.Sound) (hJ : r.Holds v) (hF : v.Flying t handed rest)
    (hw : r.writing = none) : v'.Flying t handed rest := by
  cases h with
  | quiet _ => exact hF
  | arrive _ => exact hF
  | claim hs =>
    have := hF.state
    rw [hs] at this
    cases this
  | create type => exact ⟨hF.flushing, hF.state, hF.transport, hF.balanced, hF.front⟩
  | install t' =>
    have := hF.transport
    rw [hJ.stage.1.2.2] at this
    cases this
  | accept es _ =>
    exact ⟨hF.flushing, hF.state, hF.transport, hF.balanced.accept es,
      hF.front.trans (List.prefix_append _ _)⟩
  | begin _ _ _ hf =>
    have := hF.flushing
    rw [hf] at this
    cases this
  | write => cases hw
  | cease => cases hw
  | finish => cases hw
  | record _ => exact ⟨hF.flushing, rfl, hF.transport, hF.balanced, hF.front⟩
  | construct type => exact ⟨hF.flushing, hF.state, hF.transport, hF.balanced, hF.front⟩
  | ping t' =>
    refine ⟨hF.flushing, hF.state, hF.transport, ?_, hF.front⟩
    have := hF.balanced
    unfold Line.outbox at *
    rwa [flushed_snoc_probe]
  | giveUp t' => exact hF
  | suppress t' => exact ⟨hF.flushing, hF.state, hF.transport, hF.balanced, hF.front⟩
  | drained t' _ => exact hF
  | commit t' =>
    have := hJ.stage.2.2.2
    rw [hF.flushing] at this
    cases this
  | fail t' => exact hF
  | resume => exact ⟨hF.flushing, hF.state, hF.transport, hF.balanced, hF.front⟩
  | adopt t' =>
    have := Line.Committed.flushing hJ.stage
    rw [hF.flushing] at this
    cases this
  | refuse t' _ => exact hF
  | leave h hc _ hs => exact (hI.not_leave hJ hS' h hc hs).elim

/-- A goroutine becomes the opener, the prober or the flusher only when nobody else is. -/
theorem Move.compatible (h : Move v r v' r') (hS' : v'.Steady) (hI : v.Sound) (hJ : r.Holds v)
    (hm : m.Holds v) (hK : r.Compatible m) : r'.Compatible m := by
  obtain ⟨ho, hp, hw⟩ := hK
  cases h with
  | quiet hst =>
    rcases hst with rfl | rfl
    · exact ⟨ho, hp, .inl rfl⟩
    · exact ⟨.inl rfl, .inl rfl, .inl rfl⟩
  | arrive _ => exact ⟨.inl rfl, .inl rfl, .inl rfl⟩
  | claim hs =>
    refine ⟨.inr ?_, .inl rfl, .inl rfl⟩
    by_contra hcon
    have h1 := (hm.stage.opener (by simpa using hcon)).1
    have h2 : v.conn + 1 ≤ 1 := hS'.conn
    omega
  | create type => exact ⟨ho, .inl rfl, .inl rfl⟩
  | install t => exact ⟨.inl rfl, .inl rfl, .inl rfl⟩
  | accept es _ => exact ⟨.inl rfl, .inl rfl, .inl rfl⟩
  | @begin st t _ _ _ hf =>
    refine ⟨ho, hp, .inr ?_⟩
    cases hmw : m.writing with
    | none => rfl
    | some q =>
      have := (hm.writing q.1 q.2.1 q.2.2 hmw).flushing
      rw [hf] at this
      cases this
  | write => exact ⟨ho, hp, hw.imp_left fun h => by cases h⟩
  | cease => exact ⟨ho, hp, hw.imp_left fun h => by cases h⟩
  | finish => exact ⟨ho, hp, .inl rfl⟩
  | record hst =>
    refine ⟨?_, .inr ?_, .inl rfl⟩
    · rcases hst with rfl | ⟨rfl, -⟩
      · exact .inl rfl
      · exact .inl rfl
    · by_contra hcon
      have h1 := hm.stage.opened_of_probes (by simpa using hcon)
      have h2 : v.opened + 1 ≤ 1 := hS'.opened
      omega
  | construct type => exact ⟨.inl rfl, hp, .inl rfl⟩
  | ping t => exact ⟨.inl rfl, hp, .inl rfl⟩
  | giveUp t => exact ⟨.inl rfl, hp, .inl rfl⟩
  | suppress t => exact ⟨.inl rfl, hp, .inl rfl⟩
  | drained t _ => exact ⟨.inl rfl, hp, .inl rfl⟩
  | commit t => exact ⟨.inl rfl, hp, .inl rfl⟩
  | fail t => exact ⟨.inl rfl, hp, .inl rfl⟩
  | resume => exact ⟨.inl rfl, hp, .inl rfl⟩
  | adopt t => exact ⟨.inl rfl, .inl rfl, .inl rfl⟩
  | refuse t _ => exact ⟨.inl rfl, hp, .inl rfl⟩
  | leave h hc _ hs => exact (hI.not_leave hJ hS' h hc hs).elim

/-- What a move leaves to a bystander. -/
theorem Move.bystander (h : Move v r v' r') (hS' : v'.Steady) (hI : v.Sound) (hJ : r.Holds v)
    (hm : m.Holds v) (hK : r.Compatible m) : m.Holds v' ∧ r'.Compatible m := by
  refine ⟨⟨h.stage_bystander hS' hI hJ hm.stage hK.opens hK.probes, ?_⟩,
    h.compatible hS' hI hJ hm hK⟩
  intro t handed rest hw
  refine h.flying_bystander hS' hI hJ (hm.writing t handed rest hw) (hK.writes.resolve_right ?_)
  rw [hw]
  exact Option.some_ne_none _

/-- The flushing flag is raised with a flush and lowered with it. -/
theorem Move.flushing (h : Move v r v' r') (hf : v'.flushing = true) :
    (v.flushing = true ∨ r'.writing ≠ none) ∧ (r.writing ≠ none → r'.writing ≠ none) := by
  cases h with
  | begin => exact ⟨.inr (Option.some_ne_none _), fun _ => Option.some_ne_none _⟩
  | write => exact ⟨.inl hf, fun _ => Option.some_ne_none _⟩
  | cease => exact ⟨.inl hf, fun _ => Option.some_ne_none _⟩
  | finish => cases hf
  | leave h hc hfl hs => exact ⟨.inl (hfl.symm.trans hf), fun h => absurd rfl h⟩
  | _ => exact ⟨.inl hf, fun h => absurd rfl h⟩

/-! ## What the phases say about the wire -/

theorem flushedOver_append (p : Transport → Bool) (xs ys : List Write) :
    flushedOver p (xs ++ ys) = flushedOver p xs ++ flushedOver p ys :=
  List.filterMap_append

theorem flushedOver_eq_flushed {p : Transport → Bool} {wire : List Write}
    (h : ∀ t e, .entry t e ∈ wire → p t = true) : flushedOver p wire = flushed wire := by
  refine List.filterMap_congr fun x hx => ?_
  cases x with
  | entry t e => exact if_pos (h t e hx)
  | probe _ => rfl
  | upgrade _ => rfl

theorem flushedOver_eq_nil {p : Transport → Bool} {wire : List Write}
    (h : ∀ t e, .entry t e ∈ wire → p t = false) : flushedOver p wire = [] := by
  refine List.filterMap_eq_nil_iff.2 fun x hx => ?_
  cases x with
  | entry t e => simp [h t e hx]
  | probe _ => rfl
  | upgrade _ => rfl

/-- The old transport's packets come first, then the new one's. -/
theorem Line.Phase.flushed_split (h : v.Phase) :
    flushedOver (fun t => some t = v.installed) v.wire ++
      flushedOver (fun t => some t ≠ v.installed) v.wire = flushed v.wire := by
  have hold : ∀ xs : List Write, (∀ x ∈ xs, x.Old v.installed) →
      flushedOver (fun t => some t = v.installed) xs = flushed xs ∧
        flushedOver (fun t => some t ≠ v.installed) xs = [] := by
    intro xs hxs
    have hon : ∀ t e, .entry t e ∈ xs → some t = v.installed := fun t e he => hxs _ he
    exact ⟨flushedOver_eq_flushed fun t e he => by simp [hon t e he],
      flushedOver_eq_nil fun t e he => by simp [hon t e he]⟩
  rcases h with h | ⟨t, h⟩ | ⟨t, h⟩
  · obtain ⟨h1, h2⟩ := hold _ h.wire
    rw [h1, h2, List.append_nil]
  · obtain ⟨pre, hwire, hpre⟩ := h.wire
    obtain ⟨h1, h2⟩ := hold _ hpre
    rw [hwire, flushedOver_append, flushedOver_append, flushed_append, h1, h2]
    simp [flushedOver, flushed]
  · obtain ⟨pre, post, hwire, hpre, hpost⟩ := h.wire
    obtain ⟨h1, h2⟩ := hold _ hpre
    have hnew : ∀ t' e, .entry t' e ∈ .upgrade t :: post → some t' ≠ v.installed := by
      intro t' e he
      rcases List.mem_cons.1 he with he | he
      · cases he
      · obtain rfl : t' = t := hpost _ he
        exact h.fresh
    rw [hwire, flushedOver_append, flushedOver_append, flushed_append, h1, h2,
      flushedOver_eq_nil (fun t' e he => by simpa using hnew t' e he),
      flushedOver_eq_flushed (fun t' e he => by simpa using hnew t' e he)]
    simp

/-- The upgrade packet of a wire is found in one place only when nothing around it is one. -/
theorem upgrade_split_unique {pre pre' post post' : List Write} {t t' : Transport}
    (h : pre ++ .upgrade t :: post = pre' ++ .upgrade t' :: post')
    (hpre' : ∀ t, .upgrade t ∉ pre') (hpost' : ∀ t, .upgrade t ∉ post') :
    pre = pre' ∧ t = t' ∧ post = post' := by
  rcases List.append_eq_append_iff.1 h with ⟨mid, h1, h2⟩ | ⟨mid, h1, h2⟩
  · cases mid with
    | nil =>
      simp only [List.nil_append, List.cons.injEq, Write.upgrade.injEq] at h2
      exact ⟨by simpa using h1.symm, h2.1, h2.2⟩
    | cons x mid =>
      obtain ⟨rfl, -⟩ : Write.upgrade t = x ∧ _ := by simpa using h2
      refine absurd ?_ (hpre' t)
      rw [h1]
      simp
  · cases mid with
    | nil =>
      simp only [List.nil_append, List.cons.injEq, Write.upgrade.injEq] at h2
      exact ⟨by simpa using h1, h2.1.symm, h2.2.symm⟩
    | cons x mid =>
      obtain ⟨-, h3⟩ : Write.upgrade t' = x ∧ post' = mid ++ .upgrade t :: post := by
        simpa using h2
      refine absurd ?_ (hpost' t)
      rw [h3]
      simp

/-- The upgrade packet separates the packets of the two transports. -/
theorem Line.Phase.around {pre post : List Write} {t : Transport} (h : v.Phase)
    (hw : v.wire = pre ++ .upgrade t :: post) :
    (∀ t' e, .entry t' e ∈ pre → some t' = v.installed ∧ t' ≠ t) ∧
      ∀ t' e, .entry t' e ∈ post → t' = t ∧ some t' ≠ v.installed := by
  have hmain : ∀ {pre' post' : List Write} {u : Transport}, some u ≠ v.installed →
      v.wire = pre' ++ .upgrade u :: post' → (∀ x ∈ pre', x.Old v.installed) →
      (∀ x ∈ post', x.New u) →
      (∀ t' e, .entry t' e ∈ pre → some t' = v.installed ∧ t' ≠ t) ∧
        ∀ t' e, .entry t' e ∈ post → t' = t ∧ some t' ≠ v.installed := by
    intro pre' post' u hfresh hw' hpre hpost
    obtain ⟨rfl, rfl, rfl⟩ := upgrade_split_unique (hw.symm.trans hw') (fun t ht => hpre _ ht)
      (fun t ht => hpost _ ht)
    refine ⟨fun t' e he => ?_, fun t' e he => ?_⟩
    · have hold : some t' = v.installed := hpre _ he
      refine ⟨hold, ?_⟩
      rintro rfl
      exact hfresh hold
    · obtain rfl : t' = t := hpost _ he
      exact ⟨rfl, hfresh⟩
  rcases h with h | ⟨u, h⟩ | ⟨u, h⟩
  · have hmem : .upgrade t ∈ v.wire := by
      rw [hw]
      simp
    exact absurd (h.wire _ hmem) id
  · obtain ⟨pre', hwire, hpre⟩ := h.wire
    exact hmain h.fresh hwire hpre fun x hx => absurd hx List.not_mem_nil
  · obtain ⟨pre', post', hwire, hpre, hpost⟩ := h.wire
    exact hmain h.fresh hwire hpre hpost

/-- A transport other than the one `Open` installed carries flushed packets only behind its upgrade packet. -/
theorem Line.Phase.announced {pre post : List Write} {t : Transport} {e : Entry} (h : v.Phase)
    (hw : v.wire = pre ++ .entry t e :: post) (ht : some t ≠ v.installed) : .upgrade t ∈ pre := by
  have hmem : .entry t e ∈ v.wire := by
    rw [hw]
    simp
  rcases h with h | ⟨u, h⟩ | ⟨u, h⟩
  · exact absurd (h.wire _ hmem) ht
  · obtain ⟨pre', hwire, hpre⟩ := h.wire
    rw [hwire] at hmem
    rcases List.mem_append.1 hmem with hold | hlast
    · exact absurd (hpre _ hold) ht
    · simp at hlast
  · obtain ⟨pre', post', hwire, hpre, hpost⟩ := h.wire
    rcases List.append_eq_append_iff.1 (hw.symm.trans hwire) with ⟨mid, h1, h2⟩ | ⟨mid, h1, h2⟩
    · -- the packet would stand before the upgrade packet
      have hold : .entry t e ∈ pre' := by
        cases mid with
        | nil => simp at h2
        | cons x mid =>
          obtain ⟨rfl, -⟩ : Write.entry t e = x ∧ _ := by simpa using h2
          rw [h1]
          simp
      exact absurd (hpre _ hold) ht
    · cases mid with
      | nil => simp at h2
      | cons x mid =>
        obtain ⟨rfl, hpost'⟩ : Write.upgrade u = x ∧ post' = mid ++ .entry t e :: post := by
          simpa using h2
        have hnew : t = u := hpost (.entry t e) (by rw [hpost']; simp)
        rw [h1, hnew]
        simp

end EngineIo.Client
