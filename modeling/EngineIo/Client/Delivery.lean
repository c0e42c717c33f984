import EngineIo.Client.Flush
import EngineIo.Client.Line

set_option autoImplicit false

/-! # Delivery to the server across an upgrade

The sections of a socket make the moves of its outgoing line (`exec_move`), so in a run of one
connection the line's invariant holds. It says that every accepted packet is written once and in
order, on whichever transport is active, and that the upgrade packet separates the packets of the
old transport from those of the new one. -/

namespace EngineIo.Client

open Concurrency

/-! ## The socket refines its line -/

def World.line (w : World) : Line where
  conn := w.conn
  opened := w.opened
  made := w.made
  state := w.sock.state
  transport := w.sock.transport
  installed := w.installed
  writeBuffer := w.sock.writeBuffer
  accepted := w.accepted
  wire := w.wire
  upgrading := w.sock.upgrading
  flushing := w.sock.flushing
  flushWG := w.sock.flushWG

def OpenPc.stage : OpenPc → Stage
  | .beginOpen _ => .other
  | .createTransport | .failOpen => .opener
  | .installTransport t => .installing t

/-- The prober flushes too, before it starts and after a failed upgrade. -/
def Cont.stage : Cont → Stage
  | .opened _ | .discard _ => .prober
  | .done | .close | .upgraded => .other

def FlushPc.stage : FlushPc → Stage
  | .send _ => .other
  | .beginFlush k => k.stage
  | .sendChunks k _ _ _ _ => k.stage
  | .endFlush k _ _ _ _ => k.stage

def PacketPc.stage : PacketPc → Stage
  | .armHeartbeat _ | .resolveURL _ => .prober
  | .onPacket _ | .reschedulePingTimeout _ | .unmarshal | .recordOpen _ => .packet

def ProbePc.stage : ProbePc → Stage
  | .probeUpgrades _ | .createTransport _ _ => .prober
  | .openTransport t _ | .awaitPong t _ | .beginUpgrade t _ => .probing t
  | .drain t _ => .draining t
  | .sendUpgrade t _ => .committing t
  | .abandonUpgrade _ => .abandoning
  | .adoptTransport t _ => .switching t

def FlushPc.writing : FlushPc → Option (Transport × List Entry × List Entry)
  | .sendChunks _ _ t handed chunks => some (t, handed, chunks.flatten)
  | .endFlush _ _ t handed _ => some (t, handed, [])
  | .send _ | .beginFlush _ => none

def Pc.role : Pc → Role
  | .opening pc => ⟨pc.stage, none⟩
  | .flush pc => ⟨pc.stage, pc.writing⟩
  | .packet pc => ⟨pc.stage, none⟩
  | .probe pc => ⟨pc.stage, none⟩
  | .idle | .close _ | .teardown _ => ⟨.other, none⟩

theorem Cont.resume_role (o : Origin) (k : Cont) : (k.resume o).pc.role = ⟨k.stage, none⟩ := by
  cases k <;> rfl

theorem Cont.after_role (o : Origin) (k : Cont) (more : Bool) :
    (if more then (⟨o, .flush (.beginFlush k)⟩ : Goroutine) else k.resume o).pc.role =
      ⟨k.stage, none⟩ := by
  cases more
  · exact Cont.resume_role o k
  · rfl

theorem startCall_move {w w' : World} {c : Call} {g' : Goroutine}
    (h : startCall w c = some (w', g')) : Move w.line ⟨.other, none⟩ w'.line g'.pc.role := by
  revert h
  fun_cases startCall w c <;> intro h <;> cases h
  case case4 hc => exact .arrive (Nat.lt_of_lt_of_le hc.1 hc.2)
  all_goals exact .quiet (.inl rfl)

theorem execOpen_move {w w' : World} {o : Origin} {pc : OpenPc} {a : Choice} {g' : Goroutine}
    (h : execOpen w o pc a = some (w', g')) :
    Move w.line (Pc.opening pc).role w'.line g'.pc.role := by
  revert h
  fun_cases execOpen w o pc a <;> intro h <;> cases h
  · exact .quiet (.inl rfl)
  · rename_i hs
    obtain ⟨hclosed, rfl⟩ := Socket.beginOpen_eq_some.1 hs
    exact .claim hclosed
  · exact .create _
  · exact .quiet (.inl rfl)
  · exact .leave (.inl rfl) rfl rfl (.inr rfl)
  · exact .install _

theorem execFlush_move {w w' : World} {o : Origin} {pc : FlushPc} {a : Choice} {g' : Goroutine}
    (h : execFlush w o pc a = some (w', g')) :
    Move w.line (Pc.flush pc).role w'.line g'.pc.role := by
  revert h
  fun_cases execFlush w o pc a <;> intro h <;> cases h
  · exact .quiet (.inl rfl)
  · rename_i hs
    obtain ⟨hactive, rfl⟩ := Socket.send_eq_some.1 hs
    exact .accept _ hactive
  · rw [Cont.resume_role]
    exact .quiet (.inl rfl)
  · rename_i hs
    obtain ⟨⟨ht, hopen, hu, -, hf⟩, rfl, rfl, rfl⟩ := Socket.beginFlush_eq_some.1 hs
    simp only [Pc.role, FlushPc.writing, Socket.chunkPackets_flatten]
    exact .begin ht hopen hu hf
  · exact .write
  · exact .cease
  · exact .cease
  · exact .cease
  · rename_i hs
    obtain ⟨-, rfl⟩ := Socket.endFlush_eq_some hs
    rw [Cont.after_role]
    exact .finish

theorem execClose_move {w w' : World} {o : Origin} {pc : ClosePc} {a : Choice} {g' : Goroutine}
    (h : execClose w o pc a = some (w', g')) :
    Move w.line (Pc.close pc).role w'.line g'.pc.role := by
  revert h
  fun_cases execClose w o pc a <;> intro h <;> cases h
  case case5 hs =>
    obtain ⟨hactive, rfl, -⟩ := Socket.beginCloseTransport_eq_some.1 hs
    refine .leave (.inr fun hclosed => ?_) rfl rfl (.inl rfl)
    rw [show w.sock.state = .closed from hclosed] at hactive
    cases hactive
  all_goals exact .quiet (.inl rfl)

theorem execPacket_move {w w' : World} {o : Origin} {pc : PacketPc} {a : Choice} {g' : Goroutine}
    (h : execPacket w o pc a = some (w', g')) :
    Move w.line (Pc.packet pc).role w'.line g'.pc.role := by
  obtain ⟨timer, htimer⟩ := Socket.reschedulePingTimeout_eq (o.conn w) w.sock
  revert h
  fun_cases execPacket w o pc a <;> intro h <;> cases h
  · exact .quiet (.inl rfl)
  · exact .quiet (.inr rfl)
  · refine .unchanged ?_ rfl ?_ ?_
    · rw [htimer]
      rfl
    · split
      · rfl
      · split <;> rfl
    · split
      · exact .inl rfl
      · split <;> exact .inr rfl
  · exact .quiet (.inr rfl)
  · exact .quiet (.inl rfl)
  · cases ht : w.sock.transport with
    | none => exact .record (.inl rfl)
    | some t =>
      refine .record (.inr ⟨rfl, ?_⟩)
      show w.sock.transport.isSome = true
      rw [ht]
      rfl
  · rw [htimer]
    exact .quiet (.inl rfl)
  · exact .quiet (.inr rfl)
  · exact .quiet (.inl rfl)

theorem execTeardown_move {w w' : World} {o : Origin} {pc : TeardownPc} {a : Choice}
    {g' : Goroutine} (h : execTeardown w o pc a = some (w', g')) :
    Move w.line (Pc.teardown pc).role w'.line g'.pc.role := by
  revert h
  fun_cases execTeardown w o pc a <;> intro h <;> cases h
  · rename_i hs
    obtain ⟨hretries, rfl⟩ := Socket.beginRetry_eq_true hs
    refine .leave (.inr fun hclosed => ?_) rfl rfl (.inr rfl)
    unfold Socket.retries at hretries
    rw [show w.sock.state = .closed from hclosed] at hretries
    simp at hretries
  · rename_i hs
    obtain ⟨-, rfl⟩ := Socket.beginRetry_eq_false hs
    exact .quiet (.inl rfl)
  · exact .quiet (.inl rfl)
  · rename_i hs
    obtain ⟨hlive, rfl, -⟩ := Socket.beginTeardown_eq_some.1 hs
    refine .leave (.inr fun hclosed => ?_) rfl rfl (.inr rfl)
    rw [show w.sock.state = .closed from hclosed] at hlive
    cases hlive
  · exact .quiet (.inl rfl)

theorem execProbe_move {w w' : World} {o : Origin} {pc : ProbePc} {a : Choice} {g' : Goroutine}
    (h : execProbe w o pc a = some (w', g')) :
    Move w.line (Pc.probe pc).role w'.line g'.pc.role := by
  revert h
  fun_cases execProbe w o pc a <;> intro h <;> cases h
  · exact .quiet (.inr rfl)
  · exact .quiet (.inl rfl)
  · exact .quiet (.inl rfl)
  · exact .construct _
  · exact .giveUp _
  · rename_i t _ ok
    cases ok
    · exact .quiet (.inl rfl)
    · exact .ping t
  · exact .giveUp _
  · exact .quiet (.inl rfl)
  · exact .giveUp _
  · rename_i hs
    obtain ⟨-, rfl, -⟩ := Socket.beginUpgrade_eq_some.1 hs
    exact .suppress _
  · rename_i hwg
    exact .drained _ hwg
  · exact .commit _
  · exact .fail _
  · exact .resume
  · rename_i hs
    exact .refuse _ (Socket.adoptTransport_eq_none.1 hs)
  · rename_i hs
    obtain ⟨-, rfl⟩ := Socket.adoptTransport_eq_some.1 hs
    exact .adopt _

theorem exec_move {w w' : World} {g g' : Goroutine} {a : Choice}
    (h : exec w g a = some (w', g')) : Move w.line g.pc.role w'.line g'.pc.role := by
  have hd := (exec_dispatch h).2
  clear h
  cases hd with
  | call h => exact startCall_move h
  | opening h => exact execOpen_move h
  | flush h => exact execFlush_move h
  | close h => exact execClose_move h
  | packet h => exact execPacket_move h
  | teardown h => exact execTeardown_move h
  | probe h => exact execProbe_move h

/-! ## Delivery -/

/-- One call of `Open`, one open packet, and the socket then stays open. -/
def OneConnection (w : World) : Prop :=
  w.conn ≤ 1 ∧ w.opened ≤ 1 ∧ w.sock.state ≠ .closing ∧ (w.conn = 1 → w.sock.state ≠ .closed)

instance : DecidablePred OneConnection := fun w => by
  unfold OneConnection
  infer_instance

theorem OneConnection.steady {w : World} (h : OneConnection w) : w.line.Steady :=
  ⟨h.1, h.2.1, h.2.2.1, h.2.2.2⟩

/-- The line's invariant holds in every run of one connection. -/
theorem reach_sound {c : Pool World Goroutine}
    (hc : program.Reach (program.Stays OneConnection) c) :
    c.shared.line.Sound ∧ (∀ i, (c.thread i).pc.role.Holds c.shared.line) ∧
      ∀ i j, i ≠ j → (c.thread i).pc.role.Compatible (c.thread j).pc.role := by
  refine hc.outline (I := fun w => w.line.Sound) (J := fun w g => g.pc.role.Holds w.line)
    (K := fun g m => g.pc.role.Compatible m.pc.role) ?_ ?_ ?_ ?_
  · exact fun g m h => ⟨h.opens.symm, h.probes.symm, h.writes.symm⟩
  · exact ⟨.inl rfl, .inl rfl, .inl rfl⟩
  · rintro w ⟨upgrade, rememberUpgrade, tryAll, transports, rfl⟩
    refine ⟨⟨fun _ => ⟨rfl, rfl, rfl, rfl⟩, fun h => ?_, fun t h => ?_, rfl, fun _ => ?_, .inl ?_⟩,
      .of_stage trivial⟩
    · cases h
    · cases h
    · exact ⟨List.prefix_rfl, rfl⟩
    · exact ⟨rfl, fun x hx => absurd hx List.not_mem_nil⟩
  · intro w g a w' g' hS hI hJ hx
    have hS' : w'.line.Steady := (hS (w', g') hx).steady
    have hm := exec_move hx
    exact ⟨hm.sound hS' hI hJ, hm.holds hS' hI hJ, fun m hJm hK => hm.bystander hS' hI hJ hJm hK⟩

/-- Both views of a goroutine agree on whether it has a flush in flight. -/
theorem Goroutine.flight_eq_none_iff {g : Goroutine} :
    g.flight = none ↔ g.pc.role.writing = none := by
  obtain ⟨o, pc⟩ := g
  cases pc with
  | flush pc => cases pc <;> simp [Goroutine.flight, FlushPc.flight, Pc.role, FlushPc.writing]
  | _ => simp [Goroutine.flight, Pc.role]

/-- A raised `flushing` flag belongs to a flush in flight. -/
theorem flushing_owned {C : World → Goroutine → Choice → Prop} {c : Pool World Goroutine}
    (hc : program.Reach C c) (hf : c.shared.sock.flushing = true) :
    ∃ i, (c.thread i).flight ≠ none := by
  have howner := hc.owner (H := fun w => w.line.flushing = true)
    (O := fun g => g.pc.role.writing ≠ none) ?_ ?_ hf
  · obtain ⟨i, hi⟩ := howner
    exact ⟨i, fun h => hi (Goroutine.flight_eq_none_iff.1 h)⟩
  · rintro w ⟨upgrade, rememberUpgrade, tryAll, transports, rfl⟩ h
    cases h
  · intro c i a w' g' _ _ hx hheld
    obtain ⟨hraise, hkeep⟩ := (exec_move hx).flushing hheld
    by_cases hg : (c.thread i).pc.role.writing ≠ none
    · exact .inr (hkeep hg)
    · exact hraise.imp_left fun hold => ⟨hold, hg⟩

/-- **Delivery across an upgrade.** In every run of one connection, whatever the number of senders
    and flushes, whichever writes fail and however many upgrades are tried: when no flush is in
    flight, the packets flushed over the transport of `Open`, then those flushed over the transport
    switched to, then the write buffer are exactly the accepted packets in order. The upgrade packet
    has only packets of the old transport before it and only packets of the new one behind it; and
    every packet flushed over a transport other than that of `Open` has the upgrade packet on that
    transport before it. -/
theorem delivery_across_upgrade (c : Pool World Goroutine)
    (hc : program.Reach (program.Stays OneConnection) c) :
    ((∀ i, (c.thread i).flight = none) →
      flushedOver (fun t => some t = c.shared.installed) c.shared.wire ++
        flushedOver (fun t => some t ≠ c.shared.installed) c.shared.wire ++
        c.shared.sock.writeBuffer = c.shared.accepted) ∧
    (∀ pre t post, c.shared.wire = pre ++ .upgrade t :: post →
      (∀ t' e, .entry t' e ∈ pre → some t' = c.shared.installed ∧ t' ≠ t) ∧
        ∀ t' e, .entry t' e ∈ post → t' = t ∧ some t' ≠ c.shared.installed) ∧
    ∀ pre t e post, c.shared.wire = pre ++ .entry t e :: post → some t ≠ c.shared.installed →
      .upgrade t ∈ pre := by
  obtain ⟨hI, -, -⟩ := reach_sound hc
  refine ⟨fun hnone => ?_, fun pre t post hw => hI.phase.around hw,
    fun pre t e post hw ht => hI.phase.announced hw ht⟩
  have hf : c.shared.line.flushing = false := by
    refine Bool.eq_false_iff.2 fun hcon => ?_
    obtain ⟨i, hi⟩ := flushing_owned hc hcon
    exact hi (hnone i)
  have hsplit := hI.phase.flushed_split
  have htotal := (hI.settled hf).total
  calc _ = flushed c.shared.wire ++ c.shared.sock.writeBuffer :=
        congrArg (· ++ c.shared.sock.writeBuffer) hsplit
    _ = c.shared.accepted := htotal

/-- One message is sent before the upgrade and one while it waits for the flush in flight. -/
def sendAcrossUpgrade : List (Nat × Choice) :=
  openBy 0 ++ handshakeBy 1 1 serverOpen ++
    [(2, Choice.call (.send [{ type := .message, data := [97] }])), (2, .go), (2, .go)] ++
    [(1, Choice.go), (1, .create true), (1, .sent true), (1, .pong), (1, .go)] ++
    [(3, Choice.call (.send [{ type := .message, data := [98] }])), (3, .go), (3, .go)] ++
    [(2, Choice.sent true), (2, .go), (2, .go)] ++
    [(1, Choice.go), (1, .sent true), (1, .go), (1, .go), (1, .sent true), (1, .go), (1, .go)]

/-- Both messages arrive in order, one on each transport. -/
theorem delivery_across_upgrade_run :
    ∃ c, program.Reach (program.Stays OneConnection) c ∧
      c.shared.wire = [.probe ⟨1, .websocket⟩,
        .entry ⟨0, .polling⟩ ⟨{ type := .message, data := [97] }, 1, 0⟩, .upgrade ⟨1, .websocket⟩,
        .entry ⟨1, .websocket⟩ ⟨{ type := .message, data := [98] }, 1, 1⟩] ∧
      flushedOver (fun t => some t = c.shared.installed) c.shared.wire ++
        flushedOver (fun t => some t ≠ c.shared.installed) c.shared.wire ++
        c.shared.sock.writeBuffer = c.shared.accepted := by
  have hrun : ∃ c, program.runIf (program.Stays OneConnection) fresh sendAcrossUpgrade = some c ∧
      c.shared.wire = [.probe ⟨1, .websocket⟩,
        .entry ⟨0, .polling⟩ ⟨{ type := .message, data := [97] }, 1, 0⟩, .upgrade ⟨1, .websocket⟩,
        .entry ⟨1, .websocket⟩ ⟨{ type := .message, data := [98] }, 1, 1⟩] ∧
      ∀ i, (c.thread i).flight = none := by
    refine ⟨_, rfl, rfl, ?_⟩
    rintro (_ | _ | _ | _ | i) <;> rfl
  obtain ⟨c, hrun, hwire, hnone⟩ := hrun
  have hc := fresh_reach.runIf hrun
  exact ⟨c, hc, hwire, (delivery_across_upgrade c hc).1 hnone⟩

end EngineIo.Client
