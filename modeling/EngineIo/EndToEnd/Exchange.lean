import EngineIo.EndToEnd.System
import EngineIo.Server.Outgoing

set_option autoImplicit false

/-! # What the session and its client exchange

Both ends of a `System` run as they do on their own: the goroutines of the server are a reachable pool
of the session, and those of the client a steady run of the client, since what reaches the client
decodes to what was sent and a response with a close packet carries nothing else. -/

namespace EngineIo.EndToEnd

open Concurrency
open Server (Pc World)
open Client.Switchover (CloseAlone Steady Stack frames handles)
open Client.Switchover renaming Frame → CallFrame, Choice → ClientChoice

variable {s s' : System}

/-! ## Steps by their effect -/

/-- What the network does when a goroutine of the client runs. -/
inductive ClientNet (net : Network) (l : List CallFrame) (a : ClientChoice) (l' : List CallFrame) :
    Network → Prop
  | same (hshake : ∀ ps, l = [] → a = .handshake ps → ps = [])
      (hcheck : ∀ rest, l = .pollCheck :: rest → l' ≠ [.pollRequest])
      (hrequest : ∀ rest r, l = .pollRequest :: rest → a ≠ .polled r)
      (hread : ∀ t rest, l = .read t :: rest → a ≠ .failed ∧ ∀ r, a ≠ .frame r)
      (hdial : ∀ rest, l = .probe .next :: rest → a ≠ .dialled) : ClientNet net l a l' net
  | request {rest : List CallFrame} (hl : l = .pollCheck :: rest) (hl' : l' = [.pollRequest]) :
      ClientNet net l a l' { net with poll := .requested }
  | respond {rest : List CallFrame} {packets : Option (List Packet)} (hl : l = .pollRequest :: rest)
      (ha : a = .polled (pollResult packets)) (hpoll : net.poll = .answered packets) :
      ClientNet net l a l' { net with poll := .idle }
  | frame {t : Nat} {rest : List CallFrame} {p : Packet} {down : List Packet}
      (hl : l = .read t :: rest) (ha : a = .frame (received p)) (hdown : net.down = p :: down) :
      ClientNet net l a l' { net with down }
  | probed {t : Nat} {rest : List CallFrame} {p : Packet} {down : List Packet}
      (hl : l = .probe (.awaitPong t) :: rest) (hdown : net.down = p :: down) :
      ClientNet net l a l' { net with down }
  | dial {rest : List CallFrame} (hl : l = .probe .next :: rest) (ha : a = .dialled)
      (hdialled : net.dialled = false) :
      ClientNet net l a l' { net with dialled := true, up := net.up ++ [probePing] }
  | upgrade {t : Nat} {old : Option Transport} {rest : List CallFrame}
      (hl : l = .probe (.sendUpgrade t old) :: rest) (ha : a = .sent true) :
      ClientNet net l a l' { net with up := net.up ++ [upgradePacket], upgradeSent := true }

theorem clientNet_of_client {net net' : Network} {l l' : List CallFrame} {a : ClientChoice}
    (h : net.client l a l' = some net') : ClientNet net l a l' net' := by
  revert h
  fun_cases Network.client net l a l' <;> intro h <;> cases h
  case case1 => exact .same (by simp) (by simp) (by simp) (by simp) (by simp)
  case case3 rest =>
    split
    · next hl' => exact .request rfl hl'
    · next hl' => exact .same (by simp) (fun _ _ => hl') (by simp) (by simp) (by simp)
  case case4 hpoll => exact .respond rfl rfl hpoll
  case case7 hdown => exact .frame rfl rfl hdown
  case case12 hdialled => exact .dial rfl rfl (Bool.eq_false_iff.2 hdialled)
  case case13 hdown _ => exact .probed rfl hdown
  case case16 hdown _ => exact .probed rfl hdown
  case case19 => exact .upgrade rfl rfl
  case case20 hcheck hshake hrequest hframe hfailed hdial _ _ _ =>
    exact .same (fun ps hl ha => (hshake ps hl ha).elim) (fun rest hl => (hcheck rest hl).elim)
      hrequest (fun t rest hl => ⟨hfailed t rest hl, fun r => hframe t rest r hl⟩) hdial

/-- What the network does when a goroutine of the server runs. -/
inductive ServerNet (net : Network) (w : World) (pc : Pc) (a : Server.Choice) (pc' : Pc) :
    Network → Prop
  | same (hsend : ∀ data isBinary, pc = .idle → a = .call (.send data isBinary) → isBinary = false →
        separator ∉ data)
      (hserve : pc = .idle → a ≠ .call .poll) (hpoll : ∀ poll, pc ≠ .poll poll)
      (hwrite : ∀ k packets, pc ≠ .flush (.writeFrames k packets))
      (hcomplete : ∀ t, pc = .idle → a ≠ .call (.completeUpgrade t)) : ServerNet net w pc a pc' net
  | accept {type : TransportType} (hpc : pc = .idle) (ha : a = .call (.startUpgrade type)) :
      ServerNet net w pc a pc' { net with accepted := true }
  | serve (hpc : pc = .idle) (ha : a = .call .poll) (hrequested : net.poll = .requested) :
      ServerNet net w pc a pc' { net with poll := .serving w.channels }
  | probed {p : Packet} {up : List Packet} (hpc : pc = .idle) (ha : a = .call .onProbe)
      (hup : net.up = p :: up) :
      ServerNet net w pc a pc' { net with up, down := net.down ++ [probePong] }
  | complete {p : Packet} {up : List Packet} {t : Transport} (hpc : pc = .idle)
      (ha : a = .call (.completeUpgrade t)) (hup : net.up = p :: up) (hp : p.type = .upgrade) :
      ServerNet net w pc a pc' { net with up }
  | hold {ch : Nat} (hpc : pc = .poll (.hold ch)) (hpc' : pc' = .flush (.lock (.poll ch))) :
      ServerNet net w pc a pc' net
  | refuse {ch : Nat} (hpc : pc = .poll (.hold ch)) (hpc' : pc' ≠ .flush (.lock (.poll ch))) :
      ServerNet net w pc a pc' { net with poll := .answered none }
  | respond {ch : Nat} (hpc : pc = .poll (.await ch)) (ha : a = .responded true) :
      ServerNet net w pc a pc' { net with poll := .answered (some (payload w.inbox ch)) }
  | written {k : Server.Cont} (hpc : pc = .flush (.writeFrames k net.batch)) (ha : a = .written true) :
      ServerNet net w pc a pc' { net with batch := [] }

theorem read_eq_some {net : Network} {w : World} {c : Server.Call} {up : List Packet}
    (h : net.read w c = some up) :
    ∃ p, net.up = p :: up ∧ Server.handleProbePacket webSocket p true = some c := by
  unfold Network.read at h
  split at h
  · cases h
  · next p rest hup =>
    rw [Option.ite_none_right_eq_some] at h
    obtain ⟨⟨-, hc⟩, hrest⟩ := h
    cases hrest
    exact ⟨p, hup, hc⟩

theorem type_of_complete {p : Packet} {t u : Transport}
    (h : Server.handleProbePacket u p true = some (.completeUpgrade t)) : p.type = .upgrade := by
  unfold Server.handleProbePacket at h
  split at h
  · cases h
  · split at h
    · assumption
    · cases h

theorem serverNet_of_server {net net' : Network} {w : World} {pc pc' : Pc} {a : Server.Choice}
    (h : net.server w pc a pc' = some net') : ServerNet net w pc a pc' net' := by
  revert h
  fun_cases Network.server net w pc a pc' <;> intro h
  case case7 =>
    obtain ⟨up, hread, rfl⟩ := Option.map_eq_some_iff.1 h
    obtain ⟨p, hup, -⟩ := read_eq_some hread
    exact .probed rfl rfl hup
  case case8 t =>
    obtain ⟨up, hread, rfl⟩ := Option.map_eq_some_iff.1 h
    obtain ⟨p, hup, hc⟩ := read_eq_some hread
    exact .complete rfl rfl hup (type_of_complete hc)
  all_goals cases h
  case case2 data isBinary hclean =>
    refine .same ?_ (by simp) (by simp) (by simp) (by simp)
    intro data' isBinary' _ ha hbin hmem
    cases ha
    exact hclean ⟨hbin, hmem⟩
  case case3 hrequested => exact .serve rfl rfl hrequested
  case case5 => exact .accept rfl rfl
  case case9 ch =>
    split
    · next hpc' => exact .hold rfl hpc'
    · next hpc' => exact .refuse rfl hpc'
  case case10 => exact .respond rfl rfl
  case case12 => exact .written rfl rfl
  case case15 hhold hawait hwrite hsend hserve _ _ hcomplete _ _ =>
    refine .same (fun data isBinary hpc ha => (hsend data isBinary hpc ha).elim) hserve ?_ hwrite
      hcomplete
    intro poll hpc
    cases poll with
    | hold ch => exact hhold ch hpc
    | await ch => exact hawait ch hpc

/-- The steps of a system. -/
inductive Stepped (s : System) : System → Prop
  | server {i : Nat} {a : Server.Choice} {w' : World} {pc' : Pc} {net : Network}
      (hx : Server.exec s.server.shared (s.server.thread i) a = some (w', pc'))
      (hnet : ServerNet s.net s.server.shared (s.server.thread i) a pc' net) :
      Stepped s { s with server := ⟨w', Function.update s.server.thread i pc'⟩, net }
  | client {i : Nat} {a : ClientChoice} {w' : Client.Switchover.World} {l' : List CallFrame}
      {net : Network} (hx : frames.step s.client.shared (s.client.thread i) a = some (w', l'))
      (hnet : ClientNet s.net (s.client.thread i) a l' net) :
      Stepped s
        { s with
          client := ⟨w', Function.update s.client.thread i l'⟩
          net := { net with delivered := net.delivered ++ handles (s.client.thread i) } }
  | writeFrame {i : Nat} {k : Server.Cont} {packets rest : List Packet} {p : Packet}
      (hpc : s.server.thread i = .flush (.writeFrames k packets))
      (hp : packets.drop s.net.batch.length = p :: rest) :
      Stepped s
        { s with net := { s.net with
          batch := s.net.batch ++ [p], down := s.net.down ++ [p], committed := true } }
  | refuse (hpoll : s.net.poll = .requested) :
      Stepped s { s with net := { s.net with poll := .answered none } }

theorem stepped_of_step {a : Act} (h : step s a = some s') : Stepped s s' := by
  revert h
  fun_cases step s a <;> intro h
  case case2 i a server hstep =>
    obtain ⟨net, hnet, rfl⟩ := Option.map_eq_some_iff.1 h
    obtain ⟨w', pc', hx, rfl⟩ := Program.step_eq_some hstep
    exact .server hx (serverNet_of_server (by simpa using hnet))
  case case4 i a client hstep =>
    obtain ⟨net, hnet, rfl⟩ := Option.map_eq_some_iff.1 h
    obtain ⟨w', l', hx, rfl⟩ := Program.step_eq_some hstep
    exact .client hx (clientNet_of_client (by simpa using hnet))
  all_goals cases h
  case case6 hpc p rest hp => exact .writeFrame hpc hp
  case case8 hpoll => exact .refuse hpoll.1

/-- **Invariants.** What holds at the start, and is kept by every step of a reached system after
    which neither side has closed the session, always holds. -/
theorem Reaches.invariant {P : System → Prop} (hinit : ∀ s, s.Initial → P s)
    (hstep : ∀ s s', Reaches s → P s → Stepped s s' → s'.BothOpen → P s') (h : Reaches s) : P s := by
  induction h with
  | init h => exact hinit _ h
  | step hs h hopen ih => exact hstep _ _ hs ih (stepped_of_step h) hopen

/-- The server's end is a run of the session. -/
theorem Reaches.server (h : Reaches s) : Server.program.Reachable s.server := by
  refine h.invariant (P := fun s => Server.program.Reachable s.server) ?_ ?_
  · rintro s ⟨hserver, -⟩
    rw [hserver]
    exact Server.freshPolling_reachable
  · intro s s' _ hs hstep _
    cases hstep with
    | server hx => exact .step hs trivial (Program.step_of_exec (P := Server.program) hx)
    | client => exact hs
    | writeFrame => exact hs
    | refuse => exact hs

/-! ## What is on the wire -/

/-- A packet that a flush of the server writes. -/
structure Sendable (p : Packet) : Prop where
  wellFormed : p.WellFormed
  separable : p.Separable
  type : p.type = .message ∨ p.type = .ping

/-- The packets of a response. -/
structure Body (ps : List Packet) : Prop where
  ne_nil : ps ≠ []
  decodes : ∀ p ∈ ps, p.WellFormed ∧ p.Separable
  closeAlone : CloseAlone ps

theorem Sendable.type_ne_close {p : Packet} (h : Sendable p) : p.type ≠ .close := by
  rcases h.type with h | h <;> rw [h] <;> decide

theorem body_of_sendable {ps : List Packet} (hne : ps ≠ []) (h : ∀ p ∈ ps, Sendable p) : Body ps :=
  ⟨hne, fun p hp => ⟨(h p hp).wellFormed, (h p hp).separable⟩,
    fun p hp hclose => absurd hclose (h p hp).type_ne_close⟩

theorem body_singleton {p : Packet} (hvalid : p.type.valid = true) (hbin : p.isBinary = false)
    (hdata : p.data = []) : Body [p] := by
  refine ⟨by simp, fun q hq => ?_, fun q hq _ => by rw [List.mem_singleton.1 hq]⟩
  rw [List.mem_singleton.1 hq]
  refine ⟨⟨hvalid, fun h => ?_⟩, fun _ => by simp [hdata]⟩
  rw [hbin] at h
  cases h

/-- What a poll returns for the body of a response. -/
theorem pollResult_body {ps : List Packet} (h : Body ps) :
    pollResult (some ps) = .body (some ps) := by
  have hdecode : decodePayload 4 (encodePayload ps) = .ok ps :=
    (decodePayload_v4_eq_ok ..).2 (decodeRecordSeparatorPayload_encodePayload h.ne_nil h.decodes)
  simp [pollResult, hdecode, Except.toOption]

theorem received_eq {p : Packet} (h : p.WellFormed) : received p = some p := by
  rw [received, decodeWebSocketFrame_encodeFrame h]
  rfl

theorem probePong_wellFormed : probePong.WellFormed := ⟨by decide, by decide⟩

/-- What can be on the wire, and what the goroutines of the server hold that is going to be. -/
structure Contents (s : System) : Prop where
  accepted : ∀ p ∈ s.server.shared.accepted, Sendable p
  inbox : ∀ m ∈ s.server.shared.inbox, Body m.2
  answered : ∀ packets, s.net.poll = .answered (some packets) → Body packets
  down : ∀ p ∈ s.net.down, Sendable p ∨ p = probePong
  sends : ∀ i data isBinary, s.server.thread i = .send data isBinary → isBinary = false →
    separator ∉ data
  snapshots : ∀ i k t packets, s.server.thread i = .flush (.send k t packets) → packets ≠ []

/-- The channel of a poll that got its payload. -/
theorem payload_mem {inbox : List (Nat × List Packet)} {ch : Nat} (h : ∃ m ∈ inbox, m.1 = ch) :
    (ch, payload inbox ch) ∈ inbox := by
  obtain ⟨m, hm, hch⟩ := h
  have hsome : (inbox.find? (·.1 = ch)).isSome = true :=
    List.find?_isSome.2 ⟨m, hm, by simpa using hch⟩
  obtain ⟨m', hm'⟩ := Option.isSome_iff_exists.1 hsome
  have hch' : m'.1 = ch := by simpa using List.find?_some hm'
  have hmem := List.mem_of_find?_eq_some hm'
  rw [payload, hm', ← hch']
  exact hmem

/-- The snapshot of a flush consists of accepted packets. -/
theorem Reaches.snapshot (h : Reaches s) {i : Nat} {packets : List Packet}
    (hi : (s.server.thread i).stage = .loaded packets) :
    s.server.shared.handed ++ packets <+: s.server.shared.accepted := by
  have hst := (Server.reach_sound h.server).2.1 i
  rw [hi] at hst
  exact hst.2.2.2

theorem Reaches.mem_accepted (h : Reaches s) {i : Nat} {packets : List Packet}
    (hi : (s.server.thread i).stage = .loaded packets) {p : Packet} (hp : p ∈ packets) :
    p ∈ s.server.shared.accepted :=
  (h.snapshot hi).subset (List.mem_append_right _ hp)

section

variable {i : Nat} {a : Server.Choice} {w' : World} {pc' : Pc} {net : Network}

/-- What the session accepts comes from `Send` or from a heartbeat. -/
theorem Contents.accepts (hC : Contents s)
    (hx : Server.exec s.server.shared (s.server.thread i) a = some (w', pc'))
    (hopen : w'.sock.state = .opening ∨ w'.sock.state = .open) : ∀ p ∈ w'.accepted, Sendable p := by
  rcases (Server.exec_outgoing hx).accepted with heq | ⟨p, heq, hp⟩
  · have heq : w'.accepted = s.server.shared.accepted := heq
    rw [heq]
    exact hC.accepted
  · have heq : w'.accepted = s.server.shared.accepted ++ [p] := heq
    rw [heq]
    refine List.forall_mem_append.2 ⟨hC.accepted, List.forall_mem_singleton.2 ?_⟩
    rcases hp with ⟨data, isBinary, hpc, rfl⟩ | ⟨-, rfl⟩ | hpc
    · exact ⟨⟨rfl, fun _ => rfl⟩, hC.sends i data isBinary hpc, .inl rfl⟩
    · exact ⟨⟨by decide, by decide⟩, by decide, .inr rfl⟩
    · rw [hpc] at hx
      rcases Server.exec_beginClose hx with h | h
      · rw [heq] at h
        simp at h
      · rw [h] at hopen
        rcases hopen with hopen | hopen <;> cases hopen

theorem Contents.receives (hs : Reaches s) (hC : Contents s)
    (hx : Server.exec s.server.shared (s.server.thread i) a = some (w', pc')) :
    ∀ m ∈ w'.inbox, Body m.2 := by
  rcases (Server.exec_outgoing hx).inbox with heq | ⟨ch, packets, heq, hp⟩
  · have heq : w'.inbox = s.server.shared.inbox := heq
    rw [heq]
    exact hC.inbox
  · have heq : w'.inbox = s.server.shared.inbox ++ [(ch, packets)] := heq
    rw [heq]
    refine List.forall_mem_append.2 ⟨hC.inbox, List.forall_mem_singleton.2 ?_⟩
    rcases hp with rfl | rfl | ⟨k, t, hpc⟩
    · exact body_singleton (by decide) rfl rfl
    · exact body_singleton (by decide) rfl rfl
    · refine body_of_sendable (hC.snapshots i k t packets hpc) fun p hp => hC.accepted p ?_
      exact hs.mem_accepted (i := i) (by rw [hpc]; rfl) hp

theorem Contents.server (hs : Reaches s) (hC : Contents s)
    (hx : Server.exec s.server.shared (s.server.thread i) a = some (w', pc'))
    (hnet : ServerNet s.net s.server.shared (s.server.thread i) a pc' net)
    (hopen : w'.sock.state = .opening ∨ w'.sock.state = .open) :
    Contents { s with server := ⟨w', Function.update s.server.thread i pc'⟩, net } := by
  have hentered := Server.exec_entered hx
  refine ⟨hC.accepts hx hopen, hC.receives hs hx, ?_, ?_, ?_, ?_⟩
  · intro packets
    cases hnet with
    | respond hpc ha =>
      rintro ⟨⟩
      have hout := Server.exec_outgoing hx
      rw [hpc, ha] at hout
      exact hC.inbox _ (payload_mem hout.responded)
    | serve => exact nofun
    | refuse => exact nofun
    | _ => exact hC.answered packets
  · cases hnet with
    | probed =>
      exact List.forall_mem_append.2 ⟨hC.down, List.forall_mem_singleton.2 (.inr rfl)⟩
    | _ => exact hC.down
  · refine (Function.forall_update_iff _ fun _ (pc : Pc) => ∀ data isBinary, pc = .send data isBinary →
      isBinary = false → separator ∉ data).2 ⟨?_, fun j _ => hC.sends j⟩
    rintro data isBinary rfl
    obtain ⟨hpc, ha⟩ := hentered
    rw [hpc, ha] at hnet
    cases hnet with
    | same hsend => exact hsend data isBinary rfl rfl
    | accept _ h | serve _ h | probed _ h | complete _ h => cases h
    | hold h | refuse h | respond h | written h => cases h
  · refine (Function.forall_update_iff _ fun _ (pc : Pc) => ∀ k t packets,
      pc = .flush (.send k t packets) → packets ≠ []).2 ⟨?_, fun j _ => hC.snapshots j⟩
    rintro k t packets rfl
    exact hentered.1

end

theorem Contents.client (hC : Contents s) {i : Nat} {a : ClientChoice}
    {c : Pool Client.Switchover.World (List CallFrame)} {l' : List CallFrame} {net : Network}
    {delivered : List Packet} (hnet : ClientNet s.net (s.client.thread i) a l' net) :
    Contents { s with client := c, net := { net with delivered } } := by
  refine ⟨hC.accepted, hC.inbox, ?_, ?_, hC.sends, hC.snapshots⟩
  · intro packets
    cases hnet with
    | request => exact nofun
    | respond => exact nofun
    | _ => exact hC.answered packets
  · have hdown := hC.down
    cases hnet with
    | frame _ _ h | probed _ h =>
      rw [h] at hdown
      exact fun p hp => hdown p (List.mem_cons_of_mem _ hp)
    | _ => exact hdown

/-- **What is on the wire.** Every response and every frame decodes at the client, and only a response
    with nothing else carries a close packet. -/
theorem Reaches.contents (h : Reaches s) : Contents s := by
  refine h.invariant ?_ ?_
  · rintro s ⟨hserver, -, -, hnet⟩
    obtain ⟨server, client, net⟩ := s
    cases hserver
    cases hnet
    exact ⟨nofun, nofun, nofun, nofun, nofun, nofun⟩
  · intro s s' hs hC hstep hopen
    cases hstep with
    | server hx hnet => exact hC.server hs hx hnet hopen.2
    | client hx hnet => exact hC.client hnet
    | @writeFrame i k packets rest p hpc hp =>
      refine ⟨hC.accepted, hC.inbox, hC.answered, ?_, hC.sends, hC.snapshots⟩
      have hmem : p ∈ packets := by
        refine List.mem_of_mem_drop (i := s.net.batch.length) ?_
        rw [hp]
        exact List.mem_cons_self ..
      refine List.forall_mem_append.2 ⟨hC.down, List.forall_mem_singleton.2 (.inl ?_)⟩
      exact hC.accepted p (hs.mem_accepted (i := i) (by rw [hpc]; rfl) hmem)
    | refuse => exact ⟨hC.accepted, hC.inbox, nofun, hC.down, hC.sends, hC.snapshots⟩

/-! ## The client's end -/

theorem Contents.response (hC : Contents s) {packets : Option (List Packet)} {ps : List Packet}
    (hpoll : s.net.poll = .answered packets) (h : pollResult packets = .body (some ps)) :
    packets = some ps ∧ Body ps := by
  cases packets with
  | none => cases h
  | some qs =>
    have hbody := hC.answered qs hpoll
    rw [pollResult_body hbody] at h
    cases h
    exact ⟨rfl, hbody⟩

theorem Contents.frame (hC : Contents s) {p : Packet} {down : List Packet}
    (hdown : s.net.down = p :: down) : received p = some p ∧ p.type ≠ .close := by
  have hp := hC.down
  rw [hdown] at hp
  rcases hp p (List.mem_cons_self ..) with hp | rfl
  · exact ⟨received_eq hp.wellFormed, hp.type_ne_close⟩
  · exact ⟨received_eq probePong_wellFormed, by decide⟩

/-- What the network lets happen at the client does not fail it. -/
theorem Contents.steady (hC : Contents s) {i : Nat} {a : ClientChoice}
    {w' : Client.Switchover.World} {l' : List CallFrame} {net : Network}
    (hx : frames.step s.client.shared (s.client.thread i) a = some (w', l'))
    (hnet : ClientNet s.net (s.client.thread i) a l' net) (hopen : w'.sock.state = .open) :
    Steady s.client.shared (s.client.thread i) a := by
  refine ⟨fun r hr => ?_, fun ps ha => ?_, fun t ht => ?_⟩
  · obtain rfl : r = (w', l') := Option.some.inj (hr.symm.trans hx)
    exact hopen
  · generalize s.client.thread i = l at hx hnet
    cases l with
    | nil =>
      rcases ha with rfl | rfl
      · cases hx
      · cases hnet with
        | same hshake =>
          obtain rfl := hshake ps rfl rfl
          exact fun p hp => absurd hp List.not_mem_nil
        | request h | respond h | frame h | probed h | dial h | upgrade h => cases h
    | cons f rest =>
      obtain ⟨fs, hfs, -⟩ := Frames.step_cons hx
      obtain ⟨hshake, hpolled⟩ := Client.Switchover.exec_arrives hfs
      rcases ha with rfl | rfl
      · obtain rfl := hpolled _ rfl
        cases hnet with
        | same _ _ hrequest => exact absurd rfl (hrequest _ _ rfl)
        | respond _ ha hpoll =>
          exact (hC.response hpoll (Client.Switchover.Choice.polled.inj ha).symm).2.closeAlone
        | request h | frame h | probed h | dial h | upgrade h => cases h
      · exact absurd rfl (hshake ps)
  · obtain ⟨rest, hl⟩ : ∃ rest, s.client.thread i = .read t :: rest := by
      cases hl : s.client.thread i with
      | nil => simp [hl] at ht
      | cons f rest => exact ⟨rest, by simpa [hl] using ht⟩
    rw [hl] at hx hnet
    obtain ⟨fs, hfs, -⟩ := Frames.step_cons hx
    cases hnet with
    | same _ _ _ hread =>
      obtain ⟨hfailed, hframe⟩ := hread t rest rfl
      rcases Client.Switchover.exec_read_choice hfs with h | h | ⟨p, h⟩
      · exact .inl h
      · exact absurd h hfailed
      · exact absurd h (hframe p)
    | frame _ ha hdown =>
      obtain ⟨hp, htype⟩ := hC.frame hdown
      rw [hp] at ha
      exact .inr ⟨_, ha, htype⟩
    | request h | respond h | probed h | dial h | upgrade h => cases h

/-- **The client's end** is a steady run of the client. -/
theorem Reaches.client (h : Reaches s) : frames.program.Reach Steady s.client := by
  refine h.invariant (P := fun s => frames.program.Reach Steady s.client) ?_ ?_
  · rintro s ⟨-, hclient, hidle, -⟩
    obtain ⟨server, ⟨w, thread⟩, net⟩ := s
    obtain rfl : thread = fun _ => [] := funext hidle
    exact .init (P := frames.program) hclient
  · intro s s' hs hc hstep hopen
    cases hstep with
    | server => exact hc
    | client hx hnet =>
      exact .step hc (hs.contents.steady hx hnet hopen.1)
        (Program.step_of_exec (P := frames.program) hx)
    | writeFrame => exact hc
    | refuse => exact hc

end EngineIo.EndToEnd
