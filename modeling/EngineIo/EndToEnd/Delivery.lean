import EngineIo.EndToEnd.Handover

set_option autoImplicit false

/-! # Messages across an upgrade

Every message that the session has handed to a transport is in one of five places: with the client's
message handler, with the goroutine that dispatches a response, in the response to the poll, with
the read loop of the websocket, or on the websocket. Read in this order they are the messages that
were handed over, in the order in which they were accepted (`Ledger`). So what the message handler
gets is a prefix of what `Send` has accepted. -/

namespace EngineIo.EndToEnd

open Concurrency
open Server (Pc World Outgoing)
open Client.Switchover (Carried Transfer arrives frames handles)
open Client.Switchover renaming Frame → CallFrame, Choice → ClientChoice

variable {s s' : System} {D R : List Packet}

/-! ## The ledger -/

/-- The packets of the response to the poll, from the channel it is served on to the client. -/
def pollBody (inbox : List (Nat × List Packet)) : Poll → List Packet
  | .serving ch => payload inbox ch
  | .answered (some packets) => packets
  | .idle | .requested | .answered none => []

/-- Where the messages are that were handed to a transport, given the messages `D` of the client's
    dispatch and `R` of its read loop. -/
def Balanced (v : Outgoing) (net : Network) (D R : List Packet) : Prop :=
  messages (v.handed ++ net.batch) =
    net.delivered ++ (D ++ (messages (pollBody v.inbox net.poll) ++ (R ++ messages net.down)))

structure Ledger (s : System) (D R : List Packet) : Prop where
  carried : Carried s.client.thread D R
  /-- Before the first frame of a flush the read loop holds no message. -/
  uncommitted : s.net.committed = false → R = []
  balanced : Balanced s.server.shared.outgoing s.net D R

/-! ## Sections of the server -/

section

variable {inbox : List (Nat × List Packet)} {ch : Nat} {packets : List Packet}

theorem payload_of_unfilled (h : ∀ m ∈ inbox, m.1 ≠ ch) : payload inbox ch = [] := by
  have hnone : inbox.find? (·.1 = ch) = none := by simpa [List.find?_eq_none] using h
  rw [payload, hnone]
  rfl

theorem payload_append (h : ∀ m ∈ inbox, m.1 ≠ ch) :
    payload (inbox ++ [(ch, packets)]) ch = packets := by
  have hnone : inbox.find? (·.1 = ch) = none := by simpa [List.find?_eq_none] using h
  rw [payload, List.find?_append, hnone]
  simp

end

section

variable {T : Nat → Pc} {v v' : Outgoing} {net net' : Network} {pc' : Pc} {i : Nat}

theorem Balanced.traffic (hB : Balanced v net D R) (hS : Slot T v net.poll)
    (h : Traffic v net (T i) v' net' pc')
    (hsend : ∀ k t packets, T i = .flush (.send k t packets) → t.type = .polling →
      net.batch = [] ∧ R = [] ∧ messages net.down = []) : Balanced v' net' D R := by
  unfold Balanced at hB ⊢
  cases h with
  | other hnet =>
    rw [hnet.poll, hnet.down, hnet.batch, hnet.delivered]
    exact hB
  | serve hrequested =>
    have hbody : payload v.inbox v.channels = [] :=
      payload_of_unfilled fun m hm => (hS.channels m hm).ne
    rw [hrequested] at hB
    simpa [pollBody, hbody] using hB
  | hold => exact hB
  | @refuse ch _ hpc =>
    have hbody : payload v.inbox ch = [] := payload_of_unfilled (hS.fresh i ch hpc).2
    rw [hS.serving i ch (by rw [hpc]; rfl)] at hB
    simpa [pollBody, hbody] using hB
  | @claim ch p _ _ hnet _ _ hch hp =>
    obtain ⟨hpoll, hunfilled⟩ := hS.held ch hch
    rw [hnet.poll, hnet.down, hnet.batch, hnet.delivered, hpoll]
    rw [hpoll] at hB
    simp only [pollBody, payload_of_unfilled hunfilled] at hB
    simp only [pollBody, payload_append hunfilled, hp]
    exact hB
  | @send k t packets ch _ hnet hpc ht hch =>
    obtain ⟨hpoll, hunfilled⟩ := hS.held ch hch
    obtain ⟨hbatch, hR, hdown⟩ := hsend k t packets hpc ht
    rw [hnet.poll, hnet.down, hnet.batch, hnet.delivered, hpoll]
    rw [hpoll] at hB
    simp only [pollBody, payload_of_unfilled hunfilled, hbatch, hR, hdown, List.append_nil] at hB
    simp only [pollBody, payload_append hunfilled, hbatch, hR, hdown, List.append_nil,
      messages_append, hB]
    simp [messages]
  | write => simpa using hB
  | @respond ch _ hpc =>
    rw [hS.serving i ch (by rw [hpc]; rfl)] at hB
    exact hB

end

theorem Ledger.server (hs : Reaches s) (hL : Ledger s D R) {i : Nat} {a : Server.Choice}
    {w' : World} {pc' : Pc} {net : Network}
    (hx : Server.exec s.server.shared (s.server.thread i) a = some (w', pc'))
    (hnet : ServerNet s.net s.server.shared (s.server.thread i) a pc' net) :
    Ledger { s with server := ⟨w', Function.update s.server.thread i pc'⟩, net } D R := by
  have hcommitted : net.committed = s.net.committed := by cases hnet <;> rfl
  refine ⟨hL.carried, fun hfalse => hL.uncommitted (hcommitted.symm.trans hfalse), ?_⟩
  refine hL.balanced.traffic hs.slot.2 (traffic_of_server hx hnet) fun k t packets hpc ht => ?_
  -- a flush to the poll: no flush has written a frame
  have huncommitted : s.net.committed = false := by
    cases hc : s.net.committed with
    | false => rfl
    | true => exact absurd ht ((hs.writes.committed hc).2 i k t packets hpc)
  obtain ⟨hbatch, hdown⟩ := hs.writes.uncommitted huncommitted
  exact ⟨hbatch, hL.uncommitted huncommitted, hdown⟩

/-! ## Sections of the client -/

/-- Before the upgrade packet there are no messages on the websocket. -/
theorem Reaches.probed (h : Reaches s) {i t : Nat} {rest : List CallFrame}
    (hi : s.client.thread i = .probe (.awaitPong t) :: rest) : messages s.net.down = [] := by
  have hunsent := (h.order.pending i (by rw [hi]; rfl)).2
  have huncommitted : s.net.committed = false := by
    cases hc : s.net.committed with
    | false => rfl
    | true => exact absurd (h.order.early hunsent).2.2 (h.writes.committed hc).1
  exact (h.writes.uncommitted huncommitted).2

section

variable {i : Nat} {a : ClientChoice} {w' : Client.Switchover.World} {l' : List CallFrame}
  {net : Network}

/-- The network's part in a section that takes in no packets. -/
theorem Reaches.silent (h : Reaches s) (hnet : ClientNet s.net (s.client.thread i) a l' net)
    (ha : arrives (s.client.thread i) a = false) (inbox : List (Nat × List Packet)) :
    messages (pollBody inbox net.poll) = messages (pollBody inbox s.net.poll) ∧
      messages net.down = messages s.net.down ∧ net.batch = s.net.batch ∧
      net.delivered = s.net.delivered := by
  cases hnet with
  | same | dial | upgrade => exact ⟨rfl, rfl, rfl, rfl⟩
  | request hl =>
    rw [h.poll_idle hl h.slot.1]
    exact ⟨rfl, rfl, rfl, rfl⟩
  | @respond _ packets hl hr hpoll =>
    cases packets with
    | none =>
      rw [hpoll]
      exact ⟨rfl, rfl, rfl, rfl⟩
    | some ps =>
      rw [hl, hr, pollResult_body (h.contents.answered ps hpoll)] at ha
      cases ha
  | frame hl hr hdown =>
    rw [hl, hr, (h.contents.frame hdown).1] at ha
    cases ha
  | probed hl hdown =>
    have hnil := h.probed hl
    rw [hnil]
    rw [hdown, messages_cons] at hnil
    exact ⟨rfl, (List.append_eq_nil_iff.1 hnil).2, rfl, rfl⟩

/-- A response that is taken in is the one that was on its way. -/
theorem Reaches.responds (h : Reaches s) (hnet : ClientNet s.net (s.client.thread i) a l' net)
    {ps : List Packet} (hl : s.client.thread i = [.pollRequest])
    (ha : a = .polled (.body (some ps))) :
    s.net.poll = .answered (some ps) ∧ net = { s.net with poll := .idle } := by
  cases hnet with
  | same _ _ hrequest => exact absurd ha (hrequest _ _ hl)
  | respond _ hr hpoll =>
    obtain ⟨rfl, -⟩ := h.contents.response hpoll
      (Client.Switchover.Choice.polled.inj (hr.symm.trans ha))
    exact ⟨hpoll, rfl⟩
  | request hl' | frame hl' | probed hl' | dial hl' | upgrade hl' => cases hl.symm.trans hl'

/-- A frame that is taken in is the next one on the websocket. -/
theorem Reaches.receives (h : Reaches s) (hnet : ClientNet s.net (s.client.thread i) a l' net)
    {t : Nat} {p : Packet} (hl : s.client.thread i = [.read t]) (ha : a = .frame (some p)) :
    ∃ down, s.net.down = p :: down ∧ net = { s.net with down } := by
  cases hnet with
  | same _ _ _ hread => exact absurd ha ((hread t [] hl).2 _)
  | frame _ hr hdown =>
    rw [(h.contents.frame hdown).1] at hr
    obtain rfl := Option.some.inj (Client.Switchover.Choice.frame.inj (ha.symm.trans hr))
    exact ⟨_, hdown, rfl⟩
  | request hl' | respond hl' | probed hl' | dial hl' | upgrade hl' => cases hl.symm.trans hl'

/-- Nothing comes with the handshake. -/
theorem shakes (hnet : ClientNet s.net (s.client.thread i) a l' net) {ps : List Packet}
    (hl : s.client.thread i = []) (ha : a = .handshake ps) : ps = [] ∧ net = s.net := by
  cases hnet with
  | same hshake => exact ⟨hshake ps hl ha, rfl⟩
  | request hl' | respond hl' | frame hl' | probed hl' | dial hl' | upgrade hl' =>
    cases hl.symm.trans hl'

theorem Ledger.client (hs : Reaches s) (hL : Ledger s D R)
    (hx : frames.step s.client.shared (s.client.thread i) a = some (w', l'))
    (hnet : ClientNet s.net (s.client.thread i) a l' net) (hopen : w'.sock.state = .open) :
    ∃ D' R', Ledger
      { s with
        client := ⟨w', Function.update s.client.thread i l'⟩
        net := { net with delivered := net.delivered ++ handles (s.client.thread i) } } D' R' := by
  have hcommitted : net.committed = s.net.committed := by cases hnet <;> rfl
  obtain ⟨D', R', hcarried, htransfer⟩ :=
    Client.Switchover.reach_transfer hs.client (hs.contents.steady hx hnet hopen) hx hL.carried
  have hB : messages (s.server.shared.handed ++ s.net.batch) = s.net.delivered ++ (D ++
    (messages (pollBody s.server.shared.inbox s.net.poll) ++ (R ++ messages s.net.down))) :=
    hL.balanced
  refine ⟨D', R', hcarried, fun hfalse => ?_, ?_⟩
  · have hR := hL.uncommitted (hcommitted.symm.trans hfalse)
    have hdown := (hs.writes.uncommitted (hcommitted.symm.trans hfalse)).2
    cases htransfer with
    | dispatch _ _ h | respond _ _ _ h => rw [h, hR]
    | read _ _ _ _ h => exact (List.append_eq_nil_iff.1 (h.symm.trans hR)).2
    | receive hl ha _ _ h =>
      obtain ⟨down, hp, -⟩ := hs.receives hnet hl ha
      rw [hp, messages_cons] at hdown
      rw [h]
      exact (List.append_eq_nil_iff.1 hdown).1
  · show messages (s.server.shared.handed ++ net.batch) =
      (net.delivered ++ handles (s.client.thread i)) ++ (D' ++
        (messages (pollBody s.server.shared.inbox net.poll) ++ (R' ++ messages net.down)))
    cases htransfer with
    | dispatch ha hD hR =>
      obtain ⟨hpoll, hdown, hbatch, hdelivered⟩ := hs.silent hnet ha s.server.shared.inbox
      rw [hpoll, hdown, hbatch, hdelivered, hB, hD, hR]
      simp only [List.append_assoc]
    | read ha hsilent hD hD' hR =>
      obtain ⟨hpoll, hdown, hbatch, hdelivered⟩ := hs.silent hnet ha s.server.shared.inbox
      have hidle : s.net.poll = .idle := by
        refine hs.slot.1.resolve_right fun ⟨j, hj⟩ => hsilent j ?_
        rw [hj]
        exact List.mem_singleton_self _
      rw [hpoll, hdown, hbatch, hdelivered, hB, hD, hD', hR, hidle]
      simp only [pollBody, messages, List.filter_nil, List.nil_append, List.append_assoc]
    | respond ha hD hD' hR =>
      rcases ha with ⟨hl, ha⟩ | ⟨hl, ha⟩
      · obtain ⟨hpoll, rfl⟩ := hs.responds hnet hl ha
        rw [hB, hl, hD, hD', hR, hpoll]
        simp [handles, pollBody, messages]
      · obtain ⟨rfl, rfl⟩ := shakes hnet hl ha
        rw [hB, hl, hD, hD', hR]
        simp [handles, messages]
    | receive hl ha hD hR hR' =>
      obtain ⟨down, hdown, rfl⟩ := hs.receives hnet hl ha
      rw [hB, hl, hD, hR, hR', hdown, messages_cons]
      simp [handles]

end

/-- **The ledger.** -/
theorem Reaches.ledger (h : Reaches s) : ∃ D R, Ledger s D R := by
  refine h.invariant (P := fun s => ∃ D R, Ledger s D R) ?_ ?_
  · rintro s ⟨hserver, -, hidle, hnet⟩
    obtain ⟨server, client, net⟩ := s
    cases hserver
    cases hnet
    refine ⟨[], [], ⟨fun i hi => ?_, fun i hi => ?_, fun _ => rfl, fun _ => rfl⟩, fun _ => rfl, rfl⟩
    · rw [hidle i] at hi
      cases hi
    · rw [hidle i] at hi
      cases hi
  · rintro s s' hs ⟨D, R, hL⟩ hstep hopen
    cases hstep with
    | server hx hnet => exact ⟨D, R, hL.server hs hx hnet⟩
    | client hx hnet => exact hL.client hs hx hnet hopen.1
    | @writeFrame i k packets rest p hpc hp =>
      refine ⟨D, R, hL.carried, nofun, ?_⟩
      have hB := hL.balanced
      unfold Balanced at hB ⊢
      simp only [messages_append, ← List.append_assoc] at hB ⊢
      rw [hB]
    | refuse hrequested =>
      refine ⟨D, R, hL.carried, hL.uncommitted, ?_⟩
      have hB := hL.balanced
      unfold Balanced at hB ⊢
      rw [hrequested] at hB
      exact hB

/-! ## Main result -/

/-- The frames of the write in progress are next among the accepted packets. -/
theorem Reaches.written (h : Reaches s) :
    s.server.shared.handed ++ s.net.batch <+: s.server.shared.accepted := by
  rcases h.writes.batch with hnil | ⟨i, k, packets, hi, hprefix⟩
  · rw [hnil, List.append_nil]
    exact (Server.reach_sound h.server).1.handed
  · refine List.IsPrefix.trans ?_ (h.snapshot (i := i) (by rw [hi]; rfl))
    exact (List.prefix_append_right_inj _).2 hprefix

/-- **Delivery across an upgrade.** However the goroutines of the session and of its client
    interleave with each other and with the network, as long as neither side closes the session the
    client's message handler has got a prefix of the messages that `Send` has accepted: none is
    skipped, duplicated or out of order, through whichever transport it went. -/
theorem delivered_prefix (s : System) (h : Reaches s) :
    s.net.delivered <+: messages s.server.shared.accepted := by
  obtain ⟨D, R, hL⟩ := h.ledger
  have hB : messages (s.server.shared.handed ++ s.net.batch) = s.net.delivered ++ _ := hL.balanced
  have hdelivered : s.net.delivered <+: messages (s.server.shared.handed ++ s.net.batch) :=
    ⟨_, hB.symm⟩
  exact hdelivered.trans (h.written.filter _)

/-- A fresh session, and a client that has read its open packet. -/
def established : System where
  server := Server.freshPolling
  client := Client.Switchover.connected
  net := {}

theorem established_initial : established.Initial :=
  ⟨rfl, ⟨rfl, rfl, rfl, rfl, rfl, rfl⟩, fun _ => rfl, rfl⟩

/-- A message goes into the response to the poll while the client probes. It is dispatched only
    after the session has been upgraded and has written a second message to the websocket. -/
def acrossUpgrade : List Act :=
  [.server 0 (.call .open), .server 0 .go,
    .server 1 (.call (.send [7] false)), .server 1 .go, .server 1 .go, .server 1 .go, .server 1 .go,
    .server 1 .go,
    .client 0 (.handshake []), .client 0 .go, .client 0 .probeUpgrades, .client 0 .go,
    .client 0 .go, .client 1 .poll, .client 1 .go, .client 1 .go,
    .server 2 (.call .poll), .server 2 .go, .server 2 .go, .server 2 .go, .server 2 .go,
    .server 2 .go, .server 2 .go, .server 2 (.responded true),
    .client 2 .probeUpgrades, .client 2 .dialled,
    .server 3 (.call (.startUpgrade .websocket)), .server 3 .go,
    .server 4 (.call .onProbe), .server 4 .go,
    .client 2 .pong, .client 2 .go, .client 2 .go, .client 2 .go, .client 2 .go, .client 2 .go,
    .client 2 (.sent true),
    .server 5 (.call (.completeUpgrade webSocket)), .server 5 .go, .server 5 .go, .server 5 .go,
    .server 5 .go, .server 5 .go, .server 5 .go,
    .server 1 (.call (.send [8] false)), .server 1 .go, .server 1 .go, .server 1 .go, .server 1 .go,
    .writeFrame 1,
    .client 1 (.polled (.body (some [{ type := .message, data := [7] }]))), .client 1 .go,
    .client 1 .go, .client 1 .go, .client 1 .go, .client 1 .go,
    .client 2 .go, .client 2 .go, .client 2 .go, .client 2 .go, .client 2 .go, .client 2 .go,
    .client 2 .go, .client 2 .go, .client 2 .go, .client 2 .go,
    .client 2 (.frame (some { type := .message, data := [8] })), .client 2 .go, .client 2 .go]

theorem delivered_prefix_run :
    ∃ s, Reaches s ∧ s.server.shared.swaps = 1 ∧
      s.net.delivered = [{ type := .message, data := [7] }, { type := .message, data := [8] }] ∧
      s.net.delivered <+: messages s.server.shared.accepted := by
  have hrun : (run established acrossUpgrade).map
      (fun s => (s.server.shared.swaps, s.net.delivered)) =
      some (1, [{ type := .message, data := [7] }, { type := .message, data := [8] }]) := by
    decide +kernel
  obtain ⟨s, hs, heq⟩ := Option.map_eq_some_iff.1 hrun
  obtain ⟨hswaps, hdelivered⟩ := Prod.mk.inj heq
  have hreach := (Reaches.init established_initial).run hs
  exact ⟨s, hreach, hswaps, hdelivered, delivered_prefix s hreach⟩

end EngineIo.EndToEnd
