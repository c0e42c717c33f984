import EngineIo.EndToEnd.UplinkEnds

set_option autoImplicit false

/-! # What the server's message handler gets

Until the upgrade packet is sent, every packet a flush has written was dispatched by the POST it went in.
From then on the packets follow the upgrade packet on the websocket, whose read loop ignores them unless
the upgrade packet made the session switch. So the messages the handler has got, those a goroutine is
dispatching and those on the websocket are one sequence, in the order in which `Send` accepted them. -/

namespace EngineIo.EndToEnd.Uplink

open Concurrency
open Client (Entry Goroutine Write flushed)
open Server.Inbound renaming State → Session, Pc → Handler, Choice → HandlerChoice

variable {s s' : State} {maxPayload : Int} {i j k : Nat}

/-! ## The ledger -/

/-- The packets on the websocket are going to be dispatched, as far as they are read: the session has
    switched, or the upgrade packet is still on its way to it. -/
def Due (x : Session) (T : Nat → Handler) (up : List Packet) : Prop :=
  x.world.swaps ≠ 0 ∨ (∃ p ∈ up, p.type = .upgrade) ∨ ∃ k, completing (T k) = true

/-- No message goes before the upgrade packet. -/
def Ordered (up : List Packet) : Prop :=
  up.Pairwise fun p q => q.type = .upgrade → p.type ≠ .message

/-- The chunk of the POST that is outstanding. -/
def inFlight (c : Pool Client.World Goroutine) (post : Posting) : List Entry :=
  (post.waiting.bind fun i => posting (c.thread i)).getD []

/-- The messages of entries. -/
def texts (es : List Entry) : List Packet := messages (es.map Entry.packet)

theorem texts_append (xs ys : List Entry) : texts (xs ++ ys) = texts xs ++ texts ys := by
  rw [texts, List.map_append, messages_append]
  rfl

/-- Before the upgrade packet is written. -/
structure Before (s : State) (xs : List Packet) : Prop where
  undue : ¬ Due s.server.shared s.server.thread s.net.up
  empty : messages s.net.up = []
  carried : Carried load s.server.thread xs
  total : heard s.server.shared ++ xs =
    texts (flushed s.client.shared.wire ++ inFlight s.client s.net.post)

/-- Afterwards; `extra` are the packets of a write that failed whose frames are on the wire. -/
structure After (s : State) (xs rest : List Packet) (extra : List Entry) : Prop where
  waiting : s.net.post.waiting = none
  carried : Carried load s.server.thread xs
  total : heard s.server.shared ++ (xs ++ rest) = texts (flushed s.client.shared.wire ++ extra)
  front : flushed s.client.shared.wire ++ extra <+: s.client.shared.accepted
  whole : s.net.broken = false → extra = []
  due : Due s.server.shared s.server.thread s.net.up → rest = messages s.net.up

structure Ledger (s : State) : Prop where
  ordered : Ordered s.net.up
  before : ¬ UpgradeSent s.client.shared.wire → ∃ xs, Before s xs
  after : UpgradeSent s.client.shared.wire → ∃ xs rest extra, After s xs rest extra

section Server

variable {net' : Network} {x' : Session} {l' : Handler}

theorem Due.of_update {x : Session} {T : Nat → Handler} {up : List Packet}
    (h : Due x' (Function.update T j l') up)
    (hswaps : x'.world.swaps = x.world.swaps ∨ completing (T j) = true)
    (hl' : completing l' = false) : Due x T up := by
  rcases h with hne | hup | ⟨k, hk⟩
  · exact hswaps.elim (fun heq => .inl (heq ▸ hne)) fun hc => .inr (.inr ⟨j, hc⟩)
  · exact .inr (.inl hup)
  · by_cases hkj : k = j
    · subst hkj
      rw [Function.update_self, hl'] at hk
      cases hk
    · rw [Function.update_of_ne hkj] at hk
      exact .inr (.inr ⟨k, hk⟩)

/-- A section of the server that takes nothing from the websocket. -/
theorem Ledger.pass (h : Ledger s) (hgrow : heard s.server.shared <+: heard x')
    (hpass : heard x' ++ load l' = heard s.server.shared ++ load (s.server.thread j))
    (hswaps : x'.world.swaps = s.server.shared.world.swaps ∨ completing (s.server.thread j) = true)
    (hl' : completing l' = false) (hup : net'.up = s.net.up) (hbroken : net'.broken = s.net.broken)
    (hwaiting : net'.post.waiting = s.net.post.waiting) :
    Ledger { s with server := ⟨x', Function.update s.server.thread j l'⟩, net := net' } where
  ordered := hup ▸ h.ordered
  before hsent := by
    obtain ⟨xs, hb⟩ := h.before hsent
    obtain ⟨xs', hcarried, htotal⟩ := hb.carried.pass hgrow hpass
    refine ⟨xs', fun hdue => hb.undue (Due.of_update (hup ▸ hdue) hswaps hl'), hup ▸ hb.empty,
      hcarried, ?_⟩
    rw [htotal, hb.total, inFlight, inFlight, hwaiting]
  after hsent := by
    obtain ⟨xs, rest, extra, ha⟩ := h.after hsent
    obtain ⟨xs', hcarried, htotal⟩ := ha.carried.pass hgrow hpass
    refine ⟨xs', rest, extra, hwaiting.trans ha.waiting, hcarried, ?_, ha.front, hbroken ▸ ha.whole,
      fun hdue => ?_⟩
    · rw [← List.append_assoc, htotal, List.append_assoc, ha.total]
    · rw [hup]
      exact ha.due (Due.of_update (hup ▸ hdue) hswaps hl')

/-- A frame that the read loop of a probing websocket takes. -/
theorem Ledger.probe (h : Ledger s) (hV : Serves s.server s.net) {t : Transport} {p : Packet}
    {up : List Packet} (hj : s.server.thread j = .read t) (hup : s.net.up = p :: up)
    (hswaps : s.server.shared.world.swaps = 0) :
    Ledger { s with
      server := ⟨s.server.shared,
        Function.update s.server.thread j (Server.Inbound.handleProbePacket t p)⟩
      net := { s.net with up } } := by
  have hordered := h.ordered
  rw [hup] at hordered
  obtain ⟨hp, hordered⟩ := List.pairwise_cons.1 hordered
  have hpass : heard s.server.shared ++ load (Server.Inbound.handleProbePacket t p) =
      heard s.server.shared ++ load (s.server.thread j) := by
    rw [load_handleProbePacket, hj]
    rfl
  -- what was due is due, and the frame was not a message then
  have hdue (hdue : Due s.server.shared
      (Function.update s.server.thread j (Server.Inbound.handleProbePacket t p)) up) :
      (∃ q ∈ s.net.up, q.type = .upgrade) ∧ messages s.net.up = messages up := by
    rw [hup]
    rcases hdue with hne | ⟨q, hq, htype⟩ | ⟨k, hk⟩
    · exact absurd hswaps hne
    · refine ⟨⟨q, List.mem_cons_of_mem _ hq, htype⟩, ?_⟩
      simp [messages, hp q hq htype]
    · by_cases hkj : k = j
      · subst hkj
        rw [Function.update_self, completing_handleProbePacket] at hk
        refine ⟨⟨p, List.mem_cons_self, hk⟩, ?_⟩
        have hne : p.type ≠ .message := by rw [hk]; decide
        simp [messages, hne]
      · rw [Function.update_of_ne hkj] at hk
        refine absurd (hV.reader k j (hV.switching k hk).1 ?_) hkj
        rw [hj]
        exact Option.some_ne_none t
  refine ⟨hordered, fun hsent => ?_, fun hsent => ?_⟩
  · obtain ⟨xs, hb⟩ := h.before hsent
    obtain ⟨xs', hcarried, htotal⟩ := hb.carried.pass List.prefix_rfl hpass
    refine ⟨xs', fun hnew => hb.undue (.inr (.inl (hdue hnew).1)), ?_, hcarried, htotal.trans hb.total⟩
    have hempty := hb.empty
    rw [hup, messages_cons, List.append_eq_nil_iff] at hempty
    exact hempty.2
  · obtain ⟨xs, rest, extra, ha⟩ := h.after hsent
    obtain ⟨xs', hcarried, htotal⟩ := ha.carried.pass List.prefix_rfl hpass
    refine ⟨xs', rest, extra, ha.waiting, hcarried, ?_, ha.front, ha.whole, fun hnew => ?_⟩
    · rw [← List.append_assoc, htotal, List.append_assoc, ha.total]
    · obtain ⟨hold, hsame⟩ := hdue hnew
      exact (ha.due (.inr (.inl hold))).trans hsame

/-- A frame that the read loop takes once the session has switched. -/
theorem Ledger.frame (h : Ledger s) (hV : Serves s.server s.net) {t : Transport} {p : Packet}
    {up : List Packet} (hj : s.server.thread j = .read t) (hup : s.net.up = p :: up)
    (hswaps : s.server.shared.world.swaps ≠ 0) :
    Ledger { s with
      server := ⟨s.server.shared, Function.update s.server.thread j (.dispatch [p] (some t))⟩
      net := { s.net with up } } := by
  have hordered := h.ordered
  rw [hup] at hordered
  refine ⟨(List.pairwise_cons.1 hordered).2, fun hsent => ?_, fun hsent => ?_⟩
  · obtain ⟨xs, hb⟩ := h.before hsent
    exact absurd (.inl hswaps) hb.undue
  · obtain ⟨xs, rest, extra, ha⟩ := h.after hsent
    have hrest := ha.due (.inl hswaps)
    rw [hup, messages_cons] at hrest
    -- the read loop is between two packets, and no POST is outstanding
    have hnil : xs = [] := by
      refine ha.carried.eq_nil_of_only (k := j) (by rw [hj]; rfl) fun k hk => ?_
      by_contra hload
      obtain ⟨i, hi⟩ := hV.posted k (hV.source_eq_none (by rw [hj]; rfl) hk) hload
      have hwaiting := ha.waiting
      rw [hi] at hwaiting
      cases hwaiting
    subst hnil
    refine ⟨messages [p], messages up, extra, ha.waiting, ha.carried.take j (.dispatch [p] (some t)),
      ?_, ha.front, ha.whole, fun _ => rfl⟩
    rw [← hrest]
    exact ha.total

theorem Ledger.server (h : Ledger s) (hV : Serves s.server s.net)
    (hstep : ServerStep s.net j s.server.shared (s.server.thread j) net' x' l') :
    Ledger { s with server := ⟨x', Function.update s.server.thread j l'⟩, net := net' } := by
  generalize hl : s.server.thread j = l at hstep
  cases hstep with
  | pass hpass =>
    subst hl
    exact h.pass hpass.grows hpass.passes hpass.swaps hpass.completing rfl rfl rfl
  | answer hdone =>
    exact h.pass List.prefix_rfl (by rw [hl, hdone]; rfl) (.inl rfl) rfl rfl rfl (waiting_answer j _)
  | start hidle _ =>
    exact h.pass List.prefix_rfl (by rw [hl, hidle]; rfl) (.inl rfl) rfl rfl rfl rfl
  | probe hread hswaps hup => exact h.probe hV (hl.trans hread) hup hswaps
  | frame hread hswaps hup => exact h.frame hV (hl.trans hread) hup hswaps

end Server

/-- The session dispatches what the client has posted. -/
theorem handleSend_posts {chunk : List Entry} {packets : List Packet} (hm : 0 ≤ maxPayload)
    (hm' : maxPayload < 2 ^ 63 - 1) (hchunk : ∀ e ∈ chunk, Posted e.packet)
    (h : Server.handleSend maxPayload (posts chunk) = .ok packets) :
    packets = chunk.map Entry.packet := by
  have htype : ¬ Server.octetStream <+: (posts chunk).contentType := not_octetStream_textPlain
  by_cases hnil : chunk = []
  · subst hnil
    have hempty : Server.handleSend maxPayload (posts []) = .ok [] := by
      have hlen : ((posts []).bytes.length : Int) ≤ maxPayload := hm
      rw [Server.handleSend, if_neg htype, Server.Post.readLimited_eq hm' hlen rfl]
      exact if_neg (Int.not_lt.2 hm)
    exact (Server.SendOutcome.ok.inj (hempty.symm.trans h)).symm
  · have hne : chunk.map Entry.packet ≠ [] := by simpa using hnil
    by_cases hfits : Client.payloadSize chunk ≤ maxPayload
    · have hdecode : decodePayload 4 (posts chunk).bytes = .ok (chunk.map Entry.packet) := by
        refine decodePayload_v4_eq_ok.2 (decodeRecordSeparatorPayload_encodePayload hne fun p hp => ?_)
        obtain ⟨e, he, rfl⟩ := List.mem_map.1 hp
        exact ⟨(hchunk e he).wellFormed, (hchunk e he).separable⟩
      rw [Server.handleSend_within hm' (encodePayload_ne_nil hne) htype rfl hfits, hdecode] at h
      exact (Server.SendOutcome.ok.inj h).symm
    · rw [Server.handleSend_over hm hm' htype (Int.not_le.1 hfits)] at h
      cases h

section Client

variable {net' : Network} {w' : Client.World} {g' : Goroutine}

theorem Ledger.post (h : Ledger s) (hC : Sends s.client s.net) (hV : Serves s.server s.net)
    {chunk : List Entry} (hchunk : posting (s.client.thread i) = some chunk)
    (hpost : s.net.post = .none) :
    Ledger { s with
      server := ⟨s.server.shared,
        Function.update s.server.thread j (.dispatch (chunk.map Entry.packet) none)⟩
      net := { s.net with post := .handling i j } } := by
  obtain ⟨cont, r, t, handed, chunks, hg, ht⟩ := posting_eq_some hchunk
  have hfly := flying_of_sendChunks hC.runs hg
  -- a flush over long polling is one of the time before the upgrade packet
  have hnot : ¬ UpgradeSent s.client.shared.wire := by
    intro hsent
    have htype := (hC.dialled t (hC.upgraded t (upgrade_mem_of_flying hC.runs hsent hfly))).1
    rw [ht] at htype
    cases htype
  refine ⟨h.ordered, fun hsent => ?_, fun hsent => absurd hsent hnot⟩
  obtain ⟨xs, hb⟩ := h.before hsent
  have hswaps : s.server.shared.world.swaps = 0 := by
    by_contra hne
    exact hb.undue (.inl hne)
  have hnil : xs = [] := by
    refine hb.carried.eq_nil fun k => ?_
    by_contra hload
    by_cases hsource : source (s.server.thread k) = none
    · obtain ⟨i', hi'⟩ := hV.posted k hsource hload
      rw [hpost] at hi'
      cases hi'
    · exact hload (hV.probing hswaps k hsource)
  subst hnil
  refine ⟨texts chunk, fun hdue => hb.undue (hdue.of_update (.inl rfl) rfl), hb.empty,
    hb.carried.take j (.dispatch (chunk.map Entry.packet) none), ?_⟩
  have htotal := hb.total
  rw [hpost, inFlight] at htotal
  show heard s.server.shared ++ texts chunk = texts (flushed s.client.shared.wire ++ inFlight _ _)
  rw [inFlight, texts_append]
  simp only [Posting.waiting, Option.bind_some, hchunk, Option.getD_some]
  congr 1
  simpa [Posting.waiting] using htotal

/-- Which writes are made on which side of the upgrade packet. -/
theorem Sends.not_upgradeSent_of_committing (hC : Sends s.client s.net) {t : Transport}
    {rest : List TransportType} (hg : (s.client.thread i).pc = .probe (.sendUpgrade t rest)) :
    ¬ UpgradeSent s.client.shared.wire ∧ s.client.shared.sock.flushing = false := by
  have hholds := (Client.reach_sound hC.runs).2.1 i
  rw [hg] at hholds
  obtain ⟨hprobed, -, -, hflushing⟩ := hholds.stage
  exact ⟨not_upgradeSent_of_before hprobed.before, hflushing⟩

theorem Sends.upgradeSent_of_dialled (hC : Sends s.client s.net) {t : Transport}
    {cont : Client.Cont} {r : Nat} {handed chunk : List Entry} {chunks : List (List Entry)}
    (hg : (s.client.thread i).pc = .flush (.sendChunks cont r t handed (chunk :: chunks)))
    (ht : s.net.dialled = some t) : UpgradeSent s.client.shared.wire := by
  by_contra hsent
  exact (hC.dialled t ht).2.2 (installed_of_flying hC.runs hsent (flying_of_sendChunks hC.runs hg))

/-- No POST is outstanding unless a flush is in flight. -/
theorem Sends.waiting_eq_none (hC : Sends s.client s.net)
    (hflushing : s.client.shared.sock.flushing = false) : s.net.post.waiting = none := by
  cases hm : s.net.post.waiting with
  | none => rfl
  | some m =>
    obtain ⟨chunk, hchunk⟩ := hC.waiting m hm
    obtain ⟨cont, r, t, handed, chunks, hg, -⟩ := posting_eq_some hchunk
    exact absurd (hflushing.symm.trans (flying_of_sendChunks hC.runs hg).flushing) (by decide)

theorem upgradeSent_append {wire : List Write} {t : Transport} {es : List Entry} :
    UpgradeSent (wire ++ es.map (.entry t)) ↔ UpgradeSent wire := by
  simp [UpgradeSent]

theorem Due.of_append {x : Session} {T : Nat → Handler} {up ps : List Packet} (h : Due x T (up ++ ps))
    (hps : ∀ p ∈ ps, p.type ≠ .upgrade) : Due x T up := by
  refine h.imp_right (Or.imp_left ?_)
  rintro ⟨p, hp, htype⟩
  rcases List.mem_append.1 hp with hp | hp
  · exact ⟨p, hp, htype⟩
  · exact absurd htype (hps p hp)

theorem Ordered.append {up ps : List Packet} (h : Ordered up) (hps : ∀ p ∈ ps, p.type ≠ .upgrade) :
    Ordered (up ++ ps) :=
  List.pairwise_append.2 ⟨h, List.pairwise_of_forall_mem_list fun _ _ q hq htype =>
    absurd htype (hps q hq), fun _ _ q hq htype => absurd htype (hps q hq)⟩

section Steps

variable {c' : Pool Client.World Goroutine}

/-- A section that writes no packet of the buffer. -/
theorem Ledger.quiet (h : Ledger s) (ps : List Packet)
    (hsent : UpgradeSent c'.shared.wire ↔ UpgradeSent s.client.shared.wire)
    (hflushed : flushed c'.shared.wire = flushed s.client.shared.wire)
    (haccepted : s.client.shared.accepted <+: c'.shared.accepted) (hup : net'.up = s.net.up ++ ps)
    (hps : ∀ p ∈ ps, p.type ≠ .upgrade ∧ p.type ≠ .message)
    (hwaiting : net'.post.waiting = s.net.post.waiting)
    (hinFlight : inFlight c' net'.post = inFlight s.client s.net.post)
    (hbroken : UpgradeSent s.client.shared.wire → net'.broken = false → s.net.broken = false) :
    Ledger { s with client := c', net := net' } := by
  have hupgrade : ∀ p ∈ ps, p.type ≠ .upgrade := fun p hp => (hps p hp).1
  have hmessages : messages net'.up = messages s.net.up := by
    have hnil : messages ps = [] := List.filter_eq_nil_iff.2 fun p hp => by simp [(hps p hp).2]
    rw [hup, messages_append, hnil, List.append_nil]
  refine ⟨hup ▸ h.ordered.append hupgrade, fun hnot => ?_, fun hyes => ?_⟩
  · obtain ⟨xs, hb⟩ := h.before fun hold => hnot (hsent.2 hold)
    refine ⟨xs, fun hdue => hb.undue (Due.of_append (hup ▸ hdue) hupgrade), hmessages.trans hb.empty,
      hb.carried, ?_⟩
    show heard s.server.shared ++ xs = texts (flushed c'.shared.wire ++ inFlight c' net'.post)
    rw [hflushed, hinFlight, hb.total]
  · obtain ⟨xs, rest, extra, ha⟩ := h.after (hsent.1 hyes)
    refine ⟨xs, rest, extra, hwaiting.trans ha.waiting, ha.carried, ?_, ?_,
      fun hb => ha.whole (hbroken (hsent.1 hyes) hb), fun hdue => ?_⟩
    · show _ = texts (flushed c'.shared.wire ++ extra)
      rw [hflushed, ha.total]
    · show flushed c'.shared.wire ++ extra <+: c'.shared.accepted
      rw [hflushed]
      exact ha.front.trans haccepted
    · exact (ha.due (Due.of_append (hup ▸ hdue) hupgrade)).trans hmessages.symm

/-- A write on the websocket, of which the frames of `es` have got out. -/
theorem Ledger.frames (h : Ledger s) (es extra : List Entry)
    (hsent : UpgradeSent s.client.shared.wire) (hsent' : UpgradeSent c'.shared.wire) (hwhole : s.net.broken = false)
    (hes : ∀ e ∈ es, Posted e.packet)
    (hflushed : flushed c'.shared.wire ++ extra = flushed s.client.shared.wire ++ es)
    (hfront : flushed c'.shared.wire ++ extra <+: c'.shared.accepted)
    (hbroken : net'.broken = false → extra = []) (hup : net'.up = s.net.up ++ es.map Entry.packet)
    (hpost : net'.post = s.net.post) : Ledger { s with client := c', net := net' } := by
  have hupgrade : ∀ p ∈ es.map Entry.packet, p.type ≠ .upgrade := by
    intro p hp
    obtain ⟨e, he, rfl⟩ := List.mem_map.1 hp
    exact (hes e he).type_ne_upgrade
  refine ⟨hup ▸ h.ordered.append hupgrade, fun hnot => absurd hsent' hnot, fun _ => ?_⟩
  obtain ⟨xs, rest, old, ha⟩ := h.after hsent
  obtain rfl := ha.whole hwhole
  refine ⟨xs, rest ++ texts es, extra, ?_, ha.carried, ?_, hfront, hbroken, fun hdue => ?_⟩
  · show net'.post.waiting = none
    rw [hpost, ha.waiting]
  · show heard s.server.shared ++ (xs ++ (rest ++ texts es)) = texts (flushed c'.shared.wire ++ extra)
    have htotal := ha.total
    rw [List.append_nil] at htotal
    rw [hflushed, texts_append, ← htotal]
    simp only [List.append_assoc]
  · show rest ++ texts es = messages net'.up
    rw [hup, messages_append, ha.due (Due.of_append (hup ▸ hdue) hupgrade)]
    rfl

end Steps

/-- The response of a POST: its packets count as written, and the session has taken them. -/
theorem Ledger.posted (h : Ledger s) {cont : Client.Cont} {r : Nat} {t : Transport}
    {handed chunk : List Entry} {chunks : List (List Entry)}
    (hg : (s.client.thread i).pc = .flush (.sendChunks cont r t handed (chunk :: chunks)))
    (ht : t.type = .polling) (hanswered : s.net.post = .answered i)
    (hwire : w'.wire = s.client.shared.wire ++ chunk.map (.entry t)) :
    Ledger { s with
      client := ⟨w', Function.update s.client.thread i g'⟩, net := { s.net with post := .none } } := by
  have hwaiting : s.net.post.waiting = some i := by rw [hanswered]; rfl
  have hnot : ¬ UpgradeSent s.client.shared.wire := by
    intro hsent
    obtain ⟨xs, rest, extra, ha⟩ := h.after hsent
    exact absurd (hwaiting.symm.trans ha.waiting) (Option.some_ne_none i)
  have hchunk : inFlight s.client s.net.post = chunk := by
    have hposting : posting (s.client.thread i) = some chunk := by
      rw [posting, hg]
      exact if_pos ht
    rw [inFlight, hwaiting, Option.bind_some, hposting, Option.getD_some]
  refine ⟨h.ordered, fun _ => ?_, fun hsent => ?_⟩
  · obtain ⟨xs, hb⟩ := h.before hnot
    refine ⟨xs, hb.undue, hb.empty, hb.carried, ?_⟩
    show heard s.server.shared ++ xs = texts (flushed w'.wire ++ [])
    rw [hb.total, hchunk, hwire, Client.flushed_append, Client.flushed_entries, List.append_nil]
  · refine absurd ?_ hnot
    rwa [hwire, upgradeSent_append] at hsent

/-- The upgrade packet: no POST is outstanding, so the session has got all that was written. -/
theorem Ledger.upgrade (h : Ledger s) (hC : Sends s.client s.net) {up : List Packet}
    (hC' : Sends ⟨w', Function.update s.client.thread i g'⟩ { s.net with up }) {t : Transport}
    {rest : List TransportType} (hg : (s.client.thread i).pc = .probe (.sendUpgrade t rest))
    (hwire : w'.wire = s.client.shared.wire ++ [.upgrade t]) :
    Ledger { s with
      client := ⟨w', Function.update s.client.thread i g'⟩
      net := { s.net with up := s.net.up ++ [upgradePacket] } } := by
  obtain ⟨hnot, hflushing⟩ := hC.not_upgradeSent_of_committing hg
  have hwaiting := hC.waiting_eq_none hflushing
  obtain ⟨xs, hb⟩ := h.before hnot
  have hup : messages (s.net.up ++ [upgradePacket]) = [] := by
    rw [messages_append, hb.empty]
    rfl
  have hflushed : flushed w'.wire = flushed s.client.shared.wire := by
    rw [hwire]
    exact Client.flushed_snoc_upgrade _ _
  refine ⟨?_, fun hnot' => ?_, fun _ => ⟨xs, [], [], hwaiting, hb.carried, ?_, ?_, fun _ => rfl,
    fun _ => hup.symm⟩⟩
  · refine List.pairwise_append.2 ⟨h.ordered, List.pairwise_singleton _ _, fun p hp _ _ _ htype => ?_⟩
    exact List.filter_eq_nil_iff.1 hb.empty p hp (decide_eq_true htype)
  · refine absurd ⟨t, ?_⟩ hnot'
    show .upgrade t ∈ w'.wire
    rw [hwire]
    exact List.mem_append_right _ List.mem_cons_self
  · show heard s.server.shared ++ (xs ++ []) = texts (flushed w'.wire ++ [])
    rw [List.append_nil, hb.total, inFlight, hwaiting, hflushed]
    rfl
  · show flushed w'.wire ++ [] <+: w'.accepted
    rw [List.append_nil]
    exact flushed_prefix hC'.runs

theorem Ledger.client (h : Ledger s) (hC : Sends s.client s.net)
    (hC' : Sends ⟨w', Function.update s.client.thread i g'⟩ net')
    (hstep : ClientStep s.net i s.client.shared (s.client.thread i) net' w' g') :
    Ledger { s with client := ⟨w', Function.update s.client.thread i g'⟩, net := net' } := by
  have haccepted : s.client.shared.accepted <+: w'.accepted := by
    rcases hstep.accepted with heq | heq
    · rw [heq]
    · rw [heq]
      exact List.prefix_append _ _
  have hinFlight (hquiet : posting (s.client.thread i) = none ∨ s.net.post = .none) :
      inFlight ⟨w', Function.update s.client.thread i g'⟩ s.net.post =
        inFlight s.client s.net.post := by
    unfold inFlight
    cases hm : s.net.post.waiting with
    | none => rfl
    | some m =>
      show (posting (Function.update s.client.thread i g' m)).getD [] = _
      rw [hC.waiting_step hquiet g' hm]
      rfl
  have hwrote := hstep.wrote
  generalize hwire : w'.wire = wire' at hwrote
  cases hwrote with
  | nothing hquiet =>
    exact h.quiet [] (by rw [hwire]) (by rw [hwire]) haccepted (List.append_nil _).symm
      (fun _ hp => absurd hp List.not_mem_nil) rfl (hinFlight hquiet) fun _ hb => hb
  | posted hg ht hanswered => exact h.posted hg ht hanswered hwire
  | @written cont r t handed chunk chunks hg ht hbroken =>
    have hsent := hC.upgradeSent_of_dialled hg ht
    have hflushed : flushed w'.wire = flushed s.client.shared.wire ++ chunk := by
      rw [hwire, Client.flushed_append, Client.flushed_entries]
    refine h.frames chunk [] hsent (by rw [hwire, upgradeSent_append]; exact hsent) hbroken
      (hC.posted_of_prefix (flying_front (flying_of_sendChunks hC.runs hg))) ?_ ?_ (fun _ => rfl) rfl rfl
    · rw [List.append_nil]
      exact hflushed
    · rw [List.append_nil]
      exact flushed_prefix hC'.runs
  | @cut cont r t handed chunk chunks out hg ht hbroken =>
    have hsent := hC.upgradeSent_of_dialled hg ht
    have hfront := flying_front (flying_of_sendChunks hC.runs hg)
    refine h.frames (chunk.take out) (chunk.take out) hsent (by rw [hwire]; exact hsent) hbroken
      (fun e he => hC.posted_of_prefix hfront e (List.mem_of_mem_take he)) (by rw [hwire]) ?_
      (fun hb => by cases hb) rfl rfl
    show flushed w'.wire ++ chunk.take out <+: w'.accepted
    rw [hwire]
    refine (List.IsPrefix.trans ?_ hfront).trans haccepted
    exact (List.prefix_append_right_inj _).2
      ((List.take_prefix _ _).trans (List.prefix_append _ _))
  | @dial t rest ok hg hnone ht =>
    have hnot : ¬ UpgradeSent s.client.shared.wire := by
      rintro ⟨t', ht'⟩
      rw [hC.upgraded t' ht'] at hnone
      cases hnone
    have hquiet : posting (s.client.thread i) = none := by rw [posting, hg]
    have hsent : UpgradeSent w'.wire ↔ UpgradeSent s.client.shared.wire := by
      rw [hwire]
      cases ok <;> simp [UpgradeSent]
    have hflushed : flushed w'.wire = flushed s.client.shared.wire := by
      rw [hwire]
      cases ok
      · rfl
      · exact Client.flushed_snoc_probe _ _
    refine h.quiet (if ok then [probePing] else []) hsent hflushed haccepted ?_ ?_ rfl
      (hinFlight (.inl hquiet)) fun hyes => absurd hyes hnot
    · cases ok <;> simp
    · cases ok <;> decide
  | upgrade hg _ _ => exact h.upgrade hC hC' hg hwire
  | @abandoned t rest hg =>
    have hnot := (hC.not_upgradeSent_of_committing hg).1
    have hquiet : posting (s.client.thread i) = none := by rw [posting, hg]
    exact h.quiet [] (by rw [hwire]) (by rw [hwire]) haccepted (List.append_nil _).symm
      (fun _ hp => absurd hp List.not_mem_nil) rfl (hinFlight (.inl hquiet))
      fun hyes => absurd hyes hnot

end Client

/-! ## Runs -/

/-- What holds in every state of a run. -/
structure Sound (s : State) : Prop where
  sends : Sends s.client s.net
  serves : Serves s.server s.net
  ledger : Ledger s

theorem Sound.init (h : s.Initial) : Sound s := by
  obtain ⟨⟨w, threads⟩, ⟨x, handlers⟩, net⟩ := s
  obtain ⟨hfresh, hidle, ⟨⟨type, hworld⟩, hevents⟩, hhandler, hhidle, rfl⟩ := h
  obtain rfl : threads = fun _ => .idle := funext hidle
  obtain rfl : handlers = fun _ => .idle := funext hhidle
  have hruns : ClientRuns ⟨w, fun _ => .idle⟩ := .init hfresh
  obtain ⟨upgrade, rememberUpgrade, tryAll, transports, rfl⟩ := hfresh
  have hswaps : x.world.swaps = 0 := by rw [hworld]
  refine ⟨⟨hruns, fun _ he => absurd he List.not_mem_nil, fun _ _ hp => absurd hp List.not_mem_nil,
      fun _ hp => absurd hp List.not_mem_nil, fun _ ht => (by cases ht),
      fun _ ht => absurd ht List.not_mem_nil, fun _ hm => (by cases hm)⟩,
    ⟨hhandler, fun _ _ => rfl, fun _ _ hk => absurd rfl hk, fun _ _ hload => absurd rfl hload,
      fun _ _ _ => rfl, fun _ hc => (by cases hc)⟩,
    ⟨List.Pairwise.nil, fun _ => ⟨[], ?_, rfl, .of_nil fun _ => rfl, ?_⟩, ?_⟩⟩
  · rintro (hne | ⟨p, hp, -⟩ | ⟨k, hk⟩)
    · exact hne hswaps
    · cases hp
    · cases hk
  · show heard x ++ [] = []
    rw [heard, hevents]
    rfl
  · rintro ⟨t, ht⟩
    cases ht

theorem Sound.step {a : Act} (hm : 0 ≤ maxPayload) (hm' : maxPayload < 2 ^ 63 - 1) (h : Sound s)
    (hstep : step maxPayload s a = some s') (hone : Client.OneConnection s'.client.shared)
    (hlost : ¬ Lost s a) : Sound s' := by
  cases a with
  | client i a out =>
    simp only [Uplink.step] at hstep
    split at hstep
    · cases hstep
    · next client hclient =>
      obtain ⟨net', hnet, rfl⟩ := Option.map_eq_some_iff.1 hstep
      obtain ⟨w', g', hx, rfl⟩ := Program.step_eq_some hclient
      have hwrote := clientStep_of_client hx hlost hnet
      have hsends := h.sends.client hx hone hwrote
      exact ⟨hsends, h.serves.client hwrote.wrote, h.ledger.client h.sends hsends hwrote⟩
  | server j a =>
    simp only [Uplink.step] at hstep
    split at hstep
    · cases hstep
    · next server hserver =>
      obtain ⟨net', hnet, rfl⟩ := Option.map_eq_some_iff.1 hstep
      obtain ⟨x', l', hx, rfl⟩ := Program.step_eq_some hserver
      have hpass := serverStep_of_server h.serves.handler h.sends.up hx hnet
      exact ⟨h.sends.server hpass, h.serves.server hpass, h.ledger.server h.serves hpass⟩
  | post i j =>
    simp only [Uplink.step] at hstep
    split at hstep
    · next cont r t handed chunk chunks hg =>
      split at hstep
      · next packets hok =>
        obtain ⟨⟨ht, hpost⟩, hstep⟩ := Option.ite_none_right_eq_some.1 hstep
        obtain ⟨server, hserver, rfl⟩ := Option.map_eq_some_iff.1 hstep
        obtain ⟨x', l', hx, rfl⟩ := Program.step_eq_some hserver
        obtain ⟨rfl, rfl⟩ := exec_post hx hok
        have hposting : posting (s.client.thread i) = some chunk := by
          rw [posting, hg]
          exact if_pos ht
        have hfront := flying_front (flying_of_sendChunks h.sends.runs hg)
        obtain rfl := handleSend_posts hm hm' (h.sends.posted_of_prefix hfront) hok
        exact ⟨h.sends.post hposting, h.serves.post hpost _,
          h.ledger.post h.sends h.serves hposting hpost⟩
      · cases hstep
    · cases hstep

theorem Reaches.sound (hm : 0 ≤ maxPayload) (hm' : maxPayload < 2 ^ 63 - 1)
    (h : Reaches maxPayload s) : Sound s := by
  induction h with
  | init h => exact .init h
  | step _ hstep hone hlost ih => exact ih.step hm hm' hstep hone hlost

/-- The messages given to the handler and those that a goroutine holds are the first of those accepted. -/
theorem Sound.heard_append (h : Sound s) :
    ∃ xs es, Carried load s.server.thread xs ∧ es <+: s.client.shared.accepted ∧
      heard s.server.shared ++ xs <+: texts es := by
  by_cases hsent : UpgradeSent s.client.shared.wire
  · obtain ⟨xs, rest, extra, ha⟩ := h.ledger.after hsent
    refine ⟨xs, _, ha.carried, ha.front, rest, ?_⟩
    rw [List.append_assoc, ha.total]
  · obtain ⟨xs, hb⟩ := h.ledger.before hsent
    refine ⟨xs, _, hb.carried, ?_, by rw [hb.total]⟩
    unfold inFlight
    cases hm : s.net.post.waiting with
    | none => simpa using flushed_prefix h.sends.runs
    | some m =>
      obtain ⟨chunk, hchunk⟩ := h.sends.waiting m hm
      rw [Option.bind_some, hchunk]
      exact posting_front h.sends.runs hchunk

/-- Nothing is on its way: no flush is in flight, nothing is on the websocket or with a goroutine of the
    server, the websocket works, and the session has switched to it if it was told to. -/
structure State.Settled (s : State) : Prop where
  flushing : s.client.shared.sock.flushing = false
  load : ∀ k, load (s.server.thread k) = []
  up : messages s.net.up = []
  broken : s.net.broken = false
  switched : UpgradeSent s.client.shared.wire → s.server.shared.world.swaps ≠ 0

/-- A client that has not been opened, and a fresh session on long polling. -/
def fresh : State where
  client := Client.fresh
  server := ⟨{ world := Server.freshPolling.shared, onMessageHandler := true }, fun _ => .idle⟩
  net := {}

theorem fresh_initial : fresh.Initial :=
  ⟨⟨true, false, false, _, rfl⟩, fun _ => rfl, ⟨⟨.polling, rfl⟩, rfl⟩, rfl, fun _ => rfl, rfl⟩

/-- Run a schedule on one connection; `lossless` ones lose no response. -/
def run (maxPayload : Int) (lossless : Bool) : State → List Act → Option State
  | s, [] => some s
  | s, a :: rest =>
    match step maxPayload s a with
    | none => none
    | some s' =>
      if Client.OneConnection s'.client.shared ∧ (lossless = true → ¬ Lost s a) then
        run maxPayload lossless s' rest
      else none

theorem Reaches.run {s s' : State} (hs : Reaches maxPayload s) :
    ∀ {as : List Act}, run maxPayload true s as = some s' → Reaches maxPayload s'
  | [], h => by
    cases h
    exact hs
  | a :: rest, h => by
    rw [Uplink.run] at h
    split at h
    · cases h
    · next s₁ hstep =>
      obtain ⟨⟨hone, hlost⟩, h⟩ := Option.ite_none_right_eq_some.1 h
      exact Reaches.run (.step hs hstep hone (hlost rfl)) h

/-- Sections of the client that put nothing on the wire by themselves, or all of it. -/
def clients (as : List (Nat × Client.Choice)) : List Act := as.map fun a => .client a.1 a.2 0

def servers (j : Nat) (as : List HandlerChoice) : List Act := as.map (.server j)

/-- The client opens, sends a message in a POST, and a goroutine of the server takes it. -/
def postOne : List Act :=
  clients (Client.openBy 0 ++ Client.handshakeBy 1 1 Client.serverOpen) ++
    clients [(2, .call (.send [{ type := .message, data := [97] }])), (2, .go), (2, .go)] ++
    [.post 2 0] ++ servers 0 [.go, .go, .go]

/-- The websocket is probed, the session switches, and a second message goes over it. -/
def upgradeOne : List Act :=
  clients [(2, .sent true), (2, .go), (2, .go)] ++
    clients [(1, .go), (1, .create true), (1, .sent true), (1, .pong), (1, .go), (1, .go)] ++
    servers 1 [.session (.call .open), .session .go, .go, .session (.call (.startUpgrade .websocket)),
      .session .go, .go, .read webSocket, .frame true (some (encodeFrame probePing))] ++
    clients [(1, .sent true), (1, .go), (1, .go)] ++
    clients [(3, .call (.send [{ type := .message, data := [98] }])), (3, .go), (3, .go),
      (3, .sent true), (3, .go), (3, .go)] ++
    servers 1 ([.frame true (some (encodeFrame upgradePacket))] ++ List.replicate 6 (.session .go) ++
      [.go, .frame false (some (encodeFrame { type := .message, data := [98] })), .go, .go, .go])

-- a lost response makes the client post the same message again, and the handler gets it twice
example :
    ((run 1000000 false fresh (postOne ++ clients [(2, .sent false), (2, .go)] ++
        clients [(3, .call (.send [])), (3, .go), (3, .go)] ++ [.post 3 0] ++
        servers 0 [.go, .go, .go])).map fun s =>
      (heard s.server.shared, texts s.client.shared.accepted)) =
      some ([{ type := .message, data := [97] }, { type := .message, data := [97] }],
        [{ type := .message, data := [97] }]) := by
  decide +kernel

end EngineIo.EndToEnd.Uplink
