import EngineIo.EndToEnd.Uplink

set_option autoImplicit false

/-! # The two ends of an uplink

`Sends` is what the client keeps to: it runs as it does on its own, a flush writes what comes next among
the accepted packets, to the transport of `Open` before the upgrade packet and to the websocket behind it.
`Serves` is what the server keeps to: one goroutine reads the websocket, and the messages it or a POST has
got and not handed on are accounted for. -/

namespace EngineIo.EndToEnd.Uplink

open Concurrency
open Client (Entry Goroutine Write flushed)
open Server.Inbound renaming State → Session, Pc → Handler, Choice → HandlerChoice

variable {s s' : State} {maxPayload : Int} {i j k : Nat}

/-! ## The client's side -/

/-- The client has run on its own as far as this connection goes. -/
abbrev ClientRuns (c : Pool Client.World Goroutine) : Prop :=
  Client.program.Reach (Client.program.Stays Client.OneConnection) c

/-- The upgrade packet has been written. -/
def UpgradeSent (wire : List Write) : Prop := ∃ t, .upgrade t ∈ wire

section Client

variable {c : Pool Client.World Goroutine} {t : Transport} {handed chunk : List Entry}
  {chunks : List (List Entry)} {cont : Client.Cont} {r : Nat}

/-- What a flush may still write comes next among the accepted packets. -/
theorem flying_front {v : Client.Line} {rest : List Entry} (h : v.Flying t handed rest) :
    flushed v.wire ++ rest <+: v.accepted := by
  obtain ⟨tail, htail⟩ := h.front
  have htail' : handed ++ (rest ++ tail) = v.writeBuffer := by rw [← htail, List.append_assoc]
  refine ⟨tail, ?_⟩
  have htotal : flushed v.wire ++ v.writeBuffer.drop handed.length = v.accepted := h.balanced.total
  rw [← htail', List.drop_left] at htotal
  rw [List.append_assoc, htotal]

theorem flying_of_sendChunks (hc : ClientRuns c)
    (hg : (c.thread i).pc = .flush (.sendChunks cont r t handed (chunk :: chunks))) :
    c.shared.line.Flying t handed (chunk ++ chunks.flatten) := by
  have hholds := (Client.reach_sound hc).2.1 i
  rw [hg] at hholds
  exact hholds.writing t handed _ rfl

theorem flushed_prefix (hc : ClientRuns c) : flushed c.shared.wire <+: c.shared.accepted := by
  obtain ⟨hsound, hholds, -⟩ := Client.reach_sound hc
  cases hf : c.shared.sock.flushing with
  | false => exact ⟨_, (hsound.settled hf).total⟩
  | true =>
    obtain ⟨i, hi⟩ := Client.flushing_owned hc hf
    obtain ⟨⟨t, handed, rest⟩, hw⟩ := Option.ne_none_iff_exists'.1
      fun hnone => hi (Client.Goroutine.flight_eq_none_iff.2 hnone)
    exact (List.prefix_append _ _).trans (flying_front ((hholds i).writing t handed rest hw))

theorem posting_eq_some {g : Goroutine} (h : posting g = some chunk) :
    ∃ cont r t handed chunks, g.pc = .flush (.sendChunks cont r t handed (chunk :: chunks)) ∧
      t.type = .polling := by
  unfold posting at h
  split at h
  · next cont r t handed chunk' chunks hg =>
    obtain ⟨ht, heq⟩ := Option.ite_none_right_eq_some.1 h
    cases heq
    exact ⟨cont, r, t, handed, chunks, hg, ht⟩
  · cases h

/-- A chunk that is being posted comes next. -/
theorem posting_front (hc : ClientRuns c) (h : posting (c.thread i) = some chunk) :
    flushed c.shared.wire ++ chunk <+: c.shared.accepted := by
  obtain ⟨cont, r, t, handed, chunks, hg, -⟩ := posting_eq_some h
  have hfront := flying_front (flying_of_sendChunks hc hg)
  rw [← List.append_assoc] at hfront
  exact (List.prefix_append _ _).trans hfront

theorem not_upgradeSent_of_before {v : Client.Line} (h : v.Before) : ¬ UpgradeSent v.wire :=
  fun ⟨_, ht⟩ => h.wire _ ht

/-- Once the upgrade packet is written, a flush goes to the transport it was written on. -/
theorem upgrade_mem_of_flying (hc : ClientRuns c) (hsent : UpgradeSent c.shared.wire)
    {rest : List Entry} (hfly : c.shared.line.Flying t handed rest) : .upgrade t ∈ c.shared.wire := by
  obtain ⟨hsound, -, -⟩ := Client.reach_sound hc
  rcases hsound.phase with hbefore | ⟨t', hcommitted⟩ | ⟨t', hadopted⟩
  · exact absurd hsent (not_upgradeSent_of_before hbefore)
  · exact absurd (hcommitted.flushing.symm.trans hfly.flushing) (by decide)
  · obtain rfl : t' = t := Option.some.inj (hadopted.transport.symm.trans hfly.transport)
    obtain ⟨pre, post, hwire, -⟩ := hadopted.wire
    rw [show c.shared.wire = pre ++ .upgrade t' :: post from hwire]
    exact List.mem_append_right _ List.mem_cons_self

/-- Until then it goes to the transport that `Open` installed. -/
theorem installed_of_flying (hc : ClientRuns c) (hsent : ¬ UpgradeSent c.shared.wire)
    {rest : List Entry} (hfly : c.shared.line.Flying t handed rest) :
    some t = c.shared.installed := by
  obtain ⟨hsound, -, -⟩ := Client.reach_sound hc
  rcases hsound.phase with hbefore | ⟨t', hcommitted⟩ | ⟨t', hadopted⟩
  · exact hfly.transport.symm.trans hbefore.transport
  · exact absurd (hcommitted.flushing.symm.trans hfly.flushing) (by decide)
  · obtain ⟨pre, post, hwire, -⟩ := hadopted.wire
    refine absurd ⟨t', ?_⟩ hsent
    rw [show c.shared.wire = pre ++ .upgrade t' :: post from hwire]
    exact List.mem_append_right _ List.mem_cons_self

end Client

/-! ## What the two sides keep to -/

theorem Message.wellFormed {p : Packet} (h : Message p) : p.WellFormed :=
  ⟨by rw [h.1]; decide, fun _ => h.1⟩

theorem Posted.wellFormed {p : Packet} (h : Posted p) : p.WellFormed := by
  rcases h with h | rfl
  · exact h.wellFormed
  · exact ⟨by decide, by decide⟩

theorem Posted.separable {p : Packet} (h : Posted p) : p.Separable := by
  rcases h with h | rfl
  · exact h.2
  · decide

theorem Posted.type_ne_upgrade {p : Packet} (h : Posted p) : p.type ≠ .upgrade := by
  rcases h with h | rfl
  · rw [h.1]; decide
  · decide

theorem waiting_answer (j : Nat) (p : Posting) : (p.answer j).waiting = p.waiting := by
  cases p with
  | handling i j' =>
    show Posting.waiting (if j' = j then .answered i else .handling i j') = some i
    split <;> rfl
  | _ => rfl

/-- The client and the network. -/
structure Sends (c : Pool Client.World Goroutine) (net : Network) : Prop where
  runs : ClientRuns c
  accepted : ∀ e ∈ c.shared.accepted, Posted e.packet
  sending : ∀ i, ∀ p ∈ sending (c.thread i), Posted p
  up : ∀ p ∈ net.up, p.WellFormed
  /-- The websocket is not the transport that `Open` installed. -/
  dialled : ∀ t, net.dialled = some t →
    t.type = .websocket ∧ c.shared.installed ≠ none ∧ some t ≠ c.shared.installed
  upgraded : ∀ t, .upgrade t ∈ c.shared.wire → net.dialled = some t
  waiting : ∀ i, net.post.waiting = some i → ∃ chunk, posting (c.thread i) = some chunk

section Sends

variable {c : Pool Client.World Goroutine} {net net' : Network} {w' : Client.World} {g' : Goroutine}

theorem Sends.posted_of_prefix (h : Sends c net) {chunk rest : List Entry}
    (hfront : flushed c.shared.wire ++ (chunk ++ rest) <+: c.shared.accepted) :
    ∀ e ∈ chunk, Posted e.packet := fun e he =>
  h.accepted e (hfront.subset (List.mem_append_right _ (List.mem_append_left _ he)))

/-- Only the goroutine that waits for a POST ends it. -/
theorem Sends.waiting_step (h : Sends c net) (hquiet : posting (c.thread i) = none ∨ net.post = .none)
    (g' : Goroutine) {m : Nat} (hm : net.post.waiting = some m) :
    Function.update c.thread i g' m = c.thread m := by
  obtain ⟨chunk, hchunk⟩ := h.waiting m hm
  refine Function.update_of_ne (fun hmi => ?_) _ _
  subst hmi
  rcases hquiet with hnone | hnone
  · rw [hnone] at hchunk
    cases hchunk
  · rw [hnone] at hm
    cases hm

/-- The goroutine that writes is the one that waited for its POST, or no POST is touched. -/
theorem Sends.post_of_wrote (h : Sends c net) {wire' : List Write}
    (hwrote : Wrote net i (c.thread i) c.shared.wire net' wire') :
    net'.post = .none ∨
      net'.post = net.post ∧ (posting (c.thread i) = none ∨ net.post = .none) := by
  have hws {t : Transport} (ht : net.dialled = some t) : t.type ≠ .polling := by
    rw [(h.dialled t ht).1]
    decide
  cases hwrote with
  | nothing hquiet => exact .inr ⟨rfl, hquiet⟩
  | posted => exact .inl rfl
  | written hg ht _ => exact .inr ⟨rfl, .inl (by rw [posting, hg]; exact if_neg (hws ht))⟩
  | cut hg ht _ => exact .inr ⟨rfl, .inl (by rw [posting, hg]; exact if_neg (hws ht))⟩
  | dial _ hg _ _ => exact .inr ⟨rfl, .inl (by rw [posting, hg])⟩
  | upgrade hg _ _ => exact .inr ⟨rfl, .inl (by rw [posting, hg])⟩
  | abandoned hg => exact .inr ⟨rfl, .inl (by rw [posting, hg])⟩

theorem Sends.up_of_wrote (h : Sends c net) {wire' : List Write}
    (hwrote : Wrote net i (c.thread i) c.shared.wire net' wire') : ∀ p ∈ net'.up, p.WellFormed := by
  have hchunk {cont : Client.Cont} {r : Nat} {t : Transport} {handed chunk : List Entry}
      {chunks : List (List Entry)}
      (hg : (c.thread i).pc = .flush (.sendChunks cont r t handed (chunk :: chunks))) :
      ∀ e ∈ chunk, e.packet.WellFormed := fun e he =>
    (h.posted_of_prefix (flying_front (flying_of_sendChunks h.runs hg)) e he).wellFormed
  have happend {ps : List Packet} (hps : ∀ p ∈ ps, p.WellFormed) :
      ∀ p ∈ net.up ++ ps, p.WellFormed := fun p hp =>
    (List.mem_append.1 hp).elim (h.up p) (hps p)
  cases hwrote with
  | nothing => exact h.up
  | posted => exact h.up
  | abandoned => exact h.up
  | written hg _ _ =>
    refine happend fun p hp => ?_
    obtain ⟨e, he, rfl⟩ := List.mem_map.1 hp
    exact hchunk hg e he
  | cut hg _ _ =>
    refine happend fun p hp => ?_
    obtain ⟨e, he, rfl⟩ := List.mem_map.1 hp
    exact hchunk hg e (List.mem_of_mem_take he)
  | dial ok _ _ _ =>
    cases ok with
    | false => exact h.up
    | true =>
      refine happend fun p hp => ?_
      rw [List.mem_singleton.1 hp]
      exact ⟨by decide, by decide⟩
  | upgrade =>
    refine happend fun p hp => ?_
    rw [List.mem_singleton.1 hp]
    exact ⟨by decide, by decide⟩

theorem Sends.dialled_client (h : Sends c net)
    (hstep : ClientStep net i c.shared (c.thread i) net' w' g') (t : Transport)
    (ht : net'.dialled = some t) :
    t.type = .websocket ∧ w'.installed ≠ none ∧ some t ≠ w'.installed := by
  have hholds := (Client.reach_sound h.runs).2.1 i
  -- a transport is installed before any is probed
  have hinstalled (hne : c.shared.installed ≠ none) : w'.installed = c.shared.installed := by
    refine hstep.installed.resolve_right fun ⟨t, hg⟩ => ?_
    rw [hg] at hholds
    exact hne hholds.stage.1.2.1
  have hkeep (hold : net.dialled = some t) :
      t.type = .websocket ∧ w'.installed ≠ none ∧ some t ≠ w'.installed := by
    obtain ⟨htype, hne, hapart⟩ := h.dialled t hold
    rw [hinstalled hne]
    exact ⟨htype, hne, hapart⟩
  have hwrote := hstep.wrote
  generalize w'.wire = wire' at hwrote
  cases hwrote with
  | dial ok hg _ htype =>
    cases ht
    rw [hg] at hholds
    obtain ⟨hprobed, hapart⟩ := hholds.stage
    have hne : c.shared.installed ≠ none := Option.isSome_iff_ne_none.1 hprobed.installed
    rw [hinstalled hne]
    exact ⟨htype, hne, hapart.fresh⟩
  | _ => exact hkeep ht

theorem Sends.upgraded_client (h : Sends c net) {wire' : List Write}
    (hwrote : Wrote net i (c.thread i) c.shared.wire net' wire') (t : Transport)
    (ht : .upgrade t ∈ wire') : net'.dialled = some t := by
  have hentries {t' : Transport} {es : List Entry} (hmem : .upgrade t ∈ c.shared.wire ++ es.map (.entry t')) :
      .upgrade t ∈ c.shared.wire := by
    rcases List.mem_append.1 hmem with hmem | hmem
    · exact hmem
    · obtain ⟨e, -, he⟩ := List.mem_map.1 hmem
      cases he
  cases hwrote with
  | nothing => exact h.upgraded t ht
  | posted => exact h.upgraded t (hentries ht)
  | written => exact h.upgraded t (hentries ht)
  | cut => exact h.upgraded t ht
  | abandoned => exact h.upgraded t ht
  | dial ok _ hnone _ =>
    have hold : .upgrade t ∈ c.shared.wire := by
      cases ok with
      | false => exact ht
      | true =>
        rcases List.mem_append.1 ht with hmem | hmem
        · exact hmem
        · cases List.mem_singleton.1 hmem
    rw [h.upgraded t hold] at hnone
    cases hnone
  | upgrade _ hdialled _ =>
    rcases List.mem_append.1 ht with hmem | hmem
    · exact h.upgraded t hmem
    · cases List.mem_singleton.1 hmem
      exact hdialled

theorem Sends.client (h : Sends c net) {a : Client.Choice}
    (hx : Client.exec c.shared (c.thread i) a = some (w', g')) (hone : Client.OneConnection w')
    (hstep : ClientStep net i c.shared (c.thread i) net' w' g') :
    Sends ⟨w', Function.update c.thread i g'⟩ net' where
  runs := by
    refine .step h.runs (fun r hr => ?_) (Program.step_of_exec hx)
    obtain rfl : (w', g') = r := Option.some.inj (hx.symm.trans hr)
    exact hone
  accepted e he := by
    rcases hstep.accepted with heq | heq
    · exact h.accepted e (heq ▸ he)
    · rcases List.mem_append.1 (heq ▸ he) with he | he
      · exact h.accepted e he
      · obtain ⟨⟨p, n⟩, hp, rfl⟩ := List.mem_map.1 he
        exact h.sending i p (List.fst_mem_of_mem_zipIdx hp)
  sending m p hp := by
    by_cases hm : m = i
    · subst hm
      exact hstep.sending p (by simpa using hp)
    · exact h.sending m p (by simpa [Function.update_of_ne hm] using hp)
  up := h.up_of_wrote hstep.wrote
  dialled := h.dialled_client hstep
  upgraded := h.upgraded_client hstep.wrote
  waiting m hm := by
    rcases h.post_of_wrote hstep.wrote with hnone | ⟨hsame, hquiet⟩
    · rw [hnone] at hm
      cases hm
    · rw [hsame] at hm
      show ∃ chunk, posting (Function.update c.thread i g' m) = some chunk
      rw [h.waiting_step hquiet g' hm]
      exact h.waiting m hm

/-- The server takes frames off the websocket and answers POSTs. -/
theorem Sends.server (h : Sends c net) {x x' : Session} {l l' : Handler}
    (hstep : ServerStep net j x l net' x' l') : Sends c net' := by
  obtain ⟨hup, hdialled, hwaiting⟩ : (∀ p ∈ net'.up, p ∈ net.up) ∧ net'.dialled = net.dialled ∧
      net'.post.waiting = net.post.waiting := by
    cases hstep with
    | answer => exact ⟨fun _ hp => hp, rfl, waiting_answer j _⟩
    | probe _ _ hup => exact ⟨fun p hp => hup ▸ List.mem_cons_of_mem _ hp, rfl, rfl⟩
    | frame _ _ hup => exact ⟨fun p hp => hup ▸ List.mem_cons_of_mem _ hp, rfl, rfl⟩
    | _ => exact ⟨fun _ hp => hp, rfl, rfl⟩
  exact ⟨h.runs, h.accepted, h.sending, fun p hp => h.up p (hup p hp),
    fun t ht => h.dialled t (hdialled ▸ ht), fun t ht => hdialled ▸ h.upgraded t ht,
    fun m hm => h.waiting m (hwaiting ▸ hm)⟩

theorem Sends.post (h : Sends c net) {chunk : List Entry} (hchunk : posting (c.thread i) = some chunk) :
    Sends c { net with post := .handling i j } :=
  ⟨h.runs, h.accepted, h.sending, h.up, h.dialled, h.upgraded, fun m hm => by
    cases hm
    exact ⟨chunk, hchunk⟩⟩

end Sends

/-- The server and the network. -/
structure Serves (c : Pool Session Handler) (net : Network) : Prop where
  handler : c.shared.onMessageHandler = true
  reading : net.reading = false → ∀ k, source (c.thread k) = none
  /-- There is one read loop. -/
  reader : ∀ k m, source (c.thread k) ≠ none → source (c.thread m) ≠ none → k = m
  posted : ∀ k, source (c.thread k) = none → load (c.thread k) ≠ [] → ∃ i, net.post = .handling i k
  probing : c.shared.world.swaps = 0 → ∀ k, source (c.thread k) ≠ none → load (c.thread k) = []
  switching : ∀ k, completing (c.thread k) = true →
    source (c.thread k) ≠ none ∧ load (c.thread k) = []

section Serves

variable {c : Pool Session Handler} {net net' : Network} {x' : Session} {l l' : Handler}

theorem Passes.load_ne_nil {x : Session} (h : Passes x l x' l') (hload : load l' ≠ []) : load l ≠ [] := by
  intro hnil
  obtain ⟨added, hadded⟩ := h.grows
  have hpasses := h.passes
  rw [hnil, ← hadded, List.append_assoc, List.append_right_inj, List.append_eq_nil_iff] at hpasses
  exact hload hpasses.2

/-- A read loop and the goroutines that do not belong to it. -/
theorem Serves.source_eq_none (h : Serves c net) {t : Transport} (hj : source (c.thread j) = some t)
    (hk : k ≠ j) : source (c.thread k) = none := by
  by_contra hne
  exact hk (h.reader k j hne (by rw [hj]; exact Option.some_ne_none t))

theorem Serves.pass (h : Serves c net) (hpass : Passes c.shared (c.thread j) x' l') :
    Serves ⟨x', Function.update c.thread j l'⟩ net where
  handler := hpass.handler.trans h.handler
  reading hr := by
    refine (Function.forall_update_iff _ fun _ l => source l = none).2 ⟨?_, fun k _ => h.reading hr k⟩
    rcases hpass.source with heq | ⟨hnone, -⟩
    · rw [heq]
      exact h.reading hr j
    · exact hnone
  reader := by
    have hj : source l' ≠ none → source (c.thread j) ≠ none := by
      intro hne
      rcases hpass.source with heq | ⟨hnone, -⟩
      · rwa [← heq]
      · exact absurd hnone hne
    have hkeep : ∀ k, source (Function.update c.thread j l' k) ≠ none → source (c.thread k) ≠ none :=
      (Function.forall_update_iff _ fun k l => source l ≠ none → source (c.thread k) ≠ none).2
        ⟨hj, fun _ _ hne => hne⟩
    exact fun k m hk hm => h.reader k m (hkeep k hk) (hkeep m hm)
  posted := by
    refine (Function.forall_update_iff _
      fun k l => source l = none → load l ≠ [] → ∃ i, net.post = .handling i k).2
      ⟨fun hnone hload => ?_, fun k _ => h.posted k⟩
    rcases hpass.source with heq | ⟨-, hnil⟩
    · exact h.posted j (heq ▸ hnone) (hpass.load_ne_nil hload)
    · exact absurd hnil hload
  probing hswaps := by
    have hold : ∀ k, source (c.thread k) ≠ none → load (c.thread k) = [] := by
      rcases hpass.swaps with heq | hcompleting
      · exact h.probing (heq ▸ hswaps)
      · obtain ⟨hsource, hload⟩ := h.switching j hcompleting
        intro k hk
        rw [h.reader k j hk hsource, hload]
    refine (Function.forall_update_iff _ fun _ l => source l ≠ none → load l = []).2
      ⟨fun hne => ?_, fun k _ => hold k⟩
    rcases hpass.source with heq | ⟨-, hnil⟩
    · by_contra hload
      exact hpass.load_ne_nil hload (hold j (heq ▸ hne))
    · exact hnil
  switching := by
    refine (Function.forall_update_iff _
      fun _ l => completing l = true → source l ≠ none ∧ load l = []).2
      ⟨fun hcompleting => ?_, fun k _ => h.switching k⟩
    rw [hpass.completing] at hcompleting
    cases hcompleting

/-- A goroutine goes on as `l'` while the session stays as it is. -/
theorem Serves.replace (h : Serves c net)
    (hreading : net'.reading = false → net.reading = false ∧ source l' = none)
    (hsource : source l' ≠ none → ∀ k, k ≠ j → source (c.thread k) = none)
    (hpost : ∀ i k, k ≠ j → net.post = .handling i k → ∃ i, net'.post = .handling i k)
    (hposted : source l' = none → load l' ≠ [] → ∃ i, net'.post = .handling i j)
    (hprobing : c.shared.world.swaps = 0 → source l' ≠ none → load l' = [])
    (hcompleting : completing l' = true → source l' ≠ none ∧ load l' = []) :
    Serves ⟨c.shared, Function.update c.thread j l'⟩ net' where
  handler := h.handler
  reading hr := (Function.forall_update_iff _ fun _ l => source l = none).2
    ⟨(hreading hr).2, fun k _ => h.reading (hreading hr).1 k⟩
  reader k m hk hm := by
    have hother {k m : Nat} (hkj : k = j) (hmj : m ≠ j)
        (hk : source (Function.update c.thread j l' k) ≠ none)
        (hm : source (Function.update c.thread j l' m) ≠ none) : k = m := by
      rw [hkj, Function.update_self] at hk
      rw [Function.update_of_ne hmj] at hm
      exact absurd (hsource hk m hmj) hm
    by_cases hkj : k = j
    · by_cases hmj : m = j
      · rw [hkj, hmj]
      · exact hother hkj hmj hk hm
    · by_cases hmj : m = j
      · exact (hother hmj hkj hm hk).symm
      · exact h.reader k m (by simpa [Function.update_of_ne hkj] using hk)
          (by simpa [Function.update_of_ne hmj] using hm)
  posted := (Function.forall_update_iff _
    fun k l => source l = none → load l ≠ [] → ∃ i, net'.post = .handling i k).2
    ⟨hposted, fun k hk hnone hload => (h.posted k hnone hload).elim fun i hi => hpost i k hk hi⟩
  probing hswaps := (Function.forall_update_iff _ fun _ l => source l ≠ none → load l = []).2
    ⟨hprobing hswaps, fun k _ => h.probing hswaps k⟩
  switching := (Function.forall_update_iff _
    fun _ l => completing l = true → source l ≠ none ∧ load l = []).2
    ⟨hcompleting, fun k _ => h.switching k⟩

theorem source_handleProbePacket (t : Transport) (p : Packet) :
    source (Server.Inbound.handleProbePacket t p) = some t := by
  unfold Server.Inbound.handleProbePacket
  split <;> rfl

theorem load_handleProbePacket (t : Transport) (p : Packet) :
    load (Server.Inbound.handleProbePacket t p) = [] := by
  unfold Server.Inbound.handleProbePacket
  split <;> rfl

theorem completing_handleProbePacket {t : Transport} {p : Packet} :
    completing (Server.Inbound.handleProbePacket t p) = true ↔ p.type = .upgrade := by
  unfold Server.Inbound.handleProbePacket
  split <;> simp_all [completing]

/-- The read loop goes on. -/
theorem Serves.read (h : Serves c net) {t : Transport} (hj : c.thread j = .read t) {up : List Packet}
    (hl' : source l' = some t) (hprobing : c.shared.world.swaps = 0 → load l' = [])
    (hcompleting : completing l' = true → load l' = []) :
    Serves ⟨c.shared, Function.update c.thread j l'⟩ { net with up } := by
  have hne : source l' ≠ none := by
    rw [hl']
    exact Option.some_ne_none t
  have hj' : source (c.thread j) = some t := by rw [hj]; rfl
  refine h.replace (fun hr => ?_) (fun _ k hk => h.source_eq_none hj' hk) (fun i _ _ hi => ⟨i, hi⟩)
    (fun hnone => absurd hnone hne) (fun hswaps _ => hprobing hswaps) (fun hc => ⟨hne, hcompleting hc⟩)
  have hnone := h.reading hr j
  rw [hj'] at hnone
  cases hnone

theorem Serves.server (h : Serves c net)
    (hstep : ServerStep net j c.shared (c.thread j) net' x' l') :
    Serves ⟨x', Function.update c.thread j l'⟩ net' := by
  generalize hl : c.thread j = l at hstep
  cases hstep with
  | pass hpass =>
    subst hl
    exact h.pass hpass
  | answer hdone =>
    refine h.replace (fun hr => ⟨hr, rfl⟩) (fun hne => absurd rfl hne) (fun i k hk hi => ⟨i, ?_⟩)
      (fun _ hne => absurd rfl hne) (fun _ _ => rfl) fun hc => by cases hc
    show net.post.answer j = .handling i k
    rw [hi]
    exact if_neg hk
  | start _ hreading =>
    exact h.replace (fun hr => by cases hr) (fun _ k _ => h.reading hreading k)
      (fun i _ _ hi => ⟨i, hi⟩) (fun hnone => by cases hnone) (fun _ _ => rfl) fun hc => by cases hc
  | probe hread _ _ =>
    exact h.read (hl.trans hread) (source_handleProbePacket _ _)
      (fun _ => load_handleProbePacket _ _) fun _ => load_handleProbePacket _ _
  | frame hread hswaps _ =>
    exact h.read (hl.trans hread) rfl (fun h0 => absurd h0 hswaps) fun hc => by cases hc

theorem exec_post {x : Session} {p : Server.Post} {packets : List Packet}
    (hx : Server.Inbound.exec maxPayload x l (.post p) = some (x', l'))
    (hok : Server.handleSend maxPayload p = .ok packets) : x' = x ∧ l' = .dispatch packets none := by
  cases l with
  | idle =>
    simp only [Server.Inbound.exec, hok] at hx
    cases hx
    exact ⟨rfl, rfl⟩
  | _ => simp [Server.Inbound.exec] at hx

theorem Serves.post (h : Serves c net) (hpost : net.post = .none) (packets : List Packet) :
    Serves ⟨c.shared, Function.update c.thread j (.dispatch packets none)⟩
      { net with post := .handling i j } := by
  refine h.replace (fun hr => ⟨hr, rfl⟩) (fun hne => absurd rfl hne) (fun i' k _ hi' => ?_)
    (fun _ _ => ⟨i, rfl⟩) (fun _ hne => absurd rfl hne) fun hc => by cases hc
  rw [hpost] at hi'
  cases hi'

/-- The client takes the response of a POST that is handled. -/
theorem Serves.client (h : Serves c net) {g : Goroutine} {wire wire' : List Write}
    (hwrote : Wrote net i g wire net' wire') : Serves c net' := by
  obtain ⟨hreading, hpost⟩ : net'.reading = net.reading ∧
      ∀ i k, net.post = .handling i k → net'.post = .handling i k := by
    cases hwrote with
    | posted _ _ hanswered => exact ⟨rfl, fun i k hi => by rw [hanswered] at hi; cases hi⟩
    | _ => exact ⟨rfl, fun _ _ hi => hi⟩
  exact ⟨h.handler, fun hr => h.reading (hreading ▸ hr), h.reader,
    fun k hnone hload => (h.posted k hnone hload).imp fun i hi => hpost i k hi, h.probing, h.switching⟩

end Serves

end EngineIo.EndToEnd.Uplink
