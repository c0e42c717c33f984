import EngineIo.Codec.Packet
import EngineIo.Concurrency.Pool
import EngineIo.Server.GzipPools
import EngineIo.Server.Socket

set_option autoImplicit false

/-! # The pooled buffers of poll responses (`server_transport_polling.go`, `server.go`, `internal/pool.go`)

A payload travels from the goroutine that flushes to the one that holds the poll in a buffer of
`pollPayloadPool`, which all sessions share: whoever claims a held poll takes a buffer, encodes into it and
puts it into the channel of the poll; whoever serves the poll writes it out, compressed if that is worth it, and
returns it. `Memory` has the buffers with their contents, the pool, any number of polling transports and the
channels of their polls. A buffer is filled packet by packet and written out piece by piece, so a buffer that were
in two hands would be seen to change.

What a pool gives out is left open, as it is for a `sync.Pool`: any of its buffers, or a new one. -/

namespace EngineIo.Server.PollBuffers

open Concurrency
open GzipPools (Compressor)

/-! ## Model -/

/-- `pollCompressionThreshold`. -/
def pollCompressionThreshold : Nat := 1024

/-- The server's part in a response, and whether the request of a poll, by its channel, accepts gzip. -/
structure Config where
  compressor : Compressor
  httpCompression : Bool
  acceptsGzip : Nat → Bool

/-- Whether `writePollResponse` compresses a payload. -/
def Config.compresses (cfg : Config) (ch : Nat) (payload : List UInt8) : Bool :=
  cfg.httpCompression && decide (pollCompressionThreshold ≤ payload.length) && cfg.acceptsGzip ch

/-- A response to the poll with this channel, with its `Content-Encoding`. -/
structure Response where
  ch : Nat
  gzip : Bool
  body : List UInt8
deriving DecidableEq, Repr

/-- The response that has a payload for its content. -/
def Config.response (cfg : Config) (ch : Nat) (payload : List UInt8) : Response where
  ch := ch
  gzip := cfg.compresses ch payload
  body := if cfg.compresses ch payload then cfg.compressor.gzip payload else payload

structure Memory (z : Compressor) where
  content : Nat → List UInt8 := fun _ => []
  capacity : Nat → Nat := fun _ => 0
  /-- `pollPayloadPool`. -/
  pool : Stock := {}
  /-- What the responses are compressed with. -/
  zip : GzipPools.Memory z := {}
  transport : Nat → PollingTransport := fun _ => {}
  /-- The buffer in the channel of a poll; a channel holds one at most. -/
  channel : Nat → Option Nat := fun _ => none
  channels : Nat := 0
  /-- History: the transport a channel was made for, what the transports were given to send while a poll was
      held, and the deliveries by the channel that was claimed for them. -/
  owner : Nat → Nat := fun _ => 0
  given : List (Nat × List Packet) := []
  claims : List (Nat × List Packet) := []
  /-- The channels something has been received from, and those whose poll has ended. -/
  received : List Nat := []
  finished : List Nat := []
  /-- The responses that were written out as a whole. -/
  responses : List Response := []

inductive Pc
  | idle
  /-- `getPollBuffer`, before and after it has a buffer. -/
  | get (ch : Nat) (packets : List Packet)
  | encode (ch : Nat) (done rest : List Packet) (b : Nat)
  | deliver (ch : Nat) (packets : List Packet) (b : Nat)
  /-- `handlePoll` at its `select`, and after a cancellation that came too late. The `flush` before the `select`
      is a `send` like any other, by a goroutine of its own. -/
  | await (t ch : Nat)
  | drain (ch : Nat)
  | discard (ch b : Nat)
  /-- `writePollResponse`, without compression: what has been written. -/
  | write (ch b : Nat) (body : List UInt8)
  /-- With compression. -/
  | compress (ch b : Nat) (pc : GzipPools.Pc)
  /-- `putPollBuffer`. -/
  | put (b : Nat)
deriving DecidableEq, Repr

inductive Choice
  | go
  | send (t : Nat) (packets : List Packet)
  | writeNoop (t : Nat)
  | close (t : Nat)
  | poll (t : Nat)
  /-- What `Get` returns. -/
  | get (o : Option Nat)
  /-- The capacity of the buffer if it has to grow. -/
  | grow (wanted : Nat)
  | wrote (n : Nat)
  | zip (a : GzipPools.Choice)
  | failed
  | cancelled
deriving DecidableEq, Repr

section

variable {z : Compressor}

/-- A transport gives up its poll to a delivery, if it has one. -/
def Memory.claim (m : Memory z) (t : Nat) (r : PollingTransport × Option Nat) (packets : List Packet) :
    Memory z × Pc :=
  let m := { m with transport := Function.update m.transport t r.1 }
  match r.2 with
  | none => (m, .idle)
  | some ch =>
    ({ m with given := m.given ++ [(t, packets)], claims := m.claims ++ [(ch, packets)] }, .get ch packets)

/-- The buffer is taken out of the channel. -/
def Memory.receive (m : Memory z) (ch : Nat) : Memory z :=
  { m with channel := Function.update m.channel ch none, received := ch :: m.received }

end

def exec (cfg : Config) (m : Memory cfg.compressor) : Pc → Choice → Option (Memory cfg.compressor × Pc)
  | .idle, .send t packets => some (m.claim t (m.transport t).send packets)
  | .idle, .writeNoop t => some (m.claim t (m.transport t).writeNoop [{ type := .noop }])
  | .idle, .close t => some (m.claim t (m.transport t).close [ServerSocket.closePacket])
  | .idle, .poll t =>
    match (m.transport t).hold m.channels with
    | (p, .held) =>
      some ({ m with
          transport := Function.update m.transport t p
          channels := m.channels + 1
          owner := Function.update m.owner m.channels t },
        .await t m.channels)
    | _ => some (m, .idle)
  | .get ch packets, .get o =>
    (m.pool.get o).map fun r =>
      ({ m with pool := r.1, content := Function.update m.content r.2 [] }, .encode ch [] packets r.2)
  | .encode ch done (p :: rest) b, .grow wanted =>
    let bytes := appendNext (m.content b) done.isEmpty p
    some ({ m with
        content := Function.update m.content b bytes
        capacity := Function.update m.capacity b (grown (m.capacity b) bytes.length wanted) },
      .encode ch (done ++ [p]) rest b)
  | .encode ch done [] b, .go => some (m, .deliver ch done b)
  | .deliver ch _ b, .go =>
    -- the channel has room for one buffer
    if m.channel ch = none then
      some ({ m with channel := Function.update m.channel ch (some b) }, .idle)
    else none
  | .await _ ch, .go =>
    (m.channel ch).map fun b =>
      (m.receive ch, if cfg.compresses ch (m.content b) then .compress ch b .getBuffer else .write ch b [])
  | .await t ch, .cancelled =>
    match (m.transport t).release ch with
    | (p, true) =>
      some ({ m with
        transport := Function.update m.transport t p, finished := ch :: m.finished }, .idle)
    | (_, false) => some (m, .drain ch)
  | .drain ch, .go => (m.channel ch).map fun b => (m.receive ch, .discard ch b)
  | .discard ch b, .go => some ({ m with finished := ch :: m.finished }, .put b)
  | .write ch b body, .wrote n =>
    some (m, .write ch b (body ++ ((m.content b).drop body.length).take n))
  | .write ch b body, .go =>
    if body.length = (m.content b).length then
      some ({ m with
        responses := m.responses ++ [⟨ch, false, body⟩], finished := ch :: m.finished }, .put b)
    else none
  | .write ch b _, .failed => some ({ m with finished := ch :: m.finished }, .put b)
  | .compress ch b pc, .zip a =>
    (GzipPools.exec m.zip (m.content b) pc a).map fun r => ({ m with zip := r.1 }, .compress ch b r.2)
  | .compress ch b (.done (some body)), .go =>
    some ({ m with
      responses := m.responses ++ [⟨ch, true, body⟩], finished := ch :: m.finished }, .put b)
  | .compress ch b (.done none), .go => some ({ m with finished := ch :: m.finished }, .put b)
  | .put b, .go =>
    if maxPooledPayloadBuffer < m.capacity b then some (m, .idle)
    else some ({ m with pool := m.pool.put b, content := Function.update m.content b [] }, .idle)
  | _, _ => none

/-- Any number of goroutines over the pools. -/
def program (cfg : Config) : Program (Memory cfg.compressor) Pc Choice where
  init m := m = {}
  idle := .idle
  exec := exec cfg

/-! ## The outline -/

/-- The delivery a goroutine has in hand. -/
def Pc.sends : Pc → Option (Nat × List Packet)
  | .get ch packets | .deliver ch packets _ => some (ch, packets)
  | .encode ch done rest _ => some (ch, done ++ rest)
  | _ => none

/-- The buffer a goroutine has in hand. -/
def Pc.owns : Pc → Option Nat
  | .encode _ _ _ b | .deliver _ _ b | .write _ b _ | .compress _ b _ | .discard _ b | .put b => some b
  | _ => none

/-- The channel of the poll a goroutine serves. -/
def Pc.polls : Pc → Option Nat
  | .await _ ch | .drain ch | .discard ch _ | .write ch _ _ | .compress ch _ _ => some ch
  | _ => none

/-- Where a goroutine is with the compression of a response. -/
def Pc.zips : Pc → Option GzipPools.Pc
  | .compress _ _ pc => some pc
  | _ => none

/-- The poll has been claimed for a delivery. -/
def Memory.Claimed {z : Compressor} (m : Memory z) (ch : Nat) : Prop := ∃ packets, (ch, packets) ∈ m.claims

variable {cfg : Config}

structure Memory.Sound (m : Memory cfg.compressor) : Prop where
  pool : m.pool.Sound
  zip : m.zip.Sound
  channel : ∀ ch b, m.channel ch = some b → m.pool.Out b ∧ ch ∉ m.received ∧
    ∃ packets, (ch, packets) ∈ m.claims ∧ m.content b = encodePayload packets
  /-- No buffer is in two channels. -/
  apart : ∀ ch ch' b, m.channel ch = some b → m.channel ch' = some b → ch = ch'
  held : ∀ t ch, (m.transport t).dataCh = some ch → ch < m.channels ∧ ¬ m.Claimed ch ∧
    ch ∉ m.finished ∧ ∀ t', (m.transport t').dataCh = some ch → t' = t
  claims : (m.claims.map Prod.fst).Nodup ∧ ∀ e ∈ m.claims, e.1 < m.channels
  received : ∀ ch ∈ m.received, m.Claimed ch
  finished : ∀ ch ∈ m.finished, ch < m.channels ∧ (m.Claimed ch → ch ∈ m.received)
  responses : (m.responses.map Response.ch).Nodup ∧ ∀ r ∈ m.responses, r.ch ∈ m.finished ∧
    ∃ packets, (r.ch, packets) ∈ m.claims ∧ r = cfg.response r.ch (encodePayload packets)

/-- What is in the buffer of a goroutine, and how far it is with a poll. -/
def Pc.Stands (m : Memory cfg.compressor) : Pc → Prop
  | .encode _ done _ b => m.content b = encodePayload done
  | .deliver _ packets b => m.content b = encodePayload packets
  | .await t ch => ((m.transport t).dataCh = some ch ∨ m.Claimed ch) ∧ ch ∉ m.received
  | .drain ch => m.Claimed ch ∧ ch ∉ m.received
  | .discard ch _ => ch ∈ m.received
  | .write ch b body => (ch ∈ m.received ∧ cfg.compresses ch (m.content b) = false ∧
    ∃ packets, (ch, packets) ∈ m.claims ∧ m.content b = encodePayload packets) ∧ body <+: m.content b
  | .compress ch b pc => (ch ∈ m.received ∧ cfg.compresses ch (m.content b) = true ∧
    ∃ packets, (ch, packets) ∈ m.claims ∧ m.content b = encodePayload packets) ∧ pc.Holds m.zip (m.content b)
  | .idle | .get .. | .put _ => True

structure Pc.Holds (m : Memory cfg.compressor) (l : Pc) : Prop where
  sends : ∀ ch packets, l.sends = some (ch, packets) →
    (ch, packets) ∈ m.claims ∧ m.channel ch = none ∧ ch ∉ m.received
  owns : ∀ b, l.owns = some b → m.pool.Out b ∧ ∀ ch, m.channel ch ≠ some b
  polls : ∀ ch, l.polls = some ch → ch < m.channels ∧ ch ∉ m.finished
  stands : l.Stands m

/-- No two goroutines have a delivery for one channel, one buffer, or one poll in hand, and those that compress
    responses are apart. -/
structure Pc.Apart (l k : Pc) : Prop where
  sends : ∀ ch packets packets', l.sends = some (ch, packets) → k.sends ≠ some (ch, packets')
  owns : ∀ b, l.owns = some b → k.owns ≠ some b
  polls : ∀ ch, l.polls = some ch → k.polls ≠ some ch
  zips : ∀ pc pc', l.zips = some pc → k.zips = some pc' → pc.Apart pc'

theorem Pc.Apart.symm {l k : Pc} (h : l.Apart k) : k.Apart l where
  sends ch packets packets' hk hl := h.sends ch packets' packets hl hk
  owns b hk hl := h.owns b hl hk
  polls ch hk hl := h.polls ch hl hk
  zips pc pc' hk hl := (h.zips pc' pc hl hk).symm

variable {m m' : Memory cfg.compressor} {l l' k : Pc}

/-! ## Steps -/

/-- A section keeps the memory in order, leaves its goroutine in order, and the others alone. -/
structure Keeps (m : Memory cfg.compressor) (l : Pc) (m' : Memory cfg.compressor) (l' : Pc) : Prop where
  sound : m'.Sound
  holds : l'.Holds m'
  others : ∀ k : Pc, k.Holds m → l.Apart k → k.Holds m' ∧ l'.Apart k

/-- A goroutine that gives up what it has in hand, or keeps it. -/
theorem Pc.Apart.mono (h : l.Apart k) (hsends : l'.sends = none ∨ l'.sends = l.sends)
    (howns : l'.owns = none ∨ l'.owns = l.owns) (hpolls : l'.polls = none ∨ l'.polls = l.polls)
    (hzips : l'.zips = none ∨ l'.zips = l.zips) : l'.Apart k := by
  obtain ⟨h₁, h₂, h₃, h₄⟩ := h
  constructor <;> grind

/-- What a goroutine has in hand is left alone. -/
theorem Pc.Holds.frame (h : k.Holds m) (hclaims : ∀ e ∈ m.claims, e ∈ m'.claims)
    (hsends : ∀ ch packets, k.sends = some (ch, packets) → m'.channel ch = none ∧ ch ∉ m'.received)
    (howns : ∀ b, k.owns = some b →
      m'.pool.Out b ∧ (∀ ch, m'.channel ch ≠ some b) ∧ m'.content b = m.content b)
    (hpolls : ∀ ch, k.polls = some ch → ch < m'.channels ∧ ch ∉ m'.finished ∧
      (ch ∈ m'.received ↔ ch ∈ m.received) ∧
      ∀ t, (m.transport t).dataCh = some ch → (m'.transport t).dataCh = some ch ∨ m'.Claimed ch)
    (hzips : ∀ pc payload, k.zips = some pc → pc.Holds m.zip payload → pc.Holds m'.zip payload) :
    k.Holds m' where
  sends ch packets hk := ⟨hclaims _ (h.sends ch packets hk).1, hsends ch packets hk⟩
  owns b hk := ⟨(howns b hk).1, (howns b hk).2.1⟩
  polls ch hk := ⟨(hpolls ch hk).1, (hpolls ch hk).2.1⟩
  stands := by
    have hclaimed {ch : Nat} (hold : m.Claimed ch) : m'.Claimed ch :=
      hold.imp fun packets hmem => hclaims _ hmem
    have hstands := h.stands
    cases k with
    | idle => trivial
    | get => trivial
    | put => trivial
    | encode ch done rest b => exact ((howns b rfl).2.2).trans hstands
    | deliver ch packets b => exact ((howns b rfl).2.2).trans hstands
    | await t ch =>
      obtain ⟨-, -, hreceived, hheld⟩ := hpolls ch rfl
      exact ⟨hstands.1.elim (hheld t) fun hold => .inr (hclaimed hold), fun hmem => hstands.2 (hreceived.1 hmem)⟩
    | drain ch =>
      obtain ⟨-, -, hreceived, -⟩ := hpolls ch rfl
      exact ⟨hclaimed hstands.1, fun hmem => hstands.2 (hreceived.1 hmem)⟩
    | discard ch b => exact (hpolls ch rfl).2.2.1.2 hstands
    | write ch b body =>
      obtain ⟨⟨hmem, hcompresses, packets, hpackets, hcontent⟩, hbody⟩ := hstands
      have hsame := (howns b rfl).2.2
      exact ⟨⟨(hpolls ch rfl).2.2.1.2 hmem, hsame.symm ▸ hcompresses, packets, hclaims _ hpackets,
        hsame.trans hcontent⟩, hsame.symm ▸ hbody⟩
    | compress ch b pc =>
      obtain ⟨⟨hmem, hcompresses, packets, hpackets, hcontent⟩, hpc⟩ := hstands
      have hsame := (howns b rfl).2.2
      exact ⟨⟨(hpolls ch rfl).2.2.1.2 hmem, hsame.symm ▸ hcompresses, packets, hclaims _ hpackets,
        hsame.trans hcontent⟩, hsame.symm ▸ hzips pc _ rfl hpc⟩

theorem holds_idle : Pc.idle.Holds m :=
  ⟨fun _ _ h => (by cases h), fun _ h => (by cases h), fun _ h => (by cases h), trivial⟩

/-- What `send`, `writeNoop` and `close` do to the held poll: they claim it, or leave it. -/
def Claims (p : PollingTransport) (r : PollingTransport × Option Nat) : Prop :=
  (r.2 = none ∧ r.1.dataCh = p.dataCh) ∨ (r.2 = p.dataCh ∧ r.1.dataCh = none)

theorem claims_send (p : PollingTransport) : Claims p p.send := by
  unfold PollingTransport.send
  split
  · exact .inl ⟨rfl, rfl⟩
  · exact .inr ⟨rfl, rfl⟩

theorem claims_writeNoop (p : PollingTransport) : Claims p p.writeNoop := .inr ⟨rfl, rfl⟩

theorem claims_close (p : PollingTransport) : Claims p p.close := by
  unfold PollingTransport.close
  split
  · exact .inl ⟨rfl, rfl⟩
  · exact .inr ⟨rfl, rfl⟩

/-- A transport whose held poll stays as it is. -/
theorem keeps_transport (hm : m.Sound) {t : Nat} {p : PollingTransport}
    (hp : p.dataCh = (m.transport t).dataCh) :
    Keeps m .idle { m with transport := Function.update m.transport t p } .idle := by
  have hsame (t' : Nat) : (Function.update m.transport t p t').dataCh = (m.transport t').dataCh := by
    by_cases ht : t' = t
    · rw [ht, Function.update_self, hp]
    · rw [Function.update_of_ne ht]
  refine ⟨{ hm with held := fun t' ch h => ?_ }, holds_idle, fun k hk hlk => ⟨?_, hlk⟩⟩
  · obtain ⟨hlt, hclaimed, hfinished, honly⟩ := hm.held t' ch ((hsame t').symm.trans h)
    exact ⟨hlt, hclaimed, hfinished, fun t'' h'' => honly t'' ((hsame t'').symm.trans h'')⟩
  · exact hk.frame (fun _ h => h) (fun ch packets h => (hk.sends ch packets h).2)
      (fun b h => ⟨(hk.owns b h).1, (hk.owns b h).2, rfl⟩)
      (fun ch h => ⟨(hk.polls ch h).1, (hk.polls ch h).2, Iff.rfl, fun t' h' => .inl ((hsame t').trans h')⟩)
      fun _ _ _ h => h

theorem Memory.Sound.channel_eq_none (hm : m.Sound) {ch : Nat} (h : ¬ m.Claimed ch) :
    m.channel ch = none := by
  cases hb : m.channel ch with
  | none => rfl
  | some b =>
    obtain ⟨-, -, packets, hmem, -⟩ := hm.channel ch b hb
    exact absurd ⟨packets, hmem⟩ h

theorem claimed_append {ch ch' : Nat} {packets : List Packet} :
    (∃ ps, (ch', ps) ∈ m.claims ++ [(ch, packets)]) ↔ m.Claimed ch' ∨ ch' = ch := by
  simp [Memory.Claimed, exists_or]

/-- The held poll is claimed for a delivery. -/
theorem keeps_claimed (hm : m.Sound) {t ch : Nat} {p : PollingTransport}
    (hch : (m.transport t).dataCh = some ch) (hp : p.dataCh = none) (packets : List Packet) :
    Keeps m .idle
      { m with
        transport := Function.update m.transport t p
        given := m.given ++ [(t, packets)]
        claims := m.claims ++ [(ch, packets)] }
      (.get ch packets) := by
  obtain ⟨hlt, hfree, hopen, honly⟩ := hm.held t ch hch
  have hgrow : ∀ e ∈ m.claims, e ∈ m.claims ++ [(ch, packets)] := fun _ he => List.mem_append_left _ he
  have hother {t' ch' : Nat} (h : (Function.update m.transport t p t').dataCh = some ch') :
      t' ≠ t ∧ (m.transport t').dataCh = some ch' ∧ ch' ≠ ch := by
    have ht : t' ≠ t := by
      rintro rfl
      rw [Function.update_self, hp] at h
      cases h
    rw [Function.update_of_ne ht] at h
    exact ⟨ht, h, fun heq => ht (honly t' (heq ▸ h))⟩
  refine ⟨⟨hm.pool, hm.zip, fun ch' b h => ?_, hm.apart, fun t' ch' h => ?_, ⟨?_, ?_⟩, fun ch' h => ?_,
    fun ch' h => ?_, hm.responses.1, fun r hr => ?_⟩, ⟨?_, ?_, ?_, trivial⟩, fun k hk _ => ⟨?_, ?_⟩⟩
  · obtain ⟨h₁, h₂, ps, hps, h₃⟩ := hm.channel ch' b h
    exact ⟨h₁, h₂, ps, hgrow _ hps, h₃⟩
  · obtain ⟨-, hold, hne⟩ := hother h
    obtain ⟨h₁, h₂, h₃, h₄⟩ := hm.held t' ch' hold
    exact ⟨h₁, fun hc => (claimed_append.1 hc).elim h₂ hne, h₃, fun t'' h'' => h₄ t'' (hother h'').2.1⟩
  · have hfresh : ch ∉ m.claims.map Prod.fst := by
      intro h
      obtain ⟨⟨_, ps⟩, he, rfl⟩ := List.mem_map.1 h
      exact hfree ⟨ps, he⟩
    rw [List.map_append]
    refine List.nodup_append.2 ⟨hm.claims.1, by simp, fun ch' h ch'' h'' heq => hfresh ?_⟩
    rw [show ch = ch' from (List.mem_singleton.1 h'').symm.trans heq.symm]
    exact h
  · intro e he
    rcases List.mem_append.1 he with he | he
    · exact hm.claims.2 e he
    · rw [List.mem_singleton.1 he]
      exact hlt
  · exact claimed_append.2 (.inl (hm.received ch' h))
  · obtain ⟨h₁, h₂⟩ := hm.finished ch' h
    refine ⟨h₁, fun hc => (claimed_append.1 hc).elim h₂ fun heq => ?_⟩
    exact absurd (heq ▸ h) hopen
  · obtain ⟨h₁, ps, hps, h₂⟩ := hm.responses.2 r hr
    exact ⟨h₁, ps, hgrow _ hps, h₂⟩
  · rintro _ _ ⟨⟩
    exact ⟨List.mem_append_right _ List.mem_cons_self, hm.channel_eq_none hfree,
      fun h => hfree (hm.received ch h)⟩
  · intro b h
    cases h
  · intro ch' h
    cases h
  · refine hk.frame hgrow (fun ch' ps h => (hk.sends ch' ps h).2)
      (fun b h => ⟨(hk.owns b h).1, (hk.owns b h).2, rfl⟩)
      (fun ch' h => ⟨(hk.polls ch' h).1, (hk.polls ch' h).2, Iff.rfl, fun t' h' => ?_⟩) fun _ _ _ h => h
    by_cases ht : t' = t
    · subst ht
      exact .inr (claimed_append.2 (.inr (Option.some.inj (h'.symm.trans hch))))
    · refine .inl ?_
      show (Function.update m.transport t p t').dataCh = some ch'
      rw [Function.update_of_ne ht, h']
  · refine ⟨?_, fun b h => (by cases h), fun ch' h => (by cases h), fun _ _ h => (by cases h)⟩
    rintro _ _ ps ⟨⟩ hks
    exact hfree ⟨ps, (hk.sends ch ps hks).1⟩

theorem keeps_claim (hm : m.Sound) {t : Nat} {r : PollingTransport × Option Nat}
    {packets : List Packet} (hr : Claims (m.transport t) r)
    (hx : some (m.claim t r packets) = some (m', l')) : Keeps m .idle m' l' := by
  obtain ⟨p, ch⟩ := r
  rcases hr with ⟨rfl, hp⟩ | ⟨rfl, hp⟩
  · cases hx
    exact keeps_transport hm hp
  · cases hch : (m.transport t).dataCh with
    | none =>
      rw [hch] at hx
      cases hx
      exact keeps_transport hm (hp.trans hch.symm)
    | some ch =>
      rw [hch] at hx
      cases hx
      exact keeps_claimed hm hch hp packets

/-- A poll is held. -/
theorem keeps_hold (hm : m.Sound) {t : Nat} {p : PollingTransport}
    (hfree : (m.transport t).dataCh = none) (hp : p.dataCh = some m.channels) :
    Keeps m .idle
      { m with
        transport := Function.update m.transport t p
        channels := m.channels + 1
        owner := Function.update m.owner m.channels t }
      (.await t m.channels) := by
  have hnew : ¬ m.Claimed m.channels := fun ⟨ps, hmem⟩ => Nat.lt_irrefl _ (hm.claims.2 _ hmem)
  have hreceived : m.channels ∉ m.received := fun h => hnew (hm.received _ h)
  have hfinished : m.channels ∉ m.finished := fun h => Nat.lt_irrefl _ (hm.finished _ h).1
  have hbound {t' ch : Nat} (h : (m.transport t').dataCh = some ch) : ch < m.channels :=
    (hm.held t' ch h).1
  refine ⟨{ hm with held := ?_, claims := ?_, finished := ?_ }, ⟨?_, ?_, ?_, ?_⟩, fun k hk _ => ⟨?_, ?_⟩⟩
  · have hheld := hm.held
    simp only [Memory.Claimed] at *
    grind [Function.update_apply]
  · exact ⟨hm.claims.1, fun e he => Nat.lt_succ_of_lt (hm.claims.2 e he)⟩
  · exact fun ch h => ⟨Nat.lt_succ_of_lt (hm.finished ch h).1, (hm.finished ch h).2⟩
  · exact fun _ _ h => by cases h
  · exact fun _ h => by cases h
  · rintro _ ⟨⟩
    exact ⟨Nat.lt_succ_self _, hfinished⟩
  · refine ⟨.inl ?_, hreceived⟩
    show (Function.update m.transport t p t).dataCh = some m.channels
    rw [Function.update_self, hp]
  · refine hk.frame (fun _ h => h) (fun ch ps h => (hk.sends ch ps h).2)
      (fun b h => ⟨(hk.owns b h).1, (hk.owns b h).2, rfl⟩)
      (fun ch h => ⟨Nat.lt_succ_of_lt (hk.polls ch h).1, (hk.polls ch h).2, Iff.rfl, fun t' h' => .inl ?_⟩)
      fun _ _ _ h => h
    have ht : t' ≠ t := by
      rintro rfl
      rw [hfree] at h'
      cases h'
    show (Function.update m.transport t p t').dataCh = some ch
    rw [Function.update_of_ne ht, h']
  · refine ⟨fun _ _ _ h => (by cases h), fun _ h => (by cases h), ?_, fun _ _ h => (by cases h)⟩
    rintro _ ⟨⟩ hkp
    exact Nat.lt_irrefl _ (hk.polls _ hkp).1

/-- A buffer comes out of the pool and is emptied. -/
theorem keeps_get (hm : m.Sound) {ch b : Nat} {packets : List Packet} {pool : Stock} {o : Option Nat}
    (hl : (Pc.get ch packets).Holds m) (h : m.pool.get o = some (pool, b)) :
    Keeps m (.get ch packets) { m with pool, content := Function.update m.content b [] }
      (.encode ch [] packets b) := by
  obtain ⟨hsound, hfresh, hout⟩ := Stock.get_spec hm.pool h
  -- nobody has the buffer
  have hchannel : ∀ ch, m.channel ch ≠ some b := fun ch h => hfresh (hm.channel ch b h).1
  have hcontent {b' : Nat} (hold : m.pool.Out b') : Function.update m.content b [] b' = m.content b' := by
    refine Function.update_of_ne ?_ _ _
    rintro rfl
    exact hfresh hold
  refine ⟨{ hm with pool := hsound, channel := fun ch' b' h => ?_ }, ⟨?_, ?_, ?_, ?_⟩, fun k hk hlk => ⟨?_, ?_⟩⟩
  · obtain ⟨h₁, h₂, ps, h₃, h₄⟩ := hm.channel ch' b' h
    exact ⟨(hout b').2 (.inl h₁), h₂, ps, h₃, (hcontent h₁).trans h₄⟩
  · rintro _ _ ⟨⟩
    exact hl.sends ch packets rfl
  · rintro _ ⟨⟩
    exact ⟨(hout b).2 (.inr rfl), hchannel⟩
  · exact fun _ h => by cases h
  · exact Function.update_self _ _ _
  · refine hk.frame (fun _ h => h) (fun ch' ps h => (hk.sends ch' ps h).2) (fun b' h => ?_)
      (fun ch' h => ⟨(hk.polls ch' h).1, (hk.polls ch' h).2, Iff.rfl, fun _ h' => .inl h'⟩) fun _ _ _ h => h
    obtain ⟨h₁, h₂⟩ := hk.owns b' h
    exact ⟨(hout b').2 (.inl h₁), h₂, hcontent h₁⟩
  · refine ⟨fun ch' ps ps' h => hlk.sends ch' ps ps' (by simpa [Pc.sends] using h), ?_, fun _ h => (by cases h),
      fun _ _ h => (by cases h)⟩
    rintro _ ⟨⟩ hkb
    exact hfresh (hk.owns b hkb).1

/-- A section that changes nothing but the contents and the capacity of the buffer in hand. -/
theorem keeps_content (hm : m.Sound) {b : Nat} {bytes : List UInt8} {capacity : Nat → Nat}
    (hl : l.Holds m) (howns : l.owns = some b) (hsends : l'.sends = l.sends)
    (howns' : l'.owns = l.owns) (hpolls : l'.polls = l.polls) (hzips : l'.zips = none)
    (hstands : l'.Stands { m with content := Function.update m.content b bytes, capacity }) :
    Keeps m l { m with content := Function.update m.content b bytes, capacity } l' := by
  obtain ⟨-, hfree⟩ := hl.owns b howns
  refine ⟨{ hm with channel := fun ch b' h => ?_ }, ⟨?_, ?_, ?_, hstands⟩,
    fun k hk hlk => ⟨?_, hlk.mono (.inr hsends) (.inr howns') (.inr hpolls) (.inl hzips)⟩⟩
  · obtain ⟨h₁, h₂, ps, h₃, h₄⟩ := hm.channel ch b' h
    have hne : b' ≠ b := fun heq => hfree ch (heq ▸ h)
    exact ⟨h₁, h₂, ps, h₃, (Function.update_of_ne hne _ _).trans h₄⟩
  · exact fun ch ps h => hl.sends ch ps (hsends ▸ h)
  · exact fun b' h => hl.owns b' (howns' ▸ h)
  · exact fun ch h => hl.polls ch (hpolls ▸ h)
  · refine hk.frame (fun _ h => h) (fun ch ps h => (hk.sends ch ps h).2) (fun b' h => ?_)
      (fun ch h => ⟨(hk.polls ch h).1, (hk.polls ch h).2, Iff.rfl, fun _ h' => .inl h'⟩) fun _ _ _ h => h
    have hne : b' ≠ b := fun heq => hlk.owns b howns (heq ▸ h)
    obtain ⟨h₁, h₂⟩ := hk.owns b' h
    exact ⟨h₁, h₂, Function.update_of_ne hne _ _⟩

/-- A section that does not touch the memory. -/
theorem keeps_quiet (hm : m.Sound) (hl : l.Holds m) (hsends : l'.sends = none ∨ l'.sends = l.sends)
    (howns : l'.owns = none ∨ l'.owns = l.owns) (hpolls : l'.polls = none ∨ l'.polls = l.polls)
    (hzips : l'.zips = none) (hstands : l'.Stands m) : Keeps m l m l' := by
  refine ⟨hm, ⟨fun ch ps h => ?_, fun b h => ?_, fun ch h => ?_, hstands⟩,
    fun k hk hlk => ⟨hk, hlk.mono hsends howns hpolls (.inl hzips)⟩⟩
  · rcases hsends with heq | heq
    · rw [heq] at h
      cases h
    · exact hl.sends ch ps (heq ▸ h)
  · rcases howns with heq | heq
    · rw [heq] at h
      cases h
    · exact hl.owns b (heq ▸ h)
  · rcases hpolls with heq | heq
    · rw [heq] at h
      cases h
    · exact hl.polls ch (heq ▸ h)

/-- The buffer goes into the channel. -/
theorem keeps_deliver (hm : m.Sound) {ch b : Nat} {packets : List Packet}
    (hl : (Pc.deliver ch packets b).Holds m) :
    Keeps m (.deliver ch packets b) { m with channel := Function.update m.channel ch (some b) }
      .idle := by
  obtain ⟨hclaim, -, hreceived⟩ := hl.sends ch packets rfl
  obtain ⟨hout, hfree⟩ := hl.owns b rfl
  have hcontent : m.content b = encodePayload packets := hl.stands
  have hupdate (ch' b' : Nat) : Function.update m.channel ch (some b) ch' = some b' ↔
      ch' = ch ∧ b' = b ∨ ch' ≠ ch ∧ m.channel ch' = some b' := by
    grind [Function.update_apply]
  refine ⟨{ hm with channel := fun ch' b' h => ?_, apart := fun ch₁ ch₂ b' h₁ h₂ => ?_ }, holds_idle,
    fun k hk hlk => ⟨?_, hlk.mono (.inl rfl) (.inl rfl) (.inl rfl) (.inl rfl)⟩⟩
  · rcases (hupdate ch' b').1 h with ⟨rfl, rfl⟩ | ⟨-, hold⟩
    · exact ⟨hout, hreceived, packets, hclaim, hcontent⟩
    · exact hm.channel ch' b' hold
  · rcases (hupdate ch₁ b').1 h₁ with ⟨rfl, rfl⟩ | ⟨-, hold₁⟩
    · rcases (hupdate ch₂ b').1 h₂ with ⟨heq, -⟩ | ⟨-, hold₂⟩
      · exact heq.symm
      · exact absurd hold₂ (hfree ch₂)
    · rcases (hupdate ch₂ b').1 h₂ with ⟨-, rfl⟩ | ⟨-, hold₂⟩
      · exact absurd hold₁ (hfree ch₁)
      · exact hm.apart ch₁ ch₂ b' hold₁ hold₂
  · refine hk.frame (fun _ h => h) (fun ch' ps h => ⟨?_, (hk.sends ch' ps h).2.2⟩) (fun b' h => ?_)
      (fun ch' h => ⟨(hk.polls ch' h).1, (hk.polls ch' h).2, Iff.rfl, fun _ h' => .inl h'⟩) fun _ _ _ h => h
    · have hne : ch' ≠ ch := by
        rintro rfl
        exact hlk.sends ch' packets ps rfl h
      exact (Function.update_of_ne hne _ _).trans (hk.sends ch' ps h).2.1
    · obtain ⟨h₁, h₂⟩ := hk.owns b' h
      refine ⟨h₁, fun ch' hch' => ?_, rfl⟩
      rcases (hupdate ch' b').1 hch' with ⟨-, rfl⟩ | ⟨-, hold⟩
      · exact hlk.owns b' rfl h
      · exact h₂ ch' hold

/-- The buffer comes out of the channel, to the goroutine that serves the poll. -/
theorem keeps_receive (hm : m.Sound) {ch b : Nat} (hl : l.Holds m) (hpolls : l.polls = some ch)
    (hb : m.channel ch = some b) (hsends' : l'.sends = none) (howns' : l'.owns = some b)
    (hpolls' : l'.polls = l.polls) (hzips : ∀ pc, l'.zips = some pc → pc = .getBuffer)
    (hstands : ∀ packets, (ch, packets) ∈ m.claims → m.content b = encodePayload packets →
      l'.Stands (m.receive ch)) : Keeps m l (m.receive ch) l' := by
  obtain ⟨hout, hreceived, packets, hclaim, hcontent⟩ := hm.channel ch b hb
  have hupdate {ch' b' : Nat} (h : Function.update m.channel ch none ch' = some b') :
      ch' ≠ ch ∧ m.channel ch' = some b' := by
    grind [Function.update_apply]
  have hfree : ∀ ch', Function.update m.channel ch none ch' ≠ some b := fun ch' h =>
    (hupdate h).1 (hm.apart ch' ch b (hupdate h).2 hb)
  refine ⟨{ hm with channel := ?_, apart := ?_, received := ?_, finished := ?_ },
    ⟨?_, ?_, ?_, hstands packets hclaim hcontent⟩, fun k hk hlk => ⟨?_, ?_⟩⟩
  · intro ch' b' h
    obtain ⟨hne, hold⟩ := hupdate h
    obtain ⟨h₁, h₂, h₃⟩ := hm.channel ch' b' hold
    exact ⟨h₁, fun hmem => (List.mem_cons.1 hmem).elim hne h₂, h₃⟩
  · exact fun ch₁ ch₂ b' h₁ h₂ => hm.apart ch₁ ch₂ b' (hupdate h₁).2 (hupdate h₂).2
  · intro ch' h
    rcases List.mem_cons.1 h with rfl | h
    · exact ⟨packets, hclaim⟩
    · exact hm.received ch' h
  · exact fun ch' h => ⟨(hm.finished ch' h).1, fun hc => List.mem_cons_of_mem _ ((hm.finished ch' h).2 hc)⟩
  · intro ch' ps h
    rw [hsends'] at h
    cases h
  · intro b' h
    obtain rfl : b = b' := Option.some.inj (howns'.symm.trans h)
    exact ⟨hout, hfree⟩
  · exact fun ch' h => hl.polls ch' (hpolls' ▸ h)
  · refine hk.frame (fun _ h => h) (fun ch' ps h => ?_) (fun b' h => ?_) (fun ch' h => ?_)
      fun _ _ _ h => h
    · obtain ⟨-, h₁, h₂⟩ := hk.sends ch' ps h
      have hne : ch' ≠ ch := by
        rintro rfl
        rw [hb] at h₁
        cases h₁
      exact ⟨(Function.update_of_ne hne _ _).trans h₁, fun hmem => (List.mem_cons.1 hmem).elim hne h₂⟩
    · obtain ⟨h₁, h₂⟩ := hk.owns b' h
      exact ⟨h₁, fun ch' hch' => h₂ ch' (hupdate hch').2, rfl⟩
    · have hne : ch' ≠ ch := fun heq => hlk.polls ch hpolls (heq ▸ h)
      exact ⟨(hk.polls ch' h).1, (hk.polls ch' h).2,
        ⟨fun hmem => (List.mem_cons.1 hmem).resolve_left hne, List.mem_cons_of_mem _⟩,
        fun _ h' => .inl h'⟩
  · refine ⟨fun ch' ps ps' h => ?_, fun b' h hkb => ?_, fun ch' h => hlk.polls ch' (hpolls' ▸ h), fun pc _ h _ => ?_⟩
    · rw [hsends'] at h
      cases h
    · obtain rfl : b = b' := Option.some.inj (howns'.symm.trans h)
      exact (hk.owns b hkb).2 ch hb
    · rw [hzips pc h]
      exact GzipPools.apart_getBuffer

/-- A poll ends. -/
theorem keeps_finish (hm : m.Sound) {ch : Nat} {transport : Nat → PollingTransport}
    {responses : List Response} (hl : l.Holds m) (hpolls : l.polls = some ch)
    (hsends' : l'.sends = none) (howns' : l'.owns = none ∨ l'.owns = l.owns) (hpolls' : l'.polls = none)
    (hzips' : l'.zips = none) (hstands : ∀ m : Memory cfg.compressor, l'.Stands m)
    (htransport : ∀ t ch', (transport t).dataCh = some ch' ↔ (m.transport t).dataCh = some ch' ∧ ch' ≠ ch)
    (hdone : m.Claimed ch → ch ∈ m.received)
    (hresponses : responses = m.responses ∨ ∃ packets, (ch, packets) ∈ m.claims ∧
      responses = m.responses ++ [cfg.response ch (encodePayload packets)]) :
    Keeps m l { m with transport, responses, finished := ch :: m.finished } l' := by
  obtain ⟨hlt, hopen⟩ := hl.polls ch hpolls
  refine ⟨{ hm with held := ?_, finished := ?_, responses := ?_ }, ⟨?_, ?_, ?_, hstands _⟩,
    fun k hk hlk => ⟨?_, hlk.mono (.inl hsends') howns' (.inl hpolls') (.inl hzips')⟩⟩
  · intro t ch' h
    obtain ⟨hold, hne⟩ := (htransport t ch').1 h
    obtain ⟨h₁, h₂, h₃, h₄⟩ := hm.held t ch' hold
    exact ⟨h₁, h₂, fun hmem => (List.mem_cons.1 hmem).elim hne h₃,
      fun t' h' => h₄ t' ((htransport t' ch').1 h').1⟩
  · intro ch' h
    rcases List.mem_cons.1 h with rfl | h
    · exact ⟨hlt, hdone⟩
    · exact hm.finished ch' h
  · have hkeep : ∀ r ∈ m.responses, r.ch ∈ ch :: m.finished ∧
        ∃ packets, (r.ch, packets) ∈ m.claims ∧ r = cfg.response r.ch (encodePayload packets) := fun r hr =>
      ⟨List.mem_cons_of_mem _ (hm.responses.2 r hr).1, (hm.responses.2 r hr).2⟩
    rcases hresponses with rfl | ⟨packets, hclaim, rfl⟩
    · exact ⟨hm.responses.1, hkeep⟩
    · refine ⟨?_, fun r hr => ?_⟩
      · rw [List.map_append]
        refine List.nodup_append.2 ⟨hm.responses.1, by simp, fun ch' h' ch'' h'' heq => hopen ?_⟩
        obtain ⟨r, hr, rfl⟩ := List.mem_map.1 h'
        rw [show ch = r.ch from (List.mem_singleton.1 h'').symm.trans heq.symm]
        exact (hm.responses.2 r hr).1
      · rcases List.mem_append.1 hr with hr | hr
        · exact hkeep r hr
        · rw [List.mem_singleton.1 hr]
          exact ⟨List.mem_cons_self, packets, hclaim, rfl⟩
  · intro ch' ps h
    rw [hsends'] at h
    cases h
  · intro b h
    rcases howns' with heq | heq
    · rw [heq] at h
      cases h
    · exact hl.owns b (heq ▸ h)
  · intro ch' h
    rw [hpolls'] at h
    cases h
  · refine hk.frame (fun _ h => h) (fun ch' ps h => (hk.sends ch' ps h).2)
      (fun b h => ⟨(hk.owns b h).1, (hk.owns b h).2, rfl⟩) (fun ch' h => ?_) fun _ _ _ h => h
    have hne : ch' ≠ ch := fun heq => hlk.polls ch hpolls (heq ▸ h)
    exact ⟨(hk.polls ch' h).1, fun hmem => (List.mem_cons.1 hmem).elim hne (hk.polls ch' h).2, Iff.rfl,
      fun t h' => .inl ((htransport t ch').2 ⟨h', hne⟩)⟩

/-- A buffer goes back into the pool. -/
theorem keeps_put (hm : m.Sound) {b : Nat} (hl : (Pc.put b).Holds m) :
    Keeps m (.put b)
      { m with pool := m.pool.put b, content := Function.update m.content b [] } .idle := by
  obtain ⟨hown, hfree⟩ := hl.owns b rfl
  obtain ⟨hsound, hout⟩ := Stock.put_spec hm.pool hown
  refine ⟨{ hm with pool := hsound, channel := fun ch b' h => ?_ }, holds_idle,
    fun k hk hlk => ⟨?_, hlk.mono (.inl rfl) (.inl rfl) (.inl rfl) (.inl rfl)⟩⟩
  · obtain ⟨h₁, h₂, ps, h₃, h₄⟩ := hm.channel ch b' h
    have hne : b' ≠ b := fun heq => hfree ch (heq ▸ h)
    exact ⟨(hout b').2 ⟨h₁, hne⟩, h₂, ps, h₃, (Function.update_of_ne hne _ _).trans h₄⟩
  · refine hk.frame (fun _ h => h) (fun ch ps h => (hk.sends ch ps h).2) (fun b' h => ?_)
      (fun ch h => ⟨(hk.polls ch h).1, (hk.polls ch h).2, Iff.rfl, fun _ h' => .inl h'⟩) fun _ _ _ h => h
    have hne : b' ≠ b := fun heq => hlk.owns b rfl (heq ▸ h)
    obtain ⟨h₁, h₂⟩ := hk.owns b' h
    exact ⟨(hout b').2 ⟨h₁, hne⟩, h₂, Function.update_of_ne hne _ _⟩

/-- A section of the compression. -/
theorem keeps_zip (hm : m.Sound) {ch b : Nat} {pc pc' : GzipPools.Pc} {zip : GzipPools.Memory cfg.compressor}
    (hl : (Pc.compress ch b pc).Holds m) (h : GzipPools.Keeps m.zip (m.content b) pc zip pc') :
    Keeps m (.compress ch b pc) { m with zip } (.compress ch b pc') := by
  refine ⟨{ hm with zip := h.sound }, ⟨fun _ _ h => (by cases h), hl.owns, hl.polls, hl.stands.1, h.holds⟩,
    fun k hk hlk => ⟨?_, hlk.sends, hlk.owns, hlk.polls, fun pc₁ pc₂ h₁ h₂ => ?_⟩⟩
  · refine hk.frame (fun _ h => h) (fun ch ps h => (hk.sends ch ps h).2)
      (fun b h => ⟨(hk.owns b h).1, (hk.owns b h).2, rfl⟩)
      (fun ch h => ⟨(hk.polls ch h).1, (hk.polls ch h).2, Iff.rfl, fun _ h' => .inl h'⟩) fun pc₂ payload h₂ hpc₂ => ?_
    exact (h.others pc₂ payload hpc₂ (hlk.zips pc pc₂ rfl h₂)).1
  · obtain rfl : pc' = pc₁ := Option.some.inj h₁
    cases k with
    | compress ch' b' pc₃ =>
      cases h₂
      exact (h.others pc₂ _ hk.stands.2 (hlk.zips pc pc₂ rfl rfl)).2
    | _ => cases h₂

/-- The poll of a finished `write` or `discard` is held by no transport. -/
theorem Memory.Sound.not_held (hm : m.Sound) {ch : Nat} (h : m.Claimed ch) (t ch' : Nat) :
    (m.transport t).dataCh = some ch' ↔ (m.transport t).dataCh = some ch' ∧ ch' ≠ ch :=
  ⟨fun hch' => ⟨hch', fun heq => (hm.held t ch' hch').2.1 (heq ▸ h)⟩, And.left⟩

/-- A poll whose buffer was received ends; the buffer is still to be put back. -/
theorem keeps_served (hm : m.Sound) (hl : l.Holds m) {ch b : Nat} {responses : List Response}
    (hpolls : l.polls = some ch) (howns : l.owns = some b) (hreceived : ch ∈ m.received)
    (hresponses : responses = m.responses ∨ ∃ packets, (ch, packets) ∈ m.claims ∧
      responses = m.responses ++ [cfg.response ch (encodePayload packets)]) :
    Keeps m l { m with responses, finished := ch :: m.finished } (.put b) :=
  keeps_finish hm hl hpolls rfl (.inr howns.symm) rfl rfl (fun _ => trivial)
    (hm.not_held (hm.received ch hreceived)) (fun _ => hreceived) hresponses

theorem exec_keeps {a : Choice} (hm : m.Sound) (hl : l.Holds m) (hx : exec cfg m l a = some (m', l')) :
    Keeps m l m' l' := by
  revert hx
  fun_cases exec cfg m l a <;> intro hx
  case case1 => exact keeps_claim hm (claims_send _) hx
  case case2 => exact keeps_claim hm (claims_writeNoop _) hx
  case case3 => exact keeps_claim hm (claims_close _) hx
  case case4 t p hhold =>
    cases hx
    unfold PollingTransport.hold at hhold
    split at hhold
    · cases hhold
    · split at hhold
      · cases hhold
      · next hfree =>
        cases hhold
        exact keeps_hold hm (not_not.1 hfree) rfl
  case case5 =>
    cases hx
    exact keeps_quiet hm hl (.inl rfl) (.inl rfl) (.inl rfl) rfl trivial
  case case6 ch packets o =>
    obtain ⟨⟨pool, b⟩, hget, heq⟩ := Option.map_eq_some_iff.1 hx
    cases heq
    exact keeps_get hm hl hget
  case case7 ch done p rest b wanted bytes =>
    cases hx
    refine keeps_content hm hl rfl (by simp [Pc.sends]) rfl rfl rfl ?_
    have hcontent : m.content b = encodePayload done := hl.stands
    show Function.update m.content b _ b = encodePayload (done ++ [p])
    rw [Function.update_self, hcontent, appendNext_encodePayload]
  case case8 ch done b =>
    cases hx
    exact keeps_quiet hm hl (.inr (by simp [Pc.sends])) (.inr rfl) (.inr rfl) rfl hl.stands
  case case9 =>
    cases hx
    exact keeps_deliver hm hl
  case case11 t ch =>
    obtain ⟨b, hb, heq⟩ := Option.map_eq_some_iff.1 hx
    cases heq
    by_cases hzip : cfg.compresses ch (m.content b) = true
    · rw [if_pos hzip]
      refine keeps_receive hm hl rfl hb rfl rfl rfl (fun _ h => (Option.some.inj h).symm)
        fun packets hclaim hcontent => ?_
      exact ⟨⟨List.mem_cons_self, hzip, packets, hclaim, hcontent⟩, GzipPools.holds_getBuffer⟩
    · rw [if_neg hzip]
      refine keeps_receive hm hl rfl hb rfl rfl rfl (fun _ h => (by cases h)) fun packets hclaim hcontent => ?_
      exact ⟨⟨List.mem_cons_self, Bool.eq_false_iff.2 hzip, packets, hclaim, hcontent⟩, List.nil_prefix⟩
  case case12 t ch p hrelease =>
    cases hx
    unfold PollingTransport.release at hrelease
    split at hrelease
    · next hheld =>
      cases hrelease
      obtain ⟨-, hfree, -, honly⟩ := hm.held t ch hheld
      refine keeps_finish hm hl rfl rfl (.inl rfl) rfl rfl (fun _ => trivial) (fun t' ch' => ?_)
        (fun hc => absurd hc hfree) (.inl rfl)
      grind [Function.update_apply]
    · cases hrelease
  case case13 t ch p hrelease =>
    cases hx
    refine keeps_quiet hm hl (.inl rfl) (.inl rfl) (.inr rfl) rfl
      ⟨hl.stands.1.resolve_left fun h => ?_, hl.stands.2⟩
    unfold PollingTransport.release at hrelease
    rw [if_pos h] at hrelease
    cases hrelease
  case case14 ch =>
    obtain ⟨b, hb, heq⟩ := Option.map_eq_some_iff.1 hx
    cases heq
    exact keeps_receive hm hl rfl hb rfl rfl rfl (fun _ h => (by cases h)) fun _ _ _ => List.mem_cons_self
  case case15 ch b =>
    cases hx
    exact keeps_served hm hl rfl rfl hl.stands (.inl rfl)
  case case16 ch b body n =>
    cases hx
    obtain ⟨hpoll, rest, hrest⟩ := hl.stands
    refine keeps_quiet hm hl (.inl rfl) (.inr rfl) (.inr rfl) rfl ⟨hpoll, ?_⟩
    rw [← hrest, List.drop_left]
    exact (List.prefix_append_right_inj _).2 (List.take_prefix _ _)
  case case17 ch b body hlen =>
    cases hx
    obtain ⟨⟨hreceived, hplain, packets, hclaim, hcontent⟩, hbody⟩ := hl.stands
    refine keeps_served hm hl rfl rfl hreceived (.inr ⟨packets, hclaim, ?_⟩)
    rw [hcontent] at hplain
    rw [hbody.eq_of_length hlen, hcontent, Config.response, hplain]
    rfl
  case case19 ch b body =>
    cases hx
    obtain ⟨⟨hreceived, -⟩, -⟩ := hl.stands
    exact keeps_served hm hl rfl rfl hreceived (.inl rfl)
  case case20 ch b pc a =>
    obtain ⟨⟨zip, pc'⟩, hzip, heq⟩ := Option.map_eq_some_iff.1 hx
    cases heq
    exact keeps_zip hm hl (GzipPools.exec_keeps hm.zip hl.stands.2 hzip)
  case case21 ch b body =>
    cases hx
    obtain ⟨⟨hreceived, hzip, packets, hclaim, hcontent⟩, hpc⟩ := hl.stands
    have hbody : body = cfg.compressor.gzip (m.content b) := hpc.stands body rfl
    refine keeps_served hm hl rfl rfl hreceived (.inr ⟨packets, hclaim, ?_⟩)
    rw [hcontent] at hzip hbody
    rw [hbody, Config.response, hzip]
    rfl
  case case22 ch b =>
    cases hx
    obtain ⟨⟨hreceived, -⟩, -⟩ := hl.stands
    exact keeps_served hm hl rfl rfl hreceived (.inl rfl)
  case case23 b _ =>
    cases hx
    exact keeps_quiet hm hl (.inl rfl) (.inl rfl) (.inl rfl) rfl trivial
  case case24 b _ =>
    cases hx
    exact keeps_put hm hl
  all_goals cases hx

/-! ## In whose hands things are -/

/-- A claimed poll with nothing in its channel yet. -/
def Memory.Pending (m : Memory cfg.compressor) (ch : Nat) : Prop :=
  m.Claimed ch ∧ m.channel ch = none ∧ ch ∉ m.received

/-- A buffer worth keeping that is neither in the pool nor in a channel. -/
def Memory.Taken (m : Memory cfg.compressor) (b : Nat) : Prop :=
  m.pool.Out b ∧ (∀ ch, m.channel ch ≠ some b) ∧ m.capacity b ≤ maxPooledPayloadBuffer

/-- A poll that has not ended. -/
def Memory.Open (m : Memory cfg.compressor) (ch : Nat) : Prop := ch < m.channels ∧ ch ∉ m.finished

/-- The buffer and the writer that a goroutine compresses with. -/
def Pc.zipBuffer (l : Pc) : Option Nat := l.zips.bind GzipPools.Pc.buffer
def Pc.zipWriter (l : Pc) : Option Nat := l.zips.bind GzipPools.Pc.writer

/-- Who is to deliver, who has a buffer or a writer and who serves the poll: a section neither leaves such a thing to
    nobody nor drops one its goroutine had. -/
structure Accounts (m : Memory cfg.compressor) (l : Pc) (m' : Memory cfg.compressor) (l' : Pc) : Prop where
  pending : ∀ ch, m'.Pending ch →
    (m.Pending ch ∧ ¬ ∃ packets, l.sends = some (ch, packets)) ∨ ∃ packets, l'.sends = some (ch, packets)
  taken : ∀ b, m'.Taken b → m.Taken b ∧ l.owns ≠ some b ∨ l'.owns = some b
  opened : ∀ ch, m'.Open ch → m.Open ch ∧ l.polls ≠ some ch ∨ l'.polls = some ch
  zipBuffers : ∀ b, m'.zip.Taken b → m.zip.Taken b ∧ l.zipBuffer ≠ some b ∨ l'.zipBuffer = some b
  zipWriters : ∀ w, m'.zip.writers.Out w → m.zip.writers.Out w ∧ l.zipWriter ≠ some w ∨ l'.zipWriter = some w

theorem exec_accounts {a : Choice} (hm : m.Sound) (hl : l.Holds m) (hx : exec cfg m l a = some (m', l')) :
    Accounts m l m' l' := by
  revert hx
  fun_cases exec cfg m l a <;> intro hx
  case case6 ch packets o =>
    obtain ⟨⟨pool, b⟩, hget, heq⟩ := Option.map_eq_some_iff.1 hx
    cases heq
    obtain ⟨-, -, hout⟩ := Stock.get_spec hm.pool hget
    refine ⟨fun ch' h => ?_, fun b' h => ?_, fun ch' h => .inl ⟨h, fun h => (by cases h)⟩,
      fun b' h => .inl ⟨h, fun h => (by cases h)⟩, fun w h => .inl ⟨h, fun h => (by cases h)⟩⟩
    · simp only [Memory.Pending, Memory.Claimed] at h ⊢
      grind [Pc.sends]
    · rcases (hout b').1 h.1 with hold | rfl
      · exact .inl ⟨⟨hold, h.2⟩, fun h => (by cases h)⟩
      · exact .inr rfl
  case case20 ch b pc a =>
    obtain ⟨⟨zip, pc'⟩, hzip, heq⟩ := Option.map_eq_some_iff.1 hx
    cases heq
    obtain ⟨hbuffers, hwriters⟩ := GzipPools.exec_accounts hm.zip hl.stands.2 hzip
    refine ⟨fun ch' h => .inl ⟨h, ?_⟩, fun b' h => ?_, fun ch' h => ?_, hbuffers, hwriters⟩
    · rintro ⟨packets, h⟩
      cases h
    · simp only [Memory.Taken] at h ⊢
      grind [Pc.owns]
    · simp only [Memory.Open] at h ⊢
      grind [Pc.polls]
  case case24 b _ =>
    cases hx
    obtain ⟨-, hout⟩ := Stock.put_spec hm.pool (hl.owns b rfl).1
    refine ⟨fun ch' h => .inl ⟨h, ?_⟩, fun b' h => .inl ⟨⟨((hout b').1 h.1).1, h.2⟩, ?_⟩,
      fun ch' h => .inl ⟨h, fun h => (by cases h)⟩, fun b' h => .inl ⟨h, fun h => (by cases h)⟩,
      fun w h => .inl ⟨h, fun h => (by cases h)⟩⟩
    · rintro ⟨packets, h⟩
      cases h
    · rintro ⟨⟩
      exact ((hout b).1 h.1).2 rfl
  all_goals first
    | cases hx
    | (unfold Memory.claim at hx; split at hx <;> cases hx)
    | (obtain ⟨b, hb, heq⟩ := Option.map_eq_some_iff.1 hx; cases heq)
  all_goals try split
  all_goals
    refine ⟨fun ch h => ?_, fun b h => ?_, fun ch h => ?_, fun b h => .inl ⟨h, fun h => (by cases h)⟩,
      fun w h => .inl ⟨h, fun h => (by cases h)⟩⟩
  all_goals simp only [Memory.Pending, Memory.Claimed, Memory.Taken, Memory.Open, Memory.receive] at h ⊢
  all_goals try rw [Function.forall_update_iff m.channel (p := fun _ o => o ≠ some b)] at h
  all_goals grind [Pc.sends, Pc.owns, Pc.polls]

/-- Deliveries stay with the transport they were given to. -/
structure Memory.Owned (m : Memory cfg.compressor) : Prop where
  held : ∀ t ch, (m.transport t).dataCh = some ch → ch < m.channels ∧ m.owner ch = t
  claims : ∀ e ∈ m.claims, e.1 < m.channels ∧ (m.owner e.1, e.2) ∈ m.given

theorem owned_claim (h : m.Owned) {t : Nat} {r : PollingTransport × Option Nat}
    (hr : Claims (m.transport t) r) {packets : List Packet} (hx : some (m.claim t r packets) = some (m', l')) :
    m'.Owned := by
  have hheld : ∀ t' ch, (Function.update m.transport t r.1 t').dataCh = some ch →
      ch < m.channels ∧ m.owner ch = t' := by
    intro t' ch hch
    by_cases ht : t' = t
    · subst ht
      rw [Function.update_self] at hch
      rcases hr with ⟨-, hsame⟩ | ⟨-, hnone⟩
      · exact h.held t' ch (hsame.symm.trans hch)
      · rw [hnone] at hch
        cases hch
    · rw [Function.update_of_ne ht] at hch
      exact h.held t' ch hch
  unfold Memory.claim at hx
  split at hx
  · cases hx
    exact ⟨hheld, h.claims⟩
  · next ch hch =>
    cases hx
    have hch : (m.transport t).dataCh = some ch := by
      rcases hr with ⟨hnone, -⟩ | ⟨hsome, -⟩
      · rw [hnone] at hch
        cases hch
      · rw [← hsome, hch]
    obtain ⟨hlt, howner⟩ := h.held t ch hch
    refine ⟨hheld, fun e he => ?_⟩
    rcases List.mem_append.1 he with he | he
    · exact ⟨(h.claims e he).1, List.mem_append_left _ (h.claims e he).2⟩
    · rw [List.mem_singleton.1 he]
      exact ⟨hlt, List.mem_append_right _ (List.mem_singleton.2 (by rw [← howner]))⟩

theorem exec_owned {a : Choice} (h : m.Owned) (hx : exec cfg m l a = some (m', l')) : m'.Owned := by
  revert hx
  fun_cases exec cfg m l a <;> intro hx
  case case1 => exact owned_claim h (claims_send _) hx
  case case2 => exact owned_claim h (claims_writeNoop _) hx
  case case3 => exact owned_claim h (claims_close _) hx
  case case4 t p hhold =>
    cases hx
    have hp : p.dataCh = some m.channels := by
      unfold PollingTransport.hold at hhold
      grind
    obtain ⟨hheld, hclaims⟩ := h
    constructor <;> grind
  case case12 t ch p hrelease =>
    cases hx
    have hp : p.dataCh = none := by
      unfold PollingTransport.release at hrelease
      grind
    obtain ⟨hheld, hclaims⟩ := h
    constructor <;> grind
  all_goals first
    | (cases hx; exact ⟨h.held, h.claims⟩)
    | (obtain ⟨r, hr, heq⟩ := Option.map_eq_some_iff.1 hx; cases heq; exact ⟨h.held, h.claims⟩)
    | cases hx

/-! ## Runs -/

variable {c : Pool (Memory cfg.compressor) Pc}

theorem reach_sound (hc : (program cfg).Reachable c) :
    c.shared.Sound ∧ (∀ i, (c.thread i).Holds c.shared) ∧
      ∀ i j, i ≠ j → (c.thread i).Apart (c.thread j) := by
  refine hc.outline (I := Memory.Sound) (J := fun m l => l.Holds m) (K := Pc.Apart)
    (fun _ _ h => h.symm) ?_ ?_ ?_
  · exact ⟨fun _ _ _ h => (by cases h), fun _ h => (by cases h), fun _ h => (by cases h), fun _ _ h => (by cases h)⟩
  · rintro m rfl
    refine ⟨⟨Stock.sound_empty, ⟨Stock.sound_empty, Stock.sound_empty⟩, ?_, ?_, ?_, ?_, ?_, ?_, ?_⟩, holds_idle⟩
    all_goals simp
  · intro m l a m' l' _ hm hl hx
    obtain ⟨hsound, hholds, hothers⟩ := exec_keeps hm hl hx
    exact ⟨hsound, hholds, hothers⟩

theorem step_accounts (hc : (program cfg).Reachable c) {i : Nat} {a : Choice} {m' : Memory cfg.compressor} {l' : Pc}
    (hx : exec cfg c.shared (c.thread i) a = some (m', l')) : Accounts c.shared (c.thread i) m' l' :=
  exec_accounts (reach_sound hc).1 ((reach_sound hc).2.1 i) hx

/-- A delivery that has been promised to a poll is on its way. -/
theorem pending_sends (hc : (program cfg).Reachable c) {ch : Nat} (h : c.shared.Pending ch) :
    ∃ i packets, (c.thread i).sends = some (ch, packets) :=
  hc.owner (H := fun m => m.Pending ch) (O := fun l => ∃ packets, l.sends = some (ch, packets))
    (by rintro m rfl ⟨⟨_, h⟩, -⟩; cases h)
    (fun _ _ _ _ _ hc _ hx => (step_accounts hc hx).pending ch) h

theorem taken_owns (hc : (program cfg).Reachable c) {b : Nat} (h : c.shared.Taken b) :
    ∃ i, (c.thread i).owns = some b :=
  hc.owner (H := fun m => m.Taken b) (O := fun l => l.owns = some b)
    (by rintro m rfl ⟨h, -⟩; exact Stock.not_out_empty b h)
    (fun _ _ _ _ _ hc _ hx => (step_accounts hc hx).taken b) h

theorem open_polls (hc : (program cfg).Reachable c) {ch : Nat} (h : c.shared.Open ch) :
    ∃ i, (c.thread i).polls = some ch :=
  hc.owner (H := fun m => m.Open ch) (O := fun l => l.polls = some ch)
    (by rintro m rfl ⟨h, -⟩; cases h)
    (fun _ _ _ _ _ hc _ hx => (step_accounts hc hx).opened ch) h

theorem taken_zipBuffer (hc : (program cfg).Reachable c) {b : Nat} (h : c.shared.zip.Taken b) :
    ∃ i, (c.thread i).zipBuffer = some b :=
  hc.owner (H := fun m => m.zip.Taken b) (O := fun l => l.zipBuffer = some b)
    (by rintro m rfl ⟨h, -⟩; exact Stock.not_out_empty b h)
    (fun _ _ _ _ _ hc _ hx => (step_accounts hc hx).zipBuffers b) h

theorem out_zipWriter (hc : (program cfg).Reachable c) {w : Nat} (h : c.shared.zip.writers.Out w) :
    ∃ i, (c.thread i).zipWriter = some w :=
  hc.owner (H := fun m => m.zip.writers.Out w) (O := fun l => l.zipWriter = some w)
    (by rintro m rfl h; exact Stock.not_out_empty w h)
    (fun _ _ _ _ _ hc _ hx => (step_accounts hc hx).zipWriters w) h

theorem reach_owned (hc : (program cfg).Reachable c) : c.shared.Owned :=
  (hc.invariant (I := Memory.Owned) (J := fun _ _ => True)
    (by rintro m rfl; exact ⟨⟨fun _ _ h => (by cases h), fun _ h => (by cases h)⟩, trivial⟩)
    (fun _ _ _ _ _ _ _ h _ hx => ⟨exec_owned h hx, trivial, fun _ _ => trivial⟩)).1

/-- **Poll responses and their buffers.** For any number of sessions over the pools, and every order of their
    sections: a response that was written out has the payload of one delivery for its content, all of it and nothing
    else, given to the transport the poll was made on, and is compressed exactly if the server compresses, the poll
    accepts it and the payload is long enough; no poll is claimed or answered twice; a poll that is no longer held has
    its payload in the channel, or a goroutine is about to put it there; and when all is quiet every buffer is back in
    its pool unless it has grown too large for it, and so is every writer. -/
theorem responses_of_pooled_buffers (hc : (program cfg).Reachable c) :
    (∀ r ∈ c.shared.responses, ∃ packets, (r.ch, packets) ∈ c.shared.claims ∧
      (c.shared.owner r.ch, packets) ∈ c.shared.given ∧
      r.gzip = (cfg.httpCompression && decide (pollCompressionThreshold ≤ (encodePayload packets).length) &&
        cfg.acceptsGzip r.ch) ∧
      r.body = if r.gzip then cfg.compressor.gzip (encodePayload packets) else encodePayload packets) ∧
    (c.shared.claims.map Prod.fst).Nodup ∧ (c.shared.responses.map Response.ch).Nodup ∧
    (∀ i ch, (∃ t, c.thread i = .await t ch ∧ (c.shared.transport t).dataCh ≠ some ch) ∨
        c.thread i = .drain ch →
      (∃ b, c.shared.channel ch = some b) ∨ ∃ j packets, (c.thread j).sends = some (ch, packets)) ∧
    ((∀ i, c.thread i = .idle) →
      (∀ b, c.shared.pool.Out b → maxPooledPayloadBuffer < c.shared.capacity b) ∧
      (∀ b, c.shared.zip.buffers.Out b → maxPooledPayloadBuffer < c.shared.zip.capacity b) ∧
      ∀ w, ¬ c.shared.zip.writers.Out w) := by
  obtain ⟨hm, hholds, -⟩ := reach_sound hc
  refine ⟨fun r hr => ?_, hm.claims.1, hm.responses.1, fun i ch hi => ?_, fun hidle => ⟨fun b hb => ?_, fun b hb => ?_,
    fun w hw => ?_⟩⟩
  · obtain ⟨-, packets, hclaim, hr⟩ := hm.responses.2 r hr
    refine ⟨packets, hclaim, ((reach_owned hc).claims _ hclaim).2, congrArg Response.gzip hr, ?_⟩
    have hgzip : r.gzip = cfg.compresses r.ch (encodePayload packets) := congrArg Response.gzip hr
    rw [hgzip]
    exact congrArg Response.body hr
  · have hstands : c.shared.Claimed ch ∧ ch ∉ c.shared.received := by
      have h := (hholds i).stands
      rcases hi with ⟨t, hi, hreleased⟩ | hi
      · rw [hi] at h
        exact ⟨h.1.resolve_left hreleased, h.2⟩
      · rw [hi] at h
        exact h
    cases hch : c.shared.channel ch with
    | some b => exact .inl ⟨b, rfl⟩
    | none => exact .inr (pending_sends hc ⟨hstands.1, hch, hstands.2⟩)
  · by_contra hkept
    -- nobody serves a poll any more, so every claimed one has been received from
    have hempty (ch : Nat) : c.shared.channel ch ≠ some b := by
      intro hch
      obtain ⟨-, hreceived, packets, hclaim, -⟩ := hm.channel ch b hch
      have hopen : c.shared.Open ch :=
        ⟨hm.claims.2 _ hclaim, fun hfinished => hreceived ((hm.finished ch hfinished).2 ⟨packets, hclaim⟩)⟩
      obtain ⟨i, hi⟩ := open_polls hc hopen
      rw [hidle i] at hi
      cases hi
    obtain ⟨i, hi⟩ := taken_owns hc ⟨hb, hempty, Nat.not_lt.1 hkept⟩
    rw [hidle i] at hi
    cases hi
  · by_contra hkept
    obtain ⟨i, hi⟩ := taken_zipBuffer hc ⟨hb, Nat.not_lt.1 hkept⟩
    rw [hidle i] at hi
    cases hi
  · obtain ⟨i, hi⟩ := out_zipWriter hc hw
    rw [hidle i] at hi
    cases hi

/-- A compressor that puts a payload between a header and a trailer. -/
def framing : Compressor where
  State := Unit
  init := ()
  write _ payload := ((), 31 :: payload)
  close _ := [139]

/-- A server that compresses, and whose polls accept it. -/
def compressing : Config := ⟨framing, true, fun _ => true⟩

def longMessage : Packet := { type := .message, data := List.replicate 1023 97 }

set_option maxRecDepth 8192 in
/-- Two sessions, one after the other: the second response is built in the buffer of the first, and is short enough
    not to be compressed. -/
theorem responses_of_pooled_buffers_reused :
    ∃ c, (program compressing).Reachable c ∧ (∀ i, c.thread i = .idle) ∧ c.shared.pool.made = 1 ∧
      c.shared.responses = [⟨0, true, framing.gzip (encodePayload [longMessage])⟩,
        ⟨1, false, encodePayload [{ type := .noop }]⟩] ∧
      ∀ b, c.shared.pool.Out b → maxPooledPayloadBuffer < c.shared.capacity b := by
  have hrun : ∃ c, (program compressing).run ⟨{}, fun _ => .idle⟩
      [(0, .poll 0), (1, .send 0 [longMessage]), (1, .get none), (1, .grow 2048), (1, .go), (1, .go), (0, .go),
        (0, .zip (.get none)), (0, .zip (.get none)), (0, .zip (.grow 2048)), (0, .zip (.grow 2048)),
        (0, .zip (.wrote 1000)), (0, .zip (.wrote 1000)), (0, .zip .go), (0, .zip .go), (0, .zip .go), (0, .go),
        (0, .go), (2, .poll 1), (1, .writeNoop 1), (1, .get (some 0)), (1, .grow 8), (1, .go), (1, .go), (2, .go),
        (2, .wrote 1), (2, .go), (2, .go)] = some c ∧
      (∀ i, c.thread i = .idle) ∧ c.shared.pool.made = 1 ∧
      c.shared.responses = [⟨0, true, framing.gzip (encodePayload [longMessage])⟩,
        ⟨1, false, encodePayload [{ type := .noop }]⟩] :=
    ⟨_, rfl, fun | 0 | 1 | 2 | _ + 3 => rfl, rfl, rfl⟩
  obtain ⟨c, hrun, hidle, hmade, hresponses⟩ := hrun
  have hc := Program.Reachable.run (.init rfl) hrun
  exact ⟨c, hc, hidle, hmade, hresponses, ((responses_of_pooled_buffers hc).2.2.2.2 hidle).1⟩

end EngineIo.Server.PollBuffers
