import EngineIo.Concurrency.Counter
import EngineIo.Server.Socket
import Mathlib.Data.List.Count

set_option autoImplicit false

/-! # The slot of a long poll (`server_transport_polling.go`, `handlePoll`)

A poll GET makes a channel with room for one payload and puts it into the transport's slot. `send`,
`writeNoop` and `close` claim the channel under the transport's lock; they take a buffer from the pool and
deliver it after unlocking, in sections of their own here. The handler of the GET receives the payload,
or is cancelled and releases the slot; if it comes too late for that, it receives the payload that is on
its way.

`Tokens` is what a goroutine has in its hands, and `Act` says how a section moves the tokens between the
goroutines and the memory. Every statement is then about the number of tokens of one kind. -/

namespace EngineIo.Server.PollSlot

open Concurrency

/-! ## The goroutines -/

/-- A buffer of the pool on its way to a poll; `ticket` tells one `getPollBuffer` from another. -/
structure Payload where
  ticket : Nat
  buffer : Nat
  packets : List Packet
deriving DecidableEq, Repr

inductive Resolution
  | send
  | writeNoop
  | close
  | release
deriving DecidableEq, Repr

/-- The transport, the channels and the pool, and the history the statements speak about. -/
structure World where
  polling : PollingTransport := {}
  channels : Nat := 0
  /-- The payloads in the channels. -/
  mail : List (Nat × Payload) := []
  pool : List Nat := []
  buffers : Nat := 0
  takes : Nat := 0
  held : List Nat := []
  resolved : List (Nat × Resolution) := []
  /-- The channels that payloads were put into. -/
  delivered : List Nat := []
  /-- The channels that payloads were received from, with their tickets. -/
  received : List (Nat × Nat) := []
  /-- The tickets of the buffers given to `putPollBuffer`. -/
  returned : List Nat := []
deriving DecidableEq, Repr

/-- The sections; `k` is the channel of the poll whose handler called `send` by way of `flush`. -/
inductive Pc
  | idle
  | send (packets : List Packet) (k : Option Nat)
  | writeNoop
  | close
  /-- `getPollBuffer`. -/
  | fill (ch : Nat) (packets : List Packet) (k : Option Nat)
  | put (ch : Nat) (payload : Payload) (k : Option Nat)
  | hold (ch : Nat)
  /-- The handler of a poll in its call of `flush`. -/
  | flush (ch : Nat)
  | await (ch : Nat)
  | respond (payload : Payload)
  | release (ch : Nat)
  /-- The slot was claimed before the handler could release it. -/
  | drain (ch : Nat)
  | putBack (payload : Payload)
deriving DecidableEq, Repr

inductive Call
  | send (packets : List Packet)
  | writeNoop
  | close
  | poll
deriving DecidableEq, Repr

inductive Choice
  | go
  | call (c : Call)
  /-- The pool gives one of its buffers, or makes one. -/
  | take (buffer : Option Nat)
  | receive
  /-- The context of the request is done. -/
  | cancelled
  /-- Whether the buffer is small enough to be kept. -/
  | keep (small : Bool)
deriving DecidableEq, Repr

/-- Return from `send`. -/
def resume : Option Nat → Pc
  | none => .idle
  | some ch => .flush ch

/-- Deliver to the channel that was claimed, if one was. -/
def claimed (w : World) (by_ : Resolution) (packets : List Packet) (k : Option Nat) :
    PollingTransport × Option Nat → World × Pc
  | (polling, none) => ({ w with polling }, resume k)
  | (polling, some ch) =>
    ({ w with polling, resolved := (ch, by_) :: w.resolved }, .fill ch packets k)

/-- Receive from a channel. -/
def receive (w : World) (ch : Nat) (next : Payload → Pc) : Option (World × Pc) :=
  match w.mail.find? (·.1 = ch) with
  | none => none
  | some m =>
    some ({ w with mail := w.mail.erase m, received := (ch, m.2.ticket) :: w.received }, next m.2)

def exec (w : World) : Pc → Choice → Option (World × Pc)
  | .idle, .call (.send packets) => some (w, .send packets none)
  | .idle, .call .writeNoop => some (w, .writeNoop)
  | .idle, .call .close => some (w, .close)
  | .idle, .call .poll => some ({ w with channels := w.channels + 1 }, .hold w.channels)
  | .send packets k, .go => some (claimed w .send packets k w.polling.send)
  | .writeNoop, .go => some (claimed w .writeNoop [{ type := .noop }] none w.polling.writeNoop)
  | .close, .go => some (claimed w .close [{ type := .close }] none w.polling.close)
  | .fill ch packets k, .take none =>
    some ({ w with buffers := w.buffers + 1, takes := w.takes + 1 },
      .put ch ⟨w.takes, w.buffers, packets⟩ k)
  | .fill ch packets k, .take (some b) =>
    if b ∈ w.pool then
      some ({ w with pool := w.pool.erase b, takes := w.takes + 1 }, .put ch ⟨w.takes, b, packets⟩ k)
    else none
  | .put ch payload k, .go =>
    -- a second payload would have to wait
    if (w.mail.any (·.1 = ch)) then none
    else
      some ({ w with mail := (ch, payload) :: w.mail, delivered := ch :: w.delivered }, resume k)
  | .hold ch, .go =>
    match w.polling.hold ch with
    | (polling, .held) => some ({ w with polling, held := ch :: w.held }, .flush ch)
    | (polling, _) => some ({ w with polling }, .idle)
  | .flush ch, .call (.send packets) => some (w, .send packets (some ch))
  | .flush ch, .go => some (w, .await ch)
  | .await ch, .receive => receive w ch .respond
  | .await ch, .cancelled => some (w, .release ch)
  | .respond payload, .go => some (w, .putBack payload)
  | .release ch, .go =>
    match w.polling.release ch with
    | (polling, true) =>
      some ({ w with polling, resolved := (ch, .release) :: w.resolved }, .idle)
    | (polling, false) => some ({ w with polling }, .drain ch)
  | .drain ch, .receive => receive w ch .putBack
  | .putBack payload, .keep small =>
    some ({ w with
      pool := if small then payload.buffer :: w.pool else w.pool
      returned := payload.ticket :: w.returned }, .idle)
  | _, _ => none

def program : Program World Pc Choice where
  init w := w = {}
  idle := .idle
  exec := exec

/-! ## Tokens -/

structure Tokens where
  /-- A channel that was made for a poll. -/
  fresh : Option Nat := none
  /-- The held poll whose handler this is. -/
  handles : Option Nat := none
  /-- The handler has missed the slot. -/
  drains : Bool := false
  /-- The claimed channel to deliver to. -/
  delivers : Option Nat := none
  outgoing : Option Payload := none
  incoming : Option Payload := none
deriving DecidableEq, Repr

def Pc.tokens : Pc → Tokens
  | .send _ k => { handles := k }
  | .fill ch _ k => { handles := k, delivers := some ch }
  | .put ch payload k => { handles := k, delivers := some ch, outgoing := some payload }
  | .hold ch => { fresh := some ch }
  | .flush ch | .await ch | .release ch => { handles := some ch }
  | .drain ch => { handles := some ch, drains := true }
  | .respond payload | .putBack payload => { incoming := some payload }
  | .idle | .writeNoop | .close => {}

inductive Act (w : World) : Tokens → World → Tokens → Prop
  | quiet (tk : Tokens) : Act w tk w tk
  | make : Act w {} { w with channels := w.channels + 1 } { fresh := some w.channels }
  | refused (ch : Nat) : Act w { fresh := some ch } w {}
  | hold (ch : Nat) (polling : PollingTransport) (h : w.polling.dataCh = none)
      (hp : polling.dataCh = some ch) :
      Act w { fresh := some ch } { w with polling, held := ch :: w.held } { handles := some ch }
  /-- `send`, `writeNoop` or `close` without a held poll. -/
  | vacant (k : Option Nat) (polling : PollingTransport) (h : polling.dataCh = w.polling.dataCh) :
      Act w { handles := k } { w with polling } { handles := k }
  | claim (ch : Nat) (by_ : Resolution) (k : Option Nat) (polling : PollingTransport)
      (h : w.polling.dataCh = some ch) (hby : by_ ≠ .release) (hp : polling.dataCh = none) :
      Act w { handles := k } { w with polling, resolved := (ch, by_) :: w.resolved }
        { handles := k, delivers := some ch }
  | takeNew (ch : Nat) (k : Option Nat) (packets : List Packet) :
      Act w { handles := k, delivers := some ch }
        { w with buffers := w.buffers + 1, takes := w.takes + 1 }
        { handles := k, delivers := some ch, outgoing := some ⟨w.takes, w.buffers, packets⟩ }
  | takePooled (ch : Nat) (k : Option Nat) (packets : List Packet) (b : Nat) (h : b ∈ w.pool) :
      Act w { handles := k, delivers := some ch }
        { w with pool := w.pool.erase b, takes := w.takes + 1 }
        { handles := k, delivers := some ch, outgoing := some ⟨w.takes, b, packets⟩ }
  | put (ch : Nat) (k : Option Nat) (payload : Payload) :
      Act w { handles := k, delivers := some ch, outgoing := some payload }
        { w with mail := (ch, payload) :: w.mail, delivered := ch :: w.delivered } { handles := k }
  | receive (ch : Nat) (drains : Bool) (payload : Payload) (h : (ch, payload) ∈ w.mail) :
      Act w { handles := some ch, drains }
        { w with
          mail := w.mail.erase (ch, payload), received := (ch, payload.ticket) :: w.received }
        { incoming := some payload }
  | release (ch : Nat) (polling : PollingTransport) (h : w.polling.dataCh = some ch)
      (hp : polling.dataCh = none) :
      Act w { handles := some ch } { w with polling, resolved := (ch, .release) :: w.resolved } {}
  | miss (ch : Nat) (h : w.polling.dataCh ≠ some ch) :
      Act w { handles := some ch } w { handles := some ch, drains := true }
  | putBack (payload : Payload) (pool : List Nat)
      (h : pool = payload.buffer :: w.pool ∨ pool = w.pool) :
      Act w { incoming := some payload }
        { w with pool, returned := payload.ticket :: w.returned } {}

variable {w w' : World} {tk tk' : Tokens} {a : Choice} {pc pc' : Pc}

theorem resume_tokens (k : Option Nat) : (resume k).tokens = { handles := k } := by
  cases k <;> rfl

/-- `send`, `writeNoop` and `close` claim the channel in the slot, if they claim any. -/
theorem claimed_act {by_ : Resolution} {packets : List Packet} {k : Option Nat}
    {r : PollingTransport × Option Nat} (h : claimed w by_ packets k r = (w', pc'))
    (hby : by_ ≠ .release)
    (hr : (r.2 = none → r.1.dataCh = w.polling.dataCh) ∧
      ∀ n, r.2 = some n → w.polling.dataCh = some n ∧ r.1.dataCh = none) :
    Act w { handles := k } w' pc'.tokens := by
  obtain ⟨polling, ch⟩ := r
  cases ch with
  | none =>
    obtain ⟨rfl, rfl⟩ := Prod.mk.inj h
    rw [resume_tokens]
    exact .vacant k polling (hr.1 rfl)
  | some n =>
    obtain ⟨rfl, rfl⟩ := Prod.mk.inj h
    exact .claim n by_ k polling (hr.2 n rfl).1 hby (hr.2 n rfl).2

theorem receive_act {ch : Nat} {drains : Bool} {next : Payload → Pc}
    (hnext : ∀ payload, (next payload).tokens = { incoming := some payload })
    (h : receive w ch next = some (w', pc')) :
    Act w { handles := some ch, drains } w' pc'.tokens := by
  unfold receive at h
  split at h
  · cases h
  · next m hm =>
    obtain ⟨ch', payload⟩ := m
    have hch : ch' = ch := by simpa using List.find?_some hm
    subst hch
    cases h
    rw [hnext]
    exact .receive ch' drains payload (List.mem_of_find?_eq_some hm)

theorem send_spec (t : PollingTransport) :
    (t.send.2 = none → t.send.1.dataCh = t.dataCh) ∧
      ∀ n, t.send.2 = some n → t.dataCh = some n ∧ t.send.1.dataCh = none := by
  unfold PollingTransport.send
  split
  · exact ⟨fun _ => rfl, nofun⟩
  · exact ⟨fun h => h.symm, fun n h => ⟨h, rfl⟩⟩

theorem writeNoop_spec (t : PollingTransport) :
    (t.writeNoop.2 = none → t.writeNoop.1.dataCh = t.dataCh) ∧
      ∀ n, t.writeNoop.2 = some n → t.dataCh = some n ∧ t.writeNoop.1.dataCh = none :=
  ⟨fun h => h.symm, fun _ h => ⟨h, rfl⟩⟩

theorem close_spec (t : PollingTransport) :
    (t.close.2 = none → t.close.1.dataCh = t.dataCh) ∧
      ∀ n, t.close.2 = some n → t.dataCh = some n ∧ t.close.1.dataCh = none := by
  unfold PollingTransport.close
  split
  · exact ⟨fun _ => rfl, nofun⟩
  · exact ⟨fun h => h.symm, fun n h => ⟨h, rfl⟩⟩

theorem hold_spec {t t' : PollingTransport} {ch : Nat} {r : HoldResult} (h : t.hold ch = (t', r)) :
    if r = .held then t.dataCh = none ∧ t'.dataCh = some ch else t' = t := by
  unfold PollingTransport.hold at h
  split at h
  · obtain ⟨rfl, rfl⟩ := Prod.mk.inj h
    rfl
  · split at h
    · obtain ⟨rfl, rfl⟩ := Prod.mk.inj h
      rfl
    · next hfree =>
      obtain ⟨rfl, rfl⟩ := Prod.mk.inj h
      exact ⟨not_not.1 hfree, rfl⟩

theorem release_spec {t t' : PollingTransport} {ch : Nat} {ok : Bool} (h : t.release ch = (t', ok)) :
    if ok then t.dataCh = some ch ∧ t'.dataCh = none else t.dataCh ≠ some ch ∧ t' = t := by
  unfold PollingTransport.release at h
  split at h
  · next hheld =>
    obtain ⟨rfl, rfl⟩ := Prod.mk.inj h
    exact ⟨hheld, rfl⟩
  · next hheld =>
    obtain ⟨rfl, rfl⟩ := Prod.mk.inj h
    exact ⟨hheld, rfl⟩

/-- **Sections.** What a section of a goroutine does to its tokens and to the memory. -/
theorem exec_act (h : exec w pc a = some (w', pc')) : Act w pc.tokens w' pc'.tokens := by
  revert h
  fun_cases exec w pc a <;> intro h
  case case4 =>
    cases h
    exact .make
  case case5 => exact claimed_act (Option.some.inj h) nofun (send_spec _)
  case case6 => exact claimed_act (Option.some.inj h) nofun (writeNoop_spec _)
  case case7 => exact claimed_act (Option.some.inj h) nofun (close_spec _)
  case case8 =>
    cases h
    exact .takeNew _ _ _
  case case9 hb =>
    cases h
    exact .takePooled _ _ _ _ hb
  case case12 =>
    cases h
    rw [resume_tokens]
    exact .put _ _ _
  case case13 hhold =>
    cases h
    obtain ⟨hfree, hset⟩ := hold_spec hhold
    exact .hold _ _ hfree hset
  case case14 hne hhold =>
    cases h
    have hsame := hold_spec hhold
    rw [if_neg hne] at hsame
    rw [hsame]
    exact .refused _
  case case17 => exact receive_act (fun _ => rfl) h
  case case20 hrelease =>
    cases h
    obtain ⟨hheld, hset⟩ := release_spec hrelease
    exact .release _ _ hheld hset
  case case21 hrelease =>
    cases h
    obtain ⟨hmissed, rfl⟩ := release_spec hrelease
    exact .miss _ hmissed
  case case22 => exact receive_act (fun _ => rfl) h
  case case23 small =>
    cases h
    refine .putBack _ _ ?_
    cases small
    · exact .inr rfl
    · exact .inl rfl
  all_goals cases h
  all_goals exact .quiet _

/-! ## Counting tokens -/

/-- One if the token is for `n`. -/
def ind (o : Option Nat) (n : Nat) : Nat := if o = some n then 1 else 0

@[simp] theorem ind_none (n : Nat) : ind none n = 0 := rfl

@[simp] theorem ind_some (m n : Nat) : ind (some m) n = if m = n then 1 else 0 := by
  simp [ind]

/-- How often `send`, `writeNoop` and `close` have claimed the channel. -/
def claims (resolved : List (Nat × Resolution)) (ch : Nat) : Nat :=
  resolved.countP fun r => r.1 = ch ∧ r.2 ≠ .release

def releases (resolved : List (Nat × Resolution)) (ch : Nat) : Nat :=
  resolved.countP fun r => r.1 = ch ∧ r.2 = .release

theorem claims_claim {by_ : Resolution} (hby : by_ ≠ .release) (ch' ch : Nat)
    (resolved : List (Nat × Resolution)) :
    claims ((ch', by_) :: resolved) ch = claims resolved ch + if ch' = ch then 1 else 0 := by
  simp [claims, List.countP_cons, hby]

theorem releases_claim {by_ : Resolution} (hby : by_ ≠ .release) (ch' ch : Nat)
    (resolved : List (Nat × Resolution)) :
    releases ((ch', by_) :: resolved) ch = releases resolved ch := by
  simp [releases, hby]

@[simp] theorem claims_release (ch' ch : Nat) (resolved : List (Nat × Resolution)) :
    claims ((ch', .release) :: resolved) ch = claims resolved ch := by
  simp [claims]

@[simp] theorem releases_release (ch' ch : Nat) (resolved : List (Nat × Resolution)) :
    releases ((ch', .release) :: resolved) ch = releases resolved ch + if ch' = ch then 1 else 0 := by
  simp [releases, List.countP_cons]

/-- Every resolution is a claim or a release. -/
theorem claims_add_releases (resolved : List (Nat × Resolution)) (ch : Nat) :
    claims resolved ch + releases resolved ch = resolved.countP (·.1 = ch) := by
  induction resolved with
  | nil => rfl
  | cons r resolved ih =>
    obtain ⟨ch', by_⟩ := r
    rw [List.countP_cons, ← ih]
    by_cases hby : by_ = .release
    · subst hby
      simp [Nat.add_assoc]
    · rw [claims_claim hby, releases_claim hby]
      simp
      omega

/-- Payloads in the channel, and payloads received from it. -/
def World.waiting (w : World) (ch : Nat) : Nat := w.mail.countP (·.1 = ch)

def World.receivedOn (w : World) (ch : Nat) : Nat := w.received.countP (·.1 = ch)

/-- The places of the payload with a ticket, and of a buffer. -/
def World.mailed (w : World) (n : Nat) : Nat := w.mail.countP (·.2.ticket = n)

def World.receivedTicket (w : World) (n : Nat) : Nat := w.received.countP (·.2 = n)

def World.mailedBuffer (w : World) (b : Nat) : Nat := w.mail.countP (·.2.buffer = b)

/-- A channel is made for one poll, which is held once at most. -/
theorem Act.fresh_balance (h : Act w tk w' tk') (ch : Nat) :
    ind tk'.fresh ch + w'.held.count ch + (if ch < w.channels then 1 else 0) ≤
      ind tk.fresh ch + w.held.count ch + if ch < w'.channels then 1 else 0 := by
  cases h with
  | make =>
    simp only [ind_some, ind_none]
    split_ifs <;> omega
  | hold ch' => simp [List.count_cons]; omega
  | refused => simp
  | _ => simp

/-- A held poll is in the slot until something resolves it. -/
theorem Act.slot_balance (h : Act w tk w' tk') (ch : Nat)
    (hI : w.held.count ch =
      ind w.polling.dataCh ch + claims w.resolved ch + releases w.resolved ch) :
    w'.held.count ch =
      ind w'.polling.dataCh ch + claims w'.resolved ch + releases w'.resolved ch := by
  cases h with
  | hold ch' polling hfree hset =>
    rw [hfree, ind_none] at hI
    simp only [hset, ind_some, List.count_cons, beq_iff_eq]
    omega
  | vacant k polling hsame => rw [hI, ← hsame]
  | claim ch' by_ k polling hheld hby hset =>
    rw [hheld, ind_some] at hI
    simp only [hset, ind_none, claims_claim hby, releases_claim hby]
    omega
  | release ch' polling hheld hset =>
    rw [hheld, ind_some] at hI
    simp only [hset, ind_none, claims_release, releases_release]
    omega
  | _ => exact hI

/-- Whoever claims a channel delivers to it once. -/
theorem Act.delivery_balance (h : Act w tk w' tk') (ch : Nat) :
    ind tk'.delivers ch + w'.delivered.count ch + claims w.resolved ch ≤
      ind tk.delivers ch + w.delivered.count ch + claims w'.resolved ch := by
  cases h with
  | claim ch' by_ k polling _ hby =>
    simp only [claims_claim hby, ind_some, ind_none]
    omega
  | put ch' =>
    simp only [ind_some, ind_none, List.count_cons, beq_iff_eq]
    omega
  | _ => simp

/-- The handler of a poll receives one payload or releases the slot. -/
theorem Act.handler_balance (h : Act w tk w' tk') (ch : Nat) :
    ind tk'.handles ch + (w'.receivedOn ch + releases w'.resolved ch) + w.held.count ch ≤
      ind tk.handles ch + (w.receivedOn ch + releases w.resolved ch) + w'.held.count ch := by
  simp only [World.receivedOn]
  cases h with
  | hold ch' =>
    simp only [ind_some, ind_none, List.count_cons, beq_iff_eq]
    omega
  | claim ch' by_ k polling _ hby => rw [releases_claim hby]
  | receive ch' =>
    simp only [ind_some, ind_none, List.countP_cons, decide_eq_true_eq]
    omega
  | release ch' =>
    simp only [ind_some, ind_none, releases_release]
    omega
  | _ => simp

/-- A payload that was delivered is in the channel or has been received. -/
theorem Act.mail_balance (h : Act w tk w' tk') (ch : Nat)
    (hI : w.delivered.count ch = w.waiting ch + w.receivedOn ch) :
    w'.delivered.count ch = w'.waiting ch + w'.receivedOn ch := by
  simp only [World.waiting, World.receivedOn] at hI ⊢
  cases h with
  | put ch' =>
    simp only [List.count_cons, List.countP_cons, beq_iff_eq, decide_eq_true_eq]
    omega
  | receive ch' drains payload hm =>
    have hmail := (List.perm_cons_erase hm).countP_eq fun m => m.1 = ch
    simp only [List.countP_cons] at hmail ⊢
    omega
  | _ => exact hI

/-- The payload with a ticket goes from its sender through the channel to its receiver. -/
theorem Act.ticket_balance (h : Act w tk w' tk') (n : Nat) :
    ind (tk'.outgoing.map Payload.ticket) n + (w'.mailed n + w'.receivedTicket n) +
        (if n < w.takes then 1 else 0) ≤
      ind (tk.outgoing.map Payload.ticket) n + (w.mailed n + w.receivedTicket n) +
        if n < w'.takes then 1 else 0 := by
  simp only [World.mailed, World.receivedTicket]
  cases h with
  | takeNew | takePooled =>
    simp only [Option.map_some, Option.map_none, ind_some, ind_none]
    split_ifs <;> omega
  | put ch' k payload =>
    simp only [Option.map_some, Option.map_none, ind_some, ind_none, List.countP_cons]
    simp only [decide_eq_true_eq]
    omega
  | receive ch' drains payload hm =>
    have hmail := (List.perm_cons_erase hm).countP_eq fun m => m.2.ticket = n
    simp only [List.countP_cons, Option.map_none, ind_none] at hmail ⊢
    omega
  | _ => simp

/-- A received payload is given back once. -/
theorem Act.return_balance (h : Act w tk w' tk') (n : Nat) :
    ind (tk'.incoming.map Payload.ticket) n + w'.returned.count n + w.receivedTicket n ≤
      ind (tk.incoming.map Payload.ticket) n + w.returned.count n + w'.receivedTicket n := by
  simp only [World.receivedTicket]
  cases h with
  | receive ch' drains payload =>
    simp only [Option.map_some, Option.map_none, ind_some, ind_none, List.countP_cons]
    by_cases hn : payload.ticket = n
    · simp [hn]
      omega
    · simp [hn]
  | putBack payload => simp [List.count_cons]; omega
  | _ => simp

/-- A buffer is in one place. -/
theorem Act.buffer_balance (h : Act w tk w' tk') (b : Nat) :
    ind (tk'.outgoing.map Payload.buffer) b + ind (tk'.incoming.map Payload.buffer) b +
        (w'.mailedBuffer b + w'.pool.count b) + (if b < w.buffers then 1 else 0) ≤
      ind (tk.outgoing.map Payload.buffer) b + ind (tk.incoming.map Payload.buffer) b +
        (w.mailedBuffer b + w.pool.count b) + if b < w'.buffers then 1 else 0 := by
  simp only [World.mailedBuffer]
  cases h with
  | takeNew =>
    simp only [Option.map_some, Option.map_none, ind_some, ind_none]
    split_ifs <;> omega
  | takePooled ch k packets b' hb =>
    have hpool := (List.perm_cons_erase hb).count_eq b
    simp only [List.count_cons, beq_iff_eq] at hpool
    simp only [Option.map_some, Option.map_none, ind_some, ind_none]
    omega
  | put ch' k payload =>
    simp only [Option.map_some, Option.map_none, ind_some, ind_none, List.countP_cons]
    by_cases hb' : payload.buffer = b
    · simp [hb']
      omega
    · simp [hb']
  | receive ch' drains payload hm =>
    have hmail := (List.perm_cons_erase hm).countP_eq fun m => m.2.buffer = b
    simp only [List.countP_cons, decide_eq_true_eq] at hmail
    simp only [Option.map_some, Option.map_none, ind_some, ind_none]
    omega
  | putBack payload pool hpool =>
    rcases hpool with rfl | rfl
    · simp [List.count_cons]; omega
    · simp
  | _ => simp

/-! ## Finding tokens -/

/-- A channel that was claimed and has had no delivery: either it was so before and is not this
    goroutine's to deliver to, or the goroutine now has it. -/
theorem Act.delivery_owed (h : Act w tk w' tk') {ch : Nat} (hle : claims w.resolved ch ≤ 1)
    (hH : w'.delivered.count ch < claims w'.resolved ch) :
    w.delivered.count ch < claims w.resolved ch ∧ ¬ tk.delivers = some ch ∨ tk'.delivers = some ch := by
  cases h with
  | quiet => exact Program.owner_same hH
  | takeNew | takePooled => exact Program.owner_same hH
  | claim ch' by_ k polling _ hby =>
    by_cases hch : ch' = ch
    · exact .inr (by rw [hch])
    · rw [claims_claim hby, if_neg hch] at hH
      exact .inl ⟨hH, nofun⟩
  | put ch' =>
    simp only [List.count_cons, beq_iff_eq] at hH
    by_cases hch : ch' = ch
    · rw [if_pos hch] at hH
      omega
    · rw [if_neg hch] at hH
      exact .inl ⟨hH, by simpa using hch⟩
  | release ch' =>
    rw [claims_release] at hH
    exact .inl ⟨hH, nofun⟩
  | _ => exact .inl ⟨hH, nofun⟩

/-- A held poll that has neither received a payload nor released the slot, in the same form. -/
theorem Act.handler_owed (h : Act w tk w' tk') {ch : Nat} (hle : w.held.count ch ≤ 1)
    (hH : w'.receivedOn ch + releases w'.resolved ch < w'.held.count ch) :
    w.receivedOn ch + releases w.resolved ch < w.held.count ch ∧ ¬ tk.handles = some ch ∨
      tk'.handles = some ch := by
  simp only [World.receivedOn] at hH ⊢
  cases h with
  | quiet => exact Program.owner_same hH
  | miss | vacant | takeNew | takePooled | put => exact Program.owner_same hH
  | claim ch' by_ k polling _ hby =>
    rw [releases_claim hby] at hH
    exact Program.owner_same hH
  | hold ch' =>
    simp only [List.count_cons, beq_iff_eq] at hH
    by_cases hch : ch' = ch
    · exact .inr (by rw [hch])
    · rw [if_neg hch] at hH
      exact .inl ⟨hH, nofun⟩
  | receive ch' =>
    simp only [List.countP_cons, decide_eq_true_eq] at hH
    by_cases hch : ch' = ch
    · rw [if_pos hch] at hH
      omega
    · rw [if_neg hch] at hH
      exact .inl ⟨hH, by simpa using hch⟩
  | release ch' =>
    simp only [releases_release] at hH
    by_cases hch : ch' = ch
    · rw [if_pos hch] at hH
      omega
    · rw [if_neg hch] at hH
      exact .inl ⟨hH, by simpa using hch⟩
  | make | refused | putBack => exact .inl ⟨hH, nofun⟩

/-- A payload that was taken and is neither in a channel nor received, in the same form. -/
theorem Act.ticket_owed (h : Act w tk w' tk') {n : Nat}
    (hH : n < w'.takes ∧ w'.mailed n + w'.receivedTicket n = 0) :
    (n < w.takes ∧ w.mailed n + w.receivedTicket n = 0) ∧
        ¬ tk.outgoing.map Payload.ticket = some n ∨ tk'.outgoing.map Payload.ticket = some n := by
  simp only [World.mailed, World.receivedTicket] at hH ⊢
  cases h with
  | quiet => exact Program.owner_same hH
  | takeNew | takePooled =>
    by_cases hn : n = w.takes
    · exact .inr (by simp [hn])
    · exact .inl ⟨⟨by simp at hH; omega, hH.2⟩, nofun⟩
  | put ch' k payload =>
    simp only [List.countP_cons, decide_eq_true_eq] at hH
    by_cases hn : payload.ticket = n
    · rw [if_pos hn] at hH
      omega
    · rw [if_neg hn] at hH
      exact .inl ⟨hH, by simpa using hn⟩
  | receive ch' drains payload hm =>
    have hmail := (List.perm_cons_erase hm).countP_eq fun m => m.2.ticket = n
    simp only [List.countP_cons] at hmail hH
    exact .inl ⟨⟨hH.1, by omega⟩, nofun⟩
  | _ => exact .inl ⟨hH, nofun⟩

/-! ## Whole runs -/

variable {c : Pool World Pc}

/-- The rule for counters, with one goroutine singled out. -/
theorem Reachable.units {A N : World → Nat} {W : Tokens → Nat} (hidle : W {} = 0)
    (hinit : A {} ≤ N {})
    (hstep : ∀ w tk w' tk', Act w tk w' tk' → W tk' + A w' + N w ≤ W tk + A w + N w')
    (hc : program.Reachable c) (S : Finset Nat) :
    ∑ i ∈ S, W (c.thread i).tokens + A c.shared ≤ N c.shared :=
  hc.counter (W := fun pc => W pc.tokens) hidle (by rintro w rfl; exact hinit)
    (fun _ _ _ _ _ _ hx => hstep _ _ _ _ (exec_act hx)) S

/-- A held poll is in the slot until something resolves it. -/
theorem slot_eq (hc : program.Reachable c) (ch : Nat) :
    c.shared.held.count ch =
      ind c.shared.polling.dataCh ch + claims c.shared.resolved ch + releases c.shared.resolved ch := by
  refine (hc.invariant (J := fun _ _ => True)
    (I := fun w => w.held.count ch = ind w.polling.dataCh ch + claims w.resolved ch + releases w.resolved ch) ?_ ?_).1
  · rintro w rfl
    exact ⟨rfl, trivial⟩
  · exact fun c i a w' pc' _ _ hI _ hx => ⟨(exec_act hx).slot_balance ch hI, trivial, fun _ _ => trivial⟩

theorem mail_eq (hc : program.Reachable c) (ch : Nat) :
    c.shared.delivered.count ch = c.shared.waiting ch + c.shared.receivedOn ch := by
  refine (hc.invariant (J := fun _ _ => True)
    (I := fun w => w.delivered.count ch = w.waiting ch + w.receivedOn ch) ?_ ?_).1
  · rintro w rfl
    exact ⟨rfl, trivial⟩
  · exact fun c i a w' pc' _ _ hI _ hx => ⟨(exec_act hx).mail_balance ch hI, trivial, fun _ _ => trivial⟩

theorem held_le (hc : program.Reachable c) (ch : Nat) (S : Finset Nat) :
    ∑ i ∈ S, ind (c.thread i).tokens.fresh ch + c.shared.held.count ch ≤ 1 := by
  have hunits := Reachable.units (A := fun w => w.held.count ch)
    (N := fun w => if ch < w.channels then 1 else 0) (W := fun tk => ind tk.fresh ch) rfl (by simp)
    (fun _ _ _ _ h => h.fresh_balance ch) hc S
  refine hunits.trans ?_
  split <;> omega

theorem delivering_le (hc : program.Reachable c) (ch : Nat) (S : Finset Nat) :
    ∑ i ∈ S, ind (c.thread i).tokens.delivers ch + c.shared.delivered.count ch ≤ claims c.shared.resolved ch :=
  Reachable.units (A := fun w => w.delivered.count ch) (N := fun w => claims w.resolved ch)
    (W := fun tk => ind tk.delivers ch) rfl (by simp) (fun _ _ _ _ h => h.delivery_balance ch) hc S

theorem handling_le (hc : program.Reachable c) (ch : Nat) (S : Finset Nat) :
    ∑ i ∈ S, ind (c.thread i).tokens.handles ch + (c.shared.receivedOn ch + releases c.shared.resolved ch) ≤
      c.shared.held.count ch :=
  Reachable.units (A := fun w => w.receivedOn ch + releases w.resolved ch) (N := fun w => w.held.count ch)
    (W := fun tk => ind tk.handles ch) rfl (by simp [World.receivedOn, releases])
    (fun _ _ _ _ h => h.handler_balance ch) hc S

theorem ticket_le (hc : program.Reachable c) (n : Nat) (S : Finset Nat) :
    ∑ i ∈ S, ind ((c.thread i).tokens.outgoing.map Payload.ticket) n +
      (c.shared.mailed n + c.shared.receivedTicket n) ≤ 1 := by
  have hunits := Reachable.units (A := fun w => w.mailed n + w.receivedTicket n)
    (N := fun w => if n < w.takes then 1 else 0) (W := fun tk => ind (tk.outgoing.map Payload.ticket) n)
    rfl (by simp [World.mailed, World.receivedTicket]) (fun _ _ _ _ h => h.ticket_balance n) hc S
  refine hunits.trans ?_
  split <;> omega

theorem returned_le (hc : program.Reachable c) (n : Nat) (S : Finset Nat) :
    ∑ i ∈ S, ind ((c.thread i).tokens.incoming.map Payload.ticket) n + c.shared.returned.count n ≤
      c.shared.receivedTicket n :=
  Reachable.units (A := fun w => w.returned.count n) (N := fun w => w.receivedTicket n)
    (W := fun tk => ind (tk.incoming.map Payload.ticket) n) rfl (by simp)
    (fun _ _ _ _ h => h.return_balance n) hc S

theorem buffer_le (hc : program.Reachable c) (b : Nat) (S : Finset Nat) :
    ∑ i ∈ S, (ind ((c.thread i).tokens.outgoing.map Payload.buffer) b +
      ind ((c.thread i).tokens.incoming.map Payload.buffer) b) +
      (c.shared.mailedBuffer b + c.shared.pool.count b) ≤ 1 := by
  have hunits := Reachable.units (A := fun w => w.mailedBuffer b + w.pool.count b)
    (N := fun w => if b < w.buffers then 1 else 0)
    (W := fun tk => ind (tk.outgoing.map Payload.buffer) b + ind (tk.incoming.map Payload.buffer) b)
    rfl (by simp [World.mailedBuffer]) (fun _ _ _ _ h => h.buffer_balance b) hc S
  refine hunits.trans ?_
  split <;> omega

theorem claims_le (hc : program.Reachable c) (ch : Nat) : claims c.shared.resolved ch ≤ 1 := by
  have hslot := slot_eq hc ch
  have hheld := held_le hc ch ∅
  simp only [Finset.sum_empty] at hheld
  omega

theorem delivery_owed (hc : program.Reachable c) {ch : Nat}
    (h : c.shared.delivered.count ch < claims c.shared.resolved ch) :
    ∃ i, (c.thread i).tokens.delivers = some ch := by
  refine hc.owner (O := fun pc => pc.tokens.delivers = some ch)
    (H := fun w => w.delivered.count ch < claims w.resolved ch) ?_ ?_ h
  · rintro w rfl
    exact Nat.lt_irrefl 0
  · exact fun c i a w' pc' hc _ hx hH => (exec_act hx).delivery_owed (claims_le hc ch) hH

theorem handler_owed (hc : program.Reachable c) {ch : Nat}
    (h : c.shared.receivedOn ch + releases c.shared.resolved ch < c.shared.held.count ch) :
    ∃ i, (c.thread i).tokens.handles = some ch := by
  refine hc.owner (O := fun pc => pc.tokens.handles = some ch)
    (H := fun w => w.receivedOn ch + releases w.resolved ch < w.held.count ch) ?_ ?_ h
  · rintro w rfl
    exact Nat.lt_irrefl 0
  · intro c i a w' pc' hc _ hx hH
    have hheld := held_le hc ch ∅
    rw [Finset.sum_empty, Nat.zero_add] at hheld
    exact (exec_act hx).handler_owed hheld hH

theorem ticket_owed (hc : program.Reachable c) {n : Nat} (hn : n < c.shared.takes)
    (h : c.shared.mailed n + c.shared.receivedTicket n = 0) :
    ∃ i, (c.thread i).tokens.outgoing.map Payload.ticket = some n := by
  refine hc.owner (O := fun pc => pc.tokens.outgoing.map Payload.ticket = some n)
    (H := fun w => n < w.takes ∧ w.mailed n + w.receivedTicket n = 0) ?_ ?_ ⟨hn, h⟩
  · rintro w rfl ⟨h, -⟩
    exact absurd h (Nat.not_lt_zero n)
  · exact fun c i a w' pc' _ _ hx hH => (exec_act hx).ticket_owed hH

/-- At most one goroutine has the token, and none if it lies about. -/
theorem ind_unique {f : Pc → Option Nat} {n k : Nat}
    (h : ∀ S : Finset Nat, ∑ i ∈ S, ind (f (c.thread i)) n + k ≤ 1) :
    (∀ i j, f (c.thread i) = some n → f (c.thread j) = some n → i = j) ∧
      ∀ i, f (c.thread i) = some n → k = 0 := by
  constructor
  · intro i j hi hj
    by_contra hij
    have htwo := h {i, j}
    rw [Finset.sum_pair hij, ind, ind, if_pos hi, if_pos hj] at htwo
    omega
  · intro i hi
    have hone := h {i}
    rw [Finset.sum_singleton, ind, if_pos hi] at hone
    omega

/-- Only `hold` fills the slot. -/
theorem Act.dataCh (h : Act w tk w' tk') {ch : Nat} (hd : w'.polling.dataCh = some ch) :
    w.polling.dataCh = some ch ∨ tk.fresh = some ch := by
  cases h with
  | hold ch' polling _ hset => exact .inr (hset.symm.trans hd)
  | vacant k polling hsame => exact .inl (hsame.symm.trans hd)
  | claim _ _ _ _ _ _ hset | release _ _ _ hset => cases hset.symm.trans hd
  | _ => exact .inl hd

/-- A handler that missed the slot will not find its channel there again. -/
theorem drain_missed (hc : program.Reachable c) {i ch : Nat} (h : c.thread i = .drain ch) :
    c.shared.polling.dataCh ≠ some ch := by
  have hJ := (hc.invariant (I := fun _ => True)
    (J := fun w pc => pc.tokens.drains = true → ∀ ch, pc.tokens.handles = some ch →
      w.polling.dataCh ≠ some ch) ?_ ?_).2 i
  · exact hJ (by rw [h]; rfl) ch (by rw [h]; rfl)
  · rintro w rfl
    exact ⟨trivial, nofun⟩
  · intro c i a w' pc' hc _ _ hJ hx
    have hact := exec_act hx
    refine ⟨trivial, ?_, fun j _ hdrains ch hhandles hd => ?_⟩
    · generalize pc'.tokens = tk' at hact
      generalize htk : (c.thread i).tokens = tk at hact
      cases hact with
      | quiet => exact htk ▸ hJ i
      | miss ch' hmissed =>
        rintro - ch ⟨⟩
        exact hmissed
      | _ => nofun
    · -- the channel would have to be held a second time
      rcases hact.dataCh hd with hd | hfresh
      · exact hJ j hdrains ch hhandles hd
      · have hfree := held_le hc ch {i}
        have hheld := handling_le hc ch {j}
        rw [Finset.sum_singleton, ind, if_pos hfresh] at hfree
        rw [Finset.sum_singleton, ind, if_pos hhandles] at hheld
        omega

/-! ## Main result -/

/-- What holds of the slot, the channels and the buffers at every moment. -/
structure Law (c : Pool World Pc) : Prop where
  /-- A channel that was held is in the slot still, or one `send`, `writeNoop`, `close` or `release` has
      resolved it. -/
  resolved : ∀ ch ∈ c.shared.held,
    c.shared.polling.dataCh = some ch ∧ c.shared.resolved.countP (·.1 = ch) = 0 ∨
      c.shared.polling.dataCh ≠ some ch ∧ c.shared.resolved.countP (·.1 = ch) = 1
  delivered : ∀ ch, c.shared.delivered.count ch ≤ 1
  /-- A delivery never has to wait. -/
  unblocked : ∀ i ch payload k, c.thread i = .put ch payload k → (program.step c i .go).isSome = true
  /-- Behind a `release` that returned false, one payload is in the channel and can be received, or one
      goroutine is about to deliver it. -/
  missed : ∀ i ch, c.thread i = .drain ch →
    c.shared.delivered.count ch = 1 ∧ (∀ j, (c.thread j).tokens.delivers ≠ some ch) ∧
        (program.step c i .receive).isSome = true ∨
      c.shared.delivered.count ch = 0 ∧ ∃! j, (c.thread j).tokens.delivers = some ch
  /-- A payload that was taken from the pool is with the goroutine that delivers it, in its channel, or
      received; and it is received once at most. -/
  taken : ∀ n < c.shared.takes,
    (∃ i, (c.thread i).tokens.outgoing.map Payload.ticket = some n) ∨ c.shared.mailed n = 1 ∨
      c.shared.receivedTicket n = 1
  received : ∀ n, c.shared.receivedTicket n ≤ 1
  /-- A channel with a payload in it or under way has a handler that has yet to receive it. -/
  awaited : ∀ ch, 0 < c.shared.waiting ch ∨ (∃ j, (c.thread j).tokens.delivers = some ch) →
    ∃! i, (c.thread i).tokens.handles = some ch
  /-- A payload is given back once at most, when it was received and nobody uses it any more. -/
  returned : ∀ n ∈ c.shared.returned, c.shared.returned.count n = 1 ∧
    c.shared.receivedTicket n = 1 ∧ c.shared.mailed n = 0 ∧
    ∀ i, (c.thread i).tokens.outgoing.map Payload.ticket ≠ some n ∧
      (c.thread i).tokens.incoming.map Payload.ticket ≠ some n
  /-- A buffer in the pool is there once, and nowhere else. -/
  pooled : ∀ b ∈ c.shared.pool, c.shared.pool.count b = 1 ∧ c.shared.mailedBuffer b = 0 ∧
    ∀ i, (c.thread i).tokens.outgoing.map Payload.buffer ≠ some b ∧
      (c.thread i).tokens.incoming.map Payload.buffer ≠ some b

theorem held_count_le (hc : program.Reachable c) (ch : Nat) : c.shared.held.count ch ≤ 1 := by
  simpa using held_le hc ch ∅

theorem delivered_le (hc : program.Reachable c) (ch : Nat) : c.shared.delivered.count ch ≤ 1 := by
  have hclaims := claims_le hc ch
  have hdelivering := delivering_le hc ch ∅
  simp only [Finset.sum_empty] at hdelivering
  omega

theorem resolved_once (hc : program.Reachable c) {ch : Nat} (h : ch ∈ c.shared.held) :
    c.shared.polling.dataCh = some ch ∧ c.shared.resolved.countP (·.1 = ch) = 0 ∨
      c.shared.polling.dataCh ≠ some ch ∧ c.shared.resolved.countP (·.1 = ch) = 1 := by
  have hheld : 0 < c.shared.held.count ch := List.count_pos_iff.2 h
  have hle := held_count_le hc ch
  have hslot := slot_eq hc ch
  rw [Nat.add_assoc, claims_add_releases] at hslot
  by_cases hd : c.shared.polling.dataCh = some ch
  · rw [ind, if_pos hd] at hslot
    exact .inl ⟨hd, by omega⟩
  · rw [ind, if_neg hd] at hslot
    exact .inr ⟨hd, by omega⟩

/-- Someone is about to deliver on the channel: there has been no delivery on it yet. -/
theorem delivered_eq_zero (hc : program.Reachable c) {i ch : Nat}
    (h : (c.thread i).tokens.delivers = some ch) :
    c.shared.delivered.count ch = 0 ∧ claims c.shared.resolved ch = 1 := by
  have hclaims := claims_le hc ch
  have hdelivering := delivering_le hc ch {i}
  rw [Finset.sum_singleton, ind, if_pos h] at hdelivering
  omega

theorem delivers_unique (hc : program.Reachable c) {i j ch : Nat}
    (hi : (c.thread i).tokens.delivers = some ch) (hj : (c.thread j).tokens.delivers = some ch) :
    i = j :=
  (ind_unique (f := fun pc => pc.tokens.delivers) (k := c.shared.delivered.count ch) fun S =>
    (delivering_le hc ch S).trans (claims_le hc ch)).1 i j hi hj

theorem put_unblocked (hc : program.Reachable c) {i ch : Nat} {payload : Payload} {k : Option Nat}
    (h : c.thread i = .put ch payload k) : (program.step c i .go).isSome = true := by
  have hnone := (delivered_eq_zero hc (show (c.thread i).tokens.delivers = some ch by rw [h]; rfl)).1
  have hmail := mail_eq hc ch
  have hempty : (c.shared.mail.any (·.1 = ch)) = false := by
    have hwaiting : c.shared.mail.countP (·.1 = ch) = 0 := by
      simp only [World.waiting] at hmail
      omega
    rw [List.countP_eq_zero] at hwaiting
    simpa using hwaiting
  simp [Program.step, program, h, exec, hempty]

theorem receive_isSome {ch : Nat} {next : Payload → Pc} (h : 0 < w.waiting ch) :
    (receive w ch next).isSome = true := by
  obtain ⟨m, hm, hch⟩ := List.countP_pos_iff.1 h
  unfold receive
  split
  · next hnone => exact absurd hch (List.find?_eq_none.1 hnone m hm)
  · rfl

/-- The channel of a handler that missed the slot has been claimed, and nothing received from it. -/
theorem missed_payload (hc : program.Reachable c) {i ch : Nat} (h : c.thread i = .drain ch) :
    c.shared.delivered.count ch = 1 ∧ (∀ j, (c.thread j).tokens.delivers ≠ some ch) ∧
        (program.step c i .receive).isSome = true ∨
      c.shared.delivered.count ch = 0 ∧ ∃! j, (c.thread j).tokens.delivers = some ch := by
  have hhandles : (c.thread i).tokens.handles = some ch := by rw [h]; rfl
  have hhandler := handling_le hc ch {i}
  have hheld := held_count_le hc ch
  have hslot := slot_eq hc ch
  have hmail := mail_eq hc ch
  have hdelivered := delivered_le hc ch
  rw [Finset.sum_singleton, ind, if_pos hhandles] at hhandler
  rw [ind, if_neg (drain_missed hc h)] at hslot
  by_cases hzero : c.shared.delivered.count ch = 0
  · obtain ⟨j, hj⟩ := delivery_owed hc (show c.shared.delivered.count ch < claims c.shared.resolved ch by omega)
    exact .inr ⟨hzero, j, hj, fun j' hj' => delivers_unique hc hj' hj⟩
  · refine .inl ⟨by omega, fun j hj => hzero (delivered_eq_zero hc hj).1, ?_⟩
    have hwaiting : 0 < c.shared.waiting ch := by omega
    simpa [Program.step, program, h, exec] using receive_isSome hwaiting

theorem handler_awaits (hc : program.Reachable c) {ch : Nat}
    (h : 0 < c.shared.waiting ch ∨ ∃ j, (c.thread j).tokens.delivers = some ch) :
    ∃! i, (c.thread i).tokens.handles = some ch := by
  have hheld := held_count_le hc ch
  have hslot := slot_eq hc ch
  have hmail := mail_eq hc ch
  have hdelivered := delivered_le hc ch
  have hdelivering := delivering_le hc ch ∅
  rw [Finset.sum_empty] at hdelivering
  have howed : c.shared.receivedOn ch + releases c.shared.resolved ch < c.shared.held.count ch := by
    rcases h with h | ⟨j, hj⟩
    · omega
    · obtain ⟨hzero, hclaimed⟩ := delivered_eq_zero hc hj
      omega
  obtain ⟨i, hi⟩ := handler_owed hc howed
  refine ⟨i, hi, fun j hj => ?_⟩
  exact (ind_unique (f := fun pc => pc.tokens.handles) fun S =>
    (handling_le hc ch S).trans hheld).1 j i hj hi

theorem payload_fate (hc : program.Reachable c) {n : Nat} (hn : n < c.shared.takes) :
    (∃ i, (c.thread i).tokens.outgoing.map Payload.ticket = some n) ∨ c.shared.mailed n = 1 ∨
      c.shared.receivedTicket n = 1 := by
  have hticket := ticket_le hc n ∅
  rw [Finset.sum_empty] at hticket
  by_cases hzero : c.shared.mailed n + c.shared.receivedTicket n = 0
  · exact .inl (ticket_owed hc hn hzero)
  · exact .inr (by omega)

theorem returned_last (hc : program.Reachable c) {n : Nat} (hn : n ∈ c.shared.returned) :
    c.shared.returned.count n = 1 ∧ c.shared.receivedTicket n = 1 ∧ c.shared.mailed n = 0 ∧
    ∀ i, (c.thread i).tokens.outgoing.map Payload.ticket ≠ some n ∧
      (c.thread i).tokens.incoming.map Payload.ticket ≠ some n := by
  have hpos : 0 < c.shared.returned.count n := List.count_pos_iff.2 hn
  have hticket := ticket_le hc n ∅
  have hreturned := returned_le hc n ∅
  rw [Finset.sum_empty] at hticket hreturned
  refine ⟨by omega, by omega, by omega, fun i => ⟨fun hi => ?_, fun hi => ?_⟩⟩
  · have houtgoing := ticket_le hc n {i}
    rw [Finset.sum_singleton, ind, if_pos hi] at houtgoing
    omega
  · have hincoming := returned_le hc n {i}
    rw [Finset.sum_singleton, ind, if_pos hi] at hincoming
    omega

theorem pooled_once (hc : program.Reachable c) {b : Nat} (hb : b ∈ c.shared.pool) :
    c.shared.pool.count b = 1 ∧ c.shared.mailedBuffer b = 0 ∧
    ∀ i, (c.thread i).tokens.outgoing.map Payload.buffer ≠ some b ∧
      (c.thread i).tokens.incoming.map Payload.buffer ≠ some b := by
  have hpos : 0 < c.shared.pool.count b := List.count_pos_iff.2 hb
  have hbuffer := buffer_le hc b ∅
  rw [Finset.sum_empty] at hbuffer
  refine ⟨by omega, by omega, fun i => ⟨fun hi => ?_, fun hi => ?_⟩⟩
  · have hused := buffer_le hc b {i}
    rw [Finset.sum_singleton, ind, if_pos hi] at hused
    omega
  · have hused := buffer_le hc b {i}
    rw [Finset.sum_singleton, ind, ind, if_pos hi] at hused
    omega

/-- **The slot of a long poll.** In every interleaving of polls, `send`, `writeNoop`, `close` and
    `release`. -/
theorem law_of_reachable (c : Pool World Pc) (hc : program.Reachable c) : Law c where
  resolved _ h := resolved_once hc h
  delivered := delivered_le hc
  unblocked _ _ _ _ h := put_unblocked hc h
  missed _ _ h := missed_payload hc h
  taken _ hn := payload_fate hc hn
  received n := by
    have hticket := ticket_le hc n ∅
    rw [Finset.sum_empty] at hticket
    omega
  awaited _ h := handler_awaits hc h
  returned _ hn := returned_last hc hn
  pooled _ hb := pooled_once hc hb

/-- A poll that is cancelled just after a `send` has claimed it: its handler has to wait for the payload,
    and one goroutine is about to deliver it. -/
theorem law_of_reachable_run :
    ∃ c, program.Reachable c ∧ c.thread 0 = .drain 0 ∧ c.thread 1 = .fill 0 [] none ∧ Law c := by
  have hrun : ∃ c, program.run ⟨{}, fun _ => .idle⟩
      [(0, .call .poll), (0, .go), (0, .go), (1, .call (.send [])), (1, .go), (0, .cancelled), (0, .go)] =
      some c ∧ c.thread 0 = .drain 0 ∧ c.thread 1 = .fill 0 [] none :=
    ⟨_, rfl, rfl, rfl⟩
  obtain ⟨c, hrun, hdrain, hfill⟩ := hrun
  have hc := Program.Reachable.run (.init rfl) hrun
  exact ⟨c, hc, hdrain, hfill, law_of_reachable c hc⟩

end EngineIo.Server.PollSlot
