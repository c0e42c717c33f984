import EngineIo.EndToEnd.Exchange

set_option autoImplicit false

/-! # The poll and the upgrade, seen from both ends

Where the packets of the session can be is decided by three agreements between the two ends. The
channel a poll is served on belongs to the poll that is outstanding, and gets one payload (`Slot`).
The session leaves long polling only after the client has sent the upgrade packet (`Order`). And from
the first frame of a flush on, no flush writes to the poll any more (`Writes`). -/

namespace EngineIo.EndToEnd

open Concurrency
open Server (Pc World Outgoing OutgoingStep)
open Client.Switchover (ProbeFrame frames)
open Client.Switchover renaming Frame → CallFrame, Choice → ClientChoice

variable {s s' : System}

/-! ## The sections of the server on the network -/

/-- The networks carry the same messages. -/
structure Network.Alike (net net' : Network) : Prop where
  poll : net'.poll = net.poll
  down : messages net'.down = messages net.down
  batch : net'.batch = net.batch
  delivered : net'.delivered = net.delivered

theorem Network.Alike.refl (net : Network) : net.Alike net := ⟨rfl, rfl, rfl, rfl⟩

/-- What a section of the server does to the packets, in the session and on the network. -/
inductive Traffic (v : Outgoing) (net : Network) (pc : Pc) : Outgoing → Network → Pc → Prop
  | other {accepted : List Packet} {net' : Network} {pc' : Pc} (hnet : net.Alike net')
      (hserving : pc'.serving = pc.serving) (hhold : ∀ ch, pc' ≠ .poll (.hold ch)) :
      Traffic v net pc { v with accepted } net' pc'
  | serve (hpoll : net.poll = .requested) :
      Traffic v net pc { v with channels := v.channels + 1 }
        { net with poll := .serving v.channels } (.poll (.hold v.channels))
  | hold {ch : Nat} (hpc : pc = .poll (.hold ch)) (h : v.dataCh = none) :
      Traffic v net pc { v with dataCh := some ch } net (.flush (.lock (.poll ch)))
  | refuse {ch : Nat} {pc' : Pc} (hpc : pc = .poll (.hold ch)) (hserving : pc'.serving = none) :
      Traffic v net pc v { net with poll := .answered none } pc'
  | claim {ch : Nat} {p : Packet} {net' : Network} {pc' : Pc} (hnet : net.Alike net')
      (hserving : pc'.serving = pc.serving) (hhold : ∀ ch, pc' ≠ .poll (.hold ch))
      (h : v.dataCh = some ch) (hp : messages [p] = []) :
      Traffic v net pc { v with dataCh := none, inbox := v.inbox ++ [(ch, [p])] } net' pc'
  | send {k : Server.Cont} {t : Transport} {packets : List Packet} {ch : Nat} {net' : Network}
      (hnet : net.Alike net') (hpc : pc = .flush (.send k t packets)) (ht : t.type = .polling)
      (h : v.dataCh = some ch) :
      Traffic v net pc
        { v with
          dataCh := none, inbox := v.inbox ++ [(ch, packets)], handed := v.handed ++ packets }
        net' (.flush (.endFlush k packets))
  | write {k : Server.Cont} (hpc : pc = .flush (.writeFrames k net.batch)) :
      Traffic v net pc { v with handed := v.handed ++ net.batch } { net with batch := [] }
        (.flush (.endFlush k net.batch))
  | respond {ch : Nat} {pc' : Pc} (hpc : pc = .poll (.await ch)) (h : ∃ m ∈ v.inbox, m.1 = ch)
      (hserving : pc'.serving = none) :
      Traffic v net pc v { net with poll := .answered (some (payload v.inbox ch)) } pc'

section

variable {v v' : Outgoing} {net net' : Network} {pc pc' : Pc} {a : Server.Choice}

/-- A section that is none of `handlePoll`, and not the end of a write. -/
theorem Traffic.of_alike (hout : OutgoingStep v pc a v' pc') (hnet : net.Alike net')
    (hserve : pc = .idle → a ≠ .call .poll) (hpoll : ∀ poll, pc ≠ .poll poll)
    (hwrite : ∀ k packets, pc ≠ .flush (.writeFrames k packets))
    (hhold : ∀ ch, pc' ≠ .poll (.hold ch)) : Traffic v net pc v' net' pc' := by
  cases hout with
  | quiet _ hserving =>
    show Traffic v net pc { v with accepted := v.accepted } net' pc'
    exact .other hnet hserving hhold
  | accept hp hserving =>
    refine .other hnet (hserving.trans ?_) hhold
    rcases hp with ⟨data, isBinary, rfl, -⟩ | ⟨rfl, -⟩ | rfl <;> rfl
  | claim _ hserving h hp =>
    exact .claim hnet hserving hhold h (by rcases hp with rfl | rfl <;> rfl)
  | send hpc ht h => exact .send hnet hpc ht h
  | serve hpc ha => exact absurd ha (hserve hpc)
  | write hpc => exact absurd hpc (hwrite _ _)
  | hold hpc | refuse hpc | respond hpc | cancel hpc => exact absurd hpc (hpoll _)

theorem traffic_of_server {w w' : World} (hx : Server.exec w pc a = some (w', pc'))
    (hnet : ServerNet net w pc a pc' net') : Traffic w.outgoing net pc w'.outgoing net' pc' := by
  have hout := Server.exec_outgoing hx
  have hentered := Server.exec_entered hx
  have hhold : a ≠ .call .poll → ∀ ch, pc' ≠ .poll (.hold ch) := by
    rintro ha ch rfl
    exact ha hentered.2
  generalize w'.outgoing = v' at hout ⊢
  cases hnet with
  | same _ hserve hpoll hwrite _ =>
    refine .of_alike hout (.refl net) hserve hpoll hwrite ?_
    rintro ch rfl
    exact hserve hentered.1 hentered.2
  | accept hpc ha =>
    subst hpc ha
    exact .of_alike hout ⟨rfl, rfl, rfl, rfl⟩ (by simp) (by simp) (by simp) (hhold (by simp))
  | probed hpc ha =>
    subst hpc ha
    refine .of_alike hout ⟨rfl, ?_, rfl, rfl⟩ (by simp) (by simp) (by simp) (hhold (by simp))
    exact (messages_append _ _).trans (List.append_nil _)
  | complete hpc ha =>
    subst hpc ha
    exact .of_alike hout ⟨rfl, rfl, rfl, rfl⟩ (by simp) (by simp) (by simp) (hhold (by simp))
  | serve hpc ha hrequested =>
    subst hpc ha
    cases hout with
    | serve => exact .serve hrequested
    | quiet haside | claim haside => exact absurd rfl haside.2.1
    | accept hp => simp at hp
    | write _ ha => cases ha
    | hold hpc | refuse hpc | send hpc | respond hpc | cancel hpc => cases hpc
  | hold hpc hpc' =>
    subst hpc hpc'
    cases hout with
    | hold hpc h =>
      cases hpc
      exact .hold rfl h
    | refuse _ hserving => cases hserving
    | quiet haside | claim haside => exact absurd rfl (haside.1 _)
    | accept hp => simp at hp
    | respond hpc | cancel hpc => cases hpc
  | refuse hpc hpc' =>
    subst hpc
    cases hout with
    | hold hpc =>
      cases hpc
      exact absurd rfl hpc'
    | refuse _ hserving => exact .refuse rfl hserving
    | quiet haside | claim haside => exact absurd rfl (haside.1 _)
    | accept hp => simp at hp
    | serve hpc | send hpc | write hpc | respond hpc | cancel hpc => cases hpc
  | respond hpc ha =>
    subst hpc ha
    cases hout with
    | respond hpc _ h hserving =>
      cases hpc
      exact .respond rfl h hserving
    | cancel _ ha => cases ha
    | quiet haside | claim haside => exact absurd rfl (haside.1 _)
    | accept hp => simp at hp
    | serve hpc | hold hpc | refuse hpc | send hpc | write hpc => cases hpc
  | written hpc ha =>
    subst hpc ha
    cases hout with
    | write hpc =>
      cases hpc
      exact .write rfl
    | quiet haside | claim haside => exact absurd rfl haside.2.2
    | accept hp => simp at hp
    | serve hpc | hold hpc | refuse hpc | send hpc | respond hpc | cancel hpc => cases hpc

end

/-! ## The poll -/

/-- Nothing has been put into the channel of a poll. -/
def Outgoing.Unfilled (v : Outgoing) (ch : Nat) : Prop := ∀ m ∈ v.inbox, m.1 ≠ ch

/-- The poll that is outstanding and the goroutines `T` of the server that serve it. -/
structure Slot (T : Nat → Pc) (v : Outgoing) (poll : Poll) : Prop where
  held : ∀ ch, v.dataCh = some ch → poll = .serving ch ∧ Outgoing.Unfilled v ch
  serving : ∀ i ch, (T i).serving = some ch → poll = .serving ch
  unique : ∀ i j, (T i).serving.isSome = true → (T j).serving.isSome = true → i = j
  fresh : ∀ i ch, T i = .poll (.hold ch) → v.dataCh = none ∧ Outgoing.Unfilled v ch
  known : ∀ ch, poll = .serving ch → ch < v.channels
  channels : ∀ m ∈ v.inbox, m.1 < v.channels

section

variable {T : Nat → Pc} {v v' : Outgoing} {poll poll' : Poll} {net net' : Network} {pc' : Pc}
  {i : Nat}

/-- A poll that is not being served comes and goes. -/
theorem Slot.of_unserved (hS : Slot T v poll) (h : ∀ ch, poll ≠ .serving ch)
    (h' : ∀ ch, poll' ≠ .serving ch) : Slot T v poll' where
  held ch hch := absurd (hS.held ch hch).1 (h ch)
  serving i ch hi := absurd (hS.serving i ch hi) (h ch)
  unique := hS.unique
  fresh := hS.fresh
  known ch hch := absurd hch (h' ch)
  channels := hS.channels

/-- While a goroutine waits for its poll to be held no other is served. -/
theorem Slot.alone (hS : Slot T v poll) {ch : Nat} (hi : (T i).serving = some ch) {j : Nat}
    (hj : j ≠ i) : (T j).serving = none := by
  cases h : (T j).serving with
  | none => rfl
  | some ch' => exact absurd (hS.unique j i (by rw [h]; rfl) (by rw [hi]; rfl)) hj

theorem hold_of_update (hhold : ∀ ch, pc' ≠ .poll (.hold ch)) {j ch : Nat}
    (hj : Function.update T i pc' j = .poll (.hold ch)) : j ≠ i ∧ T j = .poll (.hold ch) := by
  by_cases hji : j = i
  · rw [hji, Function.update_self] at hj
    exact absurd hj (hhold ch)
  · rw [Function.update_of_ne hji] at hj
    exact ⟨hji, hj⟩

/-- A section that serves what it served before. -/
theorem Slot.of_same (hS : Slot T v poll) (hserving : pc'.serving = (T i).serving)
    (hheld : ∀ ch, v'.dataCh = some ch → poll = .serving ch ∧ Outgoing.Unfilled v' ch)
    (hfresh : ∀ j ch, Function.update T i pc' j = .poll (.hold ch) →
      v'.dataCh = none ∧ Outgoing.Unfilled v' ch)
    (hchannels : v'.channels = v.channels) (hinbox : ∀ m ∈ v'.inbox, m.1 < v.channels) :
    Slot (Function.update T i pc') v' poll := by
  have hT : ∀ j, (Function.update T i pc' j).serving = (T j).serving := by
    intro j
    by_cases hj : j = i
    · rw [hj, Function.update_self, hserving]
    · rw [Function.update_of_ne hj]
  refine ⟨hheld, fun j ch hj => ?_, fun j k hj hk => ?_, hfresh, fun ch hch => ?_, fun m hm => ?_⟩
  · exact hS.serving j ch ((hT j).symm.trans hj)
  · rw [hT] at hj hk
    exact hS.unique j k hj hk
  · rw [hchannels]
    exact hS.known ch hch
  · rw [hchannels]
    exact hinbox m hm

/-- The poll has its answer, or its refusal. -/
theorem Slot.of_served (hS : Slot T v poll) {ch : Nat} (hi : (T i).serving = some ch)
    (hnone : pc'.serving = none) (hdata : v.dataCh = none) (hpoll' : ∀ ch, poll' ≠ .serving ch) :
    Slot (Function.update T i pc') v poll' := by
  have hT : ∀ j, (Function.update T i pc' j).serving = none := by
    intro j
    by_cases hj : j = i
    · rw [hj, Function.update_self, hnone]
    · rw [Function.update_of_ne hj]
      exact hS.alone hi hj
  refine ⟨fun ch hch => ?_, fun j ch hj => ?_, fun j k hj => ?_, fun j ch hj => ?_,
    fun ch hch => absurd hch (hpoll' ch), hS.channels⟩
  · rw [hdata] at hch
    cases hch
  · rw [hT] at hj
    cases hj
  · rw [hT] at hj
    cases hj
  · have hnone := hT j
    rw [hj] at hnone
    cases hnone

/-- Putting a payload into the channel that is held. -/
theorem Slot.fill (hS : Slot T v poll) (hserving : pc'.serving = (T i).serving) {ch : Nat}
    (hhold : ∀ ch, pc' ≠ .poll (.hold ch)) (h : v.dataCh = some ch) {packets handed : List Packet} :
    Slot (Function.update T i pc')
      { v with dataCh := none, inbox := v.inbox ++ [(ch, packets)], handed } poll := by
  refine hS.of_same hserving (fun _ h => by cases h) (fun j ch' hj => ?_) rfl ?_
  · have hnone := (hS.fresh j ch' (hold_of_update hhold hj).2).1
    rw [h] at hnone
    cases hnone
  · exact List.forall_mem_append.2
      ⟨hS.channels, List.forall_mem_singleton.2 (hS.known ch (hS.held ch h).1)⟩

theorem Slot.traffic (hS : Slot T v net.poll) (h : Traffic v net (T i) v' net' pc') :
    Slot (Function.update T i pc') v' net'.poll := by
  cases h with
  | other hnet hserving hhold =>
    rw [hnet.poll]
    exact hS.of_same hserving hS.held (fun j ch hj => hS.fresh j ch (hold_of_update hhold hj).2) rfl
      hS.channels
  | serve hrequested =>
    have hT : ∀ j, (T j).serving = none := by
      intro j
      cases hj : (T j).serving with
      | none => rfl
      | some ch => cases hrequested.symm.trans (hS.serving j ch hj)
    have hdata : v.dataCh = none := by
      cases hch : v.dataCh with
      | none => rfl
      | some ch => cases hrequested.symm.trans (hS.held ch hch).1
    have hnew : ∀ j ch, (Function.update T i (.poll (.hold v.channels)) j).serving = some ch →
        j = i ∧ ch = v.channels := by
      intro j ch hj
      by_cases hji : j = i
      · rw [hji, Function.update_self] at hj
        exact ⟨hji, (Option.some.inj hj).symm⟩
      · rw [Function.update_of_ne hji, hT] at hj
        cases hj
    refine ⟨fun ch hch => ?_, fun j ch hj => ?_, fun j k hj hk => ?_, fun j ch hj => ?_, ?_, ?_⟩
    · rw [hdata] at hch
      cases hch
    · rw [(hnew j ch hj).2]
    · obtain ⟨ch, hch⟩ := Option.isSome_iff_exists.1 hj
      obtain ⟨ch', hch'⟩ := Option.isSome_iff_exists.1 hk
      rw [(hnew j ch hch).1, (hnew k ch' hch').1]
    · refine ⟨hdata, fun m hm => ?_⟩
      rw [(hnew j ch (by rw [hj]; rfl)).2]
      exact (hS.channels m hm).ne
    · rintro ch ⟨⟩
      exact Nat.lt_succ_self _
    · exact fun m hm => Nat.lt_succ_of_lt (hS.channels m hm)
  | @hold ch hpc h =>
    have hi : (T i).serving = some ch := by rw [hpc]; rfl
    refine hS.of_same hi.symm ?_ (fun j ch' hj => ?_) rfl hS.channels
    · rintro ch' ⟨⟩
      exact ⟨hS.serving i ch hi, (hS.fresh i ch hpc).2⟩
    · obtain ⟨hji, hj⟩ := hold_of_update (by simp) hj
      have hnone := hS.alone hi hji
      rw [hj] at hnone
      cases hnone
  | refuse hpc hserving =>
    exact hS.of_served (by rw [hpc]; rfl) hserving (hS.fresh i _ hpc).1 (by simp)
  | claim hnet hserving hhold h hp =>
    rw [hnet.poll]
    exact hS.fill hserving hhold h
  | send hnet hpc ht h =>
    rw [hnet.poll]
    exact hS.fill (by rw [hpc]; rfl) (by simp) h
  | write hpc =>
    exact hS.of_same (by rw [hpc]; rfl) hS.held
      (fun j ch hj => hS.fresh j ch (hold_of_update (by simp) hj).2) rfl hS.channels
  | @respond ch _ hpc hm hserving =>
    have hi : (T i).serving = some ch := by rw [hpc]; rfl
    refine hS.of_served hi hserving ?_ (by simp)
    cases hch : v.dataCh with
    | none => rfl
    | some ch' =>
      obtain ⟨hpoll, hempty⟩ := hS.held ch' hch
      obtain ⟨m, hm, rfl⟩ := hm
      cases hpoll.symm.trans (hS.serving i _ hi)
      exact absurd rfl (hempty m hm)

theorem Slot.idle (hS : Slot T v net.poll) (h : Traffic v net (T i) v' net' pc')
    (hidle : net.poll = .idle) : net'.poll = .idle := by
  have hserving : ∀ ch, (T i).serving ≠ some ch := by
    intro ch hi
    cases hidle.symm.trans (hS.serving i ch hi)
  cases h with
  | other hnet | claim hnet | send hnet => rw [hnet.poll, hidle]
  | serve hrequested => cases hidle.symm.trans hrequested
  | hold | write => exact hidle
  | refuse hpc => exact absurd (by rw [hpc]; rfl) (hserving _)
  | respond hpc => exact absurd (by rw [hpc]; rfl) (hserving _)

end

theorem exec_pollRequest_choice {w w' : Client.Switchover.World} {a : ClientChoice}
    {fs : List CallFrame} (h : Client.Switchover.exec w .pollRequest a = some (w', fs)) :
    ∃ r, a = .polled r := by
  cases a with
  | polled r => exact ⟨r, rfl⟩
  | _ => cases h

/-- The client has at most one poll outstanding. -/
theorem Reaches.poll_idle (h : Reaches s) {i : Nat} {rest : List CallFrame}
    (hi : s.client.thread i = .pollCheck :: rest)
    (hpoll : s.net.poll = .idle ∨ ∃ j, s.client.thread j = [.pollRequest]) :
    s.net.poll = .idle := by
  refine hpoll.resolve_right ?_
  rintro ⟨j, hj⟩
  have hij : i ≠ j := by
    rintro rfl
    cases hi.symm.trans hj
  have hcount := (Client.Switchover.reach_counters h.client {i, j}).1
  rw [Finset.sum_pair hij, hi, hj] at hcount
  simp [Client.Switchover.Frame.polls] at hcount
  omega

/-- **The poll.** An outstanding poll has a goroutine that sent it and, if it is being served, one
    goroutine of the server that does so, on a channel that gets one payload. -/
theorem Reaches.slot (h : Reaches s) :
    (s.net.poll = .idle ∨ ∃ i, s.client.thread i = [.pollRequest]) ∧
      Slot s.server.thread s.server.shared.outgoing s.net.poll := by
  refine h.invariant (P := fun s => (s.net.poll = .idle ∨ ∃ i, s.client.thread i = [.pollRequest]) ∧
    Slot s.server.thread s.server.shared.outgoing s.net.poll) ?_ ?_
  · rintro s ⟨hserver, -, -, hnet⟩
    obtain ⟨server, client, net⟩ := s
    cases hserver
    cases hnet
    exact ⟨.inl rfl, nofun, nofun, nofun, nofun, nofun, nofun⟩
  · rintro s s' hs ⟨hpoller, hS⟩ hstep -
    cases hstep with
    | server hx hnet =>
      have htraffic := traffic_of_server hx hnet
      exact ⟨hpoller.imp_left (hS.idle htraffic), hS.traffic htraffic⟩
    | @client i a w' l' net hx hnet =>
      have hkeep : (∀ rest, s.client.thread i ≠ .pollRequest :: rest) → s.net.poll = .idle ∨
          ∃ j, Function.update s.client.thread i l' j = [.pollRequest] := by
        intro hi
        refine hpoller.imp_right fun ⟨j, hj⟩ => ⟨j, ?_⟩
        have hji : j ≠ i := by
          rintro rfl
          exact hi [] hj
        rw [Function.update_of_ne hji, hj]
      cases hnet with
      | request hl hl' =>
        have hidle := hs.poll_idle hl hpoller
        exact ⟨.inr ⟨i, (Function.update_self ..).trans hl'⟩,
          hS.of_unserved (by simp [hidle]) (by simp)⟩
      | respond hl ha hpoll => exact ⟨.inl rfl, hS.of_unserved (by simp [hpoll]) (by simp)⟩
      | same _ _ hrequest =>
        refine ⟨hkeep fun rest hl => ?_, hS⟩
        rw [hl] at hx
        obtain ⟨fs, hfs, -⟩ := Frames.step_cons hx
        obtain ⟨r, ha⟩ := exec_pollRequest_choice hfs
        exact hrequest rest r hl ha
      | frame hl | probed hl | dial hl | upgrade hl => exact ⟨hkeep (by simp [hl]), hS⟩
    | writeFrame => exact ⟨hpoller, hS⟩
    | refuse hrequested =>
      refine ⟨.inr (hpoller.resolve_left ?_), hS.of_unserved ?_ ?_⟩
      · simp [hrequested]
      · simp [hrequested]
      · simp

/-! ## The order of an upgrade -/

/-- The session leaves long polling only after the upgrade packet, which is the last thing that a
    probe sends; and the client probes once. -/
structure Order (s : System) : Prop where
  early : s.net.upgradeSent = false → (∀ p ∈ s.net.up, p.type ≠ .upgrade) ∧
    (∀ i t, s.server.thread i ≠ .upgrade (.beginCompleteUpgrade t)) ∧ s.server.shared.onPolling
  pending : ∀ i, (s.client.thread i).any CallFrame.pending = true →
    s.net.dialled = true ∧ s.net.upgradeSent = false
  dialled : s.net.upgradeSent = true → s.net.dialled = true

theorem Order.server (hO : Order s) {i : Nat} {a : Server.Choice} {w' : World} {pc' : Pc}
    {net : Network} (hx : Server.exec s.server.shared (s.server.thread i) a = some (w', pc'))
    (hnet : ServerNet s.net s.server.shared (s.server.thread i) a pc' net)
    (hopen : w'.sock.state = .opening ∨ w'.sock.state = .open) :
    Order { s with server := ⟨w', Function.update s.server.thread i pc'⟩, net } := by
  have hsent : net.upgradeSent = s.net.upgradeSent ∧ net.dialled = s.net.dialled ∧
      ∀ p ∈ net.up, p ∈ s.net.up := by
    cases hnet with
    | probed _ _ h | complete _ _ h =>
      rw [h]
      exact ⟨rfl, rfl, fun p hp => List.mem_cons_of_mem _ hp⟩
    | _ => exact ⟨rfl, rfl, fun _ hp => hp⟩
  obtain ⟨hsent, hdialled, hup⟩ := hsent
  refine ⟨fun hfalse => ?_, fun j hj => ?_, fun htrue => ?_⟩
  · obtain ⟨hpackets, hthreads, hpolling⟩ := hO.early (hsent.symm.trans hfalse)
    refine ⟨fun p hp => hpackets p (hup p hp), ?_, ?_⟩
    · refine (Function.forall_update_iff _ fun _ (pc : Pc) =>
        ∀ t, pc ≠ .upgrade (.beginCompleteUpgrade t)).2 ⟨?_, fun j _ => hthreads j⟩
      rintro t rfl
      obtain ⟨hpc, ha⟩ := Server.exec_entered hx
      rw [hpc, ha] at hnet
      cases hnet with
      | same _ _ _ _ hcomplete => exact hcomplete t rfl rfl
      | complete _ _ h hp =>
        rw [h] at hpackets
        exact hpackets _ (List.mem_cons_self ..) hp
      | accept _ h | serve _ h | probed _ h => cases h
      | hold h | refuse h | respond h | written h => cases h
    · rcases Server.exec_transport hx with ht | hclosed | ⟨t, hpc⟩
      · show w'.sock.transport.map _ = _
        rw [ht]
        exact hpolling
      · rw [hclosed] at hopen
        rcases hopen with hopen | hopen <;> cases hopen
      · exact absurd hpc (hthreads i t)
  · have := hO.pending j hj
    exact ⟨hdialled.trans this.1, hsent.trans this.2⟩
  · exact hdialled.trans (hO.dialled (hsent.symm.trans htrue))

theorem Order.client (hs : Reaches s) (hO : Order s) {i : Nat} {a : ClientChoice}
    {w' : Client.Switchover.World} {l' : List CallFrame} {net : Network} {delivered : List Packet}
    (hx : frames.step s.client.shared (s.client.thread i) a = some (w', l'))
    (hnet : ClientNet s.net (s.client.thread i) a l' net) :
    Order
      { s with
        client := ⟨w', Function.update s.client.thread i l'⟩, net := { net with delivered } } := by
  -- a section that neither dials nor sends the upgrade packet
  have hother : net.upgradeSent = s.net.upgradeSent → net.dialled = s.net.dialled →
      net.up = s.net.up → ¬ ((s.client.thread i).head? = some (.probe .next) ∧ a = .dialled) →
      Order
        { s with
          client := ⟨w', Function.update s.client.thread i l'⟩, net := { net with delivered } } := by
    intro hsent hdialled hup hnodial
    refine ⟨fun hfalse => ?_, fun j hj => ?_, fun htrue => ?_⟩
    · show (∀ p ∈ net.up, _) ∧ _
      rw [hup]
      exact hO.early (hsent.symm.trans hfalse)
    · have hpending : ∃ j, (s.client.thread j).any CallFrame.pending = true := by
        by_cases hji : j = i
        · rw [hji] at hj
          simp only [Function.update_self] at hj
          exact ⟨i, (Client.Switchover.step_pending hx hj).resolve_left hnodial⟩
        · simp only [Function.update_of_ne hji] at hj
          exact ⟨j, hj⟩
      obtain ⟨k, hk⟩ := hpending
      exact ⟨hdialled.trans (hO.pending k hk).1, hsent.trans (hO.pending k hk).2⟩
    · exact hdialled.trans (hO.dialled (hsent.symm.trans htrue))
  cases hnet with
  | same _ _ _ _ hdial =>
    refine hother rfl rfl rfl fun ⟨hhead, ha⟩ => ?_
    obtain ⟨rest, hl⟩ := List.head?_eq_some_iff.1 hhead
    exact hdial rest hl ha
  | request hl | respond hl | frame hl | probed hl => exact hother rfl rfl rfl (by simp [hl])
  | dial hl ha hundialled =>
    have hunsent : s.net.upgradeSent = false := by
      cases hsent : s.net.upgradeSent with
      | false => rfl
      | true => cases hundialled.symm.trans (hO.dialled hsent)
    obtain ⟨hpackets, hrest⟩ := hO.early hunsent
    exact ⟨fun _ => ⟨List.forall_mem_append.2
      ⟨hpackets, List.forall_mem_singleton.2 (by decide)⟩, hrest⟩, fun _ _ => ⟨rfl, hunsent⟩,
      fun _ => rfl⟩
  | @upgrade t old rest hl ha =>
    have hpending : (s.client.thread i).any CallFrame.pending = true := by rw [hl]; rfl
    refine ⟨nofun, fun j hj => ?_, fun _ => (hO.pending i hpending).1⟩
    -- the probe goes on to pause the polling transport
    by_cases hji : j = i
    · rw [hji] at hj
      simp only [Function.update_self] at hj
      rw [hl, ha] at hx
      have hstack := (Client.Switchover.reach_steady hs.client).2 i
      rw [hl] at hstack
      obtain rfl := hstack.below rfl
      cases hx
      cases hj
    · simp only [Function.update_of_ne hji] at hj
      rw [Client.Switchover.pending_unique hs.client hji
        (Client.Switchover.probes_of_pending hpending)] at hj
      cases hj

/-- **The order of an upgrade.** -/
theorem Reaches.order (h : Reaches s) : Order s := by
  refine h.invariant ?_ ?_
  · rintro s ⟨hserver, -, hidle, hnet⟩
    obtain ⟨server, client, net⟩ := s
    cases hserver
    cases hnet
    refine ⟨fun _ => ⟨nofun, nofun, rfl⟩, fun i hi => ?_, nofun⟩
    rw [hidle i] at hi
    cases hi
  · intro s s' hs hO hstep hopen
    cases hstep with
    | server hx hnet => exact hO.server hx hnet hopen.2
    | client hx hnet => exact hO.client hs hx hnet
    | writeFrame | refuse => exact ⟨hO.early, hO.pending, hO.dialled⟩

/-! ## The frames of a flush -/

/-- Once a flush has written a frame, no flush writes to the poll; before, there are no messages on
    the websocket. The frames of the write in progress are those of the flush that is writing. -/
structure Writes (s : System) : Prop where
  committed : s.net.committed = true → ¬ s.server.shared.onPolling ∧
    ∀ i k t packets, s.server.thread i = .flush (.send k t packets) → t.type ≠ .polling
  uncommitted : s.net.committed = false → s.net.batch = [] ∧ messages s.net.down = []
  batch : s.net.batch = [] ∨ ∃ i k packets,
    s.server.thread i = .flush (.writeFrames k packets) ∧ s.net.batch <+: packets

/-- Two flushes do not both hold a snapshot. -/
theorem Reaches.loaded_unique (h : Reaches s) {i j : Nat} {ps qs : List Packet}
    (hi : (s.server.thread i).stage = .loaded ps) (hj : (s.server.thread j).stage = .loaded qs) :
    i = j := by
  by_contra hij
  rcases (Server.reach_sound h.server).2.2 i j hij with h | h
  · rw [hi] at h
    cases h
  · rw [hj] at h
    cases h

theorem Writes.server (hs : Reaches s) (hW : Writes s) {i : Nat} {a : Server.Choice} {w' : World}
    {pc' : Pc} {net : Network}
    (hx : Server.exec s.server.shared (s.server.thread i) a = some (w', pc'))
    (hnet : ServerNet s.net s.server.shared (s.server.thread i) a pc' net) :
    Writes { s with server := ⟨w', Function.update s.server.thread i pc'⟩, net } := by
  have hcommitted : net.committed = s.net.committed := by cases hnet <;> rfl
  refine ⟨fun htrue => ?_, fun hfalse => ?_, ?_⟩
  · obtain ⟨hpolling, hsends⟩ := hW.committed (hcommitted.symm.trans htrue)
    refine ⟨Server.exec_not_onPolling (Server.reach_handover hs.server) hx hpolling, ?_⟩
    refine (Function.forall_update_iff _ fun _ (pc : Pc) =>
      ∀ k t packets, pc = .flush (.send k t packets) → t.type ≠ .polling).2
      ⟨?_, fun j _ => hsends j⟩
    rintro k t packets rfl ht
    refine hpolling ?_
    show s.server.shared.sock.transport.map _ = _
    rw [(Server.exec_entered hx).2, Option.map_some, ht]
  · obtain ⟨hbatch, hdown⟩ := hW.uncommitted (hcommitted.symm.trans hfalse)
    cases hnet with
    | probed =>
      refine ⟨hbatch, ?_⟩
      show messages (s.net.down ++ [probePong]) = []
      rw [messages_append, hdown]
      rfl
    | written => exact ⟨rfl, hdown⟩
    | _ => exact ⟨hbatch, hdown⟩
  · have hkeep : (∀ k packets, s.server.thread i ≠ .flush (.writeFrames k packets)) →
        s.net.batch = [] ∨ ∃ j k packets, Function.update s.server.thread i pc' j =
          .flush (.writeFrames k packets) ∧ s.net.batch <+: packets := by
      intro hi
      refine hW.batch.imp_right fun ⟨j, k, packets, hj, hprefix⟩ => ⟨j, k, packets, ?_, hprefix⟩
      have hji : j ≠ i := by
        rintro rfl
        exact hi k packets hj
      rw [Function.update_of_ne hji, hj]
    cases hnet with
    | same _ _ _ hwrite => exact hkeep hwrite
    | written => exact .inl rfl
    | accept hpc | serve hpc | probed hpc | complete hpc | hold hpc | refuse hpc | respond hpc =>
      exact hkeep (by simp [hpc])

theorem Writes.client (hW : Writes s) {i : Nat} {a : ClientChoice}
    {c : Pool Client.Switchover.World (List CallFrame)} {l' : List CallFrame} {net : Network}
    {delivered : List Packet} (hnet : ClientNet s.net (s.client.thread i) a l' net) :
    Writes { s with client := c, net := { net with delivered } } := by
  obtain ⟨hcommitted, huncommitted, hbatch⟩ := hW
  cases hnet with
  | frame _ _ h | probed _ h =>
    refine ⟨hcommitted, fun hfalse => ?_, hbatch⟩
    obtain ⟨hbatch, hdown⟩ := huncommitted hfalse
    rw [h, messages_cons] at hdown
    exact ⟨hbatch, (List.append_eq_nil_iff.1 hdown).2⟩
  | _ => exact ⟨hcommitted, huncommitted, hbatch⟩

theorem Writes.writeFrame (hs : Reaches s) (hW : Writes s) {i : Nat} {k : Server.Cont}
    {packets rest : List Packet} {p : Packet}
    (hpc : s.server.thread i = .flush (.writeFrames k packets))
    (hp : packets.drop s.net.batch.length = p :: rest) :
    Writes
      { s with net := { s.net with
        batch := s.net.batch ++ [p], down := s.net.down ++ [p], committed := true } } := by
  have hi : (s.server.thread i).stage = .loaded packets := by rw [hpc]; rfl
  refine ⟨fun _ => ⟨?_, fun j k' t qs hj => ?_⟩, nofun, .inr ⟨i, k, packets, hpc, ?_⟩⟩
  · exact Server.reach_departs hs.server (i := i) (by rw [hpc]; trivial)
  · have hloaded : (s.server.thread j).stage = .loaded qs := by rw [hj]; rfl
    obtain rfl := hs.loaded_unique hi hloaded
    cases hpc.symm.trans hj
  · have hprefix : s.net.batch <+: packets := by
      rcases hW.batch with hnil | ⟨j, k', qs, hj, hprefix⟩
      · rw [hnil]
        exact List.nil_prefix
      · have hloaded : (s.server.thread j).stage = .loaded qs := by rw [hj]; rfl
        obtain rfl := hs.loaded_unique hi hloaded
        cases hpc.symm.trans hj
        exact hprefix
    obtain ⟨tail, rfl⟩ := hprefix
    rw [List.drop_left] at hp
    exact ⟨rest, by rw [hp, List.append_assoc]; rfl⟩

/-- **The frames of a flush.** -/
theorem Reaches.writes (h : Reaches s) : Writes s := by
  refine h.invariant ?_ ?_
  · rintro s ⟨hserver, -, -, hnet⟩
    obtain ⟨server, client, net⟩ := s
    cases hserver
    cases hnet
    exact ⟨nofun, fun _ => ⟨rfl, rfl⟩, .inl rfl⟩
  · intro s s' hs hW hstep _
    cases hstep with
    | server hx hnet => exact hW.server hs hx hnet
    | client hx hnet => exact hW.client hnet
    | writeFrame hpc hp => exact hW.writeFrame hs hpc hp
    | refuse => exact ⟨hW.committed, hW.uncommitted, hW.batch⟩

end EngineIo.EndToEnd
