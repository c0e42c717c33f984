import EngineIo.Concurrency.Counter
import EngineIo.Server.Closing
import EngineIo.Server.Http
import EngineIo.Server.ReadLoop

set_option autoImplicit false

/-! # Inbound packets and the close handler (`server.go`, `server_socket.go`)

Packets come in by three ways: the POSTs, of which any number run at a time, and the read loops of a
websocket and of a webtransport connection. All of them hand each packet to `handlePacket`. For a message it
reads the handler in one section, whatever the state of the session, and calls it afterwards; a POST goes on
with its next packet without looking at the session again. So a message handler may run behind the close
handler in two ways: it was looked up when the session was closed already, or it was looked up before and is
called late. These are the only ways. -/

namespace EngineIo.Server.Inbound

open Concurrency

/-! ## Model -/

/-- The calls of the application's handlers. -/
inductive Event
  | message (p : Packet)
  | close (reason : Reason)
deriving DecidableEq, Repr

def Event.isMessage : Event → Bool
  | .message _ => true
  | .close _ => false

structure State where
  world : World
  /-- Whether a message handler is registered. -/
  onMessageHandler : Bool := false
  /-- How many message handlers have been looked up and not been called yet. -/
  called : Nat := 0
  events : List Event := []

/-- `ps` are the packets still to be dispatched, and `t` is the transport of the read loop that dispatches
    them; there is none for a POST. -/
inductive Pc
  | idle
  | read (t : Transport)
  | dispatch (ps : List Packet) (t : Option Transport)
  /-- `deliverMessage` has looked up the handler. -/
  | invoke (p : Packet) (ps : List Packet) (t : Option Transport)
  | session (pc : Server.Pc) (ps : List Packet) (t : Option Transport)
deriving DecidableEq, Repr

inductive Choice
  | go
  | post (p : Post)
  | read (t : Transport)
  | onMessage (registered : Bool)
  /-- A websocket frame, or a failed read; whether the transport is still probing is left open. -/
  | frame (probing : Bool) (frame : Option Frame)
  /-- The bytes from which the next webtransport packet is read. -/
  | stream (probing : Bool) (bytes : List UInt8)
  | session (a : Server.Choice)
deriving DecidableEq, Repr

/-- `closeWithReason`, and then the rest of the packets. -/
def closeWithReason (reason : Reason) (ps : List Packet) (t : Option Transport) : Pc :=
  .session (.teardown (.beginTeardown reason .done)) ps t

/-- `handlePacket`. -/
def handlePacket (s : State) (p : Packet) (ps : List Packet) (t : Option Transport) : State × Pc :=
  if p.type = .pong then (s, .session .onPong ps t)
  else if p.type = .message then
    if s.onMessageHandler then ({ s with called := s.called + 1 }, .invoke p ps t)
    else (s, .dispatch ps t)
  else if p.type = .close then (s, closeWithReason .transportClose ps t)
  else (s, .dispatch ps t)

/-- `handleProbePacket`. The `onProbe` that answers a ping starts a ticker and is one of the calls that a session
    may get at any time. -/
def handleProbePacket (t : Transport) (p : Packet) : Pc :=
  if p.type = .upgrade then .session (.upgrade (.beginCompleteUpgrade t)) [] (some t) else .read t

/-- The rest of a turn of a read loop; a panic ends the process. -/
def execTurn (s : State) (t : Transport) : Turn → Option (State × Pc)
  | .dispatch p => some (s, .dispatch [p] (some t))
  | .probe p => some (s, handleProbePacket t p)
  | .exit => some (s, .idle)
  | .abortUpgrade => some (s, .session (.upgrade (.beginAbortUpgrade t)) [] none)
  | .close reason => some (s, closeWithReason reason [] none)
  | .panic => none

/-- A section of the session, and the calls of the close handler in it. -/
def execSession (s : State) (pc : Server.Pc) (ps : List Packet) (t : Option Transport)
    (a : Server.Choice) : Option (State × Pc) :=
  match Server.exec s.world pc a with
  | none => none
  | some (w, pc') =>
    some ({ s with
        world := w
        events := s.events ++ (w.closeReasons.drop s.world.closeReasons.length).map .close },
      if pc' = .idle then .dispatch ps t else .session pc' ps t)

def exec (maxPayload : Int) (s : State) : Pc → Choice → Option (State × Pc)
  | .idle, .post p =>
    match handleSend maxPayload p with
    | .badRequest (some reason) => some (s, closeWithReason reason [] none)
    | .badRequest none | .entityTooLarge => some (s, .idle)
    | .ok packets => some (s, .dispatch packets none)
  | .idle, .read t => some (s, .read t)
  | .idle, .onMessage registered => some ({ s with onMessageHandler := registered }, .idle)
  | .idle, .session a => execSession s .idle [] none a
  | .read t, .frame probing frame =>
    if t.type = .websocket then
      execTurn s t (webSocketTurn (decide (t ∈ s.world.closed)) probing frame)
    else none
  | .read t, .stream probing bytes =>
    if t.type = .webtransport then
      execTurn s t (webTransportTurn (decide (t ∈ s.world.closed)) probing maxPayload bytes).1
    else none
  | .dispatch [] none, .go => some (s, .idle)
  | .dispatch [] (some t), .go => some (s, .read t)
  | .dispatch (p :: ps) t, .go => some (handlePacket s p ps t)
  | .invoke p ps t, .go =>
    some ({ s with called := s.called - 1, events := s.events ++ [.message p] }, .dispatch ps t)
  | .session pc ps t, .session a => execSession s pc ps t a
  | _, _ => none

/-- Any number of goroutines on a fresh session. -/
def program (maxPayload : Int) : Program State Pc Choice where
  init s := s.world.Fresh ∧ s.called = 0 ∧ s.events = []
  idle := .idle
  exec := exec maxPayload

/-- No message handler is looked up on a closed session, and the close handler is not called while one that was
    looked up has yet to be called. -/
def orderly (s : State) (l : Pc) : Bool :=
  match l with
  | .dispatch (p :: _) _ => p.type ≠ .message || !s.onMessageHandler || s.world.sock.state ≠ .closed
  | .session pc _ _ => pc.phase ≠ .reporting || s.called = 0
  | _ => true

def Orderly (s : State) (l : Pc) (_ : Choice) : Prop := orderly s l = true

instance (s : State) (l : Pc) (a : Choice) : Decidable (Orderly s l a) := by
  unfold Orderly
  infer_instance

/-! ## The outline -/

/-- Once the close handler has been called, the session is closed and no message handler is pending. -/
structure State.Sound (s : State) : Prop where
  closed : s.world.closeReasons ≠ [] → s.world.sock.state = .closed ∧ s.called = 0
  reported : ∀ reason, .close reason ∈ s.events → s.world.closeReasons ≠ []
  ordered : s.events.Pairwise fun e e' => e.isMessage = false → e'.isMessage = false

/-- Whoever has claimed the teardown has found the session closed. -/
def Pc.Claims (s : State) : Pc → Prop
  | .session pc _ _ => pc.phase ≠ .outside → s.world.sock.state = .closed
  | _ => True

/-- One unit for a handler that was looked up. -/
def Pc.calls : Pc → Nat
  | .invoke .. => 1
  | _ => 0

/-- A goroutine that neither is about to call a handler nor has claimed a teardown. -/
def Pc.Plain (l : Pc) : Prop := l.calls = 0 ∧ ∀ s, l.Claims s

theorem Pc.plain_session {pc : Server.Pc} {ps : List Packet} {t : Option Transport}
    (h : pc.phase = .outside) : (Pc.session pc ps t).Plain := ⟨rfl, fun _ hne => absurd h hne⟩

theorem Pc.plain_dispatch {ps : List Packet} {t : Option Transport} : (Pc.dispatch ps t).Plain :=
  ⟨rfl, fun _ => trivial⟩

/-- What a section does to the handlers. -/
inductive Step (s : State) (l : Pc) (s' : State) (l' : Pc) : Prop
  | plain (hw : s'.world = s.world) (hc : s'.called = s.called) (he : s'.events = s.events)
      (hl : l.calls = 0) (hl' : l'.Plain)
  /-- `deliverMessage` looks up the handler. -/
  | lookup (p : Packet) (ps : List Packet) (t : Option Transport) (hl : l = .dispatch (p :: ps) t)
      (hp : p.type = .message) (hhandler : s.onMessageHandler = true) (hs : s' = { s with called := s.called + 1 })
      (hl' : l' = .invoke p ps t)
  | invoke (p : Packet) (ps : List Packet) (t : Option Transport) (hl : l = .invoke p ps t)
      (hs : s' = { s with called := s.called - 1, events := s.events ++ [.message p] })
      (hl' : l'.Plain)
  | session (pc pc' : Server.Pc) (hl : l.calls = 0)
      (hpc : pc.phase = .outside ∨ ∃ ps t, l = .session pc ps t)
      (hx : CloseStep s.world pc s'.world pc') (hc : s'.called = s.called)
      (he : s'.events =
        s.events ++ (s'.world.closeReasons.drop s.world.closeReasons.length).map .close)
      (hl' : l'.Plain ∨ ∃ ps t, l' = .session pc' ps t)

variable {s s' : State} {l l' : Pc}

theorem handlePacket_step (p : Packet) (ps : List Packet) (t : Option Transport) :
    Step s (.dispatch (p :: ps) t) (handlePacket s p ps t).1 (handlePacket s p ps t).2 := by
  unfold handlePacket
  split
  · exact .plain rfl rfl rfl rfl (Pc.plain_session rfl)
  · split
    · next hp =>
      split
      · next hhandler => exact .lookup p ps t rfl hp hhandler rfl rfl
      · exact .plain rfl rfl rfl rfl Pc.plain_dispatch
    · split
      · exact .plain rfl rfl rfl rfl (Pc.plain_session rfl)
      · exact .plain rfl rfl rfl rfl Pc.plain_dispatch

theorem execTurn_step {t : Transport} {turn : Turn} (h : execTurn s t turn = some (s', l')) :
    Step s (.read t) s' l' := by
  cases turn <;> cases h
  · exact .plain rfl rfl rfl rfl Pc.plain_dispatch
  · refine .plain rfl rfl rfl rfl ?_
    unfold handleProbePacket
    split
    · exact Pc.plain_session rfl
    · exact ⟨rfl, fun _ => trivial⟩
  · exact .plain rfl rfl rfl rfl ⟨rfl, fun _ => trivial⟩
  · exact .plain rfl rfl rfl rfl (Pc.plain_session rfl)
  · exact .plain rfl rfl rfl rfl (Pc.plain_session rfl)

theorem execSession_step {pc : Server.Pc} {ps : List Packet} {t : Option Transport}
    {a : Server.Choice} (h : execSession s pc ps t a = some (s', l')) (hl : l.calls = 0)
    (hpc : pc.phase = .outside ∨ ∃ ps t, l = .session pc ps t) : Step s l s' l' := by
  unfold execSession at h
  split at h
  · cases h
  · next w pc' hx =>
    cases h
    refine .session pc pc' hl hpc (exec_close hx) rfl rfl ?_
    split
    · exact .inl Pc.plain_dispatch
    · exact .inr ⟨ps, t, rfl⟩

theorem exec_step {maxPayload : Int} {a : Choice} (h : exec maxPayload s l a = some (s', l')) :
    Step s l s' l' := by
  revert h
  fun_cases exec maxPayload s l a <;> intro h
  · cases h
    exact .plain rfl rfl rfl rfl (Pc.plain_session rfl)
  · cases h
    exact .plain rfl rfl rfl rfl ⟨rfl, fun _ => trivial⟩
  · cases h
    exact .plain rfl rfl rfl rfl ⟨rfl, fun _ => trivial⟩
  · cases h
    exact .plain rfl rfl rfl rfl Pc.plain_dispatch
  · cases h
    exact .plain rfl rfl rfl rfl ⟨rfl, fun _ => trivial⟩
  · cases h
    exact .plain rfl rfl rfl rfl ⟨rfl, fun _ => trivial⟩
  · exact execSession_step h rfl (.inl rfl)
  · exact execTurn_step h
  · cases h
  · exact execTurn_step h
  · cases h
  · cases h
    exact .plain rfl rfl rfl rfl ⟨rfl, fun _ => trivial⟩
  · cases h
    exact .plain rfl rfl rfl rfl ⟨rfl, fun _ => trivial⟩
  · next p ps t =>
    obtain ⟨rfl, rfl⟩ : (handlePacket s p ps t).1 = s' ∧ (handlePacket s p ps t).2 = l' := by
      simpa [Prod.ext_iff] using h
    exact handlePacket_step p ps t
  · next p ps t =>
    cases h
    exact .invoke p ps t rfl rfl Pc.plain_dispatch
  · next pc ps t _ => exact execSession_step h rfl (.inr ⟨ps, t, rfl⟩)
  · cases h

/-- A goroutine about to call a message handler is among those counted. -/
theorem Step.calls_le (h : Step s l s' l') : l'.calls + 0 + s.called ≤ l.calls + 0 + s'.called := by
  cases h with
  | plain _ hc _ hl hl' => rw [hl'.1, hl, hc]
  | lookup p ps t hl _ _ hs hl' =>
    subst hl hs hl'
    simp only [Pc.calls]
    omega
  | invoke p ps t hl hs hl' =>
    subst hl hs
    rw [hl'.1]
    simp only [Pc.calls]
    omega
  | session pc pc' hl _ _ hc _ hl' =>
    have hcalls : l'.calls = 0 := by
      rcases hl' with hplain | ⟨ps, t, rfl⟩
      · exact hplain.1
      · rfl
    rw [hcalls, hl, hc]

theorem called_pos {maxPayload : Int} {C : State → Pc → Choice → Prop} {c : Pool State Pc}
    (hc : (program maxPayload).Reach C c) {i : Nat} {p : Packet} {ps : List Packet}
    {t : Option Transport} (hi : c.thread i = .invoke p ps t) : 0 < c.shared.called := by
  have hcount := hc.counter (A := fun _ => 0) (N := State.called) (W := Pc.calls) rfl
    (fun s _ => Nat.zero_le _) (fun _ _ _ _ _ _ hx => (exec_step hx).calls_le) {i}
  rw [Finset.sum_singleton, hi] at hcount
  exact hcount

theorem Step.closed (h : Step s l s' l') (hs : s.world.sock.state = .closed) :
    s'.world.sock.state = .closed := by
  cases h with
  | plain hw _ _ _ _ => rw [hw]; exact hs
  | lookup p ps t _ _ _ hs' _ => subst hs'; exact hs
  | invoke p ps t _ hs' _ => subst hs'; exact hs
  | session pc pc' _ _ hx _ _ _ => exact hx.closed hs

theorem Step.claims (h : Step s l s' l') (hJ : l.Claims s) : l'.Claims s' := by
  cases h with
  | plain _ _ _ _ hl' => exact hl'.2 s'
  | lookup p ps t _ _ _ _ hl' => subst hl'; trivial
  | invoke p ps t _ _ hl' => exact hl'.2 s'
  | session pc pc' _ hpc hx _ _ hl' =>
    rcases hl' with hplain | ⟨ps, t, rfl⟩
    · exact hplain.2 s'
    · intro hphase
      cases hx with
      | live _ hphase' _ _ _ => exact absurd hphase' hphase
      | claim _ _ _ hclosed _ => exact hclosed
      | release hreleasing _ hstate _ =>
        rcases hpc with hout | ⟨ps', t', rfl⟩
        · rw [hreleasing] at hout
          cases hout
        · exact hstate.trans (hJ (by simp [hreleasing]))
      | report _ _ hphase' _ _ => exact absurd hphase' hphase

theorem Pc.Claims.mono (h : l.Claims s) (hs : s.world.sock.state = .closed → s'.world.sock.state = .closed) :
    l.Claims s' := by
  cases l with
  | session pc ps t => exact fun hphase => hs (h hphase)
  | _ => trivial

/-- The invariant, for the goroutine that runs a section in order. -/
theorem Step.sound (h : Step s l s' l') (hI : s.Sound) (hJ : l.Claims s) (hC : orderly s l = true)
    (hpos : ∀ p ps t, l = .invoke p ps t → 0 < s.called) : s'.Sound := by
  cases h with
  | plain hw hc he _ _ =>
    refine ⟨?_, ?_, ?_⟩
    · rw [hw, hc]
      exact hI.closed
    · rw [hw, he]
      exact hI.reported
    · rw [he]
      exact hI.ordered
  | lookup p ps t hl hp hhandler hs _ =>
    subst hl hs
    have hlive : s.world.sock.state ≠ .closed := by simpa [orderly, hp, hhandler] using hC
    exact ⟨fun hr => absurd (hI.closed hr).1 hlive, hI.reported, hI.ordered⟩
  | invoke p ps t hl hs _ =>
    subst hs
    have hcalled := hpos p ps t hl
    -- the close handler has not been called yet
    have hnone : ∀ reason, .close reason ∉ s.events := by
      intro reason hmem
      have hzero := (hI.closed (hI.reported reason hmem)).2
      omega
    refine ⟨fun hr => ⟨(hI.closed hr).1, ?_⟩, fun reason hmem => ?_, ?_⟩
    · simp [(hI.closed hr).2]
    · refine hI.reported reason ?_
      simpa using hmem
    · refine List.pairwise_append.2 ⟨hI.ordered, List.pairwise_singleton _ _, fun e he e' _ hclose => ?_⟩
      cases e with
      | message p => cases hclose
      | close reason => exact absurd he (hnone reason)
  | session pc pc' _ hpc hx hc he _ =>
    rcases hx.reports with hsame | ⟨hphase, reason, hreports⟩
    · have he' : s'.events = s.events := by simpa [hsame] using he
      refine ⟨fun hr => ?_, fun reason hmem => ?_, ?_⟩
      · obtain ⟨hclosed, hzero⟩ := hI.closed (hsame ▸ hr)
        exact ⟨hx.closed hclosed, hc.trans hzero⟩
      · rw [hsame]
        exact hI.reported reason (he' ▸ hmem)
      · rw [he']
        exact hI.ordered
    · obtain ⟨ps, t, rfl⟩ := hpc.resolve_left (by simp [hphase])
      have he' : s'.events = s.events ++ [.close reason] := by simpa [hreports] using he
      have hzero : s.called = 0 := by simpa [orderly, hphase] using hC
      have hclosed := hx.closed (hJ (by simp [hphase]))
      refine ⟨fun _ => ⟨hclosed, hc.trans hzero⟩, fun _ _ => by simp [hreports], ?_⟩
      rw [he']
      exact List.pairwise_append.2 ⟨hI.ordered, List.pairwise_singleton _ _, fun _ _ e' he' _ => by
        rw [List.mem_singleton.1 he']
        rfl⟩

theorem inbound_sound {maxPayload : Int} {c : Pool State Pc}
    (hc : (program maxPayload).Reach Orderly c) : c.shared.Sound := by
  refine (hc.invariant (J := fun s l => l.Claims s) ?_ ?_).1
  · rintro s ⟨⟨type, hw⟩, -, he⟩
    refine ⟨⟨fun hr => absurd ?_ hr, fun reason hmem => ?_, ?_⟩, trivial⟩
    · rw [hw]
    · rw [he] at hmem
      cases hmem
    · rw [he]
      exact List.Pairwise.nil
  · intro c i a s' l' hc hC hI hJ hx
    have hstep := exec_step hx
    refine ⟨hstep.sound hI (hJ i) hC (fun p ps t hi => called_pos hc hi), hstep.claims (hJ i), fun j _ => ?_⟩
    exact (hJ j).mono hstep.closed

/-- **No message after close.** For any number of POSTs with any bodies, any frames on any number of read
    loops, and any calls of the session: if no message handler is looked up on a closed session, and the close
    handler is not called while a message handler that was looked up has yet to be called, then no message
    handler is called after the close handler. -/
theorem no_message_after_close (maxPayload : Int) (c : Pool State Pc)
    (hc : (program maxPayload).Reach Orderly c) {before after : List Event} {reason : Reason}
    (hevents : c.shared.events = before ++ .close reason :: after) : ∀ p, .message p ∉ after := by
  intro p hp
  have hordered := (inbound_sound hc).ordered
  rw [hevents] at hordered
  have htail := (List.pairwise_append.1 hordered).2.1
  have hmessage := (List.pairwise_cons.1 htail).1 _ hp rfl
  cases hmessage

/-- A session on long polling whose application listens. -/
def listening : Pool State Pc :=
  ⟨{ world := { sock := { transport := some ⟨0, .polling⟩ } }, onMessageHandler := true },
    fun _ => .idle⟩

theorem listening_reach {C : State → Pc → Choice → Prop} {maxPayload : Int} :
    (program maxPayload).Reach C listening := .init ⟨⟨.polling, rfl⟩, rfl, rfl⟩

/-- A POST of a message `a` and a close packet, in either order. -/
def closingPost (closeFirst : Bool) : Post :=
  { contentType := "text/plain; charset=UTF-8".toList,
    bytes := if closeFirst then [49, 30, 52, 97] else [52, 97, 30, 49] }

theorem no_message_after_close_post :
    ∃ c, (program 100).Reach Orderly c ∧
      c.shared.events = [.message { type := .message, data := [97] }] ++ .close .transportClose :: [] ∧
      ∀ p, .message p ∉ ([] : List Event) := by
  have hrun : ∃ c, (program 100).runIf Orderly listening
      ([(0, Choice.post (closingPost false)), (0, .go), (0, .go), (0, .go)] ++
        List.replicate 5 (0, Choice.session .go)) = some c ∧
      c.shared.events = [.message { type := .message, data := [97] }] ++ .close .transportClose :: [] :=
    ⟨_, rfl, rfl⟩
  obtain ⟨c, hrun, hevents⟩ := hrun
  have hc := listening_reach.runIf hrun
  exact ⟨c, hc, hevents, no_message_after_close 100 c hc hevents⟩

/-- A POST that carries a close packet and then a message: the close handler is called, and then the message
    handler. -/
theorem message_after_close :
    ∃ c, (program 100).Reachable c ∧
      c.shared.events = [.close .transportClose, .message { type := .message, data := [97] }] := by
  have hrun : ∃ c, (program 100).run listening
      ([(0, Choice.post (closingPost true)), (0, .go)] ++ List.replicate 5 (0, Choice.session .go) ++
        [(0, Choice.go), (0, .go)]) = some c ∧
      c.shared.events = [.close .transportClose, .message { type := .message, data := [97] }] :=
    ⟨_, rfl, rfl⟩
  obtain ⟨c, hrun, hevents⟩ := hrun
  exact ⟨c, Program.Reachable.run listening_reach hrun, hevents⟩

end EngineIo.Server.Inbound
