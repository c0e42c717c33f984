import EngineIo.Client.Teardown

set_option autoImplicit false

/-! # Failures during an abandoned upgrade

While an upgrade is attempted the old transport has no error and no close handler. When the upgrade
packet cannot be sent the handlers are put back, but what the transport has reported meanwhile is
lost: the socket stays open on a transport that polls no more (`failure_lost_in_upgrade`). If it has
reported nothing, the attempt leaves no trace (`failures_heard`). -/

namespace EngineIo.Client.Switchover

open Concurrency

variable {w w' : World} {f : Frame} {pc : ProbeFrame} {a : Choice} {fs : List Frame} {s s' : Session}

/-- The upgrade packet cannot be sent, and when the close handler of the old transport is put back,
    the transport has reported nothing that the socket has not heard. -/
def Abandoned (w : World) (f : Option Frame) (a : Choice) : Prop :=
  match f, a with
  | some (.probe (.sendUpgrade _ _)), .sent ok => ok = false
  | some (.probe (.restoreClose _ old)), _ =>
    w.sock.state = .open → old.all fun t => !(w.object t.id).missed
  | _, _ => True

instance (w : World) (f : Option Frame) (a : Choice) : Decidable (Abandoned w f a) := by
  unfold Abandoned
  split <;> infer_instance

/-! ## The frames of an attempt -/

/-- The transport an attempt replaces. -/
def Frame.old : Frame → Option (Option Transport)
  | .probe (.detachOpen _ old) | .probe (.detachClose _ old) | .probe (.detachError _ old)
  | .probe (.drain _ old) | .probe (.sendUpgrade _ old) | .probe (.abandonUpgrade _ old)
  | .probe (.restoreError _ old) | .probe (.restoreClose _ old) => some old
  | _ => none

/-- The frames after the upgrade packet was sent. -/
def Frame.committed : Frame → Bool
  | .probe (.beginPause _ _) | .probe (.pauseLock _ _) | .probe (.pauseMark _ _)
  | .probe (.pauseUnlock _) | .probe (.pauseWait _) | .probe (.adoptTransport _)
  | .probe (.bindPacket _) | .probe (.bindError _) | .probe (.bindClose _) => true
  | _ => false

/-- The transport that is probed, or was. -/
def Frame.candidate : Frame → Option Nat
  | .probe (.awaitPong t) | .probe (.pong t) | .probe (.detachOpen t _) | .probe (.detachClose t _)
  | .probe (.detachError t _) | .probe (.drain t _) | .probe (.sendUpgrade t _)
  | .probe (.abandonUpgrade t _) | .probe (.restoreError t _) | .probe (.restoreClose t _)
  | .probe (.beginPause t _) | .probe (.pauseLock t _) | .probe (.pauseMark t _)
  | .probe (.pauseUnlock t) | .probe (.pauseWait t) | .probe (.adoptTransport t)
  | .probe (.bindPacket t) | .probe (.bindError t) | .probe (.bindClose t)
  | .discardOpen t | .discardClose t | .discardError t | .discardPacket t => some t
  | _ => none

/-- The frame `g` goes on with the attempt of `f`: uncommitted as long as `f` is, with the transport that
    was active when the attempt began, and with its candidate. -/
structure Frame.Follows (w : World) (f g : Frame) : Prop where
  committed : g.committed = true → f.committed = true
  old : ∀ old, g.old = some old →
    f.old = some old ∨ w.sock.state = .open ∧ w.sock.transport = old
  candidate : ∀ t, g.candidate = some t → f.candidate = some t ∨ t = w.made

theorem Frame.Follows.same {g : Frame} (hc : g.committed = f.committed) (ho : g.old = f.old)
    (ht : g.candidate = f.candidate) : f.Follows w g :=
  ⟨fun h => hc ▸ h, fun _ h => .inl (ho ▸ h), fun _ h => .inl (ht ▸ h)⟩

/-- A frame of an attempt that is over, or of none. -/
theorem Frame.Follows.aside {g : Frame} (hc : g.committed = false) (ho : g.old = none)
    (ht : g.candidate = none ∨ g.candidate = f.candidate) : f.Follows w g := by
  refine ⟨fun h => ?_, fun old h => ?_, fun t h => ?_⟩
  · rw [hc] at h
    cases h
  · rw [ho] at h
    cases h
  · rcases ht with ht | ht
    · rw [ht] at h
      cases h
    · exact .inl (ht ▸ h)

theorem execProbe_attempt (h : execProbe w pc a = some (w', fs))
    (hC : Abandoned w (some (.probe pc)) a) : ∀ g ∈ fs, (Frame.probe pc).Follows w g := by
  revert h
  fun_cases execProbe w pc a <;> intro h <;> cases h
  case case1 => exact fun g hg => absurd hg List.not_mem_nil
  case case2 =>
    refine List.forall_mem_singleton.2 ⟨fun h => ?_, fun _ h => ?_, fun t h => .inr ?_⟩
    · cases h
    · cases h
    · exact (Option.some.inj h).symm
  case case9 t s old hs =>
    obtain ⟨hopen, -, rfl⟩ := Socket.beginUpgrade_eq_some.1 hs
    refine List.forall_mem_singleton.2 ⟨fun h => h, fun old h => .inr ⟨hopen, ?_⟩, fun _ h => .inl h⟩
    exact Option.some.inj h
  case case15 => simp [Abandoned] at hC
  -- the attempt is over
  case case3 =>
    exact List.forall_mem_cons.2 ⟨.aside rfl rfl (.inl rfl), List.forall_mem_cons.2
      ⟨.aside rfl rfl (.inl rfl), List.forall_mem_singleton.2 (.aside rfl rfl (.inl rfl))⟩⟩
  case case4 | case5 | case33 =>
    exact List.forall_mem_cons.2
      ⟨.aside rfl rfl (.inl rfl), List.forall_mem_singleton.2 (.aside rfl rfl (.inl rfl))⟩
  case case8 | case29 =>
    exact List.forall_mem_cons.2
      ⟨.aside rfl rfl (.inr rfl), List.forall_mem_singleton.2 (.aside rfl rfl (.inl rfl))⟩
  case case19 =>
    exact List.forall_mem_cons.2 ⟨.aside rfl rfl (.inl rfl), List.forall_mem_cons.2
      ⟨.aside rfl rfl (.inr rfl), List.forall_mem_singleton.2 (.aside rfl rfl (.inl rfl))⟩⟩
  all_goals exact List.forall_mem_singleton.2 (.same rfl rfl rfl)

theorem Handler.frames_candidate {h : Handler} {socket : Frame} (hs : socket.candidate = none)
    {u t : Nat} {g : Frame} (hg : g ∈ h.frames socket u) (ht : g.candidate = some t) :
    t = u ∧ h = .probe := by
  cases h with
  | unset => simp [Handler.frames] at hg
  | socket =>
    obtain rfl := List.mem_singleton.1 hg
    simp [hs] at ht
  | probe =>
    obtain rfl := List.mem_singleton.1 hg
    exact ⟨(Option.some.inj ht).symm, rfl⟩

theorem execTransport_candidate (h : execTransport w f a = some (w', fs)) {g : Frame} (hg : g ∈ fs)
    {t : Nat} (ht : g.candidate = some t) :
    f.candidate = some t ∨ (w.object t).onError = .probe ∨ (w.object t).onClose = .probe := by
  revert h
  fun_cases execTransport w f a <;> intro h <;> cases h
  case case3 | case4 =>
    unfold World.closeRest at hg
    split at hg <;> simp at hg
    all_goals
      try rcases hg with rfl | rfl
      all_goals simp_all [Frame.candidate]
  case case12 =>
    obtain ⟨rfl, hprobe⟩ := Handler.frames_candidate rfl hg ht
    exact .inr (.inr hprobe)
  case case14 =>
    rcases List.mem_cons.1 hg with rfl | hg
    · simp [Frame.candidate] at ht
    · obtain ⟨rfl, hprobe⟩ := Handler.frames_candidate rfl hg ht
      exact .inr (.inr hprobe)
  case case15 =>
    obtain ⟨rfl, hprobe⟩ := Handler.frames_candidate rfl hg ht
    exact .inr (.inl hprobe)
  all_goals
    simp only [List.mem_cons, List.not_mem_nil, or_false] at hg
    try rcases hg with rfl | rfl
    all_goals simp_all [Frame.candidate]

/-- A probe's handlers discard its own transport. -/
theorem exec_candidate (hf : f.prober = false) (h : exec w f a = some (w', fs)) {g : Frame}
    (hg : g ∈ fs) {t : Nat} (ht : g.candidate = some t) :
    f.candidate = some t ∨ (w.object t).onError = .probe ∨ (w.object t).onClose = .probe := by
  have hsome : fs.all (·.candidate.isNone) ≠ true := by
    intro hall
    have hnone := List.all_eq_true.1 hall g hg
    rw [ht] at hnone
    cases hnone
  cases runs_of_exec h with
  | probe => cases hf
  | flush h =>
    refine absurd ?_ hsome
    revert h
    fun_cases execFlush w f a <;> intro h <;> cases h <;> rfl
  | socket h =>
    refine absurd ?_ hsome
    revert h
    fun_cases execSocket w f a <;> intro h <;> cases h <;> rfl
  | transport h => exact execTransport_candidate h hg ht
  | loop h =>
    refine absurd ?_ hsome
    revert h
    fun_cases execLoop w f a <;> intro h <;> cases h <;> rfl

/-! ## The polling transport stays the socket's -/

/-- The polling transport has no handlers of a probe, and its close has been reported. -/
structure TransportObject.Accounted (o : TransportObject) : Prop where
  onError : o.onError ≠ .probe
  onClose : o.onClose ≠ .probe
  closed : o.state = .closed → o.heard = true ∨ o.missed = true

theorem TransportObject.Accounted.report {o : TransportObject} (ho : o.Accounted) (h : Handler) :
    (o.report h).onError ≠ .probe ∧ (o.report h).onClose ≠ .probe ∧
      ((o.report h).heard = true ∨ (o.report h).missed = true) := by
  unfold TransportObject.report
  split
  · exact ⟨ho.onError, ho.onClose, .inl rfl⟩
  · exact ⟨ho.onError, ho.onClose, .inr rfl⟩

theorem Touch.accounted {u : Nat} {o : TransportObject} (h : Touch w f u o) (hu : u ≠ w.made)
    (hw : (w.object u).Accounted) : o.Accounted := by
  cases h with
  | same => exact hw
  | dial _ hmade => exact absurd hmade hu
  | detach hs hh hm hc he =>
    refine ⟨?_, ?_, ?_⟩
    · rcases he with he | ⟨he, -⟩ <;> simp [he, hw.onError]
    · rcases hc with hc | ⟨hc, -⟩ <;> simp [hc, hw.onClose]
    · rw [hs, hh, hm]; exact hw.closed
  | attach _ _ hs hh hm hc he =>
    refine ⟨?_, ?_, ?_⟩
    · rcases he with he | he <;> simp [he, hw.onError]
    · rcases hc with hc | hc <;> simp [hc, hw.onClose]
    · rw [hs, hh, hm]; exact hw.closed
  | setState hs => exact ⟨hw.onError, hw.onClose, fun h => absurd h hs⟩
  | error | close =>
    obtain ⟨he, hc, hr⟩ := hw.report _
    exact ⟨he, hc, fun _ => hr⟩

/-- No upgrade has succeeded. -/
structure World.OnPolling (w : World) : Prop where
  transport : ∀ t, w.sock.transport = some t → t.id = 0
  made : 0 < w.made
  accounted : (w.object 0).Accounted

/-- An attempt that is not committed: it is about to replace the socket's transport by another. -/
structure World.Attempts (w : World) (f : Frame) : Prop where
  uncommitted : f.committed = false
  old : ∀ old, f.old = some old → w.sock.state = .open → w.sock.transport = old
  candidate : ∀ t, f.candidate = some t → t ≠ 0

/-- Without an adoption, an open socket keeps its transport. -/
theorem SessionStep.opened (h : SessionStep s f s' fs) (hs : s'.state = .open)
    (hf : f.committed = false) : s.state = .open ∧ s'.transport = s.transport := by
  cases h with
  | claim => simp at hs
  | teardown => simp at hs
  | adopt => simp [Frame.committed] at hf
  | _ => exact ⟨hs, rfl⟩

theorem exec_made (h : exec w f a = some (w', fs)) : w.made ≤ w'.made := by
  cases hprober : f.prober with
  | false =>
    have hsame := (exec_launch hprober h).1
    simp only [World.launch, Launch.mk.injEq] at hsame
    exact hsame.2.2.ge
  | true =>
    cases f
    case probe pc =>
      rcases (execProbe_launch h).2 with ⟨hsame, -⟩ | ⟨hdial, -⟩
      · simp only [World.launch, Launch.mk.injEq] at hsame
        exact hsame.2.2.ge
      · simp only [World.launch, Launch.mk.injEq] at hdial
        omega
    case goProbe => exact (exec_goProbe h).2.2.1.ge
    all_goals simp [Frame.prober] at hprober

theorem not_prober_attempts {g : Frame} (h : g.prober = false) :
    g.committed = false ∧ g.old = none := by
  cases g <;> simp_all [Frame.prober, Frame.committed, Frame.old]

theorem start_attempts (h : start w a = some (w', fs)) : ∀ g ∈ fs,
    g.committed = false ∧ g.old = none ∧ g.candidate = none := by
  revert h
  fun_cases start w a <;> intro h <;> cases h
  all_goals exact of_decide_eq_true rfl

theorem start_made (h : start w a = some (w', fs)) : w'.made = w.made := by
  revert h
  fun_cases start w a <;> intro h <;> cases h <;> rfl

/-- As long as no upgrade packet is sent, the socket stays on its polling transport. -/
theorem reach_attempt {c : Pool World (List Frame)}
    (h : frames.program.Reach (Frames.When Abandoned) c) :
    c.shared.OnPolling ∧ ∀ i, ∀ f ∈ c.thread i, c.shared.Attempts f := by
  have hout := Frames.outline (I := World.OnPolling) (J := World.Attempts) (K := fun _ _ => True)
    (fun _ _ _ => trivial) ?_ ?_ ?_ h
  · exact ⟨hout.1, hout.2.1⟩
  · rintro w ⟨hopen, htransport, -, -, -, hw⟩
    refine ⟨fun t ht => ?_, by rw [hw]; exact Nat.one_pos, ?_⟩
    · obtain rfl : ⟨0, .polling⟩ = t := by simpa [htransport] using ht
      rfl
    · rw [hw]
      exact ⟨by simp [established], by simp [established], by simp [established]⟩
  · intro w a w' fs _ hw hx
    have hnew := start_attempts hx
    obtain ⟨⟨called, hsession, -⟩, -⟩ := start_session hx
    simp only [World.session, Session.mk.injEq] at hsession
    obtain ⟨hstate, htransport, -, -⟩ := hsession
    refine ⟨⟨htransport ▸ hw.transport, start_made hx ▸ hw.made, start_object hx ▸ hw.accounted⟩,
      fun g hg => ?_, List.pairwise_of_forall fun _ _ => trivial, fun m hm => ⟨?_, fun _ _ => trivial⟩⟩
    · obtain ⟨hcommitted, hold, hcandidate⟩ := hnew g hg
      exact ⟨hcommitted, by simp [hold], by simp [hcandidate]⟩
    · exact ⟨hm.uncommitted, by rw [hstate, htransport]; exact hm.old, hm.candidate⟩
  · intro w f a w' fs hC hw hf hx
    have hstep := exec_session hx
    have hold : ∀ {old}, w'.sock.state = .open → (w.sock.state = .open → w.sock.transport = old) →
        w'.sock.transport = old := fun hopen h =>
      have hsame := hstep.opened hopen hf.uncommitted
      (show w'.sock.transport = w.sock.transport from hsame.2).trans (h hsame.1)
    refine ⟨⟨fun t ht => ?_, hw.made.trans_le (exec_made hx),
      (exec_touch hx 0).accounted hw.made.ne hw.accounted⟩, fun g hg => ?_,
      List.pairwise_of_forall fun _ _ => trivial, fun m hm _ => ⟨⟨hm.uncommitted,
        fun old h hopen => hold hopen (hm.old old h), hm.candidate⟩, fun _ _ => trivial⟩⟩
    · refine hw.transport t ((hstep.transport (t := t) ht).resolve_right fun hadopt => ?_)
      simpa [hadopt, Frame.committed] using hf.uncommitted
    · cases hprober : f.prober with
      | false =>
        obtain ⟨hcommitted, hnone⟩ := not_prober_attempts ((exec_launch hprober hx).2 g hg)
        refine ⟨hcommitted, by simp [hnone], fun t ht => ?_⟩
        rcases exec_candidate hprober hx hg ht with hc | he | hc
        · exact hf.candidate t hc
        · exact fun h0 => hw.accounted.onError (h0 ▸ he)
        · exact fun h0 => hw.accounted.onClose (h0 ▸ hc)
      | true =>
        cases f
        case probe pc =>
          obtain ⟨hcommitted, hnext, hcandidate⟩ := execProbe_attempt hx hC g hg
          refine ⟨Bool.eq_false_iff.2 fun h => ?_, fun old h hopen => hold hopen fun hbefore => ?_,
            fun t ht => ?_⟩
          · simpa [hf.uncommitted] using hcommitted h
          · exact (hnext old h).elim (fun h => hf.old old h hbefore) And.right
          · rcases hcandidate t ht with h | rfl
            · exact hf.candidate t h
            · exact hw.made.ne'
        case goProbe => simp [(exec_goProbe hx).2.2.2] at hg
        all_goals simp [Frame.prober] at hprober

/-! ## Who has the handlers -/

theorem prober_unique {C : World → Option Frame → Choice → Prop} {c : Pool World (List Frame)}
    (h : frames.program.Reach (Frames.When C) c) {i j : Nat} {rest : List Frame} {g : Frame}
    (hi : c.thread i = f :: rest) (hf : f.prober = true) (hg : g ∈ c.thread j)
    (hprober : g.prober = true) : g = f := by
  obtain ⟨-, -, hstack, hpair⟩ := reach_launch h
  by_contra hne
  have hapart : Apart f g := by
    by_cases hij : i = j
    · subst hij
      have hp := hstack i
      rw [hi] at hp hg
      exact (List.pairwise_cons.1 hp).1 g ((List.mem_cons.1 hg).resolve_left hne)
    · exact hpair i j hij f (by rw [hi]; exact List.mem_cons_self ..) g hg
  rcases hapart with h | h
  · simp [hf] at h
  · simp [hprober] at h

theorem TransportObject.report_handlers (o : TransportObject) (h : Handler) :
    (o.report h).onError = o.onError ∧ (o.report h).onClose = o.onClose := by
  unfold TransportObject.report
  split
  · exact ⟨rfl, rfl⟩
  · exact ⟨rfl, rfl⟩

theorem Touch.onError {u : Nat} {o : TransportObject} (h : Touch w f u o) (hu : u ≠ w.made) :
    o.onError = (w.object u).onError ∨ o.onError = .socket ∨ f.DetachesError u := by
  cases h with
  | same | setState => exact .inl rfl
  | dial _ hmade => exact absurd hmade hu
  | detach _ _ _ _ he => exact he.imp_right fun h => .inr h.2
  | attach _ _ _ _ _ _ he => exact he.imp_right .inl
  | error | close => exact .inl (TransportObject.report_handlers _ _).1

theorem Touch.onClose {u : Nat} {o : TransportObject} (h : Touch w f u o) (hu : u ≠ w.made) :
    o.onClose = (w.object u).onClose ∨ o.onClose = .socket ∨ f.DetachesClose u := by
  cases h with
  | same | setState => exact .inl rfl
  | dial _ hmade => exact absurd hmade hu
  | detach _ _ _ hc => exact hc.imp_right fun h => .inr h.2
  | attach _ _ _ _ _ hc => exact hc.imp_right .inl
  | error | close => exact .inl (TransportObject.report_handlers _ _).2

theorem TransportObject.report_missed {o : TransportObject} {h : Handler}
    (hm : (o.report h).missed = true) : o.missed = true ∨ h ≠ .socket := by
  unfold TransportObject.report at hm
  split at hm
  next => exact .inl hm
  next hs => exact .inr hs

/-- A report is missed when it is not the socket's handler that gets it. -/
theorem Touch.missed {u : Nat} {o : TransportObject} (h : Touch w f u o) (hu : u ≠ w.made)
    (hm : o.missed = true) :
    (w.object u).missed = true ∨ (w.object u).onError ≠ .socket ∨ (w.object u).onClose ≠ .socket := by
  cases h with
  | same | setState => exact .inl hm
  | dial _ hmade => exact absurd hmade hu
  | detach _ _ hmissed => exact .inl (hmissed ▸ hm)
  | attach _ _ _ _ hmissed => exact .inl (hmissed ▸ hm)
  | error => exact (TransportObject.report_missed hm).imp_right .inl
  | close => exact (TransportObject.report_missed hm).imp_right .inr

/-- An attempt that has taken the error handler. -/
def Frame.deaf : Frame → Bool
  | .probe (.drain _ _) | .probe (.sendUpgrade _ _) | .probe (.abandonUpgrade _ _)
  | .probe (.restoreError _ _) => true
  | _ => false

/-- An attempt that has taken a handler and not put both back. -/
def Frame.detached : Frame → Bool
  | .probe (.detachError _ _) | .probe (.restoreClose _ _) => true
  | f => f.deaf

theorem Frame.prober_of_deaf (h : f.deaf = true) : f.prober = true := by
  cases f <;> simp_all [Frame.deaf, Frame.prober]

theorem exec_deaf (h : exec w f a = some (w', fs)) (hC : Abandoned w (some f) a)
    (hf : f.deaf = true) : (∃ g ∈ fs, g.deaf = true) ∨
      ∃ t old, f = .probe (.restoreError t old) ∧
        w' = w.modify? old fun o => { o with onError := .socket } := by
  cases f
  case probe pc =>
    replace h : execProbe w pc a = some (w', fs) := h
    revert h
    fun_cases execProbe w pc a <;> intro h <;> cases h
    case case18 => exact .inr ⟨_, _, rfl, rfl⟩
    case case15 => simp [Abandoned] at hC
    all_goals simp_all [Frame.deaf]
  all_goals simp [Frame.deaf] at hf

theorem exec_detached (h : exec w f a = some (w', fs)) (hC : Abandoned w (some f) a)
    (hf : f.detached = true) : (∃ g ∈ fs, g.detached = true) ∨
      ∃ t old, f = .probe (.restoreClose t old) ∧
        w' = w.modify? old fun o => { o with onClose := .socket } := by
  cases f
  case probe pc =>
    replace h : execProbe w pc a = some (w', fs) := h
    revert h
    fun_cases execProbe w pc a <;> intro h <;> cases h
    case case19 => exact .inr ⟨_, _, rfl, rfl⟩
    case case15 => simp [Abandoned] at hC
    all_goals simp_all [Frame.detached, Frame.deaf]
  all_goals simp [Frame.detached, Frame.deaf] at hf

theorem Frame.candidate_of_discards {u : Nat} (h : f.discards = some u) : f.candidate = some u := by
  cases f <;> simp_all [Frame.discards, Frame.candidate]

/-- While the socket is open, nobody but an attempt takes handlers from its transport. -/
theorem detaching_probe {c : Pool World (List Frame)}
    (h : frames.program.Reach (Frames.When Abandoned) c) {i : Nat} (hf : f ∈ c.thread i)
    (hopen : c.shared.sock.state = .open) {p : Prop}
    (hd : f.role = .ticket ∨ f.discards = some 0 ∨ p) : p := by
  rcases hd with hticket | hdiscards | hp
  · have hclosed := ((reach_session h).2 i f hf hticket).1
    exact absurd hclosed (by rw [show c.shared.session.state = _ from hopen]; simp)
  · exact absurd rfl (((reach_attempt h).2 i f hf).candidate 0 (Frame.candidate_of_discards hdiscards))
  · exact hp

theorem exec_detachError {t : Nat} {old : Option Transport}
    (h : exec w (.probe (.detachError t old)) a = some (w', fs)) : fs = [.probe (.drain t old)] := by
  cases a
  case go => cases h; rfl
  all_goals cases h

theorem exec_detachClose {t : Nat} {old : Option Transport}
    (h : exec w (.probe (.detachClose t old)) a = some (w', fs)) :
    fs = [.probe (.detachError t old)] := by
  cases a
  case go => cases h; rfl
  all_goals cases h

/-- An attempt on an open socket puts handlers back on the polling transport. -/
theorem modify?_old {c : Pool World (List Frame)}
    (h : frames.program.Reach (Frames.When Abandoned) c) (hopen : c.shared.sock.state = .open)
    {i : Nat} (hf : f ∈ c.thread i) {old : Option Transport} (hold : f.old = some old)
    (g : TransportObject → TransportObject) :
    (c.shared.modify? old g).object 0 = g (c.shared.object 0) ∧ ∃ t, old = some t ∧ t.id = 0 := by
  obtain ⟨hpolling, hattempts⟩ := reach_attempt h
  have htransport := (hattempts i f hf).old old hold hopen
  cases old with
  | none =>
    have hclosed := (reach_session h).1.transport.1 htransport
    rw [show c.shared.session.state = _ from hopen] at hclosed
    simp at hclosed
  | some t =>
    have hid := hpolling.transport t htransport
    exact ⟨by simp [World.modify?, hid], t, rfl, hid⟩

theorem start_open (h : start w a = some (w', fs)) (hopen : w'.sock.state = .open) :
    w.sock.state = .open := by
  obtain ⟨⟨called, hsession, -⟩, -⟩ := start_session h
  simp only [World.session, Session.mk.injEq] at hsession
  exact hsession.1 ▸ hopen

/-- An open socket that has lost its error handler will get it back from the attempt that took it. -/
theorem deaf_owned {c : Pool World (List Frame)}
    (h : frames.program.Reach (Frames.When Abandoned) c) (hopen : c.shared.sock.state = .open)
    (hlost : (c.shared.object 0).onError ≠ .socket) : ∃ i, ∃ f ∈ c.thread i, f.deaf = true := by
  refine Frames.owner (H := fun w => w.sock.state = .open ∧ (w.object 0).onError ≠ .socket)
    (O := fun f => f.deaf = true) ?_ ?_ ?_ h ⟨hopen, hlost⟩
  · rintro w ⟨-, -, -, -, -, hw⟩ ⟨-, hlost⟩
    rw [hw] at hlost
    simp [established] at hlost
  · rintro w a w' fs hx ⟨hopen, hlost⟩
    exact .inl ⟨start_open hx hopen, start_object hx ▸ hlost⟩
  · rintro c i f rest a w' fs hc hi hC hx ⟨hopen', hlost'⟩
    have hmem : f ∈ c.thread i := by rw [hi]; exact List.mem_cons_self ..
    obtain ⟨hpolling, hattempts⟩ := reach_attempt hc
    obtain ⟨hopen, -⟩ := (exec_session hx).opened hopen' (hattempts i f hmem).uncommitted
    by_cases hdeaf : f.deaf = true
    · refine .inr ((exec_deaf hx hC hdeaf).resolve_right ?_)
      rintro ⟨t, old, rfl, rfl⟩
      rw [(modify?_old hc hopen hmem rfl _).1] at hlost'
      simp at hlost'
    · rcases (exec_touch hx 0).onError hpolling.made.ne with hsame | hsocket | hd
      · exact .inl ⟨⟨hopen, hsame ▸ hlost'⟩, hdeaf⟩
      · exact absurd hsocket hlost'
      · obtain ⟨t, old, rfl⟩ := detaching_probe hc hmem hopen hd
        rw [exec_detachError hx]
        exact .inr ⟨_, List.mem_singleton.2 rfl, rfl⟩

/-- The socket's transport lacks a handler, or has reported something the socket does not know. -/
def World.Dubious (w : World) : Prop :=
  (w.object 0).onError ≠ .socket ∨ (w.object 0).onClose ≠ .socket ∨ (w.object 0).missed = true

/-- On an open socket that is the doing of an attempt that is not over. -/
theorem detached_owned {c : Pool World (List Frame)}
    (h : frames.program.Reach (Frames.When Abandoned) c) (hopen : c.shared.sock.state = .open)
    (hdubious : c.shared.Dubious) : ∃ i, ∃ f ∈ c.thread i, f.detached = true := by
  refine Frames.owner (H := fun w => w.sock.state = .open ∧ w.Dubious)
    (O := fun f => f.detached = true) ?_ ?_ ?_ h ⟨hopen, hdubious⟩
  · rintro w ⟨-, -, -, -, -, hw⟩ ⟨-, hd⟩
    rw [hw] at hd
    simp [World.Dubious, established] at hd
  · rintro w a w' fs hx ⟨hopen, hd⟩
    refine .inl ⟨start_open hx hopen, ?_⟩
    unfold World.Dubious at hd ⊢
    rwa [start_object hx] at hd
  · rintro c i f rest a w' fs hc hi hC hx ⟨hopen', hd'⟩
    have hmem : f ∈ c.thread i := by rw [hi]; exact List.mem_cons_self ..
    obtain ⟨hpolling, hattempts⟩ := reach_attempt hc
    obtain ⟨hopen, -⟩ := (exec_session hx).opened hopen' (hattempts i f hmem).uncommitted
    have htouch := exec_touch hx 0
    by_cases hdetached : f.detached = true
    · refine .inr ((exec_detached hx hC hdetached).resolve_right ?_)
      rintro ⟨t, old, rfl, rfl⟩
      obtain ⟨hobject, t', rfl, hid⟩ :=
        modify?_old hc hopen hmem rfl fun o => { o with onClose := .socket }
      -- the error handler is back: only one attempt is under way, and it has put it there
      have hheard : (c.shared.object 0).onError = .socket := by
        by_contra hlost
        obtain ⟨j, g, hg, hdeaf⟩ := deaf_owned hc hopen hlost
        have hsame := prober_unique hc hi rfl hg (Frame.prober_of_deaf hdeaf)
        simp [hsame, Frame.deaf] at hdeaf
      have hmissed : (c.shared.object 0).missed = false := by simpa [hid] using hC hopen
      simp [World.Dubious, hobject, hheard, hmissed] at hd'
    · have hbefore : c.shared.Dubious →
          (c.shared.sock.state = .open ∧ c.shared.Dubious) ∧ ¬ f.detached = true :=
        fun hd => ⟨⟨hopen, hd⟩, hdetached⟩
      rcases hd' with hlost | hlost | hmissed
      · rcases htouch.onError hpolling.made.ne with hsame | hsocket | hd
        · exact .inl (hbefore (.inl (hsame ▸ hlost)))
        · exact absurd hsocket hlost
        · obtain ⟨t, old, rfl⟩ := detaching_probe hc hmem hopen hd
          exact absurd rfl hdetached
      · rcases htouch.onClose hpolling.made.ne with hsame | hsocket | hd
        · exact .inl (hbefore (.inr (.inl (hsame ▸ hlost))))
        · exact absurd hsocket hlost
        · obtain ⟨t, old, rfl⟩ := detaching_probe hc hmem hopen hd
          rw [exec_detachClose hx]
          exact .inr ⟨_, List.mem_singleton.2 rfl, rfl⟩
      · refine .inl (hbefore ?_)
        rcases htouch.missed hpolling.made.ne hmissed with h | h | h
        · exact .inr (.inr h)
        · exact .inl h
        · exact .inr (.inl h)

/-! ## Nothing is lost when nothing was missed -/

theorem Frame.detached_of_waits (h : f.waits = true) : f.detached = false := by
  cases f
  case probe pc => cases pc <;> simp_all [Frame.waits, Frame.detached, Frame.deaf]
  all_goals simp_all [Frame.waits, Frame.detached, Frame.deaf]

/-- **An abandoned upgrade loses no failure that was not missed.** Whenever the socket is open and no
    call, callback, dispatch or flush is running, its transport is not closed and has reported
    neither an error nor its close. -/
theorem failures_heard {c : Pool World (List Frame)}
    (h : frames.program.Reach (Frames.When Abandoned) c) (hquiet : ∀ i, Quiet (c.thread i))
    (hopen : c.shared.sock.state = .open) :
    ∃ t, c.shared.sock.transport = some t ∧ (c.shared.object t.id).state ≠ .closed ∧
      (c.shared.object t.id).heard = false ∧ (c.shared.object t.id).missed = false := by
  obtain ⟨hpolling, -⟩ := reach_attempt h
  obtain ⟨t, ht⟩ : ∃ t, c.shared.sock.transport = some t := by
    refine Option.ne_none_iff_exists'.1 fun hn => ?_
    have hclosed := (reach_session h).1.transport.1 hn
    rw [show c.shared.session.state = _ from hopen] at hclosed
    simp at hclosed
  have hid := hpolling.transport t ht
  have hheard : (c.shared.object t.id).heard = false := by
    refine Bool.eq_false_iff.2 fun hheard => ?_
    obtain ⟨i, f, hf, halarm⟩ := heard_alarm h ht hheard
    simp [Frame.role_of_waits (hquiet i f hf)] at halarm
  have hmissed : (c.shared.object t.id).missed = false := by
    refine Bool.eq_false_iff.2 fun hmissed => ?_
    obtain ⟨i, f, hf, hdetached⟩ := detached_owned h hopen (.inr (.inr (hid ▸ hmissed)))
    simp [Frame.detached_of_waits (hquiet i f hf)] at hdetached
  refine ⟨t, ht, fun hclosed => ?_, hheard, hmissed⟩
  rcases hpolling.accounted.closed (hid ▸ hclosed) with h | h
  · simp [hid ▸ h] at hheard
  · simp [hid ▸ h] at hmissed

/-- The upgrade packet cannot be sent: the attempt is abandoned, the handlers are put back and the
    candidate is discarded. -/
def abandoning : List (Nat × Choice) :=
  [(1, .go), (1, .sent false), (1, .go), (1, .go), (1, .go), (1, .go), (1, .go), (1, .go), (1, .go),
    (1, .go), (1, .go), (1, .sent true), (1, .go), (1, .go)]

/-- Nothing happens to the old transport meanwhile, and the next poll is sent. -/
def abandonedUpgrade : List (Nat × Choice) :=
  upgradeBegun ++ [(1, Choice.go), (1, .go), (1, .go)] ++ abandoning ++ [(0, Choice.poll), (0, .go), (0, .go)]

theorem failures_heard_run : ∃ c, frames.program.Reach (Frames.When Abandoned) c ∧
    ∃ t, c.shared.sock.transport = some t ∧ (c.shared.object t.id).state ≠ .closed ∧
      (c.shared.object t.id).heard = false ∧ (c.shared.object t.id).missed = false := by
  obtain ⟨c, hrun⟩ : ∃ c, frames.program.runIf (Frames.When Abandoned) connected abandonedUpgrade = some c :=
    ⟨_, rfl⟩
  have hreach := connected_reach.runIf hrun
  have hopen : c.shared.sock.state = .open := by cases hrun; rfl
  have hquiet : ∀ i, Quiet (c.thread i) := by
    cases hrun
    rintro (_ | _ | i)
    · exact List.forall_mem_singleton.2 rfl
    · exact fun _ hf => absurd hf List.not_mem_nil
    · exact fun _ hf => absurd hf List.not_mem_nil
  exact ⟨c, hreach, failures_heard hreach hquiet hopen⟩

/-- The poll fails while the old transport has no error handler. -/
def pollFailsDetached : List (Nat × Choice) :=
  upgradeBegun ++ [(1, Choice.go), (1, .go), (1, .go)] ++
    [(0, Choice.poll), (0, .go), (0, .go), (0, .polled .failed), (0, .go), (0, .go)] ++ abandoning

/-- **A failure gets lost in an upgrade.** Every goroutine has finished and nothing is left to start:
    the socket is open and not upgrading, on a transport whose poll has failed and that polls no
    more. -/
theorem failure_lost_in_upgrade : ∃ c, frames.program.Reachable c ∧ (∀ i, c.thread i = []) ∧
    (c.shared.polls = 0 ∧ c.shared.dispatch = false ∧ c.shared.probes = false) ∧
    c.shared.sock.state = .open ∧ c.shared.sock.upgrading = false ∧
    ∃ t, c.shared.sock.transport = some t ∧ (c.shared.object t.id).missed = true := by
  obtain ⟨c, hrun⟩ : ∃ c, frames.program.run connected pollFailsDetached = some c := ⟨_, rfl⟩
  refine ⟨c, Program.Reachable.run connected_reach hrun, ?_⟩
  cases hrun
  refine ⟨?_, ⟨rfl, rfl, rfl⟩, rfl, rfl, ⟨0, .polling⟩, rfl, rfl⟩
  rintro (_ | _ | i) <;> rfl

end EngineIo.Client.Switchover
