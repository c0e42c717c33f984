import EngineIo.Concurrency.Outbox
import EngineIo.Server.Goroutine

set_option autoImplicit false

/-! # The outbound buffer of a session

`Outbound` keeps the fields on which the way of a packet from `Send`, `sendPing` or `Close` to a
transport depends, and `Stage` what a goroutine holding `flushMu` is up to with its snapshot. The
sections of a session make the moves of this machine (`exec_move`), whose invariant says that the
packets handed to transports are a prefix of those accepted, and that the rest is still buffered
unless the session is closed. A closing session has accepted its close packet last, and the
teardown by `flush` starts only once that packet has been handed off too. -/

namespace EngineIo.Server

open Concurrency

/-- The fields on which the way of an outbound packet depends. -/
structure Outbound where
  state : SessionState
  writeBuffer : List Packet
  accepted : List Packet
  handed : List Packet
  flushMu : Bool

def World.outbound (w : World) : Outbound :=
  ⟨w.sock.state, w.sock.writeBuffer, w.accepted, w.handed, w.flushMu⟩

/-- How far a goroutine is with a flush. -/
inductive Stage
  | outside
  | locked
  /-- It has a snapshot of the buffer. -/
  | loaded (packets : List Packet)
  /-- Its snapshot has been handed to a transport. -/
  | written (packets : List Packet)
  /-- It is about to complete a graceful close. -/
  | forcing

def FlushPc.stage : FlushPc → Stage
  | .lock _ => .outside
  | .beginFlush _ | .unlock _ => .locked
  | .send _ _ packets | .writeFrames _ packets => .loaded packets
  | .endFlush _ packets => .written packets

def Return.stage : Return → Stage
  | .done => .outside
  | .flush _ => .locked

def TeardownPc.stage : TeardownPc → Stage
  | .beginTeardown _ .done => .outside
  | .beginTeardown reason (.flush _) => if reason = .forcedClose then .forcing else .locked
  | .closeStop _ r _ _ _ | .closeTransport _ r _ _ | .closeUpgrade _ r _
  | .closeHandler _ r => r.stage

def Pc.stage : Pc → Stage
  | .flush pc => pc.stage
  | .teardown pc => pc.stage
  | _ => .outside

/-- Whether a goroutine holds `flushMu`. -/
def Stage.holdsMu : Stage → Bool
  | .outside => false
  | _ => true

/-- What a section can do to the outbound buffer. -/
inductive Move (v : Outbound) : Stage → Outbound → Stage → Prop
  | quiet {st st' : Stage} (h : st' = st ∨ st.holdsMu = true ∧ st ≠ .forcing ∧ st' = .locked ∧
      ∀ ps, st ≠ .written ps) : Move v st v st'
  | opened (h : v.state = .opening) : Move v .outside { v with state := .open } .outside
  | push (p : Packet) (hs : v.state = .opening ∨ v.state = .open) (hp : p.type ≠ .close) :
      Move v .outside
        { v with writeBuffer := v.writeBuffer ++ [p], accepted := v.accepted ++ [p] } .outside
  | last (hs : v.state = .opening ∨ v.state = .open) :
      Move v .outside
        { v with
          state := .closing
          writeBuffer := v.writeBuffer ++ [ServerSocket.closePacket]
          accepted := v.accepted ++ [ServerSocket.closePacket] } .outside
  | lock (h : v.flushMu = false) : Move v .outside { v with flushMu := true } .locked
  | load (hs : v.state ≠ .closed) : Move v .locked v (.loaded v.writeBuffer)
  | hand (ps : List Packet) :
      Move v (.loaded ps) { v with handed := v.handed ++ ps } (.written ps)
  | trim (ps buffer : List Packet) {st : Stage}
      (hb : buffer = if ps.length ≤ v.writeBuffer.length then v.writeBuffer.drop ps.length else [])
      (hst : st = .locked ∨ st = .forcing ∧ buffer = [] ∧ v.state = .closing) :
      Move v (.written ps) { v with writeBuffer := buffer } st
  | giveUp : Move v .forcing v .locked
  | teardown {st st' : Stage} (h : st = .outside ∧ st' = .outside ∨ st.holdsMu = true ∧ st' = .locked)
      : Move v st { v with state := .closed, writeBuffer := [] } st'
  | unlock : Move v .locked { v with flushMu := false } .outside

/-! ## The invariant -/

def Outbound.outbox (v : Outbound) : Outbox Packet := ⟨v.accepted, v.handed, v.writeBuffer⟩

/-- Everything accepted was handed to a transport or is buffered. -/
def Outbound.Complete (v : Outbound) : Prop := v.state ≠ .closed → v.outbox.Balanced []

/-- The accepted packets end with the close packet, the only one of its kind. -/
def EndsWithClose (ps : List Packet) : Prop :=
  ∃ before, ps = before ++ [ServerSocket.closePacket] ∧ ∀ p ∈ before, p.type ≠ .close

structure Outbound.Sound (v : Outbound) : Prop where
  settled : v.flushMu = false → v.Complete
  handed : v.handed <+: v.accepted
  suffix : v.writeBuffer <:+ v.accepted
  emptied : v.state = .closed → v.writeBuffer = []
  early : v.state = .opening ∨ v.state = .open → ∀ p ∈ v.accepted, p.type ≠ .close
  closing : v.state = .closing → EndsWithClose v.accepted

/-- What a goroutine can rely on during a flush. -/
def Stage.Holds (v : Outbound) : Stage → Prop
  | .outside => True
  | .locked => v.flushMu = true ∧ v.Complete
  | .loaded ps => v.flushMu = true ∧ v.Complete ∧ (v.state ≠ .closed → ps <+: v.writeBuffer) ∧
      v.handed ++ ps <+: v.accepted
  | .written ps => v.flushMu = true ∧ (v.state ≠ .closed → v.outbox.Balanced ps)
  | .forcing => v.flushMu = true ∧ v.Complete ∧ (v.state = .closing ∨ v.state = .closed) ∧
      v.handed = v.accepted ∧ EndsWithClose v.accepted

theorem Stage.Holds.flushMu {v : Outbound} {st : Stage} (h : st.Holds v) (hst : st.holdsMu = true) :
    v.flushMu = true := by
  cases st with
  | outside => cases hst
  | locked => exact h.1
  | loaded ps => exact h.1
  | written ps => exact h.1
  | forcing => exact h.1

theorem Stage.Holds.complete {v : Outbound} {st : Stage} (h : st.Holds v) (hst : st.holdsMu = true)
    (hw : ∀ ps, st ≠ .written ps) : v.Complete := by
  cases st with
  | outside => cases hst
  | locked => exact h.2
  | loaded ps => exact h.2.1
  | written ps => exact absurd rfl (hw ps)
  | forcing => exact h.2.1

theorem Outbound.Sound.push {v : Outbound} (hI : v.Sound) (ps : List Packet) :
    (v.flushMu = false → Outbound.Complete
      { v with writeBuffer := v.writeBuffer ++ ps, accepted := v.accepted ++ ps }) ∧
    v.handed <+: v.accepted ++ ps ∧ v.writeBuffer ++ ps <:+ v.accepted ++ ps := by
  refine ⟨fun hf hs => (hI.settled hf hs).accept ps, hI.handed.trans (List.prefix_append _ _), ?_⟩
  obtain ⟨front, hfront⟩ := hI.suffix
  exact ⟨front, by rw [← hfront, List.append_assoc]⟩

variable {v v' : Outbound} {st st' m : Stage}

theorem Move.sound (h : Move v st v' st') (hI : v.Sound) (hJ : st.Holds v) : v'.Sound := by
  cases h with
  | quiet _ => exact hI
  | opened hs =>
    refine ⟨fun hf _ => hI.settled hf (by simp [hs]), hI.handed, hI.suffix, fun h => ?_,
      fun _ => hI.early (.inl hs), fun h => ?_⟩
    · cases h
    · cases h
  | push p hs hp =>
    obtain ⟨h1, h2, h3⟩ := hI.push [p]
    refine ⟨h1, h2, h3, fun h => ?_, fun _ q hq => ?_, fun h => ?_⟩
    · exact absurd h (by rcases hs with hs | hs <;> simp [hs])
    · rcases List.mem_append.1 hq with hq | hq
      · exact hI.early hs q hq
      · obtain rfl := List.mem_singleton.1 hq
        exact hp
    · exact absurd h (by rcases hs with hs | hs <;> simp [hs])
  | last hs =>
    obtain ⟨h1, h2, h3⟩ := hI.push [ServerSocket.closePacket]
    have hlive : v.state ≠ .closed := by rcases hs with hs | hs <;> simp [hs]
    refine ⟨fun hf _ => h1 hf hlive, h2, h3, fun h => ?_, fun h => ?_, fun _ => ?_⟩
    · cases h
    · rcases h with h | h <;> cases h
    · exact ⟨v.accepted, rfl, hI.early hs⟩
  | lock _ =>
    exact ⟨fun h => Bool.noConfusion h, hI.handed, hI.suffix, hI.emptied, hI.early, hI.closing⟩
  | load _ => exact hI
  | hand ps =>
    obtain ⟨hmu, -, -, hps⟩ := hJ
    refine ⟨fun h => ?_, hps, hI.suffix, hI.emptied, hI.early, hI.closing⟩
    exact absurd (hmu.symm.trans h) (by decide)
  | trim ps buffer hb _ =>
    obtain ⟨hmu, -⟩ := hJ
    refine ⟨fun h => ?_, hI.handed, ?_, fun h => ?_, hI.early, hI.closing⟩
    · exact absurd (hmu.symm.trans h) (by decide)
    · show buffer <:+ v.accepted
      rw [hb]
      split
      · exact (List.drop_suffix _ _).trans hI.suffix
      · exact List.nil_suffix
    · show buffer = []
      rw [hb, hI.emptied h]
      simp
  | giveUp => exact hI
  | teardown _ =>
    refine ⟨fun _ h => absurd rfl h, hI.handed, List.nil_suffix, fun _ => rfl, fun h => ?_, fun h => ?_⟩
    · rcases h with h | h <;> cases h
    · cases h
  | unlock => exact ⟨fun _ => hJ.2, hI.handed, hI.suffix, hI.emptied, hI.early, hI.closing⟩

/-- Dropping what was handed off balances the books again. -/
theorem Outbound.trim_complete {ps buffer : List Packet}
    (hbal : v.state ≠ .closed → v.outbox.Balanced ps)
    (hb : buffer = if ps.length ≤ v.writeBuffer.length then v.writeBuffer.drop ps.length else []) :
    Outbound.Complete { v with writeBuffer := buffer } := by
  intro hs
  have h := hbal hs
  rw [if_pos (show ps.length ≤ v.writeBuffer.length from h.length_le)] at hb
  have htrim := h.trim
  unfold Outbox.trim at htrim
  subst hb
  exact htrim

theorem Move.holds (h : Move v st v' st') (hI : v.Sound) (hJ : st.Holds v) : st'.Holds v' := by
  cases h with
  | quiet hst =>
    rcases hst with rfl | ⟨hmu, -, rfl, hw⟩
    · exact hJ
    · exact ⟨hJ.flushMu hmu, hJ.complete hmu hw⟩
  | opened _ => trivial
  | push p _ _ => trivial
  | last _ => trivial
  | lock hf => exact ⟨rfl, hI.settled hf⟩
  | load hs =>
    refine ⟨hJ.1, hJ.2, fun _ => List.prefix_rfl, ?_⟩
    have htotal := (hJ.2 hs).total
    rw [show v.handed ++ v.writeBuffer = v.accepted from htotal]
  | hand ps =>
    obtain ⟨hmu, hbal, hfront, -⟩ := hJ
    exact ⟨hmu, fun hs => (hbal hs).write (hfront hs)⟩
  | trim ps buffer hb hst =>
    obtain ⟨hmu, hbal⟩ := hJ
    have hcomplete := Outbound.trim_complete hbal hb
    rcases hst with rfl | ⟨rfl, hnil, hs⟩
    · exact ⟨hmu, hcomplete⟩
    · have hlive : v.state ≠ .closed := by simp [hs]
      refine ⟨hmu, hcomplete, .inl hs, ?_, hI.closing hs⟩
      have htotal := (hcomplete hlive).total
      have hb' : v.handed ++ buffer = v.accepted := htotal
      rwa [hnil, List.append_nil] at hb'
  | giveUp => exact ⟨hJ.1, hJ.2.1⟩
  | teardown hst =>
    rcases hst with ⟨-, rfl⟩ | ⟨hmu, rfl⟩
    · trivial
    · exact ⟨hJ.flushMu hmu, fun h => absurd rfl h⟩
  | unlock => trivial

/-- What a packet accepted meanwhile leaves to a flush. -/
theorem Stage.Holds.push (h : st.Holds v) (hs : v.state = .opening ∨ v.state = .open)
    (s : SessionState) (ps : List Packet) :
    st.Holds { v with
      state := s, writeBuffer := v.writeBuffer ++ ps, accepted := v.accepted ++ ps } := by
  have hlive : v.state ≠ .closed := by rcases hs with hs | hs <;> simp [hs]
  cases st with
  | outside => trivial
  | locked => exact ⟨h.1, fun _ => (h.2 hlive).accept ps⟩
  | loaded qs =>
    obtain ⟨hmu, hbal, hfront, hqs⟩ := h
    exact ⟨hmu, fun _ => (hbal hlive).accept ps,
      fun _ => (hfront hlive).trans (List.prefix_append _ _), hqs.trans (List.prefix_append _ _)⟩
  | written qs => exact ⟨h.1, fun _ => (h.2 hlive).accept ps⟩
  | forcing =>
    obtain ⟨-, -, hclosing, -⟩ := h
    rcases hs with hs | hs <;> rw [hs] at hclosing <;> rcases hclosing with h | h <;> cases h

theorem Stage.Holds.teardown (h : st.Holds v) :
    st.Holds { v with state := .closed, writeBuffer := [] } := by
  cases st with
  | outside => trivial
  | locked => exact ⟨h.1, fun h => absurd rfl h⟩
  | loaded qs => exact ⟨h.1, fun h => absurd rfl h, fun h => absurd rfl h, h.2.2.2⟩
  | written qs => exact ⟨h.1, fun h => absurd rfl h⟩
  | forcing => exact ⟨h.1, fun h => absurd rfl h, .inr rfl, h.2.2.2⟩

/-- Two goroutines do not both hold `flushMu`. -/
def Stage.Exclusive (st m : Stage) : Prop := st.holdsMu = false ∨ m.holdsMu = false

theorem Stage.Holds.outside (h : m.holdsMu = false) : m.Holds v := by
  cases m with
  | outside => trivial
  | _ => cases h

theorem Move.bystander (h : Move v st v' st') (hm : m.Holds v) (hK : st.Exclusive m) :
    m.Holds v' ∧ st'.Exclusive m := by
  cases h with
  | quiet hst =>
    refine ⟨hm, ?_⟩
    rcases hst with rfl | ⟨hmu, -, -, -⟩
    · exact hK
    · exact .inr (hK.resolve_left (by simp [hmu]))
  | opened hs =>
    refine ⟨?_, .inl rfl⟩
    have := hm.push (.inl hs) .open []
    simpa using this
  | push p hs hp => exact ⟨hm.push hs _ _, .inl rfl⟩
  | last hs => exact ⟨hm.push hs _ _, .inl rfl⟩
  | lock hf =>
    have hout : m.holdsMu = false := by
      by_contra hcon
      have := hm.flushMu (by simpa using hcon)
      rw [hf] at this
      cases this
    exact ⟨.outside hout, .inr hout⟩
  | load _ => exact ⟨hm, .inr (hK.resolve_left (by decide))⟩
  | hand ps =>
    have hout := hK.resolve_left (by simp [Stage.holdsMu])
    exact ⟨.outside hout, .inr hout⟩
  | trim ps buffer hb hst =>
    have hout := hK.resolve_left (by simp [Stage.holdsMu])
    exact ⟨.outside hout, .inr hout⟩
  | giveUp => exact ⟨hm, .inr (hK.resolve_left (by decide))⟩
  | teardown hst =>
    refine ⟨hm.teardown, ?_⟩
    rcases hst with ⟨-, rfl⟩ | ⟨hmu, rfl⟩
    · exact .inl rfl
    · exact .inr (hK.resolve_left (by simp [hmu]))
  | unlock => exact ⟨.outside (hK.resolve_left (by decide)), .inl rfl⟩

theorem Move.raises (h : Move v st v' st') (hmu : v'.flushMu = true) :
    v.flushMu = true ∨ st'.holdsMu = true := by
  cases h with
  | lock _ => exact .inr rfl
  | unlock => cases hmu
  | _ => exact .inl hmu

theorem Move.keeps (h : Move v st v' st') (hst : st.holdsMu = true) (hmu : v'.flushMu = true) :
    st'.holdsMu = true := by
  cases h with
  | quiet h =>
    rcases h with rfl | ⟨-, -, rfl, -⟩
    · exact hst
    · rfl
  | load _ => rfl
  | hand _ => rfl
  | trim _ _ _ h =>
    rcases h with rfl | ⟨rfl, -, -⟩
    · rfl
    · rfl
  | giveUp => rfl
  | teardown h =>
    rcases h with ⟨rfl, -⟩ | ⟨-, rfl⟩
    · cases hst
    · rfl
  | unlock => cases hmu
  | _ => cases hst

/-- A close packet that is still buffered is the last one accepted. -/
theorem Outbound.Sound.close_buffered {p : Packet} (hI : v.Sound) (hp : p ∈ v.writeBuffer)
    (htype : p.type = .close) : v.state = .closing ∧ EndsWithClose v.writeBuffer := by
  have hmem : p ∈ v.accepted := hI.suffix.subset hp
  have hstate : v.state = .closing := by
    cases hs : v.state with
    | opening => exact absurd htype (hI.early (.inl hs) p hmem)
    | «open» => exact absurd htype (hI.early (.inr hs) p hmem)
    | closing => rfl
    | closed =>
      rw [hI.emptied hs] at hp
      cases hp
  obtain ⟨before, hacc, hbefore⟩ := hI.closing hstate
  obtain ⟨front, hfront⟩ := hI.suffix
  rw [hacc] at hfront
  refine ⟨hstate, ?_⟩
  -- the buffer is not empty, so it ends as the accepted packets do
  rcases List.eq_nil_or_concat v.writeBuffer with hnil | ⟨init, last, hlast⟩
  · rw [hnil] at hp
    cases hp
  · rw [List.concat_eq_append] at hlast
    rw [hlast, ← List.append_assoc] at hfront
    obtain ⟨hinit, hl⟩ := List.append_inj' hfront rfl
    refine ⟨init, by rw [hlast, hl], fun q hq => hbefore q ?_⟩
    rw [← hinit]
    exact List.mem_append_right _ hq

/-- Nothing is appended once the session is closing. -/
theorem Move.closing (h : Move v st v' st') (hs : v.state = .closing ∨ v.state = .closed) :
    v'.writeBuffer <:+ v.writeBuffer ∧ v'.accepted = v.accepted := by
  have hno : ¬ (v.state = .opening ∨ v.state = .open) := by
    rcases hs with hs | hs <;> simp [hs]
  cases h with
  | push p hlive _ => exact absurd hlive hno
  | last hlive => exact absurd hlive hno
  | trim ps buffer hb _ =>
    refine ⟨?_, rfl⟩
    show buffer <:+ v.writeBuffer
    rw [hb]
    split
    · exact List.drop_suffix _ _
    · exact List.nil_suffix
  | teardown _ => exact ⟨List.nil_suffix, rfl⟩
  | _ => exact ⟨List.suffix_rfl, rfl⟩

/-! ## The session refines its outbound buffer -/

theorem Pc.stage_eq_written {pc : Pc} {packets : List Packet} (h : pc.stage = .written packets) :
    ∃ k, pc = .flush (.endFlush k packets) := by
  cases pc with
  | flush pc =>
    cases pc with
    | endFlush k ps => cases h; exact ⟨k, rfl⟩
    | _ => cases h
  | teardown pc =>
    cases pc with
    | beginTeardown reason r =>
      cases r with
      | done => cases h
      | flush k =>
        simp only [Pc.stage, TeardownPc.stage] at h
        split at h <;> cases h
    | closeStop _ r _ _ _ => cases r <;> cases h
    | closeTransport _ r _ _ => cases r <;> cases h
    | closeUpgrade _ r _ => cases r <;> cases h
    | closeHandler _ r => cases r <;> cases h
  | _ => cases h

theorem Return.resume_stage (r : Return) : r.resume.stage = r.stage := by
  cases r <;> rfl

theorem Cont.resume_stage (k : Cont) : k.resume.stage = .outside := by
  cases k <;> rfl

theorem World.Releases.outbound {w w' : World} (h : w.Releases w') : w'.outbound = w.outbound := by
  obtain ⟨polling, closed, inbox, stopped, rfl⟩ := h
  rfl

/-- A section that does not touch the outbound fields. -/
theorem Move.unchanged {w w' : World} {pc pc' : Pc} (hw : w'.outbound = w.outbound)
    (hst : pc'.stage = pc.stage) : Move w.outbound pc.stage w'.outbound pc'.stage := by
  rw [hw]
  exact .quiet (.inl hst)

variable {w w' : World} {a : Choice} {pc' : Pc}

theorem startCall_move {c : Call} (h : startCall w c = some (w', pc')) :
    Move w.outbound .outside w'.outbound pc'.stage := by
  revert h
  fun_cases startCall w c <;> intro h <;> cases h
  all_goals exact .quiet (.inl rfl)

theorem execFlush_move {pc : FlushPc} (h : execFlush w pc a = some (w', pc')) :
    Move w.outbound pc.stage w'.outbound pc'.stage := by
  revert h
  fun_cases execFlush w pc a <;> intro h <;> cases h
  · rename_i hmu
    exact .lock (Bool.eq_false_iff.2 hmu)
  · exact .quiet (.inl rfl)
  · rename_i hs
    obtain ⟨hlive, -, -, rfl⟩ := ServerSocket.beginFlush_eq_some.1 hs
    exact .load hlive
  · -- no poll is held, or the transport is closed: the packets stay buffered
    exact .quiet (.inr ⟨rfl, nofun, rfl, nofun⟩)
  · exact .hand _
  · exact .quiet (.inr ⟨rfl, nofun, rfl, nofun⟩)
  · exact .quiet (.inl rfl)
  · exact .hand _
  · exact .quiet (.inr ⟨rfl, nofun, rfl, nofun⟩)
  · rename_i k packets s
    refine .trim packets _ rfl ?_
    split
    · rename_i hs
      exact .inr ⟨rfl, hs.1, hs.2⟩
    · split <;> exact .inl rfl
  · rw [Cont.resume_stage]
    exact .unlock

theorem execTeardown_move {pc : TeardownPc} (h : execTeardown w pc a = some (w', pc')) :
    Move w.outbound pc.stage w'.outbound pc'.stage := by
  revert h
  fun_cases execTeardown w pc a <;> intro h <;> cases h
  · rename_i reason r hs
    rw [Return.resume_stage]
    cases r with
    | done => exact .quiet (.inl rfl)
    | flush k =>
      by_cases hr : reason = .forcedClose
      · subst hr
        exact .giveUp
      · rw [show (TeardownPc.beginTeardown reason (.flush k)).stage = .locked from if_neg hr]
        exact .quiet (.inl rfl)
  · rename_i reason r s old probe stop hs
    obtain ⟨-, rfl, -, -, -⟩ := ServerSocket.beginTeardown_eq_some.1 hs
    refine .teardown ?_
    cases r with
    | done => exact .inl ⟨rfl, rfl⟩
    | flush k =>
      refine .inr ⟨?_, rfl⟩
      show (if reason = .forcedClose then Stage.forcing else Stage.locked).holdsMu = true
      split <;> rfl
  · rw [(w.closeStop?_releases _).outbound]
    exact .quiet (.inl rfl)
  · rw [(w.closeTransport?_releases _).outbound]
    exact .quiet (.inl rfl)
  · rw [(w.closeTransport?_releases _).outbound]
    exact .quiet (.inl rfl)
  · rw [Return.resume_stage]
    exact .quiet (.inl rfl)

theorem execPoll_move {pc : PollPc} (h : execPoll w pc a = some (w', pc')) :
    Move w.outbound .outside w'.outbound pc'.stage := by
  revert h
  fun_cases execPoll w pc a <;> intro h <;> cases h
  case case4 => split <;> exact .quiet (.inl rfl)
  all_goals exact .quiet (.inl rfl)

theorem execUpgrade_move {pc : UpgradePc} (h : execUpgrade w pc a = some (w', pc')) :
    Move w.outbound .outside w'.outbound pc'.stage := by
  revert h
  fun_cases execUpgrade w pc a <;> intro h <;> cases h
  case case2 hs =>
    obtain ⟨-, rfl⟩ := ServerSocket.startUpgrade_eq_some.1 hs
    exact .quiet (.inl rfl)
  case case5 hs =>
    obtain ⟨-, rfl⟩ := ServerSocket.onProbe_eq_some.1 hs
    exact .quiet (.inl rfl)
  case case6 =>
    split <;> exact .quiet (.inl rfl)
  case case11 hs =>
    obtain ⟨-, rfl, -, -⟩ := ServerSocket.beginCompleteUpgrade_eq_some.1 hs
    exact .quiet (.inl rfl)
  case case15 hs =>
    obtain ⟨-, rfl, -⟩ := ServerSocket.beginAbortUpgrade_eq_some.1 hs
    exact .quiet (.inl rfl)
  all_goals
    first
      | exact .quiet (.inl rfl)
      | rw [(w.closeTransport_releases _).outbound]
        exact .quiet (.inl rfl)
      | rw [(w.closeTransport?_releases _).outbound]
        exact .quiet (.inl rfl)
      | rw [(w.closeStop?_releases _).outbound]
        exact .quiet (.inl rfl)
      | rw [(w.deliver_releases _ _ _).outbound]
        exact .quiet (.inl rfl)

theorem exec_move {pc : Pc} (h : exec w pc a = some (w', pc')) :
    Move w.outbound pc.stage w'.outbound pc'.stage := by
  revert h
  fun_cases exec w pc a <;> intro h
  · exact startCall_move h
  · cases h
    rcases w.sock.open_cases with ⟨hs, hopened⟩ | hsame
    · rw [hopened]
      exact .opened hs
    · rw [hsame]
      exact .quiet (.inl rfl)
  · cases h
    exact .quiet (.inl rfl)
  · cases h
    rename_i hs
    obtain ⟨hlive, rfl⟩ := ServerSocket.send_eq_some.1 hs
    refine .push _ hlive ?_
    show PacketType.message ≠ PacketType.close
    decide
  · cases h
    exact .quiet (.inl rfl)
  · cases h
    rename_i hs
    obtain ⟨hlive, rfl⟩ := ServerSocket.beginClose_eq_some.1 hs
    exact .last hlive
  · cases h
    refine .unchanged ?_ rfl
    unfold ServerSocket.armCloseTimer
    split <;> rfl
  · cases h
    refine .unchanged ?_ rfl
    unfold ServerSocket.onPong
    split <;> rfl
  · cases h
    exact .quiet (.inl rfl)
  · cases h
    rename_i hs
    obtain ⟨hlive, rfl⟩ := ServerSocket.sendPing_eq_some.1 hs
    exact .push _ (.inr hlive) (by decide)
  · exact execFlush_move h
  · exact execTeardown_move h
  · exact execPoll_move h
  · exact execUpgrade_move h
  · cases h

theorem reach_sound {c : Pool World Pc} (hc : program.Reachable c) :
    c.shared.outbound.Sound ∧ (∀ i, (c.thread i).stage.Holds c.shared.outbound) ∧
      ∀ i j, i ≠ j → (c.thread i).stage.Exclusive (c.thread j).stage := by
  refine hc.outline (I := fun w => w.outbound.Sound) (J := fun w pc => pc.stage.Holds w.outbound)
    (K := fun pc m => pc.stage.Exclusive m.stage) (fun _ _ => Or.symm) (.inl rfl) ?_ ?_
  · rintro w ⟨type, rfl⟩
    refine ⟨⟨fun _ _ => ⟨List.prefix_rfl, rfl⟩, List.prefix_rfl, List.suffix_rfl, fun _ => rfl,
      fun _ p hp => absurd hp List.not_mem_nil, fun h => ?_⟩, trivial⟩
    cases h
  · intro w pc a w' pc' _ hI hJ hx
    have hm := exec_move hx
    exact ⟨hm.sound hI hJ, hm.holds hI hJ, fun m hJm hK => hm.bystander hJm hK⟩

/-- A locked `flushMu` has a holder. -/
theorem flushMu_owned {c : Pool World Pc} (hc : program.Reachable c)
    (hmu : c.shared.flushMu = true) : ∃ i, (c.thread i).stage.holdsMu = true := by
  refine hc.owner (H := fun w => w.outbound.flushMu = true)
    (O := fun pc => pc.stage.holdsMu = true) ?_ ?_ hmu
  · rintro w ⟨type, rfl⟩ h
    cases h
  · intro c i a w' pc' _ _ hx hmu'
    by_cases hpc : (c.thread i).stage.holdsMu = true
    · exact .inr ((exec_move hx).keeps hpc hmu')
    · exact ((exec_move hx).raises hmu').imp_left fun hold => ⟨hold, hpc⟩

/-! ## Main results -/

/-- A polling transport that has been closed refuses the snapshot of a flush. -/
theorem send_polling_closed {w w' : World} {k : Cont} {t : Transport} {packets : List Packet}
    {a : Choice} {pc' : Pc} (ht : t.type = .polling) (hcl : w.polling.closed = true)
    (h : exec w (.flush (.send k t packets)) a = some (w', pc')) : w'.outbound = w.outbound := by
  have hsend : w.polling.send = (w.polling, none) := if_pos hcl
  cases a with
  | go =>
    simp only [exec, execFlush, ht, if_true, hsend, Option.some.injEq, Prod.mk.injEq] at h
    exact congrArg World.outbound h.1.symm
  | _ => cases h

/-- **The outbound buffer is FIFO and exactly-once.** In every reachable pool the packets of the
    successful writes are a prefix of the accepted ones, and unless the session is closed or a flush
    stands between its write and the trimming, the write buffer holds exactly the others. A flush
    whose polling transport was closed under it leaves all of this as it was. -/
theorem outbound_fifo (c : Pool World Pc) (hc : program.Reachable c) :
    c.shared.handed <+: c.shared.accepted ∧
    (c.shared.sock.state ≠ .closed → (∀ i k packets, c.thread i ≠ .flush (.endFlush k packets)) →
      c.shared.handed ++ c.shared.sock.writeBuffer = c.shared.accepted) ∧
    ∀ i k t packets a c', c.thread i = .flush (.send k t packets) → t.type = .polling →
      c.shared.polling.closed = true → program.step c i a = some c' →
      c'.shared.handed = c.shared.handed ∧
        c'.shared.sock.writeBuffer = c.shared.sock.writeBuffer := by
  obtain ⟨hI, hJ, -⟩ := reach_sound hc
  refine ⟨hI.handed, fun hlive hno => ?_, fun i k t packets a c' hpc ht hcl hstep => ?_⟩
  · have hcomplete : c.shared.outbound.Complete := by
      cases hmu : c.shared.flushMu with
      | false => exact hI.settled hmu
      | true =>
        obtain ⟨i, hi⟩ := flushMu_owned hc hmu
        refine (hJ i).complete hi fun ps hps => ?_
        obtain ⟨k, hpc⟩ := Pc.stage_eq_written hps
        exact hno i k ps hpc
    exact (hcomplete hlive).total
  · obtain ⟨w', pc', hx, rfl⟩ := Program.step_eq_some hstep
    rw [hpc] at hx
    have hout := send_polling_closed ht hcl hx
    exact ⟨congrArg Outbound.handed hout, congrArg Outbound.writeBuffer hout⟩

/-- A websocket session that has sent one message: the flush is between its write and its
    trimming. -/
def sentOverWebSocket : List (Nat × Choice) :=
  [(0, .call .open), (0, .go), (1, .call (.send [97] false)), (1, .go), (1, .go), (1, .go), (1, .go),
    (1, .written true)]

/-- After the trimming section, and with a second message accepted meanwhile, one message is handed
    off and one is buffered. -/
theorem outbound_fifo_run :
    ∃ c, program.Reachable c ∧ c.shared.handed = [{ type := .message, data := [97] }] ∧
      c.shared.sock.writeBuffer = [{ type := .message, data := [98] }] ∧
      c.shared.handed ++ c.shared.sock.writeBuffer = c.shared.accepted := by
  have hrun : ∃ c, program.run freshWebSocket
      (sentOverWebSocket ++ [(2, Choice.call (.send [98] false)), (2, .go), (1, .go)]) = some c ∧
      c.shared.handed = [{ type := .message, data := [97] }] ∧
      c.shared.sock.writeBuffer = [{ type := .message, data := [98] }] ∧
      c.shared.sock.state = .open ∧ ∀ i k packets, c.thread i ≠ .flush (.endFlush k packets) := by
    refine ⟨_, rfl, rfl, rfl, rfl, ?_⟩
    rintro (_ | _ | _ | i) k packets <;> exact nofun
  obtain ⟨c, hrun, hhanded, hbuffer, hstate, hno⟩ := hrun
  have hc := freshWebSocket_reachable.run hrun
  exact ⟨c, hc, hhanded, hbuffer, (outbound_fifo c hc).2.1 (by simp [hstate]) hno⟩

/-- **A graceful close drains.** In every reachable pool a close packet in the write buffer means that
    the session is closing, and it is the last packet and the only one of its kind; nothing is
    appended to the buffer of a closing or closed session; and a flush forces the close only when
    everything accepted before `Close`, and then the close packet, has been handed to a
    transport. -/
theorem graceful_close_drains (c : Pool World Pc) (hc : program.Reachable c) :
    ((∃ p ∈ c.shared.sock.writeBuffer, p.type = .close) →
      c.shared.sock.state = .closing ∧ EndsWithClose c.shared.sock.writeBuffer) ∧
    (∀ i a c', program.step c i a = some c' →
      c.shared.sock.state = .closing ∨ c.shared.sock.state = .closed →
      c'.shared.sock.writeBuffer <:+ c.shared.sock.writeBuffer ∧
        c'.shared.accepted = c.shared.accepted) ∧
    ∀ i k, c.thread i = .teardown (.beginTeardown .forcedClose (.flush k)) →
      EndsWithClose c.shared.accepted ∧ c.shared.handed = c.shared.accepted := by
  obtain ⟨hI, hJ, -⟩ := reach_sound hc
  refine ⟨fun ⟨p, hp, htype⟩ => hI.close_buffered hp htype, fun i a c' hstep hs => ?_,
    fun i k hpc => ?_⟩
  · obtain ⟨w', pc', hx, rfl⟩ := Program.step_eq_some hstep
    exact (exec_move hx).closing hs
  · have hst := hJ i
    rw [hpc] at hst
    obtain ⟨-, -, -, hhanded, hends⟩ := hst
    exact ⟨hends, hhanded⟩

/-- A message and then `Close` on a websocket session: the flush of `Close` is about to force the
    close, with both packets handed off. -/
theorem graceful_close_run :
    ∃ c i k, program.Reachable c ∧
      c.thread i = .teardown (.beginTeardown .forcedClose (.flush k)) ∧
      c.shared.handed = [{ type := .message, data := [97] }, ServerSocket.closePacket] ∧
      EndsWithClose c.shared.accepted ∧ c.shared.handed = c.shared.accepted := by
  have hrun : ∃ c, program.run freshWebSocket
      (sentOverWebSocket ++ [(2, Choice.call .close), (2, .go), (1, .go), (1, .go), (1, .go),
        (1, .written true), (1, .go)]) = some c ∧
      c.thread 1 = .teardown (.beginTeardown .forcedClose (.flush .done)) ∧
      c.shared.handed = [{ type := .message, data := [97] }, ServerSocket.closePacket] :=
    ⟨_, rfl, rfl, rfl⟩
  obtain ⟨c, hrun, hpc, hhanded⟩ := hrun
  have hc := freshWebSocket_reachable.run hrun
  exact ⟨c, 1, .done, hc, hpc, hhanded, (graceful_close_drains c hc).2.2 1 .done hpc⟩

end EngineIo.Server
