import EngineIo.Client.Goroutine

set_option autoImplicit false

/-! # The lifecycle of a client `Socket`

`Open` claims `closed → opening`, an open packet completes `opening → open`, `Close` claims
`closing`, and a teardown ends in `closed`, whatever the state was. `recordOpen` is the exception:
`onPacket` tests the state in one section and `recordOpen` writes it in another, without a test of
its own. `LifeStep` says what each section does to the lifecycle; from it follows that this is the
only way to break it, and that the close handler runs at most once for each call of `Open`. -/

namespace EngineIo.Client

open Concurrency

/-- The transitions of the lifecycle, with the section that may take each. -/
inductive Transition (g : Goroutine) : SocketState → SocketState → Prop
  | beginOpen {call : Nat} (h : g.pc = .opening (.beginOpen call)) : Transition g .closed .opening
  | recordOpen {p : OpenPacket} (h : g.pc = .packet (.recordOpen p)) : Transition g .opening .open
  | beginCloseTransport {s : SocketState} (h : g.pc = .close .beginCloseTransport)
      (hs : s = .open ∨ s = .opening) : Transition g s .closing
  | closed (s : SocketState) : Transition g s .closed

/-- The call of `Open` a goroutine answers for: one not yet claimed, or one whose close handler it
    is about to run. -/
def Goroutine.token (g : Goroutine) : Option Nat :=
  match g.pc with
  | .opening (.beginOpen call) => some call
  | .teardown (.closeHandler call) => some call
  | _ => none

theorem Cont.resume_token (o : Origin) (k : Cont) : (k.resume o).token = none := by
  cases k <;> rfl

/-- What a section does to the lifecycle. -/
inductive LifeStep (w : World) (g : Goroutine) (w' : World) (g' : Goroutine) : Prop
  | quiet (hs : w'.sock.state = w.sock.state) (hc : w'.call = w.call) (hn : w'.calls = w.calls)
      (hr : w'.closeRuns = w.closeRuns)
      (ht : w.sock.transport.isSome = true → w'.sock.transport.isSome = true)
      (hg : g'.token = none)
  | call (hw : w' = { w with calls := w.calls + 1 }) (hg : g'.token = some w.calls)
  | claim {call : Nat} (hpc : g.pc = .opening (.beginOpen call)) (hs : w.sock.state = .closed)
      (hs' : w'.sock.state = .opening) (hc : w'.call = call) (hn : w'.calls = w.calls)
      (hr : w'.closeRuns = w.closeRuns) (hg : g'.token = none)
  | record {p : OpenPacket} (hpc : g.pc = .packet (.recordOpen p)) (hs : w'.sock.state = .open)
      (hc : w'.call = w.call) (hn : w'.calls = w.calls) (hr : w'.closeRuns = w.closeRuns)
      (ht : w'.sock.transport = w.sock.transport) (hg : g'.token = none)
  | closing (hpc : g.pc = .close .beginCloseTransport) (hs : w.sock.state.active = true)
      (hs' : w'.sock.state = .closing) (hc : w'.call = w.call) (hn : w'.calls = w.calls)
      (hr : w'.closeRuns = w.closeRuns) (hg : g'.token = none)
  | fail (hs : w'.sock.state = .closed) (hc : w'.call = w.call) (hn : w'.calls = w.calls)
      (hr : w'.closeRuns = w.closeRuns) (hg : g'.token = none)
  | release (hs : w.sock.state.live = true) (hs' : w'.sock.state = .closed)
      (hc : w'.call = w.call) (hn : w'.calls = w.calls) (hr : w'.closeRuns = w.closeRuns)
      (hg : g'.token = some w.call)
  | report {call : Nat} (hg : g.token = some call)
      (hw : w' = { w with closeRuns := call :: w.closeRuns }) (hg' : g'.token = none)

theorem startCall_life {w w' : World} {g g' : Goroutine} {c : Call}
    (h : startCall w c = some (w', g')) : LifeStep w g w' g' := by
  revert h
  fun_cases startCall w c <;> intro h <;> cases h
  · exact .call rfl rfl
  all_goals exact .quiet rfl rfl rfl rfl id rfl

theorem execOpen_life {w w' : World} {o : Origin} {pc : OpenPc} {a : Choice} {g' : Goroutine}
    (h : execOpen w o pc a = some (w', g')) : LifeStep w ⟨o, .opening pc⟩ w' g' := by
  revert h
  fun_cases execOpen w o pc a <;> intro h <;> cases h
  · exact .quiet rfl rfl rfl rfl id rfl
  · rename_i hs
    obtain ⟨hclosed, rfl⟩ := Socket.beginOpen_eq_some.1 hs
    exact .claim rfl hclosed rfl rfl rfl rfl rfl
  · exact .quiet rfl rfl rfl rfl id rfl
  · exact .quiet rfl rfl rfl rfl id rfl
  · exact .fail rfl rfl rfl rfl rfl
  · exact .quiet rfl rfl rfl rfl (fun _ => rfl) rfl

theorem execFlush_life {w w' : World} {o : Origin} {pc : FlushPc} {a : Choice} {g' : Goroutine}
    (h : execFlush w o pc a = some (w', g')) : LifeStep w ⟨o, .flush pc⟩ w' g' := by
  revert h
  fun_cases execFlush w o pc a <;> intro h <;> cases h
  · exact .quiet rfl rfl rfl rfl id rfl
  · rename_i hs
    obtain ⟨-, rfl⟩ := Socket.send_eq_some.1 hs
    exact .quiet rfl rfl rfl rfl id rfl
  · exact .quiet rfl rfl rfl rfl id (Cont.resume_token _ _)
  · rename_i hs
    obtain ⟨-, rfl, -⟩ := Socket.beginFlush_eq_some.1 hs
    exact .quiet rfl rfl rfl rfl id rfl
  · exact .quiet rfl rfl rfl rfl id rfl
  · exact .quiet rfl rfl rfl rfl id rfl
  · exact .quiet rfl rfl rfl rfl id rfl
  · exact .quiet rfl rfl rfl rfl id rfl
  · rename_i hs
    obtain ⟨-, rfl⟩ := Socket.endFlush_eq_some hs
    refine .quiet rfl rfl rfl rfl id ?_
    split
    · rfl
    · exact Cont.resume_token _ _

theorem execClose_life {w w' : World} {o : Origin} {pc : ClosePc} {a : Choice} {g' : Goroutine}
    (h : execClose w o pc a = some (w', g')) : LifeStep w ⟨o, .close pc⟩ w' g' := by
  revert h
  fun_cases execClose w o pc a <;> intro h <;> cases h
  · exact .quiet rfl rfl rfl rfl id rfl
  · exact .quiet rfl rfl rfl rfl id rfl
  · exact .quiet rfl rfl rfl rfl id rfl
  · exact .quiet rfl rfl rfl rfl id rfl
  · rename_i hs
    obtain ⟨hactive, rfl, -⟩ := Socket.beginCloseTransport_eq_some.1 hs
    exact .closing rfl hactive rfl rfl rfl rfl rfl

theorem execPacket_life {w w' : World} {o : Origin} {pc : PacketPc} {a : Choice} {g' : Goroutine}
    (h : execPacket w o pc a = some (w', g')) : LifeStep w ⟨o, .packet pc⟩ w' g' := by
  obtain ⟨timer, htimer⟩ := Socket.reschedulePingTimeout_eq (o.conn w) w.sock
  revert h
  fun_cases execPacket w o pc a <;> intro h <;> cases h
  · exact .quiet rfl rfl rfl rfl id rfl
  · exact .quiet rfl rfl rfl rfl id rfl
  · refine .quiet ?_ rfl rfl rfl ?_ ?_
    · rw [htimer]
    · rw [htimer]; exact id
    · split
      · rfl
      · split <;> rfl
  · exact .quiet rfl rfl rfl rfl id rfl
  · exact .quiet rfl rfl rfl rfl id rfl
  · refine .record rfl rfl rfl rfl rfl rfl ?_
    split <;> rfl
  · refine .quiet ?_ rfl rfl rfl ?_ rfl
    · rw [htimer]
    · rw [htimer]; exact id
  · exact .quiet rfl rfl rfl rfl id rfl
  · exact .quiet rfl rfl rfl rfl id rfl

theorem execTeardown_life {w w' : World} {o : Origin} {pc : TeardownPc} {a : Choice}
    {g' : Goroutine} (h : execTeardown w o pc a = some (w', g')) :
    LifeStep w ⟨o, .teardown pc⟩ w' g' := by
  revert h
  fun_cases execTeardown w o pc a <;> intro h <;> cases h
  · rename_i hs
    obtain ⟨hr, rfl⟩ := Socket.beginRetry_eq_true hs
    have hopening : w.sock.state = .opening := by
      simp only [Socket.retries, Bool.and_eq_true, decide_eq_true_eq] at hr
      exact hr.2
    exact .release (by rw [hopening]; rfl) rfl rfl rfl rfl rfl
  · rename_i hs
    obtain ⟨-, rfl⟩ := Socket.beginRetry_eq_false hs
    exact .quiet rfl rfl rfl rfl id rfl
  · exact .quiet rfl rfl rfl rfl id rfl
  · rename_i hs
    obtain ⟨hl, rfl, -⟩ := Socket.beginTeardown_eq_some.1 hs
    exact .release hl rfl rfl rfl rfl rfl
  · exact .report rfl rfl rfl

theorem execProbe_life {w w' : World} {o : Origin} {pc : ProbePc} {a : Choice} {g' : Goroutine}
    (h : execProbe w o pc a = some (w', g')) : LifeStep w ⟨o, .probe pc⟩ w' g' := by
  revert h
  fun_cases execProbe w o pc a <;> intro h <;> cases h
  all_goals first
    | exact .quiet rfl rfl rfl rfl id rfl
    | (rename_i hs
       obtain ⟨-, rfl, -⟩ := Socket.beginUpgrade_eq_some.1 hs
       exact .quiet rfl rfl rfl rfl id rfl)
    | (rename_i hs
       obtain ⟨-, rfl⟩ := Socket.adoptTransport_eq_some.1 hs
       exact .quiet rfl rfl rfl rfl (fun _ => rfl) rfl)

theorem exec_life {w w' : World} {g g' : Goroutine} {a : Choice}
    (h : exec w g a = some (w', g')) : LifeStep w g w' g' := by
  have hd := (exec_dispatch h).2
  clear h
  cases hd with
  | call h => exact startCall_life h
  | opening h => exact execOpen_life h
  | flush h => exact execFlush_life h
  | close h => exact execClose_life h
  | packet h => exact execPacket_life h
  | teardown h => exact execTeardown_life h
  | probe h => exact execProbe_life h

/-! ## The law and its one exception -/

/-- An open packet is recorded only while its connection is opening (or open already) and the
    transport that delivers it is installed. -/
def RecordsLive (w : World) (g : Goroutine) (_ : Choice) : Prop :=
  match g.pc with
  | .packet (.recordOpen _) =>
    (w.sock.state = .opening ∨ w.sock.state = .open) ∧ w.sock.transport.isSome = true
  | _ => True

instance (w : World) (g : Goroutine) (a : Choice) : Decidable (RecordsLive w g a) := by
  unfold RecordsLive
  split <;> infer_instance

theorem RecordsLive.at_recordOpen {w : World} {g : Goroutine} {a : Choice} {p : OpenPacket}
    (h : RecordsLive w g a) (hpc : g.pc = .packet (.recordOpen p)) :
    (w.sock.state = .opening ∨ w.sock.state = .open) ∧ w.sock.transport.isSome = true := by
  unfold RecordsLive at h
  rw [hpc] at h
  exact h

theorem LifeStep.transition {w w' : World} {g g' : Goroutine} {a : Choice}
    (h : LifeStep w g w' g') (hC : RecordsLive w g a) :
    w'.sock.state = w.sock.state ∨ Transition g w.sock.state w'.sock.state := by
  cases h with
  | quiet hs => exact .inl hs
  | call hw => exact .inl (by rw [hw])
  | claim hpc hs hs' => rw [hs, hs']; exact .inr (.beginOpen hpc)
  | record hpc hs =>
    rcases (hC.at_recordOpen hpc).1 with hopening | hopen
    · rw [hs, hopening]; exact .inr (.recordOpen hpc)
    · rw [hs, hopen]; exact .inl rfl
  | closing hpc hs hs' =>
    rw [hs']
    refine .inr (.beginCloseTransport hpc ?_)
    revert hs
    cases w.sock.state <;> simp [SocketState.active]
  | fail hs => rw [hs]; exact .inr (.closed _)
  | release _ hs' => rw [hs']; exact .inr (.closed _)
  | report _ hw => exact .inl (by rw [hw])

/-- What holds of the socket in every run that meets `RecordsLive`. -/
structure World.Lawful (w : World) : Prop where
  transport : w.sock.state = .open → w.sock.transport.isSome = true
  nodup : w.closeRuns.Nodup
  ran : ∀ x ∈ w.closeRuns, x < w.calls
  called : w.sock.state.live = true → w.call < w.calls
  fresh : w.sock.state.live = true → w.call ∉ w.closeRuns

/-- What a goroutine that answers for a call of `Open` knows: its close handler has not run, and it
    is not the call the live connection belongs to. -/
def Goroutine.Answers (w : World) (g : Goroutine) : Prop :=
  ∀ x, g.token = some x →
    x < w.calls ∧ x ∉ w.closeRuns ∧ (w.sock.state.live = true → x ≠ w.call)

/-- No two goroutines answer for the same call. -/
def Goroutine.Apart (g m : Goroutine) : Prop := ∀ x, g.token = some x → m.token ≠ some x

theorem SocketState.live_of_active {s : SocketState} (h : s.active = true) : s.live = true := by
  cases s <;> simp_all [SocketState.active, SocketState.live]

theorem LifeStep.lawful {w w' : World} {g g' : Goroutine} {a : Choice}
    (h : LifeStep w g w' g') (hC : RecordsLive w g a) (hI : w.Lawful) (hJ : g.Answers w) :
    w'.Lawful := by
  cases h with
  | quiet hs hc hn hr ht hg =>
    refine ⟨fun ho => ht (hI.transport (hs ▸ ho)), hr ▸ hI.nodup, ?_, ?_, ?_⟩
    · rw [hr, hn]; exact hI.ran
    · rw [hs, hc, hn]; exact hI.called
    · rw [hs, hc, hr]; exact hI.fresh
  | call hw hg =>
    subst hw
    exact ⟨hI.transport, hI.nodup, fun x hx => Nat.lt_succ_of_lt (hI.ran x hx),
      fun hl => Nat.lt_succ_of_lt (hI.called hl), hI.fresh⟩
  | claim hpc hs hs' hc hn hr hg =>
    obtain ⟨hlt, hnew, -⟩ := hJ w'.call (by simp [Goroutine.token, hpc, hc])
    refine ⟨fun ho => ?_, hr ▸ hI.nodup, ?_, fun _ => ?_, fun _ => ?_⟩
    · rw [hs'] at ho; cases ho
    · rw [hr, hn]; exact hI.ran
    · rw [hn]; exact hlt
    · rw [hr]; exact hnew
  | record hpc hs hc hn hr ht hg =>
    obtain ⟨hstate, htransport⟩ := hC.at_recordOpen hpc
    have hlive : w.sock.state.live = true := by
      rcases hstate with h | h <;> rw [h] <;> rfl
    refine ⟨fun _ => by rw [ht]; exact htransport, hr ▸ hI.nodup, ?_, fun _ => ?_, fun _ => ?_⟩
    · rw [hr, hn]; exact hI.ran
    · rw [hc, hn]; exact hI.called hlive
    · rw [hc, hr]; exact hI.fresh hlive
  | closing hpc hs hs' hc hn hr hg =>
    have hlive := SocketState.live_of_active hs
    refine ⟨fun ho => ?_, hr ▸ hI.nodup, ?_, fun _ => ?_, fun _ => ?_⟩
    · rw [hs'] at ho; cases ho
    · rw [hr, hn]; exact hI.ran
    · rw [hc, hn]; exact hI.called hlive
    · rw [hc, hr]; exact hI.fresh hlive
  | fail hs hc hn hr hg =>
    refine ⟨fun ho => ?_, hr ▸ hI.nodup, ?_, fun hl => ?_, fun hl => ?_⟩
    · rw [hs] at ho; cases ho
    · rw [hr, hn]; exact hI.ran
    · rw [hs] at hl; cases hl
    · rw [hs] at hl; cases hl
  | release hs hs' hc hn hr hg =>
    refine ⟨fun ho => ?_, hr ▸ hI.nodup, ?_, fun hl => ?_, fun hl => ?_⟩
    · rw [hs'] at ho; cases ho
    · rw [hr, hn]; exact hI.ran
    · rw [hs'] at hl; cases hl
    · rw [hs'] at hl; cases hl
  | report hg hw hg' =>
    obtain ⟨hlt, hnew, hother⟩ := hJ _ hg
    subst hw
    refine ⟨hI.transport, List.nodup_cons.2 ⟨hnew, hI.nodup⟩, ?_, hI.called, fun hl => ?_⟩
    · intro x hx
      rcases List.mem_cons.1 hx with rfl | hx
      · exact hlt
      · exact hI.ran x hx
    · intro hm
      rcases List.mem_cons.1 hm with heq | hm
      · exact hother hl heq.symm
      · exact hI.fresh hl hm

theorem LifeStep.answers {w w' : World} {g g' : Goroutine} (h : LifeStep w g w' g')
    (hI : w.Lawful) : g'.Answers w' := by
  intro x hx
  cases h with
  | call hw hg =>
    rw [hg] at hx
    obtain rfl : w.calls = x := by simpa using hx
    subst hw
    exact ⟨Nat.lt_succ_self _, fun hm => absurd (hI.ran _ hm) (lt_irrefl _),
      fun hl => (hI.called hl).ne'⟩
  | release hs hs' hc hn hr hg =>
    rw [hg] at hx
    obtain rfl : w.call = x := by simpa using hx
    refine ⟨?_, ?_, fun hl => ?_⟩
    · rw [hn]; exact hI.called hs
    · rw [hr]; exact hI.fresh hs
    · rw [hs'] at hl; cases hl
  | quiet _ _ _ _ _ hg => rw [hg] at hx; cases hx
  | claim _ _ _ _ _ _ hg => rw [hg] at hx; cases hx
  | record _ _ _ _ _ _ hg => rw [hg] at hx; cases hx
  | closing _ _ _ _ _ _ hg => rw [hg] at hx; cases hx
  | fail _ _ _ _ hg => rw [hg] at hx; cases hx
  | report _ _ hg => rw [hg] at hx; cases hx

theorem LifeStep.bystander {w w' : World} {g g' m : Goroutine} {a : Choice}
    (h : LifeStep w g w' g') (hC : RecordsLive w g a) (hJ : m.Answers w)
    (hK : g.Apart m) : m.Answers w' ∧ g'.Apart m := by
  cases h with
  | quiet hs hc hn hr ht hg =>
    refine ⟨fun x hx => ?_, fun x hx => by rw [hg] at hx; cases hx⟩
    rw [hs, hc, hn, hr]; exact hJ x hx
  | call hw hg =>
    subst hw
    refine ⟨fun x hx => ⟨Nat.lt_succ_of_lt (hJ x hx).1, (hJ x hx).2⟩, fun x hx hm => ?_⟩
    rw [hg] at hx
    obtain rfl : w.calls = x := by simpa using hx
    exact absurd (hJ _ hm).1 (lt_irrefl _)
  | claim hpc hs hs' hc hn hr hg =>
    refine ⟨fun x hx => ?_, fun x hx => by rw [hg] at hx; cases hx⟩
    rw [hn, hr, hc]
    refine ⟨(hJ x hx).1, (hJ x hx).2.1, fun _ heq => ?_⟩
    subst heq
    exact hK _ (by simp [Goroutine.token, hpc]) hx
  | record hpc hs hc hn hr ht hg =>
    refine ⟨fun x hx => ?_, fun x hx => by rw [hg] at hx; cases hx⟩
    have hlive : w.sock.state.live = true := by
      rcases (hC.at_recordOpen hpc).1 with h | h <;> rw [h] <;> rfl
    rw [hn, hr, hc]
    exact ⟨(hJ x hx).1, (hJ x hx).2.1, fun _ => (hJ x hx).2.2 hlive⟩
  | closing hpc hs hs' hc hn hr hg =>
    refine ⟨fun x hx => ?_, fun x hx => by rw [hg] at hx; cases hx⟩
    rw [hn, hr, hc]
    exact ⟨(hJ x hx).1, (hJ x hx).2.1,
      fun _ => (hJ x hx).2.2 (SocketState.live_of_active hs)⟩
  | fail hs hc hn hr hg =>
    refine ⟨fun x hx => ?_, fun x hx => by rw [hg] at hx; cases hx⟩
    rw [hn, hr]
    exact ⟨(hJ x hx).1, (hJ x hx).2.1, fun hl => by rw [hs] at hl; cases hl⟩
  | release hs hs' hc hn hr hg =>
    refine ⟨fun x hx => ?_, fun x hx hm => ?_⟩
    · rw [hn, hr]
      exact ⟨(hJ x hx).1, (hJ x hx).2.1, fun hl => by rw [hs'] at hl; cases hl⟩
    · rw [hg] at hx
      obtain rfl : w.call = x := by simpa using hx
      exact (hJ _ hm).2.2 hs rfl
  | report hg hw hg' =>
    subst hw
    refine ⟨fun x hx => ⟨(hJ x hx).1, ?_, (hJ x hx).2.2⟩, fun x hx => by rw [hg'] at hx; cases hx⟩
    intro hm
    rcases List.mem_cons.1 hm with rfl | hm
    · exact hK _ hg hx
    · exact (hJ x hx).2.1 hm

theorem reach_lawful {c : Pool World Goroutine} (h : program.Reach RecordsLive c) :
    c.shared.Lawful := by
  refine (h.outline (K := Goroutine.Apart) (J := Goroutine.Answers) ?_ ?_ ?_ ?_).1
  · intro l m hlm x hx hl
    exact hlm x hl hx
  · intro x hx; cases hx
  · rintro w ⟨_, _, _, _, rfl⟩
    refine ⟨⟨fun h => ?_, List.nodup_nil, fun x hx => ?_, fun h => ?_, fun h => ?_⟩,
      fun x hx => ?_⟩
    · cases h
    · cases hx
    · cases h
    · cases h
    · cases hx
  · intro w g a w' g' hC hI hJ hx
    have hstep := exec_life hx
    exact ⟨hstep.lawful hC hI hJ, hstep.answers hI, fun m hJm hKm => hstep.bystander hC hJm hKm⟩

/-- **The lifecycle.** In every run that records open packets only on a live connection, each
    section moves the state along a transition of the lifecycle or not at all, an open socket has a
    transport, and the close handler has run at most once for each call of `Open`. -/
theorem lifecycle_of_recordsLive :
    ∀ c, program.Reach RecordsLive c →
      (∀ i a c', RecordsLive c.shared (c.thread i) a → program.step c i a = some c' →
        c'.shared.sock.state = c.shared.sock.state ∨
          Transition (c.thread i) c.shared.sock.state c'.shared.sock.state) ∧
      (c.shared.sock.state = .open → c.shared.sock.transport.isSome = true) ∧
      c.shared.closeRuns.Nodup := by
  intro c hc
  refine ⟨fun i a c' hC h => ?_, (reach_lawful hc).transport, (reach_lawful hc).nodup⟩
  obtain ⟨w', g', hx, rfl⟩ := Program.step_eq_some h
  exact (exec_life hx).transition hC

/-- The law at work: a socket opened, used and closed by the user. -/
theorem lifecycle_open_close :
    ∃ c, program.Reach RecordsLive c ∧ c.shared.closeRuns = [0] ∧ c.shared.closeRuns.Nodup := by
  have hrun : ∃ c, program.runIf RecordsLive fresh
      (openBy 0 ++ handshakeBy 1 1 serverOpen ++ [(2, Choice.call .close), (2, .go), (2, .go)] ++
        closedBy 3 1) = some c ∧ c.shared.closeRuns = [0] := ⟨_, rfl, rfl⟩
  obtain ⟨c, hrun, hruns⟩ := hrun
  have hc : program.Reach RecordsLive c := fresh_reach.runIf hrun
  exact ⟨c, hc, hruns, (lifecycle_of_recordsLive c hc).2.2⟩

/-- The open packet has passed the state test when `Close` claims the closing transition. -/
def openDuringClose : List (Nat × Choice) :=
  openBy 0 ++ (handshakeBy 1 1 serverOpen).take 4 ++ [(2, Choice.call .close), (2, .go), (2, .go)]

/-- The open packet has passed the state test when the transport closes. -/
def openAfterTeardown : List (Nat × Choice) :=
  openBy 0 ++ (handshakeBy 1 1 serverOpen).take 4 ++ closedBy 2 1 ++ [(1, Choice.go)]

/-- A packet still being dispatched takes a closing socket back to open, and a closed one to open
    without a transport, after which the close handler runs a second time for the one `Open`. -/
theorem recordOpen_reopens :
    (∃ c i a c', program.Reachable c ∧ program.step c i a = some c' ∧
      c.shared.sock.state = .closing ∧ c'.shared.sock.state = .open) ∧
    (∃ c, program.Reachable c ∧ c.shared.sock.state = .open ∧ c.shared.sock.transport = none) ∧
    ∃ c, program.Reachable c ∧ c.shared.calls = 1 ∧ c.shared.closeRuns = [0, 0] := by
  refine ⟨?_, ?_, ?_⟩
  · have hrun : ∃ c c', program.run fresh openDuringClose = some c ∧
        program.step c 1 .go = some c' ∧ c.shared.sock.state = .closing ∧
        c'.shared.sock.state = .open := ⟨_, _, rfl, rfl, rfl, rfl⟩
    obtain ⟨c, c', hrun, hstep, hclosing, hopen⟩ := hrun
    exact ⟨c, 1, .go, c', fresh_reachable.run hrun, hstep, hclosing, hopen⟩
  · have hrun : ∃ c, program.run fresh openAfterTeardown = some c ∧
        c.shared.sock.state = .open ∧ c.shared.sock.transport = none := ⟨_, rfl, rfl, rfl⟩
    obtain ⟨c, hrun, hopen, hnil⟩ := hrun
    exact ⟨c, fresh_reachable.run hrun, hopen, hnil⟩
  · have hrun : ∃ c, program.run fresh (openAfterTeardown ++ closedBy 3 1) = some c ∧
        c.shared.calls = 1 ∧ c.shared.closeRuns = [0, 0] := ⟨_, rfl, rfl, rfl⟩
    obtain ⟨c, hrun, hcalls, hruns⟩ := hrun
    exact ⟨c, fresh_reachable.run hrun, hcalls, hruns⟩

end EngineIo.Client
