import EngineIo.Client.Teardown
import EngineIo.Concurrency.Counter

set_option autoImplicit false

/-! # The counters of the polling transport

Four things of which a client has a limited number, in every run: the polling transport has one poll
at a time, which awaits its response or is being dispatched; `pollMu` and `pollWG` count their
holders; and there is one probe, which ends as the read loop of the websocket. -/

namespace EngineIo.Client.Switchover

open Concurrency

/-- The goroutine that polls, from the start of a poll to the end of its dispatch. -/
def Frame.polls : Frame → Nat
  | .pollLock | .pollCheck | .pollRequest | .onData _ => 1
  | _ => 0

/-- The holder of `pollMu`. -/
def Frame.holdsPollMu : Frame → Nat
  | .pollCheck | .pollRequest | .closeUnlock => 1
  | .probe (.pauseMark _ _) | .probe (.pauseUnlock _) => 1
  | _ => 0

/-- A call of `pollWG.Done` that is due. -/
def Frame.dispatches : Frame → Nat
  | .pollDone => 1
  | _ => 0

/-- The probe, or the read loop it has become. -/
def Frame.probes : Frame → Nat
  | .goProbe | .probe _ | .read _ => 1
  | _ => 0

/-- Nothing is counted of a section that leaves the frames `fs` for `f`, other than what the memory
    accounts for. -/
structure Balance (w w' : World) (f fs : List Frame) : Prop where
  polls : Frames.units Frame.polls fs + (w'.polls + w'.dispatch.toNat) ≤
    Frames.units Frame.polls f + (w.polls + w.dispatch.toNat)
  pollMu : Frames.units Frame.holdsPollMu fs + w.pollMu.toNat ≤
    Frames.units Frame.holdsPollMu f + w'.pollMu.toNat
  pollWG : Frames.units Frame.dispatches fs + w'.dispatch.toNat + w.pollWG ≤
    Frames.units Frame.dispatches f + w.dispatch.toNat + w'.pollWG
  probes : Frames.units Frame.probes fs + (w'.dispatch.toNat + w'.probes.toNat) ≤
    Frames.units Frame.probes f + (w.dispatch.toNat + w.probes.toNat)

variable {w w' : World} {f : Frame} {pc : ProbeFrame} {a : Choice} {fs l l' : List Frame}

/-- A section that leaves the counters of the memory alone, and nothing to count. -/
theorem Balance.of_uncounted (hpolls : w'.polls = w.polls) (hmu : w'.pollMu = w.pollMu)
    (hwg : w'.pollWG = w.pollWG) (hd : w'.dispatch = w.dispatch) (hp : w'.probes = w.probes)
    (hfs : ∀ g ∈ fs, g.polls = 0 ∧ g.holdsPollMu = 0 ∧ g.dispatches = 0 ∧ g.probes = 0) :
    Balance w w' l fs := by
  constructor
  · rw [Frames.units_eq_zero fun g hg => (hfs g hg).1, hpolls, hd]; omega
  · rw [Frames.units_eq_zero fun g hg => (hfs g hg).2.1, hmu]; omega
  · rw [Frames.units_eq_zero fun g hg => (hfs g hg).2.2.1, hwg, hd]; omega
  · rw [Frames.units_eq_zero fun g hg => (hfs g hg).2.2.2, hd, hp]; omega

theorem start_balance (h : start w a = some (w', fs)) : Balance w w' [] fs := by
  revert h
  fun_cases start w a <;> intro h <;> cases h
  all_goals
    constructor <;>
      simp_all [Frame.polls, Frame.holdsPollMu, Frame.dispatches, Frame.probes] <;> omega

theorem execProbe_balance (h : execProbe w pc a = some (w', fs)) :
    Balance w w' [.probe pc] fs := by
  have hmu := Bool.toNat_le w.pollMu
  revert h
  fun_cases execProbe w pc a <;> intro h <;> cases h
  case case10 t old | case11 t old | case12 t old | case18 t old | case19 t old =>
    cases old <;> exact ⟨le_rfl, le_rfl, le_rfl, le_rfl⟩
  case case1 | case24 | case26 =>
    constructor <;> simp_all [Frame.polls, Frame.holdsPollMu, Frame.dispatches, Frame.probes]
  all_goals exact ⟨le_rfl, le_rfl, le_rfl, le_rfl⟩

theorem execLoop_balance (h : execLoop w f a = some (w', fs)) : Balance w w' [f] fs := by
  have hmu := Bool.toNat_le w.pollMu
  revert h
  fun_cases execLoop w f a <;> intro h <;> cases h
  all_goals constructor
  -- most counters stay as they are
  all_goals try exact le_rfl
  all_goals
    simp_all [World.beginDispatch, Frame.polls, Frame.holdsPollMu, Frame.dispatches,
      Frame.probes] <;> omega

theorem Handler.frames_uncounted (h : Handler) {socket : Frame} (t : Nat)
    (hs : socket.role = .alarm) : ∀ g ∈ h.frames socket t,
      g.polls = 0 ∧ g.holdsPollMu = 0 ∧ g.dispatches = 0 ∧ g.probes = 0 := by
  cases h with
  | unset => simp [Handler.frames]
  | socket =>
    cases socket <;>
      simp_all [Handler.frames, Frame.role, Frame.polls, Frame.holdsPollMu, Frame.dispatches,
        Frame.probes]
  | probe =>
    simp [Handler.frames, Frame.polls, Frame.holdsPollMu, Frame.dispatches, Frame.probes]

theorem execTransport_balance (h : execTransport w f a = some (w', fs)) : Balance w w' [f] fs := by
  have hmu := Bool.toNat_le w.pollMu
  revert h
  fun_cases execTransport w f a <;> intro h <;> cases h
  case case3 | case4 =>
    refine .of_uncounted rfl rfl rfl rfl rfl ?_
    unfold World.closeRest
    split <;> simp [Frame.polls, Frame.holdsPollMu, Frame.dispatches, Frame.probes]
  case case12 | case15 => exact .of_uncounted rfl rfl rfl rfl rfl (Handler.frames_uncounted _ _ rfl)
  case case14 =>
    exact .of_uncounted rfl rfl rfl rfl rfl
      (List.forall_mem_cons.2 ⟨⟨rfl, rfl, rfl, rfl⟩, Handler.frames_uncounted _ _ rfl⟩)
  case case9 | case10 =>
    constructor <;>
      simp_all [Frame.polls, Frame.holdsPollMu, Frame.dispatches, Frame.probes]
  all_goals
    exact .of_uncounted rfl rfl rfl rfl rfl (of_decide_eq_true rfl)

theorem execSocket_balance (h : execSocket w f a = some (w', fs)) : Balance w w' [f] fs := by
  revert h
  fun_cases execSocket w f a <;> intro h <;> cases h
  case case24 =>
    constructor <;>
      simp [Frame.polls, Frame.holdsPollMu, Frame.dispatches, Frame.probes]
    omega
  all_goals
    exact .of_uncounted rfl rfl rfl rfl rfl (of_decide_eq_true rfl)

theorem execFlush_balance (h : execFlush w f a = some (w', fs)) : Balance w w' [f] fs := by
  revert h
  fun_cases execFlush w f a <;> intro h <;> cases h
  all_goals
    exact .of_uncounted rfl rfl rfl rfl rfl (of_decide_eq_true rfl)

theorem exec_balance (h : exec w f a = some (w', fs)) : Balance w w' [f] fs := by
  cases runs_of_exec h with
  | probe h => exact execProbe_balance h
  | flush h => exact execFlush_balance h
  | socket h => exact execSocket_balance h
  | transport h => exact execTransport_balance h
  | loop h => exact execLoop_balance h

/-- **Counters.** In every run, among any goroutines: one poll, as many holders of `pollMu` as it has,
    no more dispatches than `pollWG` counts, and one probe. -/
theorem reach_counters {C : World → List Frame → Choice → Prop} {c : Pool World (List Frame)}
    (h : frames.program.Reach C c) (S : Finset Nat) :
    ∑ i ∈ S, Frames.units Frame.polls (c.thread i) +
      (c.shared.polls + c.shared.dispatch.toNat) ≤ 1 ∧
    ∑ i ∈ S, Frames.units Frame.holdsPollMu (c.thread i) ≤ 1 ∧
    ∑ i ∈ S, Frames.units Frame.dispatches (c.thread i) ≤ c.shared.pollWG ∧
    ∑ i ∈ S, Frames.units Frame.probes (c.thread i) +
      (c.shared.dispatch.toNat + c.shared.probes.toNat) ≤ 1 := by
  have hinit : ∀ w : World, frames.init w → w.polls = 0 ∧ w.dispatch = true ∧ w.pollWG = 1 ∧
      w.probes = false := by
    rintro w ⟨-, -, -, -, -, hw⟩
    rw [hw]
    exact ⟨rfl, rfl, rfl, rfl⟩
  refine ⟨?_, ?_, ?_, ?_⟩
  · refine Frames.counter (A := fun w => w.polls + w.dispatch.toNat) (N := fun _ => 1) ?_ ?_ ?_ h S
    · exact fun w hw => by simp [hinit w hw]
    · exact fun w a w' fs hx => by simpa using (start_balance hx).polls
    · exact fun w f a w' fs hx => by simpa using (exec_balance hx).polls
  · have hmu := Bool.toNat_le c.shared.pollMu
    refine Nat.le_trans (Nat.le_trans (Nat.le_add_right _ 0) ?_) hmu
    refine Frames.counter (A := fun _ => 0) (N := fun w => w.pollMu.toNat) ?_ ?_ ?_ h S
    · exact fun w _ => Nat.zero_le _
    · exact fun w a w' fs hx => by simpa using (start_balance hx).pollMu
    · exact fun w f a w' fs hx => by simpa using (exec_balance hx).pollMu
  · refine Nat.le_trans (Nat.le_add_right _ _) (Frames.counter (A := fun w => w.dispatch.toNat)
      (N := fun w => w.pollWG) ?_ ?_ ?_ h S)
    · exact fun w hw => by simp [hinit w hw]
    · exact fun w a w' fs hx => by simpa using (start_balance hx).pollWG
    · exact fun w f a w' fs hx => by simpa using (exec_balance hx).pollWG
  · refine Frames.counter (A := fun w => w.dispatch.toNat + w.probes.toNat) (N := fun _ => 1)
      ?_ ?_ ?_ h S
    · exact fun w hw => by simp [hinit w hw]
    · exact fun w a w' fs hx => by simpa using (start_balance hx).probes
    · exact fun w f a w' fs hx => by simpa using (exec_balance hx).probes

end EngineIo.Client.Switchover
