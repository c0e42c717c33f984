import EngineIo.Server.Outbound

set_option autoImplicit false

/-! # The upgrade of a session

`startUpgrade`, `onProbe`, `completeUpgrade`, `abortUpgrade`, `Close` and the teardown all write the
five fields of an upgrade in flight. `Handover` keeps these fields and `HandoverStep` says what a
section can do to them, so that the invariant is proved once for each kind of step. A probing
transport is constructed for one call of `startUpgrade`; `Pc.candidate` is the one a goroutine is
about to offer. -/

namespace EngineIo.Server

open Concurrency

/-- The fields an upgrade is made of. -/
structure Handover where
  state : SessionState
  transport : Option Transport
  upgradeTransport : Option Transport
  upgrading : Bool
  timer : Bool
  ticking : Bool
  made : Nat
  swaps : Nat
  discarded : List Transport

def World.handover (w : World) : Handover where
  state := w.sock.state
  transport := w.sock.transport
  upgradeTransport := w.sock.upgradeTransport
  upgrading := w.sock.upgrading
  timer := w.sock.upgradeTimer.isSome
  ticking := w.sock.probeNoopStop.isSome
  made := w.made
  swaps := w.swaps
  discarded := w.discarded

/-- The transport a goroutine is about to pass to `startUpgrade`. -/
def Pc.candidate : Pc → Option Transport
  | .upgrade (.startUpgrade t) => some t
  | _ => none

/-- What a section can do to the upgrade; the indices are the candidates of the goroutine. -/
inductive HandoverStep (v : Handover) : Option Transport → Handover → Option Transport → Prop
  | quiet : HandoverStep v none v none
  | opened (h : v.state = .opening) : HandoverStep v none { v with state := .open } none
  | closing (h : v.state = .opening ∨ v.state = .open) :
      HandoverStep v none { v with state := .closing, timer := false } none
  | teardown :
      HandoverStep v none
        { v with
          state := .closed, transport := none, upgradeTransport := none, upgrading := false,
          timer := false, ticking := false } none
  | construct (type : TransportType) (h : type ≠ .polling) :
      HandoverStep v none { v with made := v.made + 1 } (some ⟨v.made, type⟩)
  | refuse (t : Transport) :
      HandoverStep v (some t) { v with discarded := t :: v.discarded } none
  | start (t : Transport) (hs : v.state = .open) (hu : v.upgrading = false)
      (ht : v.transport.map (·.type) = some .polling) :
      HandoverStep v (some t)
        { v with upgrading := true, upgradeTransport := some t, timer := true } none
  | probed (hu : v.upgrading = true) : HandoverStep v none { v with ticking := true } none
  | complete (t : Transport) (hu : v.upgrading = true) (ht : v.upgradeTransport = some t) :
      HandoverStep v none
        { v with
          upgrading := false, transport := some t, upgradeTransport := none, timer := false,
          ticking := false, swaps := v.swaps + 1 } none
  | abort (t : Transport) (hu : v.upgrading = true) (ht : v.upgradeTransport = some t) :
      HandoverStep v none
        { v with
          upgrading := false, upgradeTransport := none, timer := false, ticking := false,
          discarded := t :: v.discarded } none

/-! ## The invariant -/

/-- The transport has been constructed. -/
def Handover.Known (v : Handover) (t : Transport) : Prop := t.id < v.made

/-- The transport plays no role in the session any more, or not yet. -/
def Handover.Apart (v : Handover) (t : Transport) : Prop :=
  v.transport ≠ some t ∧ v.upgradeTransport ≠ some t

structure Handover.Sound (v : Handover) : Prop where
  upgrading : v.upgrading = true ↔ v.upgradeTransport.isSome = true
  polling : v.upgrading = true →
    v.transport.map (·.type) = some .polling ∧ (v.state = .open ∨ v.state = .closing)
  ticking : v.ticking = true → v.upgrading = true
  timer : v.timer = true ↔ v.upgrading = true ∧ v.state = .open
  promotable : ∀ t, v.upgradeTransport = some t → t.type ≠ .polling
  swapped : v.transport.map (·.type) = some .polling → v.swaps = 0
  swaps : v.swaps ≤ 1
  discarded : ∀ t ∈ v.discarded, v.Known t ∧ v.Apart t
  known : ∀ t, v.transport = some t ∨ v.upgradeTransport = some t → v.Known t

/-- What a goroutine that is about to call `startUpgrade` can rely on. -/
def Handover.Offers (v : Handover) (candidate : Option Transport) : Prop :=
  ∀ t, candidate = some t →
    v.Known t ∧ v.Apart t ∧ t ∉ v.discarded ∧ t.type ≠ .polling

variable {v v' : Handover} {q q' m : Option Transport}

/-- Only a polling session upgrades, and the transport probed for it is not a polling one. -/
theorem Handover.Sound.transport_ne {t : Transport} (hI : v.Sound) (hu : v.upgrading = true)
    (ht : v.upgradeTransport = some t) : v.transport ≠ some t := by
  intro h
  have hp := (hI.polling hu).1
  rw [h] at hp
  exact hI.promotable t ht (Option.some.inj hp)

theorem HandoverStep.sound (h : HandoverStep v q v' q') (hI : v.Sound) (hJ : v.Offers q) :
    v'.Sound := by
  cases h with
  | quiet => exact hI
  | opened hs =>
    have hu : v.upgrading = false := by
      refine Bool.eq_false_iff.2 fun h => ?_
      rcases (hI.polling h).2 with h | h <;> rw [hs] at h <;> cases h
    have ht : v.timer = false := by
      refine Bool.eq_false_iff.2 fun h => ?_
      exact Bool.false_ne_true (hu.symm.trans (hI.timer.1 h).1)
    refine ⟨hI.upgrading, fun h => ?_, hI.ticking, ?_, hI.promotable, hI.swapped, hI.swaps,
      hI.discarded, hI.known⟩
    · exact absurd (hu.symm.trans h) Bool.false_ne_true
    · show v.timer = true ↔ v.upgrading = true ∧ _
      simp [hu, ht]
  | closing hs =>
    refine ⟨hI.upgrading, fun h => ⟨(hI.polling h).1, .inr rfl⟩, hI.ticking, ?_, hI.promotable,
      hI.swapped, hI.swaps, hI.discarded, hI.known⟩
    simp
  | teardown =>
    refine ⟨by simp, fun h => ?_, fun h => ?_, by simp, fun t h => ?_, fun h => ?_, hI.swaps,
      fun t ht => ⟨(hI.discarded t ht).1, nofun, nofun⟩, fun t ht => ?_⟩
    · cases h
    · cases h
    · cases h
    · cases h
    · rcases ht with h | h <;> cases h
  | construct type _ =>
    exact ⟨hI.upgrading, hI.polling, hI.ticking, hI.timer, hI.promotable, hI.swapped, hI.swaps,
      fun t ht => ⟨Nat.lt_succ_of_lt (hI.discarded t ht).1, (hI.discarded t ht).2⟩,
      fun t ht => Nat.lt_succ_of_lt (hI.known t ht)⟩
  | refuse t =>
    obtain ⟨hknown, hapart, -, -⟩ := hJ t rfl
    refine ⟨hI.upgrading, hI.polling, hI.ticking, hI.timer, hI.promotable, hI.swapped, hI.swaps,
      fun t' ht' => ?_, hI.known⟩
    rcases List.mem_cons.1 ht' with rfl | ht'
    · exact ⟨hknown, hapart⟩
    · exact hI.discarded t' ht'
  | start t hs hu ht =>
    obtain ⟨hknown, -, hfresh, htype⟩ := hJ t rfl
    refine ⟨by simp, fun _ => ⟨ht, .inl hs⟩, fun _ => rfl, ?_, fun t' ht' => ?_, hI.swapped, hI.swaps,
      fun t' ht' => ?_, fun t' ht' => ?_⟩
    · simp [hs]
    · cases ht'
      exact htype
    · obtain ⟨h1, h2, -⟩ := hI.discarded t' ht'
      refine ⟨h1, h2, ?_⟩
      rintro ⟨rfl⟩
      exact hfresh ht'
    · rcases ht' with h | h
      · exact hI.known t' (.inl h)
      · cases h
        exact hknown
  | probed hu =>
    exact ⟨hI.upgrading, hI.polling, fun _ => hu, hI.timer, hI.promotable, hI.swapped, hI.swaps,
      hI.discarded, hI.known⟩
  | complete t hu ht =>
    have hpolling := (hI.polling hu).1
    have hzero := hI.swapped hpolling
    refine ⟨by simp, fun h => ?_, fun h => ?_, by simp, fun t' h => ?_, fun h => ?_, ?_,
      fun t' ht' => ?_, fun t' ht' => ?_⟩
    · cases h
    · cases h
    · cases h
    · exact absurd (Option.some.inj h) (hI.promotable t ht)
    · show v.swaps + 1 ≤ 1
      omega
    · obtain ⟨h1, -, h3⟩ := hI.discarded t' ht'
      refine ⟨h1, ?_, nofun⟩
      rintro ⟨rfl⟩
      exact h3 ht
    · rcases ht' with h | h
      · cases h
        exact hI.known t (.inr ht)
      · cases h
  | abort t hu ht =>
    refine ⟨by simp, fun h => ?_, fun h => ?_, by simp, fun t' h => ?_, hI.swapped, hI.swaps,
      fun t' ht' => ?_, fun t' ht' => ?_⟩
    · cases h
    · cases h
    · cases h
    · rcases List.mem_cons.1 ht' with rfl | ht'
      · exact ⟨hI.known t' (.inr ht), hI.transport_ne hu ht, nofun⟩
      · obtain ⟨h1, h2, -⟩ := hI.discarded t' ht'
        exact ⟨h1, h2, nofun⟩
    · rcases ht' with h | h
      · exact hI.known t' (.inl h)
      · cases h

theorem HandoverStep.offers (h : HandoverStep v q v' q') (hI : v.Sound) : v'.Offers q' := by
  cases h with
  | construct type htype =>
    intro t ht
    cases ht
    have hnew : ∀ t, v.Known t → t ≠ ⟨v.made, type⟩ := by
      rintro t ht rfl
      exact Nat.lt_irrefl _ ht
    refine ⟨Nat.lt_succ_self _, ⟨fun h => ?_, fun h => ?_⟩, fun h => ?_, htype⟩
    · exact hnew _ (hI.known _ (.inl h)) rfl
    · exact hnew _ (hI.known _ (.inr h)) rfl
    · exact hnew _ (hI.discarded _ h).1 rfl
  | _ => exact nofun

/-- A step of one goroutine leaves the candidate of another as fresh as it was. -/
theorem HandoverStep.bystander (h : HandoverStep v q v' q') (hm : v.Offers m)
    (hK : ∀ t, q = some t → m ≠ some t) :
    v'.Offers m ∧ ∀ t, q' = some t → m ≠ some t := by
  cases h with
  | construct type htype =>
    refine ⟨fun t ht => ?_, fun t ht hmt => ?_⟩
    · obtain ⟨h1, h2, h3, h4⟩ := hm t ht
      exact ⟨Nat.lt_succ_of_lt h1, h2, h3, h4⟩
    · cases ht
      exact Nat.lt_irrefl _ (hm _ hmt).1
  | refuse t =>
    refine ⟨fun t' ht' => ?_, nofun⟩
    obtain ⟨h1, h2, h3, h4⟩ := hm t' ht'
    refine ⟨h1, h2, fun h => ?_, h4⟩
    rcases List.mem_cons.1 h with rfl | h
    · exact hK t' rfl ht'
    · exact h3 h
  | start t hs hu ht =>
    refine ⟨fun t' ht' => ?_, nofun⟩
    obtain ⟨h1, ⟨h2, -⟩, h3, h4⟩ := hm t' ht'
    refine ⟨h1, ⟨h2, ?_⟩, h3, h4⟩
    rintro ⟨rfl⟩
    exact hK t rfl ht'
  | complete t hu ht =>
    refine ⟨fun t' ht' => ?_, nofun⟩
    obtain ⟨h1, ⟨-, h2⟩, h3, h4⟩ := hm t' ht'
    refine ⟨h1, ⟨?_, nofun⟩, h3, h4⟩
    rintro ⟨rfl⟩
    exact h2 ht
  | abort t hu ht =>
    refine ⟨fun t' ht' => ?_, nofun⟩
    obtain ⟨h1, ⟨h2, h3⟩, h4, h5⟩ := hm t' ht'
    refine ⟨h1, ⟨h2, nofun⟩, fun h => ?_, h5⟩
    rcases List.mem_cons.1 h with rfl | h
    · exact h3 ht
    · exact h4 h
  | teardown =>
    refine ⟨fun t' ht' => ?_, nofun⟩
    obtain ⟨h1, -, h3, h4⟩ := hm t' ht'
    exact ⟨h1, ⟨nofun, nofun⟩, h3, h4⟩
  | _ => exact ⟨hm, nofun⟩

/-- The active transport is cleared by the teardown or replaced by the one in the upgrade. -/
theorem HandoverStep.transport (h : HandoverStep v q v' q') :
    v'.transport = v.transport ∨ v'.state = .closed ∧ v'.transport = none ∨
      v.upgrading = true ∧ v'.transport = v.upgradeTransport := by
  cases h with
  | teardown => exact .inr (.inl ⟨rfl, rfl⟩)
  | complete t hu ht => exact .inr (.inr ⟨hu, ht.symm⟩)
  | _ => exact .inl rfl

/-! ## The session refines the handover -/

theorem World.Releases.handover {w w' : World} (h : w.Releases w') : w'.handover = w.handover := by
  obtain ⟨polling, closed, inbox, stopped, rfl⟩ := h
  rfl

/-- A section that leaves the upgrade alone. -/
theorem HandoverStep.unchanged {w w' : World} (h : w'.handover = w.handover) :
    HandoverStep w.handover none w'.handover none := by
  rw [h]
  exact .quiet

variable {w w' : World} {a : Choice} {pc' : Pc}

theorem Cont.resume_candidate (k : Cont) : k.resume.candidate = none := by
  cases k <;> rfl

theorem Return.resume_candidate (r : Return) : r.resume.candidate = none := by
  cases r <;> rfl

theorem startCall_handover {c : Call} (h : startCall w c = some (w', pc')) :
    HandoverStep w.handover none w'.handover pc'.candidate := by
  revert h
  fun_cases startCall w c <;> intro h <;> cases h
  case case9 type htype => exact .construct _ htype
  case case20 timer htimer _ =>
    refine .unchanged ?_
    simp [World.handover, htimer]
  all_goals exact .quiet

theorem execFlush_handover {pc : FlushPc} (h : execFlush w pc a = some (w', pc')) :
    HandoverStep w.handover none w'.handover pc'.candidate := by
  revert h
  fun_cases execFlush w pc a <;> intro h <;> cases h
  case case11 =>
    split
    · exact .quiet
    · split <;> exact .quiet
  case case12 k =>
    rw [Cont.resume_candidate]
    exact .quiet
  all_goals exact .quiet

theorem execTeardown_handover {pc : TeardownPc} (h : execTeardown w pc a = some (w', pc')) :
    HandoverStep w.handover none w'.handover pc'.candidate := by
  revert h
  fun_cases execTeardown w pc a <;> intro h <;> cases h
  · rw [Return.resume_candidate]
    exact .quiet
  · rename_i hs
    obtain ⟨-, rfl, -, -, -⟩ := ServerSocket.beginTeardown_eq_some.1 hs
    exact .teardown
  · exact .unchanged (w.closeStop?_releases _).handover
  · exact .unchanged (w.closeTransport?_releases _).handover
  · exact .unchanged (w.closeTransport?_releases _).handover
  · rw [Return.resume_candidate]
    exact .quiet

theorem execPoll_handover {pc : PollPc} (h : execPoll w pc a = some (w', pc')) :
    HandoverStep w.handover none w'.handover pc'.candidate := by
  revert h
  fun_cases execPoll w pc a <;> intro h <;> cases h
  case case4 => split <;> exact .quiet
  all_goals exact .quiet

theorem execUpgrade_handover {pc : UpgradePc} (h : execUpgrade w pc a = some (w', pc')) :
    HandoverStep w.handover (Pc.upgrade pc).candidate w'.handover pc'.candidate := by
  revert h
  fun_cases execUpgrade w pc a <;> intro h <;> cases h
  · exact .refuse _
  · rename_i hs
    obtain ⟨⟨h1, h2, h3⟩, rfl⟩ := ServerSocket.startUpgrade_eq_some.1 hs
    exact .start _ h1 h2 h3
  · exact .unchanged (w.closeTransport_releases _).handover
  · exact .quiet
  · rename_i hs
    obtain ⟨⟨hu, -⟩, rfl⟩ := ServerSocket.onProbe_eq_some.1 hs
    exact .probed hu
  · split <;> exact .quiet
  · exact .quiet
  · exact .unchanged (w.deliver_releases _ _ _).handover
  · exact .quiet
  · rename_i hs
    obtain ⟨⟨hu, ht⟩, rfl, -, -⟩ := ServerSocket.beginCompleteUpgrade_eq_some.1 hs
    exact .complete _ hu ht
  · exact .unchanged (w.closeStop?_releases _).handover
  · exact .unchanged (w.closeTransport?_releases _).handover
  · exact .quiet
  · rename_i hs
    obtain ⟨⟨hu, ht⟩, rfl, -⟩ := ServerSocket.beginAbortUpgrade_eq_some.1 hs
    exact .abort _ hu ht
  · exact .unchanged (w.closeStop?_releases _).handover
  · exact .unchanged (w.closeTransport_releases _).handover

theorem exec_handover {pc : Pc} (h : exec w pc a = some (w', pc')) :
    HandoverStep w.handover pc.candidate w'.handover pc'.candidate := by
  revert h
  fun_cases exec w pc a <;> intro h
  · exact startCall_handover h
  · cases h
    rcases w.sock.open_cases with ⟨hs, hopened⟩ | hsame
    · rw [hopened]
      exact .opened hs
    · rw [hsame]
      exact .quiet
  · cases h
    exact .quiet
  · cases h
    rename_i hs
    obtain ⟨-, rfl⟩ := ServerSocket.send_eq_some.1 hs
    exact .quiet
  · cases h
    exact .quiet
  · cases h
    rename_i hs
    obtain ⟨hlive, rfl⟩ := ServerSocket.beginClose_eq_some.1 hs
    exact .closing hlive
  · cases h
    refine .unchanged ?_
    unfold ServerSocket.armCloseTimer
    split <;> rfl
  · cases h
    refine .unchanged ?_
    unfold ServerSocket.onPong
    split <;> rfl
  · cases h
    exact .quiet
  · cases h
    rename_i hs
    obtain ⟨-, rfl⟩ := ServerSocket.sendPing_eq_some.1 hs
    exact .quiet
  · exact execFlush_handover h
  · exact execTeardown_handover h
  · exact execPoll_handover h
  · exact execUpgrade_handover h
  · cases h

theorem reach_handover {c : Pool World Pc} (hc : program.Reachable c) :
    c.shared.handover.Sound := by
  refine (hc.outline (I := fun w => w.handover.Sound)
    (J := fun w pc => w.handover.Offers pc.candidate)
    (K := fun pc m => ∀ t, pc.candidate = some t → m.candidate ≠ some t) ?_ nofun ?_ ?_).1
  · exact fun pc m h t hm hpc => h t hpc hm
  · rintro w ⟨type, rfl⟩
    refine ⟨⟨by simp [World.handover], nofun, nofun, by simp [World.handover], nofun, fun _ => rfl,
      Nat.zero_le _, nofun, ?_⟩, nofun⟩
    rintro t (h | h)
    · cases h
      exact Nat.zero_lt_one
    · cases h
  · intro w pc a w' pc' _ hI hJ hx
    have hstep := exec_handover hx
    exact ⟨hstep.sound hI hJ, hstep.offers hI, fun m hJm hK => hstep.bystander hJm hK⟩

/-! ## Main result -/

/-- What the fields of an upgrade say about each other. -/
structure ServerSocket.UpgradeLaw (s : ServerSocket) : Prop where
  upgrading : s.upgrading = true ↔ s.upgradeTransport.isSome = true
  polling : s.upgrading = true →
    s.transport.map (·.type) = some .polling ∧ (s.state = .open ∨ s.state = .closing)
  probeNoopStop : s.probeNoopStop.isSome = true → s.upgrading = true
  upgradeTimer : s.upgradeTimer.isSome = true ↔ s.upgrading = true ∧ s.state = .open

/-- The sections of `abortUpgrade`. -/
def Pc.aborts : Pc → Bool
  | .upgrade (.beginAbortUpgrade _) | .upgrade (.abortStop _ _) | .upgrade (.abortClose _) => true
  | _ => false

theorem execUpgrade_aborts {pc : UpgradePc} (h : execUpgrade w pc a = some (w', pc'))
    (hpc : (Pc.upgrade pc).aborts = true) :
    w'.sock.state = w.sock.state ∧ w'.sock.transport = w.sock.transport ∧
      w'.sock.writeBuffer = w.sock.writeBuffer := by
  have hreleases : w.Releases w' → w'.sock.state = w.sock.state ∧
      w'.sock.transport = w.sock.transport ∧ w'.sock.writeBuffer = w.sock.writeBuffer :=
    fun h => ⟨by rw [h.sock], by rw [h.sock], by rw [h.sock]⟩
  revert h
  fun_cases execUpgrade w pc a <;> intro h <;> cases h
  case case14 => exact ⟨rfl, rfl, rfl⟩
  case case15 hs =>
    obtain ⟨-, rfl, -⟩ := ServerSocket.beginAbortUpgrade_eq_some.1 hs
    exact ⟨rfl, rfl, rfl⟩
  case case16 => exact hreleases (w.closeStop?_releases _)
  case case17 => exact hreleases (w.closeTransport_releases _)
  all_goals cases hpc

theorem exec_aborts {pc : Pc} (h : exec w pc a = some (w', pc')) (hpc : pc.aborts = true) :
    w'.sock.state = w.sock.state ∧ w'.sock.transport = w.sock.transport ∧
      w'.sock.writeBuffer = w.sock.writeBuffer := by
  cases pc with
  | upgrade pc => exact execUpgrade_aborts h hpc
  | _ => cases hpc

/-- A probe that is refused is discarded, and so is one that is aborted while it is in the upgrade. -/
theorem exec_discards {t : Transport} {pc : Pc} (h : exec w pc a = some (w', pc'))
    (hpc : pc = .upgrade (.startUpgrade t) ∧ w.sock.startUpgrade t = none ∨
      pc = .upgrade (.beginAbortUpgrade t) ∧ w.sock.upgrading = true ∧ w.sock.upgradeTransport = some t) :
    t ∈ w'.discarded := by
  rcases hpc with ⟨rfl, hrefused⟩ | ⟨rfl, hupgrading, htransport⟩
  · cases a with
    | go =>
      rw [exec, execUpgrade, hrefused] at h
      cases h
      exact List.mem_cons_self
    | _ => cases h
  · cases a with
    | go =>
      have habort := ServerSocket.beginAbortUpgrade_eq_some.2 ⟨⟨hupgrading, htransport⟩, rfl, rfl⟩
      rw [exec, execUpgrade, habort] at h
      cases h
      exact List.mem_cons_self
    | _ => cases h

/-- **The upgrade state machine.** In every reachable pool the fields of an upgrade agree; a section makes a transport
    active only if it is the one in the upgrade; `startUpgrade` discards a probe that it refuses, and `abortUpgrade` the
    one in the upgrade; a probe that was discarded is neither active nor in the upgrade, ever again; aborting leaves the
    state, the active transport and the write buffer alone; and the active transport is replaced at most once. -/
theorem upgrade_state_machine (c : Pool World Pc) (hc : program.Reachable c) :
    c.shared.sock.UpgradeLaw ∧
    (∀ i a c', program.step c i a = some c' →
      c'.shared.sock.transport = c.shared.sock.transport ∨
      c'.shared.sock.state = .closed ∧ c'.shared.sock.transport = none ∨
      c.shared.sock.upgrading = true ∧
        c'.shared.sock.transport = c.shared.sock.upgradeTransport) ∧
    (∀ i a c' t, program.step c i a = some c' →
      c.thread i = .upgrade (.startUpgrade t) ∧ c.shared.sock.startUpgrade t = none ∨
        c.thread i = .upgrade (.beginAbortUpgrade t) ∧ c.shared.sock.upgradeTransport = some t →
      t ∈ c'.shared.discarded) ∧
    (∀ t ∈ c.shared.discarded, c.shared.sock.transport ≠ some t ∧
      c.shared.sock.upgradeTransport ≠ some t) ∧
    (∀ i a c', program.step c i a = some c' → (c.thread i).aborts = true →
      c'.shared.sock.state = c.shared.sock.state ∧
      c'.shared.sock.transport = c.shared.sock.transport ∧
      c'.shared.sock.writeBuffer = c.shared.sock.writeBuffer) ∧
    c.shared.swaps ≤ 1 := by
  have hI := reach_handover hc
  refine ⟨⟨hI.upgrading, hI.polling, hI.ticking, hI.timer⟩, fun i a c' hstep => ?_, fun i a c' t hstep hpc => ?_,
    fun t ht => (hI.discarded t ht).2, fun i a c' hstep hpc => ?_, hI.swaps⟩
  · obtain ⟨w', pc', hx, rfl⟩ := Program.step_eq_some hstep
    exact (exec_handover hx).transport
  · obtain ⟨w', pc', hx, rfl⟩ := Program.step_eq_some hstep
    refine exec_discards hx (hpc.imp_right fun ⟨hpc, htransport⟩ => ⟨hpc, ?_, htransport⟩)
    exact hI.upgrading.2 (by simp [World.handover, htransport])
  · obtain ⟨w', pc', hx, rfl⟩ := Program.step_eq_some hstep
    exact exec_aborts hx hpc

/-- A polling session whose websocket probe is answered and completes. -/
theorem upgrade_state_machine_run :
    ∃ c, program.Reachable c ∧ c.shared.sock.transport = some ⟨1, .websocket⟩ ∧
      c.shared.swaps = 1 ∧ c.shared.sock.UpgradeLaw := by
  have hrun : ∃ c, program.run freshPolling
      [(0, .call .open), (0, .go), (1, .call (.startUpgrade .websocket)), (1, .go),
        (2, .call .onProbe), (2, .go), (1, .call (.completeUpgrade ⟨1, .websocket⟩)), (1, .go)] =
      some c ∧ c.shared.sock.transport = some ⟨1, .websocket⟩ ∧ c.shared.swaps = 1 :=
    ⟨_, rfl, rfl, rfl⟩
  obtain ⟨c, hrun, htransport, hswaps⟩ := hrun
  have hc := freshPolling_reachable.run hrun
  exact ⟨c, hc, htransport, hswaps, (upgrade_state_machine c hc).1⟩

end EngineIo.Server
