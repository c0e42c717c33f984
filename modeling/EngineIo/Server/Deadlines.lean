import EngineIo.Concurrency.Timers
import EngineIo.Server.Heartbeat

set_option autoImplicit false

/-! # The timers of a session against the clock (`server_socket.go`)

The four timers of a session with the delays they are armed with. `open` and every pong arm the ping timer, so the
time at which that was last armed is when the session has last heard of its client. The function of the ping timer
arms the pong deadline, also if one is pending, but pings do not go on by themselves. So without a pong the deadline
is put off once at most.

No section waits for a write of `flush`, which is outside `s.mu`: the bounds do not depend on how long a write
takes. -/

namespace EngineIo.Server

open Concurrency

/-- The upgrade timer is armed for one probe. -/
inductive TimerKind
  | ping
  | pong
  | close
  | upgrade (t : Transport)
deriving DecidableEq, Repr

/-- The options that timers are armed with, in nanoseconds; for `time.AfterFunc` a negative delay is as good as
    none. -/
structure Delays where
  pingInterval : Nat
  pingTimeout : Nat
  upgradeTimeout : Nat

def Delays.delay (d : Delays) : TimerKind → Nat
  | .ping => d.pingInterval
  | .pong | .close => d.pingTimeout
  | .upgrade _ => d.upgradeTimeout

/-- The timers, and the transport that the upgrade timer is for. -/
structure Alarms where
  ping : Option Timer
  pong : Option Timer
  close : Option Timer
  upgrade : Option UpgradeTimer
  probe : Option Transport

def ServerSocket.alarms (s : ServerSocket) : Alarms where
  ping := s.pingTimer
  pong := s.pongTimer
  close := s.closeTimer
  upgrade := s.upgradeTimer
  probe := s.upgradeTransport

/-- The timer has been armed and neither stopped nor fired. -/
def Alarms.pending (v : Alarms) : TimerKind → Bool
  | .ping => v.ping = some {}
  | .pong => v.pong = some {}
  | .close => v.close = some {}
  | .upgrade t => v.upgrade = some { transport := t }

/-- Whether the section that a goroutine runs next calls `time.AfterFunc`. -/
def Pc.arms (pc : Pc) (s : ServerSocket) : TimerKind → Bool
  | .ping => pc = .open ∧ s.state = .opening ∨ pc = .onPong ∧ s.state = .open
  | .pong => pc = .sendPing ∧ s.state = .open
  | .close => pc = .armCloseTimer ∧ s.state = .closing ∧ s.closeTimer = none
  | .upgrade t => pc = .upgrade (.startUpgrade t) ∧ (s.startUpgrade t).isSome

/-- The call that starts the function of the timer. -/
def TimerKind.call : TimerKind → Call
  | .ping => .pingTimer
  | .pong => .pongTimer
  | .close => .closeTimer
  | .upgrade _ => .upgradeTimer

/-- The first section of its function. -/
def TimerKind.pc : TimerKind → Pc
  | .ping => .sendPing
  | .pong => .teardown (.beginTeardown .pingTimeout .done)
  | .close => .teardown (.beginTeardown .forcedClose .done)
  | .upgrade t => .upgrade (.beginAbortUpgrade t)

/-! ## What the sections do to the timers -/

/-- The timer's function is started. -/
def Alarms.fire (v : Alarms) : TimerKind → Alarms
  | .ping => { v with ping := some { fired := true } }
  | .pong => { v with pong := some { fired := true } }
  | .close => { v with close := some { fired := true } }
  | .upgrade t => { v with upgrade := some { transport := t, fired := true } }

/-- What a section can do. -/
inductive AlarmStep (s : ServerSocket) (pc : Pc) (a : Choice) : Alarms → Prop
  | same : AlarmStep s pc a s.alarms
  | fired (k : TimerKind) (ha : a = .call k.call) (hk : s.alarms.pending k = true) :
      AlarmStep s pc a (s.alarms.fire k)
  | opened (h : pc.arms s .ping = true) : AlarmStep s pc a { s.alarms with ping := some {} }
  | ponged (h : pc.arms s .ping = true) : AlarmStep s pc a { s.alarms with ping := some {}, pong := none }
  | pinged (h : pc.arms s .pong = true) : AlarmStep s pc a { s.alarms with pong := some {} }
  | armed (h : pc.arms s .close = true) : AlarmStep s pc a { s.alarms with close := some {} }
  | probing (t : Transport) (h : pc.arms s (.upgrade t) = true) :
      AlarmStep s pc a { s.alarms with upgrade := some { transport := t }, probe := some t }
  | probed : AlarmStep s pc a { s.alarms with upgrade := none, probe := none }
  | stopped (probe : Option Transport) : AlarmStep s pc a ⟨none, none, none, none, probe⟩

variable {w w' : World} {a : Choice} {pc pc' : Pc} {k : TimerKind}

theorem AlarmStep.unchanged (h : w'.sock = w.sock) : AlarmStep w.sock pc a w'.sock.alarms := by
  rw [h]
  exact .same

theorem startCall_alarms {c : Call} (h : startCall w c = some (w', pc')) :
    AlarmStep w.sock pc (.call c) w'.sock.alarms := by
  revert h
  fun_cases startCall w c <;> intro h <;> cases h
  case case13 ht => exact .fired .ping rfl (decide_eq_true ht)
  case case15 ht => exact .fired .pong rfl (decide_eq_true ht)
  case case17 ht => exact .fired .close rfl (decide_eq_true ht)
  case case20 timer ht hfired =>
    obtain ⟨t, fired⟩ := timer
    obtain rfl : fired = false := by simpa using hfired
    exact .fired (.upgrade t) rfl (decide_eq_true ht)
  all_goals exact .same

theorem execFlush_alarms {p : FlushPc} (h : execFlush w p a = some (w', pc')) :
    AlarmStep w.sock pc a w'.sock.alarms := by
  revert h
  fun_cases execFlush w p a <;> intro h <;> cases h <;> exact .same

theorem execTeardown_alarms {p : TeardownPc} (h : execTeardown w p a = some (w', pc')) :
    AlarmStep w.sock pc a w'.sock.alarms := by
  revert h
  fun_cases execTeardown w p a <;> intro h <;> cases h
  case case2 hs =>
    obtain ⟨-, rfl, -, -, -⟩ := ServerSocket.beginTeardown_eq_some.1 hs
    exact .stopped _
  case case3 => exact .unchanged (w.closeStop?_releases _).sock
  case case4 | case5 => exact .unchanged (w.closeTransport?_releases _).sock
  all_goals exact .same

theorem execPoll_alarms {p : PollPc} (h : execPoll w p a = some (w', pc')) :
    AlarmStep w.sock pc a w'.sock.alarms := by
  revert h
  fun_cases execPoll w p a <;> intro h <;> cases h <;> exact .same

theorem execUpgrade_alarms {p : UpgradePc} (h : execUpgrade w p a = some (w', pc')) :
    AlarmStep w.sock (.upgrade p) a w'.sock.alarms := by
  revert h
  fun_cases execUpgrade w p a <;> intro h <;> cases h
  case case2 t s hs =>
    have harms : (Pc.upgrade (.startUpgrade t)).arms w.sock (.upgrade t) = true := by simp [Pc.arms, hs]
    obtain ⟨-, rfl⟩ := ServerSocket.startUpgrade_eq_some.1 hs
    exact .probing t harms
  case case3 | case17 => exact .unchanged (w.closeTransport_releases _).sock
  case case5 hs =>
    obtain ⟨-, rfl⟩ := ServerSocket.onProbe_eq_some.1 hs
    exact .same
  case case9 => exact .unchanged (w.deliver_releases _ _ _).sock
  case case11 hs =>
    obtain ⟨-, rfl, -, -⟩ := ServerSocket.beginCompleteUpgrade_eq_some.1 hs
    exact .probed
  case case12 | case16 => exact .unchanged (w.closeStop?_releases _).sock
  case case13 => exact .unchanged (w.closeTransport?_releases _).sock
  case case15 hs =>
    obtain ⟨-, rfl, -⟩ := ServerSocket.beginAbortUpgrade_eq_some.1 hs
    exact .probed
  all_goals exact .same

theorem exec_alarms (h : exec w pc a = some (w', pc')) : AlarmStep w.sock pc a w'.sock.alarms := by
  revert h
  fun_cases exec w pc a <;> intro h
  case case1 => exact startCall_alarms h
  case case2 =>
    cases h
    rcases w.sock.open_cases with ⟨hs, hopened⟩ | hsame
    · rw [hopened]
      exact .opened (by simp [Pc.arms, hs])
    · exact .unchanged hsame
  case case4 hs =>
    cases h
    obtain ⟨-, rfl⟩ := ServerSocket.send_eq_some.1 hs
    exact .same
  case case6 hs =>
    cases h
    obtain ⟨-, rfl⟩ := ServerSocket.beginClose_eq_some.1 hs
    exact .stopped _
  case case7 =>
    cases h
    by_cases hs : w.sock.state = .closing ∧ w.sock.closeTimer = none
    · rw [show w.sock.armCloseTimer = { w.sock with closeTimer := some {} } from if_pos hs]
      exact .armed (by simp [Pc.arms, hs])
    · exact .unchanged (if_neg hs)
  case case8 =>
    cases h
    by_cases hs : w.sock.state = .open
    · rw [show w.sock.onPong = { w.sock with pongTimer := none, pingTimer := some {} } from
        if_neg (not_not_intro hs)]
      exact .ponged (by simp [Pc.arms, hs])
    · exact .unchanged (if_pos hs)
  case case10 hs =>
    cases h
    obtain ⟨hlive, rfl⟩ := ServerSocket.sendPing_eq_some.1 hs
    exact .pinged (by simp [Pc.arms, hlive])
  case case11 => exact execFlush_alarms h
  case case12 => exact execTeardown_alarms h
  case case13 => exact execPoll_alarms h
  case case14 => exact execUpgrade_alarms h
  all_goals
    cases h
    try exact .same

/-- A timer that is pending after a section was armed in it or pending before. -/
theorem AlarmStep.pending {s : ServerSocket} {v' : Alarms} (h : AlarmStep s pc a v') (hk : v'.pending k = true) :
    pc.arms s k = true ∨ s.alarms.pending k = true := by
  cases h with
  | same => exact .inr hk
  | fired k' => cases k' <;> cases k <;> first | exact .inr hk | simp [Alarms.pending, Alarms.fire] at hk
  | opened h | ponged h =>
    cases k with
    | ping => exact .inl h
    | _ => first | exact .inr hk | cases hk
  | pinged h =>
    cases k with
    | pong => exact .inl h
    | _ => exact .inr hk
  | armed h =>
    cases k with
    | close => exact .inl h
    | _ => exact .inr hk
  | probing t h =>
    cases k with
    | upgrade u =>
      obtain rfl : t = u := by simpa [Alarms.pending] using hk
      exact .inl h
    | _ => exact .inr hk
  | probed => cases k <;> first | exact .inr hk | cases hk
  | stopped => cases k <;> cases hk

/-- Only an idle goroutine takes up a call. -/
theorem exec_call {c : Call} {r : World × Pc} (h : exec w pc (.call c) = some r) : startCall w c = some r := by
  cases pc with
  | idle => exact h
  | flush pc => cases pc <;> cases h
  | teardown pc => cases pc <;> cases h
  | poll pc => cases pc <;> cases h
  | upgrade pc => cases pc <;> cases h
  | _ => cases h

theorem startCall_serves (h : startCall w k.call = some (w', pc')) (hk : w.sock.alarms.pending k = true) :
    pc' = k.pc := by
  cases k with
  | ping | pong | close =>
    have ht := of_decide_eq_true hk
    simp only [ServerSocket.alarms] at ht
    simp only [TimerKind.call, startCall, ht, if_true, Option.some.injEq, Prod.mk.injEq] at h
    exact h.2.symm
  | upgrade t =>
    have ht := of_decide_eq_true hk
    simp only [ServerSocket.alarms] at ht
    simp only [TimerKind.call, startCall, ht, Bool.false_eq_true, if_false, Option.some.injEq, Prod.mk.injEq] at h
    exact h.2.symm

/-- The timers of a session. -/
def timers (d : Delays) : Timers program TimerKind where
  pending k w := w.sock.alarms.pending k
  arms k w pc _ := if pc.arms w.sock k then some (d.delay k) else none
  fires k w a := decide (a = .call k.call) && w.sock.alarms.pending k
  serves k pc := pc = k.pc
  pending_init := by
    rintro k w ⟨type, rfl⟩
    cases k <;> rfl
  pending_of_exec h hk := by
    rcases (exec_alarms h).pending hk with harms | hpending
    · rw [if_pos harms]
      exact .inl rfl
    · exact .inr hpending
  pending_of_fires _ hf := (Bool.and_eq_true_iff.1 hf).2
  serves_of_fires := by
    intro k w pc a w' pc' h hf
    obtain ⟨ha, hk⟩ := Bool.and_eq_true_iff.1 hf
    rw [of_decide_eq_true ha] at h
    exact decide_eq_true (startCall_serves (exec_call h) hk)

theorem timers_arms {d : Delays} (h : ((timers d).arms k w pc a).isSome = true) : pc.arms w.sock k = true := by
  simpa [timers] using h

/-! ## The functions of the timers -/

variable {d : Delays} {slack : Slack} {C : World → Pc → Choice → Prop} {t : Timed World Pc TimerKind}

theorem Cont.resume_ne_sendPing (k : Cont) : k.resume ≠ .sendPing := by
  cases k <;> intro h <;> cases h

theorem Return.resume_ne_sendPing (r : Return) : r.resume ≠ .sendPing := by
  cases r <;> intro h <;> cases h

theorem startCall_sendPing {c : Call} (h : startCall w c = some (w', .sendPing)) :
    c = .pingTimer ∧ w.sock.alarms.pending .ping = true := by
  revert h
  fun_cases startCall w c <;> intro h <;> cases h
  next ht => exact ⟨rfl, decide_eq_true ht⟩

theorem execFlush_ne_sendPing {pc : FlushPc} (h : execFlush w pc a = some (w', pc')) : pc' ≠ .sendPing := by
  revert h
  fun_cases execFlush w pc a <;> intro h <;> cases h
  case case11 =>
    split
    · intro h
      cases h
    · split <;> intro h <;> cases h
  case case12 k => exact k.resume_ne_sendPing
  all_goals intro h; cases h

theorem execTeardown_ne_sendPing {pc : TeardownPc} (h : execTeardown w pc a = some (w', pc')) : pc' ≠ .sendPing := by
  revert h
  fun_cases execTeardown w pc a <;> intro h <;> cases h
  case case1 r _ | case6 r => exact r.resume_ne_sendPing
  all_goals intro h; cases h

theorem execPoll_ne_sendPing {pc : PollPc} (h : execPoll w pc a = some (w', pc')) : pc' ≠ .sendPing := by
  revert h
  fun_cases execPoll w pc a <;> intro h <;> cases h
  case case4 => split <;> intro h <;> cases h
  all_goals intro h; cases h

theorem execUpgrade_ne_sendPing {pc : UpgradePc} (h : execUpgrade w pc a = some (w', pc')) : pc' ≠ .sendPing := by
  revert h
  fun_cases execUpgrade w pc a <;> intro h <;> cases h
  case case6 => split <;> intro h <;> cases h
  all_goals intro h; cases h

/-- `sendPing` is called by the ping timer only. -/
theorem exec_sendPing (h : exec w pc a = some (w', .sendPing)) :
    a = .call .pingTimer ∧ w.sock.alarms.pending .ping = true := by
  revert h
  fun_cases exec w pc a <;> intro h
  case case1 =>
    obtain ⟨rfl, hpending⟩ := startCall_sendPing h
    exact ⟨rfl, hpending⟩
  case case11 => exact absurd rfl (execFlush_ne_sendPing h)
  case case12 => exact absurd rfl (execTeardown_ne_sendPing h)
  case case13 => exact absurd rfl (execPoll_ne_sendPing h)
  case case14 => exact absurd rfl (execUpgrade_ne_sendPing h)
  all_goals cases h

theorem started_of_sendPing (ht : (timers d).Reach slack C t) {i : Nat} (h : t.pool.thread i = .sendPing) :
    (t.started i .ping).isSome = true := by
  refine ht.started_of_serves rfl ?_ (decide_eq_true h)
  intro w pc a w' pc' _ hx hserves
  rw [of_decide_eq_true hserves] at hx
  obtain ⟨rfl, hpending⟩ := exec_sendPing hx
  exact .inl (by simp [timers, TimerKind.call, hpending])

/-- The function of the timer has been started, and the timer neither stopped nor armed since. -/
def Alarms.struck (v : Alarms) : TimerKind → Bool
  | .ping => v.ping = some { fired := true }
  | .pong => v.pong = some { fired := true }
  | .close => v.close = some { fired := true }
  | .upgrade t => v.upgrade = some { transport := t, fired := true }

theorem AlarmStep.struck {s : ServerSocket} {v' : Alarms} (h : AlarmStep s pc a v') (hk : v'.struck k = true) :
    a = .call k.call ∧ s.alarms.pending k = true ∨ s.alarms.struck k = true := by
  cases h with
  | same => exact .inr hk
  | fired m ha hm =>
    cases m <;> cases k <;> first
      | exact .inr hk
      | exact .inl ⟨ha, hm⟩
      | (obtain rfl := (UpgradeTimer.mk.inj (Option.some.inj (of_decide_eq_true hk))).1
         exact .inl ⟨ha, hm⟩)
  | opened | ponged | pinged | armed | probing | probed | stopped =>
    cases k <;> first
      | exact .inr hk
      | simp [Alarms.struck] at hk

/-! ## A stalled probe -/

/-- The upgrade timer is for the transport in the upgrade. -/
def Alarms.Agree (v : Alarms) : Prop := ∀ u, v.upgrade = some u → v.probe = some u.transport

theorem AlarmStep.agree {s : ServerSocket} {v' : Alarms} (h : AlarmStep s pc a v') (hI : s.alarms.Agree) :
    v'.Agree := by
  cases h with
  | same | opened | ponged | pinged | armed => exact hI
  | probed | stopped => exact nofun
  | probing t =>
    intro u hu
    rw [← Option.some.inj hu]
  | fired k _ hk =>
    cases k with
    | ping | pong | close => exact hI
    | upgrade t =>
      intro u hu
      rw [← Option.some.inj hu]
      exact hI { transport := t } (of_decide_eq_true hk)

theorem reach_agree {c : Pool World Pc} (hc : program.Reachable c) : c.shared.sock.alarms.Agree := by
  refine (hc.invariant (I := fun w => w.sock.alarms.Agree) (J := fun _ _ => True) ?_ ?_).1
  · rintro w ⟨type, rfl⟩
    exact ⟨nofun, trivial⟩
  · intro c i a w' pc' _ _ hI _ hx
    exact ⟨(exec_alarms hx).agree hI, trivial, fun _ _ => trivial⟩

/-- The function of the upgrade timer stops the timer of its probe. -/
theorem abort_stops {c : Pool World Pc} (hc : program.Reachable c) {u : UpgradeTimer}
    (hu : c.shared.sock.upgradeTimer = some u)
    (h : exec c.shared (.upgrade (.beginAbortUpgrade u.transport)) a = some (w', pc')) :
    w'.sock.upgradeTimer = none := by
  have htransport : c.shared.sock.upgradeTransport = some u.transport := reach_agree hc u hu
  have hupgrading : c.shared.sock.upgrading = true := by
    have hiff := (reach_handover hc).upgrading
    exact hiff.2 (by simp [World.handover, htransport])
  cases a with
  | go =>
    simp only [exec, execUpgrade, ServerSocket.beginAbortUpgrade, hupgrading, htransport] at h
    simp at h
    rw [← h.1]
  | _ => cases h

/-- Whoever calls `closeWithReason`, no timer is left after its first section. -/
theorem teardown_stops {c : Pool World Pc} (hc : program.Reachable c) {reason : Reason} {r : Return}
    (h : exec c.shared (.teardown (.beginTeardown reason r)) a = some (w', pc')) :
    w'.sock.pongTimer = none ∧ w'.sock.closeTimer = none := by
  cases a with
  | go =>
    rw [exec, execTeardown] at h
    split at h
    · next hnone =>
      cases h
      have hclosed : c.shared.sock.state = .closed := by
        by_contra hlive
        simp [ServerSocket.beginTeardown, hlive] at hnone
      have hends := reach_ends hc hclosed
      exact ⟨congrArg Life.pongTimer hends, congrArg Life.closeTimer hends⟩
    · next hs =>
      cases h
      obtain ⟨-, rfl, -⟩ := ServerSocket.beginTeardown_eq_some.1 hs
      exact ⟨rfl, rfl⟩
  | _ => cases h

/-- The function of a timer other than the ping timer stops it. -/
theorem function_stops {c : Pool World Pc} (hc : program.Reachable c) (hk : k ≠ .ping)
    (hstruck : c.shared.sock.alarms.struck k = true) (h : exec c.shared k.pc a = some (w', pc')) :
    w'.sock.alarms.struck k = false := by
  cases k with
  | ping => exact absurd rfl hk
  | pong => simp [Alarms.struck, ServerSocket.alarms, (teardown_stops hc h).1]
  | close => simp [Alarms.struck, ServerSocket.alarms, (teardown_stops hc h).2]
  | upgrade u =>
    have hstops := abort_stops hc (of_decide_eq_true hstruck) h
    simp [Alarms.struck, ServerSocket.alarms, hstops]

/-- A timer that has fired, and has not been stopped or armed since, has its function running. -/
theorem struck_started (ht : (timers d).Reach slack C t) (hk : k ≠ .ping)
    (h : t.pool.shared.sock.alarms.struck k = true) : ∃ i, (t.started i k).isSome = true := by
  have howner := ht.served (k := k) (O := fun _ => False) (H := fun w => w.sock.alarms.struck k = true) ?_ ?_ h
  · simpa using howner
  · rintro w ⟨type, rfl⟩ hstruck
    cases k <;> cases hstruck
  · intro t i a w' pc' ht _ hx hstruck
    rcases (exec_alarms hx).struck hstruck with ⟨rfl, hpending⟩ | hold
    · exact .inl (by simp [timers, hpending])
    · refine .inr (.inr ⟨hold, not_false, fun hserves => ?_⟩)
      rw [of_decide_eq_true hserves] at hx
      exact absurd (hstruck.symm.trans (function_stops ht.pool.reachable hk hold hx)) (by decide)

/-- A probe of an open session has its timer pending, or the function of that running. -/
theorem upgrade_outstanding (ht : (timers d).Reach slack C t) {u : Transport}
    (hstate : t.pool.shared.sock.state = .open) (hu : t.pool.shared.sock.upgradeTransport = some u) :
    (timers d).pending (.upgrade u) t.pool.shared = true ∨ ∃ i, (t.started i (.upgrade u)).isSome = true := by
  have hsound := reach_handover ht.pool.reachable
  have hupgrading : t.pool.shared.sock.upgrading = true := hsound.upgrading.2 (by simp [World.handover, hu])
  obtain ⟨timer, htimer⟩ := Option.isSome_iff_exists.1 (hsound.timer.2 ⟨hupgrading, hstate⟩)
  have htransport := reach_agree ht.pool.reachable timer htimer
  obtain ⟨u', fired⟩ := timer
  obtain rfl : u = u' := Option.some.inj (hu.symm.trans htransport)
  cases fired with
  | false => exact .inl (decide_eq_true htimer)
  | true => exact .inr (struck_started ht (fun h => (by cases h)) (decide_eq_true htimer))

/-! ## Main results -/

/-- There is no pong deadline before the session is open. -/
def Life.Unpinged (v : Life) : Prop := v.state = .opening → v.pongTimer = none

theorem LifeStep.unpinged {v v' : Life} {e e' : Duty} (h : LifeStep v e v' e') (hI : v.Unpinged) : v'.Unpinged := by
  cases h with
  | opened | closing | teardown => exact nofun
  | pinged hs => exact fun hopening => nomatch hs.symm.trans hopening
  | ponged => exact fun _ => rfl
  | pongFired hf =>
    intro hopening
    cases hf.symm.trans (hI hopening)
  | _ => exact hI

theorem reach_unpinged {c : Pool World Pc} (hc : program.Reachable c) : c.shared.life.Unpinged := by
  refine (hc.invariant (I := fun w => w.life.Unpinged) (J := fun _ _ => True) ?_ ?_).1
  · rintro w ⟨type, rfl⟩
    exact ⟨fun _ => rfl, trivial⟩
  · intro c i a w' pc' hc _ hI _ hx
    exact ⟨(step_life hc hx).unpinged hI, trivial, fun _ _ => trivial⟩

/-- Whatever the session hears of its client ends the pong deadline. -/
theorem heard_stops_pong {c : Pool World Pc} (hc : program.Reachable c) {i : Nat}
    (h : exec c.shared (c.thread i) a = some (w', pc')) (harms : (c.thread i).arms c.shared.sock .ping = true) :
    w'.sock.alarms.pending .pong = false := by
  have hcases : c.thread i = .open ∧ c.shared.sock.state = .opening ∨
      c.thread i = .onPong ∧ c.shared.sock.state = .open := of_decide_eq_true harms
  rcases hcases with ⟨hpc, hs⟩ | ⟨hpc, hs⟩
  · have hpong : c.shared.sock.pongTimer = none := reach_unpinged hc hs
    rw [hpc] at h
    cases a with
    | go =>
      cases h
      simp [ServerSocket.open, hs, Alarms.pending, ServerSocket.alarms, hpong]
    | _ => cases h
  · rw [hpc] at h
    cases a with
    | go =>
      cases h
      simp [ServerSocket.onPong, hs, Alarms.pending, ServerSocket.alarms]
    | _ => cases h

theorem timers_delay {d' : Nat} (h : (timers d).arms k w pc a = some d') : d' = d.delay k := by
  have hiff : pc.arms w.sock k = true ∧ d.delay k = d' := by simpa [timers] using h
  exact hiff.2.symm

/-- A timer that is pending or whose function has yet to run is within its delay. -/
theorem within_delay (ht : (timers d).Reach slack C t)
    (h : (timers d).pending k t.pool.shared = true ∨ ∃ i, (t.started i k).isSome = true) :
    t.now ≤ t.armed k + d.delay k + slack.late + slack.run := by
  have hnow := ht.not_overdue h
  have hdelay := ht.delay_le (k := k) fun _ harms => (timers_delay harms).le
  omega

/-- The pong deadline is armed by the function of the ping timer. -/
theorem pong_armed_by_ping (ht : (timers d).Reach slack C t) :
    t.armed .pong ≤ t.armed .ping + d.pingInterval + slack.late + slack.run := by
  have hby := ht.armed_by (k := .ping) (m := .pong) fun ht harms =>
    started_of_sendPing ht (of_decide_eq_true (timers_arms harms)).1
  have hdelay : t.delay .ping ≤ d.pingInterval := ht.delay_le fun _ harms => (timers_delay harms).le
  omega

/-- A pong deadline of a session is pending or about to strike. -/
theorem pong_outstanding (ht : (timers d).Reach slack C t) (h : t.pool.shared.sock.pongTimer ≠ none) :
    (timers d).pending .pong t.pool.shared = true ∨ ∃ i, (t.started i .pong).isSome = true := by
  obtain ⟨⟨fired⟩, htimer⟩ := Option.ne_none_iff_exists'.1 h
  cases fired with
  | false => exact .inl (decide_eq_true htimer)
  | true => exact .inr (struck_started ht (fun h => (by cases h)) (decide_eq_true htimer))

/-- An open session that waits for no pong has its ping timer pending, or about to strike. -/
theorem ping_pending_or_started (ht : (timers d).Reach slack C t) (hs : t.pool.shared.sock.state = .open)
    (hpong : t.pool.shared.sock.pongTimer = none) :
    (timers d).pending .ping t.pool.shared = true ∨ ∃ i, (t.started i .ping).isSome = true := by
  refine (ping_outstanding ht.pool.reachable hs hpong).imp (fun h => decide_eq_true h) fun ⟨i, hduty⟩ => ⟨i, ?_⟩
  rcases (t.pool.thread i).duty_cases with (hd | hd) | hpc | hpc | hpc
  · cases hd.symm.trans hduty
  · cases hd.symm.trans hduty
  · exact started_of_sendPing ht hpc
  · rw [hpc] at hduty
    cases hduty
  · rw [hpc] at hduty
    cases hduty

/-- **No session outlives its client.** An open session has heard of its client within the ping interval and the ping
    timeout, apart from the slack of two timers. A probe of an open session is not older than the upgrade timeout, and
    a closing session is closed within the ping timeout once `Close` has armed the fallback, each apart from the slack
    of its timer. -/
theorem session_deadlines (d : Delays) (slack : Slack) (t : Timed World Pc TimerKind)
    (ht : (timers d).Reachable slack t) :
    (t.pool.shared.sock.state = .open →
      t.now ≤ t.armed .ping + d.pingInterval + d.pingTimeout + 2 * (slack.late + slack.run)) ∧
    (∀ u, t.pool.shared.sock.state = .open → t.pool.shared.sock.upgradeTransport = some u →
      t.now ≤ t.armed (.upgrade u) + d.upgradeTimeout + slack.late + slack.run) ∧
    (t.pool.shared.sock.state = .closing →
      t.now ≤ t.armed .close + d.pingTimeout + slack.late + slack.run ∨
        ∃ i, (t.pool.thread i).duty = .drain) := by
  refine ⟨fun hs => ?_, fun u hs hu => within_delay ht (upgrade_outstanding ht hs hu), fun hs => ?_⟩
  · by_cases hpong : t.pool.shared.sock.pongTimer = none
    · have hnow : t.now ≤ t.armed .ping + d.pingInterval + slack.late + slack.run :=
        within_delay ht (ping_pending_or_started ht hs hpong)
      omega
    · have hnow : t.now ≤ t.armed .pong + d.pingTimeout + slack.late + slack.run :=
        within_delay ht (pong_outstanding ht hpong)
      have harmed := pong_armed_by_ping ht
      omega
  · cases htimer : t.pool.shared.sock.closeTimer with
    | none => exact .inr (drain_outstanding ht.pool.reachable hs htimer)
    | some timer =>
      obtain ⟨fired⟩ := timer
      refine .inl (within_delay ht (k := .close) ?_)
      cases fired with
      | false => exact .inl (decide_eq_true htimer)
      | true => exact .inr (struck_started ht (fun h => (by cases h)) (decide_eq_true htimer))

/-- **The deadline strikes after silence.** Whenever the function of the pong deadline is started, which is not before
    the timer is due, the session has heard nothing of its client for the ping timeout. -/
theorem ping_timeout_after_silence (d : Delays) (slack : Slack) (t : Timed World Pc TimerKind)
    (ht : (timers d).Reachable slack t) (i : Nat) (w' : World) (pc' : Pc)
    (hstart : exec t.pool.shared (t.pool.thread i) (.call .pongTimer) = some (w', pc'))
    (hdue : t.armed .pong + t.delay .pong ≤ t.now) : t.armed .ping + d.pingTimeout ≤ t.now := by
  have hpending : (timers d).pending .pong t.pool.shared = true := by
    have hcall := exec_call hstart
    rw [startCall] at hcall
    exact decide_eq_true (Option.ite_none_right_eq_some.1 hcall).1
  exact ht.silence (k := .ping)
    (fun ht hx harms => heard_stops_pong ht.pool.reachable hx (timers_arms harms))
    (fun _ harms => (timers_delay harms).ge) hpending hdue

/-! ## A run -/

theorem timers_fires (h : (timers d).fires k w a = true) : a = .call k.call ∧ w.sock.alarms.pending k = true := by
  simpa [timers] using h

/-- A section that is not called by a timer is run at any time. -/
theorem untimed {t : Timed World Pc TimerKind} {a : Choice} (ha : ∀ k : TimerKind, a ≠ .call k.call) (k : TimerKind)
    (hf : (timers d).fires k t.pool.shared a = true) : t.armed k + t.delay k ≤ t.now :=
  absurd (timers_fires hf).1 (ha k)

/-- A session that was opened at the start. -/
theorem opened_session :
    ∃ t, (timers ⟨25, 20, 10⟩).Reachable ⟨1, 1⟩ t ∧ t.now = 0 ∧ t.armed .ping = 0 ∧ t.delay .ping = 25 ∧
      (∀ i, t.pool.thread i = .idle) ∧ (∀ i k, t.started i k = none) ∧
      t.pool.shared = { sock := { state := .open, transport := some ⟨0, .polling⟩, pingTimer := some {} } } := by
  have hinit : (timers ⟨25, 20, 10⟩).Reachable ⟨1, 1⟩ _ := .init (P := program) ⟨.polling, rfl⟩
  have hcall := hinit.step 0 (.call .open) _ _ trivial rfl (untimed (by rintro ⟨⟩ <;> intro h <;> cases h))
  have hopen := hcall.step 0 .go _ _ trivial rfl (untimed (by rintro ⟨⟩ <;> intro h <;> cases h))
  refine ⟨_, hopen, rfl, rfl, rfl, ?_, ?_, rfl⟩
  · intro i
    cases i <;> rfl
  · intro i k
    cases i <;> cases k <;> rfl

/-- The session pings after 25 units of time. -/
theorem pinged_session :
    ∃ t, (timers ⟨25, 20, 10⟩).Reachable ⟨1, 1⟩ t ∧ t.now = 25 ∧ t.armed .ping = 0 ∧ t.armed .pong = 25 ∧
      t.delay .pong = 20 ∧ t.pool.thread 2 = .idle ∧ (∀ i k, t.started i k = none) ∧
      t.pool.shared.sock.alarms = ⟨some { fired := true }, some {}, none, none, none⟩ ∧
      t.pool.shared.sock.state = .open := by
  obtain ⟨t, ht, hnow, harmed, hdelay, hthread, hstarted, hshared⟩ := opened_session
  have h25 := ht.wait 25 (by omega) ⟨fun k hk => ?_, fun i k time h => nomatch (hstarted i k).symm.trans h⟩
  · have hfire := h25.step 1 (.call .pingTimer)
      { sock := { state := .open, transport := some ⟨0, .polling⟩, pingTimer := some { fired := true } } } .sendPing
      trivial (by simp only [hthread, hshared]; rfl) fun k hf => ?_
    · have hping := hfire.step 1 .go _ _ trivial (by simp only [Timers.after, Function.update_self]; rfl)
        (untimed (by rintro ⟨⟩ <;> intro h <;> cases h))
      refine ⟨_, hping, rfl, ?_, rfl, rfl, ?_, fun i k => ?_, rfl, rfl⟩
      · simp [Timers.after, timers, Pc.arms, hthread, harmed]
      · simp [Timers.after, hthread]
      · by_cases hi : i = 1
        · subst hi
          cases k <;> simp [Timers.after, timers, TimerKind.pc]
        · simp [Timers.after, hi, hstarted]
    · obtain ⟨ha, -⟩ := timers_fires hf
      cases k <;> cases ha
      show t.armed .ping + t.delay .ping ≤ 25
      omega
  · rw [hshared] at hk
    cases k with
    | ping =>
      show 25 ≤ t.armed .ping + t.delay .ping + 1
      omega
    | _ => cases hk

/-- A client that does not answer: the deadline may strike after another 20. -/
theorem silent_client :
    ∃ t, (timers ⟨25, 20, 10⟩).Reachable ⟨1, 1⟩ t ∧ t.pool.shared.sock.state = .open ∧ t.now = 45 ∧
      t.armed .pong + t.delay .pong = 45 ∧
      ∃ w' pc', exec t.pool.shared (t.pool.thread 2) (.call .pongTimer) = some (w', pc') := by
  obtain ⟨t, ht, hnow, -, hpong, hdelay, hthread, hstarted, halarms, hstate⟩ := pinged_session
  have h45 := ht.wait 45 (by omega) ⟨fun k hk => ?_, fun i k time h => nomatch (hstarted i k).symm.trans h⟩
  · refine ⟨_, h45, hstate, rfl, by simp [hpong, hdelay], ?_⟩
    have htimer : t.pool.shared.sock.pongTimer = some {} := congrArg Alarms.pong halarms
    simp [hthread, exec, startCall, htimer]
  · have hk' : Alarms.pending ⟨some { fired := true }, some {}, none, none, none⟩ k = true := halarms ▸ hk
    cases k with
    | pong =>
      show 45 ≤ t.armed .pong + t.delay .pong + 1
      omega
    | _ => cases hk'

theorem session_deadlines_silent_client :
    ∃ t, (timers ⟨25, 20, 10⟩).Reachable ⟨1, 1⟩ t ∧ t.pool.shared.sock.state = .open ∧ t.now = 45 ∧
      t.now ≤ t.armed .ping + 25 + 20 + 2 * (1 + 1) := by
  obtain ⟨t, ht, hs, hnow, -, -⟩ := silent_client
  exact ⟨t, ht, hs, hnow, (session_deadlines ⟨25, 20, 10⟩ ⟨1, 1⟩ t ht).1 hs⟩

theorem ping_timeout_after_silence_silent_client :
    ∃ t w' pc', (timers ⟨25, 20, 10⟩).Reachable ⟨1, 1⟩ t ∧ t.now = 45 ∧
      exec t.pool.shared (t.pool.thread 2) (.call .pongTimer) = some (w', pc') ∧ t.armed .ping + 20 ≤ t.now := by
  obtain ⟨t, ht, -, hnow, hdue, w', pc', hstart⟩ := silent_client
  exact ⟨t, w', pc', ht, hnow, hstart,
    ping_timeout_after_silence ⟨25, 20, 10⟩ ⟨1, 1⟩ t ht 2 w' pc' hstart (hdue.trans hnow.symm).le⟩

end EngineIo.Server
