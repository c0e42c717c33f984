import EngineIo.Server.Upgrade

set_option autoImplicit false

/-! # The timers of a session

`open`, `onPong` and `sendPing` keep the heartbeat going, `Close` stops it and arms a fallback in a later
section, and the teardown stops everything. `Life` keeps the fields that these sections write besides the
upgrade's, `Duty` says which of them a goroutine will still see to, and `LifeStep` says what a section can
do to both. A timer field holds a pending timer or one whose function has been started; the goroutine
that runs the function then has the duty. -/

namespace EngineIo.Server

open Concurrency

structure Life where
  state : SessionState
  transport : Option Transport
  writeBuffer : List Packet
  pingTimer : Option Timer
  pongTimer : Option Timer
  closeTimer : Option Timer

def World.life (w : World) : Life where
  state := w.sock.state
  transport := w.sock.transport
  writeBuffer := w.sock.writeBuffer
  pingTimer := w.sock.pingTimer
  pongTimer := w.sock.pongTimer
  closeTimer := w.sock.closeTimer

inductive Duty
  | none
  /-- The function of the ping timer: `sendPing`. -/
  | ping
  /-- The function of the pong deadline: `closeWithReason("ping timeout")`. -/
  | pong
  /-- `Close` has entered closing and has not armed the fallback yet. -/
  | drain
  /-- The function of the fallback: `closeWithReason("forced close")`. -/
  | fallback
deriving DecidableEq, Repr

def Cont.duty : Cont → Duty
  | .close => .drain
  | .done | .poll _ => .none

def Return.duty : Return → Duty
  | .done => .none
  | .flush k => k.duty

/-- The duty of a goroutine that is about to call `beginTeardown`. -/
def Reason.duty (reason : Reason) : Return → Duty
  | .flush k => k.duty
  | .done =>
    match reason with
    | .pingTimeout => .pong
    | .forcedClose => .fallback
    | _ => .none

def TeardownPc.duty : TeardownPc → Duty
  | .beginTeardown reason r => reason.duty r
  | .closeStop _ r _ _ _ | .closeTransport _ r _ _ | .closeUpgrade _ r _ | .closeHandler _ r => r.duty

def Pc.duty : Pc → Duty
  | .sendPing => .ping
  | .armCloseTimer => .drain
  | .flush pc => pc.cont.duty
  | .teardown pc => pc.duty
  | _ => .none

/-- What a section can do; the indices are the duties of the goroutine before and after it. -/
inductive LifeStep (v : Life) : Duty → Life → Duty → Prop
  | quiet {d d' : Duty} (h : d = .none ∨ d' = d) : LifeStep v d v d'
  | opened (h : v.state = .opening) :
      LifeStep v .none { v with state := .open, pingTimer := some {} } .none
  | pushed (h : v.state = .opening ∨ v.state = .open) (p : Packet) :
      LifeStep v .none { v with writeBuffer := v.writeBuffer ++ [p] } .none
  | trimmed (d : Duty) (count : Nat) :
      LifeStep v d
        { v with
          writeBuffer := if count ≤ v.writeBuffer.length then v.writeBuffer.drop count else [] } d
  | pingFired (h : v.pingTimer = some {}) :
      LifeStep v .none { v with pingTimer := some { fired := true } } .ping
  | pinged (h : v.state = .open) (p : Packet) :
      LifeStep v .ping
        { v with writeBuffer := v.writeBuffer ++ [p], pongTimer := some {} } .none
  | pingLate (h : v.state ≠ .open) : LifeStep v .ping v .none
  | ponged (h : v.state = .open) :
      LifeStep v .none { v with pongTimer := none, pingTimer := some {} } .none
  | pongFired (h : v.pongTimer = some {}) :
      LifeStep v .none { v with pongTimer := some { fired := true } } .pong
  | closing (h : v.state = .opening ∨ v.state = .open) (p : Packet) :
      LifeStep v .none
        { v with
          state := .closing, writeBuffer := v.writeBuffer ++ [p], pingTimer := none, pongTimer := none,
          closeTimer := none } .drain
  | armed (h : v.state = .closing) (hc : v.closeTimer = none) :
      LifeStep v .drain { v with closeTimer := some {} } .none
  | unarmed (h : ¬ (v.state = .closing ∧ v.closeTimer = none)) : LifeStep v .drain v .none
  | closeFired (h : v.closeTimer = some {}) :
      LifeStep v .none { v with closeTimer := some { fired := true } } .fallback
  | teardown (d d' : Duty) :
      LifeStep v d ⟨.closed, none, [], none, none, none⟩ d'
  | tornDown (h : v.state = .closed) (d d' : Duty) : LifeStep v d v d'
  | swapped (h : v.state ≠ .closed) (t : Transport) :
      LifeStep v .none { v with transport := some t } .none

/-! ## What the steps keep -/

variable {v v' : Life} {d d' : Duty}

/-- A closed session has let go of everything in its `Life`. -/
def Life.Ends (v : Life) : Prop := v.state = .closed → v = ⟨.closed, none, [], none, none, none⟩

theorem LifeStep.ends (h : LifeStep v d v' d') (hI : v.Ends) : v'.Ends := by
  cases h with
  | quiet | pingLate | unarmed | tornDown => exact hI
  | teardown => exact fun _ => rfl
  | opened | closing => exact nofun
  | pushed hs =>
    intro hc
    rcases hs with hs | hs <;> cases hs.symm.trans hc
  | pinged hs | ponged hs | armed hs =>
    intro hc
    cases hs.symm.trans hc
  | swapped hs => exact fun hc => absurd hc hs
  | trimmed d count =>
    intro hc
    rw [hI hc]
    simp
  | pingFired hf | pongFired hf | closeFired hf =>
    -- no timer of a closed session is pending
    intro hc
    rw [hI hc] at hf
    cases hf

/-- `closed` is for ever. -/
theorem LifeStep.closed (h : LifeStep v d v' d') (hc : v.state = .closed) : v'.state = .closed := by
  cases h with
  | opened hs | pinged hs | ponged hs | armed hs => cases hs.symm.trans hc
  | closing hs => rcases hs with hs | hs <;> cases hs.symm.trans hc
  | teardown => rfl
  | _ => exact hc

/-- A section that changes nothing keeps a duty. -/
theorem Duty.kept {H : Prop} {O : Duty → Prop} (hnone : ¬ O .none) (hH : H) (hd : d = .none ∨ d' = d) :
    H ∧ ¬ O d ∨ O d' := by
  rcases hd with rfl | rfl
  · exact .inl ⟨hH, hnone⟩
  · by_cases hd' : O d'
    · exact .inr hd'
    · exact .inl ⟨hH, hd'⟩

/-- An open session without a pending heartbeat timer, and what a section can do about it: either it was
    like that and the goroutine had no part in it, or the goroutine now has. -/
theorem LifeStep.heartbeat (h : LifeStep v d v' d')
    (hH : v'.state = .open ∧ v'.pingTimer ≠ some {} ∧ v'.pongTimer ≠ some {}) :
    (v.state = .open ∧ v.pingTimer ≠ some {} ∧ v.pongTimer ≠ some {}) ∧ ¬ (d = .ping ∨ d = .pong) ∨
      (d' = .ping ∨ d' = .pong) := by
  obtain ⟨hs, hping, hpong⟩ := hH
  cases h with
  | quiet hd => exact Duty.kept (O := fun d => d = .ping ∨ d = .pong) (by decide) ⟨hs, hping, hpong⟩ hd
  | trimmed d => exact Duty.kept (O := fun d => d = .ping ∨ d = .pong) (by decide) ⟨hs, hping, hpong⟩ (.inr rfl)
  | opened | ponged => exact absurd rfl hping
  | pinged => exact absurd rfl hpong
  | pingLate hne => exact absurd hs hne
  | pingFired | pongFired => exact .inr (by decide)
  | closing | teardown => cases hs
  | tornDown hc => cases hc.symm.trans hs
  | pushed | armed | unarmed | closeFired | swapped => exact .inl ⟨⟨hs, hping, hpong⟩, by decide⟩

/-- An open session without a pong deadline whose ping timer is not pending, in the same form. -/
theorem LifeStep.ping (h : LifeStep v d v' d')
    (hH : v'.state = .open ∧ v'.pingTimer ≠ some {} ∧ v'.pongTimer = none) :
    (v.state = .open ∧ v.pingTimer ≠ some {} ∧ v.pongTimer = none) ∧ ¬ d = .ping ∨ d' = .ping := by
  obtain ⟨hs, hping, hpong⟩ := hH
  cases h with
  | quiet hd => exact Duty.kept (O := (· = .ping)) (by decide) ⟨hs, hping, hpong⟩ hd
  | trimmed d => exact Duty.kept (O := (· = .ping)) (by decide) ⟨hs, hping, hpong⟩ (.inr rfl)
  | opened | ponged => exact absurd rfl hping
  | pinged | pongFired => cases hpong
  | pingLate hne => exact absurd hs hne
  | pingFired => exact .inr rfl
  | closing | teardown => cases hs
  | tornDown hc => cases hc.symm.trans hs
  | pushed | armed | unarmed | closeFired | swapped => exact .inl ⟨⟨hs, hping, hpong⟩, by decide⟩

/-- A closing session without a fallback, in the same form. -/
theorem LifeStep.drain (h : LifeStep v d v' d') (hH : v'.state = .closing ∧ v'.closeTimer = none) :
    (v.state = .closing ∧ v.closeTimer = none) ∧ ¬ d = .drain ∨ d' = .drain := by
  cases h with
  | quiet hd => exact Duty.kept (O := (· = .drain)) (by decide) hH hd
  | trimmed d => exact Duty.kept (O := (· = .drain)) (by decide) hH (.inr rfl)
  | opened | teardown => cases hH.1
  | closing => exact .inr rfl
  | armed | closeFired => cases hH.2
  | unarmed hne => exact absurd hH hne
  | tornDown hc => cases hc.symm.trans hH.1
  | pushed | pingFired | pinged | pingLate | ponged | pongFired | swapped => exact .inl ⟨hH, by decide⟩

/-- A closing session whose fallback has been started, in the same form. -/
theorem LifeStep.fallback (h : LifeStep v d v' d')
    (hH : v'.state = .closing ∧ v'.closeTimer = some { fired := true }) :
    (v.state = .closing ∧ v.closeTimer = some { fired := true }) ∧ ¬ d = .fallback ∨
      d' = .fallback := by
  cases h with
  | quiet hd => exact Duty.kept (O := (· = .fallback)) (by decide) hH hd
  | trimmed d => exact Duty.kept (O := (· = .fallback)) (by decide) hH (.inr rfl)
  | opened | teardown => cases hH.1
  | closing | armed => cases hH.2
  | closeFired => exact .inr rfl
  | tornDown hc => cases hc.symm.trans hH.1
  | pushed | pingFired | pinged | pingLate | ponged | pongFired | unarmed | swapped =>
    exact .inl ⟨hH, by decide⟩

/-! ## The session refines its life -/

theorem World.Releases.life {w w' : World} (h : w.Releases w') : w'.life = w.life := by
  obtain ⟨polling, closed, inbox, stopped, rfl⟩ := h
  rfl

variable {w w' : World} {a : Choice} {pc' : Pc}

/-- A section that leaves these fields alone and changes no duty, or takes one up. -/
theorem LifeStep.unchanged (hw : w'.life = w.life) (hd : d = .none ∨ d' = d) :
    LifeStep w.life d w'.life d' := by
  rw [hw]
  exact .quiet hd

@[simp] theorem Cont.resume_duty (k : Cont) : k.resume.duty = k.duty := by cases k <;> rfl

@[simp] theorem Return.resume_duty (r : Return) : r.resume.duty = r.duty := by cases r <;> rfl

theorem startCall_life {c : Call} (h : startCall w c = some (w', pc')) :
    LifeStep w.life .none w'.life pc'.duty := by
  revert h
  fun_cases startCall w c <;> intro h <;> cases h
  case case13 ht => exact .pingFired ht
  case case15 ht => exact .pongFired ht
  case case17 ht => exact .closeFired ht
  all_goals exact .quiet (.inl rfl)

theorem execFlush_life {pc : FlushPc} (h : execFlush w pc a = some (w', pc')) :
    LifeStep w.life pc.cont.duty w'.life pc'.duty := by
  revert h
  fun_cases execFlush w pc a <;> intro h <;> cases h
  case case11 k packets _ =>
    have hduty : (if (w.sock.endFlush packets.length).writeBuffer = [] ∧
        (w.sock.endFlush packets.length).state = .closing then
          Pc.teardown (.beginTeardown .forcedClose (.flush k))
        else if (w.sock.endFlush packets.length).writeBuffer = [] ∨
            (w.sock.endFlush packets.length).state = .closed then Pc.flush (.unlock k)
        else Pc.flush (.beginFlush k)).duty = k.duty := by
      split
      · rfl
      · split <;> rfl
    rw [hduty]
    exact .trimmed k.duty packets.length
  case case12 k =>
    rw [Cont.resume_duty]
    exact .quiet (.inr rfl)
  all_goals exact .quiet (.inr rfl)

theorem execTeardown_life {pc : TeardownPc} (h : execTeardown w pc a = some (w', pc')) :
    LifeStep w.life pc.duty w'.life pc'.duty := by
  revert h
  fun_cases execTeardown w pc a <;> intro h <;> cases h
  · rename_i hs
    refine .tornDown ?_ _ _
    by_contra hlive
    simp [ServerSocket.beginTeardown, show w.sock.state ≠ .closed from hlive] at hs
  · rename_i hs
    obtain ⟨-, rfl, -, -, -⟩ := ServerSocket.beginTeardown_eq_some.1 hs
    exact .teardown _ _
  · exact .unchanged (w.closeStop?_releases _).life (.inr rfl)
  · exact .unchanged (w.closeTransport?_releases _).life (.inr rfl)
  · exact .unchanged (w.closeTransport?_releases _).life (.inr rfl)
  · rw [Return.resume_duty]
    exact .quiet (.inr rfl)

theorem execPoll_life {pc : PollPc} (h : execPoll w pc a = some (w', pc')) :
    LifeStep w.life .none w'.life pc'.duty := by
  revert h
  fun_cases execPoll w pc a <;> intro h <;> cases h <;> exact .quiet (.inl rfl)

theorem execUpgrade_life {pc : UpgradePc} (h : execUpgrade w pc a = some (w', pc'))
    (hopen : w.sock.upgrading = true → w.sock.state ≠ .closed) :
    LifeStep w.life .none w'.life pc'.duty := by
  revert h
  fun_cases execUpgrade w pc a <;> intro h <;> cases h
  case case2 hs =>
    obtain ⟨-, rfl⟩ := ServerSocket.startUpgrade_eq_some.1 hs
    exact .quiet (.inl rfl)
  case case3 => exact .unchanged (w.closeTransport_releases _).life (.inl rfl)
  case case5 hs =>
    obtain ⟨-, rfl⟩ := ServerSocket.onProbe_eq_some.1 hs
    exact .quiet (.inl rfl)
  case case9 => exact .unchanged (w.deliver_releases _ _ _).life (.inl rfl)
  case case11 hs =>
    obtain ⟨⟨hu, -⟩, rfl, -, -⟩ := ServerSocket.beginCompleteUpgrade_eq_some.1 hs
    exact .swapped (hopen hu) _
  case case12 => exact .unchanged (w.closeStop?_releases _).life (.inl rfl)
  case case13 => exact .unchanged (w.closeTransport?_releases _).life (.inl rfl)
  case case15 hs =>
    obtain ⟨-, rfl, -⟩ := ServerSocket.beginAbortUpgrade_eq_some.1 hs
    exact .quiet (.inl rfl)
  case case16 => exact .unchanged (w.closeStop?_releases _).life (.inl rfl)
  case case17 => exact .unchanged (w.closeTransport_releases _).life (.inl rfl)
  all_goals exact .quiet (.inl rfl)

theorem exec_life {pc : Pc} (h : exec w pc a = some (w', pc'))
    (hopen : w.sock.upgrading = true → w.sock.state ≠ .closed) :
    LifeStep w.life pc.duty w'.life pc'.duty := by
  revert h
  fun_cases exec w pc a <;> intro h
  · exact startCall_life h
  · cases h
    rcases w.sock.open_cases with ⟨hs, hopened⟩ | hsame
    · rw [hopened]
      exact .opened hs
    · rw [hsame]
      exact .quiet (.inl rfl)
  · cases h
    exact .quiet (.inl rfl)
  · cases h
    rename_i hs
    obtain ⟨hlive, rfl⟩ := ServerSocket.send_eq_some.1 hs
    exact .pushed hlive _
  · cases h
    exact .quiet (.inl rfl)
  · cases h
    rename_i hs
    obtain ⟨hlive, rfl⟩ := ServerSocket.beginClose_eq_some.1 hs
    exact .closing hlive _
  · cases h
    by_cases hs : w.sock.state = .closing ∧ w.sock.closeTimer = none
    · rw [show w.sock.armCloseTimer = { w.sock with closeTimer := some {} } from if_pos hs]
      exact .armed hs.1 hs.2
    · rw [show w.sock.armCloseTimer = w.sock from if_neg hs]
      exact .unarmed hs
  · cases h
    by_cases hs : w.sock.state = .open
    · rw [show w.sock.onPong = { w.sock with pongTimer := none, pingTimer := some {} } from
        if_neg (not_not_intro hs)]
      exact .ponged hs
    · rw [show w.sock.onPong = w.sock from if_pos hs]
      exact .quiet (.inl rfl)
  · cases h
    rename_i hs
    refine .pingLate fun (hping : w.sock.state = .open) => ?_
    rw [ServerSocket.sendPing, if_neg (not_not_intro hping)] at hs
    cases hs
  · cases h
    rename_i hs
    obtain ⟨hlive, rfl⟩ := ServerSocket.sendPing_eq_some.1 hs
    exact .pinged hlive _
  · exact execFlush_life h
  · exact execTeardown_life h
  · exact execPoll_life h
  · exact execUpgrade_life h hopen
  · cases h

/-! ## Main results -/

theorem step_life {c : Pool World Pc} (hc : program.Reachable c) {i : Nat}
    (h : exec c.shared (c.thread i) a = some (w', pc')) :
    LifeStep c.shared.life (c.thread i).duty w'.life pc'.duty := by
  refine exec_life h fun hu hclosed => ?_
  rcases ((reach_handover hc).polling hu).2 with hs | hs
  · cases hs.symm.trans hclosed
  · cases hs.symm.trans hclosed

theorem reach_ends {c : Pool World Pc} (hc : program.Reachable c) : c.shared.life.Ends := by
  refine (hc.invariant (I := fun w => w.life.Ends) (J := fun _ _ => True) ?_ ?_).1
  · rintro w ⟨type, rfl⟩
    exact ⟨nofun, trivial⟩
  · intro c i a w' pc' hc _ hI _ hx
    exact ⟨(step_life hc hx).ends hI, trivial, fun _ _ => trivial⟩

/-- An open session has a pending heartbeat timer, or some goroutine runs the function of one. -/
theorem heartbeat_outstanding {c : Pool World Pc} (hc : program.Reachable c)
    (hs : c.shared.sock.state = .open) :
    c.shared.sock.pingTimer = some {} ∨ c.shared.sock.pongTimer = some {} ∨
      ∃ i, (c.thread i).duty = .ping ∨ (c.thread i).duty = .pong := by
  by_cases hping : c.shared.sock.pingTimer = some {}
  · exact .inl hping
  by_cases hpong : c.shared.sock.pongTimer = some {}
  · exact .inr (.inl hpong)
  refine .inr (.inr (hc.owner (O := fun pc => pc.duty = .ping ∨ pc.duty = .pong)
    (H := fun w => w.life.state = .open ∧ w.life.pingTimer ≠ some {} ∧ w.life.pongTimer ≠ some {})
    ?_ ?_ ⟨hs, hping, hpong⟩))
  · rintro w ⟨type, rfl⟩ ⟨h, -⟩
    cases h
  · exact fun c i a w' pc' hc _ hx hH => (step_life hc hx).heartbeat hH

/-- An open session that waits for no pong has its ping timer pending, or some goroutine about to send the ping. -/
theorem ping_outstanding {c : Pool World Pc} (hc : program.Reachable c) (hs : c.shared.sock.state = .open)
    (hpong : c.shared.sock.pongTimer = none) :
    c.shared.sock.pingTimer = some {} ∨ ∃ i, (c.thread i).duty = .ping := by
  by_cases hping : c.shared.sock.pingTimer = some {}
  · exact .inl hping
  refine .inr (hc.owner (O := fun pc => pc.duty = .ping)
    (H := fun w => w.life.state = .open ∧ w.life.pingTimer ≠ some {} ∧ w.life.pongTimer = none) ?_ ?_
    ⟨hs, hping, hpong⟩)
  · rintro w ⟨type, rfl⟩ ⟨h, -⟩
    cases h
  · exact fun c i a w' pc' hc _ hx hH => (step_life hc hx).ping hH

/-- A closing session without a fallback has a `Close` that has yet to arm it. -/
theorem drain_outstanding {c : Pool World Pc} (hc : program.Reachable c) (hs : c.shared.sock.state = .closing)
    (htimer : c.shared.sock.closeTimer = none) : ∃ i, (c.thread i).duty = .drain :=
  hc.owner (H := fun w => w.life.state = .closing ∧ w.life.closeTimer = none) (O := fun pc => pc.duty = .drain)
    (by rintro w ⟨type, rfl⟩ ⟨h, -⟩; cases h)
    (fun c i a w' pc' hc _ hx hH => (step_life hc hx).drain hH) ⟨hs, htimer⟩

/-- A closing session has a pending fallback, or some goroutine runs its function, or `Close` has yet to
    arm it. -/
theorem fallback_outstanding {c : Pool World Pc} (hc : program.Reachable c)
    (hs : c.shared.sock.state = .closing) :
    c.shared.sock.closeTimer = some {} ∨ (∃ i, (c.thread i).duty = .fallback) ∨
      ∃ i, (c.thread i).duty = .drain := by
  have hfired := hc.owner (H := fun w => w.life.state = .closing ∧
      w.life.closeTimer = some { fired := true }) (O := fun pc => pc.duty = .fallback)
    (by rintro w ⟨type, rfl⟩ ⟨h, -⟩; cases h)
    fun c i a w' pc' hc _ hx hH => (step_life hc hx).fallback hH
  cases ht : c.shared.sock.closeTimer with
  | none => exact .inr (.inr (drain_outstanding hc hs ht))
  | some timer =>
    obtain ⟨fired⟩ := timer
    cases fired with
    | false => exact .inl rfl
    | true => exact .inr (.inl (hfired ⟨hs, ht⟩))

theorem Cont.duty_cases (k : Cont) : k.duty = .none ∨ k.duty = .drain := by
  cases k with
  | close => exact .inr rfl
  | done | poll => exact .inl rfl

theorem Return.duty_cases (r : Return) : r.duty = .none ∨ r.duty = .drain := by
  cases r with
  | done => exact .inl rfl
  | flush k => exact k.duty_cases

/-- The goroutines that run the function of a timer. -/
theorem Pc.duty_cases (pc : Pc) :
    (pc.duty = .none ∨ pc.duty = .drain) ∨ pc = .sendPing ∨
      pc = .teardown (.beginTeardown .pingTimeout .done) ∨
      pc = .teardown (.beginTeardown .forcedClose .done) := by
  cases pc with
  | sendPing => exact .inr (.inl rfl)
  | armCloseTimer => exact .inl (.inr rfl)
  | flush pc => exact .inl pc.cont.duty_cases
  | teardown pc =>
    cases pc with
    | beginTeardown reason r =>
      cases r with
      | flush k => exact .inl k.duty_cases
      | done =>
        cases reason with
        | pingTimeout => exact .inr (.inr (.inl rfl))
        | forcedClose => exact .inr (.inr (.inr rfl))
        | _ => exact .inl (.inl rfl)
    | closeStop _ r | closeTransport _ r | closeUpgrade _ r | closeHandler _ r =>
      exact .inl r.duty_cases
  | _ => exact .inl (.inl rfl)

/-- **No session gets stuck.** In every reachable pool, an open session has a ping or a pong deadline
    pending or its function about to run; and a closing session has the fallback pending or its function
    about to run, or the `Close` that entered closing has yet to reach its last section. -/
theorem timers_outstanding (c : Pool World Pc) (hc : program.Reachable c) :
    (c.shared.sock.state = .open →
      c.shared.sock.pingTimer = some {} ∨ c.shared.sock.pongTimer = some {} ∨
      ∃ i, c.thread i = .sendPing ∨ c.thread i = .teardown (.beginTeardown .pingTimeout .done)) ∧
    (c.shared.sock.state = .closing →
      c.shared.sock.closeTimer = some {} ∨
      (∃ i, c.thread i = .teardown (.beginTeardown .forcedClose .done)) ∨
      ∃ i, (c.thread i).duty = .drain) := by
  constructor
  · intro hs
    refine (heartbeat_outstanding hc hs).imp_right (Or.imp_right ?_)
    rintro ⟨i, hi⟩
    refine ⟨i, ?_⟩
    rcases (c.thread i).duty_cases with (hd | hd) | hpc | hpc | hpc
    · rw [hd] at hi
      rcases hi with hi | hi <;> cases hi
    · rw [hd] at hi
      rcases hi with hi | hi <;> cases hi
    · exact .inl hpc
    · exact .inr hpc
    · rw [hpc] at hi
      rcases hi with hi | hi <;> cases hi
  · intro hs
    refine (fallback_outstanding hc hs).imp_right (Or.imp_left ?_)
    rintro ⟨i, hi⟩
    refine ⟨i, ?_⟩
    rcases (c.thread i).duty_cases with (hd | hd) | hpc | hpc | hpc
    · cases hd.symm.trans hi
    · cases hd.symm.trans hi
    · rw [hpc] at hi
      cases hi
    · rw [hpc] at hi
      cases hi
    · exact hpc

/-- A polling session that is closed while no poll is held: `Close` arms the fallback. -/
theorem timers_outstanding_run :
    ∃ c, program.Reachable c ∧ c.shared.sock.state = .closing ∧
      (c.shared.sock.closeTimer = some {} ∨
        (∃ i, c.thread i = .teardown (.beginTeardown .forcedClose .done)) ∨
        ∃ i, (c.thread i).duty = .drain) := by
  have hrun : ∃ c, program.run freshPolling
      [(0, .call .open), (0, .go), (0, .call .close), (0, .go), (0, .go), (0, .go), (0, .go), (0, .go),
        (0, .go)] = some c ∧ c.shared.sock.state = .closing :=
    ⟨_, rfl, rfl⟩
  obtain ⟨c, hrun, hstate⟩ := hrun
  have hc := freshPolling_reachable.run hrun
  exact ⟨c, hc, hstate, (timers_outstanding c hc).2 hstate⟩

end EngineIo.Server
