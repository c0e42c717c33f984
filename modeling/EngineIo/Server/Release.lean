import EngineIo.Concurrency.Counter
import EngineIo.Server.Heartbeat

set_option autoImplicit false

/-! # What a session holds, and who lets go of it

The teardown, `completeUpgrade` and `abortUpgrade` take the stop channel and the transports out of the
session under its lock and close them after unlocking. `Estate` keeps what the session holds and what has
been closed, `Debt` what a goroutine has taken out and not closed yet, and `EstateStep` says how a section
moves things between them. Nothing is lost or doubled on the way. -/

namespace EngineIo.Server

open Concurrency

/-- Whether a transport has been closed. -/
def World.shut (w : World) (t : Transport) : Bool :=
  if t.type = .polling then w.polling.closed else t ∈ w.closed

structure Estate where
  state : SessionState
  transport : Option Transport
  upgradeTransport : Option Transport
  upgrading : Bool
  stop : Option Nat
  /-- How many stop channels have been made, and which of them are closed. -/
  stops : Nat
  stopped : List Nat
  /-- How often the close handler has run. -/
  reports : Nat
  shut : Transport → Bool

def World.estate (w : World) : Estate where
  state := w.sock.state
  transport := w.sock.transport
  upgradeTransport := w.sock.upgradeTransport
  upgrading := w.sock.upgrading
  stop := w.sock.probeNoopStop
  stops := w.stops
  stopped := w.stopped
  reports := w.closeReasons.length
  shut := w.shut

structure Debt where
  stop : Option Nat := none
  transports : List Transport := []
  /-- Calls of the close handler to come. -/
  reports : Nat := 0
deriving DecidableEq, Repr

def TeardownPc.debt : TeardownPc → Debt
  | .beginTeardown _ _ => {}
  | .closeStop _ _ old probe stop =>
    { stop, transports := old.toList ++ probe.toList, reports := 1 }
  | .closeTransport _ _ old probe => { transports := old.toList ++ probe.toList, reports := 1 }
  | .closeUpgrade _ _ probe => { transports := probe.toList, reports := 1 }
  | .closeHandler _ _ => { reports := 1 }

def UpgradePc.debt : UpgradePc → Debt
  | .refused t => { transports := [t] }
  | .completeStop old stop => { stop, transports := old.toList }
  | .completeClose old => { transports := old.toList }
  | .abortStop t stop => { stop, transports := [t] }
  | .abortClose t => { transports := [t] }
  | _ => {}

def Pc.debt : Pc → Debt
  | .teardown pc => pc.debt
  | .upgrade pc => pc.debt
  | _ => {}

/-- What a section can do; the indices are the debts of the goroutine before and after it. -/
inductive EstateStep (v : Estate) : Debt → Estate → Debt → Prop
  | quiet (d : Debt) : EstateStep v d v d
  | live (s : SessionState) (h : v.state ≠ .closed) (hs : s ≠ .closed) :
      EstateStep v {} { v with state := s } {}
  | teardown (h : v.state ≠ .closed) :
      EstateStep v {}
        { v with
          state := .closed, transport := none, upgradeTransport := none, upgrading := false,
          stop := none }
        { stop := v.stop, transports := v.transport.toList ++ v.upgradeTransport.toList, reports := 1 }
  | refuse (t : Transport) : EstateStep v {} v { transports := [t] }
  | start (t : Transport) (h : v.upgrading = false) :
      EstateStep v {} { v with upgradeTransport := some t, upgrading := true } {}
  | probed (h : v.stop = none) :
      EstateStep v {} { v with stop := some v.stops, stops := v.stops + 1 } {}
  | complete (t : Transport) (h : v.upgradeTransport = some t) :
      EstateStep v {}
        { v with transport := some t, upgradeTransport := none, upgrading := false, stop := none }
        { stop := v.stop, transports := v.transport.toList }
  | abort (t : Transport) (h : v.upgradeTransport = some t) :
      EstateStep v {} { v with upgradeTransport := none, upgrading := false, stop := none }
        { stop := v.stop, transports := [t] }
  | closeStop (d : Debt) :
      EstateStep v d { v with stopped := d.stop.toList ++ v.stopped } { d with stop := none }
  | closeTransport (t : Transport) (ts : List Transport) (reports : Nat) (shut : Transport → Bool)
      (hmono : ∀ t', v.shut t' = true → shut t' = true) (ht : shut t = true) :
      EstateStep v { transports := t :: ts, reports } { v with shut } { transports := ts, reports }
  | report : EstateStep v { reports := 1 } { v with reports := v.reports + 1 } {}

/-! ## Nothing is doubled -/

variable {v v' : Estate} {d d' : Debt}

/-- The stop channel `n` is in one place at most, and in none before it is made. -/
theorem EstateStep.stop_balance (h : EstateStep v d v' d') (n : Nat) :
    (if d'.stop = some n then 1 else 0) + (v'.stopped.count n + if v'.stop = some n then 1 else 0) +
        (if n < v.stops then 1 else 0) ≤
      (if d.stop = some n then 1 else 0) + (v.stopped.count n + if v.stop = some n then 1 else 0) +
        (if n < v'.stops then 1 else 0) := by
  cases h with
  | probed hnone =>
    have hstops : (if n < v.stops + 1 then 1 else 0) =
        (if n < v.stops then 1 else 0) + if v.stops = n then 1 else 0 := by
      split_ifs <;> omega
    simp only [hnone, hstops, Option.some.injEq, reduceCtorEq, if_false]
    omega
  | closeStop =>
    cases hd : d.stop with
    | none => simp
    | some m =>
      simp only [Option.toList_some, List.singleton_append, List.count_cons, beq_iff_eq, reduceCtorEq,
        if_false, Option.some.injEq]
      omega
  | teardown | complete | abort => simp; omega
  | _ => simp

/-- The close handler runs for the one teardown that claims the session. -/
theorem EstateStep.report_balance (h : EstateStep v d v' d') :
    d'.reports + v'.reports + (if v.state = .closed then 1 else 0) ≤
      d.reports + v.reports + if v'.state = .closed then 1 else 0 := by
  cases h with
  | live s hl hs => simp [hl]
  | teardown hl => simp [hl]; omega
  | report =>
    dsimp only
    omega
  | _ => simp

/-! ## Nothing is lost -/

/-- A stop channel that is neither in the session nor closed: either it was so before and is not the
    goroutine's to close, or the goroutine now has it. -/
theorem EstateStep.stop_owed (h : EstateStep v d v' d') {n : Nat}
    (hH : n < v'.stops ∧ n ∉ v'.stopped ∧ v'.stop ≠ some n) :
    (n < v.stops ∧ n ∉ v.stopped ∧ v.stop ≠ some n) ∧ ¬ d.stop = some n ∨ d'.stop = some n := by
  obtain ⟨hmade, hopen, hheld⟩ := hH
  cases h with
  | quiet => exact Program.owner_same ⟨hmade, hopen, hheld⟩
  | teardown | complete | abort =>
    by_cases hn : v.stop = some n
    · exact .inr hn
    · exact .inl ⟨⟨hmade, hopen, hn⟩, nofun⟩
  | probed hnone =>
    have hne : n ≠ v.stops := fun h => hheld (by rw [h])
    exact .inl ⟨⟨by show n < v.stops; have := hmade; simp at this; omega, hopen, by simp [hnone]⟩, nofun⟩
  | closeStop =>
    simp only [List.mem_append, Option.mem_toList, not_or] at hopen
    exact .inl ⟨⟨hmade, hopen.2, hheld⟩, hopen.1⟩
  | live | refuse | start | closeTransport | report => exact .inl ⟨⟨hmade, hopen, hheld⟩, nofun⟩

/-- The transport is in the session. -/
def Estate.Holds (v : Estate) (t : Transport) : Prop :=
  v.transport = some t ∨ v.upgradeTransport = some t

/-- A transport that the session holds or that is closed stays so, or the goroutine takes it out. -/
theorem EstateStep.holds (h : EstateStep v d v' d')
    (hidle : v.upgrading = false → v.upgradeTransport = none) {t : Transport}
    (ht : v.Holds t ∨ v.shut t = true) :
    (v'.Holds t ∨ v'.shut t = true) ∨ t ∈ d'.transports := by
  cases h with
  | teardown =>
    rcases ht with (ht | ht) | ht
    · exact .inr (by simp [ht])
    · exact .inr (by simp [ht])
    · exact .inl (.inr ht)
  | start t' hu =>
    rcases ht with (ht | ht) | ht
    · exact .inl (.inl (.inl ht))
    · cases (hidle hu).symm.trans ht
    · exact .inl (.inr ht)
  | complete t' ht' =>
    rcases ht with (ht | ht) | ht
    · exact .inr (by simp [ht])
    · exact .inl (.inl (.inl (ht'.symm.trans ht)))
    · exact .inl (.inr ht)
  | abort t' ht' =>
    rcases ht with (ht | ht) | ht
    · exact .inl (.inl (.inl ht))
    · obtain rfl : t' = t := Option.some.inj (ht'.symm.trans ht)
      exact .inr (by simp)
    · exact .inl (.inr ht)
  | closeTransport t' ts reports shut hmono =>
    exact .inl (ht.imp_right (hmono t))
  | _ => exact .inl ht

/-- A transport that a goroutine has taken out is still its to close, or is closed. -/
theorem EstateStep.owed (h : EstateStep v d v' d') {t : Transport} (ht : t ∈ d.transports) :
    t ∈ d'.transports ∨ v'.shut t = true := by
  cases h with
  | quiet | closeStop => exact .inl ht
  | closeTransport t' ts reports shut hmono hclosed =>
    rcases List.mem_cons.1 ht with rfl | ht
    · exact .inr hclosed
    · exact .inl ht
  | _ => exact absurd ht List.not_mem_nil

/-! ## The session refines its estate -/

variable {w w' : World} {a : Choice} {pc' : Pc}

theorem PollingTransport.send_closed (t : PollingTransport) : t.send.1.closed = t.closed := by
  unfold send
  split <;> rfl

theorem PollingTransport.hold_closed (ch : Nat) (t : PollingTransport) :
    (t.hold ch).1.closed = t.closed := by
  unfold hold
  split
  · rfl
  · split <;> rfl

theorem PollingTransport.release_closed (ch : Nat) (t : PollingTransport) :
    (t.release ch).1.closed = t.closed := by
  unfold release
  split <;> rfl

theorem PollingTransport.close_closed (t : PollingTransport) : t.close.1.closed = true := by
  unfold close
  split
  · assumption
  · rfl

@[simp] theorem World.deliver_estate (w : World) (packets : List Packet) (ch : Option Nat) :
    (w.deliver packets ch).estate = w.estate := by
  cases ch <;> rfl

/-- The slot of the long-polling transport is no part of the estate. -/
theorem World.estate_polling (w : World) {polling : PollingTransport}
    (h : polling.closed = w.polling.closed) : { w with polling }.estate = w.estate := by
  have hshut : { w with polling }.shut = w.shut := by
    funext t
    simp [World.shut, h]
  simp only [World.estate, hshut]

theorem World.closeStop?_estate (w : World) (stop : Option Nat) :
    (w.closeStop? stop).estate = { w.estate with stopped := stop.toList ++ w.estate.stopped } := by
  cases stop <;> rfl

/-- Closing the long-polling transport, or any other. -/
theorem World.closeTransport_shut (w : World) (t t' : Transport) :
    (w.closeTransport t).shut t' =
      if t.type = .polling then decide (t'.type = .polling) || w.shut t'
      else decide (t' = t) || w.shut t' := by
  unfold World.closeTransport
  by_cases ht : t.type = .polling
  · rw [if_pos ht, if_pos ht]
    by_cases ht' : t'.type = .polling
    · cases w.polling.close.2 <;> simp [World.deliver, World.shut, ht', PollingTransport.close_closed]
    · cases w.polling.close.2 <;> simp [World.deliver, World.shut, ht'] <;> rfl
  · rw [if_neg ht, if_neg ht]
    by_cases ht' : t'.type = .polling
    · have hne : t' ≠ t := fun h => ht (h ▸ ht')
      simp [World.shut, ht', hne]
    · simp [World.shut, ht']

/-- Closing a transport closes it, and opens none. -/
theorem World.closeTransport_estate (w : World) (t : Transport) :
    ∃ shut, (w.closeTransport t).estate = { w.estate with shut } ∧
      (∀ t', w.estate.shut t' = true → shut t' = true) ∧ shut t = true := by
  refine ⟨(w.closeTransport t).shut, ?_, fun t' ht' => ?_, ?_⟩
  · obtain ⟨polling, closed, inbox, stopped, heq⟩ := w.closeTransport_releases t
    have hstopped : (w.closeTransport t).stopped = w.stopped := by
      unfold World.closeTransport
      cases w.polling.close.2 <;> split <;> rfl
    rw [heq] at hstopped ⊢
    simp only [World.estate] at hstopped ⊢
    rw [hstopped]
  · rw [World.closeTransport_shut, show w.shut t' = true from ht']
    split <;> simp
  · rw [World.closeTransport_shut]
    split <;> simp_all

theorem EstateStep.unchanged (h : w'.estate = w.estate) :
    EstateStep w.estate d w'.estate d := by
  rw [h]
  exact .quiet d

theorem EstateStep.closes (t : Transport) (ts : List Transport) (reports : Nat) :
    EstateStep w.estate { transports := t :: ts, reports } (w.closeTransport t).estate
      { transports := ts, reports } := by
  obtain ⟨shut, heq, hmono, ht⟩ := w.closeTransport_estate t
  rw [heq]
  exact .closeTransport t ts reports shut hmono ht

theorem EstateStep.closes? (t : Option Transport) (ts : List Transport) (reports : Nat) :
    EstateStep w.estate { transports := t.toList ++ ts, reports } (w.closeTransport? t).estate
      { transports := ts, reports } := by
  cases t with
  | none => exact .quiet _
  | some t => exact .closes t ts reports

theorem EstateStep.stops? (stop : Option Nat) (ts : List Transport) (reports : Nat) :
    EstateStep w.estate { stop, transports := ts, reports } (w.closeStop? stop).estate
      { transports := ts, reports } := by
  rw [World.closeStop?_estate]
  exact .closeStop { stop, transports := ts, reports }

@[simp] theorem Cont.resume_debt (k : Cont) : k.resume.debt = {} := by cases k <;> rfl

@[simp] theorem Return.resume_debt (r : Return) : r.resume.debt = {} := by cases r <;> rfl

theorem startCall_estate {c : Call} (h : startCall w c = some (w', pc')) :
    EstateStep w.estate {} w'.estate pc'.debt := by
  revert h
  fun_cases startCall w c <;> intro h <;> cases h <;> exact .quiet _

theorem execFlush_estate {pc : FlushPc} (h : execFlush w pc a = some (w', pc')) :
    EstateStep w.estate {} w'.estate pc'.debt := by
  revert h
  fun_cases execFlush w pc a <;> intro h <;> cases h
  case case5 hsend =>
    refine .unchanged (w.estate_polling ?_)
    rw [← w.polling.send_closed, hsend]
  case case6 hsend =>
    refine .unchanged ((World.deliver_estate _ _ _).trans (World.estate_polling _ ?_))
    rw [← w.polling.send_closed, hsend]
  case case11 =>
    split
    · exact .quiet _
    · split <;> exact .quiet _
  case case12 k =>
    rw [Cont.resume_debt]
    exact .quiet _
  all_goals exact .quiet _

theorem execTeardown_estate {pc : TeardownPc} (h : execTeardown w pc a = some (w', pc')) :
    EstateStep w.estate pc.debt w'.estate pc'.debt := by
  revert h
  fun_cases execTeardown w pc a <;> intro h <;> cases h
  · rw [Return.resume_debt]
    exact .quiet _
  · rename_i hs
    obtain ⟨hlive, rfl, rfl, rfl, rfl⟩ := ServerSocket.beginTeardown_eq_some.1 hs
    exact .teardown hlive
  · exact .stops? _ _ 1
  · exact .closes? _ _ 1
  · rename_i probe
    have hprobe := EstateStep.closes? (w := w) probe [] 1
    rwa [List.append_nil] at hprobe
  · rename_i reason r
    have heq : { w with closeReasons := w.closeReasons ++ [reason] }.estate =
        { w.estate with reports := w.estate.reports + 1 } := by
      unfold World.estate
      rw [List.length_append]
      rfl
    rw [Return.resume_debt, heq]
    exact .report

theorem execPoll_estate {pc : PollPc} (h : execPoll w pc a = some (w', pc')) :
    EstateStep w.estate {} w'.estate pc'.debt := by
  revert h
  fun_cases execPoll w pc a <;> intro h <;> cases h
  case case4 => split <;> exact .quiet _
  case case6 ch => exact .unchanged (w.estate_polling (w.polling.release_closed ch))
  all_goals
    rename_i hhold
    refine .unchanged (w.estate_polling ?_)
    rw [← w.polling.hold_closed, hhold]

theorem execUpgrade_estate {pc : UpgradePc} (h : execUpgrade w pc a = some (w', pc')) :
    EstateStep w.estate pc.debt w'.estate pc'.debt := by
  revert h
  fun_cases execUpgrade w pc a <;> intro h <;> cases h
  · exact .refuse _
  · rename_i hs
    obtain ⟨⟨-, hidle, -⟩, rfl⟩ := ServerSocket.startUpgrade_eq_some.1 hs
    exact .start _ hidle
  · exact .closes _ [] 0
  · exact .quiet _
  · rename_i hs
    obtain ⟨⟨-, hnone⟩, rfl⟩ := ServerSocket.onProbe_eq_some.1 hs
    exact .probed hnone
  · split <;> exact .quiet _
  · exact .quiet _
  · exact .unchanged ((World.deliver_estate _ _ _).trans (World.estate_polling _ rfl))
  · exact .quiet _
  · rename_i hs
    obtain ⟨⟨-, ht⟩, rfl, rfl, rfl⟩ := ServerSocket.beginCompleteUpgrade_eq_some.1 hs
    exact .complete _ ht
  · exact .stops? _ _ 0
  · rename_i old
    have hold := EstateStep.closes? (w := w) old [] 0
    rwa [List.append_nil] at hold
  · exact .quiet _
  · rename_i hs
    obtain ⟨⟨-, ht⟩, rfl, rfl⟩ := ServerSocket.beginAbortUpgrade_eq_some.1 hs
    exact .abort _ ht
  · exact .stops? _ _ 0
  · exact .closes _ [] 0

theorem exec_estate {pc : Pc} (h : exec w pc a = some (w', pc')) :
    EstateStep w.estate pc.debt w'.estate pc'.debt := by
  revert h
  fun_cases exec w pc a <;> intro h
  · exact startCall_estate h
  · cases h
    rcases w.sock.open_cases with ⟨hs, hopened⟩ | hsame
    · rw [hopened]
      exact .live .open (show w.sock.state ≠ .closed by simp [hs]) (by simp)
    · rw [hsame]
      exact .quiet _
  · cases h
    exact .quiet _
  · cases h
    rename_i hs
    obtain ⟨-, rfl⟩ := ServerSocket.send_eq_some.1 hs
    exact .quiet _
  · cases h
    exact .quiet _
  · cases h
    rename_i hs
    obtain ⟨hlive, rfl⟩ := ServerSocket.beginClose_eq_some.1 hs
    exact .live .closing (show w.sock.state ≠ .closed by rcases hlive with h | h <;> simp [h])
      (by simp)
  · cases h
    refine .unchanged ?_
    unfold ServerSocket.armCloseTimer
    split <;> rfl
  · cases h
    refine .unchanged ?_
    unfold ServerSocket.onPong
    split <;> rfl
  · cases h
    exact .quiet _
  · cases h
    rename_i hs
    obtain ⟨-, rfl⟩ := ServerSocket.sendPing_eq_some.1 hs
    exact .quiet _
  · exact execFlush_estate h
  · exact execTeardown_estate h
  · exact execPoll_estate h
  · exact execUpgrade_estate h
  · cases h

/-! ## Main result -/

/-- Every stop channel is closed once at most. -/
theorem stopped_nodup {c : Pool World Pc} (hc : program.Reachable c) : c.shared.stopped.Nodup := by
  rw [List.nodup_iff_count_le_one]
  intro n
  have hunits := hc.counter
    (A := fun w => w.estate.stopped.count n + if w.estate.stop = some n then 1 else 0)
    (N := fun w => if n < w.estate.stops then 1 else 0)
    (W := fun pc => if pc.debt.stop = some n then 1 else 0) rfl
    (by rintro w ⟨type, rfl⟩; simp [World.estate])
    (fun w pc a w' pc' _ hx => (exec_estate hx).stop_balance n) ∅
  have hcount : c.shared.stopped.count n ≤ if n < c.shared.estate.stops then 1 else 0 :=
    le_trans (by simp [World.estate]) hunits
  split at hcount <;> omega

/-- The close handler runs once at most. -/
theorem closeReasons_length_le {c : Pool World Pc} (hc : program.Reachable c) :
    c.shared.closeReasons.length ≤ 1 := by
  have hunits := hc.counter (A := fun w => w.estate.reports)
    (N := fun w => if w.estate.state = .closed then 1 else 0) (W := fun pc => pc.debt.reports) rfl
    (by rintro w ⟨type, rfl⟩; simp [World.estate])
    (fun w pc a w' pc' _ hx => (exec_estate hx).report_balance) ∅
  have hcount : c.shared.closeReasons.length ≤ if c.shared.estate.state = .closed then 1 else 0 :=
    le_trans (by simp [World.estate]) hunits
  split at hcount <;> omega

/-- A stop channel that is neither in the session nor closed is some goroutine's to close. -/
theorem stop_owed {c : Pool World Pc} (hc : program.Reachable c) {n : Nat}
    (hmade : n < c.shared.stops) (hopen : n ∉ c.shared.stopped)
    (hheld : c.shared.sock.probeNoopStop ≠ some n) : ∃ i, (c.thread i).debt.stop = some n := by
  refine hc.owner (O := fun pc => pc.debt.stop = some n)
    (H := fun w => n < w.estate.stops ∧ n ∉ w.estate.stopped ∧ w.estate.stop ≠ some n) ?_ ?_
    ⟨hmade, hopen, hheld⟩
  · rintro w ⟨type, rfl⟩ ⟨h, -⟩
    exact absurd h (Nat.not_lt_zero n)
  · exact fun c i a w' pc' _ _ hx hH => (exec_estate hx).stop_owed hH

/-- A transport is accounted for: the session holds it, it is closed, or it is some goroutine's to
    close. -/
def Accounted (t : Transport) (c : Pool World Pc) : Prop :=
  (c.shared.estate.Holds t ∨ c.shared.shut t = true) ∨ ∃ i, t ∈ (c.thread i).debt.transports

theorem Accounted.step {t : Transport} {c c' : Pool World Pc} {i : Nat} {a : Choice}
    (hc : program.Reachable c) (h : Accounted t c) (hs : program.step c i a = some c') :
    Accounted t c' := by
  obtain ⟨w', pc', hx, rfl⟩ := Program.step_eq_some hs
  have hstep := exec_estate hx
  have hidle : c.shared.sock.upgrading = false → c.shared.sock.upgradeTransport = none := by
    intro hu
    have hiff : c.shared.sock.upgrading = true ↔ c.shared.sock.upgradeTransport.isSome = true :=
      (reach_handover hc).upgrading
    simpa [hu] using hiff
  rcases h with h | ⟨j, hj⟩
  · rcases hstep.holds hidle h with h | h
    · exact .inl h
    · exact .inr ⟨i, by simpa using h⟩
  · by_cases hji : j = i
    · subst hji
      rcases hstep.owed hj with h | h
      · exact .inr ⟨j, by simpa using h⟩
      · exact .inl (.inr h)
    · exact .inr ⟨j, by simpa [hji] using hj⟩

/-- No call on the session is in flight in this goroutine: it is idle, waits for the payload of a poll,
    or is the noop ticker of a probe. -/
def Pc.returned : Pc → Bool
  | .idle | .poll (.await _) | .upgrade (.ticker _) | .upgrade (.writeNoop _) => true
  | _ => false

theorem Pc.debt_of_returned {pc : Pc} (h : pc.returned = true) : pc.debt = {} := by
  revert h
  fun_cases Pc.returned pc with
  | case5 => nofun
  | _ => exact fun _ => rfl

/-- A closed session has let go of everything. -/
theorem sock_of_closed {c : Pool World Pc} (hc : program.Reachable c)
    (hs : c.shared.sock.state = .closed) : c.shared.sock = { state := .closed, transport := none } := by
  have hlife : c.shared.life = ⟨.closed, none, [], none, none, none⟩ := reach_ends hc hs
  have hI := reach_handover hc
  have hu : c.shared.sock.upgrading = false := by
    refine Bool.eq_false_iff.2 fun hu => ?_
    rcases (hI.polling hu).2 with h | h <;> cases hs.symm.trans h
  have hupgrade : c.shared.sock.upgradeTransport = none := by
    have hiff : c.shared.sock.upgrading = true ↔ c.shared.sock.upgradeTransport.isSome = true :=
      hI.upgrading
    simpa [hu] using hiff
  have hstop : c.shared.sock.probeNoopStop = none := by
    have hticking : c.shared.sock.probeNoopStop.isSome = true → c.shared.sock.upgrading = true :=
      hI.ticking
    simpa [hu] using hticking
  have htimer : c.shared.sock.upgradeTimer = none := by
    have hiff : c.shared.sock.upgradeTimer.isSome = true ↔
        c.shared.sock.upgrading = true ∧ c.shared.sock.state = .open := hI.timer
    simpa [hu] using hiff
  simp only [World.life, Life.mk.injEq] at hlife
  obtain ⟨h1, h2, h3, h4, h5, h6⟩ := hlife
  generalize c.shared.sock = s at *
  obtain ⟨⟩ := s
  simp_all

theorem closed_step {c c' : Pool World Pc} {i : Nat} {a : Choice} (hc : program.Reachable c)
    (hs : c.shared.sock.state = .closed) (h : program.step c i a = some c') :
    c'.shared.sock.state = .closed := by
  obtain ⟨w', pc', hx, rfl⟩ := Program.step_eq_some h
  exact (step_life hc hx).closed hs

/-- **The teardown.** In every run: closed is for ever; a closed session has let go of everything; the
    close handler runs once at most; a stop channel is closed once at most; and once no call is in flight
    on a closed session, every stop channel there was and every transport that was ever active or probing
    is closed. -/
theorem teardown_releases (c₀ c : Pool World Pc) (as : List (Nat × Choice))
    (h₀ : program.Reachable c₀) (hrun : program.run c₀ as = some c) :
    (c₀.shared.sock.state = .closed → c.shared.sock.state = .closed) ∧
    (c.shared.sock.state = .closed → c.shared.sock = { state := .closed, transport := none }) ∧
    c.shared.closeReasons.length ≤ 1 ∧
    c.shared.stopped.Nodup ∧
    (c.shared.sock.state = .closed → (∀ i, (c.thread i).returned = true) →
      (∀ stop < c.shared.stops, stop ∈ c.shared.stopped) ∧
      ∀ t, c₀.shared.sock.transport = some t ∨ c₀.shared.sock.upgradeTransport = some t →
        c.shared.shut t = true) := by
  have hc := h₀.run hrun
  refine ⟨fun hs => ?_, sock_of_closed hc, closeReasons_length_le hc, stopped_nodup hc,
    fun hs hreturned => ⟨fun stop hstop => ?_, fun t ht => ?_⟩⟩
  · exact h₀.run_keeps (fun c i a c' hc hs h => closed_step hc hs h) hs hrun
  · by_contra hopen
    obtain ⟨i, hi⟩ := stop_owed hc hstop hopen (by simp [sock_of_closed hc hs])
    rw [Pc.debt_of_returned (hreturned i)] at hi
    cases hi
  · have haccounted : Accounted t c :=
      h₀.run_keeps (fun c i a c' hc h hs => h.step hc hs) (.inl (.inl ht)) hrun
    rcases haccounted with (hholds | hshut) | ⟨i, hi⟩
    · have hholds' : c.shared.sock.transport = some t ∨ c.shared.sock.upgradeTransport = some t := hholds
      simp [sock_of_closed hc hs] at hholds'
    · exact hshut
    · rw [Pc.debt_of_returned (hreturned i)] at hi
      exact absurd hi List.not_mem_nil

/-- A polling session that is torn down while a websocket probe, answered already, is under way. -/
theorem teardown_releases_run :
    ∃ c₀ c : Pool World Pc, program.Reachable c₀ ∧
      c₀.shared.sock.upgradeTransport = some ⟨1, .websocket⟩ ∧
      c.shared.sock = { state := .closed, transport := none } ∧ 0 ∈ c.shared.stopped ∧
      c.shared.shut ⟨1, .websocket⟩ = true := by
  have hprobing : ∃ c₀, program.run freshPolling
      [(0, .call .open), (0, .go), (1, .call (.startUpgrade .websocket)), (1, .go),
        (2, .call .onProbe), (2, .go)] = some c₀ ∧
      c₀.shared.sock.upgradeTransport = some ⟨1, .websocket⟩ ∧
      ∃ c, program.run c₀
        [(3, .call (.closeWithReason .transportClose)), (3, .go), (3, .go), (3, .go), (3, .go), (3, .go)] =
        some c ∧ c.shared.sock.state = .closed ∧ c.shared.stops = 1 ∧
        ∀ i, (c.thread i).returned = true := by
    refine ⟨_, rfl, rfl, _, rfl, rfl, rfl, fun i => ?_⟩
    simp only [Function.update_apply]
    split_ifs <;> rfl
  obtain ⟨c₀, hrun₀, hupgrade, c, hrun, hclosed, hstops, hreturned⟩ := hprobing
  have h₀ := freshPolling_reachable.run hrun₀
  obtain ⟨-, hsock, -, -, hreleased⟩ := teardown_releases c₀ c _ h₀ hrun
  obtain ⟨hstopped, hshut⟩ := hreleased hclosed hreturned
  exact ⟨c₀, c, h₀, hupgrade, hsock hclosed, hstopped 0 (by omega), hshut _ (.inr hupgrade)⟩

end EngineIo.Server
