import EngineIo.Client.Teardown

set_option autoImplicit false

/-! # `Close` during an upgrade

`Close` leaves the teardown to the close handler of the active transport. That works as long as the
transport's close is noticed (`close_completes`); but an upgrade detaches the handler and pauses the
transport, and a `Close` that falls in between leaves the socket closing for good
(`close_stuck_in_upgrade`). -/

namespace EngineIo.Client.Switchover

open Concurrency

variable {w w' : World} {f : Frame} {a : Choice} {fs : List Frame} {s s' : Session}

/-- The socket is closing, and `t` is its transport. -/
def World.Closing (w : World) (t : Nat) : Prop :=
  w.sock.state = .closing ∧ w.sock.transport.map (·.id) = some t

instance (w : World) (t : Nat) : Decidable (w.Closing t) :=
  inferInstanceAs (Decidable (_ ∧ _))

/-- The close of the active transport is noticed: when `Close` claims the closing transition, the
    transport has not closed unheard; when it then closes the transport, this is not paused nor about
    to be; and the socket's close handler is in place when the transport closes. -/
def Noticed (w : World) (f : Option Frame) (_ : Choice) : Prop :=
  match f with
  | some .beginCloseTransport => w.sock.state = .open → w.sock.transport.all fun t =>
      (w.object t.id).state ≠ .closed || (w.object t.id).heard
  | some (.close t) => w.Closing t →
      (w.object t).state = .opening ∨ (w.object t).state = .open ∨ (w.object t).state = .closed
  | some (.onClose t) =>
      w.Closing t → (w.object t).state = .closed ∨ (w.object t).onClose = .socket
  | _ => True

instance (w : World) (f : Option Frame) (a : Choice) : Decidable (Noticed w f a) := by
  rcases f with _ | f
  · exact instDecidableTrue
  · cases f
    case beginCloseTransport | close | onClose => exact inferInstanceAs (Decidable (_ → _))
    all_goals exact instDecidableTrue

/-! ## Owners -/

/-- A call of `Close` on an open socket is on its way to the closing transition. -/
theorem SessionStep.claimer (h : SessionStep s f s' fs) (hs : s'.state.active = true)
    (hcalled : s'.closeCalled = true) :
    (s.state.active = true ∧ s.closeCalled = true) ∧ f.role ≠ .claimer ∨
      ∃ g ∈ fs, g.role = .claimer := by
  cases h with
  | pass hf => exact .inl ⟨⟨hs, hcalled⟩, by simp [hf]⟩
  | call => exact .inr ⟨_, List.mem_singleton.2 rfl, rfl⟩
  | decline _ hno => simp [hs] at hno
  | proceed hmem => exact .inr ⟨_, hmem, rfl⟩
  | claim => simp [SocketState.active] at hs
  | teardown => simp [SocketState.active] at hs
  | detach hf => exact .inl ⟨⟨hs, hcalled⟩, by simp [hf]⟩
  | retry | torn | notify | adopt => exact .inl ⟨⟨hs, hcalled⟩, by simp [Frame.role]⟩

/-- A teardown is on its way to the close handler. -/
theorem SessionStep.ticket (h : SessionStep s f s' fs) (hs : s'.state = .closed)
    (hrun : s'.closeRuns = 0) :
    (s.state = .closed ∧ s.closeRuns = 0) ∧ f.role ≠ .ticket ∨ ∃ g ∈ fs, g.role = .ticket := by
  cases h with
  | pass hf | call hf | decline hf => exact .inl ⟨⟨hs, hrun⟩, by simp [hf]⟩
  | proceed | retry | torn => exact .inl ⟨⟨hs, hrun⟩, by simp [Frame.role]⟩
  | claim => simp at hs
  | teardown _ hg => exact .inr ⟨_, List.mem_singleton.2 rfl, hg⟩
  | detach _ _ _ hg => exact .inr ⟨_, List.mem_append_right _ (List.mem_singleton.2 rfl), hg⟩
  | notify => simp at hrun
  | adopt hopen => simp [hopen] at hs

theorem claimer_owned {C : World → Option Frame → Choice → Prop} {c : Pool World (List Frame)}
    (h : frames.program.Reach (Frames.When C) c) (hs : c.shared.sock.state.active = true)
    (hcalled : c.shared.closeCalled = true) : ∃ i, ∃ f ∈ c.thread i, f.role = .claimer := by
  refine Frames.owner (H := fun w => w.sock.state.active = true ∧ w.closeCalled = true)
    (O := fun f => f.role = .claimer) ?_ ?_ ?_ h ⟨hs, hcalled⟩
  · rintro w ⟨-, -, -, -, -, hw⟩ ⟨-, hcalled⟩
    rw [hw] at hcalled
    simp at hcalled
  · rintro w a w' fs hx ⟨hs, hcalled⟩
    obtain ⟨⟨called, hsession, horigin⟩, -⟩ := start_session hx
    simp only [World.session, Session.mk.injEq] at hsession
    obtain ⟨hstate, -, hc, -⟩ := hsession
    rcases horigin (hc ▸ hcalled) with hold | hnew
    · exact .inl ⟨hstate ▸ hs, hold⟩
    · exact .inr ⟨_, hnew, rfl⟩
  · rintro c i f rest a w' fs hc hi - hx ⟨hs, hcalled⟩
    exact (exec_session hx).claimer hs hcalled

theorem ticket_owned {C : World → Option Frame → Choice → Prop} {c : Pool World (List Frame)}
    (h : frames.program.Reach (Frames.When C) c) (hs : c.shared.sock.state = .closed)
    (hrun : c.shared.closeRuns = 0) : ∃ i, ∃ f ∈ c.thread i, f.role = .ticket := by
  refine Frames.owner (H := fun w => w.sock.state = .closed ∧ w.closeRuns = 0)
    (O := fun f => f.role = .ticket) ?_ ?_ ?_ h ⟨hs, hrun⟩
  · rintro w ⟨hopen, -⟩ ⟨hclosed, -⟩
    simp [hopen] at hclosed
  · rintro w a w' fs hx ⟨hs, hrun⟩
    obtain ⟨⟨called, hsession, -⟩, -⟩ := start_session hx
    simp only [World.session, Session.mk.injEq] at hsession
    obtain ⟨hstate, -, -, hruns⟩ := hsession
    exact .inl ⟨hstate ▸ hs, hruns ▸ hrun⟩
  · rintro c i f rest a w' fs hc hi - hx ⟨hs, hrun⟩
    exact (exec_session hx).ticket hs hrun

/-! ## Closing the transport -/

/-- The transport a frame is closing. -/
def Frame.closes : Frame → Option Nat
  | .close t | .closeSend t | .closeBegin t | .closeLock t | .onClose t => some t
  | _ => none

theorem World.closeRest_closes (w : World) (t : Nat) : (w.closeRest t).closes = some t := by
  unfold World.closeRest
  split
  · rfl
  · rfl

/-- Closing a transport goes on until it turns out to be closed, paused or closing already, or until
    its close handler is called. -/
theorem exec_closes {u : Nat} (hf : f.closes = some u) (h : exec w f a = some (w', fs)) :
    (∃ g ∈ fs, g.closes = some u) ∨ (w.object u).state = .closed ∨
      (f = .close u ∧ (w.object u).state ≠ .opening ∧ (w.object u).state ≠ .open) ∨
      (f = .onClose u ∧ ((w.object u).onClose = .socket → (w'.object u).heard = true)) := by
  have hx : execTransport w f a = some (w', fs) := by
    cases f <;> first | exact h | simp [Frame.closes] at hf
  revert hx
  fun_cases execTransport w f a <;> intro hx <;> cases hx
  all_goals
    simp only [Frame.closes, Option.some.injEq, reduceCtorEq] at hf
    try subst hf
  case case1 | case7 | case9 => exact .inl ⟨_, List.mem_cons_self .., rfl⟩
  case case2 t hs => exact .inr (.inr (.inl ⟨rfl, not_or.1 hs⟩))
  case case3 t => exact .inl ⟨_, List.mem_cons_self .., w.closeRest_closes t⟩
  case case4 => exact .inl ⟨_, List.mem_cons_of_mem _ (List.mem_cons_self ..), w.closeRest_closes _⟩
  case case6 hs => exact .inr (.inl hs)
  case case11 hs => exact .inr (.inl hs)
  case case12 | case14 =>
    refine .inr (.inr (.inr ⟨rfl, fun hsocket => ?_⟩))
    simp [TransportObject.report_heard, hsocket]

theorem World.Launched.ne_made {u : Nat} (hw : w.Launched)
    (h : w.sock.transport.map (·.id) = some u) : u ≠ w.made := by
  obtain ⟨t, ht, rfl⟩ := Option.map_eq_some_iff.1 h
  exact (hw.made t ht).ne

/-- When the socket starts or goes on closing, its transport is the one it had. -/
theorem exec_closing {u : Nat} (h : exec w f a = some (w', fs)) (hu : w'.Closing u) :
    w.sock.transport.map (·.id) = some u ∧ (w.sock.state = .closing ∨
      w.sock.state.active = true ∧ f = .beginCloseTransport ∧ Frame.close u ∈ fs) := by
  obtain ⟨hstate, hid⟩ := hu
  obtain ⟨htransport, hbefore⟩ := (exec_session h).closing hstate
  replace hid : w.sock.transport.map (·.id) = some u := by
    rw [← hid]; exact congrArg _ htransport.symm
  refine ⟨hid, hbefore.imp_right fun ⟨hactive, hf, hfs⟩ => ⟨hactive, hf, ?_⟩⟩
  obtain ⟨t, ht, rfl⟩ := Option.map_eq_some_iff.1 hid
  rw [hfs, show w.session.transport = some t from ht]
  exact List.mem_singleton.2 rfl

theorem start_closing {u : Nat} (h : start w a = some (w', fs)) (hu : w'.Closing u) :
    w.Closing u := by
  obtain ⟨⟨called, hsession, -⟩, -⟩ := start_session h
  simp only [World.session, Session.mk.injEq] at hsession
  exact ⟨hsession.1 ▸ hu.1, hsession.2.1 ▸ hu.2⟩

/-- While the socket is closing, its transport does not close unheard. -/
theorem closed_heard {c : Pool World (List Frame)} (h : frames.program.Reach (Frames.When Noticed) c)
    {u : Nat} (hu : c.shared.Closing u) (hclosed : (c.shared.object u).state = .closed) :
    (c.shared.object u).heard = true := by
  refine Frames.memory (I := fun w => ∀ u, w.Closing u → (w.object u).state = .closed →
    (w.object u).heard = true) ?_ ?_ ?_ h u hu hclosed
  · rintro w ⟨hopen, -⟩ u ⟨hclosing, -⟩
    simp [hopen] at hclosing
  · intro w a w' fs hw hx u hu
    rw [start_object hx]
    exact hw u (start_closing hx hu)
  · intro c i f rest a w' fs hc hi hnoticed hw hx u hu hclosed
    obtain ⟨hid, hbefore⟩ := exec_closing hx hu
    have hne := (reach_launch hc).1.ne_made hid
    have hmono := (exec_touch hx u).heard_mono hne
    rcases (exec_touch hx u).closed hne hclosed with hold | ⟨rfl, hheard⟩
    · refine hmono ?_
      rcases hbefore with hclosing | ⟨hactive, rfl, -⟩
      · exact hw u ⟨hclosing, hid⟩ hold
      · -- `Close` is only claimed while the transport has not closed unheard
        have hopen := (SocketState.active_iff (reach_session hc).1.settled).1 hactive
        obtain ⟨t, ht, rfl⟩ := Option.map_eq_some_iff.1 hid
        simpa [ht, hold] using hnoticed hopen
    · have hclosing := hbefore.resolve_right (by simp)
      rcases hnoticed ⟨hclosing, hid⟩ with hold | hsocket
      · exact hmono (hw u ⟨hclosing, hid⟩ hold)
      · exact hheard hsocket

/-- While the socket is closing and has heard nothing, its transport is being closed. -/
theorem closer_owned {c : Pool World (List Frame)} (h : frames.program.Reach (Frames.When Noticed) c)
    {u : Nat} (hu : c.shared.Closing u) (hunheard : (c.shared.object u).heard = false) :
    ∃ i, ∃ f ∈ c.thread i, f.closes = some u := by
  refine Frames.owner (H := fun w => w.Closing u ∧ (w.object u).heard = false)
    (O := fun f => f.closes = some u) ?_ ?_ ?_ h ⟨hu, hunheard⟩
  · rintro w ⟨hopen, -⟩ ⟨⟨hclosing, -⟩, -⟩
    simp [hopen] at hclosing
  · rintro w a w' fs hx ⟨hu, hunheard⟩
    exact .inl ⟨start_closing hx hu, start_object hx ▸ hunheard⟩
  · rintro c i f rest a w' fs hc hi hnoticed hx ⟨hu, hunheard⟩
    obtain ⟨hid, hclosing | ⟨-, -, hclose⟩⟩ := exec_closing hx hu
    · have hmono := (exec_touch hx u).heard_mono ((reach_launch hc).1.ne_made hid)
      have hbefore : (c.shared.object u).heard = false :=
        Bool.eq_false_iff.2 fun h => by simp [hmono h] at hunheard
      have hopen : (c.shared.object u).state ≠ .closed := fun hclosed => by
        simp [closed_heard hc ⟨hclosing, hid⟩ hclosed] at hbefore
      by_cases hf : f.closes = some u
      · right
        rcases exec_closes hf hx with hnext | hclosed | ⟨rfl, hnot⟩ | ⟨rfl, hheard⟩
        · exact hnext
        · exact absurd hclosed hopen
        · rcases hnoticed ⟨hclosing, hid⟩ with h | h | h
          · exact absurd h hnot.1
          · exact absurd h hnot.2
          · exact absurd h hopen
        · have hsocket := (hnoticed ⟨hclosing, hid⟩).resolve_left hopen
          simp [hheard hsocket] at hunheard
      · exact .inl ⟨⟨⟨hclosing, hid⟩, hbefore⟩, hf⟩
    · exact .inr ⟨_, hclose, rfl⟩

/-! ## `Close` completes -/

theorem Frame.closes_of_waits (h : f.waits = true) : f.closes = none := by
  cases f <;> simp_all [Frame.waits, Frame.closes]

/-- **Close completes when it is noticed.** Once `Close` has been called and no call, callback or
    dispatch is running, the socket is closed and its close handler has run once. -/
theorem close_completes {c : Pool World (List Frame)}
    (h : frames.program.Reach (Frames.When Noticed) c) (hquiet : ∀ i, Quiet (c.thread i))
    (hcalled : c.shared.closeCalled = true) :
    c.shared.sock.state = .closed ∧ c.shared.closeRuns = 1 := by
  have hsound := (reach_session h).1
  have hnone : ∀ r : Role, r ≠ .bystander → ¬ ∃ i, ∃ f ∈ c.thread i, f.role = r :=
    fun r hr ⟨i, f, hf, hrole⟩ => hr (hrole ▸ Frame.role_of_waits (hquiet i f hf))
  -- nobody is left to close, to tear down or to call the handler
  have hactive : c.shared.sock.state.active = false := Bool.eq_false_iff.2 fun hs =>
    hnone .claimer (by simp) (claimer_owned h hs hcalled)
  have hclosed : c.shared.sock.state = .closed := by
    by_contra hne
    have hclosing : c.shared.sock.state = .closing := by
      revert hactive hne
      cases c.shared.sock.state <;> simp [SocketState.active]
    obtain ⟨t, ht⟩ := Option.ne_none_iff_exists'.1 fun hn => hne (hsound.transport.1 hn)
    cases hheard : (c.shared.object t.id).heard with
    | true => exact hnone .alarm (by simp) (heard_alarm h ht hheard)
    | false =>
      have hu : c.shared.Closing t.id :=
        ⟨hclosing, by rw [show c.shared.sock.transport = some t from ht]; rfl⟩
      obtain ⟨i, f, hf, hcloses⟩ := closer_owned h hu hheard
      simp [Frame.closes_of_waits (hquiet i f hf)] at hcloses
  refine ⟨hclosed, ?_⟩
  have hrun : c.shared.closeRuns ≠ 0 := fun hzero =>
    hnone .ticket (by simp) (ticket_owned h hclosed hzero)
  have hle : c.shared.closeRuns ≤ 1 := hsound.runs
  omega

/-- `Close` closes the transport, whose close handler is still the socket's. The probe goes on and
    finds the socket closed. -/
def closeBeforeDetach : List (Nat × Choice) :=
  upgradeBegun ++
    [(2, Choice.close), (2, .go), (2, .go), (2, .go), (2, .sent true), (2, .go), (2, .go), (2, .go), (2, .go),
      (2, .go), (2, .go), (2, .go), (2, .go), (2, .go), (2, .go), (2, .go),
      (1, .go), (1, .go), (1, .go), (1, .go), (1, .sent true), (1, .go), (1, .go), (1, .go), (1, .go),
      (1, .go), (1, .go), (1, .go), (1, .sent true), (1, .go), (1, .go)]

theorem close_completes_run : ∃ c, frames.program.Reach (Frames.When Noticed) c ∧
    c.shared.closeCalled = true ∧ c.shared.sock.state = .closed ∧ c.shared.closeRuns = 1 := by
  obtain ⟨c, hrun⟩ : ∃ c, frames.program.runIf (Frames.When Noticed) connected closeBeforeDetach = some c :=
    ⟨_, rfl⟩
  have hreach := connected_reach.runIf hrun
  have hcalled : c.shared.closeCalled = true := by cases hrun; rfl
  have hidle : ∀ i, c.thread i = [] := by
    cases hrun
    rintro (_ | _ | _ | i) <;> rfl
  exact ⟨c, hreach, hcalled, close_completes hreach (fun i => by simp [Quiet, hidle i]) hcalled⟩

/-- The probe detaches the old transport's handlers, then `Close` closes the transport, and nobody
    hears of it. The probe finds the socket closing and discards its transport; the poll that was
    due finds its transport closed. -/
def closeAfterDetach : List (Nat × Choice) :=
  upgradeBegun ++
    [(1, Choice.go), (1, .go), (1, .go),
      (2, .close), (2, .go), (2, .go), (2, .go), (2, .sent true), (2, .go), (2, .go), (2, .go), (2, .go),
      (1, .go), (1, .sent true), (1, .go), (1, .go), (1, .go), (1, .go), (1, .go), (1, .go), (1, .go),
      (1, .sent true), (1, .go), (1, .go), (0, .poll), (0, .go), (0, .go)]

/-- **Close gets lost in an upgrade.** Every goroutine has finished, nothing is left to start, and the
    socket is still closing: its close handler has not run. -/
theorem close_stuck_in_upgrade : ∃ c, frames.program.Reachable c ∧ (∀ i, c.thread i = []) ∧
    (c.shared.polls = 0 ∧ c.shared.dispatch = false ∧ c.shared.probes = false) ∧
    c.shared.closeCalled = true ∧ c.shared.sock.state = .closing ∧ c.shared.closeRuns = 0 := by
  obtain ⟨c, hrun⟩ : ∃ c, frames.program.run connected closeAfterDetach = some c := ⟨_, rfl⟩
  refine ⟨c, Program.Reachable.run connected_reach hrun, ?_⟩
  cases hrun
  refine ⟨?_, ⟨rfl, rfl, rfl⟩, rfl, rfl, rfl⟩
  rintro (_ | _ | _ | i) <;> rfl

end EngineIo.Client.Switchover
