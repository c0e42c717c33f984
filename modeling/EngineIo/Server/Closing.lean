import EngineIo.Server.Release

set_option autoImplicit false

/-! # The stages of a teardown (`closeWithReason` in `server_socket.go`)

`closeWithReason` claims the closed transition, then closes the transports, and reports to the close
handler last. What every section of a session does to its state and to the reports, together with where the
goroutine that runs it is in a teardown, is all that the registry and the inbound packets depend on. -/

namespace EngineIo.Server

/-- Where a goroutine is in `closeWithReason`. -/
inductive Phase
  | outside
  /-- It claimed the teardown and is closing the transports. -/
  | releasing
  /-- The close handler comes next. -/
  | reporting
deriving DecidableEq, Repr

def Pc.phase : Pc → Phase
  | .teardown (.closeStop ..) | .teardown (.closeTransport ..) | .teardown (.closeUpgrade ..) =>
    .releasing
  | .teardown (.closeHandler ..) => .reporting
  | _ => .outside

/-- What a section does to the state of the session and to the reports. -/
inductive CloseStep (w : World) (pc : Pc) (w' : World) (pc' : Pc) : Prop
  | live (hpc : pc.phase = .outside) (hpc' : pc'.phase = .outside)
      (hclosed : w'.sock.state = .closed ↔ w.sock.state = .closed)
      (hopen : w'.sock.state = .open → w.sock.state = .open ∨ pc = .open)
      (hreports : w'.closeReasons = w.closeReasons)
  | claim (hpc : pc.phase = .outside) (hpc' : pc'.phase = .releasing)
      (hlive : w.sock.state ≠ .closed) (hclosed : w'.sock.state = .closed)
      (hreports : w'.closeReasons = w.closeReasons)
  | release (hpc : pc.phase = .releasing) (hpc' : pc'.phase = .releasing ∨ pc'.phase = .reporting)
      (hstate : w'.sock.state = w.sock.state) (hreports : w'.closeReasons = w.closeReasons)
  | report (reason : Reason) (hpc : pc.phase = .reporting) (hpc' : pc'.phase = .outside)
      (hstate : w'.sock.state = w.sock.state)
      (hreports : w'.closeReasons = w.closeReasons ++ [reason])

section

variable {w w' : World} {pc' : Pc} {a : Choice}

theorem CloseStep.keeps {pc : Pc} (hpc : pc.phase = .outside) (hpc' : pc'.phase = .outside)
    (hstate : w'.sock.state = w.sock.state) (hreports : w'.closeReasons = w.closeReasons) :
    CloseStep w pc w' pc' :=
  .live hpc hpc' (by rw [hstate]) (fun h => .inl (hstate ▸ h)) hreports

theorem World.Releases.keeps {pc : Pc} (h : w.Releases w') (hpc : pc.phase = .outside)
    (hpc' : pc'.phase = .outside) : CloseStep w pc w' pc' := by
  obtain ⟨polling, closed, inbox, stopped, rfl⟩ := h
  exact .keeps hpc hpc' rfl rfl

theorem World.Releases.release {pc : Pc} (h : w.Releases w') (hpc : pc.phase = .releasing)
    (hpc' : pc'.phase = .releasing ∨ pc'.phase = .reporting) : CloseStep w pc w' pc' := by
  obtain ⟨polling, closed, inbox, stopped, rfl⟩ := h
  exact CloseStep.release hpc hpc' rfl rfl

theorem Cont.resume_phase (k : Cont) : k.resume.phase = .outside := by
  cases k <;> rfl

theorem Return.resume_phase (r : Return) : r.resume.phase = .outside := by
  cases r <;> rfl

theorem startCall_close {c : Call} (h : startCall w c = some (w', pc')) :
    CloseStep w .idle w' pc' := by
  revert h
  fun_cases startCall w c <;> intro h <;> cases h <;> exact .keeps rfl rfl rfl rfl

theorem execFlush_close {pc : FlushPc} (h : execFlush w pc a = some (w', pc')) :
    CloseStep w (.flush pc) w' pc' := by
  revert h
  fun_cases execFlush w pc a <;> intro h <;> cases h
  case case11 =>
    refine .keeps rfl ?_ rfl rfl
    split
    · rfl
    · split <;> rfl
  case case12 k => exact .keeps rfl k.resume_phase rfl rfl
  all_goals exact .keeps rfl rfl rfl rfl

theorem execTeardown_close {pc : TeardownPc} (h : execTeardown w pc a = some (w', pc')) :
    CloseStep w (.teardown pc) w' pc' := by
  revert h
  fun_cases execTeardown w pc a <;> intro h <;> cases h
  · next r _ => exact .keeps rfl r.resume_phase rfl rfl
  · next hs =>
    obtain ⟨hlive, rfl, -, -, -⟩ := ServerSocket.beginTeardown_eq_some.1 hs
    exact .claim rfl rfl hlive rfl rfl
  · next stop => exact (w.closeStop?_releases stop).release rfl (.inl rfl)
  · next old _ => exact (w.closeTransport?_releases old).release rfl (.inl rfl)
  · next probe => exact (w.closeTransport?_releases probe).release rfl (.inr rfl)
  · next reason r => exact .report reason rfl r.resume_phase rfl rfl

theorem execPoll_close {pc : PollPc} (h : execPoll w pc a = some (w', pc')) :
    CloseStep w (.poll pc) w' pc' := by
  revert h
  fun_cases execPoll w pc a <;> intro h <;> cases h
  case case4 ok _ =>
    refine .keeps rfl ?_ rfl rfl
    split <;> rfl
  all_goals exact .keeps rfl rfl rfl rfl

theorem execUpgrade_close {pc : UpgradePc} (h : execUpgrade w pc a = some (w', pc')) :
    CloseStep w (.upgrade pc) w' pc' := by
  revert h
  fun_cases execUpgrade w pc a <;> intro h <;> cases h
  · exact .keeps rfl rfl rfl rfl
  · next hs =>
    obtain ⟨-, rfl⟩ := ServerSocket.startUpgrade_eq_some.1 hs
    exact .keeps rfl rfl rfl rfl
  · exact (w.closeTransport_releases _).keeps rfl rfl
  · exact .keeps rfl rfl rfl rfl
  · next hs =>
    obtain ⟨-, rfl⟩ := ServerSocket.onProbe_eq_some.1 hs
    exact .keeps rfl rfl rfl rfl
  · refine .keeps rfl ?_ rfl rfl
    split <;> rfl
  · exact .keeps rfl rfl rfl rfl
  · exact (w.deliver_releases _ _ _).keeps rfl rfl
  · exact .keeps rfl rfl rfl rfl
  · next hs =>
    obtain ⟨-, rfl, -, -⟩ := ServerSocket.beginCompleteUpgrade_eq_some.1 hs
    exact .keeps rfl rfl rfl rfl
  · exact (w.closeStop?_releases _).keeps rfl rfl
  · exact (w.closeTransport?_releases _).keeps rfl rfl
  · exact .keeps rfl rfl rfl rfl
  · next hs =>
    obtain ⟨-, rfl, -⟩ := ServerSocket.beginAbortUpgrade_eq_some.1 hs
    exact .keeps rfl rfl rfl rfl
  · exact (w.closeStop?_releases _).keeps rfl rfl
  · exact (w.closeTransport_releases _).keeps rfl rfl

theorem exec_close {pc : Pc} (h : exec w pc a = some (w', pc')) : CloseStep w pc w' pc' := by
  revert h
  fun_cases exec w pc a <;> intro h
  · exact startCall_close h
  · cases h
    refine .live rfl rfl ?_ (fun _ => .inr rfl) rfl
    rcases w.sock.open_cases with ⟨hs, hopened⟩ | hsame
    · simp [hs, hopened]
    · simp only [hsame]
  · cases h
    exact .keeps rfl rfl rfl rfl
  · next hs =>
    cases h
    obtain ⟨-, rfl⟩ := ServerSocket.send_eq_some.1 hs
    exact .keeps rfl rfl rfl rfl
  · cases h
    exact .keeps rfl rfl rfl rfl
  · next hs =>
    cases h
    obtain ⟨hlive, rfl⟩ := ServerSocket.beginClose_eq_some.1 hs
    refine .live rfl rfl ?_ (fun hopen => (by cases hopen)) rfl
    rcases hlive with hlive | hlive <;> simp [hlive]
  · cases h
    refine .keeps rfl rfl ?_ rfl
    show w.sock.armCloseTimer.state = w.sock.state
    unfold ServerSocket.armCloseTimer
    split <;> rfl
  · cases h
    refine .keeps rfl rfl ?_ rfl
    show w.sock.onPong.state = w.sock.state
    unfold ServerSocket.onPong
    split <;> rfl
  · cases h
    exact .keeps rfl rfl rfl rfl
  · next hs =>
    cases h
    obtain ⟨-, rfl⟩ := ServerSocket.sendPing_eq_some.1 hs
    exact .keeps rfl rfl rfl rfl
  · exact execFlush_close h
  · exact execTeardown_close h
  · exact execPoll_close h
  · exact execUpgrade_close h
  · cases h

/-- A closed session stays closed. -/
theorem CloseStep.closed {pc : Pc} (h : CloseStep w pc w' pc')
    (hw : w.sock.state = .closed) : w'.sock.state = .closed := by
  cases h with
  | live _ _ hclosed _ _ => exact hclosed.2 hw
  | claim _ _ _ hclosed _ => exact hclosed
  | release _ _ hstate _ => exact hstate.trans hw
  | report _ _ _ hstate _ => exact hstate.trans hw

/-- The close handler is called in the last section of a teardown. -/
theorem CloseStep.reports {pc : Pc} (h : CloseStep w pc w' pc') :
    w'.closeReasons = w.closeReasons ∨
      pc.phase = .reporting ∧ ∃ reason, w'.closeReasons = w.closeReasons ++ [reason] := by
  cases h with
  | live _ _ _ _ hreports => exact .inl hreports
  | claim _ _ _ _ hreports => exact .inl hreports
  | release _ _ _ hreports => exact .inl hreports
  | report reason hpc _ _ hreports => exact .inr ⟨hpc, reason, hreports⟩

end

end EngineIo.Server
