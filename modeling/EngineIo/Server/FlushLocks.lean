import EngineIo.Concurrency.CallStack
import EngineIo.Concurrency.Locks
import EngineIo.Server.Outgoing

set_option autoImplicit false

/-! # Close handlers under `flushMu`

`flush` holds the `flushMu` of its session while it writes, and when a write fails, or the close packet has
been written, it tears the session down with the lock still held. The close handler then runs under the lock.
It may call `Send` and `Close` of any session and `Server.Close`, so it may wait for the `flushMu` of another
session, and its calls may run the close handlers of other sessions in turn.

Here any number of sessions have any number of goroutines, and a goroutine is the stack of the calls it is in.
The history says when each session was closed. A handler runs only once its session is closed, and `Send` and
`Close` turn to `flushMu` only after they have seen that theirs is not, so a goroutine that waits for one lock
only holds those of sessions closed before. -/

namespace EngineIo.Server

/-! ## The lock in the moves of a session -/

theorem Move.holder {v v' : Outbound} {st st' : Stage} (h : Move v st v' st')
    (hst : st.holdsMu = true → v.flushMu = true) (hst' : st'.holdsMu = true) : v'.flushMu = true := by
  cases h with
  | lock _ => rfl
  | unlock => cases hst'
  | opened _ => cases hst'
  | push _ _ _ => cases hst'
  | last _ => cases hst'
  | quiet h =>
    rcases h with rfl | ⟨hmu, -⟩
    · exact hst hst'
    · exact hst hmu
  | teardown h =>
    rcases h with ⟨-, rfl⟩ | ⟨hmu, -⟩
    · cases hst'
    · exact hst hmu
  | load _ => exact hst rfl
  | hand _ => exact hst rfl
  | trim _ _ _ _ => exact hst rfl
  | giveUp => exact hst rfl

/-- A lock that somebody else has stays with them. -/
theorem Move.stays {v v' : Outbound} {st st' : Stage} (h : Move v st v' st') (hst : st.holdsMu = false)
    (hmu : v.flushMu = true) : v'.flushMu = true ∧ st'.holdsMu = false := by
  cases h with
  | lock hfree =>
    rw [hmu] at hfree
    cases hfree
  | quiet h =>
    rcases h with rfl | ⟨hheld, -⟩
    · exact ⟨hmu, hst⟩
    · rw [hst] at hheld
      cases hheld
  | teardown h =>
    rcases h with ⟨-, rfl⟩ | ⟨hheld, -⟩
    · exact ⟨hmu, rfl⟩
    · rw [hst] at hheld
      cases hheld
  | opened _ => exact ⟨hmu, rfl⟩
  | push _ _ _ => exact ⟨hmu, rfl⟩
  | last _ => exact ⟨hmu, rfl⟩
  | load _ => cases hst
  | hand _ => cases hst
  | trim _ _ _ _ => cases hst
  | giveUp => cases hst
  | unlock => cases hst

theorem Move.closed {v v' : Outbound} {st st' : Stage} (h : Move v st v' st') (hclosed : v.state = .closed) :
    v'.state = .closed := by
  cases h with
  | opened hs =>
    rw [hclosed] at hs
    cases hs
  | last hs =>
    rw [hclosed] at hs
    rcases hs with hs | hs <;> cases hs
  | teardown _ => rfl
  | _ => exact hclosed

namespace FlushLocks

open Concurrency

/-! ## Model -/

structure Memory where
  world : Nat → World
  /-- History: when the sessions were closed. -/
  closedAt : Nat → Option Nat := fun _ => none
  clock : Nat := 0

structure Frame where
  session : Nat
  pc : Pc
deriving DecidableEq, Repr

inductive Act
  | call (session : Nat) (c : Call)
  | run (a : Choice)
deriving DecidableEq, Repr

/-- What a close handler can call: `Send`, `Close`, and `closeWithReason` by way of `Server.Close`. It serves no
    requests. -/
def Exported : Call → Bool
  | .send _ _ | .close | .closeWithReason .forcedClose => true
  | _ => false

/-- The goroutine is in the close handler, or about to call it. -/
def InHandler : Pc → Bool
  | .teardown (.closeHandler _ _) => true
  | _ => false

def Memory.put (m : Memory) (x : Nat) (w : World) : Memory :=
  if (m.world x).sock.state ≠ .closed ∧ w.sock.state = .closed then
    { world := Function.update m.world x w
      closedAt := Function.update m.closedAt x (some m.clock)
      clock := m.clock + 1 }
  else { m with world := Function.update m.world x w }

/-- A call that has come to its end leaves no frame. -/
def frames (x : Nat) (pc : Pc) : List Frame := if pc = .idle then [] else [⟨x, pc⟩]

def system : Frames Memory Frame Act where
  init m := (∀ x, (m.world x).Fresh) ∧ ∀ x, m.closedAt x = none
  start m
    | .call x c => (startCall (m.world x) c).map fun r => (m.put x r.1, frames x r.2)
    | .run _ => none
  exec m f
    | .call x c =>
      if InHandler f.pc ∧ Exported c then
        (startCall (m.world x) c).map fun r => (m.put x r.1, frames x r.2 ++ [f])
      else none
    | .run a =>
      (exec (m.world f.session) f.pc a).map fun r => (m.put f.session r.1, frames f.session r.2)

/-- The flush locks: who has them, and who waits for one that is taken. -/
def locks (c : Pool Memory (List Frame)) : Locks Nat Nat where
  holds i x := ∃ f ∈ c.thread i, f.session = x ∧ f.pc.stage.holdsMu = true
  waits i :=
    match c.thread i with
    | ⟨x, .flush (.lock _)⟩ :: _ => if (c.shared.world x).flushMu then some x else none
    | _ => none

variable {m m' : Memory} {w w' : World} {pc pc' : Pc} {x y : Nat} {a : Choice}

theorem mem_frames {f : Frame} (h : f ∈ frames x pc) : f = ⟨x, pc⟩ := by
  unfold frames at h
  split at h
  · cases h
  · exact List.mem_singleton.1 h

@[simp] theorem put_world : (m.put x w).world = Function.update m.world x w := by
  unfold Memory.put
  split <;> rfl

/-! ## One holder for each lock -/

def Frame.Holds (m : Memory) (f : Frame) : Prop :=
  f.pc.stage.holdsMu = true → (m.world f.session).flushMu = true

def Frame.Apart (f g : Frame) : Prop := f.session = g.session → f.pc.stage.Exclusive g.pc.stage

theorem holds_section (hx : exec (m.world x) pc a = some (w', pc')) (h : Frame.Holds m ⟨x, pc⟩) :
    Frame.Holds (m.put x w') ⟨x, pc'⟩ := by
  intro hpc'
  have hmu : w'.flushMu = true := (exec_move hx).holder h hpc'
  simpa using hmu

theorem others_section (hx : exec (m.world x) pc a = some (w', pc')) {g : Frame} (hg : g.Holds m)
    (hapart : Frame.Apart ⟨x, pc⟩ g) : g.Holds (m.put x w') ∧ Frame.Apart ⟨x, pc'⟩ g := by
  by_cases hsession : g.session = x
  · have hexcl := hapart hsession.symm
    by_cases hmu : g.pc.stage.holdsMu = true
    · have hlocked : (m.world x).outbound.flushMu = true := hsession ▸ hg hmu
      obtain ⟨hstill, hout⟩ := (exec_move hx).stays (hexcl.resolve_right (by simp [hmu])) hlocked
      have hstill : w'.flushMu = true := hstill
      refine ⟨fun _ => ?_, fun _ => .inl hout⟩
      simpa [hsession] using hstill
    · exact ⟨fun h => absurd h hmu, fun _ => .inr (by simpa using hmu)⟩
  · refine ⟨fun h => ?_, fun h => absurd h.symm hsession⟩
    simpa [hsession] using hg h

variable {c : Pool Memory (List Frame)}

theorem start_eq_some {a : Act} {fs : List Frame} (h : system.start m a = some (m', fs)) :
    ∃ x b w' pc', exec (m.world x) .idle b = some (w', pc') ∧ m' = m.put x w' ∧ fs = frames x pc' := by
  cases a with
  | run a => cases h
  | call x call =>
    obtain ⟨⟨w', pc'⟩, hx, heq⟩ := Option.map_eq_some_iff.1 h
    cases heq
    exact ⟨x, .call call, w', pc', hx, rfl, rfl⟩

/-- A frame runs its next section, or its close handler makes a call. -/
theorem exec_eq_some {f : Frame} {a : Act} {fs : List Frame} (h : system.exec m f a = some (m', fs)) :
    (∃ b w' pc', exec (m.world f.session) f.pc b = some (w', pc') ∧ m' = m.put f.session w' ∧
      fs = frames f.session pc') ∨
    ∃ x call w' pc', InHandler f.pc = true ∧ Exported call = true ∧
      exec (m.world x) .idle (.call call) = some (w', pc') ∧ m' = m.put x w' ∧ fs = frames x pc' ++ [f] := by
  cases a with
  | run b =>
    obtain ⟨⟨w', pc'⟩, hx, heq⟩ := Option.map_eq_some_iff.1 h
    cases heq
    exact .inl ⟨b, w', pc', hx, rfl, rfl⟩
  | call x call =>
    obtain ⟨⟨hhandler, hcall⟩, h⟩ := Option.ite_none_right_eq_some.1 h
    obtain ⟨⟨w', pc'⟩, hx, heq⟩ := Option.map_eq_some_iff.1 h
    cases heq
    exact .inr ⟨x, call, w', pc', hhandler, hcall, hx, rfl, rfl⟩

theorem frames_apart : (frames x pc).Pairwise Frame.Apart := by
  unfold frames
  split
  · exact .nil
  · exact List.pairwise_singleton _ _

theorem holder_unique (hc : system.program.Reachable c) :
    (∀ i, ∀ f ∈ c.thread i, f.Holds c.shared) ∧
      ∀ i j, i ≠ j → ∀ f ∈ c.thread i, ∀ g ∈ c.thread j, f.Apart g := by
  have hidle (m : Memory) (x : Nat) : Frame.Holds m ⟨x, .idle⟩ := fun h => (by cases h)
  have hout := Frames.outline (F := system) (C := fun _ _ _ => True) (I := fun _ => True) (J := Frame.Holds)
    (K := Frame.Apart) (fun f g h hsession => (h hsession.symm).symm) (fun _ _ => trivial) ?_ ?_ hc
  · exact ⟨hout.2.1, hout.2.2.2⟩
  · intro m a m' fs _ _ hstart
    obtain ⟨x, b, w', pc', hx, rfl, rfl⟩ := start_eq_some hstart
    refine ⟨trivial, fun f hf => ?_, frames_apart, fun g hg => ?_⟩
    · rw [mem_frames hf]
      exact holds_section hx (hidle m x)
    · obtain ⟨hg', hapart⟩ := others_section hx hg fun _ => .inl rfl
      refine ⟨hg', fun f hf => ?_⟩
      rw [mem_frames hf]
      exact hapart
  · intro m f a m' fs _ _ hf hexec
    rcases exec_eq_some hexec with ⟨b, w', pc', hx, rfl, rfl⟩ | ⟨x, call, w', pc', -, -, hx, rfl, rfl⟩
    · refine ⟨trivial, fun f' hf' => ?_, frames_apart, fun g hg hfg => ?_⟩
      · rw [mem_frames hf']
        exact holds_section hx hf
      · obtain ⟨hg', hapart⟩ := others_section hx hg hfg
        refine ⟨hg', fun f' hf' => ?_⟩
        rw [mem_frames hf']
        exact hapart
    · obtain ⟨hf', hapart⟩ := others_section hx hf fun _ => .inl rfl
      refine ⟨trivial, fun f' hmem => ?_, ?_, fun g hg hfg => ?_⟩
      · rcases List.mem_append.1 hmem with hmem | hmem
        · rw [mem_frames hmem]
          exact holds_section hx (hidle m x)
        · rw [List.mem_singleton.1 hmem]
          exact hf'
      · refine List.pairwise_append.2 ⟨frames_apart, List.pairwise_singleton _ _, fun f' hf' g hg => ?_⟩
        rw [mem_frames hf', List.mem_singleton.1 hg]
        exact hapart
      · obtain ⟨hg', hapart⟩ := others_section hx hg fun _ => .inl rfl
        refine ⟨hg', fun f' hmem => ?_⟩
        rcases List.mem_append.1 hmem with hmem | hmem
        · rw [mem_frames hmem]
          exact hapart
        · rw [List.mem_singleton.1 hmem]
          exact hfg

/-- A taken lock has a holder. -/
theorem flushMu_held (hc : system.program.Reachable c) (hmu : (c.shared.world x).flushMu = true) :
    ∃ i, (locks c).holds i x := by
  -- a section of another session leaves the lock alone
  have hother {m : Memory} {y : Nat} {w' : World} {pc pc' : Pc} {b : Choice}
      (hx : exec (m.world y) pc b = some (w', pc')) (hmu : ((m.put y w').world x).flushMu = true) :
      ((m.world x).flushMu = true ∧ ¬ (y = x ∧ pc.stage.holdsMu = true)) ∨
        (y = x ∧ pc'.stage.holdsMu = true) := by
    by_cases hxy : y = x
    · subst hxy
      have hmu : w'.flushMu = true := by simpa using hmu
      by_cases hpc : pc.stage.holdsMu = true
      · exact .inr ⟨rfl, (exec_move hx).keeps hpc hmu⟩
      · exact ((exec_move hx).raises hmu).imp (fun hold => ⟨hold, fun h => hpc h.2⟩) fun h => ⟨rfl, h⟩
    · rw [put_world, Function.update_of_ne (Ne.symm hxy)] at hmu
      exact .inl ⟨hmu, fun h => hxy h.1⟩
  have hframe {y : Nat} {pc' : Pc} (fs : List Frame) (h : y = x ∧ pc'.stage.holdsMu = true) :
      ∃ f ∈ frames y pc' ++ fs, f.session = x ∧ f.pc.stage.holdsMu = true := by
    have hne : pc' ≠ .idle := fun heq => (by rw [heq] at h; cases h.2)
    exact ⟨⟨y, pc'⟩, by simp [frames, hne], h⟩
  refine Frames.owner (F := system) (C := fun _ _ _ => True) (H := fun m => (m.world x).flushMu = true)
    (O := fun f => f.session = x ∧ f.pc.stage.holdsMu = true) ?_ ?_ ?_ hc hmu
  · rintro m ⟨hfresh, -⟩ hmu
    obtain ⟨type, htype⟩ := hfresh x
    rw [htype] at hmu
    cases hmu
  · intro m a m' fs hstart hmu
    obtain ⟨y, b, w', pc', hx, rfl, rfl⟩ := start_eq_some hstart
    rcases hother hx hmu with ⟨hold, -⟩ | hnew
    · exact .inl hold
    · exact .inr (by simpa using hframe [] hnew)
  · intro c i f rest a m' fs _ _ _ hexec hmu
    rcases exec_eq_some hexec with ⟨b, w', pc', hx, rfl, rfl⟩ | ⟨y, call, w', pc', -, -, hx, rfl, rfl⟩
    · rcases hother hx hmu with hold | hnew
      · exact .inl hold
      · exact .inr (by simpa using hframe [] hnew)
    · rcases hother hx hmu with ⟨hold, -⟩ | hnew
      · by_cases hf : f.session = x ∧ f.pc.stage.holdsMu = true
        · exact .inr ⟨f, List.mem_append_right _ (List.mem_singleton.2 rfl), hf⟩
        · exact .inl ⟨hold, hf⟩
      · exact .inr (hframe _ hnew)

/-! ## The order of closing -/

/-- A recorded time is in the past, and its session is closed. -/
def Memory.Sound (m : Memory) : Prop :=
  ∀ x n, m.closedAt x = some n → n < m.clock ∧ (m.world x).sock.state = .closed

/-- The first session is closed, and the other one is not or was closed later. -/
def Memory.Before (m : Memory) (x y : Nat) : Prop :=
  ∃ n, m.closedAt x = some n ∧ ∀ k, m.closedAt y = some k → n < k

theorem sound_put (hm : m.Sound) (hclosed : (m.world x).sock.state = .closed → w.sock.state = .closed) :
    (m.put x w).Sound := by
  intro y n hn
  unfold Memory.put at hn ⊢
  by_cases hy : y = x
  · subst hy
    split at hn
    · next h =>
      rw [if_pos h]
      simp only [Function.update_self, Option.some.injEq] at hn ⊢
      exact ⟨by omega, h.2⟩
    · next h =>
      rw [if_neg h]
      simp only [Function.update_self]
      exact ⟨(hm y n hn).1, hclosed (hm y n hn).2⟩
  · split at hn
    · next h =>
      rw [if_pos h]
      simp only [Function.update_of_ne hy] at hn ⊢
      exact ⟨Nat.lt_succ_of_lt (hm y n hn).1, (hm y n hn).2⟩
    · next h =>
      rw [if_neg h]
      simp only [Function.update_of_ne hy]
      exact hm y n hn

theorem closedAt_put (hm : m.Sound) (y : Nat) :
    (m.put x w).closedAt y = m.closedAt y ∨
      m.closedAt y = none ∧ (m.put x w).closedAt y = some m.clock := by
  unfold Memory.put
  split
  · next h =>
    by_cases hy : y = x
    · subst hy
      refine .inr ⟨?_, Function.update_self ..⟩
      cases hn : m.closedAt y with
      | none => rfl
      | some n => exact absurd (hm y n hn).2 h.1
    · exact .inl (Function.update_of_ne hy ..)
  · exact .inl rfl

theorem isSome_put (hm : m.Sound) (h : (m.closedAt y).isSome) : ((m.put x w).closedAt y).isSome := by
  rcases closedAt_put hm (w := w) (x := x) y with heq | ⟨-, heq⟩
  · rw [heq]
    exact h
  · rw [heq]
    rfl

theorem before_put (hm : m.Sound) {z : Nat} (h : m.Before y z) : (m.put x w).Before y z := by
  obtain ⟨n, hn, hlater⟩ := h
  refine ⟨n, ?_, fun k hk => ?_⟩
  · rcases closedAt_put hm (w := w) (x := x) y with heq | ⟨hnone, -⟩
    · rw [heq, hn]
    · rw [hnone] at hn
      cases hn
  · rcases closedAt_put hm (w := w) (x := x) z with heq | ⟨-, heq⟩
    · exact hlater k (heq ▸ hk)
    · rw [heq] at hk
      cases hk
      exact (hm y n hn).1

/-- `closeWithReason` has claimed the teardown of the session. -/
def Torn : Pc → Bool
  | .teardown (.beginTeardown _ _) => false
  | .teardown _ => true
  | _ => false

def AtLock : Pc → Bool
  | .flush (.lock _) => true
  | _ => false

theorem atLock_eq_true (h : AtLock pc = true) : ∃ k, pc = .flush (.lock k) := by
  unfold AtLock at h
  split at h
  · exact ⟨_, rfl⟩
  · cases h

/-- The call was made by a close handler: one of `Send`, `Close` and `closeWithReason`. -/
def Nested : Pc → Bool
  | .send _ _ | .beginClose | .armCloseTimer => true
  | .flush pc => pc.cont.serving.isNone
  | .teardown pc => pc.return.serving.isNone
  | _ => false

theorem resume_nested {k : Cont} (hk : k.serving.isNone) : k.resume = .idle ∨ Nested k.resume = true := by
  cases k with
  | done => exact .inl rfl
  | close => exact .inr rfl
  | poll ch => cases hk

theorem execFlush_nested {pc : FlushPc} (hpc : pc.cont.serving.isNone)
    (hx : execFlush w pc a = some (w', pc')) : (pc' = .idle ∨ Nested pc' = true) ∧ AtLock pc' = false := by
  revert hx
  fun_cases execFlush w pc a <;> intro hx
  case case11 =>
    cases hx
    split
    · exact ⟨.inr hpc, rfl⟩
    · split <;> exact ⟨.inr hpc, rfl⟩
  case case12 k =>
    cases hx
    refine ⟨resume_nested hpc, ?_⟩
    cases k <;> rfl
  all_goals cases hx
  all_goals exact ⟨.inr hpc, rfl⟩

theorem execTeardown_nested {pc : TeardownPc} (hpc : pc.return.serving.isNone)
    (hx : execTeardown w pc a = some (w', pc')) : (pc' = .idle ∨ Nested pc' = true) ∧ AtLock pc' = false := by
  have hresume {r : Return} (hr : r.serving.isNone) :
      (r.resume = .idle ∨ Nested r.resume = true) ∧ AtLock r.resume = false := by
    cases r with
    | done => exact ⟨.inl rfl, rfl⟩
    | flush k => exact ⟨.inr hr, rfl⟩
  revert hx
  fun_cases execTeardown w pc a <;> intro hx
  case case1 =>
    cases hx
    exact hresume hpc
  case case6 =>
    cases hx
    exact hresume hpc
  all_goals cases hx
  all_goals exact ⟨.inr hpc, rfl⟩

/-- A nested call stays one until it returns, and turns to the lock of a session it has found not closed. -/
theorem exec_nested (hpc : Nested pc = true) (hx : exec w pc a = some (w', pc')) :
    (pc' = .idle ∨ Nested pc' = true) ∧ (AtLock pc' = true → w'.sock.state ≠ .closed) := by
  cases pc with
  | send data isBinary =>
    cases a with
    | go =>
      simp only [exec] at hx
      split at hx
      · cases hx
        exact ⟨.inl rfl, fun h => (by cases h)⟩
      · next s hs =>
        cases hx
        obtain ⟨hlive, rfl⟩ := ServerSocket.send_eq_some.1 hs
        refine ⟨.inr rfl, fun _ (hclosed : w.sock.state = .closed) => ?_⟩
        rw [hclosed] at hlive
        rcases hlive with h | h <;> cases h
    | _ => cases hx
  | beginClose =>
    cases a with
    | go =>
      simp only [exec] at hx
      split at hx
      · cases hx
        exact ⟨.inl rfl, fun h => (by cases h)⟩
      · next s hs =>
        cases hx
        obtain ⟨-, rfl⟩ := ServerSocket.beginClose_eq_some.1 hs
        refine ⟨.inr rfl, fun _ hclosed => ?_⟩
        cases hclosed
    | _ => cases hx
  | armCloseTimer =>
    cases a with
    | go =>
      cases hx
      exact ⟨.inl rfl, fun h => (by cases h)⟩
    | _ => cases hx
  | flush pc =>
    obtain ⟨hnested, hlock⟩ := execFlush_nested hpc hx
    exact ⟨hnested, fun h => (by rw [hlock] at h; cases h)⟩
  | teardown pc =>
    obtain ⟨hnested, hlock⟩ := execTeardown_nested hpc hx
    exact ⟨hnested, fun h => (by rw [hlock] at h; cases h)⟩
  | _ => cases hpc

/-- Only `closeWithReason` itself claims a teardown. -/
theorem exec_not_torn (hpc : ∀ pc₀, pc ≠ .teardown pc₀) (hx : exec w pc a = some (w', pc')) :
    Torn pc' = false := by
  revert hx
  fun_cases exec w pc a <;> intro hx
  case case1 c =>
    revert hx
    fun_cases startCall w c <;> intro hx <;> cases hx <;> rfl
  case case11 pc =>
    revert hx
    fun_cases execFlush w pc a <;> intro hx
    case case11 =>
      cases hx
      split
      · rfl
      · split <;> rfl
    case case12 k =>
      cases hx
      cases k <;> rfl
    all_goals cases hx
    all_goals rfl
  case case12 pc => exact absurd rfl (hpc pc)
  case case13 pc =>
    revert hx
    fun_cases execPoll w pc a <;> intro hx
    all_goals cases hx
    case case4.refl => split <;> rfl
    all_goals rfl
  case case14 pc =>
    revert hx
    fun_cases execUpgrade w pc a <;> intro hx
    all_goals cases hx
    case case6.refl => split <;> rfl
    all_goals rfl
  all_goals cases hx
  all_goals rfl

theorem exec_torn (hx : exec w pc a = some (w', pc')) (h : Torn pc' = true) :
    Torn pc = true ∨ w.sock.state ≠ .closed ∧ w'.sock.state = .closed := by
  cases pc with
  | teardown pc =>
    cases pc with
    | beginTeardown reason r =>
      cases a with
      | go =>
        simp only [exec, execTeardown] at hx
        split at hx
        · cases hx
          cases r <;> cases h
        · next s old probe stop hs =>
          cases hx
          obtain ⟨hlive, rfl, -⟩ := ServerSocket.beginTeardown_eq_some.1 hs
          exact .inr ⟨hlive, rfl⟩
      | _ => cases hx
    | _ => exact .inl rfl
  | _ =>
    rw [exec_not_torn (fun _ heq => (by cases heq)) hx] at h
    cases h

theorem exec_enabled (hpc : Nested pc = true ∨ pc.stage.holdsMu = true)
    (hfree : AtLock pc = true → w.flushMu = false) : ∃ a r, exec w pc a = some r := by
  cases pc with
  | send data isBinary =>
    refine ⟨.go, ?_⟩
    simp only [exec]
    split <;> exact ⟨_, rfl⟩
  | beginClose =>
    refine ⟨.go, ?_⟩
    simp only [exec]
    split <;> exact ⟨_, rfl⟩
  | armCloseTimer => exact ⟨.go, _, rfl⟩
  | flush pc =>
    cases pc with
    | lock k => exact ⟨.go, _, by rw [exec, execFlush, hfree rfl]; rfl⟩
    | writeFrames k packets => exact ⟨.written true, _, rfl⟩
    | beginFlush k =>
      refine ⟨.go, ?_⟩
      simp only [exec, execFlush]
      split <;> exact ⟨_, rfl⟩
    | send k t packets =>
      refine ⟨.go, ?_⟩
      simp only [exec, execFlush]
      split
      · split <;> exact ⟨_, rfl⟩
      · split <;> exact ⟨_, rfl⟩
    | endFlush k packets => exact ⟨.go, _, rfl⟩
    | unlock k => exact ⟨.go, _, rfl⟩
  | teardown pc =>
    refine ⟨.go, ?_⟩
    cases pc with
    | beginTeardown reason r =>
      simp only [exec, execTeardown]
      split <;> exact ⟨_, rfl⟩
    | _ => exact ⟨_, rfl⟩
  | _ => rcases hpc with h | h <;> cases h

/-! ## The stacks -/

/-- The frames below the innermost one: they are in close handlers. -/
def Under (m : Memory) : List Frame → Prop
  | [] => True
  | f :: rest => InHandler f.pc = true ∧ (m.closedAt f.session).isSome ∧
      (rest ≠ [] → Nested f.pc = true) ∧ Under m rest

def Stack (m : Memory) : List Frame → Prop
  | [] => True
  | f :: rest => (Torn f.pc = true → (m.closedAt f.session).isSome) ∧ (rest ≠ [] → Nested f.pc = true) ∧
      (AtLock f.pc = true → ∀ g ∈ rest, m.Before g.session f.session) ∧ Under m rest

theorem torn_of_inHandler (h : InHandler pc = true) : Torn pc = true := by
  unfold InHandler at h
  split at h
  · rfl
  · cases h

theorem not_atLock_of_inHandler (h : InHandler pc = true) : AtLock pc = false := by
  unfold InHandler at h
  split at h
  · rfl
  · cases h

theorem Under.stack {l : List Frame} (h : Under m l) : Stack m l := by
  cases l with
  | nil => trivial
  | cons f rest =>
    obtain ⟨hhandler, hclosed, hnested, hrest⟩ := h
    refine ⟨fun _ => hclosed, hnested, fun hlock => ?_, hrest⟩
    rw [not_atLock_of_inHandler hhandler] at hlock
    cases hlock

theorem Under.closed {l : List Frame} (h : Under m l) : ∀ g ∈ l, (m.closedAt g.session).isSome := by
  induction l with
  | nil => exact fun _ hg => absurd hg List.not_mem_nil
  | cons f rest ih =>
    obtain ⟨-, hclosed, -, hrest⟩ := h
    exact List.forall_mem_cons.2 ⟨hclosed, ih hrest⟩

theorem Under.put (hm : m.Sound) {l : List Frame} (h : Under m l) : Under (m.put x w) l := by
  induction l with
  | nil => trivial
  | cons f rest ih =>
    obtain ⟨hhandler, hclosed, hnested, hrest⟩ := h
    exact ⟨hhandler, isSome_put hm hclosed, hnested, ih hrest⟩

theorem Stack.put (hm : m.Sound) {l : List Frame} (h : Stack m l) : Stack (m.put x w) l := by
  cases l with
  | nil => trivial
  | cons f rest =>
    obtain ⟨htorn, hnested, hbefore, hrest⟩ := h
    exact ⟨fun h => isSome_put hm (htorn h), hnested, fun h g hg => before_put hm (hbefore h g hg), hrest.put hm⟩

theorem closed_section (hx : exec (m.world x) pc a = some (w', pc'))
    (hclosed : (m.world x).sock.state = .closed) : w'.sock.state = .closed :=
  (exec_move hx).closed hclosed

/-- The stack after a section of its innermost call. -/
theorem stack_section (hm : m.Sound) (rest : List Frame) (hx : exec (m.world x) pc a = some (w', pc'))
    (htorn : Torn pc = true → (m.closedAt x).isSome) (hnested : rest ≠ [] → Nested pc = true)
    (hrest : Under m rest) : Stack (m.put x w') (frames x pc' ++ rest) := by
  have hm' : (m.put x w').Sound := sound_put hm (closed_section hx)
  have hrest' : Under (m.put x w') rest := hrest.put hm
  unfold frames
  split
  · exact hrest'.stack
  · next hidle =>
    refine ⟨fun h => ?_, fun hne => ?_, fun hlock g hg => ?_, hrest'⟩
    · rcases exec_torn hx h with hold | ⟨hlive, hclosed⟩
      · exact isSome_put hm (htorn hold)
      · rw [Memory.put, if_pos ⟨hlive, hclosed⟩]
        simp
    · exact ((exec_nested (hnested hne) hx).1.resolve_left hidle)
    · -- the call has seen its session not closed, the handlers below it run for closed ones
      have hlive := (exec_nested (hnested (List.ne_nil_of_mem hg)) hx).2 hlock
      obtain ⟨n, hn⟩ := Option.isSome_iff_exists.1 (hrest'.closed g hg)
      refine ⟨n, hn, fun k hk => absurd (hm' x k hk).2 ?_⟩
      simpa using hlive

theorem exported_nested {call : Call} (hcall : Exported call = true)
    (hx : exec w .idle (.call call) = some (w', pc')) : Nested pc' = true ∧ AtLock pc' = false := by
  unfold Exported at hcall
  split at hcall
  · cases hx
    exact ⟨rfl, rfl⟩
  · cases hx
    exact ⟨rfl, rfl⟩
  · cases hx
    exact ⟨rfl, rfl⟩
  · cases hcall

/-- The stack after a call by a close handler. -/
theorem stack_call (hm : m.Sound) {f : Frame} {rest : List Frame} {call : Call} (h : Stack m (f :: rest))
    (hhandler : InHandler f.pc = true) (hcall : Exported call = true)
    (hx : exec (m.world x) .idle (.call call) = some (w', pc')) :
    Stack (m.put x w') (frames x pc' ++ f :: rest) := by
  obtain ⟨htorn, hnested, -, hrest⟩ := h
  have hunder : Under m (f :: rest) := ⟨hhandler, htorn (torn_of_inHandler hhandler), hnested, hrest⟩
  obtain ⟨hpc', hlock⟩ := exported_nested hcall hx
  unfold frames
  split
  · exact (hunder.put hm).stack
  · refine ⟨fun h => ?_, fun _ => hpc', fun h => ?_, hunder.put hm⟩
    · rw [exec_not_torn (fun _ heq => (by cases heq)) hx] at h
      cases h
    · rw [hlock] at h
      cases h

theorem reach_stack (hc : system.program.Reachable c) : c.shared.Sound ∧ ∀ i, Stack c.shared (c.thread i) := by
  refine hc.invariant (I := Memory.Sound) (J := Stack) ?_ ?_
  · rintro m ⟨-, hnone⟩
    refine ⟨fun x n h => ?_, trivial⟩
    rw [hnone x] at h
    cases h
  · intro c i a m' l' _ _ hm hstack hstep
    replace hstep : system.step c.shared (c.thread i) a = some (m', l') := hstep
    have hi := hstack i
    cases hl : c.thread i with
    | nil =>
      rw [hl] at hstep
      obtain ⟨x, b, w', pc', hx, rfl, rfl⟩ := start_eq_some hstep
      have hnew := stack_section hm [] hx (fun h => (by cases h)) (fun h => absurd rfl h) trivial
      rw [List.append_nil] at hnew
      exact ⟨sound_put hm (closed_section hx), hnew, fun j _ => (hstack j).put hm⟩
    | cons f rest =>
      rw [hl] at hstep hi
      obtain ⟨fs, hfs, rfl⟩ := Frames.step_cons hstep
      rcases exec_eq_some hfs with ⟨b, w', pc', hx, rfl, rfl⟩ | ⟨x, call, w', pc', hhandler, hcall, hx, rfl, rfl⟩
      · exact ⟨sound_put hm (closed_section hx), stack_section hm rest hx hi.1 hi.2.1 hi.2.2.2,
          fun j _ => (hstack j).put hm⟩
      · rw [List.append_assoc]
        exact ⟨sound_put hm (closed_section hx), stack_call hm hi hhandler hcall hx,
          fun j _ => (hstack j).put hm⟩

/-! ## Main result -/

/-- How long a session has been closed. -/
def Memory.age (m : Memory) (x : Nat) : Nat := ((m.closedAt x).map (m.clock - ·)).getD 0

theorem waits_eq_some {i : Nat} (h : (locks c).waits i = some y) :
    ∃ k rest, c.thread i = ⟨y, .flush (.lock k)⟩ :: rest ∧ (c.shared.world y).flushMu = true := by
  unfold locks at h
  simp only at h
  split at h
  · next z k rest hl =>
    obtain ⟨hmu, heq⟩ := Option.ite_none_right_eq_some.1 h
    cases heq
    exact ⟨k, rest, hl, hmu⟩
  · cases h

theorem locks_ranked (hc : system.program.Reachable c) : (locks c).Ranked c.shared.age := by
  obtain ⟨hm, hstack⟩ := reach_stack hc
  rintro i x y ⟨f, hf, rfl, hholds⟩ hwaits
  obtain ⟨k, rest, hl, -⟩ := waits_eq_some hwaits
  have hi := hstack i
  rw [hl] at hf hi
  rcases List.mem_cons.1 hf with rfl | hf
  · cases hholds
  · obtain ⟨n, hn, hlater⟩ := hi.2.2.1 rfl f hf
    have hpast := (hm f.session n hn).1
    unfold Memory.age
    rw [hn]
    cases hy : c.shared.closedAt y with
    | none => simpa using hpast
    | some n' =>
      have hlt : n < n' := hlater n' hy
      simp only [Option.map_some, Option.getD_some]
      omega

/-- A goroutine that has a lock and does not wait for one can go on. -/
theorem free_steps (hc : system.program.Reachable c) {i : Nat} (hholds : (locks c).holds i x)
    (hwaits : (locks c).waits i = none) : ∃ a c', system.program.step c i a = some c' := by
  obtain ⟨-, hstack⟩ := reach_stack hc
  obtain ⟨f, hf, -, hmu⟩ := hholds
  have hi := hstack i
  cases hl : c.thread i with
  | nil =>
    rw [hl] at hf
    cases hf
  | cons g rest =>
    rw [hl] at hf hi
    have hpc : Nested g.pc = true ∨ g.pc.stage.holdsMu = true := by
      rcases List.mem_cons.1 hf with rfl | hf
      · exact .inr hmu
      · exact .inl (hi.2.1 (List.ne_nil_of_mem hf))
    have hfree : AtLock g.pc = true → (c.shared.world g.session).flushMu = false := by
      intro hlock
      obtain ⟨k, hk⟩ := atLock_eq_true hlock
      have hg : g = ⟨g.session, .flush (.lock k)⟩ := by rw [← hk]
      rw [hg] at hl
      simpa [locks, hl] using hwaits
    obtain ⟨a, r, hx⟩ := exec_enabled hpc hfree
    have hstep : system.step c.shared (c.thread i) (.run a) =
        some (c.shared.put g.session r.1, frames g.session r.2 ++ rest) := by
      rw [hl]
      simp [Frames.step, system, hx]
    exact ⟨.run a, _, Program.step_of_exec hstep⟩

/-- **No deadlock among close handlers.** For any number of sessions and goroutines, and close handlers that
    call `Send` and `Close` of any sessions and `Server.Close` however deep: a `flushMu` never has two holders,
    goroutines never wait for each other's `flushMu` in a circle (nor one for its own), and behind every goroutine
    that waits for one there is a goroutine that can run. -/
theorem flushMu_deadlock_free (hc : system.program.Reachable c) :
    (∀ i j x, (locks c).holds i x → (locks c).holds j x → i = j) ∧
    (∀ i, ¬ Relation.TransGen (locks c).Blocks i i) ∧
    ∀ i x, (locks c).waits i = some x →
      ∃ j a c', Relation.TransGen (locks c).Blocks i j ∧ system.program.step c j a = some c' := by
  have hranked := locks_ranked hc
  refine ⟨fun i j x hi hj => ?_, hranked.acyclic, fun i x hi => ?_⟩
  · obtain ⟨f, hf, hfx, hfmu⟩ := hi
    obtain ⟨g, hg, hgx, hgmu⟩ := hj
    by_contra hij
    have hapart := (holder_unique hc).2 i j hij f hf g hg (hfx.trans hgx.symm)
    rw [Stage.Exclusive, hfmu, hgmu] at hapart
    rcases hapart with h | h <;> cases h
  · have howned : ∀ i x, (locks c).waits i = some x → ∃ j, (locks c).holds j x := by
      intro i x hi
      obtain ⟨-, -, -, hmu⟩ := waits_eq_some hi
      exact flushMu_held hc hmu
    obtain ⟨j, y, hchain, hholds, hfree⟩ := hranked.exists_free howned hi
    obtain ⟨a, c', hstep⟩ := free_steps hc hholds hfree
    exact ⟨j, a, c', hchain, hstep⟩

/-- A message whose write is under way on a session, by a goroutine of its own. -/
def writeOn (i x : Nat) : List (Nat × Act) :=
  [(i, .call x .open), (i, .run .go), (i, .call x (.send [97] false)), (i, .run .go), (i, .run .go),
    (i, .run .go), (i, .run .go)]

/-- The write fails, and the session is closed under its `flushMu`. -/
def failWrite (i : Nat) : List (Nat × Act) :=
  [(i, .run (.written false)), (i, .run .go), (i, .run .go), (i, .run .go), (i, .run .go)]

/-- The close handlers of two sessions send to each other: one waits for the other, which does not wait. -/
theorem flushMu_deadlock_free_crossed :
    ∃ c, system.program.Reachable c ∧ (locks c).waits 0 = some 1 ∧ (locks c).holds 0 0 ∧ (locks c).holds 1 1 ∧
      (c.thread 1).head? = some ⟨0, .send [99] false⟩ ∧
      ∃ j a c', Relation.TransGen (locks c).Blocks 0 j ∧ system.program.step c j a = some c' := by
  have hrun : ∃ c, system.program.run ⟨{ world := fun _ => freshWebSocket.shared }, fun _ => []⟩
      (writeOn 0 0 ++ writeOn 1 1 ++ failWrite 0 ++ [(0, .call 1 (.send [98] false)), (0, .run .go)] ++
        failWrite 1 ++ [(1, .call 0 (.send [99] false))]) = some c ∧
      c.thread 0 = [⟨1, .flush (.lock .done)⟩, ⟨0, .teardown (.closeHandler .transportError (.flush .done))⟩] ∧
      c.thread 1 = [⟨0, .send [99] false⟩, ⟨1, .teardown (.closeHandler .transportError (.flush .done))⟩] ∧
      (c.shared.world 1).flushMu = true :=
    ⟨_, rfl, rfl, rfl, rfl⟩
  obtain ⟨c, hrun, hzero, hone, hmu⟩ := hrun
  have hinit : system.init { world := fun _ => freshWebSocket.shared } :=
    ⟨fun _ => ⟨.websocket, rfl⟩, fun _ => rfl⟩
  have hc : system.program.Reachable c := Program.Reachable.run (.init hinit) hrun
  have hwaits : (locks c).waits 0 = some 1 := by simp [locks, hzero, hmu]
  refine ⟨c, hc, hwaits, ⟨_, by rw [hzero]; exact .tail _ (.head _), rfl, rfl⟩,
    ⟨_, by rw [hone]; exact .tail _ (.head _), rfl, rfl⟩, by rw [hone]; rfl,
    (flushMu_deadlock_free hc).2.2 0 1 hwaits⟩

end FlushLocks

end EngineIo.Server
