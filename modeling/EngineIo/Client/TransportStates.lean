import EngineIo.Codec.Payload
import EngineIo.Codec.WebTransportStream
import EngineIo.Concurrency.Counter
import EngineIo.Transport

set_option autoImplicit false

/-! # The states of a client transport (`socket_transport_*.go`)

`Open`, `Close` and `Pause` of the three client transports, the dial, the polls and the read loops, section
by section. Opening is asynchronous: the dial, or the poll that brings the open packet, ends in `onOpen`,
which marks the transport open without looking at its state. A `Close` that runs in between has closed the
transport and told the close handler; `onOpen` then reopens it, and the next close tells the handler again.
On long polling `Pause` writes its last state in the same way.

These are the only sections that lead out of the closed state, apart from a new `Open`. Where they do not
run on a closed transport, it stays closed until the next `Open`, and is closed once between two of them. -/

namespace EngineIo.Client.TransportStates

open Concurrency

/-! ## Model -/

/-- A transport. `conn` is the websocket connection, or the webtransport session with its stream; polling has
    none. The last four fields are history. -/
structure State where
  state : TransportState := .closed
  conn : Option Nat := none
  pollMu : Bool := false
  pollWG : Nat := 0
  /-- Polls and read loops that were started and do not run yet. -/
  spawned : Nat := 0
  dials : Nat := 0
  /-- How often `Open` has claimed the opening transition. -/
  opens : Nat := 0
  /-- For each time `onClose` closed the transport, the `Open` it belongs to. -/
  closes : List Nat := []
  /-- The same for each call of the close handler. -/
  closeRuns : List Nat := []
deriving DecidableEq, Repr

inductive Frame
  /- `Open` -/
  | beginOpen
  | dial
  | openStream (conn : Nat)
  | failOpen
  | install (conn : Nat)
  | writeOpen
  | goReadLoop
  /- `onOpen` and `onClose` -/
  | onOpen
  | onClose
  | closeHandler (n : Nat)
  /-- A handler of the application, which may call the transport. -/
  | handler
  /- `Close` -/
  | close
  | closeSend
  | beginClose
  | closeLock
  | closeUnlock
  /- `Pause` -/
  | beginPause
  | pauseLock
  | pauseMark
  | pauseUnlock
  | pauseWait
  /- `poll` and `onData` -/
  | pollLock
  | pollCheck
  | pollRequest
  | onData (packets : List Packet)
  | pollDone
  /- `readLoop` -/
  | readLoop
  | read
deriving DecidableEq, Repr

inductive Call
  | open
  | close
  | pause
deriving DecidableEq, Repr

inductive Choice
  | go
  | call (c : Call)
  /-- Run a poll or a read loop that was started. -/
  | spawned
  /-- A dial, or the opening of a stream, succeeded or failed. -/
  | dialled (ok : Bool)
  | sent (ok : Bool)
  /-- The body of a poll's response; there is none if the request failed or its status was not 200. -/
  | polled (body : Option (List UInt8))
  /-- A websocket frame, or a failed read. -/
  | frame (frame : Option EngineIo.Frame)
  /-- The bytes from which the next webtransport packet is read. -/
  | stream (bytes : List UInt8)
  /-- Closing the connection failed. -/
  | failed
deriving DecidableEq, Repr

/-- The transports on which `Close` acts, which are polled, and which can be paused. -/
def State.running (s : State) : Bool := s.state = .opening || s.state = .open

/-- The states in which a failed read is expected. -/
def State.deliberate (s : State) : Bool := s.state = .closing || s.state = .closed

section

variable (type : TransportType)

def Call.frames : Call → List Frame
  | .open => [.beginOpen]
  | .close => [.close]
  | .pause => if type = .polling then [.beginPause] else []

/-- A call taken up by an idle goroutine. -/
def start (s : State) : Choice → Option (State × List Frame)
  | .call c => some (s, c.frames type)
  | .spawned =>
    if s.spawned = 0 then none
    else
      some ({ s with spawned := s.spawned - 1 },
        [if type = .polling then .pollLock else .readLoop])
  | _ => none

/-- `Open`, and the application's handlers. -/
def execOpen (s : State) : Frame → Choice → Option (State × List Frame)
  | .beginOpen, .go =>
    if s.state ≠ .closed then some (s, [])
    else
      some ({ s with state := .opening, opens := s.opens + 1 },
        [if type = .polling then .pollLock else .dial])
  | .dial, .dialled true =>
    some ({ s with dials := s.dials + 1 },
      [if type = .webtransport then .openStream s.dials else .install s.dials])
  | .dial, .dialled false => some (s, [.failOpen])
  | .openStream conn, .dialled true => some (s, [.install conn])
  | .openStream _, .dialled false => some (s, [.failOpen])
  | .failOpen, .go => some ({ s with state := .closed }, [.handler])
  | .install conn, .go =>
    some ({ s with conn := some conn },
      if type = .webtransport then [.writeOpen] else [.onOpen, .goReadLoop])
  | .writeOpen, .sent true => some (s, [.onOpen, .goReadLoop])
  | .writeOpen, .sent false => if s.conn = none then none else some (s, [.handler, .onClose])
  | .goReadLoop, .go => some ({ s with spawned := s.spawned + 1 }, [])
  | .onOpen, .go =>
    -- whatever the state is
    some ({ s with state := .open }, [.handler])
  | .handler, .go => some (s, [])
  | .handler, .call c => some (s, c.frames type ++ [.handler])
  | _, _ => none

/-- What `Close` does after the close packet. -/
def closeRest : Frame := if type = .polling then .beginClose else .onClose

/-- `Close` and `onClose`. -/
def execClose (s : State) : Frame → Choice → Option (State × List Frame)
  | .close, .go => some (s, if s.running then [.closeSend] else [])
  | .closeSend, .sent true => some (s, [closeRest type])
  | .closeSend, .sent false =>
    -- a transport that is not open drops the packet and reports success
    if s.state = .open then some (s, [.handler, closeRest type]) else none
  | .beginClose, .go =>
    if s.state = .closed then some (s, []) else some ({ s with state := .closing }, [.closeLock])
  | .closeLock, .go =>
    if s.pollMu then none else some ({ s with pollMu := true }, [.onClose, .closeUnlock])
  | .closeUnlock, .go => some ({ s with pollMu := false }, [])
  | .onClose, .go =>
    if s.state = .closed then some (s, [])
    else
      some ({ s with state := .closed, conn := none, closes := s.closes ++ [s.opens] },
        [.closeHandler s.opens])
  | .onClose, .failed =>
    if s.state = .closed ∨ s.conn = none then none
    else
      some ({ s with state := .closed, conn := none, closes := s.closes ++ [s.opens] },
        [.handler, .closeHandler s.opens])
  | .closeHandler n, .go => some ({ s with closeRuns := s.closeRuns ++ [n] }, [.handler])
  | _, _ => none

/-- `Pause` of the polling transport. -/
def execPause (s : State) : Frame → Choice → Option (State × List Frame)
  | .beginPause, .go =>
    if s.running then some ({ s with state := .pausing }, [.pauseLock]) else some (s, [])
  | .pauseLock, .go =>
    if s.pollMu then none else some ({ s with pollMu := true }, [.pauseMark])
  | .pauseMark, .go =>
    -- the state is not tested again
    some ({ s with state := .paused }, [.pauseUnlock])
  | .pauseUnlock, .go => some ({ s with pollMu := false }, [.pauseWait])
  | .pauseWait, .go => if s.pollWG = 0 then some (s, []) else none
  | _, _ => none

/-- A poll has its answer: its dispatch is recorded on `pollWG` before `pollMu` is released. -/
def State.beginDispatch (s : State) : State := { s with pollWG := s.pollWG + 1, pollMu := false }

/-- `poll` and `onData` of the polling transport. -/
def execPoll (s : State) : Frame → Choice → Option (State × List Frame)
  | .pollLock, .go => if s.pollMu then none else some ({ s with pollMu := true }, [.pollCheck])
  | .pollCheck, .go =>
    if s.running then some (s, [.pollRequest]) else some ({ s with pollMu := false }, [])
  | .pollRequest, .polled none => some (s.beginDispatch, [.handler, .pollDone])
  | .pollRequest, .polled (some []) => some (s.beginDispatch, [.pollDone])
  | .pollRequest, .polled (some data) =>
    match decodePayload 4 data with
    | .error _ => some (s.beginDispatch, [.handler, .pollDone])
    | .ok packets => some (s.beginDispatch, [.onData packets, .pollDone])
  | .onData [], .go =>
    some (if s.state = .open then { s with spawned := s.spawned + 1 } else s, [])
  | .onData (p :: ps), .go =>
    if p.type = .open ∧ s.state = .opening then some (s, [.onOpen, .handler, .onData ps])
    else if p.type = .close ∧ s.state ≠ .closed then some (s, [.onClose, .handler, .onData ps])
    else some (s, [.handler, .onData ps])
  | .pollDone, .go => some ({ s with pollWG := s.pollWG - 1 }, [])
  | _, _ => none

/-- What `readLoop` does with a packet. -/
def dispatch (p : Packet) : List Frame :=
  if p.type = .close then [.handler, .onClose] else [.handler, .readLoop]

/-- What `readLoop` does about a read that failed. -/
def State.readFailed (s : State) : List Frame :=
  if s.deliberate then [.onClose] else [.handler, .onClose]

/-- `readLoop` of the websocket and of the webtransport transport. -/
def execRead (s : State) : Frame → Choice → Option (State × List Frame)
  | .readLoop, .go => some (s, if s.conn = none ∨ s.deliberate then [] else [.read])
  | .read, .frame none => if type = .websocket then some (s, s.readFailed) else none
  | .read, .frame (some frame) =>
    if type = .websocket then
      match decodeWebSocketFrame frame with
      | .error _ => some (s, [.handler, .readLoop])
      | .ok p => some (s, dispatch p)
    else none
  | .read, .stream bytes =>
    if type = .webtransport then
      match (readWebTransportPacket webTransportReadLimit bytes).1 with
      | .ok p => some (s, dispatch p)
      | .error (.error _) => some (s, s.readFailed)
      | .error _ => none
    else none
  | _, _ => none

def exec (s : State) (f : Frame) (a : Choice) : Option (State × List Frame) :=
  match f with
  | .beginOpen | .dial | .openStream _ | .failOpen | .install _ | .writeOpen | .goReadLoop | .onOpen
  | .handler => execOpen type s f a
  | .close | .closeSend | .beginClose | .closeLock | .closeUnlock | .onClose | .closeHandler _ =>
    execClose type s f a
  | .beginPause | .pauseLock | .pauseMark | .pauseUnlock | .pauseWait => execPause s f a
  | .pollLock | .pollCheck | .pollRequest | .onData _ | .pollDone => execPoll s f a
  | .readLoop | .read => execRead type s f a

/-- Any number of goroutines on a new transport. -/
def frames : Frames State Frame Choice where
  init s := s = {}
  start := start type
  exec := exec type

end

/-- The sections that write their state over whatever is there do not run on a closed transport. -/
def orderly (s : State) (f : Option Frame) : Bool :=
  match f with
  | some .onOpen | some .pauseMark => s.state ≠ .closed
  | _ => true

def Orderly (s : State) (f : Option Frame) (_ : Choice) : Prop := orderly s f = true

instance (s : State) (f : Option Frame) (a : Choice) : Decidable (Orderly s f a) := by
  unfold Orderly
  infer_instance

/-! ## The life of a transport -/

structure Life where
  state : TransportState
  opens : Nat
  closes : List Nat
  closeRuns : List Nat

def State.life (s : State) : Life := ⟨s.state, s.opens, s.closes, s.closeRuns⟩

@[simp] theorem State.life_state (s : State) : s.life.state = s.state := rfl

/-- What a section can do; the indices are the calls of the close handler that the frame owes before and
    after it. -/
inductive LifeStep (v : Life) : List Nat → Life → List Nat → Prop
  | keep : LifeStep v [] v []
  | open (h : v.state = .closed) :
      LifeStep v [] { v with state := .opening, opens := v.opens + 1 } []
  | live (state : TransportState) (h : v.state ≠ .closed) (hstate : state ≠ .closed) :
      LifeStep v [] { v with state } []
  | fail : LifeStep v [] { v with state := .closed } []
  | close (h : v.state ≠ .closed) :
      LifeStep v [] { v with state := .closed, closes := v.closes ++ [v.opens] } [v.opens]
  | report (n : Nat) : LifeStep v [n] { v with closeRuns := v.closeRuns ++ [n] } []

variable {v v' : Life} {d d' : List Nat}

/-- The close handler runs once for each time the transport is closed. -/
theorem LifeStep.balance (h : LifeStep v d v' d') (n : Nat) :
    d'.count n + v'.closeRuns.count n + v.closes.count n ≤
      d.count n + v.closeRuns.count n + v'.closes.count n := by
  cases h with
  | close | report =>
    simp only [List.count_append, List.count_nil]
    omega
  | _ => exact Nat.le_refl _

/-- A transport is closed once for each `Open`, and is closed then. -/
structure Life.Sound (v : Life) : Prop where
  nodup : v.closes.Nodup
  le : ∀ n ∈ v.closes, n ≤ v.opens
  closed : v.opens ∈ v.closes → v.state = .closed

theorem LifeStep.sound (h : LifeStep v d v' d') (hv : v.Sound) : v'.Sound := by
  cases h with
  | keep => exact hv
  | «open» _ =>
    refine ⟨hv.nodup, fun n hn => Nat.le_succ_of_le (hv.le n hn), fun hmem => ?_⟩
    exact absurd (hv.le _ hmem) (Nat.not_succ_le_self _)
  | live state hlive _ => exact ⟨hv.nodup, hv.le, fun hmem => absurd (hv.closed hmem) hlive⟩
  | fail => exact ⟨hv.nodup, hv.le, fun _ => rfl⟩
  | close hlive =>
    have hnew : v.opens ∉ v.closes := fun hmem => hlive (hv.closed hmem)
    refine ⟨?_, ?_, fun _ => rfl⟩
    · exact List.nodup_append.2 ⟨hv.nodup, List.nodup_singleton _, fun n hn m hm hnm => by
        rw [List.mem_singleton.1 hm] at hnm
        exact hnew (hnm ▸ hn)⟩
    · intro n hn
      rcases List.mem_append.1 hn with hold | hnew
      · exact hv.le n hold
      · exact (List.mem_singleton.1 hnew).le
  | report n => exact ⟨hv.nodup, hv.le, hv.closed⟩

/-- Closed since the `Open` number `n`, unless there was another. -/
def Life.ClosedSince (n : Nat) (v : Life) : Prop := n < v.opens ∨ v.opens = n ∧ v.state = .closed

theorem LifeStep.closedSince {n : Nat} (h : LifeStep v d v' d') (hv : v.ClosedSince n) :
    v'.ClosedSince n := by
  rcases hv with hlt | ⟨heq, hclosed⟩
  · cases h with
    | «open» _ => exact .inl (Nat.lt_succ_of_lt hlt)
    | _ => exact .inl hlt
  · cases h with
    | keep => exact .inr ⟨heq, hclosed⟩
    | «open» _ => exact .inl (heq ▸ Nat.lt_succ_self _)
    | live _ hlive _ => exact absurd hclosed hlive
    | fail => exact .inr ⟨heq, rfl⟩
    | close hlive => exact absurd hclosed hlive
    | report n => exact .inr ⟨heq, hclosed⟩

/-! ## The transports live it -/

/-- The call of the close handler that a frame is about to make. -/
def Frame.owes : Frame → List Nat
  | .closeHandler n => [n]
  | _ => []

variable {type : TransportType} {s s' : State} {f : Frame} {a : Choice} {fs : List Frame}

theorem Call.frames_owes (c : Call) : (c.frames type).flatMap Frame.owes = [] := by
  cases c with
  | pause =>
    by_cases htype : type = .polling
    · simp [Call.frames, htype, Frame.owes]
    · simp [Call.frames, htype]
  | _ => rfl

theorem start_life (h : start type s a = some (s', fs)) :
    LifeStep s.life [] s'.life (fs.flatMap Frame.owes) := by
  revert h
  fun_cases start type s a <;> intro h <;> cases h
  · rw [Call.frames_owes]
    exact .keep
  · split <;> exact .keep

theorem execOpen_life (h : execOpen type s f a = some (s', fs)) (hC : orderly s (some f) = true) :
    LifeStep s.life f.owes s'.life (fs.flatMap Frame.owes) := by
  revert h
  fun_cases execOpen type s f a <;> intro h <;> cases h
  · exact .keep
  · next hclosed =>
    have hstate : s.life.state = .closed := not_not.1 hclosed
    split <;> exact .open hstate
  · split <;> exact .keep
  · exact .keep
  · exact .keep
  · exact .keep
  · exact .fail
  · split <;> exact .keep
  · exact .keep
  · exact .keep
  · exact .keep
  · exact .live .open (by simpa [orderly] using hC) (by simp)
  · exact .keep
  · next c =>
    rw [List.flatMap_append, Call.frames_owes]
    exact .keep

theorem execClose_life (h : execClose type s f a = some (s', fs)) :
    LifeStep s.life f.owes s'.life (fs.flatMap Frame.owes) := by
  revert h
  fun_cases execClose type s f a <;> intro h <;> cases h
  · split <;> exact .keep
  · unfold closeRest
    split <;> exact .keep
  · unfold closeRest
    split <;> exact .keep
  · exact .keep
  · next hlive => exact .live .closing hlive (by simp)
  · exact .keep
  · exact .keep
  · exact .keep
  · next hlive => exact .close hlive
  · next hlive => exact .close (not_or.1 hlive).1
  · next n => exact .report n

theorem execPause_life (h : execPause s f a = some (s', fs)) (hC : orderly s (some f) = true) :
    LifeStep s.life f.owes s'.life (fs.flatMap Frame.owes) := by
  revert h
  fun_cases execPause s f a <;> intro h <;> cases h
  · next hrunning =>
    refine .live .pausing (fun hclosed => ?_) (by simp)
    simp [State.running, show s.state = .closed from hclosed] at hrunning
  · exact .keep
  · exact .keep
  · exact .live .paused (by simpa [orderly] using hC) (by simp)
  · exact .keep
  · exact .keep

theorem execPoll_life (h : execPoll s f a = some (s', fs)) :
    LifeStep s.life f.owes s'.life (fs.flatMap Frame.owes) := by
  revert h
  fun_cases execPoll s f a <;> intro h <;> cases h
  case case9 => split <;> exact .keep
  all_goals exact .keep

theorem dispatch_owes (p : Packet) : (dispatch p).flatMap Frame.owes = [] := by
  unfold dispatch
  split <;> rfl

theorem State.readFailed_owes (s : State) : s.readFailed.flatMap Frame.owes = [] := by
  unfold State.readFailed
  split <;> rfl

theorem execRead_life (h : execRead type s f a = some (s', fs)) :
    LifeStep s.life f.owes s'.life (fs.flatMap Frame.owes) := by
  revert h
  fun_cases execRead type s f a <;> intro h <;> cases h
  · split <;> exact .keep
  · rw [State.readFailed_owes]
    exact .keep
  · exact .keep
  · rw [dispatch_owes]
    exact .keep
  · rw [dispatch_owes]
    exact .keep
  · rw [State.readFailed_owes]
    exact .keep

theorem exec_life (h : exec type s f a = some (s', fs)) (hC : orderly s (some f) = true) :
    LifeStep s.life f.owes s'.life (fs.flatMap Frame.owes) := by
  unfold exec at h
  split at h
  all_goals first
    | exact execOpen_life h hC
    | exact execClose_life h
    | exact execPause_life h hC
    | exact execPoll_life h
    | exact execRead_life h

/-- A step of a goroutine is a step of the transport's life. -/
theorem step_life {l l' : List Frame} (h : (frames type).step s l a = some (s', l'))
    (hC : Frames.When Orderly s l a) :
    ∃ d d' rest, LifeStep s.life d s'.life d' ∧ l.flatMap Frame.owes = d ++ rest ∧
      l'.flatMap Frame.owes = d' ++ rest := by
  cases l with
  | nil => exact ⟨_, _, [], start_life h, rfl, (List.append_nil _).symm⟩
  | cons f rest =>
    obtain ⟨fs, hfs, rfl⟩ := Frames.step_cons h
    exact ⟨_, _, rest.flatMap Frame.owes, exec_life hfs hC, List.flatMap_cons, List.flatMap_append⟩

theorem life_sound {c : Pool State (List Frame)}
    (hc : (frames type).program.Reach (Frames.When Orderly) c) : c.shared.life.Sound := by
  refine (hc.invariant (I := fun s => s.life.Sound) (J := fun _ _ => True) ?_ ?_).1
  · rintro s rfl
    refine ⟨⟨List.nodup_nil, ?_, ?_⟩, trivial⟩
    · intro n hn
      cases hn
    · intro hmem
      cases hmem
  · intro c i a s' l' _ hC hI _ hx
    obtain ⟨d, d', rest, hstep, -, -⟩ := step_life hx hC
    exact ⟨hstep.sound hI, trivial, fun _ _ => trivial⟩

/-- No more calls of the close handler for an `Open` than times the transport was closed for it. -/
theorem closeRuns_count_le {c : Pool State (List Frame)}
    (hc : (frames type).program.Reach (Frames.When Orderly) c) (n : Nat) :
    c.shared.closeRuns.count n ≤ c.shared.closes.count n := by
  have hunits := hc.counter (A := fun s => s.closeRuns.count n) (N := fun s => s.closes.count n)
    (W := fun l => (l.flatMap Frame.owes).count n) rfl (by rintro s rfl; exact Nat.le_refl _) ?_ ∅
  · simpa using hunits
  · intro s l a s' l' hC hx
    obtain ⟨d, d', rest, hstep, hl, hl'⟩ := step_life hx hC
    have hbalance := hstep.balance n
    simp only [hl, hl', List.count_append]
    simp only [State.life] at hbalance
    omega

/-- **Client transports close once and stay closed.** Each of the three transports, with any calls of `Open`,
    `Close` and `Pause` on any number of goroutines and from its handlers, any outcome of dials and polls and
    any frames: where `onOpen` and the last section of `Pause` do not run on a closed transport, it is open
    again after it was closed only after a new `Open`, and the close handler is called at most once for each
    `Open`. -/
theorem closes_once_and_stays_closed (type : TransportType) (c : Pool State (List Frame))
    (hc : (frames type).program.Reach (Frames.When Orderly) c) :
    c.shared.closeRuns.Nodup ∧
      ∀ as c', (frames type).program.runIf (Frames.When Orderly) c as = some c' →
        c.shared.state = .closed → c'.shared.state = .open → c.shared.opens < c'.shared.opens := by
  refine ⟨List.nodup_iff_count_le_one.2 fun n => ?_, fun as c' hrun hclosed hopen => ?_⟩
  · exact (closeRuns_count_le hc n).trans (List.nodup_iff_count_le_one.1 (life_sound hc).nodup n)
  · have hsince : c'.shared.life.ClosedSince c.shared.opens := by
      refine Program.runIf_keeps (I := fun s => s.life.ClosedSince c.shared.opens) ?_ (.inr ⟨rfl, hclosed⟩) hrun
      intro s l a s' l' hC hI hx
      obtain ⟨d, d', rest, hstep, -, -⟩ := step_life hx hC
      exact hstep.closedSince hI
    rcases hsince with hlt | ⟨-, hstate⟩
    · exact hlt
    · rw [State.life_state, hopen] at hstate
      cases hstate

/-! ## Runs -/

/-- A new transport, closed as yet. -/
def unopened : Pool State (List Frame) := ⟨{}, fun _ => []⟩

theorem unopened_reach {C : State → List Frame → Choice → Prop} :
    (frames type).program.Reach C unopened := .init rfl

/-- Goroutine `i` calls `Open`, up to `onOpen`; a poll brings the open packet. -/
def openBy (i : Nat) : TransportType → List (Nat × Choice)
  | .websocket => [(i, Choice.call .open), (i, .go), (i, .dialled true), (i, .go)]
  | .webtransport =>
    [(i, Choice.call .open), (i, .go), (i, .dialled true), (i, .dialled true), (i, .go), (i, .sent true)]
  | .polling =>
    [(i, Choice.call .open), (i, .go), (i, .go), (i, .go), (i, .polled (some [48])), (i, .go)]

/-- Goroutine `i` calls `Close`, up to the end of the close handler. -/
def closeBy (i : Nat) (type : TransportType) : List (Nat × Choice) :=
  [(i, Choice.call .close), (i, .go), (i, .sent true)] ++
    List.replicate (if type = .polling then 6 else 3) (i, Choice.go)

theorem closes_once_and_stays_closed_websocket :
    ∃ c c', (frames .websocket).program.Reach (Frames.When Orderly) c ∧ c.shared.state = .closed ∧
      c.shared.closeRuns = [1] ∧ c.shared.closeRuns.Nodup ∧
      (frames .websocket).program.runIf (Frames.When Orderly) c
        (openBy 2 .websocket ++ [(2, .go)]) = some c' ∧
      c'.shared.state = .open ∧ c.shared.opens < c'.shared.opens := by
  have hrun : ∃ c c', (frames .websocket).program.runIf (Frames.When Orderly) unopened
      (openBy 0 .websocket ++ [(0, Choice.go)] ++ closeBy 1 .websocket) = some c ∧
      c.shared.state = .closed ∧ c.shared.closeRuns = [1] ∧
      (frames .websocket).program.runIf (Frames.When Orderly) c
        (openBy 2 .websocket ++ [(2, .go)]) = some c' ∧ c'.shared.state = .open :=
    ⟨_, _, rfl, rfl, rfl, rfl, rfl⟩
  obtain ⟨c, c', hrun, hclosed, hruns, hrun', hopen⟩ := hrun
  have hc := unopened_reach.runIf hrun
  obtain ⟨hnodup, hstays⟩ := closes_once_and_stays_closed .websocket c hc
  exact ⟨c, c', hc, hclosed, hruns, hnodup, hrun', hopen, hstays _ c' hrun' hclosed hopen⟩

/-- A closed transport becomes open without another `Open`, and its close handler is called again for the same
    `Open`. -/
def Reopens (type : TransportType) : Prop :=
  ∃ c as c' as' c'', (frames type).program.Reachable c ∧ c.shared.state = .closed ∧
    (frames type).program.run c as = some c' ∧ c'.shared.state = .open ∧
    c'.shared.opens = c.shared.opens ∧ (frames type).program.run c' as' = some c'' ∧
    ¬ c''.shared.closeRuns.Nodup

/-- `Close` runs when the dial is done, or when the poll that brought the open packet is being dispatched, and
    `onOpen` is still to come. It opens the closed transport, which is then closed again. -/
theorem close_while_opening_reopens : Reopens .websocket ∧ Reopens .webtransport ∧ Reopens .polling := by
  have hrun : ∀ type, ∃ c c' c'',
      (frames type).program.run unopened (openBy 0 type ++ closeBy 1 type) = some c ∧
      c.shared.state = .closed ∧ (frames type).program.run c [(0, .go)] = some c' ∧
      c'.shared.state = .open ∧ c'.shared.opens = c.shared.opens ∧
      (frames type).program.run c' (closeBy 2 type) = some c'' ∧ c''.shared.closeRuns = [1, 1] := by
    intro type
    cases type <;> exact ⟨_, _, _, rfl, rfl, rfl, rfl, rfl, rfl, rfl⟩
  have hreopens : ∀ type, Reopens type := by
    intro type
    obtain ⟨c, c', c'', hrun, hclosed, hrun', hopen, hopens, hrun'', hruns⟩ := hrun type
    refine ⟨c, _, c', _, c'', Program.Reachable.run unopened_reach hrun, hclosed, hrun', hopen, hopens,
      hrun'', ?_⟩
    rw [hruns]
    decide
  exact ⟨hreopens .websocket, hreopens .webtransport, hreopens .polling⟩

end EngineIo.Client.TransportStates
