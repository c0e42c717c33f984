import EngineIo.Client.PollingSections
import EngineIo.Concurrency.Projection

set_option autoImplicit false

/-! # `Pause` of the polling transport (`socket_transport_polling.go`)

`Pause` stops the polls of a transport before the socket switches to another one. It leaves the open state,
waits for the request in flight by taking `pollMu`, marks the transport paused, and waits for the dispatch of
what the request brought.

Three things become true of a pool in turn, and stay true. From the first section of `Pause` on, the transport
does not run, and nothing is left that would make it run again (`Stopped`). Once `Pause` has `pollMu`, no
request is in flight, and none is issued (`Drained`). When `Pause` returns, there is no dispatch either, and
none begins (`Silent`).

`SetURL` and `Send` share the URL with the polls, and nothing else. The system that has them, too, contains the
one without them. -/

namespace EngineIo.Client.TransportStates

open Concurrency

section

variable {s s' : State} {a : Choice} {l l' : List Frame} {c d : Pool State (List Frame)} {i : Nat}

/-! ## The barrier -/

/-- The transport does not run, and nothing makes it run again. -/
structure Stopped (c : Pool State (List Frame)) : Prop where
  opened : 0 < c.shared.opens
  stopped : c.shared.running = false
  no_onOpen : ∀ i, .onOpen ∉ c.thread i

/-- No poll has a request in flight. -/
structure Drained (c : Pool State (List Frame)) : Prop extends Stopped c where
  no_request : ∀ i, .pollRequest ∉ c.thread i

/-- No poll dispatches what it was answered. -/
structure Silent (c : Pool State (List Frame)) : Prop extends Drained c where
  no_dispatch : ∀ i, .pollDone ∉ c.thread i

theorem Stopped.not_opening (h : Stopped c) : c.shared.state ≠ .opening := by
  intro hopening
  have hstopped := h.stopped
  simp [State.running, hopening] at hstopped

theorem Stopped.step (h : Stopped c) (hc : (frames .polling).program.Reach (Frames.When PausesOpen) c)
    (hC : Frames.When PausesOpen c.shared (c.thread i) a)
    (hstep : (frames .polling).program.step c i a = some d) : Stopped d := by
  obtain ⟨f, fs, hsec, hallowed, hf, hmem⟩ := step_move hc hC hstep
  have hopened := h.opened
  refine ⟨?_, ?_, fun j hon => ?_⟩
  · rcases hsec.claims with heq | ⟨-, -, heq⟩ <;> omega
  · rw [Bool.eq_false_iff]
    intro hruns
    rcases hsec.runs hruns with hran | rfl | ⟨rfl, hclosed, -⟩
    · rw [h.stopped] at hran
      cases hran
    · rcases hf with hf | hf
      · cases hf
      · exact h.no_onOpen i hf
    · -- it was opened before
      have hfirst : c.shared.opens = 0 := by simpa [pausesOpen, hclosed] using hallowed
      omega
  · rcases hmem j _ hon with hold | hnew
    · exact h.no_onOpen j hold
    · exact h.not_opening (hsec.onOpen hnew).1

theorem Drained.step (h : Drained c) (hc : (frames .polling).program.Reach (Frames.When PausesOpen) c)
    (hC : Frames.When PausesOpen c.shared (c.thread i) a)
    (hstep : (frames .polling).program.step c i a = some d) : Drained d := by
  obtain ⟨f, fs, hsec, -, -, hmem⟩ := step_move hc hC hstep
  refine ⟨h.toStopped.step hc hC hstep, fun j hrequest => ?_⟩
  rcases hmem j _ hrequest with hold | hnew
  · exact h.no_request j hold
  · have hruns := hsec.request hnew
    rw [h.stopped] at hruns
    cases hruns

theorem Silent.step (h : Silent c) (hc : (frames .polling).program.Reach (Frames.When PausesOpen) c)
    (hC : Frames.When PausesOpen c.shared (c.thread i) a)
    (hstep : (frames .polling).program.step c i a = some d) : Silent d := by
  obtain ⟨f, fs, hsec, -, hf, hmem⟩ := step_move hc hC hstep
  refine ⟨h.toDrained.step hc hC hstep, fun j hdone => ?_⟩
  rcases hmem j _ hdone with hold | hnew
  · exact h.no_dispatch j hold
  · obtain rfl := hsec.done hnew
    rcases hf with hf | hf
    · cases hf
    · exact h.no_request i hf

/-- A frame of which none is left when its counter is at zero. -/
theorem not_mem_of_counter {weight : Frame → Nat} {n : Nat} {f : Frame} (hf : 0 < weight f)
    (hcount : ∑ j ∈ {i}, Frames.units weight (c.thread j) ≤ n) (hn : n = 0) : f ∉ c.thread i := by
  intro hmem
  have hle := Frames.weight_le_units weight hmem
  rw [Finset.sum_singleton] at hcount
  omega

/-- `beginPause` stops a transport that is open. -/
theorem stopped_of_beginPause {f : Frame} {fs : List Frame}
    (hc : (frames .polling).program.Reach (Frames.When PausesOpen) c) (hsec : Section c.shared f d.shared fs)
    (hallowed : pausesOpen c.shared (some f) = true) (hf : f = .beginPause)
    (hran : c.shared.running = true) (hstopped : d.shared.running = false)
    (hmem : ∀ j, ∀ g ∈ d.thread j, g ∈ c.thread j ∨ g ∈ fs) : Stopped d := by
  subst hf
  obtain ⟨⟨-, hpos⟩, hopening⟩ := reach_opening hc
  have hnot : c.shared.state ≠ .opening := by simpa [pausesOpen] using hallowed
  have hopen : c.shared.state = .open := by simpa [State.running, hnot] using hran
  refine ⟨?_, hstopped, fun j hon => ?_⟩
  · rcases hsec.claims with heq | ⟨hf, -⟩
    · exact heq ▸ hpos hran
    · cases hf
  · rcases hmem j _ hon with hold | hnew
    · exact ((hopening j).2 hold).1 hopen
    · exact hnot (hsec.onOpen hnew).1

/-- While `Pause` goes on, the transport is stopped; since `Pause` had `pollMu`, it is drained. -/
theorem reach_pausing (hc : (frames .polling).program.Reach (Frames.When PausesOpen) c) :
    (∀ i, ∀ f ∈ c.thread i, f.pausing = true → Stopped c) ∧
      ∀ i, ∀ f ∈ c.thread i, f.marking = true → Drained c := by
  induction hc with
  | init _ =>
    refine ⟨fun i f hf => ?_, fun i f hf => ?_⟩ <;> exact absurd hf List.not_mem_nil
  | @step c d i a hc hC hstep ih =>
    obtain ⟨hpausing, hmarking⟩ := ih
    obtain ⟨f, fs, hsec, hallowed, hf, hmem⟩ := step_move hc hC hstep
    have hstopped : ∀ j, ∀ g ∈ d.thread j, g.pausing = true → Stopped d := by
      intro j g hg hp
      rcases hmem j g hg with hold | hnew
      · exact (hpausing j g hold hp).step hc hC hstep
      · rcases hsec.pausing g hnew hp with hfp | ⟨hbegin, hran, hstops⟩
        · rcases hf with rfl | hf
          · cases hfp
          · exact (hpausing i f hf hfp).step hc hC hstep
        · exact stopped_of_beginPause hc hsec hallowed hbegin hran hstops hmem
    refine ⟨hstopped, fun j g hg hm => ?_⟩
    rcases hmem j g hg with hold | hnew
    · exact (hmarking j g hold hm).step hc hC hstep
    · rcases hsec.marking g hnew hm with hfm | ⟨rfl, hfree⟩
      · rcases hf with rfl | hf
        · cases hfm
        · exact (hmarking i f hf hfm).step hc hC hstep
      · -- `pollMu` was free, so there was no request
        rcases hf with hf | hf
        · cases hf
        · have hbefore := hpausing i _ hf rfl
          refine ⟨hbefore.step hc hC hstep, fun k hrequest => ?_⟩
          rcases hmem k _ hrequest with hold | hnew
          · exact not_mem_of_counter (by decide) (reach_counters hc {k}).2.1 (by rw [hfree]; rfl) hold
          · have hruns := hsec.request hnew
            rw [hbefore.stopped] at hruns
            cases hruns

/-- When `Pause` returns, the transport is silent. -/
theorem silent_of_pauseWait {rest : List Frame}
    (hc : (frames .polling).program.Reach (Frames.When PausesOpen) c) (hi : c.thread i = .pauseWait :: rest)
    (hstep : (frames .polling).program.step c i .go = some d) : Silent d := by
  have hC : Frames.When PausesOpen c.shared (c.thread i) .go := by rw [hi]; rfl
  have hmarking := (reach_pausing hc).2 i .pauseWait (hi ▸ List.mem_cons_self ..) rfl
  obtain ⟨s', l', hx, rfl⟩ := Program.step_eq_some hstep
  rw [hi] at hx
  obtain ⟨fs, hfs, rfl⟩ := Frames.step_cons hx
  obtain ⟨hzero, rfl, rfl⟩ : c.shared.pollWG = 0 ∧ c.shared = s' ∧ [] = fs := by
    simpa [frames, exec, execPause] using hfs
  refine ⟨hmarking.step hc hC hstep, fun j hdone => ?_⟩
  have hbefore : .pollDone ∈ c.thread j := by
    by_cases hj : j = i
    · subst hj
      rw [hi]
      exact List.mem_cons_of_mem _ (by simpa using hdone)
    · simpa [hj] using hdone
  exact not_mem_of_counter (by decide) (reach_counters hc {j}).2.2 hzero hbefore

/-- The sections of `Pause` follow each other, and the last one returns. -/
theorem exec_pausing {f : Frame} {fs : List Frame} (h : exec .polling s f a = some (s', fs))
    (hf : f.pausing = true) :
    (∃ g, g.pausing = true ∧ fs = [g]) ∨ f = .pauseWait ∧ a = .go ∧ fs = [] := by
  have hpause : execPause s f a = some (s', fs) := by
    cases f <;> first | exact h | cases hf
  clear h
  revert hpause
  fun_cases execPause s f a <;> intro hpause
  case case1 => cases hf
  case case2 => cases hf
  case case7 =>
    cases hpause
    exact .inr ⟨rfl, rfl, rfl⟩
  all_goals cases hpause
  all_goals exact .inl ⟨_, rfl, rfl⟩

/-! ## Dispatches -/

/-- The loop over the packets of a payload stands on a `pollDone` that ends the dispatch. -/
def Paired : List Frame → Prop
  | [] => True
  | .onData _ :: rest => .pollDone ∈ rest ∧ Paired rest
  | _ :: rest => Paired rest

theorem Paired.tail {f : Frame} {rest : List Frame} (h : Paired (f :: rest)) : Paired rest := by
  unfold Paired at h
  split at h
  · next heq => cases heq
  · next heq =>
    cases heq
    exact h.2
  · next heq =>
    cases heq
    exact h

theorem Paired.append {fs rest : List Frame} (h : Paired rest)
    (hfs : ∀ ps, .onData ps ∈ fs → .pollDone ∈ rest) : Paired (fs ++ rest) := by
  induction fs with
  | nil => exact h
  | cons f fs ih =>
    have htail := ih fun ps hps => hfs ps (List.mem_cons_of_mem _ hps)
    cases f with
    | onData ps => exact ⟨List.mem_append_right _ (hfs ps (List.mem_cons_self ..)), htail⟩
    | _ => exact htail

theorem Paired.pollDone_mem (h : Paired l) {ps : List Packet} (hmem : .onData ps ∈ l) : .pollDone ∈ l := by
  induction l with
  | nil => exact absurd hmem List.not_mem_nil
  | cons f l ih =>
    rcases List.mem_cons.1 hmem with rfl | hmem
    · exact List.mem_cons_of_mem _ h.1
    · exact List.mem_cons_of_mem _ (ih h.tail hmem)

section

variable {f : Frame} {fs : List Frame} {ps : List Packet}

theorem Call.frames_onData (c : Call) : .onData ps ∉ c.frames .polling := by
  cases c <;> simp [Call.frames]

theorem start_onData (h : start .polling s a = some (s', fs)) : .onData ps ∉ fs := by
  revert h
  fun_cases start .polling s a <;> intro h <;> cases h
  all_goals simp [Call.frames_onData]

theorem execOpen_onData (h : execOpen .polling s f a = some (s', fs)) : .onData ps ∉ fs := by
  revert h
  fun_cases execOpen .polling s f a <;> intro h <;> cases h
  all_goals simp [Call.frames_onData]

theorem execClose_onData (h : execClose .polling s f a = some (s', fs)) : .onData ps ∉ fs := by
  revert h
  fun_cases execClose .polling s f a <;> intro h <;> cases h
  all_goals simp [closeRest]

theorem execPause_onData (h : execPause s f a = some (s', fs)) : .onData ps ∉ fs := by
  revert h
  fun_cases execPause s f a <;> intro h <;> cases h
  all_goals simp

theorem execRead_onData (h : execRead .polling s f a = some (s', fs)) : .onData ps ∉ fs := by
  revert h
  fun_cases execRead .polling s f a <;> intro h <;> cases h
  all_goals simp_all

theorem execPoll_onData (h : execPoll s f a = some (s', fs)) (hmem : .onData ps ∈ fs) :
    fs = [.onData ps, .pollDone] ∨ ∃ qs, f = .onData qs := by
  revert h hmem
  fun_cases execPoll s f a <;> intro h <;> cases h
  case case8 packets _ =>
    intro hmem
    obtain rfl : ps = packets := by simpa using hmem
    exact .inl rfl
  all_goals simp

end

/-- The loop is begun with the `pollDone`, and goes on in its own place. -/
theorem exec_onData {f : Frame} {fs : List Frame} (h : exec .polling s f a = some (s', fs)) {ps : List Packet}
    (hmem : .onData ps ∈ fs) : fs = [.onData ps, .pollDone] ∨ ∃ qs, f = .onData qs := by
  unfold exec at h
  split at h
  all_goals first
    | exact absurd hmem (execOpen_onData h)
    | exact absurd hmem (execClose_onData h)
    | exact absurd hmem (execPause_onData h)
    | exact absurd hmem (execRead_onData h)
    | exact execPoll_onData h hmem

theorem reach_paired {C : State → List Frame → Choice → Prop}
    (hc : (frames .polling).program.Reach C c) (i : Nat) : Paired (c.thread i) := by
  refine (hc.invariant (I := fun _ => True) (J := fun _ l => Paired l) ?_ ?_).2 i
  · exact fun s _ => ⟨trivial, trivial⟩
  intro c i a s' l' _ _ _ hJ hx
  refine ⟨trivial, ?_, fun j _ => hJ j⟩
  have hbefore := hJ i
  cases hl : c.thread i with
  | nil =>
    rw [hl] at hx
    rw [← List.append_nil l']
    exact Paired.append trivial fun ps hps => absurd hps (start_onData hx)
  | cons f rest =>
    rw [hl] at hx hbefore
    obtain ⟨fs, hfs, rfl⟩ := Frames.step_cons hx
    by_cases hbegun : ∃ ps, fs = [.onData ps, .pollDone]
    · obtain ⟨ps, rfl⟩ := hbegun
      exact ⟨List.mem_cons_self .., hbefore.tail⟩
    · refine hbefore.tail.append fun ps hps => ?_
      rcases exec_onData hfs hps with heq | ⟨qs, rfl⟩
      · exact absurd ⟨ps, heq⟩ hbegun
      · exact hbefore.1

end

end EngineIo.Client.TransportStates

/-! ## With `SetURL` and `Send` -/

namespace EngineIo.Client.PollingTransport

open Concurrency

/-- A polling transport with its URL. The last two fields are history. -/
structure State where
  base : TransportStates.State := {}
  url : String := ""
  /-- The URLs to which polls have sent a request. -/
  polls : List String := []
  /-- The requests of `Send`: a POST, or a GET if there is nothing to write. -/
  writes : List (String × List UInt8) := []
deriving DecidableEq, Repr

inductive Frame
  | base (f : TransportStates.Frame)
  /-- `request`, called by `poll`. -/
  | pollURL
  | setURL (url : String)
  | send (packets : List Packet)
  /-- `request`, called by `write`. -/
  | writeURL (data : List UInt8)
  | written
deriving DecidableEq, Repr

inductive Choice
  | base (a : TransportStates.Choice)
  | setURL (url : String)
  | send (packets : List Packet)
deriving DecidableEq, Repr

/-- A poll reads the URL before its request is in flight. -/
def lift (f : TransportStates.Frame) : Frame := if f = .pollRequest then .pollURL else .base f

def State.lift (s : State) (r : TransportStates.State × List TransportStates.Frame) : State × List Frame :=
  ({ s with base := r.1 }, r.2.map PollingTransport.lift)

/-- A call taken up by an idle goroutine. -/
def start (s : State) : Choice → Option (State × List Frame)
  | .base a => (TransportStates.start .polling s.base a).map s.lift
  | .setURL url => some (s, [.setURL url])
  | .send packets => some (s, [.send packets])

def exec (s : State) : Frame → Choice → Option (State × List Frame)
  | .base f, .base a => (TransportStates.exec .polling s.base f a).map s.lift
  | .base .handler, .setURL url => some (s, [.setURL url, .base .handler])
  | .base .handler, .send packets => some (s, [.send packets, .base .handler])
  | .pollURL, .base .go => some ({ s with polls := s.polls ++ [s.url] }, [.base .pollRequest])
  | .setURL url, .base .go => some ({ s with url }, [])
  | .send packets, .base .go =>
    some (s, if s.base.state = .open then [.writeURL (encodePayload packets)] else [])
  | .writeURL data, .base .go => some ({ s with writes := s.writes ++ [(s.url, data)] }, [.written])
  | .written, .base (.sent _) => some (s, [])
  | _, _ => none

/-- Any number of goroutines on a new transport. -/
def frames : Frames State Frame Choice where
  init s := ∃ url, s = { url }
  start := start
  exec := exec

/-- The frame of the transport without `SetURL` and `Send`. -/
def Frame.base? : Frame → Option TransportStates.Frame
  | .base f => some f
  | .pollURL => some .pollRequest
  | _ => none

/-- The transport is opened once, and `Pause` is not called while it is opening. -/
def PausesOpen (s : State) (f : Option Frame) (_ : Choice) : Prop :=
  TransportStates.pausesOpen s.base (f.bind Frame.base?) = true

instance (s : State) (f : Option Frame) (a : Choice) : Decidable (PausesOpen s f a) := by
  unfold PausesOpen
  infer_instance

theorem filterMap_lift (fs : List TransportStates.Frame) : (fs.map lift).filterMap Frame.base? = fs := by
  induction fs with
  | nil => rfl
  | cons f fs ih =>
    rw [List.map_cons, List.filterMap_cons_some (b := f), ih]
    unfold lift
    split
    · next heq => rw [heq]; rfl
    · rfl

theorem projects :
    Frames.Projects State.base Frame.base? frames (TransportStates.frames .polling) PausesOpen
      TransportStates.PausesOpen where
  init := by
    rintro s ⟨url, rfl⟩
    rfl
  start := by
    intro s a s' fs h
    cases a with
    | base a =>
      obtain ⟨r, hr, heq⟩ := Option.map_eq_some_iff.1 h
      cases heq
      exact .inr ⟨a, rfl, by rw [filterMap_lift]; exact hr⟩
    | setURL url =>
      cases h
      exact .inl ⟨rfl, rfl⟩
    | send packets =>
      cases h
      exact .inl ⟨rfl, rfl⟩
  exec := by
    intro s f a s' fs hC h
    revert h hC
    change PausesOpen s (some f) a → exec s f a = some (s', fs) → _
    fun_cases exec s f a <;> intro hC h
    case case1 f a =>
      obtain ⟨r, hr, heq⟩ := Option.map_eq_some_iff.1 h
      cases heq
      exact .inr ⟨f, a, rfl, hC, by rw [filterMap_lift]; exact hr⟩
    case case9 => cases h
    case case6 =>
      cases h
      refine .inl ⟨rfl, ?_⟩
      split <;> rfl
    all_goals
      cases h
      exact .inl ⟨rfl, rfl⟩

/-- A frame of a poll that has a request in flight, or dispatches what it was answered. -/
def Frame.polls : Frame → Bool
  | .pollURL | .base .pollRequest | .base .pollDone | .base (.onData _) => true
  | _ => false

variable {c d : Pool State (List Frame)}

/-- A silent transport has no such frame. -/
theorem polls_eq_false_of_silent (hc : frames.program.Reach (Frames.When PausesOpen) c)
    (h : TransportStates.Silent (c.project State.base Frame.base?)) (i : Nat) :
    ∀ f ∈ c.thread i, f.polls = false := by
  have hpaired := TransportStates.reach_paired (projects.reach hc) i
  have hmem : ∀ f ∈ c.thread i, ∀ g, f.base? = some g →
      g ∈ (c.project State.base Frame.base?).thread i := fun f hf g hg => List.mem_filterMap.2 ⟨f, hf, hg⟩
  intro f hf
  rw [Bool.eq_false_iff]
  intro hpolls
  unfold Frame.polls at hpolls
  split at hpolls
  · exact h.no_request i (hmem _ hf _ rfl)
  · exact h.no_request i (hmem _ hf _ rfl)
  · exact h.no_dispatch i (hmem _ hf _ rfl)
  · exact h.no_dispatch i (hpaired.pollDone_mem (hmem _ hf _ rfl))
  · cases hpolls

/-- Only a poll with a request in flight adds to the requests of the polls. -/
theorem exec_polls {s s' : State} {f : Frame} {a : Choice} {fs : List Frame}
    (h : exec s f a = some (s', fs)) (hf : f ≠ .pollURL) : s'.polls = s.polls := by
  revert h
  fun_cases exec s f a <;> intro h
  case case1 =>
    obtain ⟨r, -, heq⟩ := Option.map_eq_some_iff.1 h
    cases heq
    rfl
  case case4 => exact absurd rfl hf
  all_goals
    cases h
    try rfl

theorem step_polls {s s' : State} {l l' : List Frame} {a : Choice} (h : frames.step s l a = some (s', l'))
    (hl : .pollURL ∉ l) : s'.polls = s.polls := by
  cases l with
  | nil =>
    cases a with
    | base a =>
      obtain ⟨r, -, heq⟩ := Option.map_eq_some_iff.1 h
      cases heq
      rfl
    | _ =>
      cases h
      rfl
  | cons f rest =>
    obtain ⟨fs, hfs, rfl⟩ := Frames.step_cons h
    exact exec_polls hfs (List.ne_of_not_mem_cons hl).symm

/-- A silent transport stays silent, and its polls send no request. -/
theorem silent_step (hc : frames.program.Reach (Frames.When PausesOpen) c) {i : Nat} {a : Choice}
    (hC : Frames.When PausesOpen c.shared (c.thread i) a)
    (h : TransportStates.Silent (c.project State.base Frame.base?))
    (hstep : frames.program.step c i a = some d) :
    TransportStates.Silent (d.project State.base Frame.base?) ∧ d.shared.polls = c.shared.polls := by
  constructor
  · rcases projects.step hC hstep with heq | ⟨b, hb, hbase⟩
    · rwa [heq]
    · exact h.step (projects.reach hc) hb hbase
  · obtain ⟨s', l', hx, rfl⟩ := Program.step_eq_some hstep
    refine step_polls hx fun hmem => ?_
    have hpolls := polls_eq_false_of_silent hc h i _ hmem
    cases hpolls

/-- The return of `Pause` in the transport without `SetURL` and `Send`. -/
theorem silent_of_return (hc : frames.program.Reach (Frames.When PausesOpen) c) {i : Nat} {rest : List Frame}
    (hi : c.thread i = .base .pauseWait :: rest) (hstep : frames.program.step c i (.base .go) = some d) :
    TransportStates.Silent (d.project State.base Frame.base?) := by
  obtain ⟨s', l', hx, rfl⟩ := Program.step_eq_some hstep
  rw [hi] at hx
  obtain ⟨fs, hfs, rfl⟩ := Frames.step_cons hx
  obtain ⟨r, hr, heq⟩ := Option.map_eq_some_iff.1 hfs
  cases heq
  have hstack : (c.project State.base Frame.base?).thread i = .pauseWait :: rest.filterMap Frame.base? := by
    show (c.thread i).filterMap Frame.base? = _
    rw [hi]
    rfl
  refine TransportStates.silent_of_pauseWait (projects.reach hc) hstack ?_
  rw [Pool.project_update, List.filterMap_append, filterMap_lift]
  refine Program.step_of_exec ?_
  rw [hstack]
  exact congrArg (Option.map _) hr

/-- Goroutine `i` is in the `Pause` that it called from `rest`, behind its first section. -/
def InPause (i : Nat) (rest : List Frame) (c : Pool State (List Frame)) : Prop :=
  ∃ f, f.pausing = true ∧ c.thread i = .base f :: rest

theorem exec_pausing {s s' : State} {f : TransportStates.Frame} {a : Choice} {fs : List Frame}
    (h : exec s (.base f) a = some (s', fs)) (hf : f.pausing = true) :
    (∃ g, g.pausing = true ∧ fs = [.base g]) ∨ f = .pauseWait ∧ a = .base .go ∧ fs = [] := by
  cases a with
  | base a =>
    obtain ⟨r, hr, heq⟩ := Option.map_eq_some_iff.1 h
    cases heq
    rcases TransportStates.exec_pausing hr hf with ⟨g, hg, hgs⟩ | ⟨rfl, rfl, hgs⟩
    · refine .inl ⟨g, hg, ?_⟩
      rw [hgs]
      cases g <;> first | rfl | cases hg
    · exact .inr ⟨rfl, rfl, by rw [hgs]; rfl⟩
  | setURL url =>
    cases f
    case handler => cases hf
    all_goals cases h
  | send packets =>
    cases f
    case handler => cases hf
    all_goals cases h

/-- Until it returns, nothing takes a goroutine out of `Pause`; and when it does, the transport is silent. -/
theorem inPause_step (hc : frames.program.Reach (Frames.When PausesOpen) c) {i j : Nat} {rest : List Frame}
    {a : Choice} (h : InPause i rest c) (hstep : frames.program.step c j a = some d) :
    InPause i rest d ∨ TransportStates.Silent (d.project State.base Frame.base?) := by
  obtain ⟨f, hf, hi⟩ := h
  by_cases hj : j = i
  · subst hj
    have hreturn := hstep
    obtain ⟨s', l', hx, rfl⟩ := Program.step_eq_some hstep
    rw [hi] at hx
    obtain ⟨fs, hfs, rfl⟩ := Frames.step_cons hx
    rcases exec_pausing hfs hf with ⟨g, hg, rfl⟩ | ⟨rfl, rfl, rfl⟩
    · exact .inl ⟨g, hg, by simp⟩
    · exact .inr (silent_of_return hc hi hreturn)
  · obtain ⟨s', l', -, rfl⟩ := Program.step_eq_some hstep
    exact .inl ⟨f, hf, by simpa [Ne.symm hj] using hi⟩

/-- The first section of a `Pause` of an open transport. -/
theorem inPause_of_beginPause {i : Nat} {rest : List Frame} (hi : c.thread i = .base .beginPause :: rest)
    (hopen : c.shared.base.state = .open) (hbegin : frames.program.step c i (.base .go) = some d) :
    InPause i rest d := by
  obtain ⟨s', l', hx, rfl⟩ := Program.step_eq_some hbegin
  rw [hi] at hx
  obtain ⟨fs, hfs, rfl⟩ := Frames.step_cons hx
  obtain ⟨r, hr, heq⟩ := Option.map_eq_some_iff.1 hfs
  have hruns : c.shared.base.running = true := by simp [TransportStates.State.running, hopen]
  obtain rfl : ({ c.shared.base with state := .pausing }, [.pauseLock]) = r := by
    simpa [TransportStates.exec, TransportStates.execPause, hruns] using hr
  cases heq
  exact ⟨.pauseLock, rfl, by simp [lift]⟩

/-- **`Pause` is a barrier.** Any number of goroutines call `Pause`, `SetURL`, `Send` and `Close` on a transport,
    from outside or from its handlers, in any interleaving with its polls and their dispatches; the transport is
    opened once, and not paused while it is opening. Let goroutine `i` call `Pause` from `rest` on an open
    transport. When it is back in `rest`, and from then on, no poll has a request in flight, none dispatches
    anything, and none sends a request. -/
theorem pause_is_a_barrier {c c₁ c' d : Pool State (List Frame)} {i : Nat} {rest : List Frame}
    {as bs : List (Nat × Choice)} (hc : frames.program.Reach (Frames.When PausesOpen) c)
    (hcall : c.thread i = .base .beginPause :: rest) (hopen : c.shared.base.state = .open)
    (hbegin : frames.program.step c i (.base .go) = some c₁)
    (hpause : frames.program.runIf (Frames.When PausesOpen) c₁ as = some c') (hreturn : c'.thread i = rest)
    (hlater : frames.program.runIf (Frames.When PausesOpen) c' bs = some d) :
    (∀ j, ∀ f ∈ d.thread j, f.polls = false) ∧ d.shared.polls = c'.shared.polls := by
  have hC : Frames.When PausesOpen c.shared (c.thread i) (.base .go) := by
    rw [hcall]
    simp [Frames.When, PausesOpen, TransportStates.pausesOpen, Frame.base?, hopen]
  have hc₁ : frames.program.Reach (Frames.When PausesOpen) c₁ := .step hc hC hbegin
  have hc' := hc₁.runIf hpause
  -- it has returned since, and so the transport is silent
  have hsilent' : TransportStates.Silent (c'.project State.base Frame.base?) := by
    have hpaused := hc₁.runIf_keeps
      (Q := fun c => InPause i rest c ∨ TransportStates.Silent (c.project State.base Frame.base?))
      (fun c j a d hc hC h hstep => by
        rcases h with hin | hsilent
        · exact inPause_step hc hin hstep
        · exact .inr (silent_step hc hC hsilent hstep).1)
      (.inl (inPause_of_beginPause hcall hopen hbegin)) hpause
    refine hpaused.resolve_left ?_
    rintro ⟨f, -, hin⟩
    rw [hreturn] at hin
    exact absurd hin.symm (List.cons_ne_self _ _)
  obtain ⟨hsilent, hpolls⟩ := hc'.runIf_keeps
    (Q := fun d => TransportStates.Silent (d.project State.base Frame.base?) ∧
      d.shared.polls = c'.shared.polls)
    (fun c i a d hc hC h hstep => by
      obtain ⟨hsilent, hsame⟩ := silent_step hc hC h.1 hstep
      exact ⟨hsilent, hsame.trans h.2⟩)
    ⟨hsilent', rfl⟩ hlater
  exact ⟨polls_eq_false_of_silent (hc'.runIf hlater) hsilent, hpolls⟩

/-- Goroutine 0 opens the transport, goroutine 1 polls, and goroutine 2 calls `Pause` while the request is in
    flight. -/
def pollInFlight : List (Nat × Choice) :=
  [(0, .base (.call .open)), (0, .base .go), (0, .base .go), (0, .base .go), (0, .base .go),
    (0, .base (.polled (some [48]))), (0, .base .go), (0, .base .go), (0, .base .go), (0, .base .go),
    (0, .base .go), (0, .base .go), (1, .base .spawned), (1, .base .go), (1, .base .go), (1, .base .go),
    (2, .base (.call .pause))]

/-- Goroutine 3 calls `SetURL`. The poll is answered with a message, and `Pause` waits for its dispatch. -/
def pauseDuringPoll : List (Nat × Choice) :=
  [(3, .setURL "/?sid=a"), (3, .base .go), (1, .base (.polled (some [52, 97]))), (2, .base .go), (2, .base .go),
    (2, .base .go), (1, .base .go), (1, .base .go), (1, .base .go), (1, .base .go), (2, .base .go)]

theorem pause_is_a_barrier_during_poll :
    ∃ c c₁ c' d, frames.program.Reach (Frames.When PausesOpen) c ∧ c.thread 2 = [.base .beginPause] ∧
      c.shared.base.state = .open ∧ c.thread 1 = [.base .pollRequest] ∧
      frames.program.step c 2 (.base .go) = some c₁ ∧
      frames.program.runIf (Frames.When PausesOpen) c₁ pauseDuringPoll = some c' ∧ c'.thread 2 = [] ∧
      frames.program.runIf (Frames.When PausesOpen) c' [(4, .send [{ type := .ping }]), (4, .base .go)] =
        some d ∧
      (∀ j, ∀ f ∈ d.thread j, f.polls = false) ∧ d.shared.polls = c'.shared.polls := by
  have hrun : ∃ c c₁ c' d, frames.program.runIf (Frames.When PausesOpen) ⟨{}, fun _ => []⟩ pollInFlight =
        some c ∧ c.thread 2 = [.base .beginPause] ∧ c.shared.base.state = .open ∧
      c.thread 1 = [.base .pollRequest] ∧ frames.program.step c 2 (.base .go) = some c₁ ∧
      frames.program.runIf (Frames.When PausesOpen) c₁ pauseDuringPoll = some c' ∧ c'.thread 2 = [] ∧
      frames.program.runIf (Frames.When PausesOpen) c' [(4, .send [{ type := .ping }]), (4, .base .go)] =
        some d :=
    ⟨_, _, _, _, rfl, rfl, rfl, rfl, rfl, rfl, rfl, rfl⟩
  obtain ⟨c, c₁, c', d, hrun, hcall, hopen, hrequest, hbegin, hpause, hreturn, hlater⟩ := hrun
  have hc : frames.program.Reach (Frames.When PausesOpen) c :=
    Program.Reach.runIf (.init ⟨"", rfl⟩) hrun
  exact ⟨c, c₁, c', d, hc, hcall, hopen, hrequest, hbegin, hpause, hreturn, hlater,
    pause_is_a_barrier hc hcall hopen hbegin hpause hreturn hlater⟩

end EngineIo.Client.PollingTransport
