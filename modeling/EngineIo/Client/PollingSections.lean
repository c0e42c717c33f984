import EngineIo.Client.TransportStates

set_option autoImplicit false

/-! # Sections of the polling transport (`socket_transport_polling.go`)

What the sections of a polling transport can do to its polls, said once: which of them hold `pollMu` or owe
`pollWG` a `Done`, which make the transport run, and which start a request or a dispatch.

Where the transport is opened once, it has one poll at a time. So when a poll is about to call `onOpen`, which
marks the transport open without looking at its state, no other poll has done so. -/

namespace EngineIo.Client.TransportStates

open Concurrency

/-! ## Counters -/

/-- The frames that carry on with an `Open`: its polls, or its dial and its read loop. -/
def Frame.chain : Frame → Nat
  | .dial | .openStream _ | .install _ | .writeOpen | .goReadLoop | .pollLock | .pollCheck | .pollRequest
  | .onData _ | .readLoop | .read => 1
  | _ => 0

/-- The frames that hold `pollMu`. -/
def Frame.holdsPollMu : Frame → Nat
  | .pollCheck | .pollRequest | .pauseMark | .pauseUnlock | .closeUnlock => 1
  | _ => 0

/-- The frames that owe `pollWG` a `Done`. -/
def Frame.dispatches : Frame → Nat
  | .pollDone => 1
  | _ => 0

/-- A section that leaves the frames `fs` for `f` makes no unit that the memory does not account for. -/
structure Balance (s s' : State) (f fs : List Frame) : Prop where
  chain : Frames.units Frame.chain fs + s'.spawned + s.opens ≤
    Frames.units Frame.chain f + s.spawned + s'.opens
  pollMu : Frames.units Frame.holdsPollMu fs + s.pollMu.toNat ≤
    Frames.units Frame.holdsPollMu f + s'.pollMu.toNat
  pollWG : Frames.units Frame.dispatches fs + s.pollWG ≤ Frames.units Frame.dispatches f + s'.pollWG

section

variable {type : TransportType} {s s' : State} {f : Frame} {a : Choice} {fs l : List Frame}

theorem Balance.of_uncounted (hopens : s'.opens = s.opens) (hspawned : s'.spawned = s.spawned)
    (hmu : s'.pollMu = s.pollMu) (hwg : s'.pollWG = s.pollWG)
    (hfs : ∀ g ∈ fs, g.chain = 0 ∧ g.holdsPollMu = 0 ∧ g.dispatches = 0) : Balance s s' l fs := by
  constructor
  · rw [Frames.units_eq_zero fun g hg => (hfs g hg).1, hopens, hspawned]
    omega
  · rw [Frames.units_eq_zero fun g hg => (hfs g hg).2.1, hmu]
    omega
  · rw [Frames.units_eq_zero fun g hg => (hfs g hg).2.2, hwg]
    omega

theorem Call.frames_uncounted (c : Call) :
    ∀ g ∈ c.frames type, g.chain = 0 ∧ g.holdsPollMu = 0 ∧ g.dispatches = 0 := by
  cases c with
  | pause =>
    by_cases htype : type = .polling
    · simp [Call.frames, htype, Frame.chain, Frame.holdsPollMu, Frame.dispatches]
    · simp [Call.frames, htype]
  | _ => simp [Call.frames, Frame.chain, Frame.holdsPollMu, Frame.dispatches]

theorem start_balance (h : start type s a = some (s', fs)) : Balance s s' [] fs := by
  revert h
  fun_cases start type s a <;> intro h <;> cases h
  · exact .of_uncounted rfl rfl rfl rfl (Call.frames_uncounted _)
  · next hspawned =>
    constructor
    · split <;> simp [Frame.chain] <;> omega
    · split <;> simp [Frame.holdsPollMu]
    · split <;> simp [Frame.dispatches]

theorem execOpen_balance (h : execOpen type s f a = some (s', fs)) : Balance s s' [f] fs := by
  revert h
  fun_cases execOpen type s f a <;> intro h <;> cases h
  case case15 c =>
    refine .of_uncounted rfl rfl rfl rfl fun g hg => ?_
    rcases List.mem_append.1 hg with hg | hg
    · exact Call.frames_uncounted c g hg
    · rw [List.mem_singleton.1 hg]
      exact ⟨rfl, rfl, rfl⟩
  all_goals constructor
  all_goals try exact le_rfl
  all_goals first
    | (split <;> simp [Frame.chain, Frame.holdsPollMu, Frame.dispatches] <;> omega)
    | (simp only [Frames.units_cons, Frames.units_nil, Frame.chain]; omega)

theorem execClose_balance (h : execClose type s f a = some (s', fs)) : Balance s s' [f] fs := by
  have hmu := Bool.toNat_le s.pollMu
  revert h
  fun_cases execClose type s f a <;> intro h <;> cases h
  case case1 | case2 | case3 =>
    refine .of_uncounted rfl rfl rfl rfl ?_
    try unfold closeRest
    split <;> simp [Frame.chain, Frame.holdsPollMu, Frame.dispatches]
  all_goals constructor
  all_goals try exact le_rfl
  all_goals simp_all [Frame.holdsPollMu]

theorem execPause_balance (h : execPause s f a = some (s', fs)) : Balance s s' [f] fs := by
  have hmu := Bool.toNat_le s.pollMu
  revert h
  fun_cases execPause s f a <;> intro h <;> cases h
  all_goals constructor
  all_goals try exact le_rfl
  all_goals simp_all [Frame.holdsPollMu]

theorem execPoll_balance (h : execPoll s f a = some (s', fs)) : Balance s s' [f] fs := by
  have hmu := Bool.toNat_le s.pollMu
  revert h
  fun_cases execPoll s f a <;> intro h <;> cases h
  case case9 =>
    -- the next poll takes the place of this one
    split
    · refine ⟨?_, le_rfl, le_rfl⟩
      simp only [Frames.units_cons, Frames.units_nil, Frame.chain]
      omega
    · exact ⟨by simp [Frame.chain], le_rfl, le_rfl⟩
  all_goals constructor
  all_goals try exact le_rfl
  all_goals simp_all [State.beginDispatch, Frame.chain, Frame.holdsPollMu, Frame.dispatches]
  all_goals omega

theorem execRead_balance (h : execRead type s f a = some (s', fs)) : Balance s s' [f] fs := by
  revert h
  fun_cases execRead type s f a <;> intro h <;> cases h
  all_goals try unfold dispatch
  all_goals try unfold State.readFailed
  all_goals try split
  all_goals constructor
  all_goals simp [Frame.chain, Frame.holdsPollMu, Frame.dispatches]

theorem exec_balance (h : exec type s f a = some (s', fs)) : Balance s s' [f] fs := by
  unfold exec at h
  split at h
  all_goals first
    | exact execOpen_balance h
    | exact execClose_balance h
    | exact execPause_balance h
    | exact execPoll_balance h
    | exact execRead_balance h

/-- In every run, among any goroutines: no more polls than calls of `Open`, as many holders of `pollMu` as it
    has, and no more dispatches than `pollWG` counts. -/
theorem reach_counters {C : State → List Frame → Choice → Prop} {c : Pool State (List Frame)}
    (h : (frames type).program.Reach C c) (S : Finset Nat) :
    ∑ i ∈ S, Frames.units Frame.chain (c.thread i) ≤ c.shared.opens ∧
    ∑ i ∈ S, Frames.units Frame.holdsPollMu (c.thread i) ≤ c.shared.pollMu.toNat ∧
    ∑ i ∈ S, Frames.units Frame.dispatches (c.thread i) ≤ c.shared.pollWG := by
  have hinit : ∀ s, (frames type).init s → s = {} := fun s hs => hs
  refine ⟨?_, ?_, ?_⟩
  · refine Nat.le_trans (Nat.le_add_right _ _) (Frames.counter (A := State.spawned) (N := State.opens)
      ?_ ?_ ?_ h S)
    · exact fun s hs => by simp [hinit s hs]
    · exact fun s a s' fs hx => by simpa using (start_balance hx).chain
    · exact fun s f a s' fs hx => by simpa using (exec_balance hx).chain
  · refine Frames.counter (A := fun _ => 0) (N := fun s => s.pollMu.toNat) ?_ ?_ ?_ h S
    · exact fun s _ => Nat.zero_le _
    · exact fun s a s' fs hx => by simpa using (start_balance hx).pollMu
    · exact fun s f a s' fs hx => by simpa using (exec_balance hx).pollMu
  · refine Frames.counter (A := fun _ => 0) (N := State.pollWG) ?_ ?_ ?_ h S
    · exact fun s _ => Nat.zero_le _
    · exact fun s a s' fs hx => by simpa using (start_balance hx).pollWG
    · exact fun s f a s' fs hx => by simpa using (exec_balance hx).pollWG

end

/-! ## Sections of a polling transport -/

/-- The frames that a polling transport has. -/
def Frame.polling : Frame → Bool
  | .dial | .openStream _ | .failOpen | .install _ | .writeOpen | .goReadLoop | .readLoop | .read => false
  | _ => true

/-- `Pause` behind its first section. -/
def Frame.pausing : Frame → Bool
  | .pauseLock | .pauseMark | .pauseUnlock | .pauseWait => true
  | _ => false

/-- `Pause` since it had `pollMu`. -/
def Frame.marking : Frame → Bool
  | .pauseMark | .pauseUnlock | .pauseWait => true
  | _ => false

/-- The frames that every section may leave. -/
def Frame.quiet (f : Frame) : Bool :=
  f.polling && !f.pausing && f ≠ .onOpen && f ≠ .pollRequest && f ≠ .pollDone

/-- What a section of a polling transport may do, and which one does it. -/
structure Section (s : State) (f : Frame) (s' : State) (fs : List Frame) : Prop where
  polling : ∀ g ∈ fs, g.polling = true
  claims : s'.opens = s.opens ∨ f = .beginOpen ∧ s.state = .closed ∧ s'.opens = s.opens + 1
  runs : s'.running = true →
    s.running = true ∨ f = .onOpen ∨ f = .beginOpen ∧ s.state = .closed ∧ 0 < s'.opens
  opens : s'.state = .open → s.state = .open ∨ f = .onOpen
  onOpen : .onOpen ∈ fs → s.state = .opening ∧ s'.state = .opening ∧
    ∃ p ps, f = .onData (p :: ps) ∧ fs = [.onOpen, .handler, .onData ps]
  request : .pollRequest ∈ fs → s.running = true
  done : .pollDone ∈ fs → f = .pollRequest
  pausing : ∀ g ∈ fs, g.pausing = true →
    f.pausing = true ∨ f = .beginPause ∧ s.running = true ∧ s'.running = false
  marking : ∀ g ∈ fs, g.marking = true → f.marking = true ∨ f = .pauseLock ∧ s.pollMu = false

section

variable {s s' : State} {f : Frame} {a : Choice} {fs : List Frame}

theorem Frame.quiet_marking {g : Frame} (h : g.quiet = true) : g.marking = false := by
  cases g <;> first | rfl | cases h

/-- A section that leaves the state as it is, or ends the run of the transport. -/
theorem Section.of_quiet (hopens : s'.opens = s.opens) (hstate : s'.state = s.state ∨ s'.running = false)
    (hfs : ∀ g ∈ fs, g.quiet = true) : Section s f s' fs := by
  have hquiet : ∀ g ∈ fs, g.polling = true ∧ g.pausing = false ∧ g ≠ .onOpen ∧ g ≠ .pollRequest ∧
      g ≠ .pollDone := fun g hg => by simpa [Frame.quiet, and_assoc] using hfs g hg
  refine ⟨fun g hg => (hquiet g hg).1, .inl hopens, fun hruns => ?_, fun hopen => ?_,
    fun hmem => absurd rfl (hquiet _ hmem).2.2.1, fun hmem => absurd rfl (hquiet _ hmem).2.2.2.1,
    fun hmem => absurd rfl (hquiet _ hmem).2.2.2.2, fun g hg hpausing => ?_, fun g hg hmarking => ?_⟩
  · rcases hstate with hsame | hstopped
    · exact .inl (by rwa [State.running, ← hsame])
    · rw [hstopped] at hruns
      cases hruns
  · rcases hstate with hsame | hstopped
    · exact .inl (hsame ▸ hopen)
    · simp [State.running, hopen] at hstopped
  · rw [(hquiet g hg).2.1] at hpausing
    cases hpausing
  · rw [Frame.quiet_marking (hfs g hg)] at hmarking
    cases hmarking

/-- A poll that dispatches. -/
theorem Section.dispatch (fs : List Frame) (hfs : ∀ g ∈ fs, g.quiet = true) :
    Section s .pollRequest s.beginDispatch (fs ++ [.pollDone]) := by
  have hquiet : Section s .pollRequest s.beginDispatch fs := .of_quiet rfl (.inl rfl) hfs
  refine ⟨?_, .inl rfl, hquiet.runs, hquiet.opens, ?_, ?_, fun _ => rfl, ?_, ?_⟩
  · simpa [or_imp, forall_and, Frame.polling] using hquiet.polling
  · simp only [List.mem_append, List.mem_singleton, reduceCtorEq, or_false]
    intro hmem
    obtain ⟨-, -, p, ps, hf, -⟩ := hquiet.onOpen hmem
    cases hf
  · simpa using hquiet.request
  · simpa [or_imp, forall_and, Frame.pausing] using hquiet.pausing
  · simpa [or_imp, forall_and, Frame.marking] using hquiet.marking

theorem Call.frames_quiet (c : Call) : ∀ g ∈ c.frames .polling, g.quiet = true := by
  cases c <;> decide

theorem execOpen_section (h : execOpen .polling s f a = some (s', fs)) (hf : f.polling = true) :
    Section s f s' fs := by
  revert h hf
  fun_cases execOpen .polling s f a <;> intro h hf <;> cases h <;> try cases hf
  · exact .of_quiet rfl (.inl rfl) (by simp)
  · next hclosed =>
    have hstate : s.state = .closed := not_not.1 hclosed
    constructor <;> simp [hstate, Frame.polling, Frame.pausing, Frame.marking]
  · constructor <;> simp [Frame.polling, Frame.pausing, Frame.marking]
  · exact .of_quiet rfl (.inl rfl) (by simp)
  · next c =>
    refine .of_quiet rfl (.inl rfl) fun g hg => ?_
    rcases List.mem_append.1 hg with hg | hg
    · exact Call.frames_quiet c g hg
    · rw [List.mem_singleton.1 hg]
      rfl

theorem execClose_section (h : execClose .polling s f a = some (s', fs)) : Section s f s' fs := by
  revert h
  fun_cases execClose .polling s f a <;> intro h <;> cases h
  case case1 =>
    refine .of_quiet rfl (.inl rfl) ?_
    split <;> decide
  all_goals first
    | exact .of_quiet rfl (.inl rfl) (of_decide_eq_true rfl)
    | exact .of_quiet rfl (.inr rfl) (of_decide_eq_true rfl)

theorem execPause_section (h : execPause s f a = some (s', fs)) : Section s f s' fs := by
  revert h
  fun_cases execPause s f a <;> intro h <;> cases h
  case case2 | case7 => exact .of_quiet rfl (.inl rfl) (by simp)
  all_goals
    constructor <;> simp_all [State.running, Frame.polling, Frame.pausing, Frame.marking]

theorem execPoll_section (h : execPoll s f a = some (s', fs)) : Section s f s' fs := by
  revert h
  fun_cases execPoll s f a <;> intro h <;> cases h
  case case3 hrunning =>
    constructor <;> simp [hrunning, Frame.polling, Frame.pausing, Frame.marking]
  case case5 | case7 => exact .dispatch [.handler] (by decide)
  case case6 => exact .dispatch [] (by decide)
  case case8 packets _ => exact .dispatch [.onData packets] (by simp [Frame.quiet, Frame.polling, Frame.pausing])
  case case9 => split <;> exact .of_quiet rfl (.inl rfl) (by simp)
  case case10 hopening =>
    constructor <;> simp_all [Frame.polling, Frame.pausing, Frame.marking]
  all_goals exact .of_quiet rfl (.inl rfl) (of_decide_eq_true rfl)

theorem exec_section (h : exec .polling s f a = some (s', fs)) (hf : f.polling = true) :
    Section s f s' fs := by
  unfold exec at h
  split at h
  all_goals first
    | exact execOpen_section h hf
    | exact execClose_section h
    | exact execPause_section h
    | exact execPoll_section h
    | cases hf

theorem start_quiet (h : start .polling s a = some (s', fs)) :
    s'.state = s.state ∧ s'.opens = s.opens ∧ ∀ g ∈ fs, g.quiet = true := by
  revert h
  fun_cases start .polling s a <;> intro h <;> cases h
  · exact ⟨rfl, rfl, Call.frames_quiet _⟩
  · exact ⟨rfl, rfl, by decide⟩

end

/-! ## Runs in which the transport is opened once and paused when it is open -/

def pausesOpen (s : State) (f : Option Frame) : Bool :=
  match f with
  | some .beginPause => s.state ≠ .opening
  | some .beginOpen => s.state ≠ .closed || s.opens = 0
  | _ => true

def PausesOpen (s : State) (f : Option Frame) (_ : Choice) : Prop := pausesOpen s f = true

instance (s : State) (f : Option Frame) (a : Choice) : Decidable (PausesOpen s f a) := by
  unfold PausesOpen
  infer_instance

section

variable {s s' : State} {a : Choice} {l l' : List Frame} {c d : Pool State (List Frame)} {i : Nat}

/-- A step of a goroutine is a section of the frame on top of its stack; a call it takes up is as good as one
    of a handler. -/
theorem step_section (h : (frames .polling).step s l a = some (s', l')) (hl : ∀ g ∈ l, g.polling = true)
    (hC : Frames.When PausesOpen s l a) :
    ∃ f fs rest, Section s f s' fs ∧ pausesOpen s (some f) = true ∧ l' = fs ++ rest ∧
      (l = f :: rest ∨ l = [] ∧ rest = [] ∧ f = .handler) := by
  cases l with
  | nil =>
    obtain ⟨hstate, hopens, hquiet⟩ := start_quiet h
    exact ⟨.handler, l', [], .of_quiet hopens (.inl hstate) hquiet, rfl, (List.append_nil _).symm,
      .inr ⟨rfl, rfl, rfl⟩⟩
  | cons f rest =>
    obtain ⟨fs, hfs, rfl⟩ := Frames.step_cons h
    exact ⟨f, fs, rest, exec_section hfs (hl f (List.mem_cons_self ..)), hC, rfl, .inl rfl⟩

/-- The frame that ran and the frames below it were there before. -/
theorem mem_of_top {f : Frame} {rest : List Frame} (hl : l = f :: rest ∨ l = [] ∧ rest = [] ∧ f = .handler) :
    (f = .handler ∨ f ∈ l) ∧ ∀ g ∈ rest, g ∈ l := by
  rcases hl with rfl | ⟨-, rfl, hf⟩
  · exact ⟨.inr (List.mem_cons_self ..), fun g hg => List.mem_cons_of_mem _ hg⟩
  · exact ⟨.inl hf, fun g hg => absurd hg List.not_mem_nil⟩

/-- `onOpen` stands on top of the dispatch that calls it, and the transport is not open yet. -/
def Opening (s : State) (l : List Frame) : Prop :=
  .onOpen ∈ l → s.state ≠ .open ∧
    ∃ rest, l = .onOpen :: rest ∧ .onOpen ∉ rest ∧ 0 < Frames.units Frame.chain rest

/-- A goroutine that is about to call `onOpen` is a poll. -/
theorem Opening.chain_pos (h : Opening s l) (hmem : .onOpen ∈ l) : 0 < Frames.units Frame.chain l := by
  obtain ⟨-, rest, rfl, -, hpos⟩ := h hmem
  rw [Frames.units_cons]
  omega

/-- The goroutine whose section runs. -/
theorem Opening.of_section {f : Frame} {fs rest : List Frame} (h : Opening s l) (hsec : Section s f s' fs)
    (hl : l = f :: rest ∨ l = [] ∧ rest = [] ∧ f = .handler) : Opening s' (fs ++ rest) := by
  have hrest : .onOpen ∉ rest := by
    intro hold
    obtain ⟨-, rest', hstack, hnot, -⟩ := h ((mem_of_top hl).2 _ hold)
    rcases hl with rfl | ⟨-, rfl, -⟩
    · obtain ⟨-, rfl⟩ := List.cons.inj hstack
      exact hnot hold
    · exact absurd hold List.not_mem_nil
  intro hmem
  rcases List.mem_append.1 hmem with hnew | hold
  · obtain ⟨-, hopening, p, ps, rfl, rfl⟩ := hsec.onOpen hnew
    refine ⟨by rw [hopening]; decide, .handler :: .onData ps :: rest, rfl, ?_, ?_⟩
    · simpa using hrest
    · simp [Frame.chain]
  · exact absurd hold hrest

/-- A transport that is opened once. -/
theorem Section.opens_le_one {f : Frame} {fs : List Frame} (hsec : Section s f s' fs)
    (hallowed : pausesOpen s (some f) = true) (h : s.opens ≤ 1) : s'.opens ≤ 1 := by
  rcases hsec.claims with heq | ⟨rfl, hclosed, heq⟩
  · omega
  · have hfirst : s.opens = 0 := by simpa [pausesOpen, hclosed] using hallowed
    omega

theorem reach_opening (hc : (frames .polling).program.Reach (Frames.When PausesOpen) c) :
    (c.shared.opens ≤ 1 ∧ (c.shared.running = true → 0 < c.shared.opens)) ∧
      ∀ i, (∀ f ∈ c.thread i, f.polling = true) ∧ Opening c.shared (c.thread i) := by
  refine hc.invariant (I := fun s => s.opens ≤ 1 ∧ (s.running = true → 0 < s.opens))
    (J := fun s l => (∀ f ∈ l, f.polling = true) ∧ Opening s l) ?_ ?_
  · rintro s rfl
    refine ⟨⟨Nat.zero_le 1, by decide⟩, fun f hf => ?_, fun hmem => ?_⟩
    · exact absurd hf List.not_mem_nil
    · exact absurd hmem List.not_mem_nil
  · intro c i a s' l' hc hC hI hJ hx
    obtain ⟨f, fs, rest, hsec, hallowed, rfl, hl⟩ := step_section hx (hJ i).1 hC
    obtain ⟨hf, hrest⟩ := mem_of_top hl
    -- a call of `onOpen` is one of the poll that belongs to the one `Open`
    have hon : f = .onOpen → 0 < Frames.units Frame.chain (c.thread i) := by
      rintro rfl
      rcases hf with hf | hf
      · cases hf
      · exact (hJ i).2.chain_pos hf
    refine ⟨⟨hsec.opens_le_one hallowed hI.1, fun hruns => ?_⟩, ⟨fun g hg => ?_, (hJ i).2.of_section hsec hl⟩,
      fun j hj => ⟨(hJ j).1, fun hmem => ?_⟩⟩
    · have hopens : c.shared.opens ≤ s'.opens := by
        rcases hsec.claims with heq | ⟨-, -, heq⟩ <;> omega
      rcases hsec.runs hruns with hran | hf | ⟨-, -, hpos⟩
      · exact Nat.lt_of_lt_of_le (hI.2 hran) hopens
      · have hchain := (reach_counters hc {i}).1
        rw [Finset.sum_singleton] at hchain
        have hpos := hon hf
        omega
      · exact hpos
    · rcases List.mem_append.1 hg with hnew | hold
      · exact hsec.polling g hnew
      · exact (hJ i).1 g (hrest g hold)
    · obtain ⟨hnot, hstack⟩ := (hJ j).2 hmem
      refine ⟨fun hopen => ?_, hstack⟩
      rcases hsec.opens hopen with hwas | hf
      · exact hnot hwas
      · -- there would be two polls
        have hchain := (reach_counters hc {i, j}).1
        rw [Finset.sum_pair (Ne.symm hj)] at hchain
        have hi := hon hf
        have hj := (hJ j).2.chain_pos hmem
        omega

/-- A step of a pool: the section that runs, and where the frames of the new pool come from. -/
theorem step_move (hc : (frames .polling).program.Reach (Frames.When PausesOpen) c)
    (hC : Frames.When PausesOpen c.shared (c.thread i) a) (h : (frames .polling).program.step c i a = some d) :
    ∃ f fs, Section c.shared f d.shared fs ∧ pausesOpen c.shared (some f) = true ∧
      (f = .handler ∨ f ∈ c.thread i) ∧ ∀ j, ∀ g ∈ d.thread j, g ∈ c.thread j ∨ g ∈ fs := by
  obtain ⟨s', l', hx, rfl⟩ := Program.step_eq_some h
  obtain ⟨f, fs, rest, hsec, hallowed, rfl, hl⟩ := step_section hx ((reach_opening hc).2 i).1 hC
  obtain ⟨hf, hrest⟩ := mem_of_top hl
  refine ⟨f, fs, hsec, hallowed, hf, fun j g hg => ?_⟩
  by_cases hj : j = i
  · subst hj
    have hmem : g ∈ fs ++ rest := by simpa using hg
    rcases List.mem_append.1 hmem with hnew | hold
    · exact .inr hnew
    · exact .inl (hrest g hold)
  · exact .inl (by simpa [hj] using hg)

end

end EngineIo.Client.TransportStates
