import EngineIo.Client.Chunking
import EngineIo.Client.Flush

set_option autoImplicit false

/-! # The backlog behind a rejected packet (`flush` and `sendChunks` in `socket.go`)

A flush writes the chunks of its snapshot one by one. The first one that the transport rejects ends it, and
what was not written stays in the buffer, in order, for the next flush. Against a server that rejects what
is larger than the maximum it announced, the rejected chunk is a single packet that is too large, since
`chunkPackets` cuts no other chunk that large; and every later flush begins with that packet again.

So a packet that fits is left behind by the flushes of its time exactly if a packet that is too large was
accepted before it: that one never leaves the buffer, and so nothing behind it does. To say so, each goroutine
notes how many packets had been accepted when the flush it is in began, and the memory the latest such note of
the flushes that have returned. -/

namespace EngineIo.Client

open Concurrency Socket

/-! ## Watching flushes -/

/-- The goroutine is inside `flush`. -/
def Goroutine.inFlush (g : Goroutine) : Bool :=
  match g.pc with
  | .flush (.beginFlush _) | .flush (.sendChunks ..) | .flush (.endFlush ..) => true
  | _ => false

/-- The goroutine ended an upgrade and has yet to run the flush that follows it. -/
def Goroutine.owesFlush (g : Goroutine) : Bool :=
  match g.pc with
  | .flush (.beginFlush (.discard _)) | .flush (.beginFlush .upgraded) => true
  | _ => false

/-- `returned` is ghost: every packet of a smaller rank was accepted before a flush began that has
    returned. -/
structure Watch where
  world : World
  returned : Nat := 0

/-- `began` is ghost: how many packets had been accepted when the flush the goroutine is in ran its first
    section. -/
structure Watcher where
  goroutine : Goroutine
  began : Option Nat := none

/-- Run the next section of a goroutine, and note the beginning and the return of its flush. -/
def watch (m : Watch) (l : Watcher) (a : Choice) : Option (Watch × Watcher) :=
  (exec m.world l.goroutine a).map fun r =>
    if l.goroutine.inFlush then
      let began := l.began.getD m.world.accepted.length
      if r.2.inFlush then ({ m with world := r.1 }, ⟨r.2, some began⟩)
      else (⟨r.1, max m.returned began⟩, ⟨r.2, none⟩)
    else ({ m with world := r.1 }, ⟨r.2, none⟩)

/-- Open on a polling transport, with the maximum `M`. -/
def World.OpenPolling (M : Int) (w : World) : Prop :=
  w.sock.state = .open ∧ w.sock.transport.map Transport.type = some .polling ∧ w.sock.maxPayload = M

instance (M : Int) : DecidablePred (World.OpenPolling M) := fun w => by
  unfold World.OpenPolling
  infer_instance

/-- The accepted packets have the ranks in which they were accepted. -/
def World.Numbered (w : World) : Prop := w.accepted.map Entry.seq = List.range w.accepted.length

/-- The accepted packets are those that have left the buffer, which are not too large and have been written, and
    behind them the buffer. -/
def World.Kept (M : Int) (w : World) : Prop :=
  ∃ gone, w.accepted = gone ++ w.sock.writeBuffer ∧
    ∀ e ∈ gone, Entry.size e ≤ M ∧ ∃ t, .entry t e ∈ w.wire

/-- A polling connection that has just been opened. Whatever was accepted for it before waits in the buffer. -/
structure World.Established (M : Int) (w : World) : Prop where
  openPolling : w.OpenPolling M
  upgrading : w.sock.upgrading = false
  flushing : w.sock.flushing = false
  flushWG : w.sock.flushWG = 0
  panicked : w.panicked = false
  waiting : w.accepted = w.sock.writeBuffer
  numbered : w.Numbered

theorem World.Numbered.seq_lt {w : World} (h : w.Numbered) {e : Entry} (he : e ∈ w.accepted) :
    e.seq < w.accepted.length := by
  have hmem := List.mem_map_of_mem (f := Entry.seq) he
  rw [h] at hmem
  exact List.mem_range.1 hmem

theorem World.Established.ranked {M : Int} {w : World} (h : w.Established M) : w.Ranked :=
  fun _ he => h.numbered.seq_lt (h.waiting ▸ he)

/-- Any number of goroutines on an established connection. -/
def watched (M : Int) : Program Watch Watcher Choice where
  init m := m.world.Established M ∧ m.returned = 0
  idle := { goroutine := .idle }
  exec := watch

/-- The server rejects exactly the payloads that are larger than the maximum. -/
def serves (M : Int) (g : Goroutine) (a : Choice) : Bool :=
  match g.pc, a with
  | .flush (.sendChunks _ _ t _ (chunk :: _)), .sent ok =>
    t.type != .polling || ok == decide (payloadSize chunk ≤ M)
  | _, _ => true

/-- The connection stays open and is served like that. -/
def Served (M : Int) (m : Watch) (l : Watcher) (a : Choice) : Prop :=
  (watched M).Stays (fun m => m.world.OpenPolling M) m l a ∧ serves M l.goroutine a = true

instance (M : Int) (m : Watch) (l : Watcher) (a : Choice) : Decidable (Served M m l a) := by
  unfold Served
  infer_instance

/-! ## What a section of an open connection does -/

/-- A section that leaves the socket open. -/
structure Remains (w : World) (g : Goroutine) (w' : World) (g' : Goroutine) : Prop where
  flight : g'.flight = none ∨ g.inFlush = true
  resets : w'.resets = w.resets
  upgrading : w'.sock.upgrading = false → w.sock.upgrading = false ∨ g'.owesFlush = true
  wire : w.wire <+: w'.wire

theorem Remains.of_eq {w w' : World} {g g' : Goroutine}
    (hg : g'.flight = none ∨ g.inFlush = true) (hr : w'.resets = w.resets)
    (hu : w'.sock.upgrading = w.sock.upgrading) (hw : w'.wire = w.wire) : Remains w g w' g' :=
  ⟨hg, hr, fun h => .inl (hu ▸ h), hw ▸ List.prefix_rfl⟩

theorem startCall_remains {w w' : World} {g g' : Goroutine} {c : Call}
    (h : startCall w c = some (w', g')) : Remains w g w' g' := by
  revert h
  fun_cases startCall w c <;> intro h <;> cases h <;> exact .of_eq (.inl rfl) rfl rfl rfl

theorem execOpen_remains {w w' : World} {o : Origin} {pc : OpenPc} {a : Choice} {g' : Goroutine}
    (h : execOpen w o pc a = some (w', g')) (hopen : w'.sock.state = .open) :
    Remains w ⟨o, .opening pc⟩ w' g' := by
  revert h
  fun_cases execOpen w o pc a <;> intro h <;> cases h
  case case2 s hs =>
    obtain ⟨-, rfl⟩ := Socket.beginOpen_eq_some.1 hs
    cases hopen
  all_goals exact .of_eq (.inl rfl) rfl rfl rfl

theorem execFlush_remains {w w' : World} {o : Origin} {pc : FlushPc} {a : Choice} {g' : Goroutine}
    (h : execFlush w o pc a = some (w', g')) : Remains w ⟨o, .flush pc⟩ w' g' := by
  revert h
  fun_cases execFlush w o pc a <;> intro h <;> cases h
  · exact .of_eq (.inl rfl) rfl rfl rfl
  · next hs =>
    obtain ⟨-, rfl⟩ := Socket.send_eq_some.1 hs
    exact .of_eq (.inl rfl) rfl rfl rfl
  · exact .of_eq (.inr rfl) rfl rfl rfl
  · next hs =>
    obtain ⟨-, rfl, -, -⟩ := Socket.beginFlush_eq_some.1 hs
    exact .of_eq (.inr rfl) rfl rfl rfl
  · exact ⟨.inr rfl, rfl, .inl, List.prefix_append _ _⟩
  · exact .of_eq (.inr rfl) rfl rfl rfl
  · exact .of_eq (.inr rfl) rfl rfl rfl
  · exact .of_eq (.inr rfl) rfl rfl rfl
  · next hs =>
    obtain ⟨-, rfl⟩ := Socket.endFlush_eq_some hs
    exact .of_eq (.inr rfl) rfl rfl rfl

theorem execClose_remains {w w' : World} {o : Origin} {pc : ClosePc} {a : Choice} {g' : Goroutine}
    (h : execClose w o pc a = some (w', g')) : Remains w ⟨o, .close pc⟩ w' g' := by
  revert h
  fun_cases execClose w o pc a <;> intro h <;> cases h
  case case5 hs =>
    obtain ⟨-, rfl, -⟩ := Socket.beginCloseTransport_eq_some.1 hs
    exact .of_eq (.inl rfl) rfl rfl rfl
  all_goals exact .of_eq (.inl rfl) rfl rfl rfl

theorem execPacket_remains {w w' : World} {o : Origin} {pc : PacketPc} {a : Choice} {g' : Goroutine}
    (h : execPacket w o pc a = some (w', g')) : Remains w ⟨o, .packet pc⟩ w' g' := by
  obtain ⟨timer, htimer⟩ := Socket.reschedulePingTimeout_eq (o.conn w) w.sock
  revert h
  fun_cases execPacket w o pc a <;> intro h <;> cases h
  case case3 =>
    rw [htimer]
    refine .of_eq (.inl ?_) rfl rfl rfl
    split
    · rfl
    · split <;> rfl
  case case6 =>
    refine .of_eq (.inl ?_) rfl rfl rfl
    split <;> rfl
  case case7 =>
    rw [htimer]
    exact .of_eq (.inl rfl) rfl rfl rfl
  all_goals exact .of_eq (.inl rfl) rfl rfl rfl

theorem execTeardown_remains {w w' : World} {o : Origin} {pc : TeardownPc} {a : Choice}
    {g' : Goroutine} (h : execTeardown w o pc a = some (w', g')) (hopen : w'.sock.state = .open) :
    Remains w ⟨o, .teardown pc⟩ w' g' := by
  revert h
  fun_cases execTeardown w o pc a <;> intro h <;> cases h
  · rename_i hs
    obtain ⟨-, rfl⟩ := Socket.beginRetry_eq_true hs
    cases hopen
  · rename_i hs
    obtain ⟨-, rfl⟩ := Socket.beginRetry_eq_false hs
    exact .of_eq (.inl rfl) rfl rfl rfl
  · exact .of_eq (.inl rfl) rfl rfl rfl
  · rename_i hs
    obtain ⟨-, rfl, -⟩ := Socket.beginTeardown_eq_some.1 hs
    cases hopen
  · exact .of_eq (.inl rfl) rfl rfl rfl

theorem execProbe_remains {w w' : World} {o : Origin} {pc : ProbePc} {a : Choice} {g' : Goroutine}
    (h : execProbe w o pc a = some (w', g')) : Remains w ⟨o, .probe pc⟩ w' g' := by
  revert h
  fun_cases execProbe w o pc a <;> intro h <;> cases h
  case case6 t _ ok =>
    refine ⟨.inl rfl, rfl, .inl, ?_⟩
    cases ok
    · exact List.prefix_rfl
    · exact List.prefix_append _ _
  case case10 hs =>
    obtain ⟨-, rfl, -⟩ := Socket.beginUpgrade_eq_some.1 hs
    exact ⟨.inl rfl, rfl, fun h => (by cases h), List.prefix_rfl⟩
  case case13 => exact ⟨.inl rfl, rfl, .inl, List.prefix_append _ _⟩
  -- the two sections that end an upgrade are followed by a flush
  case case15 => exact ⟨.inl rfl, rfl, fun _ => .inr rfl, List.prefix_rfl⟩
  case case17 hs =>
    obtain ⟨-, rfl⟩ := Socket.adoptTransport_eq_some.1 hs
    exact ⟨.inl rfl, rfl, fun _ => .inr rfl, List.prefix_rfl⟩
  all_goals exact .of_eq (.inl rfl) rfl rfl rfl

theorem exec_remains {w w' : World} {g g' : Goroutine} {a : Choice}
    (h : exec w g a = some (w', g')) (hopen : w'.sock.state = .open) : Remains w g w' g' := by
  have hd := (exec_dispatch h).2
  clear h
  cases hd with
  | call h => exact startCall_remains h
  | opening h => exact execOpen_remains h hopen
  | flush h => exact execFlush_remains h
  | close h => exact execClose_remains h
  | packet h => exact execPacket_remains h
  | teardown h => exact execTeardown_remains h hopen
  | probe h => exact execProbe_remains h

theorem exec_inFlush {w : World} {g : Goroutine} {a : Choice} {r : World × Goroutine}
    (h : exec w g a = some r) (hg : g.inFlush = true) :
    ∃ o pc, g = ⟨o, .flush pc⟩ ∧ execFlush w o pc a = some r := by
  have hd := (exec_dispatch h).2
  clear h
  cases hd with
  | flush h => exact ⟨_, _, rfl, h⟩
  | _ => cases hg

theorem Goroutine.inFlush_of_flight {g : Goroutine} (h : g.flight ≠ none) : g.inFlush = true := by
  obtain ⟨o, pc⟩ := g
  cases pc with
  | flush pc =>
    cases pc with
    | sendChunks | endFlush => rfl
    | send | beginFlush => exact absurd rfl h
  | _ => exact absurd rfl h

theorem Goroutine.inFlush_of_owesFlush {g : Goroutine} (h : g.owesFlush = true) :
    g.inFlush = true := by
  unfold Goroutine.owesFlush at h
  split at h
  · next heq => simp [Goroutine.inFlush, heq]
  · next heq => simp [Goroutine.inFlush, heq]
  · cases h

/-- Outside the writing part of a flush, and short of a reset, the buffer only grows, by packets accepted
    last. -/
theorem BufferStep.appends {w w' : World} {g g' : Goroutine} (h : BufferStep w g w' g')
    (hg : g.flight = none) (hr : w'.resets = w.resets) :
    (w'.sock.flushing = w.sock.flushing ∨ w'.sock.flushing = true ∧ g'.flight ≠ none) ∧
      ∃ new, w'.sock.writeBuffer = w.sock.writeBuffer ++ new ∧ w'.accepted = w.accepted ++ new ∧
        ∀ e ∈ new, w.accepted.length ≤ e.seq := by
  cases h with
  | quiet hb hf _ ha _ => exact ⟨.inl hf, [], by simpa using hb, by simpa using ha, by simp⟩
  | push ps hb hf _ ha _ =>
    exact ⟨.inl hf, w.stamp ps, hb, ha, fun e he => (World.stamp_seq he).1⟩
  | begin hb hf hf' _ ha hg' =>
    exact ⟨.inr ⟨hf', by simp [hg']⟩, [], by simpa using hb, by simpa using ha, by simp⟩
  | finish r handed hg' _ _ _ _ => rw [hg] at hg'; cases hg'
  | reset _ _ hr' _ _ => omega

theorem BufferStep.accepted_le {w w' : World} {g g' : Goroutine} (h : BufferStep w g w' g') :
    w.accepted.length ≤ w'.accepted.length := by
  cases h with
  | push _ _ _ _ ha _ => rw [ha, List.length_append]; omega
  | quiet _ _ _ ha _ => rw [ha]
  | begin _ _ _ _ ha _ => rw [ha]
  | finish _ _ _ _ _ ha _ => rw [ha]
  | reset _ _ _ ha _ => rw [ha]

theorem World.stamp_map_seq (w : World) (ps : List Packet) :
    (w.stamp ps).map Entry.seq = (List.range ps.length).map (w.accepted.length + ·) := by
  rw [List.range_eq_range', ← List.zipIdx_map_snd 0 ps, World.stamp, List.map_map, List.map_map]
  rfl

theorem BufferStep.numbered {w w' : World} {g g' : Goroutine} (h : BufferStep w g w' g')
    (hI : w.Numbered) : w'.Numbered := by
  unfold World.Numbered at *
  cases h with
  | push ps _ _ _ ha _ =>
    rw [ha, List.map_append, hI, World.stamp_map_seq, List.length_append, List.range_add]
    simp [World.stamp]
  | quiet _ _ _ ha _ => rw [ha, hI]
  | begin _ _ _ _ ha _ => rw [ha, hI]
  | finish _ _ _ _ _ ha _ => rw [ha, hI]
  | reset _ _ _ ha _ => rw [ha, hI]

/-! ## What a flush in flight has done -/

/-- All chunks can be posted but for single packets that are too large, what has been handed over is not too
    large and has been written, and what ended a failed flush is a packet that is too large. -/
def Goroutine.Progress (M : Int) (w : World) (g : Goroutine) : Prop :=
  match g.pc with
  | .flush (.sendChunks _ _ t handed chunks) =>
    t.type = .polling ∧ (∀ chunk ∈ chunks, chunk ≠ [] ∧ Fits M chunk) ∧
      ∀ e ∈ handed, Entry.size e ≤ M ∧ ∃ t, .entry t e ∈ w.wire
  | .flush (.endFlush _ _ _ handed failed) =>
    (failed = true → ∃ e, M < Entry.size e ∧ handed ++ [e] <+: w.sock.writeBuffer) ∧
      ∀ e ∈ handed, Entry.size e ≤ M ∧ ∃ t, .entry t e ∈ w.wire
  | _ => True

theorem Goroutine.Progress.of_flight {M : Int} {w : World} {g : Goroutine} (h : g.flight = none) :
    g.Progress M w := by
  unfold Goroutine.flight at h
  unfold Goroutine.Progress
  split
  · next heq => simp [heq, FlushPc.flight] at h
  · next heq => simp [heq, FlushPc.flight] at h
  · trivial

theorem Goroutine.Progress.mono {M : Int} {w w' : World} {g : Goroutine} (h : g.Progress M w)
    (hb : w.sock.writeBuffer <+: w'.sock.writeBuffer) (hw : w.wire <+: w'.wire) :
    g.Progress M w' := by
  have hwritten : ∀ {handed : List Entry},
      (∀ e ∈ handed, Entry.size e ≤ M ∧ ∃ t, .entry t e ∈ w.wire) →
      ∀ e ∈ handed, Entry.size e ≤ M ∧ ∃ t, .entry t e ∈ w'.wire := by
    intro handed hall e he
    obtain ⟨hsize, t, ht⟩ := hall e he
    exact ⟨hsize, t, hw.subset ht⟩
  unfold Goroutine.Progress at *
  split
  · next heq =>
    rw [heq] at h
    exact ⟨h.1, h.2.1, hwritten h.2.2⟩
  · next heq =>
    rw [heq] at h
    refine ⟨fun hfailed => ?_, hwritten h.2⟩
    obtain ⟨e, hlarge, hprefix⟩ := h.1 hfailed
    exact ⟨e, hlarge, hprefix.trans hb⟩
  · trivial

/-- What the outline asserts about each goroutine. -/
structure Watcher.Holds (M : Int) (m : Watch) (l : Watcher) : Prop where
  informed : l.goroutine.Informed m.world
  current : ∀ r es, l.goroutine.flight = some (r, es) → r = m.world.resets
  progress : l.goroutine.Progress M m.world
  inFlush : l.began ≠ none → l.goroutine.inFlush = true
  began : l.goroutine.flight ≠ none → l.began ≠ none
  began_le : ∀ n ∈ l.began, n ≤ m.world.accepted.length

/-- And about the memory. -/
structure Watch.Sound (M : Int) (m : Watch) : Prop where
  openPolling : m.world.OpenPolling M
  ranked : m.world.Ranked
  numbered : m.world.Numbered
  kept : m.world.Kept M
  returned_le : m.returned ≤ m.world.accepted.length

/-- A chunk that is rejected although `chunkPackets` cut it is a single packet. -/
theorem rejected_single {M : Int} {chunk : List Entry} (hne : chunk ≠ []) (hfits : Fits M chunk)
    (hlarge : ¬ payloadSize chunk ≤ M) : ∃ e, chunk = [e] ∧ M < Entry.size e := by
  rcases hfits with hone | hsmall
  · have hpos := List.length_pos_iff.2 hne
    rw [List.length_map] at hone
    obtain ⟨e, rfl⟩ := List.length_eq_one_iff.1 (show chunk.length = 1 by omega)
    rw [payloadSize_singleton] at hlarge
    exact ⟨e, rfl, by omega⟩
  · exact absurd hsmall hlarge

theorem size_le_payloadSize {chunk : List Entry} {e : Entry} (h : e ∈ chunk) :
    Entry.size e ≤ payloadSize chunk := by
  obtain ⟨l, r, rfl⟩ := List.append_of_mem h
  have hleft := payloadSize_le_append_left l [e]
  have hright := payloadSize_le_append (l ++ [e]) r
  rw [payloadSize_singleton] at hleft
  rw [List.append_assoc, List.singleton_append] at hright
  omega

theorem execFlush_progress {M : Int} (hM : 0 < M) {w w' : World} {o : Origin} {pc : FlushPc}
    {a : Choice} {g' : Goroutine} (h : execFlush w o pc a = some (w', g'))
    (hw : w.OpenPolling M) (hserves : serves M ⟨o, .flush pc⟩ a = true)
    (hown : ∀ r es, pc.flight = some (r, es) → es <+: w.sock.writeBuffer)
    (hp : Goroutine.Progress M w ⟨o, .flush pc⟩) : g'.Progress M w' := by
  revert h
  fun_cases execFlush w o pc a <;> intro h <;> cases h
  · exact .of_flight rfl
  · exact .of_flight rfl
  · exact .of_flight (Cont.resume_flight _ _)
  · next hs =>
    obtain ⟨⟨ht, -, -, hne, -⟩, rfl, rfl, rfl⟩ := Socket.beginFlush_eq_some.1 hs
    obtain ⟨-, htype, rfl⟩ := hw
    rw [ht] at htype
    have hcut := (chunkPackets_cut hM hne).1
    refine ⟨Option.some.inj htype, fun chunk hchunk => ?_, by simp⟩
    exact ⟨hcut.ne_nil chunk hchunk, hcut.admissible chunk hchunk⟩
  · next t handed chunk chunks =>
    obtain ⟨htype, hchunks, hwritten⟩ := hp
    refine ⟨htype, (List.forall_mem_cons.1 hchunks).2, fun e he => ?_⟩
    rcases List.mem_append.1 he with hold | hnew
    · obtain ⟨hsize, t', ht'⟩ := hwritten e hold
      exact ⟨hsize, t', List.mem_append_left _ ht'⟩
    · -- the server has taken the chunk, so no packet of it is too large
      have hchunk : payloadSize chunk ≤ M := by simpa [serves, htype] using hserves
      exact ⟨(size_le_payloadSize hnew).trans hchunk, t, List.mem_append_right _ (List.mem_map_of_mem hnew)⟩
  · next t handed chunk chunks =>
    obtain ⟨htype, hchunks, hwritten⟩ := hp
    obtain ⟨⟨hne, hfits⟩, -⟩ := List.forall_mem_cons.1 hchunks
    have hlarge : ¬ payloadSize chunk ≤ M := by simpa [serves, htype] using hserves
    obtain ⟨e, rfl, he⟩ := rejected_single hne hfits hlarge
    refine ⟨fun _ => ⟨e, he, ?_⟩, hwritten⟩
    have hprefix := hown _ _ rfl
    rw [List.flatten_cons, ← List.append_assoc] at hprefix
    exact (List.prefix_append _ _).trans hprefix
  · exact ⟨fun hfailed => (by cases hfailed), hp.2.2⟩
  · exact hp
  · refine .of_flight ?_
    split
    · rfl
    · exact Cont.resume_flight _ _

theorem World.Kept.mono {M : Int} {w w' : World} (h : w.Kept M) (ha : w'.accepted = w.accepted)
    (hb : w'.sock.writeBuffer = w.sock.writeBuffer) (hw : w.wire <+: w'.wire) : w'.Kept M := by
  obtain ⟨gone, hsplit, hgone⟩ := h
  refine ⟨gone, by rw [ha, hb, hsplit], fun e he => ?_⟩
  obtain ⟨hsize, t, ht⟩ := hgone e he
  exact ⟨hsize, t, hw.subset ht⟩

/-- A packet leaves the buffer only when it has been written. -/
theorem execFlush_kept {M : Int} {w w' : World} {o : Origin} {pc : FlushPc} {a : Choice}
    {g' : Goroutine} (h : execFlush w o pc a = some (w', g')) (hflight : pc.flight ≠ none)
    (hown : ∀ r es, pc.flight = some (r, es) → es <+: w.sock.writeBuffer)
    (hp : Goroutine.Progress M w ⟨o, .flush pc⟩) (hkept : w.Kept M) : w'.Kept M := by
  revert h
  fun_cases execFlush w o pc a <;> intro h <;> cases h
  · exact absurd rfl hflight
  · exact absurd rfl hflight
  · exact absurd rfl hflight
  · exact absurd rfl hflight
  · exact hkept.mono rfl rfl (List.prefix_append _ _)
  · exact hkept
  · exact hkept
  · exact hkept
  · next r t handed failed _ _ hs =>
    obtain ⟨-, rfl⟩ := Socket.endFlush_eq_some hs
    by_cases hopen : w.sock.state = .open
    · obtain ⟨gone, hsplit, hgone⟩ := hkept
      obtain ⟨rest, hrest⟩ := hown _ _ rfl
      refine ⟨gone ++ handed, ?_, fun e he => ?_⟩
      · simp [hsplit, hopen, ← hrest]
      · rcases List.mem_append.1 he with hold | hnew
        · exact hgone e hold
        · exact hp.2 e hnew
    · exact hkept.mono rfl (if_neg hopen) List.prefix_rfl

/-! ## The outline -/

/-- What is noted about a section. -/
inductive Noted (m : Watch) (l : Watcher) (m' : Watch) (l' : Watcher) : Prop
  | outside (hg : l.goroutine.inFlush = false) (hl : l'.began = none)
      (hr : m'.returned = m.returned)
  | inside (hg : l.goroutine.inFlush = true) (hg' : l'.goroutine.inFlush = true)
      (hl : l'.began = some (l.began.getD m.world.accepted.length)) (hr : m'.returned = m.returned)
  | returns (hg : l.goroutine.inFlush = true) (hg' : l'.goroutine.inFlush = false)
      (hl : l'.began = none)
      (hr : m'.returned = max m.returned (l.began.getD m.world.accepted.length))

theorem watch_eq_some {m m' : Watch} {l l' : Watcher} {a : Choice}
    (h : watch m l a = some (m', l')) :
    exec m.world l.goroutine a = some (m'.world, l'.goroutine) ∧ Noted m l m' l' := by
  obtain ⟨⟨w', g'⟩, hx, hr⟩ := Option.map_eq_some_iff.1 h
  cases hg : l.goroutine.inFlush with
  | false =>
    simp only [hg, Bool.false_eq_true, if_false] at hr
    cases hr
    exact ⟨hx, .outside hg rfl rfl⟩
  | true =>
    cases hg' : g'.inFlush with
    | false =>
      simp only [hg, hg', if_true, Bool.false_eq_true, if_false] at hr
      cases hr
      exact ⟨hx, .returns hg hg' rfl rfl⟩
    | true =>
      simp only [hg, hg', if_true] at hr
      cases hr
      exact ⟨hx, .inside hg hg' rfl rfl⟩

theorem Watcher.Holds.own {M : Int} {m : Watch} {l : Watcher} (h : l.Holds M m) (r : Nat)
    (es : List Entry) (hf : l.goroutine.flight = some (r, es)) : es <+: m.world.sock.writeBuffer :=
  (h.informed r es hf).own (h.current r es hf)

theorem Watcher.Holds.began_getD_le {M : Int} {m : Watch} {l : Watcher} (h : l.Holds M m) :
    l.began.getD m.world.accepted.length ≤ m.world.accepted.length := by
  cases hb : l.began with
  | none => exact Nat.le_refl _
  | some n => exact h.began_le n hb

/-- Packets leave the buffer in the last section of a flush only. -/
theorem exec_kept {M : Int} {w w' : World} {g g' : Goroutine} {a : Choice} (h : exec w g a = some (w', g'))
    (hopen' : w'.sock.state = .open) (hown : ∀ r es, g.flight = some (r, es) → es <+: w.sock.writeBuffer)
    (hp : g.Progress M w) (hkept : w.Kept M) : w'.Kept M := by
  have hremains := exec_remains h hopen'
  cases hflight : g.flight with
  | none =>
    obtain ⟨-, new, hb, ha, -⟩ := (exec_buffer h).appends hflight hremains.resets
    obtain ⟨gone, hsplit, hgone⟩ := hkept
    refine ⟨gone, by rw [ha, hb, hsplit, List.append_assoc], fun e he => ?_⟩
    obtain ⟨hsize, t, ht⟩ := hgone e he
    exact ⟨hsize, t, hremains.wire.subset ht⟩
  | some q =>
    have hne : g.flight ≠ none := by simp [hflight]
    obtain ⟨o, pc, rfl, hf⟩ := exec_inFlush h (Goroutine.inFlush_of_flight hne)
    exact execFlush_kept hf hne hown hp hkept

/-- A section keeps the memory in order. -/
theorem watch_sound {M : Int} {m m' : Watch} {l l' : Watcher} {a : Choice} (h : watch m l a = some (m', l'))
    (hC : Served M m l a) (hI : m.Sound M) (hJ : l.Holds M m) : m'.Sound M := by
  obtain ⟨hx, hnoted⟩ := watch_eq_some h
  have hopen' : m'.world.OpenPolling M := hC.1 _ h
  have hbuffer := exec_buffer hx
  refine ⟨hopen', hbuffer.ranked hI.ranked, hbuffer.numbered hI.numbered,
    exec_kept hx hopen'.1 hJ.own hJ.progress hI.kept, ?_⟩
  have haccepted := hbuffer.accepted_le
  have hgetD := hJ.began_getD_le
  have hle := hI.returned_le
  cases hnoted with
  | outside _ _ hr => omega
  | inside _ _ _ hr => omega
  | returns _ _ _ hr => omega

/-- It keeps the assertions of the goroutine that runs it. -/
theorem watch_holds {M : Int} (hM : 0 < M) {m m' : Watch} {l l' : Watcher} {a : Choice}
    (h : watch m l a = some (m', l')) (hC : Served M m l a) (hI : m.Sound M) (hJ : l.Holds M m) :
    l'.Holds M m' := by
  obtain ⟨hx, hnoted⟩ := watch_eq_some h
  have hbuffer := exec_buffer hx
  have hremains := exec_remains hx (hC.1 _ h).1
  have haccepted := hbuffer.accepted_le
  have hgetD := hJ.began_getD_le
  refine ⟨hbuffer.informed hI.ranked hJ.informed, ?_, ?_, ?_, ?_, ?_⟩
  · intro r es hf
    cases hbuffer with
    | quiet _ _ hr _ hg =>
      obtain ⟨es', hes', -⟩ := hg r es hf
      rw [hr]
      exact hJ.current r es' hes'
    | begin _ _ _ hr _ hg =>
      rw [hg] at hf
      cases hf
      exact hr.symm
    | push _ _ _ _ _ hg => rw [hg] at hf; cases hf
    | finish _ _ _ _ _ _ hg => rw [hg] at hf; cases hf
    | reset _ _ _ _ hg => rw [hg] at hf; cases hf
  · rcases hremains.flight with hnone | hin
    · exact .of_flight hnone
    · obtain ⟨o, pc, hg, hf⟩ := exec_inFlush hx hin
      have hserves := hC.2
      have hown := hJ.own
      have hp := hJ.progress
      rw [hg] at hserves hown hp
      exact execFlush_progress hM hf hI.openPolling hserves hown hp
  · intro hne
    cases hnoted with
    | outside _ hl _ => exact absurd hl hne
    | inside _ hg' _ _ => exact hg'
    | returns _ _ hl _ => exact absurd hl hne
  · intro hflight
    have hin := hremains.flight.resolve_left hflight
    have hin' := Goroutine.inFlush_of_flight hflight
    cases hnoted with
    | outside hg _ _ => rw [hin] at hg; cases hg
    | inside _ _ hl _ => simp [hl]
    | returns _ hg' _ _ => rw [hin'] at hg'; cases hg'
  · intro n hn
    cases hnoted with
    | outside _ hl _ => rw [hl] at hn; cases hn
    | inside _ _ hl _ =>
      rw [hl] at hn
      cases hn
      omega
    | returns _ _ hl _ => rw [hl] at hn; cases hn

/-- And those of any bystander. -/
theorem watch_bystander {M : Int} {m m' : Watch} {l l' b : Watcher} {a : Choice}
    (h : watch m l a = some (m', l')) (hC : Served M m l a) (hJ : b.Holds M m)
    (hK : l.goroutine.Exclusive b.goroutine) :
    b.Holds M m' ∧ l'.goroutine.Exclusive b.goroutine := by
  obtain ⟨hx, -⟩ := watch_eq_some h
  have hbuffer := exec_buffer hx
  have hremains := exec_remains hx (hC.1 _ h).1
  have haccepted := hbuffer.accepted_le
  obtain ⟨hinformed, hexclusive⟩ := hbuffer.bystander hJ.informed hK
  refine ⟨⟨hinformed, ?_, ?_, hJ.inFlush, hJ.began, fun n hn => (hJ.began_le n hn).trans haccepted⟩, hexclusive⟩
  · rw [hremains.resets]
    exact hJ.current
  · rcases hK with hmover | hidle
    · obtain ⟨-, new, hb, -, -⟩ := hbuffer.appends hmover hremains.resets
      exact hJ.progress.mono (hb ▸ List.prefix_append _ _) hremains.wire
    · exact .of_flight hidle

theorem watched_outline {M : Int} (hM : 0 < M) {c : Pool Watch Watcher}
    (hc : (watched M).Reach (Served M) c) :
    c.shared.Sound M ∧ (∀ i, (c.thread i).Holds M c.shared) ∧
      ∀ i j, i ≠ j → (c.thread i).goroutine.Exclusive (c.thread j).goroutine := by
  refine hc.outline (K := fun l b => l.goroutine.Exclusive b.goroutine) (fun l b => Or.symm) (.inl rfl)
    ?_ ?_
  · rintro m ⟨hm, hreturned⟩
    refine ⟨⟨hm.openPolling, hm.ranked, hm.numbered, ⟨[], hm.waiting, by simp⟩, by omega⟩, ?_, ?_, trivial,
      fun h => absurd rfl h, fun h => absurd rfl h, ?_⟩
    · intro r es hf; cases hf
    · intro r es hf; cases hf
    · intro n hn; cases hn
  · intro m l a m' l' hC hI hJ hx
    exact ⟨watch_sound hx hC hI hJ, watch_holds hM hx hC hI hJ, fun b hJb hKb => watch_bystander hx hC hJb hKb⟩

/-! ## Who takes care of the buffer -/

theorem Socket.endFlush_more {s s' : Socket} {sent : Nat} {failed more : Bool}
    (h : s.endFlush sent failed = some (s', more)) :
    more = (!failed && s.state = .open && !s.upgrading && s.transport.isSome &&
      !s'.writeBuffer.isEmpty) := by
  unfold Socket.endFlush at h
  split at h
  · cases h
  · cases h
    rfl

/-- A flush stays in flight until its last section lowers the flag. -/
theorem execFlush_flight {w w' : World} {o : Origin} {pc : FlushPc} {a : Choice} {g' : Goroutine}
    (h : execFlush w o pc a = some (w', g')) (hflight : pc.flight ≠ none)
    (hflushing : w'.sock.flushing = true) : g'.flight ≠ none := by
  revert h
  fun_cases execFlush w o pc a <;> intro h <;> cases h
  · exact absurd rfl hflight
  · exact absurd rfl hflight
  · exact absurd rfl hflight
  · exact absurd rfl hflight
  · exact Option.some_ne_none _
  · exact Option.some_ne_none _
  · exact Option.some_ne_none _
  · exact Option.some_ne_none _
  · next hs =>
    obtain ⟨-, rfl⟩ := Socket.endFlush_eq_some hs
    cases hflushing

/-- The flag is up only while a flush is in flight. -/
theorem flushing_owner {M : Int} {c : Pool Watch Watcher} (hc : (watched M).Reach (Served M) c) :
    c.shared.world.sock.flushing = true → ∃ i, (c.thread i).goroutine.flight ≠ none := by
  refine hc.owner (H := fun m => m.world.sock.flushing = true)
    (O := fun l => l.goroutine.flight ≠ none) ?_ ?_
  · rintro m ⟨hm, -⟩
    simp [hm.flushing]
  · intro c i a m' l' _ hC h hflushing
    obtain ⟨hx, -⟩ := watch_eq_some h
    have hremains := exec_remains hx (hC.1 _ h).1
    cases hflight : (c.thread i).goroutine.flight with
    | none =>
      rcases ((exec_buffer hx).appends hflight hremains.resets).1 with hsame | ⟨-, hnew⟩
      · exact .inl ⟨hsame ▸ hflushing, by simp⟩
      · exact .inr hnew
    | some q =>
      have hne : (c.thread i).goroutine.flight ≠ none := by simp [hflight]
      obtain ⟨o, pc, hg, hf⟩ := exec_inFlush hx (Goroutine.inFlush_of_flight hne)
      rw [hg] at hne
      exact .inr (execFlush_flight hf hne hflushing)

/-- The packet at the head of the buffer is larger than the maximum. -/
def Blocked (M : Int) (buffer : List Entry) : Prop := ∃ e ∈ buffer.head?, M < Entry.size e

instance (M : Int) (buffer : List Entry) : Decidable (Blocked M buffer) := by
  unfold Blocked
  infer_instance

/-- A packet that a returned flush should have written waits in a buffer that could be written. -/
structure Watch.Overdue (M : Int) (m : Watch) : Prop where
  upgrading : m.world.sock.upgrading = false
  flushing : m.world.sock.flushing = false
  waiting : ∃ e ∈ m.world.sock.writeBuffer, e.seq < m.returned
  blocked : ¬ Blocked M m.world.sock.writeBuffer

/-- A flush returns with nothing overdue: it was refused for a reason, or it wrote everything up to a packet
    that is too large. -/
theorem not_overdue_of_return {M : Int} {w w' : World} {o : Origin} {pc : FlushPc} {a : Choice}
    {g' : Goroutine} (h : execFlush w o pc a = some (w', g')) (hw : w.OpenPolling M)
    (hin : Goroutine.inFlush ⟨o, .flush pc⟩ = true) (hout : g'.inFlush = false)
    (hp : Goroutine.Progress M w ⟨o, .flush pc⟩) {n : Nat} : ¬ Watch.Overdue M ⟨w', n⟩ := by
  rintro ⟨hupgrading, hflushing, ⟨e, he, -⟩, hblocked⟩
  obtain ⟨hopen, htype, -⟩ := hw
  obtain ⟨t, ht, -⟩ := Option.map_eq_some_iff.1 htype
  revert h
  fun_cases execFlush w o pc a <;> intro h <;> cases h
  · cases hin
  · cases hin
  · next hs =>
    simp only [Socket.beginFlush, ht, hopen] at hs
    simp_all
  · cases hout
  · cases hout
  · cases hout
  · cases hout
  · cases hout
  · next k r t' handed failed s more hs =>
    obtain ⟨-, hs'⟩ := Socket.endFlush_eq_some hs
    have hmore : more = false := by
      cases more
      · rfl
      · cases hout
    have hfailed : failed = true := by
      have hne : s.writeBuffer.isEmpty = false := by simpa using List.ne_nil_of_mem he
      have hup : w.sock.upgrading = false := by
        rw [hs'] at hupgrading
        exact hupgrading
      simpa [hmore, hopen, ht, hne, hup] using Socket.endFlush_more hs
    subst hs'
    simp only [hopen, if_true] at hblocked
    obtain ⟨big, hbig, rest, hrest⟩ := hp.1 hfailed
    refine hblocked ⟨big, ?_, hbig⟩
    rw [← hrest, List.append_assoc, List.drop_left]
    rfl

/-- What is overdue has a flush that runs, or that an upgrade owes. -/
theorem overdue_owner {M : Int} (hM : 0 < M) {c : Pool Watch Watcher}
    (hc : (watched M).Reach (Served M) c) :
    c.shared.Overdue M →
      ∃ i, (c.thread i).began ≠ none ∨ (c.thread i).goroutine.owesFlush = true := by
  refine hc.owner (O := fun l => l.began ≠ none ∨ l.goroutine.owesFlush = true) ?_ ?_
  · rintro m ⟨-, hreturned⟩ ⟨-, -, ⟨e, -, he⟩, -⟩
    omega
  · intro c i a m' l' hc hC h hoverdue
    obtain ⟨hI, hJ, -⟩ := watched_outline hM hc
    obtain ⟨hx, hnoted⟩ := watch_eq_some h
    have hremains := exec_remains hx (hC.1 _ h).1
    cases hnoted with
    | inside _ _ hl _ => exact .inr (.inl (by simp [hl]))
    | returns hg hg' _ hr =>
      obtain ⟨o, pc, hpc, hf⟩ := exec_inFlush hx hg
      have hp := (hJ i).progress
      rw [hpc] at hg hp
      exact absurd hoverdue (not_overdue_of_return hf hI.openPolling hg hg' hp)
    | outside hg hl hr =>
      by_cases howes : l'.goroutine.owesFlush = true
      · exact .inr (.inr howes)
      · have hflight : (c.thread i).goroutine.flight = none := by
          by_contra hne
          rw [Goroutine.inFlush_of_flight hne] at hg
          cases hg
        obtain ⟨hflushing, new, hb, -, hnew⟩ := (exec_buffer hx).appends hflight hremains.resets
        obtain ⟨hup, hdown, ⟨e, he, hlt⟩, hblocked⟩ := hoverdue
        -- a packet accepted just now is not overdue
        have hold : e ∈ c.shared.world.sock.writeBuffer := by
          rw [hb] at he
          refine (List.mem_append.1 he).resolve_right fun hmem => ?_
          have hseq := hnew e hmem
          have hle := hI.returned_le
          omega
        refine .inl ⟨⟨?_, ?_, ⟨e, hold, hr ▸ hlt⟩, ?_⟩, ?_⟩
        · exact (hremains.upgrading hup).resolve_right howes
        · rcases hflushing with hsame | ⟨htrue, -⟩
          · exact hsame ▸ hdown
          · rw [hdown] at htrue
            cases htrue
        · rintro ⟨big, hbig, hsize⟩
          refine hblocked ⟨big, ?_, hsize⟩
          rw [hb]
          exact List.mem_head?_append_of_mem_head? hbig
        · rintro (hbegan | howed)
          · rw [(hJ i).inFlush hbegan] at hg
            cases hg
          · rw [Goroutine.inFlush_of_owesFlush howed] at hg
            cases hg

/-- With a head that is not too large, nothing is overdue where no flush runs or is owed. -/
theorem not_waiting_of_head {M : Int} (hM : 0 < M) {c : Pool Watch Watcher}
    (hc : (watched M).Reach (Served M) c) (hflush : ∀ i, (c.thread i).began = none)
    (hupgrading : c.shared.world.sock.upgrading = false)
    (hupgraded : ∀ i, (c.thread i).goroutine.owesFlush = false)
    (hhead : ¬ Blocked M c.shared.world.sock.writeBuffer) {e : Entry} (hreturned : e.seq < c.shared.returned) :
    e ∉ c.shared.world.sock.writeBuffer := by
  obtain ⟨-, hJ, -⟩ := watched_outline hM hc
  have hflushing : c.shared.world.sock.flushing = false := by
    by_contra hup
    obtain ⟨i, hi⟩ := flushing_owner hc (by simpa using hup)
    exact (hJ i).began hi (hflush i)
  intro hbuffer
  obtain ⟨i, hbegan | howes⟩ := overdue_owner hM hc ⟨hupgrading, hflushing, ⟨e, hbuffer, hreturned⟩, hhead⟩
  · exact hbegan (hflush i)
  · rw [hupgraded i] at howes
    cases howes

theorem World.Numbered.sorted {w : World} (h : w.Numbered) :
    w.accepted.Pairwise fun e b => e.seq < b.seq := by
  rw [← List.pairwise_map (f := Entry.seq) (R := (· < ·)), h]
  exact List.pairwise_lt_range

/-- **An oversized message blocks those behind it, and no others.** On a polling connection with the maximum `M`,
    against a server that rejects exactly the payloads larger than `M`, for any calls on any number of goroutines
    and in every state in which no flush is running and no upgrade is in progress: no packet of at most `M` bytes
    that was accepted before a flush that has returned is left in the buffer, and all of them have been written,
    if and only if no packet larger than `M` was accepted before one of them. -/
theorem backlog_written_iff (M : Int) (hM : 0 < M) (c : Pool Watch Watcher)
    (hc : (watched M).Reach (Served M) c) (hflush : ∀ i, (c.thread i).began = none)
    (hupgrading : c.shared.world.sock.upgrading = false)
    (hupgraded : ∀ i, (c.thread i).goroutine.owesFlush = false) :
    (∀ e ∈ c.shared.world.accepted, e.seq < c.shared.returned → Entry.size e ≤ M →
      e ∉ c.shared.world.sock.writeBuffer ∧ ∃ t, .entry t e ∈ c.shared.world.wire) ↔
    ∀ e ∈ c.shared.world.accepted, e.seq < c.shared.returned → Entry.size e ≤ M →
      ∀ b ∈ c.shared.world.accepted, b.seq < e.seq → Entry.size b ≤ M := by
  obtain ⟨hI, -, -⟩ := watched_outline hM hc
  obtain ⟨gone, hsplit, hgone⟩ := hI.kept
  have hsorted := hI.numbered.sorted
  rw [hsplit] at hsorted
  obtain ⟨-, hwaiting, hbehind⟩ := List.pairwise_append.1 hsorted
  constructor
  · intro hwritten e he hreturned hsmall b hb hbefore
    have hout := (hwritten e he hreturned hsmall).1
    rw [hsplit] at he hb
    have hleft : e ∈ gone := (List.mem_append.1 he).resolve_right hout
    rcases List.mem_append.1 hb with hb | hb
    · exact (hgone b hb).1
    · have hafter := hbehind e hleft b hb
      omega
  · intro hsmaller e he hreturned hsmall
    have hout : e ∉ c.shared.world.sock.writeBuffer := by
      intro hbuffer
      refine not_waiting_of_head hM hc hflush hupgrading hupgraded ?_ hreturned hbuffer
      -- the head of the buffer is the packet itself, or was accepted before it
      rintro ⟨b, hb, hlarge⟩
      obtain ⟨rest, hrest⟩ := List.head?_eq_some_iff.1 hb
      rw [hrest] at hbuffer hwaiting
      have hmem : b ∈ c.shared.world.accepted := by simp [hsplit, hrest]
      rcases List.mem_cons.1 hbuffer with rfl | hlater
      · omega
      · have hb := hsmaller e he hreturned hsmall b hmem ((List.pairwise_cons.1 hwaiting).1 e hlater)
        omega
    rw [hsplit] at he
    exact ⟨hout, (hgone e ((List.mem_append.1 he).resolve_right hout)).2⟩

/-- A polling connection with a maximum of two bytes. -/
def twoByteConnection : Pool Watch Watcher :=
  ⟨{ world := { sock := { state := .open, transport := some ⟨0, .polling⟩, maxPayload := 2 } } },
    fun _ => { goroutine := .idle }⟩

theorem twoByteConnection_reach : (watched 2).Reach (Served 2) twoByteConnection := by
  exact .init ⟨⟨⟨rfl, rfl, rfl⟩, rfl, rfl, rfl, rfl, rfl, rfl⟩, rfl⟩

/-- A message of `n` bytes, which takes one byte more on the wire. -/
def bytesMessage (n : Nat) : Packet := { type := .message, data := List.replicate n 97 }

/-- A goroutine sends a message, and the transport accepts it or not. -/
def sendBy (i n : Nat) (ok : Bool) : List (Nat × Choice) :=
  [(i, Choice.call (.send [bytesMessage n])), (i, .go), (i, .go), (i, .sent ok), (i, .go)]

/-- A message of two bytes on the wire, and then one of three bytes, which the server rejects and which stays at
    the head of the buffer. -/
theorem backlog_written_two_bytes :
    ∃ c, (watched 2).Reach (Served 2) c ∧ c.shared.returned = 2 ∧ c.shared.world.accepted.length = 2 ∧
      Blocked 2 c.shared.world.sock.writeBuffer ∧
      ∀ e ∈ c.shared.world.accepted, e.seq < 2 → Entry.size e ≤ 2 →
        e ∉ c.shared.world.sock.writeBuffer ∧ ∃ t, .entry t e ∈ c.shared.world.wire := by
  have hrun : ∃ c, (watched 2).runIf (Served 2) twoByteConnection
      (sendBy 0 1 true ++ [(0, .go)] ++ sendBy 0 2 false) = some c ∧ c.shared.returned = 2 ∧
      c.shared.world.accepted = [⟨bytesMessage 1, 0, 0⟩, ⟨bytesMessage 2, 0, 1⟩] ∧
      c.shared.world.sock.writeBuffer = [⟨bytesMessage 2, 0, 1⟩] ∧ c.shared.world.sock.upgrading = false ∧
      ∀ i, (c.thread i).began = none ∧ (c.thread i).goroutine.owesFlush = false := by
    refine ⟨_, rfl, rfl, rfl, rfl, rfl, fun i => ?_⟩
    cases i with
    | zero => exact ⟨rfl, rfl⟩
    | succ i => exact ⟨rfl, rfl⟩
  obtain ⟨c, hrun, hreturned, haccepted, hbuffer, hup, hquiet⟩ := hrun
  have hc := twoByteConnection_reach.runIf hrun
  refine ⟨c, hc, hreturned, by rw [haccepted]; rfl, by rw [hbuffer]; decide, ?_⟩
  rw [← hreturned]
  refine (backlog_written_iff 2 (by decide) c hc (fun i => (hquiet i).1) hup (fun i => (hquiet i).2)).2 ?_
  rw [haccepted, hreturned]
  decide

/-- A message of three bytes on the wire is accepted and rejected by the server. The message of two bytes sent
    next is behind it: its flush begins with the large one and returns, and it stays in the buffer. -/
theorem small_message_left_behind :
    ∃ c, (watched 2).Reach (Served 2) c ∧ (∀ i, (c.thread i).began = none) ∧
      c.shared.world.sock.upgrading = false ∧ (∀ i, (c.thread i).goroutine.owesFlush = false) ∧
      ∃ e ∈ c.shared.world.accepted, e.seq < c.shared.returned ∧ Entry.size e ≤ 2 ∧
        e ∈ c.shared.world.sock.writeBuffer ∧ c.shared.world.wire = [] := by
  have hrun : ∃ c, (watched 2).runIf (Served 2) twoByteConnection
      (sendBy 0 2 false ++ sendBy 0 1 false) = some c ∧ c.shared.returned = 2 ∧
      c.shared.world.sock.upgrading = false ∧ c.shared.world.wire = [] ∧
      (∃ e ∈ c.shared.world.accepted, e.seq < 2 ∧ Entry.size e ≤ 2 ∧
        e ∈ c.shared.world.sock.writeBuffer) ∧
      ∀ i, (c.thread i).began = none ∧ (c.thread i).goroutine.owesFlush = false := by
    refine ⟨_, rfl, rfl, rfl, rfl, ⟨⟨bytesMessage 1, 0, 1⟩, by decide, by decide, by decide, by decide⟩,
      fun i => ?_⟩
    cases i with
    | zero => exact ⟨rfl, rfl⟩
    | succ i => exact ⟨rfl, rfl⟩
  obtain ⟨c, hrun, hreturned, hup, hwire, ⟨e, he, hlt, hsize, hbuffer⟩, hquiet⟩ := hrun
  exact ⟨c, twoByteConnection_reach.runIf hrun, fun i => (hquiet i).1, hup, fun i => (hquiet i).2,
    e, he, hreturned ▸ hlt, hsize, hbuffer, hwire⟩

end EngineIo.Client
