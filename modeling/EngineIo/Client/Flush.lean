import EngineIo.Client.Goroutine

set_option autoImplicit false

/-! # A flush and the write buffer across connections

A flush snapshots the write buffer in one section, writes the snapshot outside the lock, and drops
what it wrote in a last section. The `flushing` flag makes it the only flush in between, but it does
not keep the buffer from being reset and refilled meanwhile: a teardown followed by a new `Open` and
a new handshake brings the socket back to the state the last section tests for.

`exec_buffer` says what a section can do to the buffer. From it follows what a flush in flight knows
about its snapshot (`Snapshot`), and from that exactly when its last section is safe. -/

namespace EngineIo.Client

open Concurrency

/-- The snapshot a flush in flight works on: how often the buffer had been reset when it was taken,
    and the packets it has written or may still write. -/
def FlushPc.flight : FlushPc → Option (Nat × List Entry)
  | .sendChunks _ r _ handed chunks => some (r, handed ++ chunks.flatten)
  | .endFlush _ r _ handed _ => some (r, handed)
  | .send _ | .beginFlush _ => none

def Goroutine.flight (g : Goroutine) : Option (Nat × List Entry) :=
  match g.pc with
  | .flush pc => pc.flight
  | _ => none

theorem Cont.resume_flight (o : Origin) (k : Cont) : (k.resume o).flight = none := by
  cases k <;> rfl

/-- What a section can do to the write buffer and to the flush it may belong to. -/
inductive BufferStep (w : World) (g : Goroutine) (w' : World) (g' : Goroutine) : Prop
  | quiet (hb : w'.sock.writeBuffer = w.sock.writeBuffer)
      (hf : w'.sock.flushing = w.sock.flushing) (hr : w'.resets = w.resets)
      (ha : w'.accepted = w.accepted)
      (hg : ∀ r es, g'.flight = some (r, es) → ∃ es', g.flight = some (r, es') ∧ es <+: es')
  | push (ps : List Packet) (hb : w'.sock.writeBuffer = w.sock.writeBuffer ++ w.stamp ps)
      (hf : w'.sock.flushing = w.sock.flushing) (hr : w'.resets = w.resets)
      (ha : w'.accepted = w.accepted ++ w.stamp ps) (hg : g'.flight = none)
  | begin (hb : w'.sock.writeBuffer = w.sock.writeBuffer) (hf : w.sock.flushing = false)
      (hf' : w'.sock.flushing = true) (hr : w'.resets = w.resets)
      (ha : w'.accepted = w.accepted) (hg : g'.flight = some (w.resets, w.sock.writeBuffer))
  | finish (r : Nat) (handed : List Entry) (hg : g.flight = some (r, handed))
      (hb : w'.sock.writeBuffer =
        if w.sock.state = .open then w.sock.writeBuffer.drop handed.length
        else w.sock.writeBuffer)
      (hr : w'.resets = w.resets) (ha : w'.accepted = w.accepted) (hg' : g'.flight = none)
  | reset (hb : w'.sock.writeBuffer = []) (hf : w'.sock.flushing = w.sock.flushing)
      (hr : w'.resets = w.resets + 1) (ha : w'.accepted = w.accepted) (hg : g'.flight = none)

/-- A section that leaves the buffer alone and ends outside a flush. -/
theorem BufferStep.leave {w w' : World} {g g' : Goroutine}
    (hb : w'.sock.writeBuffer = w.sock.writeBuffer) (hf : w'.sock.flushing = w.sock.flushing)
    (hr : w'.resets = w.resets) (ha : w'.accepted = w.accepted) (hg : g'.flight = none) :
    BufferStep w g w' g' :=
  .quiet hb hf hr ha fun r es h => by rw [hg] at h; cases h

theorem startCall_buffer {w w' : World} {g g' : Goroutine} {c : Call}
    (h : startCall w c = some (w', g')) : BufferStep w g w' g' := by
  revert h
  fun_cases startCall w c <;> intro h <;> cases h <;> exact .leave rfl rfl rfl rfl rfl

theorem execOpen_buffer {w w' : World} {o : Origin} {pc : OpenPc} {a : Choice} {g' : Goroutine}
    (h : execOpen w o pc a = some (w', g')) : BufferStep w ⟨o, .opening pc⟩ w' g' := by
  revert h
  fun_cases execOpen w o pc a <;> intro h <;> cases h
  case case2 s hs =>
    obtain ⟨-, rfl⟩ := Socket.beginOpen_eq_some.1 hs
    exact .reset rfl rfl rfl rfl rfl
  all_goals exact .leave rfl rfl rfl rfl rfl

theorem execFlush_buffer {w w' : World} {o : Origin} {pc : FlushPc} {a : Choice} {g' : Goroutine}
    (h : execFlush w o pc a = some (w', g')) : BufferStep w ⟨o, .flush pc⟩ w' g' := by
  revert h
  fun_cases execFlush w o pc a <;> intro h <;> cases h
  · exact .leave rfl rfl rfl rfl rfl
  · rename_i hs
    obtain ⟨-, rfl⟩ := Socket.send_eq_some.1 hs
    exact .push _ rfl rfl rfl rfl rfl
  · exact .leave rfl rfl rfl rfl (Cont.resume_flight _ _)
  · rename_i hs
    obtain ⟨⟨-, -, -, -, hf⟩, rfl, rfl, rfl⟩ := Socket.beginFlush_eq_some.1 hs
    refine .begin rfl hf rfl rfl rfl ?_
    simp [Goroutine.flight, FlushPc.flight, Socket.chunkPackets_flatten]
  · refine .quiet rfl rfl rfl rfl fun r es h => ⟨es, ?_, List.prefix_rfl⟩
    simpa [Goroutine.flight, FlushPc.flight] using h
  · -- a failed write gives up the chunks not yet written
    refine .quiet rfl rfl rfl rfl fun r es h => ?_
    simp only [Goroutine.flight, FlushPc.flight, Option.some.injEq, Prod.mk.injEq] at h
    obtain ⟨rfl, rfl⟩ := h
    exact ⟨_, rfl, List.prefix_append _ _⟩
  · refine .quiet rfl rfl rfl rfl fun r es h => ⟨es, ?_, List.prefix_rfl⟩
    simpa [Goroutine.flight, FlushPc.flight] using h
  · exact .quiet rfl rfl rfl rfl fun r es h => ⟨es, h, List.prefix_rfl⟩
  · rename_i hs
    obtain ⟨-, rfl⟩ := Socket.endFlush_eq_some hs
    refine .finish _ _ rfl rfl rfl rfl ?_
    split
    · rfl
    · exact Cont.resume_flight _ _

theorem execClose_buffer {w w' : World} {o : Origin} {pc : ClosePc} {a : Choice} {g' : Goroutine}
    (h : execClose w o pc a = some (w', g')) : BufferStep w ⟨o, .close pc⟩ w' g' := by
  revert h
  fun_cases execClose w o pc a <;> intro h <;> cases h
  case case5 hs =>
    obtain ⟨-, rfl, -⟩ := Socket.beginCloseTransport_eq_some.1 hs
    exact .leave rfl rfl rfl rfl rfl
  all_goals exact .leave rfl rfl rfl rfl rfl

theorem execPacket_buffer {w w' : World} {o : Origin} {pc : PacketPc} {a : Choice}
    {g' : Goroutine} (h : execPacket w o pc a = some (w', g')) :
    BufferStep w ⟨o, .packet pc⟩ w' g' := by
  obtain ⟨timer, htimer⟩ := Socket.reschedulePingTimeout_eq (o.conn w) w.sock
  revert h
  fun_cases execPacket w o pc a <;> intro h <;> cases h
  · exact .leave rfl rfl rfl rfl rfl
  · exact .leave rfl rfl rfl rfl rfl
  · refine .leave ?_ ?_ rfl rfl ?_
    · rw [htimer]
    · rw [htimer]
    · split
      · rfl
      · split <;> rfl
  · exact .leave rfl rfl rfl rfl rfl
  · exact .leave rfl rfl rfl rfl rfl
  · refine .leave rfl rfl rfl rfl ?_
    split <;> rfl
  · refine .leave ?_ ?_ rfl rfl rfl
    · rw [htimer]
    · rw [htimer]
  · exact .leave rfl rfl rfl rfl rfl
  · exact .leave rfl rfl rfl rfl rfl

theorem execTeardown_buffer {w w' : World} {o : Origin} {pc : TeardownPc} {a : Choice}
    {g' : Goroutine} (h : execTeardown w o pc a = some (w', g')) :
    BufferStep w ⟨o, .teardown pc⟩ w' g' := by
  revert h
  fun_cases execTeardown w o pc a <;> intro h <;> cases h
  · rename_i hs
    obtain ⟨-, rfl⟩ := Socket.beginRetry_eq_true hs
    exact .reset rfl rfl rfl rfl rfl
  · rename_i hs
    obtain ⟨-, rfl⟩ := Socket.beginRetry_eq_false hs
    exact .leave rfl rfl rfl rfl rfl
  · exact .leave rfl rfl rfl rfl rfl
  · rename_i hs
    obtain ⟨-, rfl, -⟩ := Socket.beginTeardown_eq_some.1 hs
    exact .reset rfl rfl rfl rfl rfl
  · exact .leave rfl rfl rfl rfl rfl

theorem execProbe_buffer {w w' : World} {o : Origin} {pc : ProbePc} {a : Choice} {g' : Goroutine}
    (h : execProbe w o pc a = some (w', g')) : BufferStep w ⟨o, .probe pc⟩ w' g' := by
  revert h
  fun_cases execProbe w o pc a <;> intro h <;> cases h
  case case10 hs =>
    obtain ⟨-, rfl, -⟩ := Socket.beginUpgrade_eq_some.1 hs
    exact .leave rfl rfl rfl rfl rfl
  case case17 hs =>
    obtain ⟨-, rfl⟩ := Socket.adoptTransport_eq_some.1 hs
    exact .leave rfl rfl rfl rfl rfl
  all_goals exact .leave rfl rfl rfl rfl rfl

theorem exec_buffer {w w' : World} {g g' : Goroutine} {a : Choice}
    (h : exec w g a = some (w', g')) : BufferStep w g w' g' := by
  have hd := (exec_dispatch h).2
  clear h
  cases hd with
  | call h => exact startCall_buffer h
  | opening h => exact execOpen_buffer h
  | flush h => exact execFlush_buffer h
  | close h => exact execClose_buffer h
  | packet h => exact execPacket_buffer h
  | teardown h => exact execTeardown_buffer h
  | probe h => exact execProbe_buffer h

/-! ## What a flush in flight knows -/

theorem World.stamp_seq {w : World} {ps : List Packet} {e : Entry} (h : e ∈ w.stamp ps) :
    w.accepted.length ≤ e.seq ∧ e.seq < (w.accepted ++ w.stamp ps).length := by
  obtain ⟨⟨p, i⟩, hq, rfl⟩ := List.mem_map.1 h
  obtain ⟨hlt, -⟩ := List.mem_zipIdx' hq
  simp only [World.stamp, List.length_append, List.length_map, List.length_zipIdx]
  omega

/-- Ranks are handed out in order, so every buffered packet has one already given. -/
def World.Ranked (w : World) : Prop := ∀ e ∈ w.sock.writeBuffer, e.seq < w.accepted.length

/-- The snapshot `es`, taken when the buffer had been reset `r` times: as long as there was no
    further reset it is still at the front of the buffer, and afterwards the buffer holds none of
    its packets. -/
structure Snapshot (w : World) (r : Nat) (es : List Entry) : Prop where
  flushing : w.sock.flushing = true
  taken : r ≤ w.resets
  ranked : ∀ e ∈ es, e.seq < w.accepted.length
  own : r = w.resets → es <+: w.sock.writeBuffer
  other : r ≠ w.resets → ∀ e ∈ w.sock.writeBuffer, e ∉ es

theorem Snapshot.shrink {w : World} {r : Nat} {es es' : List Entry} (h : Snapshot w r es')
    (hp : es <+: es') : Snapshot w r es where
  flushing := h.flushing
  taken := h.taken
  ranked := fun e he => h.ranked e (hp.subset he)
  own := fun hr => hp.trans (h.own hr)
  other := fun hr e he hm => h.other hr e he (hp.subset hm)

/-- Every goroutine in flight knows its snapshot. -/
def Goroutine.Informed (w : World) (g : Goroutine) : Prop :=
  ∀ r es, g.flight = some (r, es) → Snapshot w r es

/-- At most one of two goroutines is in flight. -/
def Goroutine.Exclusive (g m : Goroutine) : Prop := g.flight = none ∨ m.flight = none

theorem Snapshot.quiet {w w' : World} {r : Nat} {es : List Entry} (h : Snapshot w r es)
    (hb : w'.sock.writeBuffer = w.sock.writeBuffer) (hf : w'.sock.flushing = w.sock.flushing)
    (hr : w'.resets = w.resets) (ha : w'.accepted = w.accepted) : Snapshot w' r es where
  flushing := by rw [hf]; exact h.flushing
  taken := by rw [hr]; exact h.taken
  ranked := by rw [ha]; exact h.ranked
  own := by rw [hr, hb]; exact h.own
  other := by rw [hr, hb]; exact h.other

theorem Snapshot.push {w w' : World} {r : Nat} {es : List Entry} {ps : List Packet}
    (h : Snapshot w r es) (hb : w'.sock.writeBuffer = w.sock.writeBuffer ++ w.stamp ps)
    (hf : w'.sock.flushing = w.sock.flushing) (hr : w'.resets = w.resets)
    (ha : w'.accepted = w.accepted ++ w.stamp ps) : Snapshot w' r es where
  flushing := by rw [hf]; exact h.flushing
  taken := by rw [hr]; exact h.taken
  ranked := by
    intro e he
    have := h.ranked e he
    rw [ha, List.length_append]
    omega
  own := by
    rw [hr, hb]
    intro hown
    exact (h.own hown).trans (List.prefix_append _ _)
  other := by
    rw [hr, hb]
    intro hne e he hm
    rcases List.mem_append.1 he with hold | hnew
    · exact h.other hne e hold hm
    · -- a new packet has a rank that none of the snapshot's packets has
      have h1 := (World.stamp_seq hnew).1
      have h2 := h.ranked e hm
      omega

theorem Snapshot.reset {w w' : World} {r : Nat} {es : List Entry} (h : Snapshot w r es)
    (hb : w'.sock.writeBuffer = []) (hf : w'.sock.flushing = w.sock.flushing)
    (hr : w'.resets = w.resets + 1) (ha : w'.accepted = w.accepted) : Snapshot w' r es where
  flushing := by rw [hf]; exact h.flushing
  taken := by rw [hr]; exact Nat.le_succ_of_le h.taken
  ranked := by rw [ha]; exact h.ranked
  own := by
    have := h.taken
    intro hown
    omega
  other := by
    rw [hb]
    intro _ e he
    cases he

theorem BufferStep.ranked {w w' : World} {g g' : Goroutine} (h : BufferStep w g w' g')
    (hI : w.Ranked) : w'.Ranked := by
  unfold World.Ranked at *
  cases h with
  | quiet hb hf hr ha hg => rw [hb, ha]; exact hI
  | push ps hb hf hr ha hg =>
    rw [hb, ha]
    intro e he
    rcases List.mem_append.1 he with hold | hnew
    · have := hI e hold
      rw [List.length_append]
      omega
    · exact (World.stamp_seq hnew).2
  | begin hb hf hf' hr ha hg => rw [hb, ha]; exact hI
  | finish r handed hg hb hr ha hg' =>
    rw [hb, ha]
    intro e he
    split at he
    · exact hI e (List.mem_of_mem_drop he)
    · exact hI e he
  | reset hb hf hr ha hg => rw [hb]; intro e he; cases he

theorem BufferStep.informed {w w' : World} {g g' : Goroutine} (h : BufferStep w g w' g')
    (hI : w.Ranked) (hJ : g.Informed w) : g'.Informed w' := by
  intro r es hes
  cases h with
  | quiet hb hf hr ha hg =>
    obtain ⟨es', hg', hp⟩ := hg r es hes
    exact ((hJ r es' hg').shrink hp).quiet hb hf hr ha
  | begin hb hf hf' hr ha hg =>
    rw [hg] at hes
    obtain ⟨rfl, rfl⟩ : w.resets = r ∧ w.sock.writeBuffer = es := by simpa using hes
    refine ⟨hf', hr.ge, ?_, fun _ => ?_, fun hne => absurd hr.symm hne⟩
    · rw [ha]; exact hI
    · simp [hb]
  | push _ _ _ _ _ hg => rw [hg] at hes; cases hes
  | finish _ _ _ _ _ _ hg => rw [hg] at hes; cases hes
  | reset _ _ _ _ hg => rw [hg] at hes; cases hes

theorem BufferStep.bystander {w w' : World} {g g' m : Goroutine} (h : BufferStep w g w' g')
    (hJ : m.Informed w) (hK : g.Exclusive m) : m.Informed w' ∧ g'.Exclusive m := by
  by_cases hm : m.flight = none
  · refine ⟨fun r es hes => ?_, .inr hm⟩
    rw [hm] at hes
    cases hes
  · -- the bystander is the flush in flight, so the goroutine that moves is not
    have hg : g.flight = none := hK.resolve_right hm
    obtain ⟨⟨r₀, es₀⟩, h₀⟩ := Option.ne_none_iff_exists'.1 hm
    have hflush : w.sock.flushing = true := (hJ r₀ es₀ h₀).flushing
    cases h with
    | quiet hb hf hr ha hg' =>
      refine ⟨fun r es hes => (hJ r es hes).quiet hb hf hr ha, .inl ?_⟩
      cases hfl : g'.flight with
      | none => rfl
      | some q =>
        obtain ⟨es', hes', -⟩ := hg' q.1 q.2 hfl
        rw [hg] at hes'
        cases hes'
    | push ps hb hf hr ha hg' =>
      exact ⟨fun r es hes => (hJ r es hes).push hb hf hr ha, .inl hg'⟩
    | begin hb hf hf' hr ha hg' => rw [hf] at hflush; cases hflush
    | finish r handed hg' hb hr ha hg'' => rw [hg] at hg'; cases hg'
    | reset hb hf hr ha hg' =>
      exact ⟨fun r es hes => (hJ r es hes).reset hb hf hr ha, .inl hg'⟩

/-- In every reachable pool at most one flush is in flight, and it knows its snapshot. -/
theorem flight_informed {C : World → Goroutine → Choice → Prop} {c : Pool World Goroutine}
    (h : program.Reach C c) :
    c.shared.Ranked ∧ (∀ i, (c.thread i).Informed c.shared) ∧
      ∀ i j, i ≠ j → (c.thread i).Exclusive (c.thread j) := by
  refine h.outline (K := Goroutine.Exclusive) (fun l m => Or.symm) (.inl rfl) ?_ ?_
  · rintro s ⟨upgrade, rememberUpgrade, tryAll, transports, rfl⟩
    refine ⟨?_, ?_⟩
    · intro e he; cases he
    · intro r es hes; cases hes
  · intro w g a w' g' _ hI hJ hx
    have hstep := exec_buffer hx
    exact ⟨hstep.ranked hI, hstep.informed hI hJ, fun m hJm hKm => hstep.bystander hJm hKm⟩

/-! ## The last section of a flush -/

/-- `writeBuffer[sent:]` is in range, and drops only packets this flush handed to a transport. -/
def TrimsOwn (w : World) (handed : List Entry) : Prop :=
  handed.length ≤ w.sock.writeBuffer.length ∧
    ∀ e ∈ w.sock.writeBuffer.take handed.length, e ∈ handed

/-- No reset of the write buffer lies between the snapshot of the flush that finishes and its last
    section, unless it wrote nothing or the socket is not open. -/
def FinishesInTime (w : World) (g : Goroutine) (_ : Choice) : Prop :=
  ∀ k r t handed failed, g.pc = .flush (.endFlush k r t handed failed) → w.sock.state = .open →
    handed = [] ∨ r = w.resets

def Goroutine.finishesInTime (w : World) (g : Goroutine) : Bool :=
  match g.pc with
  | .flush (.endFlush _ r _ handed _) => w.sock.state ≠ .open || handed = [] || r = w.resets
  | _ => true

theorem finishesInTime_iff {w : World} {g : Goroutine} {a : Choice} :
    FinishesInTime w g a ↔ g.finishesInTime w = true := by
  unfold FinishesInTime Goroutine.finishesInTime
  split
  · next k r t handed failed hpc =>
    constructor
    · intro h
      have hcases := h k r t handed failed hpc
      by_cases hopen : w.sock.state = .open <;> simp_all
    · intro h k' r' t' handed' failed' hpc' hopen
      cases hpc.symm.trans hpc'
      simpa [hopen] using h
  · next hpc => exact ⟨fun _ => rfl, fun _ k r t handed failed h => absurd h (hpc k r t handed failed)⟩

instance (w : World) (g : Goroutine) (a : Choice) : Decidable (FinishesInTime w g a) :=
  decidable_of_iff _ finishesInTime_iff.symm

theorem Snapshot.trimsOwn_iff {w : World} {r : Nat} {handed : List Entry}
    (h : Snapshot w r handed) : TrimsOwn w handed ↔ handed = [] ∨ r = w.resets := by
  constructor
  · rintro ⟨hlen, hown⟩
    by_contra hcon
    obtain ⟨hne, hr⟩ := not_or.1 hcon
    have hpos : 0 < handed.length := List.length_pos_iff.2 hne
    cases hb : w.sock.writeBuffer with
    | nil => simp [hb] at hlen; exact hne hlen
    | cons e rest =>
      have hmem : e ∈ w.sock.writeBuffer := by rw [hb]; exact List.mem_cons_self ..
      refine h.other hr e hmem (hown e ?_)
      rw [hb]
      obtain ⟨n, hn⟩ := Nat.exists_eq_succ_of_ne_zero hpos.ne'
      rw [hn]
      exact List.mem_cons_self ..
  · rintro (rfl | hr)
    · exact ⟨Nat.zero_le _, fun e he => by simp at he⟩
    · have hp := h.own hr
      refine ⟨hp.length_le, fun e he => ?_⟩
      rwa [← List.prefix_iff_eq_take.1 hp] at he

/-- **A flush finishes safely exactly when its buffer was not reset.** In every run and for every
    flush about to run its last section on an open socket, the slice expression is in range and
    drops only what this flush wrote if and only if nothing was written or the buffer has not been
    reset since the snapshot; and a run in which every flush finishes in time never panics. -/
theorem flush_trims_own_iff (c : Pool World Goroutine) :
    (program.Reachable c → ∀ i k r t handed failed,
      (c.thread i).pc = .flush (.endFlush k r t handed failed) → c.shared.sock.state = .open →
        (TrimsOwn c.shared handed ↔ handed = [] ∨ r = c.shared.resets)) ∧
    (program.Reach FinishesInTime c → c.shared.panicked = false) := by
  have hiff : ∀ c, program.Reachable c → ∀ i k r t handed failed,
      (c.thread i).pc = .flush (.endFlush k r t handed failed) →
        (TrimsOwn c.shared handed ↔ handed = [] ∨ r = c.shared.resets) := by
    intro c hc i k r t handed failed hpc
    refine ((flight_informed hc).2.1 i r handed ?_).trimsOwn_iff
    simp [Goroutine.flight, hpc, FlushPc.flight]
  refine ⟨fun hc i k r t handed failed hpc _ => hiff c hc i k r t handed failed hpc, fun hc => ?_⟩
  cases hc with
  | init h => obtain ⟨_, _, _, _, rfl⟩ := h; rfl
  | @step c c' i a hc hC h =>
    obtain ⟨w', g', hx, rfl⟩ := Program.step_eq_some h
    by_contra hp
    obtain ⟨k, r, t, handed, failed, hpc, hopen, hlt⟩ := exec_panicked hx (by simpa using hp)
    have hown := (hiff c hc.reachable i k r t handed failed hpc).2
      (hC k r t handed failed hpc hopen)
    exact absurd hown.1 (by omega)

/-- A message is sent, and its flush finishes before anything else happens. -/
theorem flush_trims_own_iff_in_time :
    ∃ c, program.Reach FinishesInTime c ∧ c.shared.accepted.length = 1 ∧ c.shared.sock.writeBuffer = [] ∧
      c.shared.sock.state = .open ∧ c.shared.panicked = false := by
  have hrun : ∃ c, program.runIf FinishesInTime fresh
      (openBy 0 ++ handshakeBy 1 1 serverOpen ++
        [(2, .call (.send [{ type := .message }])), (2, .go), (2, .go), (2, .sent true), (2, .go), (2, .go)]) = some c ∧
      c.shared.accepted.length = 1 ∧ c.shared.sock.writeBuffer = [] ∧ c.shared.sock.state = .open :=
    ⟨_, rfl, rfl, rfl, rfl⟩
  obtain ⟨c, hrun, haccepted, hbuffer, hopen⟩ := hrun
  have hc : program.Reach FinishesInTime c := Program.Reach.runIf (.init ⟨true, false, false, _, rfl⟩) hrun
  exact ⟨c, hc, haccepted, hbuffer, hopen, (flush_trims_own_iff c).2 hc⟩

/-- Two messages are being written when the transport closes; the user reopens, the new handshake
    completes and one message is sent; then the old write returns. -/
def lateWrite : List (Nat × Choice) :=
  openBy 0 ++ handshakeBy 1 1 serverOpen ++
    [(2, Choice.call (.send [{ type := .message }, { type := .message }])), (2, .go), (2, .go)] ++
    closedBy 3 1 ++ openBy 0 ++ handshakeBy 4 2 serverOpen ++
    [(5, Choice.call (.send [{ type := .message }])), (5, .go), (5, .go)] ++
    [(2, Choice.sent true), (2, .go), (2, .go)]

/-- The flush of the first connection slices beyond the end of the second connection's buffer. -/
theorem flush_trims_beyond_buffer :
    ∃ c, program.Reachable c ∧ c.shared.panicked = true ∧
      ∃ i k r t handed failed, (c.thread i).pc = .flush (.endFlush k r t handed failed) ∧
        c.shared.sock.state = .open ∧ ¬ TrimsOwn c.shared handed := by
  have hrun : ∃ c, program.run fresh lateWrite = some c ∧ c.shared.panicked = true ∧
      c.shared.sock.state = .open ∧ c.shared.sock.writeBuffer.length = 1 ∧
      ∃ k r t e e' failed, (c.thread 2).pc = .flush (.endFlush k r t [e, e'] failed) :=
    ⟨_, rfl, rfl, rfl, rfl, _, _, _, _, _, _, rfl⟩
  obtain ⟨c, hrun, hpanic, hopen, hlen, k, r, t, e, e', failed, hpc⟩ := hrun
  refine ⟨c, fresh_reachable.run hrun, hpanic, 2, k, r, t, [e, e'], failed, hpc, hopen, ?_⟩
  rintro ⟨hle, -⟩
  simp only [List.length_cons, List.length_nil] at hle
  omega

end EngineIo.Client
