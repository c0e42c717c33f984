import EngineIo.Concurrency.Stock
import Mathlib.Data.List.Infix

set_option autoImplicit false

/-! # Compressed poll responses (`writePollResponse` in `server.go`)

A response that is worth it is compressed by a writer of `gzipWriterPool` into a buffer of `gzipBufferPool`; both are
shared by all polls and are given back when the response has been written. A writer writes to the buffer that it was
reset to, whoever has that buffer by then, so a writer or a buffer that were in two hands would mix two responses.

`exec` are the sections of one call, which are run against those of any number of others. -/

namespace EngineIo.Server

open Concurrency

/-- `maxPooledPayloadBuffer`. -/
def maxPooledPayloadBuffer : Nat := 64 * 1024

/-- The capacity of a buffer after an append that makes its length `length`; `wanted` is what it grows to if it has to,
    unless that is too little. -/
def grown (capacity length wanted : Nat) : Nat := if length ≤ capacity then capacity else max length wanted

namespace GzipPools

/-! ## Model -/

/-- The algorithm of a `gzip.Writer`: what a call of `Write` or `Close` puts out. -/
structure Compressor where
  State : Type
  init : State
  write : State → List UInt8 → State × List UInt8
  close : State → List UInt8

/-- What a writer that was reset puts out for a payload. -/
def Compressor.gzip (z : Compressor) (payload : List UInt8) : List UInt8 :=
  (z.write z.init payload).2 ++ z.close (z.write z.init payload).1

/-- A `gzip.Writer`, with the buffer it writes to. -/
structure Writer (z : Compressor) where
  state : z.State
  target : Nat

structure Memory (z : Compressor) where
  content : Nat → List UInt8 := fun _ => []
  capacity : Nat → Nat := fun _ => 0
  buffers : Stock := {}
  writer : Nat → Writer z := fun _ => ⟨z.init, 0⟩
  writers : Stock := {}

/-- Where a call is; `result` is what has been written of the response, if all of it. -/
inductive Pc
  | getBuffer
  | getWriter (b : Nat)
  | write (b w : Nat)
  | close (b w : Nat)
  | respond (b w : Nat) (body : List UInt8)
  /-- The deferred calls. -/
  | putWriter (b w : Nat) (result : Option (List UInt8))
  | putBuffer (b : Nat) (result : Option (List UInt8))
  | done (result : Option (List UInt8))
deriving DecidableEq, Repr

inductive Choice
  | go
  /-- What `Get` returns. -/
  | get (o : Option Nat)
  /-- The capacity of the buffer if it has to grow. -/
  | grow (wanted : Nat)
  | wrote (n : Nat)
  | failed
deriving DecidableEq, Repr

variable {z : Compressor}

/-- `bytes.Buffer.Write`. -/
def Memory.append (m : Memory z) (b : Nat) (bytes : List UInt8) (wanted : Nat) : Memory z :=
  { m with
    content := Function.update m.content b (m.content b ++ bytes)
    capacity := Function.update m.capacity b (grown (m.capacity b) (m.content b ++ bytes).length wanted) }

def exec (m : Memory z) (payload : List UInt8) : Pc → Choice → Option (Memory z × Pc)
  | .getBuffer, .get o =>
    (m.buffers.get o).map fun r =>
      ({ m with buffers := r.1, content := Function.update m.content r.2 [] }, .getWriter r.2)
  | .getWriter b, .get o =>
    (m.writers.get o).map fun r =>
      ({ m with writers := r.1, writer := Function.update m.writer r.2 ⟨z.init, b⟩ }, .write b r.2)
  | .write b w, .grow wanted =>
    let r := z.write (m.writer w).state payload
    let m := { m with writer := Function.update m.writer w { m.writer w with state := r.1 } }
    some (m.append (m.writer w).target r.2 wanted, .close b w)
  | .close b w, .grow wanted =>
    some (m.append (m.writer w).target (z.close (m.writer w).state) wanted, .respond b w [])
  | .write b w, .failed | .close b w, .failed => some (m, .putWriter b w none)
  | .respond b w body, .wrote n =>
    some (m, .respond b w (body ++ ((m.content b).drop body.length).take n))
  | .respond b w body, .go =>
    if body.length = (m.content b).length then some (m, .putWriter b w (some body)) else none
  | .respond b w _, .failed => some (m, .putWriter b w none)
  | .putWriter b w result, .go => some ({ m with writers := m.writers.put w }, .putBuffer b result)
  -- `putGzipBuffer`
  | .putBuffer b result, .go =>
    if maxPooledPayloadBuffer < m.capacity b then some (m, .done result)
    else some ({ m with buffers := m.buffers.put b, content := Function.update m.content b [] }, .done result)
  | _, _ => none

/-! ## The outline -/

/-- The buffer a call has in hand. -/
def Pc.buffer : Pc → Option Nat
  | .getWriter b | .write b _ | .close b _ | .respond b _ _ | .putWriter b _ _ | .putBuffer b _ => some b
  | .getBuffer | .done _ => none

/-- The writer it has in hand. -/
def Pc.writer : Pc → Option Nat
  | .write _ w | .close _ w | .respond _ w _ | .putWriter _ w _ => some w
  | _ => none

structure Memory.Sound (m : Memory z) : Prop where
  buffers : m.buffers.Sound
  writers : m.writers.Sound

/-- How far a call is with its payload. -/
def Pc.Stands (m : Memory z) (payload : List UInt8) : Pc → Prop
  | .getBuffer => True
  | .getWriter b => m.content b = []
  | .write b w => m.content b = [] ∧ m.writer w = ⟨z.init, b⟩
  | .close b w => m.content b = (z.write z.init payload).2 ∧ m.writer w = ⟨(z.write z.init payload).1, b⟩
  | .respond b _ body => m.content b = z.gzip payload ∧ body <+: m.content b
  | .putWriter _ _ result | .putBuffer _ result | .done result => ∀ body, result = some body → body = z.gzip payload

structure Pc.Holds (m : Memory z) (payload : List UInt8) (l : Pc) : Prop where
  buffer : ∀ b, l.buffer = some b → m.buffers.Out b
  writer : ∀ w, l.writer = some w → m.writers.Out w
  stands : l.Stands m payload

/-- No two calls have one buffer or one writer in hand. -/
structure Pc.Apart (l k : Pc) : Prop where
  buffer : ∀ b, l.buffer = some b → k.buffer ≠ some b
  writer : ∀ w, l.writer = some w → k.writer ≠ some w

theorem Pc.Apart.symm {l k : Pc} (h : l.Apart k) : k.Apart l where
  buffer b hk hl := h.buffer b hl hk
  writer w hk hl := h.writer w hl hk

variable {m m' : Memory z} {payload : List UInt8} {l l' k : Pc}

theorem holds_getBuffer : Pc.getBuffer.Holds m payload :=
  ⟨fun _ h => (by cases h), fun _ h => (by cases h), trivial⟩

theorem apart_getBuffer : Pc.getBuffer.Apart k :=
  ⟨fun _ h => (by cases h), fun _ h => (by cases h)⟩

/-- A section keeps the pools in order, leaves its own call in order, and the others alone. -/
structure Keeps (m : Memory z) (payload : List UInt8) (l : Pc) (m' : Memory z) (l' : Pc) : Prop where
  sound : m'.Sound
  holds : l'.Holds m' payload
  others : ∀ (k : Pc) (payload' : List UInt8), k.Holds m payload' → l.Apart k → k.Holds m' payload' ∧ l'.Apart k

/-- What a call has in hand is left alone. -/
theorem Pc.Holds.frame (h : k.Holds m payload)
    (hbuffer : ∀ b, k.buffer = some b → m'.buffers.Out b ∧ m'.content b = m.content b)
    (hwriter : ∀ w, k.writer = some w → m'.writers.Out w ∧ m'.writer w = m.writer w) : k.Holds m' payload where
  buffer b hb := (hbuffer b hb).1
  writer w hw := (hwriter w hw).1
  stands := by
    have hstands := h.stands
    cases k with
    | getBuffer => trivial
    | getWriter b => exact (hbuffer b rfl).2.trans hstands
    | write b w => exact ⟨(hbuffer b rfl).2.trans hstands.1, (hwriter w rfl).2.trans hstands.2⟩
    | close b w => exact ⟨(hbuffer b rfl).2.trans hstands.1, (hwriter w rfl).2.trans hstands.2⟩
    | respond b w body =>
      have hsame := (hbuffer b rfl).2
      exact ⟨hsame.trans hstands.1, hsame.symm ▸ hstands.2⟩
    | putWriter => exact hstands
    | putBuffer => exact hstands
    | done => exact hstands

/-- A call that keeps what it has in hand, or gives it up. -/
theorem Pc.Apart.mono (h : l.Apart k) (hbuffer : l'.buffer = none ∨ l'.buffer = l.buffer)
    (hwriter : l'.writer = none ∨ l'.writer = l.writer) : l'.Apart k := by
  obtain ⟨h₁, h₂⟩ := h
  constructor <;> grind

/-- A section that does not touch the memory. -/
theorem keeps_quiet (hm : m.Sound) (hl : l.Holds m payload) (hbuffer : l'.buffer = l.buffer)
    (hwriter : l'.writer = l.writer) (hstands : l'.Stands m payload) : Keeps m payload l m l' where
  sound := hm
  holds := ⟨fun b hb => hl.buffer b (hbuffer ▸ hb), fun w hw => hl.writer w (hwriter ▸ hw), hstands⟩
  others _ _ hk hlk := ⟨hk, hlk.mono (.inr hbuffer) (.inr hwriter)⟩

theorem keeps_getBuffer (hm : m.Sound) {buffers : Stock} {o : Option Nat} {b : Nat}
    (h : m.buffers.get o = some (buffers, b)) :
    Keeps m payload .getBuffer { m with buffers, content := Function.update m.content b [] } (.getWriter b) := by
  obtain ⟨hsound, hfresh, hout⟩ := Stock.get_spec hm.buffers h
  refine ⟨⟨hsound, hm.writers⟩, ⟨?_, fun _ h => (by cases h), Function.update_self ..⟩, fun k _ hk _ => ⟨?_, ?_⟩⟩
  · rintro _ ⟨⟩
    exact (hout b).2 (.inr rfl)
  · refine hk.frame (fun b' hb' => ?_) fun w hw => ⟨hk.writer w hw, rfl⟩
    have hne : b' ≠ b := fun heq => hfresh (heq ▸ hk.buffer b' hb')
    exact ⟨(hout b').2 (.inl (hk.buffer b' hb')), Function.update_of_ne hne ..⟩
  · refine ⟨?_, fun _ h => (by cases h)⟩
    rintro _ ⟨⟩ hb
    exact hfresh (hk.buffer b hb)

theorem keeps_getWriter (hm : m.Sound) {b : Nat} (hl : (Pc.getWriter b).Holds m payload) {writers : Stock}
    {o : Option Nat} {w : Nat} (h : m.writers.get o = some (writers, w)) :
    Keeps m payload (.getWriter b) { m with writers, writer := Function.update m.writer w ⟨z.init, b⟩ }
      (.write b w) := by
  obtain ⟨hsound, hfresh, hout⟩ := Stock.get_spec hm.writers h
  refine ⟨⟨hm.buffers, hsound⟩, ⟨hl.buffer, ?_, hl.stands, Function.update_self ..⟩,
    fun k _ hk hlk => ⟨?_, hlk.buffer, ?_⟩⟩
  · rintro _ ⟨⟩
    exact (hout w).2 (.inr rfl)
  · refine hk.frame (fun b' hb' => ⟨hk.buffer b' hb', rfl⟩) fun w' hw' => ?_
    have hne : w' ≠ w := fun heq => hfresh (heq ▸ hk.writer w' hw')
    exact ⟨(hout w').2 (.inl (hk.writer w' hw')), Function.update_of_ne hne ..⟩
  · rintro _ ⟨⟩ hw
    exact hfresh (hk.writer w hw)

/-- A section that changes nothing but the buffer and the writer in hand. -/
theorem keeps_own (hm : m.Sound) (hl : l.Holds m payload) {b w : Nat} (hb : l.buffer = some b) (hw : l.writer = some w)
    (hbuffer : l'.buffer = l.buffer) (hwriter : l'.writer = l.writer) (hstands : l'.Stands m' payload)
    (hbuffers : m'.buffers = m.buffers) (hwriters : m'.writers = m.writers)
    (hcontent : ∀ b', b' ≠ b → m'.content b' = m.content b') (hstate : ∀ w', w' ≠ w → m'.writer w' = m.writer w') :
    Keeps m payload l m' l' where
  sound := ⟨hbuffers ▸ hm.buffers, hwriters ▸ hm.writers⟩
  holds := ⟨fun b' h => hbuffers ▸ hl.buffer b' (hbuffer ▸ h),
    fun w' h => hwriters ▸ hl.writer w' (hwriter ▸ h), hstands⟩
  others k _ hk hlk := by
    refine ⟨hk.frame (fun b' hb' => ⟨hbuffers ▸ hk.buffer b' hb', hcontent b' ?_⟩) fun w' hw' =>
      ⟨hwriters ▸ hk.writer w' hw', hstate w' ?_⟩, hlk.mono (.inr hbuffer) (.inr hwriter)⟩
    · rintro rfl
      exact hlk.buffer b' hb hb'
    · rintro rfl
      exact hlk.writer w' hw hw'

theorem keeps_putWriter (hm : m.Sound) {b w : Nat} {result : Option (List UInt8)}
    (hl : (Pc.putWriter b w result).Holds m payload) :
    Keeps m payload (.putWriter b w result) { m with writers := m.writers.put w } (.putBuffer b result) := by
  obtain ⟨hsound, hout⟩ := Stock.put_spec hm.writers (hl.writer w rfl)
  refine ⟨⟨hm.buffers, hsound⟩, ⟨hl.buffer, fun _ h => (by cases h), hl.stands⟩,
    fun k _ hk hlk => ⟨?_, hlk.mono (.inr rfl) (.inl rfl)⟩⟩
  refine hk.frame (fun b' hb' => ⟨hk.buffer b' hb', rfl⟩) fun w' hw' => ⟨(hout w').2 ⟨hk.writer w' hw', ?_⟩, rfl⟩
  rintro rfl
  exact hlk.writer w' rfl hw'

theorem keeps_putBuffer (hm : m.Sound) {b : Nat} {result : Option (List UInt8)}
    (hl : (Pc.putBuffer b result).Holds m payload) :
    Keeps m payload (.putBuffer b result)
      { m with buffers := m.buffers.put b, content := Function.update m.content b [] } (.done result) := by
  obtain ⟨hsound, hout⟩ := Stock.put_spec hm.buffers (hl.buffer b rfl)
  refine ⟨⟨hsound, hm.writers⟩, ⟨fun _ h => (by cases h), fun _ h => (by cases h), hl.stands⟩,
    fun k _ hk hlk => ⟨?_, hlk.mono (.inl rfl) (.inl rfl)⟩⟩
  refine hk.frame (fun b' hb' => ?_) fun w' hw' => ⟨hk.writer w' hw', rfl⟩
  have hne : b' ≠ b := by
    rintro rfl
    exact hlk.buffer b' rfl hb'
  exact ⟨(hout b').2 ⟨hk.buffer b' hb', hne⟩, Function.update_of_ne hne ..⟩

theorem exec_keeps {a : Choice} (hm : m.Sound) (hl : l.Holds m payload)
    (hx : exec m payload l a = some (m', l')) : Keeps m payload l m' l' := by
  revert hx
  fun_cases exec m payload l a <;> intro hx
  case case1 o =>
    obtain ⟨⟨buffers, b⟩, hget, heq⟩ := Option.map_eq_some_iff.1 hx
    cases heq
    exact keeps_getBuffer hm hget
  case case2 b o =>
    obtain ⟨⟨writers, w⟩, hget, heq⟩ := Option.map_eq_some_iff.1 hx
    cases heq
    exact keeps_getWriter hm hl hget
  case case3 b w wanted r m₁ =>
    cases hx
    obtain ⟨hcontent, hwriter⟩ : m.content b = [] ∧ m.writer w = ⟨z.init, b⟩ := hl.stands
    have htarget : (m₁.writer w).target = b := by simp [m₁, hwriter]
    rw [htarget]
    refine keeps_own hm hl rfl rfl rfl rfl ⟨?_, ?_⟩ rfl rfl (fun b' h => Function.update_of_ne h ..)
      fun w' h => Function.update_of_ne h ..
    · simp [Memory.append, m₁, r, hcontent, hwriter]
    · simp [Memory.append, m₁, r, hwriter]
  case case4 b w wanted =>
    cases hx
    obtain ⟨hcontent, hwriter⟩ := hl.stands
    rw [hwriter]
    refine keeps_own hm hl rfl rfl rfl rfl ⟨?_, List.nil_prefix⟩ rfl rfl (fun b' h => Function.update_of_ne h ..)
      fun _ _ => rfl
    simp [Memory.append, hcontent, Compressor.gzip]
  case case5 | case6 =>
    cases hx
    exact keeps_quiet hm hl rfl rfl (fun _ h => (by cases h))
  case case7 b w body n =>
    cases hx
    obtain ⟨hcontent, rest, hrest⟩ := hl.stands
    refine keeps_quiet hm hl rfl rfl ⟨hcontent, ?_⟩
    rw [← hrest, List.drop_left]
    exact (List.prefix_append_right_inj _).2 (List.take_prefix _ _)
  case case8 b w body hlength =>
    cases hx
    obtain ⟨hcontent, hbody⟩ := hl.stands
    refine keeps_quiet hm hl rfl rfl fun body' h => ?_
    rw [← Option.some.inj h, hbody.eq_of_length hlength, hcontent]
  case case10 =>
    cases hx
    exact keeps_quiet hm hl rfl rfl (fun _ h => (by cases h))
  case case11 =>
    cases hx
    exact keeps_putWriter hm hl
  case case12 =>
    cases hx
    exact ⟨hm, ⟨fun _ h => (by cases h), fun _ h => (by cases h), hl.stands⟩,
      fun k _ hk hlk => ⟨hk, hlk.mono (.inl rfl) (.inl rfl)⟩⟩
  case case13 =>
    cases hx
    exact keeps_putBuffer hm hl
  all_goals cases hx

/-! ## In whose hands things are -/

/-- A buffer worth keeping that is not in the pool. -/
def Memory.Taken (m : Memory z) (b : Nat) : Prop := m.buffers.Out b ∧ m.capacity b ≤ maxPooledPayloadBuffer

/-- Who has a buffer or a writer: a section neither leaves one to nobody nor drops one that its call had. -/
structure Accounts (m : Memory z) (l : Pc) (m' : Memory z) (l' : Pc) : Prop where
  taken : ∀ b, m'.Taken b → m.Taken b ∧ l.buffer ≠ some b ∨ l'.buffer = some b
  writers : ∀ w, m'.writers.Out w → m.writers.Out w ∧ l.writer ≠ some w ∨ l'.writer = some w

/-- A section that keeps its buffer and takes no other. -/
theorem taken_keep (hbuffer : l'.buffer = l.buffer) (htaken : ∀ b, l.buffer ≠ some b → m'.Taken b → m.Taken b)
    {b : Nat} (h : m'.Taken b) : m.Taken b ∧ l.buffer ≠ some b ∨ l'.buffer = some b := by
  by_cases hb : l.buffer = some b
  · exact .inr (hbuffer.trans hb)
  · exact .inl ⟨htaken b hb h, hb⟩

/-- A section that takes nothing and gives nothing back. -/
theorem accounts_keep (hbuffer : l'.buffer = l.buffer) (hwriter : l'.writer = l.writer)
    (htaken : ∀ b, l.buffer ≠ some b → m'.Taken b → m.Taken b)
    (hwriters : m'.writers = m.writers) : Accounts m l m' l' where
  taken _ h := taken_keep hbuffer htaken h
  writers w h := by
    by_cases hw : l.writer = some w
    · exact .inr (hwriter.trans hw)
    · exact .inl ⟨hwriters ▸ h, hw⟩

theorem taken_append {b b' wanted : Nat} {bytes : List UInt8} (hne : b' ≠ b) :
    (m.append b bytes wanted).Taken b' ↔ m.Taken b' := by
  simp [Memory.Taken, Memory.append, Function.update_of_ne hne]

theorem exec_accounts {a : Choice} (hm : m.Sound) (hl : l.Holds m payload)
    (hx : exec m payload l a = some (m', l')) : Accounts m l m' l' := by
  revert hx
  fun_cases exec m payload l a <;> intro hx
  case case1 o =>
    obtain ⟨⟨buffers, b⟩, hget, heq⟩ := Option.map_eq_some_iff.1 hx
    cases heq
    obtain ⟨-, -, hout⟩ := Stock.get_spec hm.buffers hget
    refine ⟨fun b' h => ?_, fun w h => .inl ⟨h, fun h => (by cases h)⟩⟩
    rcases (hout b').1 h.1 with hold | rfl
    · exact .inl ⟨⟨hold, h.2⟩, fun h => (by cases h)⟩
    · exact .inr rfl
  case case2 b o =>
    obtain ⟨⟨writers, w⟩, hget, heq⟩ := Option.map_eq_some_iff.1 hx
    cases heq
    obtain ⟨-, -, hout⟩ := Stock.get_spec hm.writers hget
    refine ⟨fun _ h => taken_keep rfl (fun _ _ h => h) h, fun w' h => ?_⟩
    rcases (hout w').1 h with hold | rfl
    · exact .inl ⟨hold, fun h => (by cases h)⟩
    · exact .inr rfl
  case case3 b w wanted r m₁ =>
    cases hx
    obtain ⟨-, hwriter⟩ : m.content b = [] ∧ m.writer w = ⟨z.init, b⟩ := hl.stands
    have htarget : (m₁.writer w).target = b := by simp [m₁, hwriter]
    rw [htarget]
    refine accounts_keep rfl rfl (fun b' hb' h => ?_) rfl
    have hne : b' ≠ b := fun heq => hb' (congrArg some heq.symm)
    exact (taken_append (m := m₁) hne).1 h
  case case4 b w wanted =>
    cases hx
    obtain ⟨-, hwriter⟩ := hl.stands
    rw [hwriter]
    refine accounts_keep rfl rfl (fun b' hb' h => ?_) rfl
    have hne : b' ≠ b := fun heq => hb' (congrArg some heq.symm)
    exact (taken_append hne).1 h
  case case11 b w result =>
    cases hx
    obtain ⟨-, hout⟩ := Stock.put_spec hm.writers (hl.writer w rfl)
    refine ⟨fun _ h => taken_keep rfl (fun _ _ h => h) h, fun w' h => .inl ⟨((hout w').1 h).1, ?_⟩⟩
    rintro ⟨⟩
    exact ((hout w).1 h).2 rfl
  case case12 b result hlarge =>
    cases hx
    refine ⟨fun b' h => .inl ⟨h, ?_⟩, fun w h => .inl ⟨h, fun h => (by cases h)⟩⟩
    rintro ⟨⟩
    exact absurd h.2 (Nat.not_le.2 hlarge)
  case case13 b result _ =>
    cases hx
    obtain ⟨-, hout⟩ := Stock.put_spec hm.buffers (hl.buffer b rfl)
    refine ⟨fun b' h => .inl ⟨⟨((hout b').1 h.1).1, h.2⟩, ?_⟩, fun w h => .inl ⟨h, fun h => (by cases h)⟩⟩
    rintro ⟨⟩
    exact ((hout b).1 h.1).2 rfl
  all_goals
    cases hx
    try exact accounts_keep rfl rfl (fun _ _ h => h) rfl

end GzipPools

end EngineIo.Server
