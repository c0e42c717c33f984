import Mathlib.Data.List.Infix

set_option autoImplicit false

/-! # Buffered, exactly-once hand-off

An `Outbox` accepts items into a buffer and writes them out in front of it. Writing and dropping are
separate operations: a flush writes a front part of the buffer, outside any lock, and drops what it
wrote later, while more items are accepted in between. `Balanced pending` is the balance sheet
meanwhile, `pending` being what has been written and not yet dropped: everything accepted has been
written exactly once, in order, or waits in the buffer behind `pending`. -/

namespace Concurrency

structure Outbox (α : Type) where
  accepted : List α
  written : List α
  buffer : List α

namespace Outbox

variable {α : Type} {o : Outbox α} {pending xs : List α}

def accept (o : Outbox α) (xs : List α) : Outbox α :=
  { o with accepted := o.accepted ++ xs, buffer := o.buffer ++ xs }

def write (o : Outbox α) (xs : List α) : Outbox α := { o with written := o.written ++ xs }

def trim (o : Outbox α) (n : Nat) : Outbox α := { o with buffer := o.buffer.drop n }

/-- Everything accepted is written or waits, in order, and `pending` is both. -/
structure Balanced (o : Outbox α) (pending : List α) : Prop where
  front : pending <+: o.buffer
  total : o.written ++ o.buffer.drop pending.length = o.accepted

theorem Balanced.length_le (h : o.Balanced pending) : pending.length ≤ o.buffer.length :=
  h.front.length_le

theorem Balanced.accept (h : o.Balanced pending) (xs : List α) :
    (o.accept xs).Balanced pending where
  front := h.front.trans (List.prefix_append _ _)
  total := by
    show o.written ++ (o.buffer ++ xs).drop pending.length = o.accepted ++ xs
    rw [List.drop_append_of_le_length h.length_le, ← List.append_assoc, h.total]

/-- A further part of the buffer is written. -/
theorem Balanced.write (h : o.Balanced pending) (hx : pending ++ xs <+: o.buffer) :
    (o.write xs).Balanced (pending ++ xs) where
  front := hx
  total := by
    obtain ⟨rest, hrest⟩ := hx
    have htotal := h.total
    show o.written ++ xs ++ o.buffer.drop (pending ++ xs).length = o.accepted
    rw [← hrest, List.append_assoc, List.drop_left] at htotal
    rw [← hrest, List.drop_left, List.append_assoc, htotal]

/-- What has been written is dropped from the buffer. -/
theorem Balanced.trim (h : o.Balanced pending) : (o.trim pending.length).Balanced [] where
  front := List.nil_prefix
  total := h.total

end Outbox

end Concurrency
