import Mathlib.Data.List.Nodup

set_option autoImplicit false

/-! # Objects in common use

A `Stock` has objects, by number, that goroutines take and give back, as from a `sync.Pool`. Which of them is given
out is left open: any that is free, or a new one. An object that is dropped instead of given back, or that the stock
itself lets go of, is never given out again.

Whoever takes an object gets one that is not out, and so has it alone until it is given back: `Stock.get_spec` and
`Stock.put_spec` say so in terms of which objects are `Out`. -/

namespace Concurrency

structure Stock where
  /-- How many objects have been made. -/
  made : Nat := 0
  free : List Nat := []
deriving DecidableEq, Repr

namespace Stock

/-- A free object, or a new one. -/
def get (s : Stock) : Option Nat → Option (Stock × Nat)
  | some b => if b ∈ s.free then some ({ s with free := s.free.erase b }, b) else none
  | none => some ({ s with made := s.made + 1 }, s.made)

def put (s : Stock) (b : Nat) : Stock := { s with free := b :: s.free }

structure Sound (s : Stock) : Prop where
  nodup : s.free.Nodup
  lt : ∀ b ∈ s.free, b < s.made

/-- The object has been made and is not free. -/
def Out (s : Stock) (b : Nat) : Prop := b < s.made ∧ b ∉ s.free

variable {s s' : Stock} {b : Nat}

theorem sound_empty : ({} : Stock).Sound := ⟨List.nodup_nil, fun _ h => (by cases h)⟩

theorem not_out_empty (b : Nat) : ¬ ({} : Stock).Out b := fun h => Nat.not_lt_zero b h.1

/-- What is given out was not out before. -/
theorem get_spec (hs : s.Sound) {o : Option Nat} (h : s.get o = some (s', b)) :
    s'.Sound ∧ ¬ s.Out b ∧ ∀ b', s'.Out b' ↔ s.Out b' ∨ b' = b := by
  cases o with
  | some b =>
    obtain ⟨hmem, h⟩ := Option.ite_none_right_eq_some.1 h
    cases h
    have herase (b' : Nat) : b' ∈ s.free.erase b ↔ b' ≠ b ∧ b' ∈ s.free := hs.nodup.mem_erase_iff
    refine ⟨⟨hs.nodup.erase b, fun b' h => hs.lt b' ((herase b').1 h).2⟩, fun h => h.2 hmem, fun b' => ?_⟩
    constructor
    · rintro ⟨hlt, hnot⟩
      by_cases hb : b' = b
      · exact .inr hb
      · exact .inl ⟨hlt, fun hfree => hnot ((herase b').2 ⟨hb, hfree⟩)⟩
    · rintro (⟨hlt, hnot⟩ | rfl)
      · exact ⟨hlt, fun h => hnot ((herase b').1 h).2⟩
      · exact ⟨hs.lt b' hmem, fun h => ((herase b').1 h).1 rfl⟩
  | none =>
    cases h
    refine ⟨⟨hs.nodup, fun b h => Nat.lt_succ_of_lt (hs.lt b h)⟩, fun h => Nat.lt_irrefl _ h.1, fun b' => ?_⟩
    have hfresh : s.made ∉ s.free := fun h => Nat.lt_irrefl _ (hs.lt _ h)
    constructor
    · rintro ⟨hlt, hnot⟩
      rcases Nat.lt_succ_iff_lt_or_eq.1 hlt with hlt | heq
      · exact .inl ⟨hlt, hnot⟩
      · exact .inr heq
    · rintro (⟨hlt, hnot⟩ | rfl)
      · exact ⟨Nat.lt_succ_of_lt hlt, hnot⟩
      · exact ⟨Nat.lt_succ_self _, hfresh⟩

theorem put_spec (hs : s.Sound) (h : s.Out b) :
    (s.put b).Sound ∧ ∀ b', (s.put b).Out b' ↔ s.Out b' ∧ b' ≠ b := by
  refine ⟨⟨List.nodup_cons.2 ⟨h.2, hs.nodup⟩, fun b' hb' => ?_⟩, fun b' => ?_⟩
  · rcases List.mem_cons.1 hb' with rfl | hb'
    · exact h.1
    · exact hs.lt b' hb'
  · show b' < s.made ∧ b' ∉ b :: s.free ↔ (b' < s.made ∧ b' ∉ s.free) ∧ b' ≠ b
    rw [List.mem_cons, not_or]
    tauto

end Stock

end Concurrency
