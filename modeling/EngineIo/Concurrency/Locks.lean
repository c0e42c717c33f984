import Mathlib.Logic.Relation

set_option autoImplicit false

/-! # Who waits for whom

Each of the parties holds some locks and waits for at most one. If the locks have a rank that falls from those
a party holds to the one it waits for, then no parties wait for each other in a circle, and behind every one
that waits there is one that has a lock and does not. -/

namespace Concurrency

structure Locks (ι κ : Type) where
  holds : ι → κ → Prop
  waits : ι → Option κ

variable {ι κ : Type}

namespace Locks

/-- The second has the lock that the first waits for. -/
def Blocks (L : Locks ι κ) (i j : ι) : Prop := ∃ x, L.waits i = some x ∧ L.holds j x

def Ranked (L : Locks ι κ) (rank : κ → Nat) : Prop :=
  ∀ i x y, L.holds i x → L.waits i = some y → rank y < rank x

variable {L : Locks ι κ} {rank : κ → Nat}

theorem Ranked.descends (h : L.Ranked rank) {i j : ι} {y : κ} (hij : Relation.TransGen L.Blocks i j)
    (hy : L.waits j = some y) : ∃ x, L.waits i = some x ∧ rank y < rank x := by
  induction hij generalizing y with
  | single hblocks =>
    obtain ⟨x, hx, hholds⟩ := hblocks
    exact ⟨x, hx, h _ x y hholds hy⟩
  | tail _ hblocks ih =>
    obtain ⟨x, hx, hholds⟩ := hblocks
    obtain ⟨z, hz, hlt⟩ := ih hx
    exact ⟨z, hz, Nat.lt_trans (h _ x y hholds hy) hlt⟩

theorem Ranked.acyclic (h : L.Ranked rank) (i : ι) : ¬ Relation.TransGen L.Blocks i i := by
  intro hcycle
  obtain ⟨j, ⟨x, hx, -⟩, -⟩ := Relation.TransGen.head'_iff.1 hcycle
  obtain ⟨y, hy, hlt⟩ := h.descends hcycle hx
  rw [hx] at hy
  cases hy
  exact Nat.lt_irrefl _ hlt

/-- The chain of those who wait ends with one who does not. -/
theorem Ranked.exists_free (h : L.Ranked rank) (howned : ∀ i x, L.waits i = some x → ∃ j, L.holds j x)
    {i : ι} {x : κ} (hx : L.waits i = some x) :
    ∃ j y, Relation.TransGen L.Blocks i j ∧ L.holds j y ∧ L.waits j = none := by
  induction hn : rank x using Nat.strongRecOn generalizing i x with
  | _ n ih =>
    obtain ⟨j, hj⟩ := howned i x hx
    have hblocks : L.Blocks i j := ⟨x, hx, hj⟩
    cases hy : L.waits j with
    | none => exact ⟨j, x, .single hblocks, hj, hy⟩
    | some y =>
      obtain ⟨k, z, hchain, hk⟩ := ih (rank y) (hn ▸ h j x y hj hy) hy rfl
      exact ⟨k, z, .head hblocks hchain, hk⟩

end Locks

end Concurrency
