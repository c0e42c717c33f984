import Mathlib.Data.List.Basic
import Mathlib.Logic.Function.Basic

set_option autoImplicit false

/-! # What one of many goroutines carries

The items a goroutine has taken up and not handed on yet are a function `load` of its local state.
When at most one goroutine has any at a time, what has been handed on, followed by what is carried,
is one sequence, and a goroutine that hands on what it carries does not change it. -/

namespace Concurrency

variable {ℓ α : Type} {load : ℓ → List α} {T : Nat → ℓ} {xs done done' : List α} {k : Nat} {l' : ℓ}

/-- One goroutine carries `xs`, and the others nothing. -/
def Carried (load : ℓ → List α) (T : Nat → ℓ) (xs : List α) : Prop :=
  ∃ c, load (T c) = xs ∧ ∀ k, k ≠ c → load (T k) = []

theorem Carried.of_nil (h : ∀ k, load (T k) = []) : Carried load T [] :=
  ⟨0, h 0, fun k _ => h k⟩

theorem Carried.eq_nil (h : Carried load T xs) (hnil : ∀ k, load (T k) = []) : xs = [] := by
  obtain ⟨c, hc, -⟩ := h
  rw [← hc, hnil]

/-- Nothing is carried once the only goroutine that may carry something does not. -/
theorem Carried.eq_nil_of_only (h : Carried load T xs) (hk : load (T k) = [])
    (honly : ∀ m, m ≠ k → load (T m) = []) : xs = [] := by
  refine h.eq_nil fun m => ?_
  by_cases hm : m = k
  · rw [hm, hk]
  · exact honly m hm

/-- A goroutine takes up items while nothing is carried. -/
theorem Carried.take (h : Carried load T []) (k : Nat) (l' : ℓ) :
    Carried load (Function.update T k l') (load l') := by
  obtain ⟨c, hc, hother⟩ := h
  refine ⟨k, by rw [Function.update_self], fun m hm => ?_⟩
  rw [Function.update_of_ne hm]
  by_cases hmc : m = c
  · rw [hmc, hc]
  · exact hother m hmc

/-- A goroutine hands on some of what it carries. -/
theorem Carried.pass (h : Carried load T xs) (hgrow : done <+: done')
    (hpass : done' ++ load l' = done ++ load (T k)) :
    ∃ xs', Carried load (Function.update T k l') xs' ∧ done' ++ xs' = done ++ xs := by
  obtain ⟨c, hc, hother⟩ := h
  by_cases hk : k = c
  · subst hk
    refine ⟨load l', ⟨k, by rw [Function.update_self], fun m hm => ?_⟩, by rw [hpass, hc]⟩
    rw [Function.update_of_ne hm]
    exact hother m hm
  · -- a goroutine that carries nothing hands nothing on
    obtain ⟨added, rfl⟩ := hgrow
    rw [hother k hk, List.append_assoc, List.append_right_inj, List.append_eq_nil_iff] at hpass
    obtain ⟨rfl, hl'⟩ := hpass
    refine ⟨xs, ⟨c, ?_, fun m hm => ?_⟩, by rw [List.append_nil]⟩
    · rw [Function.update_of_ne (Ne.symm hk), hc]
    · by_cases hmk : m = k
      · rw [hmk, Function.update_self, hl']
      · rw [Function.update_of_ne hmk, hother m hm]

end Concurrency
