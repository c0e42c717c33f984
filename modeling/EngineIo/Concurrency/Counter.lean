import EngineIo.Concurrency.CallStack
import Mathlib.Algebra.BigOperators.Group.Finset.Basic
import Mathlib.Algebra.GroupWithZero.Nat
import Mathlib.Algebra.Order.BigOperators.Group.Finset

set_option autoImplicit false

/-! # Units of a counter

A mutex, a wait group or a token that is passed on: the memory says how many units are out, and a
goroutine holds some of them. If no section creates units that the memory does not know of, then
whatever set of goroutines one looks at holds no more units than the memory says. -/

namespace Concurrency

open Finset

variable {σ ℓ φ γ : Type}

/-- **Counters.** `N` is the number of units there are, `A` how many of them lie about, and `W` how
    many a goroutine holds. Sections move units around, and make new ones only by raising `N`. -/
theorem Program.Reach.counter {P : Program σ ℓ γ} {C : σ → ℓ → γ → Prop} {A N : σ → Nat} {W : ℓ → Nat}
    (hidle : W P.idle = 0) (hinit : ∀ s, P.init s → A s ≤ N s)
    (hstep : ∀ s l a s' l', C s l a → P.exec s l a = some (s', l') →
      W l' + A s' + N s ≤ W l + A s + N s')
    {c : Pool σ ℓ} (h : P.Reach C c) (S : Finset Nat) :
    ∑ i ∈ S, W (c.thread i) + A c.shared ≤ N c.shared := by
  induction h generalizing S with
  | init h => simpa [hidle] using hinit _ h
  | @step c c' i a _ hC h ih =>
    obtain ⟨s', l', hx, rfl⟩ := step_eq_some h
    have hunits := hstep _ _ _ _ _ hC hx
    -- the goroutines that did not run hold what they held
    have hothers : ∑ j ∈ S.erase i, W (Function.update c.thread i l' j) =
        ∑ j ∈ S.erase i, W (c.thread j) :=
      sum_congr rfl fun j hj => by simp [ne_of_mem_erase hj]
    have hbefore := ih (insert i (S.erase i))
    rw [sum_insert (notMem_erase i S)] at hbefore
    show _ + A s' ≤ N s'
    by_cases hi : i ∈ S
    · rw [← insert_erase hi, sum_insert (notMem_erase i S)]
      simp only [hothers, Function.update_self]
      omega
    · rw [erase_eq_of_notMem hi] at hothers hbefore
      rw [hothers]
      omega

namespace Frames

variable {F : Frames σ φ γ}

/-- The units that a stack holds. -/
def units (weight : φ → Nat) (l : List φ) : Nat := (l.map weight).sum

@[simp]
theorem units_nil (weight : φ → Nat) : units weight [] = 0 := rfl

@[simp]
theorem units_cons (weight : φ → Nat) (f : φ) (l : List φ) :
    units weight (f :: l) = weight f + units weight l := by
  simp [units]

@[simp]
theorem units_append (weight : φ → Nat) (l m : List φ) :
    units weight (l ++ m) = units weight l + units weight m := by
  simp [units]

theorem weight_le_units (weight : φ → Nat) {f : φ} {l : List φ} (h : f ∈ l) :
    weight f ≤ units weight l :=
  List.le_sum_of_mem (List.mem_map_of_mem h)

theorem units_eq_zero {weight : φ → Nat} {l : List φ} (h : ∀ f ∈ l, weight f = 0) : units weight l = 0 := by
  induction l with
  | nil => rfl
  | cons f l ih =>
    obtain ⟨hf, hl⟩ := List.forall_mem_cons.1 h
    rw [units_cons, hf, ih hl]

/-- Counters for frames. -/
theorem counter {C : σ → List φ → γ → Prop} {A N : σ → Nat} {weight : φ → Nat}
    (hinit : ∀ s, F.init s → A s ≤ N s)
    (hstart : ∀ s a s' fs, F.start s a = some (s', fs) →
      units weight fs + A s' + N s ≤ A s + N s')
    (hexec : ∀ s f a s' fs, F.exec s f a = some (s', fs) →
      units weight fs + A s' + N s ≤ weight f + A s + N s')
    {c : Pool σ (List φ)} (h : F.program.Reach C c) (S : Finset Nat) :
    ∑ i ∈ S, units weight (c.thread i) + A c.shared ≤ N c.shared := by
  refine h.counter (by simp [program]) hinit (fun s l a s' l' _ hx => ?_) S
  cases l with
  | nil =>
    have hunits := hstart s a s' l' hx
    simpa using hunits
  | cons f rest =>
    obtain ⟨fs, hfs, rfl⟩ := step_cons hx
    have hunits := hexec s f a s' fs hfs
    rw [units_cons, units_append]
    omega

end Frames

end Concurrency
