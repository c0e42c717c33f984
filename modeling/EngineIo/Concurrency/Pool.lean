import Mathlib.Logic.Function.Basic

set_option autoImplicit false

/-! # Pools of goroutines over shared memory

A `Program` gives the atomic sections of one kind of goroutine: `exec s l a` runs the section the
local state `l` is at, on the shared memory `s`, with `a` resolving whatever the environment decides
(the outcome of a write, the next call of an idle goroutine, ...). A `Pool` runs any number of such
goroutines, interleaved section by section, and `Reach` collects the pools some schedule leads to.
A schedule may be restricted by a condition `C s l a` on the memory before a section and on the
goroutine that runs it; `Reachable` is the unrestricted case.

Two proof rules carry every invariant of the development. `Program.Reach.outline` is the proof
outline rule: an assertion on the memory, one on every goroutine and one on every pair of
goroutines, kept by each section for the goroutine that runs it and for any bystander. And
`Program.Reach.owner` finds the goroutine that holds a flag or a lock which the memory says is
taken. -/

namespace Concurrency

variable {σ ℓ γ : Type}

/-- Shared memory and the local state of every goroutine; all but finitely many are idle. -/
structure Pool (σ ℓ : Type) where
  shared : σ
  thread : Nat → ℓ

/-- The atomic sections of a goroutine. `none` means the goroutine cannot move this way now. -/
structure Program (σ ℓ γ : Type) where
  init : σ → Prop
  idle : ℓ
  exec : σ → ℓ → γ → Option (σ × ℓ)

namespace Program

variable (P : Program σ ℓ γ)

/-- Goroutine `i` runs its next section. -/
def step (c : Pool σ ℓ) (i : Nat) (a : γ) : Option (Pool σ ℓ) :=
  (P.exec c.shared (c.thread i) a).map fun r => ⟨r.1, Function.update c.thread i r.2⟩

/-- Run a whole schedule. -/
def run : Pool σ ℓ → List (Nat × γ) → Option (Pool σ ℓ)
  | c, [] => some c
  | c, (i, a) :: rest => (P.step c i a).bind fun c' => run c' rest

/-- Run a whole schedule, as long as every section meets `C`. -/
def runIf (C : σ → ℓ → γ → Prop) [∀ s l a, Decidable (C s l a)] :
    Pool σ ℓ → List (Nat × γ) → Option (Pool σ ℓ)
  | c, [] => some c
  | c, (i, a) :: rest =>
    if C c.shared (c.thread i) a then (P.step c i a).bind fun c' => runIf C c' rest else none

/-- The pools reached by schedules whose every section meets `C`. -/
inductive Reach (C : σ → ℓ → γ → Prop) : Pool σ ℓ → Prop
  | init {s : σ} (h : P.init s) : Reach C ⟨s, fun _ => P.idle⟩
  | step {c c' : Pool σ ℓ} {i : Nat} {a : γ} (hc : Reach C c)
      (hC : C c.shared (c.thread i) a) (h : P.step c i a = some c') : Reach C c'

/-- The pools reached by any schedule. -/
abbrev Reachable : Pool σ ℓ → Prop := P.Reach fun _ _ _ => True

/-- Schedules in which the memory keeps meeting `D`. -/
def Stays (D : σ → Prop) (s : σ) (l : ℓ) (a : γ) : Prop := ∀ r, P.exec s l a = some r → D r.1

instance (D : σ → Prop) [DecidablePred D] (s : σ) (l : ℓ) (a : γ) :
    Decidable (P.Stays D s l a) :=
  decidable_of_iff ((P.exec s l a).all fun r => decide (D r.1)) (by simp [Stays, Option.all_eq_true])

variable {P}

theorem step_eq_some {c c' : Pool σ ℓ} {i : Nat} {a : γ} (h : P.step c i a = some c') :
    ∃ s' l', P.exec c.shared (c.thread i) a = some (s', l') ∧
      c' = ⟨s', Function.update c.thread i l'⟩ := by
  obtain ⟨⟨s', l'⟩, hr, rfl⟩ := Option.map_eq_some_iff.1 h
  exact ⟨s', l', hr, rfl⟩

theorem step_of_exec {c : Pool σ ℓ} {i : Nat} {a : γ} {s' : σ} {l' : ℓ}
    (h : P.exec c.shared (c.thread i) a = some (s', l')) :
    P.step c i a = some ⟨s', Function.update c.thread i l'⟩ := by
  rw [step, h]
  rfl

/-- A schedule with fewer restrictions reaches at least as much. -/
theorem Reach.mono {C D : σ → ℓ → γ → Prop} (hCD : ∀ s l a, C s l a → D s l a) {c : Pool σ ℓ}
    (h : P.Reach C c) : P.Reach D c := by
  induction h with
  | init h => exact .init h
  | step _ hC h ih => exact .step ih (hCD _ _ _ hC) h

theorem Reach.reachable {C : σ → ℓ → γ → Prop} {c : Pool σ ℓ} (h : P.Reach C c) :
    P.Reachable c :=
  h.mono fun _ _ _ _ => trivial

theorem Reachable.run {c c' : Pool σ ℓ} (hc : P.Reachable c) :
    ∀ {as : List (Nat × γ)}, P.run c as = some c' → P.Reachable c'
  | [], h => by
    obtain rfl : c = c' := by simpa [Program.run] using h
    exact hc
  | (i, a) :: rest, h => by
    obtain ⟨c₁, h₁, h₂⟩ := Option.bind_eq_some_iff.1 h
    exact Reachable.run (.step hc trivial h₁) h₂

/-- What every step from a reachable pool keeps, a whole schedule keeps. -/
theorem Reachable.run_keeps {Q : Pool σ ℓ → Prop}
    (hstep : ∀ c i a c', P.Reachable c → Q c → P.step c i a = some c' → Q c') {c c' : Pool σ ℓ}
    (hc : P.Reachable c) (h : Q c) {as : List (Nat × γ)} (hrun : P.run c as = some c') : Q c' := by
  induction as generalizing c with
  | nil =>
    obtain rfl : c = c' := by simpa [Program.run] using hrun
    exact h
  | cons ia rest ih =>
    obtain ⟨c₁, h₁, h₂⟩ := Option.bind_eq_some_iff.1 hrun
    exact ih (.step hc trivial h₁) (hstep _ _ _ _ hc h h₁) h₂

theorem Reach.runIf {C : σ → ℓ → γ → Prop} [∀ s l a, Decidable (C s l a)] {c c' : Pool σ ℓ}
    (hc : P.Reach C c) : ∀ {as : List (Nat × γ)}, P.runIf C c as = some c' → P.Reach C c'
  | [], h => by
    obtain rfl : c = c' := by simpa [Program.runIf] using h
    exact hc
  | (i, a) :: rest, h => by
    rw [Program.runIf, Option.ite_none_right_eq_some] at h
    obtain ⟨c₁, h₁, h₂⟩ := Option.bind_eq_some_iff.1 h.2
    exact Reach.runIf (.step hc h.1 h₁) h₂

/-- What every section that meets `C` keeps, a whole schedule of such sections keeps. -/
theorem runIf_keeps {C : σ → ℓ → γ → Prop} [∀ s l a, Decidable (C s l a)] {I : σ → Prop}
    (hstep : ∀ s l a s' l', C s l a → I s → P.exec s l a = some (s', l') → I s') {c c' : Pool σ ℓ}
    (h : I c.shared) {as : List (Nat × γ)} (hrun : P.runIf C c as = some c') : I c'.shared := by
  induction as generalizing c with
  | nil =>
    obtain rfl : c = c' := by simpa [Program.runIf] using hrun
    exact h
  | cons ia rest ih =>
    rw [Program.runIf, Option.ite_none_right_eq_some] at hrun
    obtain ⟨c₁, h₁, h₂⟩ := Option.bind_eq_some_iff.1 hrun.2
    obtain ⟨s', l', hx, rfl⟩ := step_eq_some h₁
    exact ih (hstep _ _ _ _ _ hrun.1 h hx) h₂

/-- The same for what is known of whole pools. -/
theorem Reach.runIf_keeps {C : σ → ℓ → γ → Prop} [∀ s l a, Decidable (C s l a)] {Q : Pool σ ℓ → Prop}
    (hstep : ∀ c i a c', P.Reach C c → C c.shared (c.thread i) a → Q c → P.step c i a = some c' → Q c')
    {c c' : Pool σ ℓ} (hc : P.Reach C c) (h : Q c) {as : List (Nat × γ)}
    (hrun : P.runIf C c as = some c') : Q c' := by
  induction as generalizing c with
  | nil =>
    obtain rfl : c = c' := by simpa [Program.runIf] using hrun
    exact h
  | cons ia rest ih =>
    rw [Program.runIf, Option.ite_none_right_eq_some] at hrun
    obtain ⟨c₁, h₁, h₂⟩ := Option.bind_eq_some_iff.1 hrun.2
    exact ih (.step hc hrun.1 h₁) (hstep _ _ _ _ hc hrun.1 h h₁) h₂

/-- **Proof outlines.** `I` is an assertion on the memory, `J` on each goroutine and `K` on each
    pair of goroutines. If every section keeps `I`, keeps `J` for the goroutine running it, and
    keeps both `J` and `K` for every bystander `m`, they hold in every reached pool. -/
theorem Reach.outline {C : σ → ℓ → γ → Prop} {I : σ → Prop} {J : σ → ℓ → Prop}
    {K : ℓ → ℓ → Prop} (hsymm : ∀ l m, K l m → K m l) (hidle : K P.idle P.idle)
    (hinit : ∀ s, P.init s → I s ∧ J s P.idle)
    (hstep : ∀ s l a s' l', C s l a → I s → J s l → P.exec s l a = some (s', l') →
      I s' ∧ J s' l' ∧ ∀ m, J s m → K l m → J s' m ∧ K l' m)
    {c : Pool σ ℓ} (h : P.Reach C c) :
    I c.shared ∧ (∀ i, J c.shared (c.thread i)) ∧
      ∀ i j, i ≠ j → K (c.thread i) (c.thread j) := by
  induction h with
  | init h => exact ⟨(hinit _ h).1, fun _ => (hinit _ h).2, fun _ _ _ => hidle⟩
  | @step c c' i a _ hC h ih =>
    obtain ⟨hI, hJ, hK⟩ := ih
    obtain ⟨s', l', hx, rfl⟩ := step_eq_some h
    obtain ⟨hI', hJ', hby⟩ := hstep _ _ _ _ _ hC hI (hJ i) hx
    refine ⟨hI', fun j => ?_, fun j k hjk => ?_⟩
    · by_cases hj : j = i
      · subst hj; simpa using hJ'
      · simpa [hj] using (hby _ (hJ j) (hK i j (Ne.symm hj))).1
    · by_cases hj : j = i
      · subst hj
        simpa [Ne.symm hjk] using (hby _ (hJ k) (hK j k hjk)).2
      · by_cases hk : k = i
        · subst hk
          simpa [hj] using hsymm _ _ (hby _ (hJ j) (hK k j hjk.symm)).2
        · simpa [hj, hk] using hK j k hjk

/-- **Invariants.** `I` is an assertion on the memory and `J` on each goroutine, kept by every section
    with the help of what else is known about the pool it runs in. -/
theorem Reach.invariant {C : σ → ℓ → γ → Prop} {I : σ → Prop} {J : σ → ℓ → Prop}
    (hinit : ∀ s, P.init s → I s ∧ J s P.idle)
    (hstep : ∀ (c : Pool σ ℓ) i a s' l', P.Reach C c → C c.shared (c.thread i) a → I c.shared →
      (∀ j, J c.shared (c.thread j)) → P.exec c.shared (c.thread i) a = some (s', l') →
      I s' ∧ J s' l' ∧ ∀ j, j ≠ i → J s' (c.thread j))
    {c : Pool σ ℓ} (h : P.Reach C c) : I c.shared ∧ ∀ i, J c.shared (c.thread i) := by
  induction h with
  | init h => exact ⟨(hinit _ h).1, fun _ => (hinit _ h).2⟩
  | @step c c' i a hc hC h ih =>
    obtain ⟨s', l', hx, rfl⟩ := step_eq_some h
    obtain ⟨hI, hJ, hby⟩ := hstep c i a s' l' hc hC ih.1 ih.2 hx
    refine ⟨hI, fun j => ?_⟩
    by_cases hj : j = i
    · subst hj; simpa using hJ
    · simpa [hj] using hby j hj

/-- A section that leaves the flag and the claim of its goroutine alone meets the condition of the
    ownership rule below. -/
theorem owner_same {H O : Prop} (h : H) : H ∧ ¬ O ∨ O := by
  by_cases hO : O
  · exact .inr hO
  · exact .inl ⟨h, hO⟩

/-- **Ownership.** `H` is a flag of the memory and `O` says which goroutines claim it. If no section
    raises the flag without claiming it, and none gives up a claim without lowering the flag, then a
    raised flag has an owner. -/
theorem Reach.owner {C : σ → ℓ → γ → Prop} {H : σ → Prop} {O : ℓ → Prop}
    (hinit : ∀ s, P.init s → ¬ H s)
    (hstep : ∀ (c : Pool σ ℓ) i a s' l', P.Reach C c → C c.shared (c.thread i) a →
      P.exec c.shared (c.thread i) a = some (s', l') → H s' →
      H c.shared ∧ ¬ O (c.thread i) ∨ O l')
    {c : Pool σ ℓ} (h : P.Reach C c) : H c.shared → ∃ i, O (c.thread i) := by
  induction h with
  | init h => exact fun hh => absurd hh (hinit _ h)
  | @step c c' i a hc hC h ih =>
    obtain ⟨s', l', hx, rfl⟩ := step_eq_some h
    intro hheld
    rcases hstep c i a s' l' hc hC hx hheld with ⟨hold, hnot⟩ | hnew
    · obtain ⟨j, hj⟩ := ih hold
      have hji : j ≠ i := fun hji => hnot (hji ▸ hj)
      exact ⟨j, by simpa [hji] using hj⟩
    · exact ⟨i, by simpa using hnew⟩

end Program

end Concurrency
