import EngineIo.Concurrency.CallStack

set_option autoImplicit false

/-! # Systems inside systems

A system of goroutines may contain a smaller one: part of its memory and some of its frames make up the
smaller system, and what the others do does not touch it. Every run of the larger system is then one of the
smaller, seen through the projection, so whatever holds in the runs of the smaller system holds in it. -/

namespace Concurrency

variable {σ σ' φ φ' γ γ' : Type}

/-- The part of a pool that belongs to the smaller system. -/
def Pool.project (mem : σ' → σ) (frame : φ' → Option φ) (c : Pool σ' (List φ')) : Pool σ (List φ) :=
  ⟨mem c.shared, fun i => (c.thread i).filterMap frame⟩

theorem Pool.project_update {mem : σ' → σ} {frame : φ' → Option φ} (c : Pool σ' (List φ')) (i : Nat) (s : σ')
    (l : List φ') :
    Pool.project mem frame ⟨s, Function.update c.thread i l⟩ =
      ⟨mem s, Function.update (c.project mem frame).thread i (l.filterMap frame)⟩ := by
  simp only [Pool.project, Pool.mk.injEq, true_and]
  funext j
  by_cases hj : j = i
  · subst hj
    simp
  · simp [hj]

namespace Frames

/-- `F'` contains `F`: each of its sections is one of `F`, or leaves the part of `F` as it is. -/
structure Projects (mem : σ' → σ) (frame : φ' → Option φ) (F' : Frames σ' φ' γ') (F : Frames σ φ γ)
    (C' : σ' → Option φ' → γ' → Prop) (C : σ → Option φ → γ → Prop) : Prop where
  init : ∀ s, F'.init s → F.init (mem s)
  start : ∀ s a s' fs, F'.start s a = some (s', fs) →
    mem s' = mem s ∧ fs.filterMap frame = [] ∨
      ∃ b, C (mem s) none b ∧ F.start (mem s) b = some (mem s', fs.filterMap frame)
  exec : ∀ s f a s' fs, C' s (some f) a → F'.exec s f a = some (s', fs) →
    mem s' = mem s ∧ fs.filterMap frame = [f].filterMap frame ∨
      ∃ g b, frame f = some g ∧ C (mem s) (some g) b ∧ F.exec (mem s) g b = some (mem s', fs.filterMap frame)

variable {mem : σ' → σ} {frame : φ' → Option φ} {F' : Frames σ' φ' γ'} {F : Frames σ φ γ}
  {C' : σ' → Option φ' → γ' → Prop} {C : σ → Option φ → γ → Prop}

/-- A section of `F'` as the goroutine of `F` sees it. -/
theorem Projects.step_stack (h : Projects mem frame F' F C' C) {s s' : σ'} {l l' : List φ'} {a : γ'}
    (hC : When C' s l a) (hstep : F'.step s l a = some (s', l')) :
    mem s' = mem s ∧ l'.filterMap frame = l.filterMap frame ∨
      ∃ b, When C (mem s) (l.filterMap frame) b ∧
        F.step (mem s) (l.filterMap frame) b = some (mem s', l'.filterMap frame) := by
  cases l with
  | nil =>
    rcases h.start s a s' l' hstep with hsame | ⟨b, hb, hstart⟩
    · exact .inl hsame
    · exact .inr ⟨b, hb, hstart⟩
  | cons f rest =>
    obtain ⟨fs, hfs, rfl⟩ := step_cons hstep
    rw [List.filterMap_append]
    rcases h.exec s f a s' fs hC hfs with ⟨hmem, hframes⟩ | ⟨g, b, hg, hb, hexec⟩
    · refine .inl ⟨hmem, ?_⟩
      rw [hframes, ← List.filterMap_append, List.singleton_append]
    · refine .inr ⟨b, ?_, ?_⟩
      · rw [List.filterMap_cons_some hg]
        exact hb
      · rw [List.filterMap_cons_some hg, step, hexec]
        rfl

theorem Projects.step (h : Projects mem frame F' F C' C) {c d : Pool σ' (List φ')} {i : Nat} {a : γ'}
    (hC : When C' c.shared (c.thread i) a) (hstep : F'.program.step c i a = some d) :
    d.project mem frame = c.project mem frame ∨
      ∃ b, When C (c.project mem frame).shared ((c.project mem frame).thread i) b ∧
        F.program.step (c.project mem frame) i b = some (d.project mem frame) := by
  obtain ⟨s', l', hx, rfl⟩ := Program.step_eq_some hstep
  rw [Pool.project_update]
  rcases h.step_stack hC hx with ⟨hmem, hframes⟩ | ⟨b, hb, hstep⟩
  · refine .inl ?_
    rw [hmem, hframes]
    exact congrArg (Pool.mk _) (Function.update_eq_self i (c.project mem frame).thread)
  · exact .inr ⟨b, hb, Program.step_of_exec hstep⟩

/-- What the larger system reaches, the smaller one reaches. -/
theorem Projects.reach (h : Projects mem frame F' F C' C) {c : Pool σ' (List φ')}
    (hc : F'.program.Reach (When C') c) : F.program.Reach (When C) (c.project mem frame) := by
  induction hc with
  | init hinit => exact .init (h.init _ hinit)
  | step _ hC hstep ih =>
    rcases h.step hC hstep with heq | ⟨b, hb, hstep⟩
    · rwa [heq]
    · exact .step ih hb hstep

end Frames

end Concurrency
