import EngineIo.Concurrency.Pool
import Mathlib.Data.List.Pairwise

set_option autoImplicit false

/-! # Goroutines with a call stack

A method that calls handlers, which call methods again, is described frame by frame: `exec s f a`
runs the next section of the frame `f` and says which frames take its place, the callee's first.
A goroutine is the list of its frames, innermost first; one without frames is idle and takes up a
call by `start`.

The proof rules of `Pool` are restated for frames: an invariant speaks about single frames and pairs
of frames, in whichever stacks they are, and a flag is owned by a frame. -/

namespace Concurrency

variable {σ φ γ : Type}

/-- The sections of the frames, and the calls of an idle goroutine. -/
structure Frames (σ φ γ : Type) where
  init : σ → Prop
  start : σ → γ → Option (σ × List φ)
  exec : σ → φ → γ → Option (σ × List φ)

namespace Frames

variable (F : Frames σ φ γ)

/-- Only the innermost frame of a goroutine runs. -/
def step (s : σ) : List φ → γ → Option (σ × List φ)
  | [], a => F.start s a
  | f :: rest, a => (F.exec s f a).map fun r => (r.1, r.2 ++ rest)

def program : Program σ (List φ) γ where
  init := F.init
  idle := []
  exec := F.step

/-- A condition on the memory, the frame that runs (none for a call) and the choice. -/
def When (C : σ → Option φ → γ → Prop) (s : σ) (l : List φ) (a : γ) : Prop := C s l.head? a

instance (C : σ → Option φ → γ → Prop) [∀ s f a, Decidable (C s f a)] (s : σ) (l : List φ) (a : γ) :
    Decidable (When C s l a) :=
  inferInstanceAs (Decidable (C s l.head? a))

variable {F}

/-- The innermost frame is replaced by the frames it leaves. -/
theorem step_cons {s s' : σ} {f : φ} {rest l' : List φ} {a : γ}
    (h : F.step s (f :: rest) a = some (s', l')) :
    ∃ fs, F.exec s f a = some (s', fs) ∧ l' = fs ++ rest := by
  obtain ⟨⟨s₁, fs⟩, hfs, heq⟩ := Option.map_eq_some_iff.1 h
  obtain ⟨rfl, rfl⟩ : s₁ = s' ∧ fs ++ rest = l' := by simpa using heq
  exact ⟨fs, hfs, rfl⟩

/-- **Proof outlines for frames.** `I` is an assertion on the memory, `J` on every frame and `K` on
    every pair of frames, of one goroutine or of two. -/
theorem outline {C : σ → Option φ → γ → Prop} {I : σ → Prop} {J : σ → φ → Prop} {K : φ → φ → Prop}
    (hsymm : ∀ f m, K f m → K m f) (hinit : ∀ s, F.init s → I s)
    (hstart : ∀ s a s' fs, C s none a → I s → F.start s a = some (s', fs) →
      I s' ∧ (∀ f ∈ fs, J s' f) ∧ fs.Pairwise K ∧ ∀ m, J s m → J s' m ∧ ∀ f ∈ fs, K f m)
    (hexec : ∀ s f a s' fs, C s (some f) a → I s → J s f → F.exec s f a = some (s', fs) →
      I s' ∧ (∀ f' ∈ fs, J s' f') ∧ fs.Pairwise K ∧
        ∀ m, J s m → K f m → J s' m ∧ ∀ f' ∈ fs, K f' m)
    {c : Pool σ (List φ)} (h : F.program.Reach (When C) c) :
    I c.shared ∧ (∀ i, ∀ f ∈ c.thread i, J c.shared f) ∧ (∀ i, (c.thread i).Pairwise K) ∧
      ∀ i j, i ≠ j → ∀ f ∈ c.thread i, ∀ m ∈ c.thread j, K f m := by
  have hout := h.outline (I := I) (J := fun s l => (∀ f ∈ l, J s f) ∧ l.Pairwise K)
    (K := fun l m => ∀ f ∈ l, ∀ g ∈ m, K f g) ?_ ?_ ?_ ?_
  · exact ⟨hout.1, fun i => (hout.2.1 i).1, fun i => (hout.2.1 i).2, hout.2.2⟩
  · exact fun l m hlm f hf g hg => hsymm _ _ (hlm g hg f hf)
  · exact fun f hf => absurd hf List.not_mem_nil
  · exact fun s hs => ⟨hinit s hs, fun f hf => absurd hf List.not_mem_nil, .nil⟩
  · intro s l a s' l' hC hI hJ hx
    cases l with
    | nil =>
      obtain ⟨hI', hJ', hK', hby⟩ := hstart s a s' l' hC hI hx
      exact ⟨hI', ⟨hJ', hK'⟩, fun m hm _ => ⟨⟨fun g hg => (hby g (hm.1 g hg)).1, hm.2⟩,
        fun f hf g hg => (hby g (hm.1 g hg)).2 f hf⟩⟩
    | cons f rest =>
      obtain ⟨fs, hfs, rfl⟩ := step_cons hx
      obtain ⟨hJl, hKl⟩ := hJ
      obtain ⟨hKf, hKrest⟩ := List.pairwise_cons.1 hKl
      obtain ⟨hI', hJ', hK', hby⟩ := hexec s f a s' fs hC hI (hJl f (List.mem_cons_self ..)) hfs
      have hrest : ∀ g ∈ rest, J s' g ∧ ∀ f' ∈ fs, K f' g := fun g hg =>
        hby g (hJl g (List.mem_cons_of_mem _ hg)) (hKf g hg)
      refine ⟨hI', ⟨?_, ?_⟩, fun m hm hfm => ?_⟩
      · intro g hg
        rcases List.mem_append.1 hg with hg | hg
        · exact hJ' g hg
        · exact (hrest g hg).1
      · exact List.pairwise_append.2 ⟨hK', hKrest, fun f' hf' g hg => (hrest g hg).2 f' hf'⟩
      · have hm' : ∀ g ∈ m, J s' g ∧ ∀ f' ∈ fs, K f' g := fun g hg =>
          hby g (hm.1 g hg) (hfm f (List.mem_cons_self ..) g hg)
        refine ⟨⟨fun g hg => (hm' g hg).1, hm.2⟩, fun f' hf' g hg => ?_⟩
        rcases List.mem_append.1 hf' with hf' | hf'
        · exact (hm' g hg).2 f' hf'
        · exact hfm f' (List.mem_cons_of_mem _ hf') g hg

/-- An assertion on the memory alone, that may rely on what else is known of reached pools. -/
theorem memory {C : σ → Option φ → γ → Prop} {I : σ → Prop} (hinit : ∀ s, F.init s → I s)
    (hstart : ∀ s a s' fs, I s → F.start s a = some (s', fs) → I s')
    (hexec : ∀ c i f rest a s' fs, F.program.Reach (When C) c → c.thread i = f :: rest →
      C c.shared (some f) a → I c.shared → F.exec c.shared f a = some (s', fs) → I s')
    {c : Pool σ (List φ)} (h : F.program.Reach (When C) c) : I c.shared := by
  induction h with
  | init h => exact hinit _ h
  | @step c c' i a hc hC h ih =>
    obtain ⟨s', l', hx, rfl⟩ := Program.step_eq_some h
    cases hl : c.thread i with
    | nil =>
      rw [hl] at hx
      exact hstart _ _ _ _ ih hx
    | cons f rest =>
      rw [hl] at hx hC
      obtain ⟨fs, hfs, rfl⟩ := step_cons hx
      exact hexec c i f rest a s' fs hc hl hC ih hfs

/-- **Ownership by a frame.** `H` is a flag of the memory and `O` says which frames claim it. If no
    section raises the flag without leaving a frame that claims it, and none that belongs to a
    claiming frame leaves none while the flag stays, then a raised flag has an owner. -/
theorem owner {C : σ → Option φ → γ → Prop} {H : σ → Prop} {O : φ → Prop}
    (hinit : ∀ s, F.init s → ¬ H s)
    (hstart : ∀ s a s' fs, F.start s a = some (s', fs) → H s' → H s ∨ ∃ f ∈ fs, O f)
    (hexec : ∀ c i f rest a s' fs, F.program.Reach (When C) c → c.thread i = f :: rest →
      C c.shared (some f) a → F.exec c.shared f a = some (s', fs) → H s' →
      (H c.shared ∧ ¬ O f) ∨ ∃ f' ∈ fs, O f')
    {c : Pool σ (List φ)} (h : F.program.Reach (When C) c) (hH : H c.shared) :
    ∃ i, ∃ f ∈ c.thread i, O f := by
  induction h with
  | init h => exact absurd hH (hinit _ h)
  | @step c c' i a hc hC h ih =>
    obtain ⟨s', l', hx, rfl⟩ := Program.step_eq_some h
    have hmoved : (∃ f ∈ l', O f) → ∃ j, ∃ f ∈ Function.update c.thread i l' j, O f :=
      fun ⟨f, hf, hO⟩ => ⟨i, f, by simpa using hf, hO⟩
    -- an owner in another stack, or below the frame that ran, stays where it is
    have hstays : ∀ rest : List φ, (∀ f ∈ rest, f ∈ l') →
        (∃ j, ∃ f ∈ c.thread j, O f ∧ (j = i → f ∈ rest)) →
        ∃ j, ∃ f ∈ Function.update c.thread i l' j, O f := by
      rintro rest hrest ⟨j, f, hf, hO, hji⟩
      by_cases hj : j = i
      · exact hmoved ⟨f, hrest f (hji hj), hO⟩
      · exact ⟨j, f, by simpa [hj] using hf, hO⟩
    cases hl : c.thread i with
    | nil =>
      rw [hl] at hx
      rcases hstart _ _ _ _ hx hH with hold | hnew
      · obtain ⟨j, f, hf, hO⟩ := ih hold
        refine hstays [] (fun f hf => absurd hf List.not_mem_nil) ⟨j, f, hf, hO, fun hj => ?_⟩
        rwa [hj, hl] at hf
      · exact hmoved hnew
    | cons f rest =>
      rw [hl] at hx hC
      obtain ⟨fs, hfs, rfl⟩ := step_cons hx
      rcases hexec c i f rest a s' fs hc hl hC hfs hH with ⟨hold, hnot⟩ | ⟨f', hf', hO⟩
      · obtain ⟨j, g, hg, hO⟩ := ih hold
        refine hstays rest (fun g hg => List.mem_append_right _ hg) ⟨j, g, hg, hO, fun hj => ?_⟩
        rw [hj, hl] at hg
        rcases List.mem_cons.1 hg with rfl | hg
        · exact absurd hO hnot
        · exact hg
      · exact hmoved ⟨f', List.mem_append_left _ hf', hO⟩

end Frames

end Concurrency
