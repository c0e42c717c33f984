import EngineIo.Codec.Cursor
import EngineIo.Data.AllOrNothing

set_option autoImplicit false

/-! # Loops that read frames

A format in which a message is a concatenation of frames, each with a wire form of its own and an item to
decode. If a loop over a slice gives at the beginning of every frame the item of the frame and its end, and
gives an item only at the beginning of a frame, then it accepts exactly the concatenations of frames whose
items all decode. -/

namespace Cursor

variable {φ α β ε : Type}

section

variable (wire : φ → List α)

/-- The end of a frame can be told from the frame. -/
def Delimited : Prop := ∀ f g r s, wire f ++ r = wire g ++ s → f = g

/-- The iterations of a loop over `xs` read frames. -/
structure Reads (decode : φ → Except ε β) (xs : List α) (step : Int → Except (Fault ε) (β × Int)) :
    Prop where
  nonempty : ∀ f, wire f ≠ []
  complete : ∀ pre f post, pre ++ (wire f ++ post) = xs →
    step pre.length =
      ((decode f).map fun item => (item, (pre.length : Int) + (wire f).length)).mapError .error
  sound : ∀ pre rest item next, pre ++ rest = xs → rest ≠ [] → step pre.length = .ok (item, next) →
    ∃ f post, rest = wire f ++ post

end

variable {wire : φ → List α} {decode : φ → Except ε β} {xs : List α}
  {step : Int → Except (Fault ε) (β × Int)}

/-- A concatenation of frames is one in only one way. -/
theorem Delimited.flatMap_inj (h : Delimited wire) (hne : ∀ f, wire f ≠ []) {fs gs : List φ}
    (heq : fs.flatMap wire = gs.flatMap wire) : fs = gs := by
  induction fs generalizing gs with
  | nil =>
    cases gs with
    | nil => rfl
    | cons g gs =>
      have hnil := (List.append_eq_nil_iff.1 (heq.symm.trans List.flatMap_nil)).1
      exact absurd hnil (hne g)
  | cons f fs ih =>
    cases gs with
    | nil =>
      have hnil := (List.append_eq_nil_iff.1 (heq.trans List.flatMap_nil)).1
      exact absurd hnil (hne f)
    | cons g gs =>
      rw [List.flatMap_cons, List.flatMap_cons] at heq
      obtain rfl := h f g _ _ heq
      rw [ih (List.append_cancel_left heq)]

theorem length_le_length_flatMap (hne : ∀ f, wire f ≠ []) (fs : List φ) :
    fs.length ≤ (fs.flatMap wire).length := by
  induction fs with
  | nil => exact Nat.le_refl 0
  | cons f fs ih =>
    have hpos := List.length_pos_iff.2 (hne f)
    rw [List.flatMap_cons, List.length_append, List.length_cons]
    omega

/-- From the beginning of a frame on, the loop decodes the frames one by one and stops at the first that has
    no item. -/
theorem Reads.run_from (h : Reads wire decode xs step) {fs : List φ} (pre : List α)
    (hpre : pre ++ fs.flatMap wire = xs) {fuel : Nat} (hfuel : fs.length < fuel) :
    run step xs.length fuel pre.length = (fs.mapM decode).mapError .error := by
  induction fs generalizing pre fuel with
  | nil =>
    obtain ⟨fuel, rfl⟩ : ∃ n, fuel = n + 1 := ⟨fuel - 1, by simp only [List.length_nil] at hfuel; omega⟩
    obtain rfl : pre = xs := by simpa using hpre
    rw [run, if_neg (Int.lt_irrefl _)]
    rfl
  | cons f fs ih =>
    obtain ⟨fuel, rfl⟩ : ∃ n, fuel = n + 1 := ⟨fuel - 1, by omega⟩
    rw [List.flatMap_cons] at hpre
    have hpos := List.length_pos_iff.2 (h.nonempty f)
    have hlength : pre.length + ((wire f).length + (fs.flatMap wire).length) = xs.length := by
      rw [← hpre, List.length_append, List.length_append]
    rw [run, if_pos (by omega), h.complete pre f _ hpre]
    cases hd : decode f with
    | error e =>
      rw [AllOrNothing.mapM_cons_error fs hd]
      rfl
    | ok item =>
      have hfuel : fs.length < fuel := Nat.lt_of_succ_lt_succ hfuel
      have hrest := ih (pre ++ wire f) (by rw [List.append_assoc]; exact hpre) hfuel
      rw [List.length_append, Int.natCast_add] at hrest
      rw [AllOrNothing.mapM_cons_ok fs hd]
      simp only [Except.map, Except.mapError, hrest]
      cases fs.mapM decode <;> rfl

/-- The loop over a concatenation of frames. -/
theorem Reads.run_flatMap (h : Reads wire decode xs step) {fs : List φ} (hfs : fs.flatMap wire = xs) :
    run step xs.length (xs.length + 1) 0 = (fs.mapM decode).mapError .error := by
  have hle := length_le_length_flatMap h.nonempty fs
  rw [hfs] at hle
  exact h.run_from [] hfs (by omega)

theorem Reads.frames_from (h : Reads wire decode xs step) {fuel : Nat} (pre : List α) {rest : List α}
    {items : List β} (hpre : pre ++ rest = xs) (hrun : run step xs.length fuel pre.length = .ok items) :
    ∃ fs : List φ, fs.flatMap wire = rest ∧ fs.mapM decode = .ok items := by
  induction fuel generalizing pre rest items with
  | zero => cases hrun
  | succ fuel ih =>
    have hlength : pre.length + rest.length = xs.length := by rw [← hpre, List.length_append]
    rw [run] at hrun
    split at hrun
    · next hlt =>
      cases hs : step pre.length with
      | error e =>
        rw [hs] at hrun
        cases hrun
      | ok next =>
        -- there is a frame here, so the iteration is the one of the frame
        obtain ⟨f, post, rfl⟩ := h.sound pre rest _ _ hpre (by rintro rfl; simp at hlength; omega) hs
        have hstep := h.complete pre f post hpre
        cases hd : decode f with
        | error e =>
          rw [hs, hd] at hstep
          cases hstep
        | ok item =>
          rw [hstep, hd] at hrun
          simp only [Except.map, Except.mapError] at hrun
          split at hrun
          · cases hrun
          · next items' hrest =>
            obtain rfl : item :: items' = items := by simpa using hrun
            rw [← Int.natCast_add, ← List.length_append] at hrest
            obtain ⟨fs, rfl, hfs⟩ := ih _ (by rw [List.append_assoc]; exact hpre) hrest
            refine ⟨f :: fs, rfl, ?_⟩
            rw [AllOrNothing.mapM_cons_ok fs hd, hfs]
            rfl
    · next hge =>
      obtain rfl : [] = items := by simpa using hrun
      obtain rfl : rest = [] := List.length_eq_zero_iff.1 (by omega)
      exact ⟨[], rfl, rfl⟩

/-- **The language of a loop.** It returns items exactly for the concatenations of frames that all decode. -/
theorem Reads.run_eq_ok_iff (h : Reads wire decode xs step) {items : List β} :
    run step xs.length (xs.length + 1) 0 = .ok items ↔
      ∃ fs : List φ, fs.flatMap wire = xs ∧ fs.mapM decode = .ok items := by
  constructor
  · exact h.frames_from [] rfl
  · rintro ⟨fs, hfs, hitems⟩
    rw [h.run_flatMap hfs, hitems]
    rfl

/-- Up to the first `a`, and behind it. -/
theorem eq_of_append_cons_eq {a : α} {xs ys r s : List α} (hx : a ∉ xs) (hy : a ∉ ys)
    (h : xs ++ a :: r = ys ++ a :: s) : xs = ys ∧ r = s := by
  induction xs generalizing ys with
  | nil =>
    cases ys with
    | nil => exact ⟨rfl, (List.cons.inj h).2⟩
    | cons y ys =>
      obtain ⟨rfl, -⟩ := List.cons.inj h
      exact absurd (List.mem_cons_self ..) hy
  | cons x xs ih =>
    cases ys with
    | nil =>
      obtain ⟨rfl, -⟩ := List.cons.inj h
      exact absurd (List.mem_cons_self ..) hx
    | cons y ys =>
      obtain ⟨rfl, htail⟩ := List.cons.inj h
      obtain ⟨rfl, rfl⟩ := ih (List.not_mem_of_not_mem_cons hx) (List.not_mem_of_not_mem_cons hy) htail
      exact ⟨rfl, rfl⟩

end Cursor
