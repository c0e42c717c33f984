import Mathlib.Data.List.Forall2

set_option autoImplicit false

/-! # Loops that stop at the first error

`xs.mapM f` in `Except`: the loop that collects the results of `f` and returns early with the first error. It
gives a result for every item, or the error of the leftmost item that has none. -/

namespace AllOrNothing

variable {α β ε : Type} {f : α → Except ε β}

theorem mapM_cons_ok {x : α} {y : β} (xs : List α) (h : f x = .ok y) :
    (x :: xs).mapM f = (xs.mapM f).map (y :: ·) := by
  rw [List.mapM_cons, h]
  cases xs.mapM f <;> rfl

theorem mapM_cons_error {x : α} {e : ε} (xs : List α) (h : f x = .error e) :
    (x :: xs).mapM f = .error e := by
  rw [List.mapM_cons, h]
  rfl

/-- The loop succeeds with the results of all items. -/
theorem mapM_eq_ok_iff {xs : List α} {ys : List β} :
    xs.mapM f = .ok ys ↔ List.Forall₂ (fun x y => f x = .ok y) xs ys := by
  induction xs generalizing ys with
  | nil => simp [pure, Except.pure, eq_comm]
  | cons x xs ih =>
    cases hx : f x with
    | error e => cases ys <;> simp [mapM_cons_error xs hx, hx]
    | ok y =>
      rw [mapM_cons_ok xs hx]
      cases hxs : xs.mapM f with
      | error e => cases ys <;> simp [Except.map, ← ih, hxs]
      | ok zs => cases ys <;> simp [Except.map, ← ih, hxs, hx]

/-- Every result is that of some item. -/
theorem exists_of_mem_mapM {xs : List α} {ys : List β} (h : xs.mapM f = .ok ys) {y : β} (hy : y ∈ ys) :
    ∃ x ∈ xs, f x = .ok y := by
  have hall := mapM_eq_ok_iff.1 h
  clear h
  induction hall with
  | nil => cases hy
  | @cons x z xs ys hx _ ih =>
    rcases List.mem_cons.1 hy with rfl | hy
    · exact ⟨x, List.mem_cons_self .., hx⟩
    · obtain ⟨x', hx', hy⟩ := ih hy
      exact ⟨x', List.mem_cons_of_mem _ hx', hy⟩

/-- The loop fails with the error of an item before which every item succeeds. -/
theorem mapM_eq_error_iff {xs : List α} {e : ε} :
    xs.mapM f = .error e ↔
      ∃ pre x post, xs = pre ++ x :: post ∧ (∀ y ∈ pre, ∃ z, f y = .ok z) ∧ f x = .error e := by
  induction xs with
  | nil => simp [pure, Except.pure]
  | cons x xs ih =>
    cases hx : f x with
    | error e' =>
      rw [mapM_cons_error xs hx]
      constructor
      · rintro ⟨⟩
        exact ⟨[], x, xs, rfl, by simp, hx⟩
      · rintro ⟨pre, x', post, heq, hpre, hx'⟩
        cases pre with
        | nil =>
          obtain ⟨rfl, -⟩ := List.cons.inj heq
          rw [Except.error.inj (hx.symm.trans hx')]
        | cons y pre =>
          obtain ⟨rfl, -⟩ := List.cons.inj heq
          obtain ⟨z, hz⟩ := hpre x (List.mem_cons_self ..)
          rw [hx] at hz
          cases hz
    | ok y =>
      rw [mapM_cons_ok xs hx]
      have hmap : (xs.mapM f).map (y :: ·) = .error e ↔ xs.mapM f = .error e := by
        cases xs.mapM f <;> simp [Except.map]
      rw [hmap, ih]
      constructor
      · rintro ⟨pre, x', post, rfl, hpre, hx'⟩
        refine ⟨x :: pre, x', post, rfl, ?_, hx'⟩
        exact List.forall_mem_cons.2 ⟨⟨y, hx⟩, hpre⟩
      · rintro ⟨pre, x', post, heq, hpre, hx'⟩
        cases pre with
        | nil =>
          obtain ⟨rfl, -⟩ := List.cons.inj heq
          rw [hx] at hx'
          cases hx'
        | cons z pre =>
          obtain ⟨rfl, rfl⟩ := List.cons.inj heq
          exact ⟨pre, x', post, rfl, fun w hw => hpre w (List.mem_cons_of_mem _ hw), hx'⟩

/-- The loop over two lists: the first error is one of the first list, or one of the second when the first
    has none. -/
theorem mapM_append_eq_error_iff {xs ys : List α} {e : ε} :
    (xs ++ ys).mapM f = .error e ↔
      xs.mapM f = .error e ∨ (∃ zs, xs.mapM f = .ok zs) ∧ ys.mapM f = .error e := by
  rw [List.mapM_append]
  cases hxs : xs.mapM f with
  | error e' => simp [bind, Except.bind]
  | ok zs =>
    cases ys.mapM f <;> simp [bind, Except.bind, pure, Except.pure]

theorem mapM_append_eq_ok_iff {xs ys : List α} {zs : List β} :
    (xs ++ ys).mapM f = .ok zs ↔
      ∃ us vs, xs.mapM f = .ok us ∧ ys.mapM f = .ok vs ∧ zs = us ++ vs := by
  rw [List.mapM_append]
  cases hxs : xs.mapM f with
  | error e' => simp [bind, Except.bind]
  | ok us =>
    cases ys.mapM f with
    | error e' => simp [bind, Except.bind]
    | ok vs => simp [bind, Except.bind, pure, Except.pure, eq_comm]

end AllOrNothing
