import Mathlib.Data.List.Chain
import Mathlib.Data.List.Infix

set_option autoImplicit false

/-! # Cutting a list into as few pieces as possible

A list is cut, in order, into non-empty pieces that are all admissible. When a part of an admissible piece
is admissible again, a cut that never has room for one more element is one with the fewest pieces: wherever
another cut ends a piece, the greedy one has come at least as far. -/

namespace GreedyCut

variable {α : Type} {ok : List α → Prop}

/-- The pieces make up the list, in order, and each of them is admissible. -/
structure IsCut (ok : List α → Prop) (xs : List α) (pieces : List (List α)) : Prop where
  flatten : pieces.flatten = xs
  ne_nil : ∀ piece ∈ pieces, piece ≠ []
  admissible : ∀ piece ∈ pieces, ok piece

/-- A part of an admissible piece is admissible. -/
def Hereditary (ok : List α → Prop) : Prop :=
  ∀ left part right, part ≠ [] → ok (left ++ part ++ right) → ok part

/-- No piece has room for the first element of the next. -/
def Greedy (ok : List α → Prop) (pieces : List (List α)) : Prop :=
  pieces.IsChain fun piece next => ∀ x ∈ next.head?, ¬ ok (piece ++ [x])

theorem IsCut.tail {xs piece : List α} {pieces : List (List α)} (h : IsCut ok xs (piece :: pieces)) :
    xs = piece ++ pieces.flatten ∧ piece ≠ [] ∧ ok piece ∧ IsCut ok pieces.flatten pieces := by
  obtain ⟨hne, hnes⟩ := List.forall_mem_cons.1 h.ne_nil
  obtain ⟨hok, hoks⟩ := List.forall_mem_cons.1 h.admissible
  exact ⟨h.flatten.symm, hne, hok, rfl, hnes, hoks⟩

theorem IsCut.eq_nil {pieces : List (List α)} (h : IsCut ok [] pieces) : pieces = [] := by
  cases pieces with
  | nil => rfl
  | cons piece pieces =>
    obtain ⟨hxs, hne, -, -⟩ := h.tail
    exact absurd (List.append_eq_nil_iff.1 hxs.symm).1 hne

/-- A greedy piece that begins inside an admissible one reaches its end. -/
theorem Greedy.reaches (hok : Hereditary ok) {piece rest left part : List α}
    {pieces : List (List α)} (hgreedy : Greedy ok (piece :: pieces))
    (hcut : IsCut ok pieces.flatten pieces)
    (hwhole : piece ++ pieces.flatten = part ++ rest) (hadm : ok (left ++ part)) :
    pieces.flatten <:+ rest := by
  rcases List.append_eq_append_iff.1 hwhole with ⟨more, hpart, hrest⟩ | ⟨gap, -, hrest⟩
  · -- the piece ends inside: its next element would have been admissible with it
    cases more with
    | nil =>
      rw [List.nil_append] at hrest
      exact hrest ▸ List.suffix_rfl
    | cons x more =>
      exfalso
      cases pieces with
      | nil => cases hrest
      | cons next pieces =>
        obtain ⟨-, hnext, -, -⟩ := hcut.tail
        obtain ⟨y, next, rfl⟩ := List.exists_cons_of_ne_nil hnext
        obtain rfl : y = x := by
          have hhead := congrArg List.head? hrest
          simpa using hhead
        have hstuck := (List.isChain_cons_cons.1 hgreedy).1 y rfl
        refine hstuck (hok left (piece ++ [y]) more (by simp) ?_)
        simpa [hpart] using hadm
  · exact ⟨gap, hrest.symm⟩

/-- **Greedy cuts are optimal.** No cut of a list has fewer pieces than a greedy one, not even one of a
    longer list that ends in it. -/
theorem length_le (hok : Hereditary ok) {xs ys : List α} {pieces cuts : List (List α)}
    (hgreedy : Greedy ok pieces) (hpieces : IsCut ok ys pieces) (hcuts : IsCut ok xs cuts)
    (hsuffix : ys <:+ xs) : pieces.length ≤ cuts.length := by
  -- along the other cut: each of its pieces lets the greedy one get rid of at least one
  induction cuts generalizing xs ys pieces with
  | nil =>
    obtain rfl : ys = [] := by
      have hxs : xs = [] := hcuts.flatten.symm
      simpa [hxs] using hsuffix
    rw [hpieces.eq_nil]
  | cons cut cuts ih =>
    obtain ⟨hxs, -, hadm, htail⟩ := hcuts.tail
    cases pieces with
    | nil => exact Nat.zero_le _
    | cons piece pieces =>
      obtain ⟨hys, -, -, hrest⟩ := hpieces.tail
      have hgreedy' : Greedy ok pieces := List.IsChain.of_cons hgreedy
      rw [List.length_cons, List.length_cons]
      refine Nat.succ_le_succ (ih hgreedy' hrest htail ?_)
      obtain ⟨left, hleft⟩ := hsuffix
      rw [hxs] at hleft
      rcases List.append_eq_append_iff.1 hleft with ⟨part, hcut, hpart⟩ | ⟨gap, -, hgap⟩
      · -- what is left for the greedy cut begins inside the piece
        rw [hcut] at hadm
        exact hgreedy.reaches hok hrest (hys ▸ hpart) hadm
      · -- or behind it
        have htails : pieces.flatten <:+ ys := ⟨piece, hys.symm⟩
        exact htails.trans ⟨gap, hgap.symm⟩

/-! ## Cuts of an image -/

section Map

variable {β : Type} {ok : List β → Prop} {f : α → β}

theorem IsCut.map {xs : List α} {pieces : List (List α)}
    (h : IsCut (fun piece => ok (piece.map f)) xs pieces) :
    IsCut ok (xs.map f) (pieces.map (List.map f)) where
  flatten := by rw [← List.map_flatten, h.flatten]
  ne_nil := by
    simp only [List.mem_map, forall_exists_index, and_imp, forall_apply_eq_imp_iff₂, ne_eq,
      List.map_eq_nil_iff]
    exact h.ne_nil
  admissible := by
    simp only [List.mem_map, forall_exists_index, and_imp, forall_apply_eq_imp_iff₂]
    exact h.admissible

theorem Greedy.map {pieces : List (List α)} (h : Greedy (fun piece => ok (piece.map f)) pieces) :
    Greedy ok (pieces.map (List.map f)) := by
  refine List.isChain_map_of_isChain (List.map f) (fun piece next hstuck y hy => ?_) h
  rw [List.head?_map] at hy
  obtain ⟨x, hx, rfl⟩ := Option.map_eq_some_iff.1 hy
  simpa using hstuck x hx

end Map

end GreedyCut
