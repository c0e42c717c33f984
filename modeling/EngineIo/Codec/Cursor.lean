import Mathlib.Algebra.Ring.Int.Defs
import Mathlib.Algebra.Ring.Nat
import Mathlib.Data.List.Basic

set_option autoImplicit false

/-! # Loops that move a cursor over a slice

The shape of a parser written as `for cursor := 0; cursor < len; { ... cursor = next }`. One iteration
is a function of the cursor that gives an item and the next cursor, or faults: it returns an error, or
it evaluates a slice expression that is out of range and panics. A loop that would run more often than
there are positions is a fault of its own, so that termination is a statement about the result. -/

namespace Cursor

variable {α β ε : Type}

inductive Fault (ε : Type)
  | error (e : ε)
  | panic
  | looping
deriving DecidableEq, Repr

/-- The value of an `int` expression: 64-bit two's complement. -/
def int64 (n : Int) : Int := n.bmod (2 ^ 64)

/-- `xs[low:high]`. -/
def slice (xs : List α) (low high : Int) : Except (Fault ε) (List α) :=
  if 0 ≤ low ∧ low ≤ high ∧ high ≤ xs.length then
    .ok ((xs.drop low.toNat).take (high - low).toNat)
  else .error .panic

/-- `xs[i]`. -/
def index (xs : List α) (i : Int) : Except (Fault ε) α :=
  if i < 0 then .error .panic
  else
    match xs[i.toNat]? with
    | none => .error .panic
    | some x => .ok x

/-- The loop, with `fuel` iterations at most. -/
def run (step : Int → Except (Fault ε) (α × Int)) (len : Int) :
    Nat → Int → Except (Fault ε) (List α)
  | 0, _ => .error .looping
  | fuel + 1, cursor =>
    if cursor < len then
      match step cursor with
      | .error e => .error e
      | .ok (item, next) =>
        match run step len fuel next with
        | .error e => .error e
        | .ok items => .ok (item :: items)
    else .ok []

/-- The cursors at which an iteration can begin. -/
inductive Reached (step : Int → Except (Fault ε) (α × Int)) (len : Int) : Int → Prop
  | start : Reached step len 0
  | next {cursor next : Int} {item : α} (h : Reached step len cursor) (hlt : cursor < len)
      (hs : step cursor = .ok (item, next)) : Reached step len next

/-- Every iteration moves the cursor forward, and not beyond the end. -/
def Advances (step : Int → Except (Fault ε) (α × Int)) (len : Int) : Prop :=
  ∀ cursor item next, 0 ≤ cursor → cursor < len → step cursor = .ok (item, next) →
    cursor < next ∧ next ≤ len

/-- An iteration returns an error, or an item with the cursor moved forward, or else it panics; the
    flag tells which. -/
inductive Iteration (len cursor : Int) : Except (Fault ε) (α × Int) → Bool → Prop
  | fails (e : ε) : Iteration len cursor (.error (.error e)) false
  | advances (item : α) {next : Int} (hlt : cursor < next) (hle : next ≤ len) :
      Iteration len cursor (.ok (item, next)) false
  | panics : Iteration len cursor (.error .panic) true

variable {step : Int → Except (Fault ε) (α × Int)} {len : Int}

theorem int64_eq_self {n : Int} (h : -2 ^ 63 ≤ n) (h' : n < 2 ^ 63) : int64 n = n := by
  unfold int64
  rw [Int.bmod_def]
  omega

/-- Beyond the range a sum comes out negative. -/
theorem int64_eq_sub {n : Int} (h : 2 ^ 63 ≤ n) (h' : n < 2 ^ 64) : int64 n = n - 2 ^ 64 := by
  unfold int64
  rw [Int.bmod_def]
  omega

theorem int64_bounds (n : Int) : -2 ^ 63 ≤ int64 n ∧ int64 n < 2 ^ 63 := by
  unfold int64
  rw [Int.bmod_def]
  omega

theorem index_eq {xs : List α} {i : Int} (h0 : 0 ≤ i) (h : i < xs.length) :
    ∃ x, index (ε := ε) xs i = .ok x := by
  have hi : i.toNat < xs.length := by omega
  exact ⟨xs[i.toNat], by rw [index, if_neg (by omega), List.getElem?_eq_getElem hi]⟩

theorem slice_eq_panic {xs : List α} {low high : Int} :
    slice (ε := ε) xs low high = .error .panic ↔ ¬ (0 ≤ low ∧ low ≤ high ∧ high ≤ xs.length) := by
  unfold slice
  split
  · next h => simp [h]
  · next h => simp only [h, not_false_eq_true]

/-- The slice in the middle. -/
theorem slice_middle (pre mid post : List α) :
    slice (ε := ε) (pre ++ (mid ++ post)) pre.length (pre.length + mid.length) = .ok mid := by
  rw [slice, if_pos]
  · simp
  · simp only [List.length_append]
    omega

theorem Reached.bounds (hadv : Advances step len) (hlen : 0 ≤ len) {cursor : Int}
    (h : Reached step len cursor) : 0 ≤ cursor ∧ cursor ≤ len := by
  induction h with
  | start => exact ⟨Int.le_refl 0, hlen⟩
  | next _ hlt hs ih =>
    have hnext := hadv _ _ _ ih.1 hlt hs
    omega

/-- **Termination.** A loop whose iterations advance ends within as many iterations as there are
    positions. -/
theorem run_ne_looping (hadv : Advances step len)
    (hstep : ∀ cursor, 0 ≤ cursor → cursor < len → step cursor ≠ .error .looping) {fuel : Nat} {cursor : Int}
    (h0 : 0 ≤ cursor) (hfuel : len - cursor < fuel) (hle : cursor ≤ len) :
    run step len fuel cursor ≠ .error .looping := by
  induction fuel generalizing cursor with
  | zero => omega
  | succ fuel ih =>
    unfold run
    split
    · next hlt =>
      split
      · next e hs =>
        intro h
        obtain rfl : e = .looping := by simpa using h
        exact hstep cursor h0 hlt hs
      · next item next hs =>
        obtain ⟨hlt', hle'⟩ := hadv _ _ _ h0 hlt hs
        have hrest := @ih next (by omega) (by omega) hle'
        split
        · next e he => exact fun h => hrest (he.trans h)
        · simp
    · simp

/-- An error or a panic of the loop is one of an iteration it reaches. -/
theorem reached_of_run_error {fuel : Nat} {cursor : Int} {e : Fault ε}
    (hr : Reached step len cursor) (he : e ≠ .looping) (h : run step len fuel cursor = .error e) :
    ∃ c, Reached step len c ∧ c < len ∧ step c = .error e := by
  induction fuel generalizing cursor with
  | zero =>
    simp only [run, Except.error.injEq] at h
    exact absurd h.symm he
  | succ fuel ih =>
    unfold run at h
    split at h
    · next hlt =>
      split at h
      · next e' hs =>
        obtain rfl : e' = e := by simpa using h
        exact ⟨cursor, hr, hlt, hs⟩
      · next item next hs =>
        split at h
        · next e' he' =>
          obtain rfl : e' = e := by simpa using h
          exact ih (hr.next hlt hs) he'
        · cases h
    · cases h

/-- The items of a loop are those of the iterations it reaches. -/
theorem reached_of_run_ok {fuel : Nat} {cursor : Int} {items : List α} (hr : Reached step len cursor)
    (h : run step len fuel cursor = .ok items) :
    ∀ item ∈ items, ∃ c next, Reached step len c ∧ c < len ∧ step c = .ok (item, next) := by
  induction fuel generalizing cursor items with
  | zero => cases h
  | succ fuel ih =>
    unfold run at h
    split at h
    · next hlt =>
      split at h
      · cases h
      · next item next hs =>
        split at h
        · cases h
        · next items' hitems =>
          obtain rfl : item :: items' = items := by simpa using h
          intro item' hmem
          rcases List.mem_cons.1 hmem with rfl | hmem
          · exact ⟨cursor, next, hr, hlt, hs⟩
          · exact ih (hr.next hlt hs) hitems item' hmem
    · obtain rfl : [] = items := by simpa using h
      simp

/-- From every cursor that a loop without fault reaches it goes on without fault, to items of the whole. -/
theorem run_ok_of_reached {fuel : Nat} {items : List α} (h : run step len fuel 0 = .ok items)
    {cursor : Int} (hr : Reached step len cursor) :
    ∃ fuel' items', run step len fuel' cursor = .ok items' ∧ items' ⊆ items := by
  induction hr with
  | start => exact ⟨fuel, items, h, List.Subset.refl _⟩
  | @next cursor next item hr hlt hs ih =>
    obtain ⟨fuel', items', h', hsub⟩ := ih
    cases fuel' with
    | zero => cases h'
    | succ fuel' =>
      simp only [run, if_pos hlt, hs] at h'
      split at h'
      · cases h'
      · next rest hrest =>
        obtain rfl : item :: rest = items' := by simpa using h'
        exact ⟨fuel', rest, hrest, fun x hx => hsub (List.mem_cons_of_mem _ hx)⟩

/-- **Items.** What holds of every item of a loop is what holds of the item of every iteration that the
    loop reaches. -/
theorem forall_mem_run_iff {fuel : Nat} {items : List α} (h : run step len fuel 0 = .ok items)
    (P : α → Prop) :
    (∀ item ∈ items, P item) ↔
      ∀ c, Reached step len c → c < len → ∃ item next, step c = .ok (item, next) ∧ P item := by
  constructor
  · intro hall c hr hlt
    obtain ⟨fuel', items', h', hsub⟩ := run_ok_of_reached h hr
    cases fuel' with
    | zero => cases h'
    | succ fuel' =>
      simp only [run, if_pos hlt] at h'
      split at h'
      · cases h'
      · next item next hs =>
        split at h'
        · cases h'
        · next rest hrest =>
          obtain rfl : item :: rest = items' := by simpa using h'
          exact ⟨item, next, hs, hall item (hsub (List.mem_cons_self ..))⟩
  · intro hall item hmem
    obtain ⟨c, next, hr, hlt, hs⟩ := reached_of_run_ok .start h item hmem
    obtain ⟨item', next', hs', hp⟩ := hall c hr hlt
    obtain ⟨rfl, -⟩ : item = item' ∧ next = next' := by simpa [hs] using hs'
    exact hp

/-- **Faults.** With enough fuel, a loop faults with `e` exactly when some iteration it reaches does. -/
theorem run_error_iff (hadv : Advances step len) {e : Fault ε} (he : e ≠ .looping) {fuel : Nat}
    (hlen : 0 ≤ len) (hfuel : len < fuel) :
    run step len fuel 0 = .error e ↔ ∃ c, Reached step len c ∧ c < len ∧ step c = .error e := by
  refine ⟨reached_of_run_error .start he, ?_⟩
  rintro ⟨c, hr, hlt, hs⟩
  -- every cursor on the way to `c` has fuel left, and hands the fault back
  have hback : (∀ fuel : Nat, len - c < fuel → run step len fuel c = .error e) →
      ∀ fuel : Nat, len < fuel → run step len fuel 0 = .error e := by
    clear hlt hs
    induction hr with
    | start => exact fun hall fuel h => hall fuel (by omega)
    | @next cursor next item hr hlt hs ih =>
      intro hall
      obtain ⟨h0, -⟩ := hr.bounds hadv hlen
      obtain ⟨hlt', -⟩ := hadv _ _ _ h0 hlt hs
      refine ih fun fuel hfuel => ?_
      cases fuel with
      | zero => omega
      | succ fuel =>
        rw [run, if_pos hlt, hs]
        simp only [hall fuel (by omega)]
  refine hback (fun fuel hfuel => ?_) fuel hfuel
  cases fuel with
  | zero => omega
  | succ fuel =>
    rw [run, if_pos hlt, hs]

/-- **Loops over a slice.** If each iteration fails, advances or panics, the loop ends; and it panics
    exactly when an iteration it reaches does. -/
theorem run_spec {panics : Int → Bool}
    (h : ∀ cursor, 0 ≤ cursor → cursor < len → Iteration len cursor (step cursor) (panics cursor))
    (hlen : 0 ≤ len) {fuel : Nat} (hfuel : len < fuel) :
    Advances step len ∧ run step len fuel 0 ≠ .error .looping ∧
      (run step len fuel 0 = .error .panic ↔
        ∃ c, Reached step len c ∧ c < len ∧ panics c = true) := by
  have hadv : Advances step len := by
    intro cursor item next h0 hlt hs
    have hiter := h cursor h0 hlt
    rw [hs] at hiter
    generalize panics cursor = b at hiter
    cases hiter with
    | advances _ hlt' hle => exact ⟨hlt', hle⟩
  refine ⟨hadv, run_ne_looping hadv ?_ (Int.le_refl 0) (by omega) hlen, ?_⟩
  · intro cursor h0 hlt hs
    have hiter := h cursor h0 hlt
    rw [hs] at hiter
    generalize panics cursor = b at hiter
    cases hiter
  · rw [run_error_iff hadv (e := .panic) nofun hlen hfuel]
    refine exists_congr fun c => and_congr_right fun hr => and_congr_right fun hlt => ?_
    have hiter := h c (hr.bounds hadv hlen).1 hlt
    generalize step c = r at hiter
    generalize panics c = b at hiter
    cases hiter with
    | fails e => simp
    | advances => simp
    | panics => simp

end Cursor
