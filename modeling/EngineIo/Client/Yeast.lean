import EngineIo.Codec.Cursor
import Mathlib.Data.List.Nodup

set_option autoImplicit false

/-! # Cache-busting values (`yeast.go`)

Every long-poll carries a value that no earlier poll of the process carried. A value is the current millisecond
and, when the millisecond repeats, a sequence number, both written in an alphabet of 64 characters.

The generator only moves forward: each call draws a pair beyond everything that was drawn before, whatever the
clock says. A value can be read back into its pair, so different pairs give different values. -/

namespace EngineIo.Client

open Cursor

def yeastAlphabet : List Char :=
  "0123456789ABCDEFGHIJKLMNOPQRSTUVWXYZabcdefghijklmnopqrstuvwxyz-_".toList

/-- The loop of `yeastEncode`: `num` is still to be encoded, in front of `encoded`. -/
def yeastLoop : Nat → Int → List Char → Except (Fault Empty) (List Char)
  | 0, _, _ => .error .looping
  | fuel + 1, num, encoded =>
    match index yeastAlphabet (num.tmod yeastAlphabet.length) with
    | .error e => .error e
    | .ok c =>
      if num.tdiv yeastAlphabet.length = 0 then .ok (c :: encoded)
      else yeastLoop fuel (num.tdiv yeastAlphabet.length) (c :: encoded)

/-- `yeastEncode`. A quotient is closer to zero than its dividend, so this fuel is no limit. -/
def yeastEncode (num : Int) : Except (Fault Empty) (List Char) := yeastLoop (num.natAbs + 1) num []

/-- What a call of `next` encodes: the millisecond and, if it repeats one, a sequence number. -/
structure Stamp where
  millis : Int
  seq : Option Int
deriving DecidableEq, Repr

/-- The value returned for a stamp. -/
def Stamp.render (s : Stamp) : Except (Fault Empty) (List Char) :=
  match yeastEncode s.millis with
  | .error e => .error e
  | .ok time =>
    match s.seq with
    | none => .ok time
    | some seq =>
      match yeastEncode seq with
      | .error e => .error e
      | .ok suffix => .ok (time ++ '.' :: suffix)

structure YeastGenerator where
  seed : Int := 0
  previousMillis : Int := 0
deriving DecidableEq, Repr

namespace YeastGenerator

/-- `next` with the clock at `now`: what it encodes, and the generator it leaves. -/
def draw (g : YeastGenerator) (now : Int) : Stamp × YeastGenerator :=
  if max now g.previousMillis ≠ g.previousMillis then
    (⟨max now g.previousMillis, none⟩, { seed := 0, previousMillis := max now g.previousMillis })
  else (⟨max now g.previousMillis, some g.seed⟩, { g with seed := int64 (g.seed + 1) })

/-- `next`. -/
def next (g : YeastGenerator) (now : Int) : Except (Fault Empty) (List Char) × YeastGenerator :=
  ((g.draw now).1.render, (g.draw now).2)

/-- Successive calls of `next`, with the readings of the clock. -/
def values (g : YeastGenerator) : List Int → List (Except (Fault Empty) (List Char))
  | [] => []
  | now :: clock => (g.next now).1 :: (g.next now).2.values clock

/-- What these calls encode. -/
def stamps (g : YeastGenerator) : List Int → List Stamp
  | [] => []
  | now :: clock => (g.draw now).1 :: (g.draw now).2.stamps clock

theorem values_eq_map_render (g : YeastGenerator) (clock : List Int) :
    g.values clock = (g.stamps clock).map Stamp.render := by
  induction clock generalizing g with
  | nil => rfl
  | cons now clock ih => rw [values, stamps, List.map_cons, next, ih]

end YeastGenerator

/-! ## Reading values back -/

/-- The number that a text stands for. -/
def yeastValue (cs : List Char) : Nat :=
  cs.foldl (fun n c => n * yeastAlphabet.length + yeastAlphabet.idxOf c) 0

theorem yeastValue_concat (cs : List Char) (c : Char) :
    yeastValue (cs ++ [c]) = yeastValue cs * yeastAlphabet.length + yeastAlphabet.idxOf c := by
  rw [yeastValue, List.foldl_append]
  rfl

theorem length_yeastAlphabet : yeastAlphabet.length = 64 := by decide +kernel

theorem nodup_yeastAlphabet : yeastAlphabet.Nodup := by decide +kernel

/-- The character of a digit, and its place in the alphabet. -/
theorem exists_index_yeastAlphabet (n : Nat) :
    ∃ c ∈ yeastAlphabet, index (ε := Empty) yeastAlphabet ((n : Int).tmod yeastAlphabet.length) = .ok c ∧
      yeastAlphabet.idxOf c = n % yeastAlphabet.length := by
  have hlt : n % yeastAlphabet.length < yeastAlphabet.length :=
    Nat.mod_lt n (by rw [length_yeastAlphabet]; decide)
  refine ⟨yeastAlphabet[n % yeastAlphabet.length], List.getElem_mem hlt, ?_,
    nodup_yeastAlphabet.idxOf_getElem _ hlt⟩
  rw [← Int.ofNat_tmod, index, if_neg (by omega), Int.toNat_natCast, List.getElem?_eq_getElem hlt]

/-- The loop prepends a text of the number that was left. -/
theorem yeastLoop_spec {fuel n : Nat} (encoded : List Char) (hfuel : n < fuel) :
    ∃ cs, yeastLoop fuel n encoded = .ok (cs ++ encoded) ∧ yeastValue cs = n ∧ ∀ c ∈ cs, c ∈ yeastAlphabet := by
  induction fuel generalizing n encoded with
  | zero => omega
  | succ fuel ih =>
    obtain ⟨c, hmem, hindex, hidx⟩ := exists_index_yeastAlphabet n
    have hdiv := Nat.div_add_mod' n yeastAlphabet.length
    rw [yeastLoop, hindex, ← Int.ofNat_tdiv]
    simp only
    split
    · next hzero =>
      refine ⟨[c], rfl, ?_, by simpa using hmem⟩
      rw [Int.natCast_eq_zero.1 hzero] at hdiv
      rw [← List.nil_append [c], yeastValue_concat, hidx]
      simpa [yeastValue] using hdiv
    · next hpos =>
      have hlt : n / yeastAlphabet.length < fuel := by
        rw [length_yeastAlphabet] at hpos ⊢
        omega
      obtain ⟨cs, hloop, hvalue, hcs⟩ := ih (c :: encoded) hlt
      refine ⟨cs ++ [c], ?_, ?_, ?_⟩
      · rw [hloop, List.append_assoc, List.singleton_append]
      · rw [yeastValue_concat, hvalue, hidx, hdiv]
      · intro d hd
        rcases List.mem_append.1 hd with hd | hd
        · exact hcs d hd
        · exact List.mem_singleton.1 hd ▸ hmem

/-- A number that is not negative is encoded in the alphabet, and can be read back. -/
theorem yeastEncode_spec {num : Int} (h : 0 ≤ num) :
    ∃ cs, yeastEncode num = .ok cs ∧ yeastValue cs = num ∧ ∀ c ∈ cs, c ∈ yeastAlphabet := by
  obtain ⟨n, rfl⟩ := Int.eq_ofNat_of_zero_le h
  obtain ⟨cs, hloop, hvalue, hcs⟩ := yeastLoop_spec [] (Nat.lt_succ_self n)
  exact ⟨cs, by rw [yeastEncode, Int.natAbs_natCast, hloop, List.append_nil], by rw [hvalue], hcs⟩

/-- The stamp that a value was rendered from. -/
def readStamp (v : List Char) : Stamp :=
  match v.splitOn '.' with
  | [time] => ⟨yeastValue time, none⟩
  | [time, seq] => ⟨yeastValue time, some (yeastValue seq)⟩
  | _ => ⟨0, none⟩

/-- The numbers of a stamp can be encoded. -/
def Stamp.Nonneg (s : Stamp) : Prop := 0 ≤ s.millis ∧ ∀ seq ∈ s.seq, 0 ≤ seq

theorem dot_not_mem {cs : List Char} (h : ∀ c ∈ cs, c ∈ yeastAlphabet) : '.' ∉ cs := by
  intro hdot
  exact absurd (h '.' hdot) (by decide +kernel)

/-- What a value is made of. -/
def ValueShape (v : List Char) : Prop := (∀ c ∈ v, c ∈ yeastAlphabet ∨ c = '.') ∧ v.count '.' ≤ 1

theorem Stamp.render_spec {s : Stamp} (h : s.Nonneg) :
    ∃ v, s.render = .ok v ∧ readStamp v = s ∧ ValueShape v := by
  obtain ⟨millis, seq⟩ := s
  obtain ⟨hmillis, hseq⟩ := h
  obtain ⟨time, htime, hvalue, hchars⟩ := yeastEncode_spec hmillis
  have hdot := dot_not_mem hchars
  cases seq with
  | none =>
    refine ⟨time, by simp only [render, htime], ?_, fun c hc => .inl (hchars c hc), ?_⟩
    · simp only [readStamp, List.splitOn_eq_singleton hdot, hvalue]
    · rw [List.count_eq_zero_of_not_mem hdot]
      exact Nat.zero_le 1
  | some seq =>
    obtain ⟨suffix, hsuffix, hvalue', hchars'⟩ := yeastEncode_spec (hseq seq rfl)
    have hdot' := dot_not_mem hchars'
    refine ⟨time ++ '.' :: suffix, by simp only [render, htime, hsuffix], ?_, ?_, ?_⟩
    · simp only [readStamp, List.splitOn_append_cons_self_of_not_mem hdot, List.splitOn_eq_singleton hdot',
        hvalue, hvalue']
    · intro c hc
      rcases List.mem_append.1 hc with hc | hc
      · exact .inl (hchars c hc)
      · rcases List.mem_cons.1 hc with rfl | hc
        · exact .inr rfl
        · exact .inl (hchars' c hc)
    · rw [List.count_append, List.count_cons_self, List.count_eq_zero_of_not_mem hdot,
        List.count_eq_zero_of_not_mem hdot']

/-- Stamps are rendered into values from which they can be read back. -/
theorem exists_values {stamps : List Stamp} (h : ∀ s ∈ stamps, s.Nonneg) :
    ∃ vs : List (List Char), stamps.map Stamp.render = vs.map .ok ∧ vs.map readStamp = stamps ∧
      ∀ v ∈ vs, ValueShape v := by
  induction stamps with
  | nil => exact ⟨[], rfl, rfl, by simp⟩
  | cons s stamps ih =>
    obtain ⟨hs, hstamps⟩ := List.forall_mem_cons.1 h
    obtain ⟨v, hrender, hread, hshape⟩ := Stamp.render_spec hs
    obtain ⟨vs, hrenders, hreads, hshapes⟩ := ih hstamps
    refine ⟨v :: vs, ?_, ?_, List.forall_mem_cons.2 ⟨hshape, hshapes⟩⟩
    · rw [List.map_cons, List.map_cons, hrender, hrenders]
    · rw [List.map_cons, hread, hreads]

/-! ## Runs of the generator -/

/-- A generator whose numbers can be encoded for `calls` more calls. -/
structure YeastGenerator.Ready (g : YeastGenerator) (calls : Nat) : Prop where
  previousMillis_nonneg : 0 ≤ g.previousMillis
  seed_nonneg : 0 ≤ g.seed
  seed_lt : g.seed + calls < 2 ^ 63

/-- A stamp that `g` has not drawn and may draw. -/
def YeastGenerator.Ahead (g : YeastGenerator) (s : Stamp) : Prop :=
  g.previousMillis < s.millis ∨ g.previousMillis = s.millis ∧ ∃ seq ∈ s.seq, g.seed ≤ seq

namespace YeastGenerator

variable {g : YeastGenerator} {calls : Nat}

/-- One call: the stamp is ahead of the generator and can be encoded, and the generator moves beyond it. -/
theorem draw_spec (now : Int) (h : g.Ready (calls + 1)) :
    (g.draw now).2.Ready calls ∧ (g.draw now).1.Nonneg ∧ g.Ahead (g.draw now).1 ∧
      ¬ (g.draw now).2.Ahead (g.draw now).1 ∧ ∀ s, (g.draw now).2.Ahead s → g.Ahead s := by
  obtain ⟨hmillis, hseed, hlt⟩ := h
  have hle := Int.le_max_right now g.previousMillis
  unfold draw
  split
  · next hnew =>
    -- a later millisecond leaves everything drawn before behind
    have hlater : g.previousMillis < max now g.previousMillis := by omega
    have hmillis' : 0 ≤ max now g.previousMillis := by omega
    have hcalls : (0 : Int) + calls < 2 ^ 63 := by omega
    refine ⟨⟨hmillis', Int.le_refl 0, hcalls⟩, ⟨hmillis', nofun⟩, .inl hlater, ?_, ?_⟩
    · rintro (hbefore | ⟨-, seq, hseq, -⟩)
      · exact absurd hbefore (Int.lt_irrefl _)
      · cases hseq
    · rintro s (hbefore | ⟨hsame, -⟩)
      · exact .inl (Int.lt_trans hlater hbefore)
      · exact .inl (hsame ▸ hlater)
  · next hsame =>
    rw [not_not.1 hsame, int64_eq_self (by omega) (by omega)]
    have hseed' : 0 ≤ g.seed + 1 := by omega
    have hcalls : g.seed + 1 + calls < 2 ^ 63 := by omega
    refine ⟨⟨hmillis, hseed', hcalls⟩, ⟨hmillis, ?_⟩, .inr ⟨rfl, g.seed, rfl, Int.le_refl _⟩, ?_, ?_⟩
    · rintro seq ⟨⟩
      exact hseed
    · rintro (hbefore | ⟨-, seq, ⟨⟩, hge⟩)
      · exact absurd hbefore (Int.lt_irrefl _)
      · exact absurd (Int.lt_succ g.seed) (Int.not_lt.2 hge)
    · rintro s (hbefore | ⟨heq, seq, hseq, hge⟩)
      · exact .inl hbefore
      · exact .inr ⟨heq, seq, hseq, Int.le_trans (Int.le_of_lt (Int.lt_succ g.seed)) hge⟩

/-- A whole run. -/
theorem stamps_spec {clock : List Int} (h : g.Ready clock.length) :
    (g.stamps clock).Nodup ∧ ∀ s ∈ g.stamps clock, s.Nonneg ∧ g.Ahead s := by
  induction clock generalizing g with
  | nil => simp [stamps]
  | cons now clock ih =>
    obtain ⟨hready, hnonneg, hahead, hpast, hback⟩ := draw_spec now h
    obtain ⟨hnodup, hall⟩ := ih hready
    rw [stamps]
    refine ⟨List.nodup_cons.2 ⟨fun hmem => hpast (hall _ hmem).2, hnodup⟩, ?_⟩
    refine List.forall_mem_cons.2 ⟨⟨hnonneg, hahead⟩, fun s hs => ?_⟩
    exact ⟨(hall s hs).1, hback s (hall s hs).2⟩

end YeastGenerator

/-- **Values never repeat.** Whatever the readings of the clock are, successive calls of `next` encode only
    numbers that are not negative, return, and return pairwise different values in the alphabet, with one dot
    at most. -/
theorem yeast_values_nodup (clock : List Int) (hlen : clock.length < 2 ^ 63) :
    (∀ s ∈ YeastGenerator.stamps {} clock, s.Nonneg) ∧
    ∃ vs : List (List Char), YeastGenerator.values {} clock = vs.map .ok ∧ vs.Nodup ∧
      ∀ v ∈ vs, (∀ c ∈ v, c ∈ yeastAlphabet ∨ c = '.') ∧ v.count '.' ≤ 1 := by
  have hcalls : (0 : Int) + clock.length < 2 ^ 63 := by omega
  obtain ⟨hnodup, hall⟩ := YeastGenerator.stamps_spec (g := {}) ⟨Int.le_refl 0, Int.le_refl 0, hcalls⟩
  refine ⟨fun s hs => (hall s hs).1, ?_⟩
  rw [YeastGenerator.values_eq_map_render]
  obtain ⟨vs, hrender, hread, hshape⟩ := exists_values fun s hs => (hall s hs).1
  refine ⟨vs, hrender, ?_, hshape⟩
  rw [← hread] at hnodup
  exact List.Nodup.of_map readStamp hnodup

/-- A clock that repeats a negative reading, advances and goes back. -/
theorem yeast_values_nodup_backwards :
    YeastGenerator.values {} [-5, -5, 64, 3, 64] =
      [.ok "0.0".toList, .ok "0.1".toList, .ok "10".toList, .ok "10.0".toList, .ok "10.1".toList] ∧
    ∀ s ∈ YeastGenerator.stamps {} [-5, -5, 64, 3, 64], s.Nonneg :=
  ⟨by decide, (yeast_values_nodup [-5, -5, 64, 3, 64] (by decide)).1⟩

end EngineIo.Client
