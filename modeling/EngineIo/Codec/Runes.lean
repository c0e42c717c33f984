import EngineIo.Codec.Utf8

set_option autoImplicit false

/-! # Which strings survive the way through runes

A string is read into units: the runes that are properly encoded, and the bytes that belong to none. Writing
the runes back gives the string again exactly if there is no such byte; each of them comes back as the three
bytes of the replacement character. -/

namespace Utf8

/-- The code points that have an encoding. -/
def Scalar (r : Nat) : Prop := r < 0xD800 ∨ 0xE000 ≤ r ∧ r ≤ 0x10FFFF

instance (r : Nat) : Decidable (Scalar r) := inferInstanceAs (Decidable (_ ∨ _))

/-- What a byte stands for, given what `decodeRune` makes of it. -/
def unit (b : UInt8) (decoded : Nat × Nat) : Option Nat :=
  if b < 0x80 ∨ decoded.2 ≠ 0 then some decoded.1 else none

/-- The units of the bytes after the first `skip`. -/
def unitsFrom : Nat → List UInt8 → List (Option Nat)
  | _, [] => []
  | skip + 1, _ :: rest => unitsFrom skip rest
  | 0, b :: rest => unit b (decodeRune b rest) :: unitsFrom (decodeRune b rest).2 rest

/-- The runes of a string; `none` is a byte that belongs to no rune. -/
def units (s : List UInt8) : List (Option Nat) := unitsFrom 0 s

/-- `utf8.ValidString`. -/
def Valid (s : List UInt8) : Prop := none ∉ units s

instance (s : List UInt8) : Decidable (Valid s) := inferInstanceAs (Decidable (¬ _))

/-! ## One rune -/

theorem continues_iff {b : UInt8} : continues b = true ↔ 0x80 ≤ b.toNat ∧ b.toNat ≤ 0xBF := by
  simp [continues, UInt8.le_iff_toNat_le]

theorem toNat_ofNat_of_lt {n : Nat} (h : n < 256) : (UInt8.ofNat n).toNat = n := by
  simpa using Nat.mod_eq_of_lt h

/-- The first two bytes of a rune that takes `n` more bytes than the first. -/
def Starts (n b b₁ : Nat) : Prop :=
  0x80 ≤ b₁ ∧ b₁ ≤ 0xBF ∧
    (n = 1 ∧ 0xC2 ≤ b ∧ b ≤ 0xDF ∨
      n = 2 ∧ 0xE0 ≤ b ∧ b ≤ 0xEF ∧ (b = 0xE0 → 0xA0 ≤ b₁) ∧ (b = 0xED → b₁ ≤ 0x9F) ∨
      n = 3 ∧ 0xF0 ≤ b ∧ b ≤ 0xF4 ∧ (b = 0xF0 → 0x90 ≤ b₁) ∧ (b = 0xF4 → b₁ ≤ 0x8F))

theorem starts_of_lead {b b₁ low high : UInt8} {n : Nat} (h : lead b = some (n, low, high)) (hlow : low ≤ b₁)
    (hhigh : b₁ ≤ high) : Starts n b.toNat b₁.toNat := by
  rw [UInt8.le_iff_toNat_le] at hlow hhigh
  unfold lead at h
  simp only [UInt8.le_iff_toNat_le, ← UInt8.toNat_inj, UInt8.reduceToNat] at h
  unfold Starts
  split_ifs at h <;> cases h <;> simp only [UInt8.reduceToNat] at hlow hhigh <;> omega

theorem exists_lead {b b₁ : UInt8} {n : Nat} (h : Starts n b.toNat b₁.toNat) :
    ∃ low high, lead b = some (n, low, high) ∧ low ≤ b₁ ∧ b₁ ≤ high := by
  unfold Starts at h
  unfold lead
  simp only [UInt8.le_iff_toNat_le, ← UInt8.toNat_inj, UInt8.reduceToNat]
  split_ifs
  all_goals first
    | omega
    | (refine ⟨_, _, congrArg some (congrArg₂ Prod.mk (by omega) rfl), ?_, ?_⟩ <;>
        simp only [UInt8.reduceToNat] <;> omega)

/-- The bytes are the encoding of the rune. -/
inductive Encodes : List UInt8 → Nat → Prop
  | one {b : UInt8} (h : b.toNat < 0x80) : Encodes [b] b.toNat
  | two {b b₁ : UInt8} (h : Starts 1 b.toNat b₁.toNat) : Encodes [b, b₁] (shift (b.toNat % 32) b₁)
  | three {b b₁ b₂ : UInt8} (h : Starts 2 b.toNat b₁.toNat) (h₂ : continues b₂ = true) :
      Encodes [b, b₁, b₂] (shift (shift (b.toNat % 16) b₁) b₂)
  | four {b b₁ b₂ b₃ : UInt8} (h : Starts 3 b.toNat b₁.toNat) (h₂ : continues b₂ = true)
      (h₃ : continues b₃ = true) :
      Encodes [b, b₁, b₂, b₃] (shift (shift (shift (b.toNat % 8) b₁) b₂) b₃)

theorem Encodes.decodeRune {b : UInt8} {tail : List UInt8} {r : Nat} (h : Encodes (b :: tail) r)
    (rest : List UInt8) : decodeRune b (tail ++ rest) = (r, tail.length) := by
  cases h with
  | one h => simp [Utf8.decodeRune, UInt8.lt_iff_toNat_lt, h]
  | two h =>
    obtain ⟨low, high, hlead, hlow, hhigh⟩ := exists_lead h
    have hb : ¬ b.toNat < 0x80 := by unfold Starts at h; omega
    simp [Utf8.decodeRune, UInt8.lt_iff_toNat_lt, hb, hlead, hlow, hhigh]
  | three h h₂ =>
    obtain ⟨low, high, hlead, hlow, hhigh⟩ := exists_lead h
    have hb : ¬ b.toNat < 0x80 := by unfold Starts at h; omega
    simp [Utf8.decodeRune, UInt8.lt_iff_toNat_lt, hb, hlead, hlow, hhigh, h₂]
  | four h h₂ h₃ =>
    obtain ⟨low, high, hlead, hlow, hhigh⟩ := exists_lead h
    have hb : ¬ b.toNat < 0x80 := by unfold Starts at h; omega
    simp [Utf8.decodeRune, UInt8.lt_iff_toNat_lt, hb, hlead, hlow, hhigh, h₂, h₃]

/-- A byte starts the encoding of a rune, or it belongs to none. -/
theorem decodeRune_cases (b : UInt8) (rest : List UInt8) :
    (∃ tail rest' r, rest = tail ++ rest' ∧ Encodes (b :: tail) r) ∨
      decodeRune b rest = (runeError, 0) ∧ 0x80 ≤ b.toNat := by
  by_cases hb : b.toNat < 0x80
  · exact .inl ⟨[], rest, b.toNat, rfl, .one hb⟩
  · have hlt : ¬ b < 0x80 := by simpa [UInt8.lt_iff_toNat_lt] using hb
    fun_cases Utf8.decodeRune b rest
    case case1 h => exact absurd h hlt
    case case2 low high b₁ rest hlead hin =>
      exact .inl ⟨[b₁], rest, _, rfl, .two (starts_of_lead hlead hin.1 hin.2)⟩
    case case4 low high b₁ b₂ rest hlead hin =>
      exact .inl ⟨[b₁, b₂], rest, _, rfl, .three (starts_of_lead hlead hin.1 hin.2.1) hin.2.2⟩
    case case6 low high b₁ b₂ b₃ rest hlead hin =>
      exact .inl ⟨[b₁, b₂, b₃], rest, _, rfl,
        .four (starts_of_lead hlead hin.1 hin.2.1) hin.2.2.1 hin.2.2.2⟩
    all_goals exact .inr ⟨rfl, by omega⟩

theorem Encodes.scalar {bs : List UInt8} {r : Nat} (h : Encodes bs r) : Scalar r := by
  unfold Scalar
  cases h with
  | one h => omega
  | two h => unfold Starts at h; unfold shift; omega
  | three h h₂ => rw [continues_iff] at h₂; unfold Starts at h; unfold shift; omega
  | four h h₂ h₃ => rw [continues_iff] at h₂ h₃; unfold Starts at h; unfold shift; omega

theorem ofNat_toNat_eq {b : UInt8} {n : Nat} (h : n = b.toNat) : UInt8.ofNat n = b := by
  subst h
  simp

/-- There is one encoding of a rune. -/
theorem Encodes.encodeRune {bs : List UInt8} {r : Nat} (h : Encodes bs r) : encodeRune r = bs := by
  have hscalar := h.scalar
  unfold Scalar at hscalar
  cases h with
  | one h =>
    rw [Utf8.encodeRune, if_pos h, ofNat_toNat_eq rfl]
  | @two b b₁ h =>
    unfold Starts at h
    unfold shift at hscalar ⊢
    rw [Utf8.encodeRune, if_neg (by omega), if_pos (by omega)]
    congr 1
    · exact ofNat_toNat_eq (by omega)
    · congr 1
      exact ofNat_toNat_eq (by omega)
  | @three b b₁ b₂ h h₂ =>
    rw [continues_iff] at h₂
    unfold Starts at h
    unfold shift at hscalar ⊢
    rw [Utf8.encodeRune, if_neg (by omega), if_neg (by omega), if_neg (by omega), if_pos (by omega)]
    congr 1
    · exact ofNat_toNat_eq (by omega)
    · congr 1
      · exact ofNat_toNat_eq (by omega)
      · congr 1
        exact ofNat_toNat_eq (by omega)
  | @four b b₁ b₂ b₃ h h₂ h₃ =>
    rw [continues_iff] at h₂ h₃
    unfold Starts at h
    unfold shift at hscalar ⊢
    rw [Utf8.encodeRune, if_neg (by omega), if_neg (by omega), if_neg (by omega), if_neg (by omega)]
    congr 1
    · exact ofNat_toNat_eq (by omega)
    · congr 1
      · exact ofNat_toNat_eq (by omega)
      · congr 1
        · exact ofNat_toNat_eq (by omega)
        · congr 1
          exact ofNat_toNat_eq (by omega)

theorem Encodes.ofEq {bs : List UInt8} {r r' : Nat} (h : Encodes bs r) (heq : r = r') : Encodes bs r' :=
  heq ▸ h

theorem encodes_encodeRune {r : Nat} (h : Scalar r) : Encodes (encodeRune r) r := by
  unfold Scalar at h
  have hbyte {n : Nat} (hn : n < 256) : (UInt8.ofNat n).toNat = n := toNat_ofNat_of_lt hn
  unfold Utf8.encodeRune
  split_ifs with h1 h2 h3 h4
  · exact (Encodes.one (by rw [hbyte (by omega)]; omega)).ofEq (hbyte (by omega))
  · refine (Encodes.two ?_).ofEq ?_
    · rw [hbyte (by omega), hbyte (by omega)]
      unfold Starts
      omega
    · rw [shift, hbyte (by omega), hbyte (by omega)]
      omega
  · omega
  · refine (Encodes.three ?_ ?_).ofEq ?_
    · rw [hbyte (by omega), hbyte (by omega)]
      unfold Starts
      omega
    · rw [continues_iff, hbyte (by omega)]
      omega
    · rw [shift, shift, hbyte (by omega), hbyte (by omega), hbyte (by omega)]
      omega
  · refine (Encodes.four ?_ ?_ ?_).ofEq ?_
    · rw [hbyte (by omega), hbyte (by omega)]
      unfold Starts
      omega
    · rw [continues_iff, hbyte (by omega)]
      omega
    · rw [continues_iff, hbyte (by omega)]
      omega
    · rw [shift, shift, shift, hbyte (by omega), hbyte (by omega), hbyte (by omega), hbyte (by omega)]
      omega

/-! ## Strings -/

theorem unitsFrom_length (tail rest : List UInt8) : unitsFrom tail.length (tail ++ rest) = units rest := by
  induction tail with
  | nil => rfl
  | cons b tail ih => exact ih

theorem units_nil : units [] = [] := rfl

/-- A rune at the front. -/
theorem Encodes.units {bs : List UInt8} {r : Nat} (h : Encodes bs r) (rest : List UInt8) :
    units (bs ++ rest) = some r :: units rest := by
  obtain ⟨b, tail, rfl⟩ : ∃ b tail, bs = b :: tail := by cases h <;> exact ⟨_, _, rfl⟩
  have hdecode := h.decodeRune rest
  have hunit : unit b (r, tail.length) = some r := by
    rw [unit, if_pos]
    cases h with
    | one h => exact .inl (by simpa [UInt8.lt_iff_toNat_lt] using h)
    | _ => exact .inr (by simp)
  rw [List.cons_append, Utf8.units, unitsFrom, hdecode, hunit, unitsFrom_length]

/-- In ASCII every byte is a rune. -/
theorem units_ascii {s : List UInt8} (h : ∀ b ∈ s, b.toNat < 0x80) : units s = s.map fun b => some b.toNat := by
  induction s with
  | nil => rfl
  | cons b s ih =>
    obtain ⟨hb, hs⟩ := List.forall_mem_cons.1 h
    have hunits := (Encodes.one hb).units s
    rw [List.singleton_append] at hunits
    rw [hunits, ih hs, List.map_cons]

/-- A byte at the front that belongs to no rune. -/
theorem units_stray {b : UInt8} {rest : List UInt8} (h : decodeRune b rest = (runeError, 0))
    (hb : 0x80 ≤ b.toNat) : units (b :: rest) = none :: units rest := by
  have hunit : unit b (runeError, 0) = none := by
    rw [unit, if_neg]
    simpa [UInt8.lt_iff_toNat_lt] using hb
  rw [units, unitsFrom, h, hunit]
  rfl

/-- **Induction over the units of a string.** -/
theorem units_induction {P : List UInt8 → Prop} (nil : P [])
    (rune : ∀ bs r rest, Encodes bs r → P rest → P (bs ++ rest))
    (stray : ∀ b rest, decodeRune b rest = (runeError, 0) → 0x80 ≤ b.toNat → P rest → P (b :: rest))
    (s : List UInt8) : P s := by
  induction hn : s.length using Nat.strongRecOn generalizing s with
  | _ n ih =>
    cases s with
    | nil => exact nil
    | cons b rest =>
      rcases decodeRune_cases b rest with ⟨tail, rest', r, rfl, h⟩ | ⟨h, hb⟩
      · exact rune (b :: tail) r rest' h (ih _ (by simp at hn; omega) rest' rfl)
      · exact stray b rest h hb (ih _ (by simp at hn; omega) rest rfl)

theorem runesFrom_eq (skip : Nat) (s : List UInt8) :
    runesFrom skip s = (unitsFrom skip s).map (·.getD runeError) := by
  induction s generalizing skip with
  | nil => cases skip <;> rfl
  | cons b rest ih =>
    cases skip with
    | succ skip => exact ih skip
    | zero =>
      rw [runesFrom, unitsFrom, List.map_cons, ih]
      congr 1
      rcases decodeRune_cases b rest with ⟨tail, rest', r, rfl, h⟩ | ⟨h, hb⟩
      · have hunits := h.units rest'
        have hdecode := h.decodeRune rest'
        rw [List.cons_append, units, unitsFrom, hdecode, List.cons.injEq] at hunits
        rw [hdecode, hunits.1]
        rfl
      · rw [h]
        unfold unit
        split <;> rfl

/-- The runes of a string are its units, with the replacement character for a stray byte. -/
theorem runes_eq (s : List UInt8) : runes s = (units s).map (·.getD runeError) := runesFrom_eq 0 s

theorem Encodes.runes {bs : List UInt8} {r : Nat} (h : Encodes bs r) (rest : List UInt8) :
    runes (bs ++ rest) = r :: runes rest := by
  rw [runes_eq, h.units, List.map_cons, ← runes_eq]
  rfl

theorem runes_stray {b : UInt8} {rest : List UInt8} (h : decodeRune b rest = (runeError, 0))
    (hb : 0x80 ≤ b.toNat) : runes (b :: rest) = runeError :: runes rest := by
  rw [runes_eq, units_stray h hb, List.map_cons, ← runes_eq]
  rfl

theorem string_append (rs ts : List Nat) : string (rs ++ ts) = string rs ++ string ts :=
  List.flatMap_append

theorem string_cons (r : Nat) (rs : List Nat) : string (r :: rs) = encodeRune r ++ string rs := by
  simp [string]

/-- Written runes are read back, whatever stands behind them. -/
theorem runes_string_append {rs : List Nat} (h : ∀ r ∈ rs, Scalar r) (rest : List UInt8) :
    runes (string rs ++ rest) = rs ++ runes rest := by
  induction rs with
  | nil => rfl
  | cons r rs ih =>
    obtain ⟨hr, hrs⟩ := List.forall_mem_cons.1 h
    rw [string_cons, List.append_assoc, (encodes_encodeRune hr).runes, ih hrs, List.cons_append]

theorem runes_string {rs : List Nat} (h : ∀ r ∈ rs, Scalar r) : runes (string rs) = rs := by
  have hrunes := runes_string_append h []
  rwa [List.append_nil, show runes [] = [] from rfl, List.append_nil] at hrunes

theorem scalar_of_mem_runes {s : List UInt8} {r : Nat} (h : r ∈ runes s) : Scalar r := by
  induction s using units_induction with
  | nil => cases h
  | rune bs r' rest henc ih =>
    rw [henc.runes, List.mem_cons] at h
    rcases h with rfl | h
    · exact henc.scalar
    · exact ih h
  | stray b rest hb hge ih =>
    rw [runes_stray hb hge, List.mem_cons] at h
    rcases h with rfl | h
    · decide
    · exact ih h

theorem scalar_of_mem_units {s : List UInt8} {r : Nat} (h : some r ∈ units s) : Scalar r := by
  apply scalar_of_mem_runes (s := s)
  rw [runes_eq]
  exact List.mem_map.2 ⟨some r, h, rfl⟩

/-- Reading and writing never make a string shorter, and longer by two for every stray byte. -/
theorem length_string_runes (s : List UInt8) :
    (string (runes s)).length = s.length + 2 * (units s).count none := by
  induction s using units_induction with
  | nil => rfl
  | rune bs r rest h ih =>
    rw [h.runes, string_cons, h.encodeRune, h.units, List.length_append, List.length_append, ih,
      List.count_cons_of_ne (by simp)]
    omega
  | stray b rest h hb ih =>
    rw [runes_stray h hb, string_cons, units_stray h hb, List.length_append, ih, List.count_cons_self,
      List.length_cons]
    have herror : (encodeRune runeError).length = 3 := by decide
    omega

/-- **A string survives exactly if it is valid.** -/
theorem string_runes_eq_iff (s : List UInt8) : string (runes s) = s ↔ Valid s := by
  constructor
  · intro h
    have hlength := length_string_runes s
    rw [h] at hlength
    exact List.count_eq_zero.1 (by omega)
  · intro h
    induction s using units_induction with
    | nil => rfl
    | rune bs r rest henc ih =>
      rw [Valid, henc.units, List.mem_cons, not_or] at h
      rw [henc.runes, string_cons, henc.encodeRune, ih h.2]
    | stray b rest hb hge =>
      rw [Valid, units_stray hb hge] at h
      simp at h

theorem valid_string {rs : List Nat} (h : ∀ r ∈ rs, Scalar r) : Valid (string rs) := by
  rw [← string_runes_eq_iff, runes_string h]

end Utf8
