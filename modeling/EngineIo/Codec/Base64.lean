import Mathlib.Data.List.Basic
import Mathlib.Tactic.IntervalCases

set_option autoImplicit false

/-! # Standard padded base64

The codec of Go's `encoding/base64` `StdEncoding`: groups of three bytes become four characters of
the alphabet, a final group of one or two bytes is padded with `=`. Decoding skips carriage returns
and line feeds anywhere, and (not being in strict mode) ignores the unused low bits of a padded
group; everything else outside the alphabet is an error. -/

namespace Base64

/-- The padding character `=`. -/
def pad : UInt8 := 61

/-- The character of a six-bit value. -/
def encodeChar (n : Nat) : UInt8 :=
  if n < 26 then UInt8.ofNat (65 + n)
  else if n < 52 then UInt8.ofNat (71 + n)
  else if n < 62 then UInt8.ofNat (n - 4)
  else if n = 62 then 43
  else 47

/-- The six-bit value of a character, if it is in the alphabet. -/
def decodeChar (c : UInt8) : Option Nat :=
  if 65 ≤ c ∧ c ≤ 90 then some (c.toNat - 65)
  else if 97 ≤ c ∧ c ≤ 122 then some (c.toNat - 71)
  else if 48 ≤ c ∧ c ≤ 57 then some (c.toNat + 4)
  else if c = 43 then some 62
  else if c = 47 then some 63
  else none

def encode : List UInt8 → List UInt8
  | [] => []
  | [a] => [encodeChar (a.toNat / 4), encodeChar (a.toNat % 4 * 16), pad, pad]
  | [a, b] =>
    [encodeChar (a.toNat / 4), encodeChar (a.toNat % 4 * 16 + b.toNat / 16),
      encodeChar (b.toNat % 16 * 4), pad]
  | a :: b :: c :: rest =>
    encodeChar (a.toNat / 4) :: encodeChar (a.toNat % 4 * 16 + b.toNat / 16) ::
      encodeChar (b.toNat % 16 * 4 + c.toNat / 64) :: encodeChar (c.toNat % 64) :: encode rest

/-- Decode whole groups of four characters; padding may only end the last one. -/
def decodeGroups : List UInt8 → Option (List UInt8)
  | [] => some []
  | w :: x :: y :: z :: rest =>
    match decodeChar w, decodeChar x with
    | some w, some x =>
      let first := UInt8.ofNat (w * 4 + x / 16)
      if z = pad then
        if rest ≠ [] then none
        else if y = pad then some [first]
        else (decodeChar y).map fun y => [first, UInt8.ofNat (x % 16 * 16 + y / 4)]
      else
        match decodeChar y, decodeChar z with
        | some y, some z =>
          (decodeGroups rest).map fun bytes =>
            first :: UInt8.ofNat (x % 16 * 16 + y / 4) :: UInt8.ofNat (y % 4 * 64 + z) :: bytes
        | _, _ => none
    | _, _ => none
  | _ => none

/-- `DecodeString`: line breaks are skipped wherever they stand. -/
def decode (cs : List UInt8) : Option (List UInt8) :=
  decodeGroups (cs.filter fun c => c ≠ 13 && c ≠ 10)

/-! ## Round trip -/

theorem decodeChar_encodeChar {n : Nat} (h : n < 64) : decodeChar (encodeChar n) = some n := by
  interval_cases n <;> decide

/-- No character of the alphabet is the padding, a line break or a control character. -/
theorem encodeChar_ge {n : Nat} (h : n < 64) : 43 ≤ encodeChar n ∧ encodeChar n ≠ pad := by
  interval_cases n <;> decide

theorem encode_ge (l : List UInt8) : ∀ c ∈ encode l, 43 ≤ c := by
  have hpad : (43 : UInt8) ≤ pad := by decide
  have hchar {n : Nat} (h : n < 64) : 43 ≤ encodeChar n := (encodeChar_ge h).1
  induction l using encode.induct with
  | case1 => simp [encode]
  | case2 a =>
    have ha := a.toNat_lt
    simp only [encode, List.mem_cons, List.not_mem_nil, or_false]
    rintro c (rfl | rfl | rfl | rfl)
    exacts [hchar (by omega), hchar (by omega), hpad, hpad]
  | case3 a b =>
    have ha := a.toNat_lt
    have hb := b.toNat_lt
    simp only [encode, List.mem_cons, List.not_mem_nil, or_false]
    rintro c (rfl | rfl | rfl | rfl)
    exacts [hchar (by omega), hchar (by omega), hchar (by omega), hpad]
  | case4 a b c rest ih =>
    have ha := a.toNat_lt
    have hb := b.toNat_lt
    have hc := c.toNat_lt
    simp only [encode, List.mem_cons]
    rintro d (rfl | rfl | rfl | rfl | hd)
    exacts [hchar (by omega), hchar (by omega), hchar (by omega), hchar (by omega), ih d hd]

theorem filter_encode (l : List UInt8) :
    (encode l).filter (fun c => c ≠ 13 && c ≠ 10) = encode l := by
  rw [List.filter_eq_self]
  intro c hc
  have hge := encode_ge l c hc
  have h13 : c ≠ 13 := by rintro rfl; exact absurd hge (by decide)
  have h10 : c ≠ 10 := by rintro rfl; exact absurd hge (by decide)
  simp [h13, h10]

private theorem ofNat_eq {a : UInt8} {n : Nat} (h : n = a.toNat) : UInt8.ofNat n = a := by
  subst h; simp

theorem decodeGroups_encode (l : List UInt8) : decodeGroups (encode l) = some l := by
  have hdec {n : Nat} (h : n < 64) := decodeChar_encodeChar h
  have hne {n : Nat} (h : n < 64) := (encodeChar_ge h).2
  induction l using encode.induct with
  | case1 => rfl
  | case2 a =>
    have ha := a.toNat_lt
    simp only [encode, decodeGroups]
    rw [hdec (by omega), hdec (by omega)]
    simp only [if_true, ne_eq, not_true_eq_false, if_false, Option.some.injEq, List.cons.injEq,
      and_true]
    exact ofNat_eq (by omega)
  | case3 a b =>
    have ha := a.toNat_lt
    have hb := b.toNat_lt
    simp only [encode, decodeGroups]
    rw [hdec (by omega), hdec (by omega), hdec (by omega)]
    simp only [if_true, ne_eq, not_true_eq_false, if_false, hne (n := b.toNat % 16 * 4) (by omega),
      Option.map_some, Option.some.injEq, List.cons.injEq, and_true]
    exact ⟨ofNat_eq (by omega), ofNat_eq (by omega)⟩
  | case4 a b c rest ih =>
    have ha := a.toNat_lt
    have hb := b.toNat_lt
    have hc := c.toNat_lt
    simp only [encode, decodeGroups]
    rw [hdec (by omega), hdec (by omega), hdec (by omega), hdec (by omega)]
    simp only [hne (n := c.toNat % 64) (by omega), if_false, ih, Option.map_some,
      Option.some.injEq, List.cons.injEq, and_true]
    exact ⟨ofNat_eq (by omega), ofNat_eq (by omega), ofNat_eq (by omega)⟩

theorem decode_encode (l : List UInt8) : decode (encode l) = some l := by
  rw [decode, filter_encode, decodeGroups_encode]

/-! ## Canonical texts

The decoder is lax about line breaks and about the unused bits of a padded group. A text is the one that
encoding its bytes gives exactly when it makes no use of this. -/

theorem encodeChar_decodeChar {c : UInt8} {n : Nat} (h : decodeChar c = some n) :
    encodeChar n = c ∧ n < 64 := by
  have hc : UInt8.ofNat c.toNat = c := by simp
  unfold decodeChar at h
  simp only [UInt8.le_iff_toNat_le, UInt8.reduceToNat] at h
  split at h
  · obtain rfl : c.toNat - 65 = n := by simpa using h
    refine ⟨?_, by omega⟩
    rw [encodeChar, if_pos (by omega), show 65 + (c.toNat - 65) = c.toNat by omega, hc]
  · split at h
    · obtain rfl : c.toNat - 71 = n := by simpa using h
      refine ⟨?_, by omega⟩
      rw [encodeChar, if_neg (by omega), if_pos (by omega),
        show 71 + (c.toNat - 71) = c.toNat by omega, hc]
    · split at h
      · obtain rfl : c.toNat + 4 = n := by simpa using h
        refine ⟨?_, by omega⟩
        rw [encodeChar, if_neg (by omega), if_neg (by omega), if_pos (by omega),
          show c.toNat + 4 - 4 = c.toNat by omega, hc]
      · split at h
        · next hplus =>
          obtain rfl : 62 = n := by simpa using h
          exact ⟨hplus.symm, by decide⟩
        · split at h
          · next hslash =>
            obtain rfl : 63 = n := by simpa using h
            exact ⟨hslash.symm, by decide⟩
          · cases h

/-- The unused low bits of a padded group are zero. -/
def tidyGroups : List UInt8 → Bool
  | _ :: x :: y :: z :: rest =>
    if z = pad then
      if y = pad then (decodeChar x).all (· % 16 = 0) else (decodeChar y).all (· % 4 = 0)
    else tidyGroups rest
  | _ => true

/-- The one text of its bytes that the encoder writes: there are no line breaks in it, and no stray bits. -/
def Canonical (cs : List UInt8) : Prop := 13 ∉ cs ∧ 10 ∉ cs ∧ tidyGroups cs = true

instance (cs : List UInt8) : Decidable (Canonical cs) := inferInstanceAs (Decidable (_ ∧ _))

theorem tidyGroups_encode (l : List UInt8) : tidyGroups (encode l) = true := by
  induction l using encode.induct with
  | case1 => rfl
  | case2 a =>
    simp only [encode, tidyGroups, if_true]
    rw [decodeChar_encodeChar (by omega)]
    simp
  | case3 a b =>
    have hne := (encodeChar_ge (n := b.toNat % 16 * 4) (by omega)).2
    simp only [encode, tidyGroups, if_true, if_neg hne]
    rw [decodeChar_encodeChar (by omega)]
    simp
  | case4 a b c rest ih =>
    have hne := (encodeChar_ge (n := c.toNat % 64) (by omega)).2
    simpa only [encode, tidyGroups, if_neg hne] using ih

theorem canonical_encode (l : List UInt8) : Canonical (encode l) := by
  refine ⟨fun h => ?_, fun h => ?_, tidyGroups_encode l⟩
  · exact absurd (encode_ge l _ h) (by decide)
  · exact absurd (encode_ge l _ h) (by decide)

private theorem toNat_ofNat_lt {n : Nat} (h : n < 256) : (UInt8.ofNat n).toNat = n := by
  rw [UInt8.toNat_ofNat']
  exact Nat.mod_eq_of_lt h

/-- Whole groups without stray bits are what their bytes are encoded to. -/
theorem encode_decodeGroups {cs l : List UInt8} (h : decodeGroups cs = some l)
    (ht : tidyGroups cs = true) : encode l = cs := by
  induction cs using decodeGroups.induct generalizing l with
  | case1 =>
    obtain rfl : [] = l := by simpa [decodeGroups] using h
    rfl
  | case2 w x y rest m n hx hw hrest => simp [decodeGroups, hw, hx, hrest] at h
  | case3 w x rest m n hx hw hrest =>
    obtain rfl : rest = [] := not_not.1 hrest
    have hbits : n % 16 = 0 := by simpa [tidyGroups, hx] using ht
    obtain rfl : [UInt8.ofNat (m * 4 + n / 16)] = l := by
      simpa only [decodeGroups, hw, hx, if_true, ne_eq, not_true_eq_false, if_false,
        Option.some.injEq] using h
    obtain ⟨rfl, hm⟩ := encodeChar_decodeChar hw
    obtain ⟨rfl, hn⟩ := encodeChar_decodeChar hx
    rw [encode, toNat_ofNat_lt (by omega), show (m * 4 + n / 16) / 4 = m by omega,
      show (m * 4 + n / 16) % 4 * 16 = n by omega]
  | case4 w x y rest m n hx hw hrest hy =>
    obtain rfl : rest = [] := not_not.1 hrest
    simp only [decodeGroups, hw, hx, if_true, ne_eq, not_true_eq_false, if_false, hy] at h
    obtain ⟨k, hk, rfl⟩ := Option.map_eq_some_iff.1 h
    have hbits : k % 4 = 0 := by simpa [tidyGroups, hy, hk] using ht
    obtain ⟨rfl, hm⟩ := encodeChar_decodeChar hw
    obtain ⟨rfl, hn⟩ := encodeChar_decodeChar hx
    obtain ⟨rfl, hk⟩ := encodeChar_decodeChar hk
    rw [encode, toNat_ofNat_lt (by omega), toNat_ofNat_lt (by omega),
      show (m * 4 + n / 16) / 4 = m by omega,
      show (m * 4 + n / 16) % 4 * 16 + (n % 16 * 16 + k / 4) / 16 = n by omega,
      show (n % 16 * 16 + k / 4) % 16 * 4 = k by omega]
  | case5 w x y z rest m n hx hw hz k j hj hk ih =>
    simp only [decodeGroups, hw, hx, hj, hk, if_neg hz] at h
    obtain ⟨bytes, hbytes, rfl⟩ := Option.map_eq_some_iff.1 h
    have hrest : encode bytes = rest := ih hbytes (by simpa [tidyGroups, hz] using ht)
    obtain ⟨rfl, hm⟩ := encodeChar_decodeChar hw
    obtain ⟨rfl, hn⟩ := encodeChar_decodeChar hx
    obtain ⟨rfl, hk⟩ := encodeChar_decodeChar hk
    obtain ⟨rfl, hj⟩ := encodeChar_decodeChar hj
    rw [encode, toNat_ofNat_lt (by omega), toNat_ofNat_lt (by omega), toNat_ofNat_lt (by omega), hrest,
      show (m * 4 + n / 16) / 4 = m by omega,
      show (m * 4 + n / 16) % 4 * 16 + (n % 16 * 16 + k / 4) / 16 = n by omega,
      show (n % 16 * 16 + k / 4) % 16 * 4 + (k % 4 * 64 + j) / 64 = k by omega,
      show (k % 4 * 64 + j) % 64 = j by omega]
  | case6 w x y z rest m n hx hw hz hnone =>
    simp only [decodeGroups, hw, hx, if_neg hz] at h
    cases h
  | case7 w x y z rest hnone =>
    simp only [decodeGroups] at h
    cases h
  | case8 t hnil hcons => simp [decodeGroups] at h

/-- Encoding what a text was decoded to gives the text back exactly when it is canonical. -/
theorem encode_decode_iff {cs l : List UInt8} (h : decode cs = some l) :
    encode l = cs ↔ Canonical cs := by
  constructor
  · rintro rfl
    exact canonical_encode l
  · rintro ⟨h13, h10, ht⟩
    have hfilter : cs.filter (fun c => c ≠ 13 && c ≠ 10) = cs := by
      refine List.filter_eq_self.2 fun c hc => ?_
      have hne13 : c ≠ 13 := fun heq => h13 (heq ▸ hc)
      have hne10 : c ≠ 10 := fun heq => h10 (heq ▸ hc)
      simp [hne13, hne10]
    rw [decode, hfilter] at h
    exact encode_decodeGroups h ht

end Base64
