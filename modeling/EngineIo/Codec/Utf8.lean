import Mathlib.Data.List.Basic

set_option autoImplicit false

/-! # UTF-8 strings as runes

Go's conversions between the bytes of a string and its runes. A byte that does not start a well-formed
sequence becomes the replacement character by itself, and a rune that has no encoding is written as
the replacement character. -/

namespace Utf8

/-- `RuneError`, the replacement character. -/
def runeError : Nat := 0xFFFD

/-- How many bytes follow a first byte, and between which bounds the first of them must lie. -/
def lead (b : UInt8) : Option (Nat × UInt8 × UInt8) :=
  if 0xC2 ≤ b ∧ b ≤ 0xDF then some (1, 0x80, 0xBF)
  else if b = 0xE0 then some (2, 0xA0, 0xBF)
  else if b = 0xED then some (2, 0x80, 0x9F)
  else if 0xE1 ≤ b ∧ b ≤ 0xEF then some (2, 0x80, 0xBF)
  else if b = 0xF0 then some (3, 0x90, 0xBF)
  else if 0xF1 ≤ b ∧ b ≤ 0xF3 then some (3, 0x80, 0xBF)
  else if b = 0xF4 then some (3, 0x80, 0x8F)
  else none

/-- Six more bits. -/
def shift (r : Nat) (b : UInt8) : Nat := r * 64 + b.toNat % 64

def continues (b : UInt8) : Bool := 0x80 ≤ b && b ≤ 0xBF

/-- `DecodeRune`: the rune that starts with `b`, and how many bytes after `b` belong to it. -/
def decodeRune (b : UInt8) (rest : List UInt8) : Nat × Nat :=
  if b < 0x80 then (b.toNat, 0)
  else
    match lead b, rest with
    | some (1, low, high), b₁ :: _ =>
      if low ≤ b₁ ∧ b₁ ≤ high then (shift (b.toNat % 32) b₁, 1) else (runeError, 0)
    | some (2, low, high), b₁ :: b₂ :: _ =>
      if low ≤ b₁ ∧ b₁ ≤ high ∧ continues b₂ then (shift (shift (b.toNat % 16) b₁) b₂, 2)
      else (runeError, 0)
    | some (3, low, high), b₁ :: b₂ :: b₃ :: _ =>
      if low ≤ b₁ ∧ b₁ ≤ high ∧ continues b₂ ∧ continues b₃ then
        (shift (shift (shift (b.toNat % 8) b₁) b₂) b₃, 3)
      else (runeError, 0)
    | _, _ => (runeError, 0)

/-- The runes of the bytes after the first `skip`. -/
def runesFrom : Nat → List UInt8 → List Nat
  | _, [] => []
  | skip + 1, _ :: rest => runesFrom skip rest
  | 0, b :: rest => (decodeRune b rest).1 :: runesFrom (decodeRune b rest).2 rest

/-- `[]rune(s)`. -/
def runes (s : List UInt8) : List Nat := runesFrom 0 s

/-- `EncodeRune`. -/
def encodeRune (r : Nat) : List UInt8 :=
  if r < 0x80 then [UInt8.ofNat r]
  else if r < 0x800 then [UInt8.ofNat (0xC0 + r / 64), UInt8.ofNat (0x80 + r % 64)]
  else if 0x10FFFF < r ∨ 0xD800 ≤ r ∧ r ≤ 0xDFFF then [0xEF, 0xBF, 0xBD]
  else if r < 0x10000 then
    [UInt8.ofNat (0xE0 + r / 4096), UInt8.ofNat (0x80 + r / 64 % 64), UInt8.ofNat (0x80 + r % 64)]
  else
    [UInt8.ofNat (0xF0 + r / 262144), UInt8.ofNat (0x80 + r / 4096 % 64),
      UInt8.ofNat (0x80 + r / 64 % 64), UInt8.ofNat (0x80 + r % 64)]

/-- `string(runes)`. -/
def string (rs : List Nat) : List UInt8 := rs.flatMap encodeRune

theorem length_runesFrom_le (skip : Nat) (s : List UInt8) : (runesFrom skip s).length ≤ s.length := by
  induction s generalizing skip with
  | nil => simp [runesFrom]
  | cons b rest ih =>
    cases skip with
    | zero =>
      have hrest := ih (decodeRune b rest).2
      simpa [runesFrom] using hrest
    | succ skip =>
      have hrest := ih skip
      simp only [runesFrom, List.length_cons]
      omega

/-- A string has no more runes than bytes. -/
theorem length_runes_le (s : List UInt8) : (runes s).length ≤ s.length := length_runesFrom_le 0 s

/-! ## Hexadecimal digits

They are ASCII, so that a digit is the same number as a byte and as a rune. -/

/-- The value of a digit, in either case. -/
def hexValue (c : Nat) : Option Nat :=
  if 48 ≤ c ∧ c ≤ 57 then some (c - 48)
  else if 65 ≤ c ∧ c ≤ 70 then some (c - 55)
  else if 97 ≤ c ∧ c ≤ 102 then some (c - 87)
  else none

/-- The digit of a value below sixteen; `a` is the letter for ten, 65 or 97. -/
def hexDigit (a n : Nat) : Nat := if n < 10 then 48 + n else a + (n - 10)

theorem hexValue_hexDigit {a n : Nat} (ha : a = 65 ∨ a = 97) (h : n < 16) : hexValue (hexDigit a n) = some n := by
  revert n
  rcases ha with rfl | rfl <;> decide

theorem hexDigit_lt {a n : Nat} (ha : a ≤ 97) (h : n < 16) : hexDigit a n < 0x80 := by
  unfold hexDigit
  split <;> omega

end Utf8
