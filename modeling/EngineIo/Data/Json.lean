import EngineIo.Codec.Runes
import Mathlib.Data.Nat.Digits.Lemmas

set_option autoImplicit false

/-! # JSON

The texts that Go's `encoding/json` reads, and those it writes for strings, integers, slices and structs. A
reader works on the runes of a text: outside of strings every rune of a JSON text is an ASCII character, and
inside a byte that belongs to no rune stands for the replacement character.

A written text is read back by `value` wherever it stands (`Reads`). Strings do not come back as they were: what
comes back is made of the runes of the string, so a string survives if and only if it is valid UTF-8. -/

namespace Json

open Utf8

abbrev Text := List UInt8

inductive Value
  | null
  | bool (b : Bool)
  /-- A number is kept as it was written. -/
  | number (literal : List Nat)
  | string (s : Text)
  | array (vs : List Value)
  | object (fields : List (Text × Value))
deriving Repr

/-! ## Reading -/

def isSpace (c : Nat) : Bool := c == 32 || c == 9 || c == 10 || c == 13

def skipSpace (input : List Nat) : List Nat := input.dropWhile isSpace

def isDigit (c : Nat) : Bool := 48 ≤ c && c ≤ 57

def hex4 (a b c d : Nat) : Option Nat :=
  match hexValue a, hexValue b, hexValue c, hexValue d with
  | some a, some b, some c, some d => some (a * 4096 + b * 256 + c * 16 + d)
  | _, _, _, _ => none

/-- What a backslash and this character stand for. -/
def simpleEscape (c : Nat) : Option Nat :=
  if c = 34 ∨ c = 92 ∨ c = 47 then some c
  else if c = 98 then some 8
  else if c = 102 then some 12
  else if c = 110 then some 10
  else if c = 114 then some 13
  else if c = 116 then some 9
  else none

/-- A string literal is made of characters and of UTF-16 units, written as `\u` and four digits. -/
inductive Piece
  | rune (r : Nat)
  | utf16 (u : Nat)
deriving DecidableEq, Repr

/-- The pieces of a string literal up to its closing quote, and what stands behind that. -/
def pieces : List Nat → Option (List Piece × List Nat)
  | [] => none
  | c :: rest =>
    if c = 34 then some ([], rest)
    else if c = 92 then
      match rest with
      | 117 :: h₁ :: h₂ :: h₃ :: h₄ :: rest =>
        match hex4 h₁ h₂ h₃ h₄ with
        | none => none
        | some u => (pieces rest).map fun r => (.utf16 u :: r.1, r.2)
      | e :: rest =>
        match simpleEscape e with
        | none => none
        | some r => (pieces rest).map fun q => (.rune r :: q.1, q.2)
      | [] => none
    else if c < 32 then none
    else (pieces rest).map fun r => (.rune c :: r.1, r.2)

def isSurrogate (u : Nat) : Bool := 0xD800 ≤ u && u < 0xE000

/-- `utf16.DecodeRune`, if the units are a pair. -/
def pair (u v : Nat) : Option Nat :=
  if 0xD800 ≤ u ∧ u < 0xDC00 ∧ 0xDC00 ≤ v ∧ v < 0xE000 then
    some ((u - 0xD800) * 1024 + (v - 0xDC00) + 0x10000)
  else none

/-- What a unit makes together with the piece behind it. -/
def partner (u : Nat) : List Piece → Option Nat
  | .utf16 v :: _ => pair u v
  | _ => none

/-- The runes of a string literal, but for the first piece if it has been taken up already. A surrogate that has
    no partner stands for the replacement character. -/
def joinPieces : Bool → List Piece → List Nat
  | _, [] => []
  | true, _ :: rest => joinPieces false rest
  | false, .rune r :: rest => r :: joinPieces false rest
  | false, .utf16 u :: rest =>
    match partner u rest with
    | some r => r :: joinPieces true rest
    | none => (if isSurrogate u then runeError else u) :: joinPieces false rest

/-- A string, behind its opening quote. -/
def unquote (input : List Nat) : Option (Text × List Nat) :=
  (pieces input).map fun r => (Utf8.string (joinPieces false r.1), r.2)

/-- The digits of the integral part. -/
def integral : List Nat → Option (List Nat × List Nat)
  | [] => none
  | c :: rest =>
    if c = 48 then some ([c], rest)
    else if isDigit c then some (c :: rest.takeWhile isDigit, rest.dropWhile isDigit)
    else none

/-- Digits, of which there must be one. -/
def digits1 (input : List Nat) : Option (List Nat × List Nat) :=
  if input.takeWhile isDigit = [] then none
  else some (input.takeWhile isDigit, input.dropWhile isDigit)

def fraction : List Nat → Option (List Nat × List Nat)
  | 46 :: rest => (digits1 rest).map fun r => (46 :: r.1, r.2)
  | input => some ([], input)

def signed : List Nat → Option (List Nat × List Nat)
  | 43 :: rest => (digits1 rest).map fun r => (43 :: r.1, r.2)
  | 45 :: rest => (digits1 rest).map fun r => (45 :: r.1, r.2)
  | input => digits1 input

def exponent : List Nat → Option (List Nat × List Nat)
  | 69 :: rest => (signed rest).map fun r => (69 :: r.1, r.2)
  | 101 :: rest => (signed rest).map fun r => (101 :: r.1, r.2)
  | input => some ([], input)

/-- A number without its sign. -/
def unsigned (input : List Nat) : Option (List Nat × List Nat) :=
  match integral input with
  | none => none
  | some (whole, rest) =>
    match fraction rest with
    | none => none
    | some (frac, rest) => (exponent rest).map fun r => (whole ++ frac ++ r.1, r.2)

def number : List Nat → Option (List Nat × List Nat)
  | 45 :: rest => (unsigned rest).map fun r => (45 :: r.1, r.2)
  | input => unsigned input

/-- `true`, `false` and `null`. -/
def word (input : List Nat) : Option (Value × List Nat) :=
  if input.take 4 = [116, 114, 117, 101] then some (.bool true, input.drop 4)
  else if input.take 5 = [102, 97, 108, 115, 101] then some (.bool false, input.drop 5)
  else if input.take 4 = [110, 117, 108, 108] then some (.null, input.drop 4)
  else none

mutual

/-- One value, and what stands behind it; `depth` is how deep it may be nested. -/
def value : Nat → Nat → List Nat → Option (Value × List Nat)
  | 0, _, _ => none
  | fuel + 1, depth, input =>
    match skipSpace input with
    | [] => none
    | c :: rest =>
      if c = 34 then (unquote rest).map fun r => (.string r.1, r.2)
      else if c = 91 then
        if depth = 0 then none
        else if (skipSpace rest).head? = some 93 then some (.array [], (skipSpace rest).tail)
        else (elements fuel (depth - 1) rest).map fun r => (.array r.1, r.2)
      else if c = 123 then
        if depth = 0 then none
        else if (skipSpace rest).head? = some 125 then some (.object [], (skipSpace rest).tail)
        else (members fuel (depth - 1) rest).map fun r => (.object r.1, r.2)
      else if c = 45 ∨ isDigit c then (number (c :: rest)).map fun r => (.number r.1, r.2)
      else word (c :: rest)

/-- The elements of an array, up to its end. -/
def elements : Nat → Nat → List Nat → Option (List Value × List Nat)
  | 0, _, _ => none
  | fuel + 1, depth, input =>
    match value fuel depth input with
    | none => none
    | some (v, rest) =>
      match skipSpace rest with
      | [] => none
      | c :: rest =>
        if c = 44 then (elements fuel depth rest).map fun r => (v :: r.1, r.2)
        else if c = 93 then some ([v], rest)
        else none

/-- The members of an object, up to its end. -/
def members : Nat → Nat → List Nat → Option (List (Text × Value) × List Nat)
  | 0, _, _ => none
  | fuel + 1, depth, input =>
    match skipSpace input with
    | [] => none
    | q :: rest =>
      if q ≠ 34 then none
      else
        match unquote rest with
        | none => none
        | some (key, rest) =>
          match skipSpace rest with
          | [] => none
          | colon :: rest =>
            if colon ≠ 58 then none
            else
              match value fuel depth rest with
              | none => none
              | some (v, rest) =>
                match skipSpace rest with
                | [] => none
                | c :: rest =>
                  if c = 44 then (members fuel depth rest).map fun r => ((key, v) :: r.1, r.2)
                  else if c = 125 then some ([(key, v)], rest)
                  else none

end

/-- `maxNestingDepth`. -/
def maxDepth : Nat := 10000

/-- The value of a whole text. Two calls are nested for every character at most, so this fuel is no limit. -/
def parse (data : Text) : Option Value :=
  match value (2 * (runes data).length + 2) maxDepth (runes data) with
  | none => none
  | some (v, rest) => if skipSpace rest = [] then some v else none

/-! ## Structs -/

/-- Case folding, as far as ASCII names are concerned: two characters outside of ASCII fold to letters. -/
def foldRune (r : Nat) : Nat :=
  if 97 ≤ r ∧ r ≤ 122 then r - 32
  else if r = 0x17F then 83
  else if r = 0x212A then 75
  else r

def foldName (name : Text) : List Nat := (runes name).map foldRune

/-- The field that a key stands for: the one of that name or else the first whose name differs in case only. -/
def field (names : List Text) (key : Text) : Option Nat :=
  if key ∈ names then some (names.idxOf key) else names.findIdx? (foldName · = foldName key)

/-- `Unmarshal` into a struct: the members of an object are assigned one after the other, unknown keys are
    skipped, and a value of the wrong type is an error. -/
def unmarshal {σ : Type} (names : List Text) (assign : Nat → Value → σ → Option σ) (init : σ) : Value → Option σ
  | .null => some init
  | .object fields =>
    fields.foldlM (fun s f => match field names f.1 with | none => some s | some i => assign i f.2 s) init
  | _ => none

/-- A string; `null` leaves what was there. -/
def asString (old : Text) : Value → Option Text
  | .null => some old
  | .string s => some s
  | _ => none

/-- A slice of strings; `null` is the empty slice, and inside the empty string. -/
def asStrings : Value → Option (List Text)
  | .null => some []
  | .array vs => vs.mapM (asString [])
  | _ => none

def decimal (ds : List Nat) : Nat := ds.foldl (fun n d => n * 10 + (d - 48)) 0

/-- `strconv.ParseInt` of a number literal, to base 10 and for 64 bits. -/
def parseInt : List Nat → Option Int
  | 45 :: ds =>
    if ds.all isDigit ∧ decimal ds ≤ 2 ^ 63 then some (-(decimal ds : Int)) else none
  | ds => if ds.all isDigit ∧ decimal ds < 2 ^ 63 then some (decimal ds) else none

/-- An `int`; `null` leaves what was there. -/
def asInt (old : Int) : Value → Option Int
  | .null => some old
  | .number literal => parseInt literal
  | _ => none

/-! ## Writing -/

/-- A rune of a string: quotes, backslashes, control characters, the characters that matter to HTML and the two
    line separators are escaped. -/
def quoteRune (r : Nat) : List Nat :=
  if r = 34 ∨ r = 92 then [92, r]
  else if r = 8 then [92, 98]
  else if r = 12 then [92, 102]
  else if r = 10 then [92, 110]
  else if r = 13 then [92, 114]
  else if r = 9 then [92, 116]
  else if r < 32 ∨ r = 60 ∨ r = 62 ∨ r = 38 then [92, 117, 48, 48, hexDigit 97 (r / 16), hexDigit 97 (r % 16)]
  else if r = 0x2028 ∨ r = 0x2029 then [92, 117, 50, 48, 50, hexDigit 97 (r % 16)]
  else [r]

/-- A byte that belongs to no rune is written as an escaped replacement character. -/
def quoteUnit : Option Nat → List Nat
  | none => [92, 117, 102, 102, 102, 100]
  | some r => quoteRune r

def quote (s : Text) : List Nat := 34 :: ((units s).flatMap quoteUnit ++ [34])

def nat (n : Nat) : List Nat := if n = 0 then [48] else (Nat.digits 10 n).reverse.map (· + 48)

def int (n : Int) : List Nat := if n < 0 then 45 :: nat n.natAbs else nat n.natAbs

def array (texts : List (List Nat)) : List Nat := 91 :: ([44].intercalate texts ++ [93])

def member (f : Text × List Nat) : List Nat := quote f.1 ++ 58 :: f.2

def object (fields : List (Text × List Nat)) : List Nat :=
  123 :: ([44].intercalate (fields.map member) ++ [125])

/-! ## Strings are read back -/

theorem pieces_escape {e r : Nat} (he : e ≠ 117) (h : simpleEscape e = some r) (rest : List Nat) :
    pieces (92 :: e :: rest) = (pieces rest).map fun q => (.rune r :: q.1, q.2) := by
  rw [pieces, if_neg (by decide), if_pos rfl, h]
  exact fun _ _ _ _ _ heq _ => he heq

theorem pieces_end (rest : List Nat) : pieces (34 :: rest) = some ([], rest) := by
  rw [pieces.eq_def]
  rfl

theorem pieces_utf16 {a b c d u : Nat} (h : hex4 a b c d = some u) (rest : List Nat) :
    pieces (92 :: 117 :: a :: b :: c :: d :: rest) = (pieces rest).map fun q => (.utf16 u :: q.1, q.2) := by
  rw [pieces, if_neg (by decide), if_pos rfl]
  simp only [h]

theorem pieces_rune {r : Nat} (hquote : r ≠ 34) (hslash : r ≠ 92) (hr : 32 ≤ r) (rest : List Nat) :
    pieces (r :: rest) = (pieces rest).map fun q => (.rune r :: q.1, q.2) := by
  rw [pieces.eq_def]
  simp only [if_neg hquote, if_neg hslash, if_neg (show ¬ r < 32 by omega)]

/-- The piece stands for the rune by itself. -/
def Piece.Spells (p : Piece) (r : Nat) : Prop := p = .rune r ∨ p = .utf16 r ∧ isSurrogate r = false

theorem joinPieces_spells {ps : List Piece} {rs : List Nat} (h : List.Forall₂ Piece.Spells ps rs) :
    joinPieces false ps = rs := by
  induction h with
  | nil => rfl
  | @cons p r ps rs hp _ ih =>
    rcases hp with rfl | ⟨rfl, hr⟩
    · rw [joinPieces, ih]
    · have hpartner : partner r ps = none := by
        unfold partner
        split
        · rw [pair, if_neg]
          rintro ⟨hlow, hhigh, -⟩
          simp only [isSurrogate, Bool.and_eq_false_iff, decide_eq_false_iff_not] at hr
          omega
        · rfl
      rw [joinPieces, hpartner]
      simp only [hr, Bool.false_eq_true, if_false, ih]

/-- What is written for a rune is read as a piece that stands for it. -/
theorem pieces_quoteRune {r : Nat} (h : Scalar r) :
    ∃ p : Piece, p.Spells r ∧
      ∀ rest, pieces (quoteRune r ++ rest) = (pieces rest).map fun q => (p :: q.1, q.2) := by
  unfold quoteRune
  split_ifs with h1 h2 h3 h4 h5 h6 h7 h8
  · refine ⟨.rune r, .inl rfl, pieces_escape (by omega) ?_⟩
    rw [simpleEscape, if_pos (by omega)]
  · subst h2
    exact ⟨.rune 8, .inl rfl, pieces_escape (by decide) rfl⟩
  · subst h3
    exact ⟨.rune 12, .inl rfl, pieces_escape (by decide) rfl⟩
  · subst h4
    exact ⟨.rune 10, .inl rfl, pieces_escape (by decide) rfl⟩
  · subst h5
    exact ⟨.rune 13, .inl rfl, pieces_escape (by decide) rfl⟩
  · subst h6
    exact ⟨.rune 9, .inl rfl, pieces_escape (by decide) rfl⟩
  · have hsurrogate : isSurrogate r = false := by
      simp only [isSurrogate, Bool.and_eq_false_iff, decide_eq_false_iff_not]
      omega
    refine ⟨.utf16 r, .inr ⟨rfl, hsurrogate⟩, pieces_utf16 ?_⟩
    have hzero : hexValue 48 = some 0 := rfl
    simp only [hex4, hzero, hexValue_hexDigit (.inr rfl) (show r / 16 < 16 by omega),
      hexValue_hexDigit (.inr rfl) (show r % 16 < 16 by omega), Option.some.injEq]
    omega
  · have hsurrogate : isSurrogate r = false := by
      simp only [isSurrogate, Bool.and_eq_false_iff, decide_eq_false_iff_not]
      omega
    refine ⟨.utf16 r, .inr ⟨rfl, hsurrogate⟩, pieces_utf16 ?_⟩
    have hzero : hexValue 48 = some 0 := rfl
    have htwo : hexValue 50 = some 2 := rfl
    simp only [hex4, hzero, htwo, hexValue_hexDigit (.inr rfl) (show r % 16 < 16 by omega), Option.some.injEq]
    omega
  · exact ⟨.rune r, .inl rfl, pieces_rune (by omega) (by omega) (by omega)⟩

theorem pieces_quoteUnit {u : Option Nat} (h : ∀ r, u = some r → Scalar r) :
    ∃ p : Piece, p.Spells (u.getD runeError) ∧
      ∀ rest, pieces (quoteUnit u ++ rest) = (pieces rest).map fun q => (p :: q.1, q.2) := by
  cases u with
  | none => exact ⟨.utf16 runeError, .inr ⟨rfl, rfl⟩, pieces_utf16 rfl⟩
  | some r => exact pieces_quoteRune (h r rfl)

theorem pieces_quote {us : List (Option Nat)} (h : ∀ r, some r ∈ us → Scalar r) (rest : List Nat) :
    ∃ ps, pieces (us.flatMap quoteUnit ++ 34 :: rest) = some (ps, rest) ∧
      List.Forall₂ Piece.Spells ps (us.map (·.getD runeError)) := by
  induction us with
  | nil => exact ⟨[], pieces_end rest, .nil⟩
  | cons u us ih =>
    obtain ⟨ps, hps, hspells⟩ := ih fun r hr => h r (List.mem_cons_of_mem _ hr)
    obtain ⟨p, hp, hpieces⟩ := pieces_quoteUnit fun r (hr : u = some r) => h r (by simp [hr])
    refine ⟨p :: ps, ?_, .cons hp hspells⟩
    rw [List.flatMap_cons, List.append_assoc, hpieces, hps]
    rfl

/-- **A string comes back as its runes.** -/
theorem unquote_quote (s : Text) (rest : List Nat) :
    unquote ((units s).flatMap quoteUnit ++ 34 :: rest) = some (Utf8.string (runes s), rest) := by
  obtain ⟨ps, hps, hspells⟩ := pieces_quote (fun _ (h : some _ ∈ units s) => scalar_of_mem_units h) rest
  rw [unquote, hps, Option.map_some, joinPieces_spells hspells, ← runes_eq]

/-! ## Numbers are read back -/

/-- No number goes on here. -/
def Stops (rest : List Nat) : Prop := ∀ c, rest.head? = some c → isDigit c = false ∧ c ≠ 46 ∧ c ≠ 69 ∧ c ≠ 101

theorem stops_nil : Stops [] := by
  intro c h
  cases h

theorem stops_cons {c : Nat} {rest : List Nat} (h : c = 44 ∨ c = 93 ∨ c = 125) : Stops (c :: rest) := by
  intro d hd
  cases hd
  rcases h with rfl | rfl | rfl <;> decide

/-- The digits of a number: the first one is not zero. -/
theorem nat_eq_cons {n : Nat} (h : n ≠ 0) :
    ∃ d ds, nat n = d :: ds ∧ isDigit d = true ∧ d ≠ 48 ∧ ∀ e ∈ ds, isDigit e = true := by
  have hne : Nat.digits 10 n ≠ [] := Nat.digits_ne_nil_iff_ne_zero.2 h
  have hdigit : ∀ e ∈ Nat.digits 10 n, isDigit (e + 48) = true := by
    intro e he
    have hlt := Nat.digits_lt_base (by decide : 1 < 10) he
    simp only [isDigit, Bool.and_eq_true, decide_eq_true_eq]
    omega
  have hlast : (Nat.digits 10 n).getLast hne ≠ 0 := Nat.getLast_digit_ne_zero 10 h
  refine ⟨(Nat.digits 10 n).getLast hne + 48, (Nat.digits 10 n).dropLast.reverse.map (· + 48), ?_, ?_, ?_, ?_⟩
  · rw [nat, if_neg h]
    conv_lhs => rw [← List.dropLast_append_getLast hne]
    simp
  · exact hdigit _ (List.getLast_mem hne)
  · omega
  · intro e he
    obtain ⟨d, hd, rfl⟩ := List.mem_map.1 he
    exact hdigit d (List.dropLast_subset _ (List.mem_reverse.1 hd))

theorem integral_nat (n : Nat) {rest : List Nat} (h : Stops rest) :
    integral (nat n ++ rest) = some (nat n, rest) := by
  by_cases hn : n = 0
  · subst hn
    rfl
  · obtain ⟨d, ds, heq, hd, hne, hds⟩ := nat_eq_cons hn
    have hrest : rest.takeWhile isDigit = [] ∧ rest.dropWhile isDigit = rest := by
      cases rest with
      | nil => exact ⟨rfl, rfl⟩
      | cons c rest =>
        obtain ⟨hc, -⟩ := h c rfl
        simp [hc]
    rw [heq, List.cons_append, integral, if_neg hne, if_pos hd, List.takeWhile_append_of_pos hds,
      List.dropWhile_append_of_pos hds, hrest.1, hrest.2, List.append_nil]

theorem unsigned_nat (n : Nat) {rest : List Nat} (h : Stops rest) :
    unsigned (nat n ++ rest) = some (nat n, rest) := by
  have hfraction : fraction rest = some ([], rest) := by
    unfold fraction
    split
    · exact absurd rfl (h 46 rfl).2.1
    · rfl
  have hexponent : exponent rest = some ([], rest) := by
    unfold exponent
    split
    · exact absurd rfl (h 69 rfl).2.2.1
    · exact absurd rfl (h 101 rfl).2.2.2
    · rfl
  simp only [unsigned, integral_nat n h, hfraction, hexponent, Option.map_some, List.append_nil]

theorem nat_head (n : Nat) : ∃ d ds, nat n = d :: ds ∧ isDigit d = true := by
  by_cases hn : n = 0
  · exact ⟨48, [], by rw [nat, if_pos hn], rfl⟩
  · obtain ⟨d, ds, heq, hd, -⟩ := nat_eq_cons hn
    exact ⟨d, ds, heq, hd⟩

theorem number_int (n : Int) {rest : List Nat} (h : Stops rest) :
    number (int n ++ rest) = some (int n, rest) := by
  unfold int
  split
  · rw [List.cons_append, number, unsigned_nat _ h]
    rfl
  · obtain ⟨d, ds, heq, hd⟩ := nat_head n.natAbs
    have hunsigned := unsigned_nat n.natAbs h
    rw [heq] at hunsigned ⊢
    rw [List.cons_append] at hunsigned ⊢
    unfold number
    split
    · rename_i hcons
      cases hcons
      cases hd
    · exact hunsigned

theorem decimal_append (ds : List Nat) (d : Nat) : decimal (ds ++ [d]) = decimal ds * 10 + (d - 48) := by
  simp [decimal]

theorem decimal_digits (ds : List Nat) : decimal (ds.reverse.map (· + 48)) = Nat.ofDigits 10 ds := by
  induction ds with
  | nil => rfl
  | cons d ds ih =>
    rw [List.reverse_cons, List.map_append, List.map_singleton, decimal_append, ih, Nat.ofDigits_cons]
    omega

theorem decimal_nat (n : Nat) : decimal (nat n) = n := by
  unfold nat
  split
  · rename_i h
    subst h
    rfl
  · rw [decimal_digits, Nat.ofDigits_digits]

theorem all_isDigit_nat (n : Nat) : (nat n).all isDigit = true := by
  by_cases hn : n = 0
  · subst hn
    rfl
  · obtain ⟨d, ds, heq, hd, -, hds⟩ := nat_eq_cons hn
    rw [heq, List.all_cons, hd, Bool.true_and, List.all_eq_true]
    exact hds

/-- **An `int` is read back.** -/
theorem parseInt_int {n : Int} (hlow : -2 ^ 63 ≤ n) (hhigh : n < 2 ^ 63) : parseInt (int n) = some n := by
  have hdigits := all_isDigit_nat n.natAbs
  have hdecimal := decimal_nat n.natAbs
  unfold int
  split
  · rw [parseInt, if_pos ⟨hdigits, by omega⟩, hdecimal]
    congr 1
    omega
  · obtain ⟨d, ds, heq, hd⟩ := nat_head n.natAbs
    unfold parseInt
    split
    · rename_i hcons
      rw [heq] at hcons
      cases hcons
      cases hd
    · rw [if_pos ⟨hdigits, by omega⟩, hdecimal]
      congr 1
      omega

/-! ## Values are read back -/

/-- The text is read as the value wherever it stands, if it may be nested that deep. -/
structure Reads (v : Value) (depth : Nat) (text : List Nat) : Prop where
  starts : ∃ c rest, text = c :: rest ∧ isSpace c = false ∧ c ≠ 93
  scalar : ∀ r ∈ text, Scalar r
  value_eq : ∀ fuel d rest, 2 * text.length ≤ fuel → depth ≤ d → Stops rest →
    value (fuel + 1) d (text ++ rest) = some (v, rest)

theorem Reads.mono {v : Value} {depth depth' : Nat} {text : List Nat} (h : Reads v depth text)
    (hle : depth ≤ depth') : Reads v depth' text :=
  ⟨h.starts, h.scalar, fun fuel d rest hfuel hd => h.value_eq fuel d rest hfuel (hle.trans hd)⟩

theorem skipSpace_cons {c : Nat} (h : isSpace c = false) (rest : List Nat) : skipSpace (c :: rest) = c :: rest := by
  simp [skipSpace, h]

/-- An escape is written in ASCII. -/
theorem mem_quoteRune {r c : Nat} (h : c ∈ quoteRune r) : c < 0x80 ∨ c = r := by
  have hlow : hexDigit 97 (r % 16) < 0x80 := hexDigit_lt le_rfl (Nat.mod_lt r (by decide))
  have hhigh : r / 16 < 16 → hexDigit 97 (r / 16) < 0x80 := hexDigit_lt le_rfl
  unfold quoteRune at h
  split_ifs at h <;> simp only [List.mem_cons, List.not_mem_nil, or_false] at h <;> omega

theorem scalar_of_mem_quote {s : Text} {c : Nat} (h : c ∈ quote s) : Scalar c := by
  have hsmall {c : Nat} (hc : c < 0x80) : Scalar c := .inl (by omega)
  simp only [quote, List.mem_cons, List.mem_append, List.not_mem_nil, or_false] at h
  rcases h with rfl | h | rfl
  · decide
  · obtain ⟨u, hu, hc⟩ := List.mem_flatMap.1 h
    cases u with
    | none =>
      have hall : ∀ c ∈ quoteUnit none, c < 0x80 := by decide
      exact hsmall (hall c hc)
    | some r =>
      rcases mem_quoteRune hc with hlt | rfl
      · exact hsmall hlt
      · exact scalar_of_mem_units hu
  · decide

theorem reads_quote (s : Text) : Reads (.string (Utf8.string (runes s))) 0 (quote s) := by
  refine ⟨⟨34, _, rfl, rfl, by decide⟩, fun _ => scalar_of_mem_quote, fun fuel d rest _ _ _ => ?_⟩
  rw [quote, List.cons_append, List.append_assoc, List.singleton_append, value, skipSpace_cons rfl]
  simp only [if_pos, unquote_quote, Option.map_some]

theorem reads_int (n : Int) : Reads (.number (int n)) 0 (int n) := by
  obtain ⟨c, ds, heq, hc, hds⟩ :
      ∃ c ds, int n = c :: ds ∧ (c = 45 ∨ isDigit c = true) ∧ ∀ d ∈ ds, isDigit d = true := by
    have hall := List.all_eq_true.1 (all_isDigit_nat n.natAbs)
    unfold int
    split
    · exact ⟨_, _, rfl, .inl rfl, hall⟩
    · obtain ⟨d, ds, heq, hd⟩ := nat_head n.natAbs
      rw [heq] at hall
      exact ⟨d, ds, heq, .inr hd, fun e he => hall e (List.mem_cons_of_mem _ he)⟩
  have hrange : c = 45 ∨ 48 ≤ c ∧ c ≤ 57 := by
    simpa [isDigit] using hc
  have hspace : isSpace c = false := by
    simp only [isSpace, Bool.or_eq_false_iff, beq_eq_false_iff_ne]
    omega
  refine ⟨⟨c, ds, heq, hspace, by omega⟩, fun r hr => ?_, fun fuel d rest _ _ hrest => ?_⟩
  · rw [heq, List.mem_cons] at hr
    rcases hr with rfl | hr
    · exact .inl (by omega)
    · have hdigit : 48 ≤ r ∧ r ≤ 57 := by simpa [isDigit] using hds r hr
      exact .inl (by omega)
  · have hnumber := number_int n hrest
    rw [heq, List.cons_append] at hnumber ⊢
    rw [value, skipSpace_cons hspace]
    simp only [if_neg (show c ≠ 34 by omega), if_neg (show c ≠ 91 by omega), if_neg (show c ≠ 123 by omega),
      if_pos hc, hnumber, Option.map_some]

theorem elements_eq {depth : Nat} {vs : List Value} {texts : List (List Nat)}
    (h : List.Forall₂ (fun v text => Reads v depth text) vs texts) (hne : vs ≠ []) {fuel d : Nat}
    (hfuel : 2 * ([44].intercalate texts).length + 2 ≤ fuel) (hd : depth ≤ d) (rest : List Nat) :
    elements fuel d ([44].intercalate texts ++ 93 :: rest) = some (vs, rest) := by
  induction h generalizing fuel with
  | nil => exact absurd rfl hne
  | @cons v text vs texts hv hvs ih =>
    cases hvs with
    | nil =>
      rw [List.intercalate_singleton] at hfuel ⊢
      obtain ⟨fuel, rfl⟩ : ∃ f, fuel = f + 1 + 1 := ⟨fuel - 2, by omega⟩
      rw [elements, hv.value_eq fuel d _ (by omega) hd (stops_cons (by simp))]
      simp [skipSpace_cons (c := 93) rfl]
    | @cons v' text' vs texts hv' hvs =>
      rw [List.intercalate_cons_cons, List.length_append, List.length_append, List.length_singleton] at hfuel
      obtain ⟨fuel, rfl⟩ : ∃ f, fuel = f + 1 + 1 := ⟨fuel - 2, by omega⟩
      rw [List.intercalate_cons_cons, List.append_assoc, List.append_assoc, List.singleton_append, elements,
        hv.value_eq fuel d _ (by omega) hd (stops_cons (by simp))]
      simp only [skipSpace_cons (c := 44) rfl, if_pos, ih (by simp) (show 2 * _ + 2 ≤ fuel + 1 by omega),
        Option.map_some]

/-- What every text of a list has, the joined text has. -/
theorem forall_mem_intercalate {P : Nat → Prop} {texts : List (List Nat)} (h : ∀ text ∈ texts, ∀ r ∈ text, P r)
    (hsep : P 44) : ∀ r ∈ [44].intercalate texts, P r := by
  induction texts with
  | nil => exact fun r hr => absurd hr (by simp)
  | cons text texts ih =>
    obtain ⟨htext, htexts⟩ := List.forall_mem_cons.1 h
    cases texts with
    | nil => rwa [List.intercalate_singleton]
    | cons next texts =>
      rw [List.intercalate_cons_cons]
      intro r hr
      rcases List.mem_append.1 hr with hr | hr
      · rcases List.mem_append.1 hr with hr | hr
        · exact htext r hr
        · rwa [List.mem_singleton.1 hr]
      · exact ih htexts r hr

/-- The joined text starts as its first text does. -/
theorem intercalate_cons_append {c : Nat} (text : List Nat) (texts : List (List Nat)) (rest : List Nat) :
    ∃ more, [44].intercalate ((c :: text) :: texts) ++ rest = c :: more := by
  cases texts with
  | nil => exact ⟨text ++ rest, by rw [List.intercalate_singleton, List.cons_append]⟩
  | cons next texts => exact ⟨_, by rw [List.intercalate_cons_cons, List.cons_append, List.cons_append,
      List.cons_append]⟩

theorem forall₂_mem_right {α β : Type} {R : α → β → Prop} {P : β → Prop} {as : List α} {bs : List β}
    (h : List.Forall₂ R as bs) (hP : ∀ a b, R a b → P b) : ∀ b ∈ bs, P b := by
  induction h with
  | nil => simp
  | cons hab _ ih => exact List.forall_mem_cons.2 ⟨hP _ _ hab, ih⟩

theorem reads_array {depth : Nat} {vs : List Value} {texts : List (List Nat)}
    (h : List.Forall₂ (fun v text => Reads v depth text) vs texts) :
    Reads (.array vs) (depth + 1) (array texts) := by
  have hscalar : ∀ text ∈ texts, ∀ r ∈ text, Scalar r :=
    forall₂_mem_right h fun _ _ hv => hv.scalar
  refine ⟨⟨91, _, rfl, rfl, by decide⟩, ?_, fun fuel d rest hfuel hd _ => ?_⟩
  · intro r hr
    simp only [array, List.mem_cons, List.mem_append, List.not_mem_nil, or_false] at hr
    rcases hr with rfl | hr | rfl
    · decide
    · exact forall_mem_intercalate hscalar (by decide) r hr
    · decide
  · rw [array, List.cons_append, List.append_assoc, List.singleton_append, value, skipSpace_cons rfl]
    rw [array, List.length_cons, List.length_append, List.length_singleton] at hfuel
    simp only [if_neg (show (91 : Nat) ≠ 34 by decide), if_pos, if_neg (show d ≠ 0 by omega)]
    cases h with
    | nil => simp [skipSpace_cons (c := 93) rfl]
    | @cons v text vs texts hv hvs =>
      obtain ⟨c, tail, rfl, hspace, hc⟩ := hv.starts
      have helements := elements_eq (.cons hv hvs) (by simp) (show _ ≤ fuel by omega) (show depth ≤ d - 1 by omega) rest
      obtain ⟨more, hmore⟩ := intercalate_cons_append (c := c) tail texts (93 :: rest)
      rw [hmore] at helements ⊢
      have hhead : ¬ (skipSpace (c :: more)).head? = some 93 := by
        rw [skipSpace_cons hspace]
        simpa using hc
      rw [if_neg hhead, helements]
      rfl

/-- One member, and then what its separator tells. -/
theorem members_member {depth d fuel : Nat} {v : Value} {name : Text} {text rest : List Nat}
    (hv : Reads v depth text) (hd : depth ≤ d) (hfuel : 2 * text.length + 2 ≤ fuel) (hrest : Stops rest) :
    members (fuel + 1) d (member (name, text) ++ rest) =
      match skipSpace rest with
      | [] => none
      | c :: rest =>
        if c = 44 then (members fuel d rest).map fun r => ((Utf8.string (runes name), v) :: r.1, r.2)
        else if c = 125 then some ([(Utf8.string (runes name), v)], rest)
        else none := by
  obtain ⟨fuel, rfl⟩ : ∃ f, fuel = f + 1 := ⟨fuel - 1, by omega⟩
  rw [member, quote, List.append_assoc, List.cons_append, List.append_assoc, List.singleton_append,
    List.cons_append, members, skipSpace_cons rfl]
  simp only [ne_eq, not_true_eq_false, if_false, unquote_quote, skipSpace_cons (c := 58) rfl,
    hv.value_eq fuel d rest (by omega) hd hrest]

theorem members_eq {depth : Nat} {fields : List (Text × Value)} {texts : List (Text × List Nat)}
    (h : List.Forall₂ (fun f g => f.1 = Utf8.string (runes g.1) ∧ Reads f.2 depth g.2) fields texts)
    (hne : fields ≠ []) {fuel d : Nat} (hfuel : 2 * ([44].intercalate (texts.map member)).length + 2 ≤ fuel)
    (hd : depth ≤ d) (rest : List Nat) :
    members fuel d ([44].intercalate (texts.map member) ++ 125 :: rest) = some (fields, rest) := by
  induction h generalizing fuel with
  | nil => exact absurd rfl hne
  | @cons f g fields texts hf hfields ih =>
    obtain ⟨key, v⟩ := f
    obtain ⟨name, text⟩ := g
    obtain ⟨rfl, hv⟩ := hf
    replace hv : Reads v depth text := hv
    have hlength : text.length + 2 ≤ (member (name, text)).length := by
      simp only [member, quote, List.length_append, List.length_cons]
      omega
    cases hfields with
    | nil =>
      rw [List.map_singleton, List.intercalate_singleton] at hfuel ⊢
      obtain ⟨fuel, rfl⟩ : ∃ f, fuel = f + 1 := ⟨fuel - 1, by omega⟩
      rw [members_member hv hd (by omega) (stops_cons (by simp)), skipSpace_cons rfl]
      rfl
    | @cons f' g' fields texts hf' hfields =>
      rw [List.map_cons, List.map_cons, List.intercalate_cons_cons, List.length_append, List.length_append,
        List.length_singleton] at hfuel
      obtain ⟨fuel, rfl⟩ : ∃ f, fuel = f + 1 := ⟨fuel - 1, by omega⟩
      rw [List.map_cons, List.map_cons, List.intercalate_cons_cons, List.append_assoc, List.append_assoc,
        List.singleton_append, members_member hv hd (by omega) (stops_cons (by simp)), skipSpace_cons rfl]
      have hrest := ih (by simp) (show _ ≤ fuel by rw [List.map_cons]; omega)
      rw [List.map_cons] at hrest
      simp only [if_pos, hrest, Option.map_some]

theorem reads_object {depth : Nat} {fields : List (Text × Value)} {texts : List (Text × List Nat)}
    (h : List.Forall₂ (fun f g => f.1 = Utf8.string (runes g.1) ∧ Reads f.2 depth g.2) fields texts) :
    Reads (.object fields) (depth + 1) (object texts) := by
  have hscalar : ∀ text ∈ texts.map member, ∀ r ∈ text, Scalar r := by
    refine List.forall_mem_map.2 (forall₂_mem_right h fun f g hf r hr => ?_)
    simp only [member, List.mem_append, List.mem_cons] at hr
    rcases hr with hr | rfl | hr
    · exact scalar_of_mem_quote hr
    · decide
    · exact hf.2.scalar r hr
  refine ⟨⟨123, _, rfl, rfl, by decide⟩, ?_, fun fuel d rest hfuel hd _ => ?_⟩
  · intro r hr
    simp only [object, List.mem_cons, List.mem_append, List.not_mem_nil, or_false] at hr
    rcases hr with rfl | hr | rfl
    · decide
    · exact forall_mem_intercalate hscalar (by decide) r hr
    · decide
  · rw [object, List.cons_append, List.append_assoc, List.singleton_append, value, skipSpace_cons rfl]
    rw [object, List.length_cons, List.length_append, List.length_singleton] at hfuel
    simp only [if_neg (show (123 : Nat) ≠ 34 by decide), if_neg (show (123 : Nat) ≠ 91 by decide), if_pos,
      if_neg (show d ≠ 0 by omega)]
    cases h with
    | nil => simp [skipSpace_cons (c := 125) rfl]
    | @cons f g fields texts hf hfields =>
      have hmembers := members_eq (.cons hf hfields) (by simp) (show _ ≤ fuel by omega)
        (show depth ≤ d - 1 by omega) rest
      rw [List.map_cons, member, quote, List.cons_append] at hmembers ⊢
      obtain ⟨more, hmore⟩ := intercalate_cons_append (c := 34) ((units g.1).flatMap quoteUnit ++ [34] ++ 58 :: g.2)
        (texts.map member) (125 :: rest)
      rw [hmore] at hmembers ⊢
      have hhead : ¬ (skipSpace (34 :: more)).head? = some 125 := by
        rw [skipSpace_cons rfl]
        simp
      rw [if_neg hhead, hmembers]
      rfl

/-- **What was written is read back.** -/
theorem parse_eq {v : Value} {depth : Nat} {text : List Nat} (h : Reads v depth text) (hdepth : depth ≤ maxDepth) :
    parse (Utf8.string text) = some v := by
  have hvalue := h.value_eq (2 * text.length + 1) maxDepth [] (by omega) hdepth stops_nil
  rw [List.append_nil] at hvalue
  rw [parse, runes_string h.scalar, hvalue]
  rfl

end Json
