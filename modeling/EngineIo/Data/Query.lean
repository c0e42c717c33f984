import Mathlib.Data.List.Sort
import EngineIo.Codec.Utf8

set_option autoImplicit false

/-! # Query strings

The query of a URL as Go's `net/url` reads and writes it. A query is a list of pairs `key=value` joined by
`&`; both halves are escaped, so that any bytes may stand in them. The reader skips what it cannot read: an
empty piece, one with a semicolon, one with a broken escape.

`Values` is the map from keys to lists of values, kept as the list of its pairs: the values of a key are those
of its pairs, in order. The writer goes through the keys in order, which for pairs is a stable sort by key. -/

namespace Query

abbrev Text := List UInt8

/-! ## Escapes -/

def percent : UInt8 := 37
def amp : UInt8 := 38
def plus : UInt8 := 43
def semicolon : UInt8 := 59
def equals : UInt8 := 61
def space : UInt8 := 32

/-- The digit of a value below sixteen, in upper case. -/
def hexDigit (n : Nat) : UInt8 := UInt8.ofNat (Utf8.hexDigit 65 n)

/-- Letters, digits and `-`, `.`, `_`, `~` stand for themselves. -/
def unreserved (b : UInt8) : Bool :=
  97 ≤ b && b ≤ 122 || 65 ≤ b && b ≤ 90 || 48 ≤ b && b ≤ 57 || b == 45 || b == 46 || b == 95 || b == 126

def escapeByte (b : UInt8) : Text :=
  if unreserved b then [b]
  else if b = space then [plus]
  else [percent, hexDigit (b.toNat / 16), hexDigit (b.toNat % 16)]

/-- `QueryEscape`. -/
def escape (s : Text) : Text := s.flatMap escapeByte

/-- `QueryUnescape`. -/
def unescape : Text → Option Text
  | [] => some []
  | b :: rest =>
    if b = percent then
      match rest with
      | high :: low :: rest =>
        match Utf8.hexValue high.toNat, Utf8.hexValue low.toNat with
        | some high, some low => (unescape rest).map (UInt8.ofNat (16 * high + low) :: ·)
        | _, _ => none
      | _ => none
    else (unescape rest).map ((if b = plus then space else b) :: ·)

theorem hexValue_hexDigit {n : Nat} (h : n < 16) : Utf8.hexValue (hexDigit n).toNat = some n := by
  have hlt : Utf8.hexDigit 65 n < 0x80 := Utf8.hexDigit_lt (by decide) h
  rw [hexDigit, UInt8.toNat_ofNat_of_lt' (by change _ < 256; omega), Utf8.hexValue_hexDigit (.inl rfl) h]

theorem unescape_escaped (b : UInt8) (rest : Text) :
    unescape (percent :: hexDigit (b.toNat / 16) :: hexDigit (b.toNat % 16) :: rest) =
      (unescape rest).map (b :: ·) := by
  have hb := b.toNat_lt
  have hvalue : UInt8.ofNat (16 * (b.toNat / 16) + b.toNat % 16) = b := by
    rw [Nat.div_add_mod]
    simp
  rw [unescape, if_pos rfl]
  simp only [hexValue_hexDigit (show b.toNat / 16 < 16 by omega),
    hexValue_hexDigit (show b.toNat % 16 < 16 by omega), hvalue]

theorem unescape_cons {b : UInt8} (hpercent : b ≠ percent) (hplus : b ≠ plus) (rest : Text) :
    unescape (b :: rest) = (unescape rest).map (b :: ·) := by
  rcases rest with _ | ⟨c, _ | ⟨d, rest⟩⟩ <;> simp [unescape, hpercent, hplus]

theorem unescape_plus (rest : Text) : unescape (plus :: rest) = (unescape rest).map (space :: ·) := by
  have hne : plus ≠ percent := by decide
  rcases rest with _ | ⟨c, _ | ⟨d, rest⟩⟩ <;> simp [unescape, hne]

theorem unescape_escapeByte (b : UInt8) (rest : Text) :
    unescape (escapeByte b ++ rest) = (unescape rest).map (b :: ·) := by
  unfold escapeByte
  split
  · rename_i hb
    have hpercent : b ≠ percent := by
      rintro rfl
      cases hb
    have hplus : b ≠ plus := by
      rintro rfl
      cases hb
    exact unescape_cons hpercent hplus rest
  · split
    · rename_i hb
      subst hb
      exact unescape_plus rest
    · exact unescape_escaped b rest

/-- What was escaped is read back, whatever stands behind it. -/
theorem unescape_escape_append (s rest : Text) :
    unescape (escape s ++ rest) = (unescape rest).map (s ++ ·) := by
  induction s with
  | nil => simp [escape]
  | cons b s ih =>
    rw [escape, List.flatMap_cons, List.append_assoc, unescape_escapeByte, ← escape, ih, Option.map_map]
    rfl

theorem unescape_escape (s : Text) : unescape (escape s) = some s := by
  have h := unescape_escape_append s []
  rw [List.append_nil] at h
  simpa [unescape] using h

/-- The bytes of an escaped text. -/
def Plain (b : UInt8) : Prop := unreserved b = true ∨ b = plus ∨ b = percent

theorem unreserved_hexDigit {n : Nat} (h : n < 16) : unreserved (hexDigit n) = true := by
  revert n
  decide

theorem plain_of_mem_escape {s : Text} {b : UInt8} (h : b ∈ escape s) : Plain b := by
  obtain ⟨c, -, hb⟩ := List.mem_flatMap.1 h
  have hc := c.toNat_lt
  unfold escapeByte at hb
  split at hb
  · rename_i hplain
    rw [List.mem_singleton.1 hb]
    exact .inl hplain
  · split at hb
    · rw [List.mem_singleton.1 hb]
      exact .inr (.inl rfl)
    · simp only [List.mem_cons, List.not_mem_nil, or_false] at hb
      rcases hb with rfl | rfl | rfl
      · exact .inr (.inr rfl)
      · exact .inl (unreserved_hexDigit (by omega))
      · exact .inl (unreserved_hexDigit (by omega))

theorem not_mem_escape {b : UInt8} (hb : unreserved b = false) (hplus : b ≠ plus) (hpercent : b ≠ percent)
    (s : Text) : b ∉ escape s := by
  intro h
  rcases plain_of_mem_escape h with h | h | h
  · rw [hb] at h
    cases h
  · exact hplus h
  · exact hpercent h

/-- A text of unreserved bytes needs no escape. -/
theorem escape_eq_self {s : Text} (h : ∀ b ∈ s, unreserved b = true) : escape s = s := by
  induction s with
  | nil => rfl
  | cons b s ih =>
    obtain ⟨hb, hs⟩ := List.forall_mem_cons.1 h
    rw [escape, List.flatMap_cons, escapeByte, if_pos hb, ← escape, ih hs]
    rfl

/-! ## Pairs -/

/-- `strings.Cut`: what stands before the first separator and what stands behind it. -/
def cut (sep : UInt8) : Text → Text × Text
  | [] => ([], [])
  | b :: rest => if b = sep then ([], rest) else (b :: (cut sep rest).1, (cut sep rest).2)

theorem cut_append {sep : UInt8} {before : Text} (h : sep ∉ before) (behind : Text) :
    cut sep (before ++ sep :: behind) = (before, behind) := by
  induction before with
  | nil => simp [cut]
  | cons b before ih =>
    obtain ⟨hb, hbefore⟩ : sep ≠ b ∧ sep ∉ before := by simpa using h
    rw [List.cons_append, cut, if_neg hb.symm, ih hbefore]

theorem cut_of_not_mem {sep : UInt8} {s : Text} (h : sep ∉ s) : cut sep s = (s, []) := by
  induction s with
  | nil => rfl
  | cons b s ih =>
    obtain ⟨hb, hs⟩ : sep ≠ b ∧ sep ∉ s := by simpa using h
    rw [cut, if_neg hb.symm, ih hs]

theorem not_mem_cut_fst (sep : UInt8) (s : Text) : sep ∉ (cut sep s).1 := by
  induction s with
  | nil => exact List.not_mem_nil
  | cons b s ih =>
    rw [cut]
    split
    · exact List.not_mem_nil
    · rename_i hb
      simp [ih, Ne.symm hb]

/-- Cutting adds nothing. -/
theorem mem_of_mem_cut {sep b : UInt8} {s : Text} (h : b ∈ (cut sep s).1 ∨ b ∈ (cut sep s).2) : b ∈ s := by
  induction s with
  | nil => rcases h with h | h <;> cases h
  | cons c s ih =>
    rw [cut] at h
    split at h
    · rcases h with h | h
      · cases h
      · exact List.mem_cons_of_mem _ h
    · rw [List.mem_cons, or_assoc] at h
      rcases h with rfl | h
      · exact List.mem_cons_self ..
      · exact List.mem_cons_of_mem _ (ih h)

/-- One piece of a query; `none` if it is skipped. -/
def parsePair (s : Text) : Option (Text × Text) :=
  if semicolon ∈ s ∨ s = [] then none
  else
    match unescape (cut equals s).1, unescape (cut equals s).2 with
    | some key, some value => some (key, value)
    | _, _ => none

def encodePair (p : Text × Text) : Text := escape p.1 ++ equals :: escape p.2

theorem not_mem_encodePair {b : UInt8} (hb : unreserved b = false) (hplus : b ≠ plus) (hpercent : b ≠ percent)
    (hequals : b ≠ equals) (p : Text × Text) : b ∉ encodePair p := by
  have hescape := not_mem_escape hb hplus hpercent
  simp [encodePair, hescape, hequals]

theorem amp_not_mem_encodePair (p : Text × Text) : amp ∉ encodePair p :=
  not_mem_encodePair (by decide) (by decide) (by decide) (by decide) p

theorem parsePair_encodePair (p : Text × Text) : parsePair (encodePair p) = some p := by
  have hsemicolon : semicolon ∉ encodePair p :=
    not_mem_encodePair (by decide) (by decide) (by decide) (by decide) p
  have hequals : equals ∉ escape p.1 := not_mem_escape (by decide) (by decide) (by decide) p.1
  have hne : encodePair p ≠ [] := by simp [encodePair]
  have hcut : cut equals (encodePair p) = (escape p.1, escape p.2) := cut_append hequals _
  rw [parsePair, if_neg (not_or.2 ⟨hsemicolon, hne⟩), hcut]
  simp only [unescape_escape]

/-! ## Values -/

abbrev Values := List (Text × Text)

namespace Values

/-- The values of a key, in order. -/
def all (vs : Values) (key : Text) : List Text := (vs.filter (·.1 = key)).map (·.2)

/-- `Get`: the first value of a key, or the empty text. -/
def get (vs : Values) (key : Text) : Text := (vs.all key).headD []

/-- `Set`: the value takes the place of all values of its key. -/
def set (vs : Values) (key value : Text) : Values := vs.filter (·.1 ≠ key) ++ [(key, value)]

/-- The pairs in the order in which they are written. -/
def sorted (vs : Values) : Values := vs.insertionSort fun p q => p.1 ≤ q.1

/-- `Encode`. -/
def encode (vs : Values) : Text := [amp].intercalate (vs.sorted.map encodePair)

@[simp] theorem all_nil (key : Text) : all [] key = [] := rfl

theorem all_append (vs ws : Values) (key : Text) : all (vs ++ ws) key = all vs key ++ all ws key := by
  simp [all]

theorem all_singleton (key value other : Text) :
    all [(key, value)] other = if other = key then [value] else [] := by
  by_cases h : key = other
  · simp [all, h]
  · simp [all, h, Ne.symm h]

theorem all_set (vs : Values) (key value other : Text) :
    (vs.set key value).all other = if other = key then [value] else vs.all other := by
  rw [set, all_append, all_singleton]
  by_cases h : other = key
  · subst h
    simp [all]
  · rw [if_neg h, if_neg h, List.append_nil, all, all, List.filter_filter]
    congr 2
    funext p
    by_cases hp : p.1 = other
    · simp [hp, h]
    · simp [hp]

theorem length_set_le (vs : Values) (key value : Text) : (vs.set key value).length ≤ vs.length + 1 := by
  rw [set, List.length_append, List.length_singleton]
  exact Nat.add_le_add_right (List.length_filter_le ..) 1

theorem filter_orderedInsert (p : Text × Text) (vs : Values) (key : Text) :
    (vs.orderedInsert (fun p q => p.1 ≤ q.1) p).filter (·.1 = key) = (p :: vs).filter (·.1 = key) := by
  induction vs with
  | nil => rfl
  | cons q vs ih =>
    rw [List.orderedInsert]
    split
    · rfl
    · rename_i hle
      -- the new pair goes behind `q`, which therefore has another key
      have hne : p.1 ≠ q.1 := fun heq => hle (heq ▸ List.le_refl p.1)
      rw [List.filter_cons, ih, List.filter_cons, List.filter_cons, List.filter_cons]
      by_cases hp : p.1 = key
      · have hq : q.1 ≠ key := fun hq => hne (hp.trans hq.symm)
        simp [hp, hq]
      · simp [hp]

/-- Sorting leaves the order of the values of a key alone. -/
theorem all_sorted (vs : Values) (key : Text) : vs.sorted.all key = vs.all key := by
  rw [all, all]
  congr 1
  induction vs with
  | nil => rfl
  | cons p vs ih =>
    rw [sorted, List.insertionSort_cons, filter_orderedInsert, List.filter_cons, List.filter_cons, ← sorted, ih]

theorem length_sorted (vs : Values) : vs.sorted.length = vs.length := List.length_insertionSort _ vs

end Values

/-! ## Queries -/

/-- `URL.Query`. Recent versions of the library give up on a query of more than `limit` pieces. -/
def parse (limit : Nat) (query : Text) : Values :=
  if limit < query.count amp + 1 then [] else (query.splitOn amp).filterMap parsePair

theorem splitOn_encode {vs : Values} (h : vs ≠ []) : vs.encode.splitOn amp = vs.sorted.map encodePair := by
  refine List.splitOn_intercalate amp ?_ ?_
  · intro piece hpiece
    obtain ⟨p, -, rfl⟩ := List.mem_map.1 hpiece
    exact amp_not_mem_encodePair p
  · rw [Ne, List.map_eq_nil_iff, ← List.length_eq_zero_iff, Values.length_sorted, List.length_eq_zero_iff]
    exact h

theorem filterMap_parsePair (vs : Values) : (vs.map encodePair).filterMap parsePair = vs := by
  rw [List.filterMap_map]
  exact (List.filterMap_congr fun p _ => parsePair_encodePair p).trans List.filterMap_some

theorem count_amp_intercalate {pieces : List Text} (h : ∀ piece ∈ pieces, amp ∉ piece) :
    ([amp].intercalate pieces).count amp = pieces.length - 1 := by
  induction pieces with
  | nil => rfl
  | cons piece pieces ih =>
    obtain ⟨hpiece, hpieces⟩ := List.forall_mem_cons.1 h
    have hzero : piece.count amp = 0 := List.count_eq_zero.2 hpiece
    cases pieces with
    | nil => simpa [List.intercalate] using hzero
    | cons next pieces =>
      have hstep := ih hpieces
      rw [List.intercalate_cons_cons, List.count_append, List.count_append, hzero, hstep]
      simp [Nat.add_comm]

/-- The separators apart, an encoded query is made of escaped texts. -/
theorem not_mem_encode {b : UInt8} (hb : unreserved b = false) (hplus : b ≠ plus) (hpercent : b ≠ percent)
    (hequals : b ≠ equals) (hamp : b ≠ amp) (vs : Values) : b ∉ vs.encode := by
  have hpieces : ∀ pieces : List Text, (∀ piece ∈ pieces, b ∉ piece) → b ∉ [amp].intercalate pieces := by
    intro pieces hpieces
    induction pieces with
    | nil => simp
    | cons piece pieces ih =>
      obtain ⟨hpiece, hpieces⟩ := List.forall_mem_cons.1 hpieces
      cases pieces with
      | nil => rwa [List.intercalate_singleton]
      | cons next pieces =>
        rw [List.intercalate_cons_cons]
        simp [hpiece, hamp, ih hpieces]
  refine hpieces _ fun piece hpiece => ?_
  obtain ⟨p, -, rfl⟩ := List.mem_map.1 hpiece
  exact not_mem_encodePair hb hplus hpercent hequals p

theorem encode_ne_nil {vs : Values} (h : vs ≠ []) : vs.encode ≠ [] := by
  intro hnil
  have hsplit := splitOn_encode h
  rw [hnil] at hsplit
  have hmem : ([] : Text) ∈ vs.sorted.map encodePair := by
    rw [← hsplit]
    exact List.mem_singleton.2 rfl
  obtain ⟨p, -, hp⟩ := List.mem_map.1 hmem
  simp [encodePair] at hp

theorem count_amp_encode (vs : Values) : vs.encode.count amp = vs.length - 1 := by
  rw [Values.encode, count_amp_intercalate, List.length_map, Values.length_sorted]
  intro piece hpiece
  obtain ⟨p, -, rfl⟩ := List.mem_map.1 hpiece
  exact amp_not_mem_encodePair p

/-- **What was written is read back**, sorted by key. -/
theorem parse_encode {limit : Nat} {vs : Values} (h : vs.length ≤ limit) (hne : vs ≠ []) :
    parse limit vs.encode = vs.sorted := by
  have hpos := List.length_pos_of_ne_nil hne
  rw [parse, count_amp_encode, if_neg (by omega), splitOn_encode hne, filterMap_parsePair]

/-- A pair that is appended to a query in its escaped form comes last. -/
theorem parse_append_pair {limit : Nat} {query : Text} {p : Text × Text} (h : query.count amp + 2 ≤ limit) :
    parse limit (query ++ amp :: encodePair p) = parse limit query ++ [p] := by
  have hcount : (query ++ amp :: encodePair p).count amp = query.count amp + 1 := by
    have hzero : (encodePair p).count amp = 0 := List.count_eq_zero.2 (amp_not_mem_encodePair p)
    simp [hzero]
  have hpair : (encodePair p).splitOn amp = [encodePair p] := by
    have hsingle : [amp].intercalate [encodePair p] = encodePair p := by simp [List.intercalate]
    have hmem : ∀ l ∈ [encodePair p], amp ∉ l := by simpa using amp_not_mem_encodePair p
    have hsplit := List.splitOn_intercalate amp hmem (by simp)
    rwa [hsingle] at hsplit
  rw [parse, if_neg (by omega), parse, if_neg (by omega), List.splitOn_append_cons_self, List.filterMap_append,
    hpair]
  simp [parsePair_encodePair]

end Query
