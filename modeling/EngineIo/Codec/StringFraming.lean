import EngineIo.Codec.Framing
import EngineIo.Codec.Payload

set_option autoImplicit false

/-! # The language of the string framing (`decodeStringFramedPayload` in `payload.go`)

A string frame is a numeral, a colon and as many runes as the numeral says. A numeral holds no colon, so the
first colon ends it and a payload is a concatenation of frames in one way at most. The cursor loop returns
packets exactly for these concatenations. -/

namespace EngineIo

open Cursor

/-! ## Bodies -/

/-- A body that is sliced out ends within the payload: an end that overflowed lies before the start. -/
theorem decodeBody_fits {α : Type} {decode : List α → Except PayloadError Packet} {xs : List α}
    {start length next : Int} {p : Packet} (hlen : (xs.length : Int) < 2 ^ 63) (h0 : 0 ≤ start)
    (hle : start ≤ xs.length) (hlow : -2 ^ 63 ≤ length) (hhigh : length < 2 ^ 63)
    (h : decodeBody decode xs start (int64 (start + length)) = .ok (p, next)) :
    0 ≤ length ∧ start + length ≤ xs.length := by
  unfold decodeBody at h
  cases hs : slice (ε := PayloadError) xs start (int64 (start + length)) with
  | error e =>
    rw [hs] at h
    cases h
  | ok body =>
    have hrange : 0 ≤ start ∧ start ≤ int64 (start + length) ∧ int64 (start + length) ≤ xs.length := by
      by_contra hout
      rw [slice_eq_panic.2 hout] at hs
      cases hs
    by_cases hover : 2 ^ 63 ≤ start + length
    · rw [int64_eq_sub hover (by omega)] at hrange
      omega
    · rw [int64_eq_self (by omega) (by omega)] at hrange
      omega

theorem decodeBody_middle {α : Type} {decode : List α → Except PayloadError Packet}
    {xs : List α} {start stop : Int} (pre body post : List α) (hxs : pre ++ (body ++ post) = xs)
    (hstart : start = pre.length) (hstop : stop = start + body.length) :
    decodeBody decode xs start stop = ((decode body).map fun p => (p, stop)).mapError .error := by
  subst hxs
  have hslice : slice (ε := PayloadError) (pre ++ (body ++ post)) start stop = .ok body := by
    rw [hstop, hstart]
    exact slice_middle pre body post
  rw [decodeBody, hslice]
  simp only
  cases decode body <;> rfl

/-! ## Numerals -/

theorem parseUint_digits {n m : Nat} {cs : List UInt8} (h : parseUint n cs = .ok m) :
    ∀ c ∈ cs, 48 ≤ c ∧ c ≤ 57 := by
  induction cs generalizing n with
  | nil => simp
  | cons c cs ih =>
    rw [parseUint] at h
    split at h
    · cases h
    · next hc =>
      split at h
      · cases h
      · refine List.forall_mem_cons.2 ⟨?_, ih h⟩
        simpa [not_or, UInt8.not_lt] using hc

theorem atoiDigits_digits {negative : Bool} {digits : List UInt8} {n : Int}
    (h : atoiDigits negative digits = .ok n) : ∀ c ∈ digits, 48 ≤ c ∧ c ≤ 57 := by
  unfold atoiDigits at h
  split at h
  · cases h
  · split at h
    · cases h
    · next hm => exact parseUint_digits hm

/-- A numeral is made of digits, behind a sign at most. -/
theorem atoi_bytes {s : List UInt8} {n : Int} (h : atoi s = .ok n) :
    ∀ c ∈ s, c = 43 ∨ c = 45 ∨ 48 ≤ c ∧ c ≤ 57 := by
  unfold atoi at h
  split at h
  · refine List.forall_mem_cons.2 ⟨.inl rfl, fun c hc => .inr (.inr (atoiDigits_digits h c hc))⟩
  · refine List.forall_mem_cons.2 ⟨.inr (.inl rfl), fun c hc => .inr (.inr (atoiDigits_digits h c hc))⟩
  · exact fun c hc => .inr (.inr (atoiDigits_digits h c hc))

theorem lengthSeparator_not_mem {numeral : List Nat} {n : Int} (h : atoi (Utf8.string numeral) = .ok n) :
    lengthSeparator ∉ numeral := by
  intro hmem
  have hbyte : (58 : UInt8) ∈ Utf8.string numeral :=
    List.mem_flatMap.2 ⟨lengthSeparator, hmem, List.mem_singleton.2 rfl⟩
  exact absurd (atoi_bytes h 58 hbyte) (by decide)

/-! ## Frames -/

/-- A string frame: `numeral`, a colon, and the runes of `body`. -/
@[ext]
structure StringFrame where
  numeral : List Nat
  body : List Nat
  length_eq : atoi (Utf8.string numeral) = .ok body.length

namespace StringFrame

def runes (f : StringFrame) : List Nat := f.numeral ++ lengthSeparator :: f.body

def decode (f : StringFrame) : Except PayloadError Packet := decodeStringFramedPacket (Utf8.string f.body)

theorem runes_ne_nil (f : StringFrame) : f.runes ≠ [] := by
  simp [runes]

theorem length_runes (f : StringFrame) : f.runes.length = f.numeral.length + 1 + f.body.length := by
  simp only [runes, List.length_append, List.length_cons]
  omega

/-- The first colon is the one behind the numeral. -/
theorem findIdx?_runes (f : StringFrame) (post : List Nat) :
    (f.runes ++ post).findIdx? (· = lengthSeparator) = some f.numeral.length := by
  have hnone : f.numeral.findIdx? (· = lengthSeparator) = none := by
    refine List.findIdx?_eq_none_iff.2 fun c hc => ?_
    have hne : c ≠ lengthSeparator := fun heq => lengthSeparator_not_mem f.length_eq (heq ▸ hc)
    simpa using hne
  simp [runes, List.findIdx?_append, hnone, List.findIdx?_cons]

theorem delimited : Delimited runes := by
  intro f g r s h
  simp only [runes, List.append_assoc, List.cons_append] at h
  obtain ⟨hnumeral, hrest⟩ :=
    eq_of_append_cons_eq (lengthSeparator_not_mem f.length_eq) (lengthSeparator_not_mem g.length_eq) h
  have hlength : f.body.length = g.body.length := by
    have heq := f.length_eq.symm.trans (hnumeral ▸ g.length_eq)
    simpa using heq
  exact StringFrame.ext hnumeral (List.append_inj_left hrest hlength)

end StringFrame

/-- The runes up to the first colon, and those behind it. -/
theorem findIdx?_lengthSeparator {rest : List Nat} {i : Nat}
    (h : rest.findIdx? (· = lengthSeparator) = some i) :
    i < rest.length ∧ rest = rest.take i ++ lengthSeparator :: rest.drop (i + 1) := by
  obtain ⟨hlt, hcolon, -⟩ := List.findIdx?_eq_some_iff_getElem.1 h
  have heq : rest[i] = lengthSeparator := by simpa using hcolon
  refine ⟨hlt, ?_⟩
  rw [← heq, List.getElem_cons_drop, List.take_append_drop]

/-- The iteration at the beginning of a frame. -/
theorem stringFrame_frame (pre : List Nat) (f : StringFrame) (post : List Nat)
    (hlen : ((pre ++ (f.runes ++ post)).length : Int) < 2 ^ 63) :
    stringFrame (pre ++ (f.runes ++ post)) pre.length =
      (f.decode.map fun p => (p, (pre.length : Int) + f.runes.length)).mapError .error := by
  have htake : (f.runes ++ post).take f.numeral.length = f.numeral := by
    simp [StringFrame.runes]
  have hlength := f.length_runes
  have hsum := hlen
  simp only [List.length_append, hlength, Int.natCast_add] at hsum
  have hend : int64 ((f.numeral.length : Int) + pre.length + 1 + f.body.length) =
      pre.length + f.runes.length := by
    rw [int64_eq_self (by omega) (by omega)]
    omega
  rw [stringFrame, stringHeader_eq rfl hlen, f.findIdx?_runes post]
  simp only [htake, f.length_eq, hend]
  rw [if_neg, decodeBody_middle (pre ++ (f.numeral ++ [lengthSeparator])) f.body post]
  · rfl
  · simp [StringFrame.runes]
  · simp only [List.length_append, List.length_singleton]
    omega
  · omega
  · simp only [List.length_append]
    omega

/-- There is a packet only at the beginning of a frame. -/
theorem exists_frame_of_stringFrame {pre rest : List Nat} {p : Packet} {next : Int}
    (hlen : ((pre ++ rest).length : Int) < 2 ^ 63)
    (h : stringFrame (pre ++ rest) pre.length = .ok (p, next)) :
    ∃ (f : StringFrame) (post : List Nat), rest = f.runes ++ post := by
  rw [stringFrame, stringHeader_eq rfl hlen] at h
  cases hi : rest.findIdx? (· = lengthSeparator) with
  | none =>
    rw [hi] at h
    cases h
  | some i =>
    obtain ⟨hlt, hrest⟩ := findIdx?_lengthSeparator hi
    cases hn : atoi (Utf8.string (rest.take i)) with
    | error e =>
      simp only [hi, hn] at h
      cases h
    | ok n =>
      simp only [hi, hn] at h
      split at h
      · cases h
      · next hfits =>
        rw [List.length_append] at hlen
        obtain ⟨hnonneg, hle⟩ := decodeBody_fits (by rw [List.length_append]; omega) (by omega)
          (by rw [List.length_append]; omega) (by omega) (atoi_bounds hn) h
        rw [List.length_append] at hle
        have hbody : ((rest.drop (i + 1)).take n.toNat).length = n.toNat :=
          List.length_take_of_le (by rw [List.length_drop]; omega)
        refine ⟨⟨rest.take i, (rest.drop (i + 1)).take n.toNat, ?_⟩, (rest.drop (i + 1)).drop n.toNat, ?_⟩
        · rw [hbody, Int.toNat_of_nonneg hnonneg]
          exact hn
        · rw [StringFrame.runes, List.append_assoc, List.cons_append, List.take_append_drop]
          exact hrest

/-- The iterations of the loop read string frames. -/
theorem stringFrame_reads {xs : List Nat} (hlen : (xs.length : Int) < 2 ^ 63) :
    Reads StringFrame.runes StringFrame.decode xs (stringFrame xs) where
  nonempty := StringFrame.runes_ne_nil
  complete := by
    rintro pre f post rfl
    exact stringFrame_frame pre f post hlen
  sound := by
    rintro pre rest p next rfl - h
    exact exists_frame_of_stringFrame hlen h

/-- **The string framing.** It returns packets exactly for the payloads whose runes are a concatenation of
    frames that decode to these packets. The frames are determined by the payload. If one of them does not
    decode, the payload gives the error of the first that does not. -/
theorem decodeStringFramedPayload_iff (input : List UInt8) (hlen : input.length < 2 ^ 63) :
    (∀ ps, decodeStringFramedPayload input = .ok ps ↔
      ∃ fs : List StringFrame, fs.flatMap StringFrame.runes = Utf8.runes input ∧
        List.Forall₂ (fun f p => f.decode = .ok p) fs ps) ∧
    (∀ fs gs : List StringFrame, fs.flatMap StringFrame.runes = Utf8.runes input →
      gs.flatMap StringFrame.runes = Utf8.runes input → fs = gs) ∧
    ∀ (before : List StringFrame) f behind e,
      (before ++ f :: behind).flatMap StringFrame.runes = Utf8.runes input →
      (∀ g ∈ before, ∃ p, g.decode = .ok p) → f.decode = .error e →
      decodeStringFramedPayload input = .error (.error e) := by
  have hruns := Utf8.length_runes_le input
  have hreads := @stringFrame_reads (Utf8.runes input) (by omega)
  refine ⟨fun ps => ?_, fun fs gs hfs hgs => ?_, fun before f behind e hfs hbefore he => ?_⟩
  · simp only [← AllOrNothing.mapM_eq_ok_iff]
    exact hreads.run_eq_ok_iff
  · exact StringFrame.delimited.flatMap_inj StringFrame.runes_ne_nil (hfs.trans hgs.symm)
  · have hfirst : (before ++ f :: behind).mapM StringFrame.decode = .error e :=
      AllOrNothing.mapM_eq_error_iff.2 ⟨before, f, behind, rfl, hbefore, he⟩
    rw [decodeStringFramedPayload, hreads.run_flatMap hfs, hfirst]
    rfl

/-- `2:4é1:2`: the length counts the two bytes of `é` as one rune. -/
theorem decodeStringFramedPayload_two_frames :
    decodeStringFramedPayload [50, 58, 52, 195, 169, 49, 58, 50] =
      .ok [{ type := .message, data := [195, 169] }, { type := .ping }] :=
  ((decodeStringFramedPayload_iff [50, 58, 52, 195, 169, 49, 58, 50] (by decide)).1 _).2
    ⟨[⟨[50], [52, 233], by decide⟩, ⟨[49], [50], by decide⟩], by decide +kernel,
      .cons (by decide +kernel) (.cons (by decide +kernel) .nil)⟩

end EngineIo
