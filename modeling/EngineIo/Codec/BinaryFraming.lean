import EngineIo.Codec.StringFraming
import Mathlib.Data.Nat.Digits.Defs

set_option autoImplicit false

/-! # The language of the binary framing (`decodeBinaryFramedPayload` in `payload.go`)

A binary frame is a marker, the decimal digits of a length, a terminator and a body of that length. The code
adds the digits up in an `int`. It therefore reads every frame of the format, but a length of `2 ^ 63` or more
wraps: the code accepts it when the remainder modulo `2 ^ 64` happens to be the length of a body.

Both readings of the digits give a format of delimited frames (`BinaryFrame`). The loop accepts exactly the
concatenations of frames in the wrapped reading, and these are frames of the format exactly when no length
has wrapped. -/

namespace EngineIo

open Cursor

/-! ## Lengths -/

/-- The number that digits stand for. -/
def decimalFrom (n : Int) (digits : List UInt8) : Int := digits.foldl (fun n d => n * 10 + d.toNat) n

def decimal (digits : List UInt8) : Int := decimalFrom 0 digits

/-- The `int` that the code makes of digits. -/
def wrapped (digits : List UInt8) : Int := int64 (decimal digits)

theorem int64_step (n : Int) (d : UInt8) :
    int64 (int64 (int64 n * 10) + d.toNat) = int64 (n * 10 + d.toNat) := by
  simp only [int64, Int.bmod_add_bmod, Int.bmod_mul_bmod]

/-- The loop over the digits, up to the terminator. -/
theorem binaryLength_digits (n cursor : Int) {digits : List UInt8} (post : List UInt8)
    (hdigits : ∀ d ∈ digits, d ≤ 9) :
    binaryLength (int64 n) cursor (digits ++ binaryLengthTerminator :: post) =
      .ok (int64 (decimalFrom n digits), cursor + digits.length + 1) := by
  induction digits generalizing n cursor with
  | nil =>
    rw [List.nil_append, binaryLength, if_pos rfl]
    simp [decimalFrom]
  | cons d digits ih =>
    obtain ⟨hd, hrest⟩ := List.forall_mem_cons.1 hdigits
    have hend : d ≠ binaryLengthTerminator := by
      rintro rfl
      exact absurd hd (by decide)
    rw [List.cons_append, binaryLength, if_neg hend, if_neg (UInt8.not_lt.2 hd), int64_step, ih _ _ hrest,
      List.length_cons, Int.natCast_succ, decimalFrom, decimalFrom, List.foldl_cons]
    congr 2
    omega

/-- The loop over the digits returns only at a terminator. -/
theorem exists_digits_of_binaryLength {n cursor : Int} {rest : List UInt8} {r : Int × Int}
    (h : binaryLength n cursor rest = .ok r) :
    ∃ digits post, rest = digits ++ binaryLengthTerminator :: post ∧ ∀ d ∈ digits, d ≤ 9 := by
  induction rest generalizing n cursor with
  | nil => cases h
  | cons d rest ih =>
    rw [binaryLength] at h
    split at h
    · next hend => exact ⟨[], rest, by rw [hend]; rfl, by simp⟩
    · split at h
      · cases h
      · next hd =>
        obtain ⟨digits, post, rfl, hdigits⟩ := ih h
        exact ⟨d :: digits, post, rfl, List.forall_mem_cons.2 ⟨UInt8.not_lt.1 hd, hdigits⟩⟩

/-! ## Frames -/

/-- A binary frame; `read` says which length its digits stand for. -/
@[ext]
structure BinaryFrame (read : List UInt8 → Int) where
  marker : UInt8
  digits : List UInt8
  body : List UInt8
  marker_valid : marker = binaryStringMarker ∨ marker = binaryBinaryMarker
  digits_le : ∀ d ∈ digits, d ≤ 9
  length_eq : read digits = body.length

namespace BinaryFrame

variable {read : List UInt8 → Int}

def bytes (f : BinaryFrame read) : List UInt8 :=
  f.marker :: (f.digits ++ binaryLengthTerminator :: f.body)

def decode (f : BinaryFrame read) : Except PayloadError Packet := decodeBinaryFramedPacket f.marker f.body

theorem bytes_ne_nil (f : BinaryFrame read) : f.bytes ≠ [] := List.cons_ne_nil _ _

theorem length_bytes (f : BinaryFrame read) : f.bytes.length = 1 + f.digits.length + 1 + f.body.length := by
  simp only [bytes, List.length_append, List.length_cons]
  omega

theorem terminator_not_mem (f : BinaryFrame read) : binaryLengthTerminator ∉ f.digits := by
  intro hmem
  exact absurd (f.digits_le _ hmem) (by decide)

theorem delimited : Delimited (bytes : BinaryFrame read → List UInt8) := by
  intro f g r s h
  simp only [bytes, List.cons_append, List.append_assoc] at h
  obtain ⟨hmarker, htail⟩ := List.cons.inj h
  obtain ⟨hdigits, hrest⟩ := eq_of_append_cons_eq f.terminator_not_mem g.terminator_not_mem htail
  have hlength : f.body.length = g.body.length := by
    have heq := f.length_eq.symm.trans (hdigits ▸ g.length_eq)
    simpa using heq
  exact BinaryFrame.ext hmarker hdigits (List.append_inj_left hrest hlength)

end BinaryFrame

/-- The marker at the cursor, and the bytes behind it. -/
theorem index_cursor {pre : List UInt8} {cursor : Int} (marker : UInt8) (tail : List UInt8)
    (hcursor : cursor = pre.length) :
    index (ε := PayloadError) (pre ++ marker :: tail) cursor = .ok marker ∧
      (pre ++ marker :: tail).drop (cursor.toNat + 1) = tail := by
  subst hcursor
  rw [index, if_neg (by omega), Int.toNat_natCast, List.getElem?_append_right (Nat.le_refl _),
    ← List.drop_drop]
  simp

/-- The header at the cursor, where a marker and digits stand. -/
theorem binaryHeader_eq {pre digits post : List UInt8} {marker : UInt8} {cursor : Int}
    (hcursor : cursor = pre.length)
    (hmarker : marker = binaryStringMarker ∨ marker = binaryBinaryMarker) (hdigits : ∀ d ∈ digits, d ≤ 9) :
    binaryHeader (pre ++ marker :: (digits ++ binaryLengthTerminator :: post)) cursor =
      .ok (marker, cursor + 1 + digits.length + 1, wrapped digits) := by
  obtain ⟨hindex, hdrop⟩ := index_cursor marker (digits ++ binaryLengthTerminator :: post) hcursor
  have hlength := binaryLength_digits 0 (cursor + 1) post hdigits
  rw [binaryHeader, hindex]
  simp only
  rw [if_neg (by rcases hmarker with h | h <;> simp [h]), hdrop, show (0 : Int) = int64 0 from rfl, hlength]
  rfl

/-- There is a header only where a marker and digits stand. -/
theorem exists_digits_of_binaryHeader {pre tail : List UInt8} {marker : UInt8} {cursor : Int}
    {r : UInt8 × Int × Int} (hcursor : cursor = pre.length)
    (h : binaryHeader (pre ++ marker :: tail) cursor = .ok r) :
    (marker = binaryStringMarker ∨ marker = binaryBinaryMarker) ∧
      ∃ digits post, tail = digits ++ binaryLengthTerminator :: post ∧ ∀ d ∈ digits, d ≤ 9 := by
  obtain ⟨hindex, hdrop⟩ := index_cursor marker tail hcursor
  rw [binaryHeader, hindex] at h
  simp only at h
  split at h
  · cases h
  · next hmarker =>
    refine ⟨Decidable.or_iff_not_not_and_not.2 hmarker, ?_⟩
    rw [hdrop] at h
    cases hl : binaryLength 0 (cursor + 1) tail with
    | error e =>
      rw [hl] at h
      cases h
    | ok length => exact exists_digits_of_binaryLength hl

/-- The iteration at the beginning of a frame. -/
theorem binaryFrame_frame (pre : List UInt8) (f : BinaryFrame wrapped) (post : List UInt8)
    (hlen : ((pre ++ (f.bytes ++ post)).length : Int) < 2 ^ 63) :
    binaryFrame (pre ++ (f.bytes ++ post)) pre.length =
      (f.decode.map fun p => (p, (pre.length : Int) + f.bytes.length)).mapError .error := by
  have hxs : pre ++ (f.bytes ++ post) =
      pre ++ f.marker :: (f.digits ++ binaryLengthTerminator :: (f.body ++ post)) := by
    simp [BinaryFrame.bytes]
  have hlength := f.length_bytes
  have hsum := hlen
  simp only [List.length_append, hlength, Int.natCast_add] at hsum
  have hend : int64 ((pre.length : Int) + 1 + f.digits.length + 1 + wrapped f.digits) =
      pre.length + f.bytes.length := by
    rw [f.length_eq, int64_eq_self (by omega) (by omega)]
    omega
  rw [binaryFrame, hxs, binaryHeader_eq rfl f.marker_valid f.digits_le, ← hxs]
  simp only [hend]
  rw [if_neg, decodeBody_middle (pre ++ f.marker :: (f.digits ++ [binaryLengthTerminator])) f.body post]
  · rfl
  · simp [BinaryFrame.bytes]
  · simp only [List.length_append, List.length_cons, List.length_nil]
    omega
  · omega
  · simp only [List.length_append]
    omega

/-- There is a packet only at the beginning of a frame. -/
theorem exists_frame_of_binaryFrame {pre rest : List UInt8} {p : Packet} {next : Int}
    (hlen : ((pre ++ rest).length : Int) < 2 ^ 63) (hne : rest ≠ [])
    (h : binaryFrame (pre ++ rest) pre.length = .ok (p, next)) :
    ∃ (f : BinaryFrame wrapped) (post : List UInt8), rest = f.bytes ++ post := by
  obtain ⟨marker, tail, rfl⟩ := List.exists_cons_of_ne_nil hne
  rw [binaryFrame] at h
  cases hh : binaryHeader (pre ++ marker :: tail) pre.length with
  | error e =>
    rw [hh] at h
    cases h
  | ok header =>
    obtain ⟨hmarker, digits, post, rfl, hdigits⟩ := exists_digits_of_binaryHeader rfl hh
    rw [binaryHeader_eq rfl hmarker hdigits] at h
    simp only at h
    split at h
    · cases h
    · have hlength : (pre ++ marker :: (digits ++ binaryLengthTerminator :: post)).length =
          pre.length + 1 + digits.length + 1 + post.length := by
        simp only [List.length_append, List.length_cons]
        omega
      obtain ⟨hlow, hhigh⟩ : -2 ^ 63 ≤ wrapped digits ∧ wrapped digits < 2 ^ 63 := int64_bounds _
      obtain ⟨hnonneg, hle⟩ := decodeBody_fits hlen (by omega) (by omega) hlow hhigh h
      rw [hlength] at hle
      have hbody : (post.take (wrapped digits).toNat).length = (wrapped digits).toNat :=
        List.length_take_of_le (by omega)
      refine ⟨⟨marker, digits, post.take (wrapped digits).toNat, hmarker, hdigits, ?_⟩,
        post.drop (wrapped digits).toNat, ?_⟩
      · rw [hbody, Int.toNat_of_nonneg hnonneg]
      · simp [BinaryFrame.bytes]

/-- The iterations of the loop read the frames of the wrapped reading. -/
theorem binaryFrame_reads {xs : List UInt8} (hlen : (xs.length : Int) < 2 ^ 63) :
    Reads (BinaryFrame.bytes : BinaryFrame wrapped → _) BinaryFrame.decode xs (binaryFrame xs) where
  nonempty := BinaryFrame.bytes_ne_nil
  complete := by
    rintro pre f post rfl
    exact binaryFrame_frame pre f post hlen
  sound := by
    rintro pre rest p next rfl hne h
    exact exists_frame_of_binaryFrame hlen hne h

/-! ## Completeness -/

namespace BinaryFrame

/-- The same frames, read differently. -/
theorem exists_reread {read : List UInt8 → Int} (read' : List UInt8 → Int) {fs : List (BinaryFrame read)}
    (h : ∀ f ∈ fs, read' f.digits = f.body.length) :
    ∃ gs : List (BinaryFrame read'), gs.flatMap bytes = fs.flatMap bytes ∧
      gs.mapM decode = fs.mapM decode ∧ gs.map digits = fs.map digits := by
  induction fs with
  | nil => exact ⟨[], rfl, rfl, rfl⟩
  | cons f fs ih =>
    obtain ⟨hf, hfs⟩ := List.forall_mem_cons.1 h
    obtain ⟨gs, hbytes, hdecode, hdigits⟩ := ih hfs
    refine ⟨⟨f.marker, f.digits, f.body, f.marker_valid, f.digits_le, hf⟩ :: gs, ?_, ?_, ?_⟩
    · rw [List.flatMap_cons, List.flatMap_cons, hbytes]
      rfl
    · rw [List.mapM_cons, List.mapM_cons, hdecode]
      rfl
    · rw [List.map_cons, List.map_cons, hdigits]

theorem wrapped_eq {f : BinaryFrame decimal} (h : (f.body.length : Int) < 2 ^ 63) :
    wrapped f.digits = f.body.length := by
  rw [wrapped, f.length_eq, int64_eq_self (by omega) h]

/-- A text packet is framed as its type character and data, a binary packet as its type byte and data. -/
structure Carries {read : List UInt8 → Int} (f : BinaryFrame read) (p : Packet) : Prop where
  marker : f.marker = if p.isBinary then binaryBinaryMarker else binaryStringMarker
  body : f.body = (if p.isBinary then p.type.code else p.type.byte) :: p.data

end BinaryFrame

/-- The decimal digits of a length. -/
def digitBytes (n : Nat) : List UInt8 := (Nat.digits 10 n).reverse.map UInt8.ofNat

theorem decimal_reverse {l : List Nat} (hl : ∀ d ∈ l, d < 256) :
    decimal (l.reverse.map UInt8.ofNat) = (Nat.ofDigits (10 : Nat) l : Nat) := by
  induction l with
  | nil => rfl
  | cons d l ih =>
    obtain ⟨hd, hl⟩ := List.forall_mem_cons.1 hl
    have hrest := ih hl
    simp only [decimal, decimalFrom] at hrest
    simp only [decimal, decimalFrom, List.reverse_cons, List.map_append, List.foldl_append, hrest,
      List.map_cons, List.map_nil, List.foldl_cons, List.foldl_nil, UInt8.toNat_ofNat', Nat.ofDigits_cons]
    rw [Nat.mod_eq_of_lt hd]
    simp only [Int.natCast_add, Int.natCast_mul]
    omega

theorem decimal_digitBytes (n : Nat) : decimal (digitBytes n) = n := by
  rw [digitBytes, decimal_reverse, Nat.ofDigits_digits]
  intro d hd
  have hlt := Nat.digits_lt_base (by decide) hd
  omega

theorem digitBytes_le (n : Nat) : ∀ d ∈ digitBytes n, d ≤ 9 := by
  intro b hb
  obtain ⟨d, hd, rfl⟩ := List.mem_map.1 hb
  have hlt := Nat.digits_lt_base (by decide) (List.mem_reverse.1 hd)
  rw [UInt8.le_iff_toNat_le, UInt8.toNat_ofNat', Nat.mod_eq_of_lt (by omega)]
  exact Nat.le_of_lt_succ hlt

/-- Every packet can be framed. -/
theorem exists_carries (p : Packet) : ∃ f : BinaryFrame decimal, f.Carries p := by
  let body := (if p.isBinary then p.type.code else p.type.byte) :: p.data
  refine ⟨⟨if p.isBinary then binaryBinaryMarker else binaryStringMarker, digitBytes body.length, body, ?_,
    digitBytes_le _, decimal_digitBytes _⟩, rfl, rfl⟩
  split
  · exact .inr rfl
  · exact .inl rfl

/-- A string packet decodes to itself exactly when its type is valid; the type character of no valid type is
    the binary marker. -/
theorem decodeStringFramedPacket_iff (type : PacketType) (data : List UInt8) :
    decodeStringFramedPacket (type.byte :: data) = .ok { type, data } ↔ type.valid = true := by
  rw [decodeStringFramedPacket.eq_def]
  simp only [PacketType.ofByte_byte]
  split
  · next hmark =>
    have hinvalid : type.valid ≠ true := fun hvalid => by
      have hle := (PacketType.byte_of_valid hvalid).2
      rw [hmark] at hle
      exact absurd hle (by decide)
    split
    · simp [hinvalid]
    · split
      · split <;> simp [hinvalid]
      · simp [hinvalid]
  · split <;> simp_all

/-- A framed packet decodes to itself exactly when its type is valid. -/
theorem BinaryFrame.Carries.decode_iff {read : List UInt8 → Int} {f : BinaryFrame read} {p : Packet}
    (h : f.Carries p) : f.decode = .ok p ↔ p.type.valid = true := by
  obtain ⟨hmarker, hbody⟩ := h
  rw [BinaryFrame.decode, hmarker, hbody]
  obtain ⟨type, data, isBinary⟩ := p
  cases isBinary with
  | true =>
    simp only [if_true, decodeBinaryFramedPacket,
      if_neg (show binaryBinaryMarker ≠ binaryStringMarker by decide)]
    split <;> simp_all
  | false =>
    simp only [Bool.false_eq_true, if_false, decodeBinaryFramedPacket, if_true]
    exact decodeStringFramedPacket_iff type data

theorem carried_decode_iff {fs : List (BinaryFrame decimal)} {ps : List Packet}
    (h : List.Forall₂ BinaryFrame.Carries fs ps) :
    List.Forall₂ (fun f p => f.decode = .ok p) fs ps ↔ ∀ p ∈ ps, p.type.valid = true := by
  induction h with
  | nil => simp
  | cons hf _ ih => simp [hf.decode_iff, ih]

/-- A body is no longer than the payload. -/
theorem body_length_lt {read : List UInt8 → Int} {fs : List (BinaryFrame read)}
    (hlen : (fs.flatMap BinaryFrame.bytes).length < 2 ^ 63) {f : BinaryFrame read} (hf : f ∈ fs) :
    (f.body.length : Int) < 2 ^ 63 := by
  have hsub : f.bytes.length ≤ (fs.flatMap BinaryFrame.bytes).length :=
    (List.sublist_flatten_of_mem (List.mem_map_of_mem hf)).length_le
  have hlength := f.length_bytes
  omega

theorem decodeBinaryFramedPayload_frames (fs : List (BinaryFrame decimal))
    (hlen : (fs.flatMap BinaryFrame.bytes).length < 2 ^ 63) :
    decodeBinaryFramedPayload (fs.flatMap BinaryFrame.bytes) =
      (fs.mapM BinaryFrame.decode).mapError .error := by
  obtain ⟨gs, hbytes, hdecode, -⟩ := BinaryFrame.exists_reread wrapped
    fun f hf => BinaryFrame.wrapped_eq (body_length_lt hlen hf)
  rw [← hdecode]
  exact (binaryFrame_reads (by omega)).run_flatMap hbytes

/-- **Completeness.** Any concatenation of frames, with leading zeros or without, decodes to the packets of the
    bodies in order, or gives the error of the first body that does not decode. In particular packets that are
    framed decode to themselves, whatever their data is, and every packet can be framed. -/
theorem decodeBinaryFramedPayload_complete (fs : List (BinaryFrame decimal))
    (hlen : (fs.flatMap BinaryFrame.bytes).length < 2 ^ 63) :
    (∀ ps, List.Forall₂ (fun f p => f.decode = .ok p) fs ps →
      decodeBinaryFramedPayload (fs.flatMap BinaryFrame.bytes) = .ok ps) ∧
    (∀ before f behind e, fs = before ++ f :: behind → (∀ g ∈ before, ∃ p, g.decode = .ok p) →
      f.decode = .error e →
      decodeBinaryFramedPayload (fs.flatMap BinaryFrame.bytes) = .error (.error e)) ∧
    (∀ ps, List.Forall₂ BinaryFrame.Carries fs ps →
      (decodeBinaryFramedPayload (fs.flatMap BinaryFrame.bytes) = .ok ps ↔
        ∀ p ∈ ps, p.type.valid = true)) ∧
    ∀ p : Packet, ∃ f : BinaryFrame decimal, f.Carries p := by
  have hdecode := decodeBinaryFramedPayload_frames fs hlen
  refine ⟨fun ps hps => ?_, fun before f behind e hfs hbefore he => ?_, fun ps hps => ?_, exists_carries⟩
  · rw [hdecode, AllOrNothing.mapM_eq_ok_iff.2 hps]
    rfl
  · rw [hdecode, AllOrNothing.mapM_eq_error_iff.2 ⟨before, f, behind, hfs, hbefore, he⟩]
    rfl
  · rw [hdecode, ← carried_decode_iff hps, ← AllOrNothing.mapM_eq_ok_iff]
    cases fs.mapM BinaryFrame.decode <;> simp [Except.mapError]

/-- A text message with leading zeros in its length, whose data looks like a frame, and a binary message. -/
theorem decodeBinaryFramedPayload_two_frames :
    decodeBinaryFramedPayload [0, 0, 0, 4, 255, 52, 0, 1, 255, 1, 2, 255, 4, 97] =
      .ok [{ type := .message, data := [0, 1, 255] }, { type := .message, data := [97], isBinary := true }] :=
  ((decodeBinaryFramedPayload_complete
    [⟨0, [0, 0, 4], [52, 0, 1, 255], by decide, by decide +kernel, by decide⟩,
      ⟨1, [2], [4, 97], by decide, by decide +kernel, by decide⟩] (by decide)).2.2.1 _
    (.cons ⟨rfl, rfl⟩ (.cons ⟨rfl, rfl⟩ .nil))).2 (by decide)

/-! ## Soundness -/

/-- A payload of the format. -/
def WellFramed (input : List UInt8) : Prop :=
  ∃ fs : List (BinaryFrame decimal), fs.flatMap BinaryFrame.bytes = input

theorem decimal_nonneg (digits : List UInt8) : 0 ≤ decimal digits := by
  suffices h : ∀ n, 0 ≤ n → 0 ≤ decimalFrom n digits from h 0 (Int.le_refl 0)
  induction digits with
  | nil => exact fun n hn => hn
  | cons d digits ih =>
    intro n hn
    have hstep : 0 ≤ n * 10 + d.toNat := by omega
    exact ih _ hstep

/-- A length is the number of bytes behind it exactly when it has not wrapped. -/
theorem BinaryFrame.decimal_eq_iff (f : BinaryFrame wrapped) :
    decimal f.digits = f.body.length ↔ decimal f.digits < 2 ^ 63 := by
  have hnonneg := decimal_nonneg f.digits
  have hwrapped : int64 (decimal f.digits) = f.body.length := f.length_eq
  constructor
  · intro heq
    have hbound := (int64_bounds (decimal f.digits)).2
    rwa [hwrapped, ← heq] at hbound
  · intro hlt
    rwa [int64_eq_self (by omega) hlt] at hwrapped

/-- Frames in the wrapped reading are frames of the format exactly when no length has wrapped. -/
theorem wellFramed_iff (fs : List (BinaryFrame wrapped))
    (hlen : (fs.flatMap BinaryFrame.bytes).length < 2 ^ 63) :
    WellFramed (fs.flatMap BinaryFrame.bytes) ↔ ∀ f ∈ fs, decimal f.digits < 2 ^ 63 := by
  constructor
  · rintro ⟨gs, hgs⟩
    obtain ⟨gs', hbytes, -, hdigits⟩ := BinaryFrame.exists_reread wrapped
      fun g hg => BinaryFrame.wrapped_eq (body_length_lt (hgs ▸ hlen) hg)
    obtain rfl := BinaryFrame.delimited.flatMap_inj BinaryFrame.bytes_ne_nil (hbytes.trans hgs)
    intro f hf
    obtain ⟨g, hg, heq⟩ := List.mem_map.1 (hdigits ▸ List.mem_map_of_mem hf)
    rw [← heq, g.length_eq]
    exact body_length_lt (hgs ▸ hlen) hg
  · intro hall
    obtain ⟨gs, hbytes, -, -⟩ := BinaryFrame.exists_reread decimal
      fun f hf => f.decimal_eq_iff.2 (hall f hf)
    exact ⟨gs, hbytes⟩

/-- **Soundness.** What decodes is a concatenation of frames in the wrapped reading, with the packets of their
    bodies. It is one of frames whose lengths are those of their bodies exactly when no declared length is
    `2 ^ 63` or more. -/
theorem decodeBinaryFramedPayload_sound_iff (input : List UInt8) (ps : List Packet)
    (hlen : input.length < 2 ^ 63) (h : decodeBinaryFramedPayload input = .ok ps) :
    ∃ fs : List (BinaryFrame wrapped), fs.flatMap BinaryFrame.bytes = input ∧
      List.Forall₂ (fun f p => f.decode = .ok p) fs ps ∧
      (WellFramed input ↔ ∀ f ∈ fs, decimal f.digits < 2 ^ 63) ∧
      ∀ f ∈ fs, decimal f.digits = f.body.length ↔ decimal f.digits < 2 ^ 63 := by
  obtain ⟨fs, rfl, hps⟩ := (binaryFrame_reads (by omega)).run_eq_ok_iff.1 h
  exact ⟨fs, rfl, AllOrNothing.mapM_eq_ok_iff.1 hps, wellFramed_iff fs hlen, fun f _ => f.decimal_eq_iff⟩

/-- The text message `a`. -/
theorem decodeBinaryFramedPayload_sound_message :
    ∃ fs : List (BinaryFrame wrapped), fs.flatMap BinaryFrame.bytes = [0, 2, 255, 52, 97] ∧
      List.Forall₂ (fun f p => f.decode = .ok p) fs [{ type := .message, data := [97] }] ∧
      (WellFramed [0, 2, 255, 52, 97] ↔ ∀ f ∈ fs, decimal f.digits < 2 ^ 63) ∧
      ∀ f ∈ fs, decimal f.digits = f.body.length ↔ decimal f.digits < 2 ^ 63 :=
  decodeBinaryFramedPayload_sound_iff _ _ (by decide) (by decide)

/-- A body of one byte whose declared length is `2 ^ 64 + 1`. -/
def wrappedLength : List UInt8 :=
  [0, 1, 8, 4, 4, 6, 7, 4, 4, 0, 7, 3, 7, 0, 9, 5, 5, 1, 6, 1, 7, 255, 52]

/-- The code accepts it, but it is not of the format. -/
theorem wrappedLength_accepted :
    decodeBinaryFramedPayload wrappedLength = .ok [{ type := .message }] ∧ ¬ WellFramed wrappedLength := by
  refine ⟨by decide +kernel, ?_⟩
  let f : BinaryFrame wrapped :=
    ⟨0, [1, 8, 4, 4, 6, 7, 4, 4, 0, 7, 3, 7, 0, 9, 5, 5, 1, 6, 1, 7], [52],
      by decide, by decide +kernel, by decide⟩
  intro hframed
  have hlt := (wellFramed_iff [f] (by decide)).1 hframed f (List.mem_singleton_self f)
  exact absurd hlt (by decide)

/-! ## Selection -/

theorem startsBinary_iff {input : List UInt8} :
    startsBinary input = true ↔
      ∃ marker rest, input = marker :: rest ∧ (marker = binaryStringMarker ∨ marker = binaryBinaryMarker) := by
  cases input with
  | nil => simp [startsBinary]
  | cons marker rest => simp [startsBinary]

/-- No numeral starts with a marker. -/
theorem not_atoi_marker {marker : UInt8} {numeral : List Nat} {n : Int}
    (hmarker : marker = binaryStringMarker ∨ marker = binaryBinaryMarker) :
    atoi (Utf8.string (marker.toNat :: numeral)) ≠ .ok n := by
  intro h
  have hbyte : marker ∈ Utf8.string (marker.toNat :: numeral) := by
    rcases hmarker with rfl | rfl <;> exact List.mem_cons_self ..
  have hbytes := atoi_bytes h marker hbyte
  rcases hmarker with rfl | rfl <;> exact absurd hbytes (by decide)

/-- What stands before the first colon of a payload that starts with a marker is not a numeral. -/
theorem stringFrame_marker {marker : UInt8} (rest : List Nat)
    (hmarker : marker = binaryStringMarker ∨ marker = binaryBinaryMarker)
    (hlen : ((marker.toNat :: rest).length : Int) < 2 ^ 63) :
    ∃ m, stringFrame (marker.toNat :: rest) 0 = .error (.error (.malformed m)) := by
  have hheader := @stringHeader_eq [] (marker.toNat :: rest) 0 rfl hlen
  rw [List.nil_append] at hheader
  rw [stringFrame, hheader]
  cases hi : (marker.toNat :: rest).findIdx? (· = lengthSeparator) with
  | none => exact ⟨_, rfl⟩
  | some i =>
    cases i with
    | zero =>
      obtain ⟨-, hfirst⟩ := findIdx?_lengthSeparator hi
      rcases hmarker with rfl | rfl <;> cases (List.cons.inj hfirst).1
    | succ i =>
      simp only [List.take_succ_cons]
      cases hn : atoi (Utf8.string (marker.toNat :: rest.take i)) with
      | error e => exact ⟨_, rfl⟩
      | ok n => exact absurd hn (not_atoi_marker hmarker)

theorem decodeStringFramedPayload_startsBinary {input : List UInt8} (hlen : input.length < 2 ^ 63)
    (h : startsBinary input = true) :
    ∃ m, decodeStringFramedPayload input = .error (.error (.malformed m)) := by
  obtain ⟨marker, rest, rfl, hmarker⟩ := startsBinary_iff.1 h
  have hle := Utf8.length_runes_le (marker :: rest)
  have hrunes : Utf8.runes (marker :: rest) = marker.toNat :: Utf8.runes rest := by
    rcases hmarker with rfl | rfl <;> rfl
  rw [hrunes] at hle
  obtain ⟨m, hm⟩ := stringFrame_marker (Utf8.runes rest) hmarker (by omega)
  refine ⟨m, ?_⟩
  rw [decodeStringFramedPayload, hrunes, run, if_pos (by rw [List.length_cons]; omega), hm]

/-- The binary framing returns packets only for payloads that start with a marker. -/
theorem startsBinary_of_decodeBinaryFramedPayload {input : List UInt8} {ps : List Packet}
    (hlen : input.length < 2 ^ 63) (hne : input ≠ []) (h : decodeBinaryFramedPayload input = .ok ps) :
    startsBinary input = true := by
  obtain ⟨fs, rfl, -⟩ := (binaryFrame_reads (by omega)).run_eq_ok_iff.1 h
  cases fs with
  | nil => exact absurd rfl hne
  | cons f fs => exact startsBinary_iff.2 ⟨f.marker, _, rfl, f.marker_valid⟩

/-- **Selection.** No payload but the empty one is accepted by both framings. So v3 accepts what one of them
    accepts, with its packets, v3 accepts everything that v2 accepts, and v2 rejects as malformed what starts
    with a marker. -/
theorem decodePayload_selection (input : List UInt8) (hlen : input.length < 2 ^ 63) :
    (input ≠ [] → ∀ ps qs, decodeStringFramedPayload input = .ok ps →
      decodeBinaryFramedPayload input ≠ .ok qs) ∧
    (∀ ps, decodePayload 3 input = .ok ps ↔
      decodeStringFramedPayload input = .ok ps ∨ decodeBinaryFramedPayload input = .ok ps) ∧
    (∀ ps, decodePayload 2 input = .ok ps → decodePayload 3 input = .ok ps) ∧
    (∀ marker rest, input = marker :: rest → marker = 0x00 ∨ marker = 0x01 →
      ∃ m, decodePayload 2 input = .error (.error (.malformed m))) := by
  have hv2 : decodePayload 2 input = decodeStringFramedPayload input := rfl
  have hv3 : decodePayload 3 input =
      if startsBinary input then decodeBinaryFramedPayload input else decodeStringFramedPayload input := rfl
  cases hstarts : startsBinary input with
  | true =>
    obtain ⟨m, hm⟩ := decodeStringFramedPayload_startsBinary hlen hstarts
    simp [hv2, hv3, hstarts, hm]
  | false =>
    have hbinary : input ≠ [] → ∀ qs, decodeBinaryFramedPayload input ≠ .ok qs := fun hne qs hqs => by
      rw [startsBinary_of_decodeBinaryFramedPayload hlen hne hqs] at hstarts
      cases hstarts
    refine ⟨fun hne _ qs _ => hbinary hne qs, fun ps => ?_, fun ps h => ?_, ?_⟩
    · rw [hv3, hstarts]
      refine ⟨.inl, ?_⟩
      rintro (hstring | hqs)
      · exact hstring
      · -- both framings accept the empty payload, without packets
        cases input with
        | nil => exact hqs
        | cons b rest => exact absurd hqs (hbinary (List.cons_ne_nil b rest) ps)
    · rw [hv3, hstarts]
      exact h
    · intro marker rest hinput hmarker
      rw [startsBinary_iff.2 ⟨marker, rest, hinput, hmarker⟩] at hstarts
      cases hstarts

/-- The text message `a` in either framing. -/
theorem decodePayload_selection_message :
    decodePayload 3 [50, 58, 52, 97] = .ok [{ type := .message, data := [97] }] ∧
    decodePayload 3 [0, 2, 255, 52, 97] = .ok [{ type := .message, data := [97] }] ∧
    ∃ m, decodePayload 2 [0, 2, 255, 52, 97] = .error (.error (.malformed m)) :=
  ⟨((decodePayload_selection [50, 58, 52, 97] (by decide)).2.1 _).2 (.inl (by decide +kernel)),
    ((decodePayload_selection [0, 2, 255, 52, 97] (by decide)).2.1 _).2 (.inr (by decide +kernel)),
    (decodePayload_selection [0, 2, 255, 52, 97] (by decide)).2.2.2 _ _ rfl (.inl rfl)⟩

end EngineIo
