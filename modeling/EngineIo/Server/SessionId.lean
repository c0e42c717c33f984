import EngineIo.Codec.Base64
import EngineIo.Data.Json
import EngineIo.Data.Query

set_option autoImplicit false

/-! # Generated session ids (`generateSessionID` in `server_options.go`)

The default id of a session is 18 random bytes in the URL-safe base64 alphabet. Nothing of the randomness is lost
in it, and there is nothing in it that a query, JSON or UTF-8 would have to escape. -/

namespace EngineIo.Server

/-- The URL-safe alphabet has `-` and `_` for `+` and `/`. -/
def urlChar (c : UInt8) : UInt8 := if c = 43 then 45 else if c = 47 then 95 else c

/-- `base64.RawURLEncoding`. -/
def rawURLEncode (bytes : List UInt8) : List UInt8 :=
  ((Base64.encode bytes).filter (· ≠ Base64.pad)).map urlChar

/-- `generateSessionID`, with what `rand.Read` put into its buffer. -/
def generateSessionID (buffer : List UInt8) : List UInt8 := rawURLEncode buffer

/-- The characters of whole groups. -/
theorem mem_encode_of_dvd {bytes : List UInt8} (h : 3 ∣ bytes.length) :
    (∀ c ∈ Base64.encode bytes, ∃ n < 64, c = Base64.encodeChar n) ∧
      3 * (Base64.encode bytes).length = 4 * bytes.length := by
  induction bytes using Base64.encode.induct with
  | case1 => exact ⟨fun c hc => absurd hc List.not_mem_nil, rfl⟩
  | case2 a => simp at h
  | case3 a b =>
    simp only [List.length_cons, List.length_nil] at h
    omega
  | case4 a b c rest ih =>
    have ha := a.toNat_lt
    have hb := b.toNat_lt
    have hc := c.toNat_lt
    simp only [List.length_cons] at h
    obtain ⟨hmem, hlength⟩ := ih (by omega)
    simp only [Base64.encode, List.mem_cons, List.length_cons]
    refine ⟨?_, by omega⟩
    rintro d (rfl | rfl | rfl | rfl | hd)
    exacts [⟨_, by omega, rfl⟩, ⟨_, by omega, rfl⟩, ⟨_, by omega, rfl⟩, ⟨_, by omega, rfl⟩, hmem d hd]

/-- The character of the standard alphabet for one of the URL-safe alphabet. -/
def stdChar (c : UInt8) : UInt8 := if c = 45 then 43 else if c = 95 then 47 else c

theorem stdChar_urlChar {n : Nat} (h : n < 64) :
    stdChar (urlChar (Base64.encodeChar n)) = Base64.encodeChar n := by
  revert n
  decide

/-- A character of the URL-safe alphabet stands for itself everywhere. -/
theorem urlChar_plain {n : Nat} (h : n < 64) :
    Query.unreserved (urlChar (Base64.encodeChar n)) = true ∧ (urlChar (Base64.encodeChar n)).toNat < 0x80 ∧
      Json.quoteRune (urlChar (Base64.encodeChar n)).toNat = [(urlChar (Base64.encodeChar n)).toNat] := by
  revert n
  decide

theorem rawURLEncode_eq {bytes : List UInt8} (h : 3 ∣ bytes.length) :
    rawURLEncode bytes = (Base64.encode bytes).map urlChar := by
  rw [rawURLEncode, List.filter_eq_self.2]
  intro c hc
  obtain ⟨n, hn, rfl⟩ := (mem_encode_of_dvd h).1 c hc
  simpa using (Base64.encodeChar_ge hn).2

/-- The encoding can be undone. -/
theorem decode_rawURLEncode {bytes : List UInt8} (h : 3 ∣ bytes.length) :
    Base64.decode ((rawURLEncode bytes).map stdChar) = some bytes := by
  have hmap : ((rawURLEncode bytes).map stdChar) = Base64.encode bytes := by
    rw [rawURLEncode_eq h, List.map_map]
    refine (List.map_congr_left fun c hc => ?_).trans (List.map_id _)
    obtain ⟨n, hn, rfl⟩ := (mem_encode_of_dvd h).1 c hc
    exact stdChar_urlChar hn
  rw [hmap, Base64.decode_encode]

/-- **Generated ids.** An id has 24 characters that pass through a query and through JSON as they are, and it
    determines the random bytes it was made of. -/
theorem generateSessionID_spec (buffer : List UInt8) (h : buffer.length = 18) :
    (generateSessionID buffer).length = 24 ∧ Query.escape (generateSessionID buffer) = generateSessionID buffer ∧
      Utf8.Valid (generateSessionID buffer) ∧
      Utf8.string (Json.quote (generateSessionID buffer)) = 34 :: (generateSessionID buffer ++ [34]) ∧
      ∀ other : List UInt8, other.length = 18 → generateSessionID other = generateSessionID buffer →
        other = buffer := by
  have hdvd : 3 ∣ buffer.length := by omega
  obtain ⟨hchars, hlength⟩ := mem_encode_of_dvd hdvd
  have hid : generateSessionID buffer = (Base64.encode buffer).map urlChar := rawURLEncode_eq hdvd
  have hplain : ∀ b ∈ generateSessionID buffer, Query.unreserved b = true ∧ b.toNat < 0x80 ∧
      Json.quoteRune b.toNat = [b.toNat] := by
    rw [hid]
    refine List.forall_mem_map.2 fun c hc => ?_
    obtain ⟨n, hn, rfl⟩ := hchars c hc
    exact urlChar_plain hn
  have hunits := Utf8.units_ascii fun b hb => (hplain b hb).2.1
  refine ⟨?_, Query.escape_eq_self fun b hb => (hplain b hb).1, ?_, ?_, fun other hother heq => ?_⟩
  · rw [hid, List.length_map]
    omega
  · rw [Utf8.Valid, hunits]
    simp
  · have hquote : (Utf8.units (generateSessionID buffer)).flatMap Json.quoteUnit =
        (generateSessionID buffer).map UInt8.toNat := by
      rw [hunits, List.flatMap_map, List.map_eq_flatMap]
      exact List.flatMap_congr fun b hb => (hplain b hb).2.2
    have hstring : Utf8.string ((generateSessionID buffer).map UInt8.toNat) = generateSessionID buffer := by
      rw [Utf8.string, List.flatMap_map]
      refine (List.flatMap_congr fun b hb => ?_).trans (List.flatMap_singleton' _)
      exact (Utf8.Encodes.one (hplain b hb).2.1).encodeRune
    rw [Json.quote, hquote, Utf8.string_cons, Utf8.string_append, hstring]
    rfl
  · have hdecode := decode_rawURLEncode (show 3 ∣ other.length by omega)
    rw [show rawURLEncode other = rawURLEncode buffer from heq, decode_rawURLEncode hdvd] at hdecode
    exact (Option.some.inj hdecode).symm

theorem generateSessionID_spec_zero : Utf8.Valid (generateSessionID (List.replicate 18 0)) :=
  (generateSessionID_spec (List.replicate 18 0) (by decide)).2.2.1

end EngineIo.Server
