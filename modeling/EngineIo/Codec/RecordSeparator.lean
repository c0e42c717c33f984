import EngineIo.Codec.Decoded

set_option autoImplicit false

/-! # v4 payloads and their normal form (`decodeRecordSeparatorPayload` in `payload.go`)

The v4 decoder cuts a payload at every separator, so it distributes over concatenation with a separator in
between, and it gives all packets or the error of the leftmost segment that has none. What it returns is a
non-empty list of packets that the encoder can write, and every such list is returned for some payload.
Encoding it again gives the payload back, but for the two liberties of the base64 decoder: line breaks and
stray bits (`Base64.Canonical`). -/

namespace EngineIo

/-! ## Concatenation -/

/-- **Concatenation.** A payload of two parts decodes exactly when both parts do, to the packets of both in
    order. Otherwise there are no packets, and the error is that of the first part or, when the first part
    decodes, of the second: the error of the leftmost segment that does not decode. -/
theorem decodeRecordSeparatorPayload_append (x y : List UInt8) :
    (∀ packets, decodeRecordSeparatorPayload (x ++ separator :: y) = .ok packets ↔
      ∃ ps qs, decodeRecordSeparatorPayload x = .ok ps ∧ decodeRecordSeparatorPayload y = .ok qs ∧
        packets = ps ++ qs) ∧
    ∀ e, (decodeRecordSeparatorPayload (x ++ separator :: y) = .error e ↔
        decodeRecordSeparatorPayload x = .error e ∨
          (∃ ps, decodeRecordSeparatorPayload x = .ok ps) ∧ decodeRecordSeparatorPayload y = .error e) ∧
      (decodeRecordSeparatorPayload (x ++ separator :: y) = .error e ↔
        ∃ before segment behind,
          (x ++ separator :: y).splitOn separator = before ++ segment :: behind ∧
          (∀ s ∈ before, ∃ p, decodePacket s = .ok p) ∧ decodePacket segment = .error e) := by
  have hsplit : (x ++ separator :: y).splitOn separator = x.splitOn separator ++ y.splitOn separator :=
    List.splitOn_append_cons_self x y
  unfold decodeRecordSeparatorPayload
  refine ⟨fun packets => ?_, fun e => ⟨?_, AllOrNothing.mapM_eq_error_iff⟩⟩
  · rw [hsplit]
    exact AllOrNothing.mapM_append_eq_ok_iff
  · rw [hsplit]
    exact AllOrNothing.mapM_append_eq_error_iff

/-! ## The image of the decoder -/

theorem separator_not_mem_of_mem_splitOn {l segment : List UInt8} (h : segment ∈ l.splitOn separator) :
    separator ∉ segment := by
  induction l generalizing segment with
  | nil => simp_all
  | cons b l ih =>
    rw [List.splitOn_cons_eq_if_modifyHead] at h
    split at h
    · rcases List.mem_cons.1 h with rfl | h
      · exact List.not_mem_nil
      · exact ih h
    · next hb =>
      cases hl : l.splitOn separator with
      | nil => exact absurd hl (List.splitOn_ne_nil _ _)
      | cons first rest =>
        rw [hl, List.modifyHead_cons] at h
        rcases List.mem_cons.1 h with rfl | h
        · intro hmem
          rcases List.mem_cons.1 hmem with rfl | hmem
          · simp at hb
          · exact ih (hl ▸ List.mem_cons_self ..) hmem
        · exact ih (hl ▸ List.mem_cons_of_mem _ h)

theorem separable_of_decodePacket {segment : List UInt8} {p : Packet} (h : decodePacket segment = .ok p)
    (hs : separator ∉ segment) : p.Separable := by
  cases segment with
  | nil => cases h
  | cons b rest =>
    rw [decodePacket] at h
    split at h
    · split at h
      · cases h
      · obtain rfl := Except.ok.inj h
        intro hbinary
        cases hbinary
    · split at h
      · obtain rfl := Except.ok.inj h
        exact fun _ hmem => hs (List.mem_cons_of_mem _ hmem)
      · cases h

theorem separable_of_decodeRecordSeparatorPayload {input : List UInt8} {ps : List Packet}
    (h : decodeRecordSeparatorPayload input = .ok ps) : ∀ p ∈ ps, p.Separable := by
  intro p hp
  obtain ⟨segment, hmem, hd⟩ := AllOrNothing.exists_of_mem_mapM h hp
  exact separable_of_decodePacket hd (separator_not_mem_of_mem_splitOn hmem)

/-! ## Encoding what was decoded -/

/-- A segment whose base64, if it has any, is canonical. -/
def CanonicalSegment : List UInt8 → Prop
  | [] => True
  | b :: rest => b = binaryMarker → Base64.Canonical rest

instance : (segment : List UInt8) → Decidable (CanonicalSegment segment)
  | [] => inferInstanceAs (Decidable True)
  | _ :: _ => inferInstanceAs (Decidable (_ → _))

theorem encodePacket_decodePacket_iff {segment : List UInt8} {p : Packet}
    (h : decodePacket segment = .ok p) : encodePacket p = segment ↔ CanonicalSegment segment := by
  cases segment with
  | nil => cases h
  | cons b rest =>
    rw [decodePacket] at h
    split at h
    · next hb =>
      split at h
      · cases h
      · next data hdata =>
        obtain rfl := Except.ok.inj h
        simp [encodePacket, CanonicalSegment, hb, Base64.encode_decode_iff hdata]
    · next hb =>
      split at h
      · obtain rfl := Except.ok.inj h
        simp [encodePacket, CanonicalSegment, hb, PacketType.byte, PacketType.ofByte]
      · cases h

theorem length_of_decodeRecordSeparatorPayload {input : List UInt8} {ps : List Packet}
    (h : decodeRecordSeparatorPayload input = .ok ps) : ps.length = input.count separator + 1 := by
  rw [← (AllOrNothing.mapM_eq_ok_iff.1 h).length_eq, length_splitOn]

theorem writable_of_decodeRecordSeparatorPayload {input : List UInt8} {ps : List Packet}
    (h : decodeRecordSeparatorPayload input = .ok ps) :
    ps ≠ [] ∧ ∀ p ∈ ps, p.WellFormed ∧ p.Separable := by
  refine ⟨?_, fun p hp => ?_⟩
  · have hlength := length_of_decodeRecordSeparatorPayload h
    rintro rfl
    cases hlength
  · exact ⟨wellFormed_of_decodeRecordSeparatorPayload h p hp,
      separable_of_decodeRecordSeparatorPayload h p hp⟩

theorem encodePayload_decode_iff {input : List UInt8} {ps : List Packet}
    (h : decodeRecordSeparatorPayload input = .ok ps) :
    encodePayload ps = input ↔ ∀ segment ∈ input.splitOn separator, CanonicalSegment segment := by
  obtain ⟨hne, hps⟩ := writable_of_decodeRecordSeparatorPayload h
  -- the payloads are the same when their segments are
  have hmap : encodePayload ps = input ↔ ps.map encodePacket = input.splitOn separator := by
    constructor
    · rintro rfl
      exact (splitOn_encodePayload hne hps).symm
    · intro hsegments
      rw [encodePayload, hsegments, List.intercalate_splitOn]
  rw [hmap]
  have hsegments := AllOrNothing.mapM_eq_ok_iff.1 h
  clear hmap h hne hps
  generalize input.splitOn separator = segments at hsegments
  induction hsegments with
  | nil => simp
  | cons hd _ ih => simp [encodePacket_decodePacket_iff hd, ih]

/-- **Normal form.** What a v4 payload decodes to is one packet more than it has separators, each of a valid
    type, binary only as a message, and without a separator in its text. Encoded again it decodes to the same
    packets, and it is the payload itself exactly when the base64 in the payload is canonical. Every non-empty
    list of such packets is what some payload decodes to. -/
theorem decodePayload_normalises (x : List UInt8) (ps : List Packet) :
    (decodePayload 4 x = .ok ps →
      ps.length = x.count separator + 1 ∧
      (∀ p ∈ ps, p.WellFormed ∧ p.Separable) ∧
      decodePayload 4 (encodePayload ps) = .ok ps ∧
      (encodePayload ps = x ↔ ∀ segment ∈ x.splitOn separator, CanonicalSegment segment)) ∧
    (ps ≠ [] → (∀ p ∈ ps, p.WellFormed ∧ p.Separable) → ∃ y, decodePayload 4 y = .ok ps) := by
  have hback : ps ≠ [] → (∀ p ∈ ps, p.WellFormed ∧ p.Separable) →
      decodePayload 4 (encodePayload ps) = .ok ps := fun hne hps =>
    decodePayload_v4_eq_ok.2 (decodeRecordSeparatorPayload_encodePayload hne hps)
  refine ⟨fun h => ?_, fun hne hps => ⟨_, hback hne hps⟩⟩
  have hd := decodePayload_v4_eq_ok.1 h
  obtain ⟨hne, hps⟩ := writable_of_decodeRecordSeparatorPayload hd
  exact ⟨length_of_decodeRecordSeparatorPayload hd, hps, hback hne hps, encodePayload_decode_iff hd⟩

/-- The message `a` in base64 with a line break and a stray bit, and the packet `2`: the payload decodes, and
    encoding its packets gives another one. -/
theorem decodePayload_normalises_line_break :
    decodePayload 4 [98, 10, 89, 82, 61, 61, 0x1e, 50] =
        .ok [{ type := .message, data := [97], isBinary := true }, { type := .ping }] ∧
      decodePayload 4 (encodePayload
        [{ type := .message, data := [97], isBinary := true }, { type := .ping }]) =
        .ok [{ type := .message, data := [97], isBinary := true }, { type := .ping }] ∧
      encodePayload [{ type := .message, data := [97], isBinary := true }, { type := .ping }] ≠
        [98, 10, 89, 82, 61, 61, 0x1e, 50] := by
  have hd : decodePayload 4 [98, 10, 89, 82, 61, 61, 0x1e, 50] =
      .ok [{ type := .message, data := [97], isBinary := true }, { type := .ping }] := by
    decide +kernel
  obtain ⟨-, -, hback, hsame⟩ := (decodePayload_normalises _ _).1 hd
  refine ⟨hd, hback, fun heq => ?_⟩
  exact absurd (hsame.1 heq) (by decide +kernel)

end EngineIo
