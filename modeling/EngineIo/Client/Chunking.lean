import EngineIo.Client.Socket
import EngineIo.Codec.Cursor
import EngineIo.Data.GreedyCut
import Mathlib.Data.List.Induction

set_option autoImplicit false

/-! # Chunks (`chunkPackets` in `socket.go`)

`chunkPackets` keeps the size of the payload that the packets of a chunk will be posted as: the sum of their
wire forms and of the separators between them. It ends a chunk only where the next packet does not fit any
more, so no other way of cutting the buffer takes fewer payloads. -/

namespace EngineIo.Client

open Cursor (int64 int64_eq_self)
open GreedyCut Socket

/-! ## The size of a payload -/

/-- Appending a packet to a payload adds its wire form and, behind another packet, a separator. -/
theorem length_encodePayload_concat (ps : List Packet) (p : Packet) :
    (encodePayload (ps ++ [p])).length =
      (encodePayload ps).length + (if ps = [] then 0 else 1) + (encodePacket p).length := by
  induction ps with
  | nil => simp [encodePayload]
  | cons q ps ih =>
    cases ps with
    | nil =>
      simp [encodePayload, List.intercalate]
      omega
    | cons r ps =>
      have hjoin : ∀ qs, encodePayload (q :: r :: qs) =
          encodePacket q ++ separator :: encodePayload (r :: qs) := by
        intro qs
        simp [encodePayload, List.intercalate]
      simp only [List.cons_append, hjoin, List.length_append, List.length_cons] at ih ⊢
      simp at ih ⊢
      omega

theorem length_encodePayload_le_append (ps qs : List Packet) :
    (encodePayload ps).length ≤ (encodePayload (ps ++ qs)).length := by
  induction qs using List.reverseRecOn with
  | nil => simp
  | append_singleton qs q ih =>
    have hconcat := length_encodePayload_concat (ps ++ qs) q
    rw [← List.append_assoc]
    omega

theorem length_encodePayload_le_append_left (ps qs : List Packet) :
    (encodePayload qs).length ≤ (encodePayload (ps ++ qs)).length := by
  induction ps with
  | nil => simp
  | cons p ps ih =>
    refine ih.trans ?_
    cases hps : ps ++ qs with
    | nil => exact Nat.zero_le _
    | cons q rest =>
      simp [hps, encodePayload, List.intercalate]
      omega

/-- The length of the payload a chunk is posted as. -/
def payloadSize (chunk : List Entry) : Int := (encodePayload (chunk.map Entry.packet)).length

@[simp] theorem payloadSize_nil : payloadSize [] = 0 := rfl

theorem payloadSize_concat (chunk : List Entry) (e : Entry) :
    payloadSize (chunk ++ [e]) = payloadSize chunk + (if chunk = [] then 0 else 1) + Entry.size e := by
  simp only [payloadSize, List.map_append, List.map_cons, List.map_nil, length_encodePayload_concat,
    Entry.size, List.map_eq_nil_iff]
  split <;> simp

theorem payloadSize_singleton (e : Entry) : payloadSize [e] = Entry.size e := by
  simpa using payloadSize_concat [] e

theorem payloadSize_le_append (l es : List Entry) : payloadSize l ≤ payloadSize (l ++ es) := by
  rw [payloadSize, payloadSize, List.map_append]
  exact Int.ofNat_le.2 (length_encodePayload_le_append _ _)

theorem payloadSize_le_append_left (l es : List Entry) : payloadSize es ≤ payloadSize (l ++ es) := by
  rw [payloadSize, payloadSize, List.map_append]
  exact Int.ofNat_le.2 (length_encodePayload_le_append_left _ _)

/-! ## The cut -/

/-- Packets that may be posted together: a single packet, or ones whose payload is within the maximum. -/
def Postable (m : Int) (ps : List Packet) : Prop :=
  ps.length ≤ 1 ∨ ((encodePayload ps).length : Int) ≤ m

theorem postable_hereditary (m : Int) : Hereditary (Postable m) := by
  rintro left part right - (hone | hfits)
  · refine .inl ?_
    simp only [List.length_append] at hone
    omega
  · refine .inr ?_
    have hleft := length_encodePayload_le_append_left left part
    have hright := length_encodePayload_le_append (left ++ part) right
    omega

/-- The same of entries. -/
abbrev Fits (m : Int) (chunk : List Entry) : Prop := Postable m (chunk.map Entry.packet)

theorem fits_singleton (m : Int) (e : Entry) : Fits m [e] := .inl (Nat.le_refl 1)

theorem fits_concat_iff {m : Int} {current : List Entry} (hne : current ≠ []) (e : Entry) :
    Fits m (current ++ [e]) ↔ payloadSize current + (Entry.size e + 1) ≤ m := by
  have hconcat := payloadSize_concat current e
  rw [if_neg hne] at hconcat
  have hlen : ¬ ((current ++ [e]).map Entry.packet).length ≤ 1 := by
    have hpos := List.length_pos_iff.2 hne
    simp only [List.length_map, List.length_append, List.length_singleton]
    omega
  have hsize : ((encodePayload ((current ++ [e]).map Entry.packet)).length : Int) =
      payloadSize (current ++ [e]) := rfl
  rw [Fits, Postable, or_iff_right hlen, hsize]
  omega

/-- The first chunk begins with what has been collected. -/
theorem chunkLoop_head (m : Int) (es : List Entry) (e : Entry) (current : List Entry) (size : Int) :
    ∃ chunk chunks, chunkLoop m es (e :: current) size = chunk :: chunks ∧ chunk.head? = some e := by
  induction es generalizing current size with
  | nil => exact ⟨e :: current, [], rfl, rfl⟩
  | cons e' es ih =>
    rw [chunkLoop, if_neg (by simp)]
    split
    · exact ⟨e :: current, _, rfl, rfl⟩
    · exact ih (current ++ [e']) _

/-- The invariant of the loop: `size` is the size of the payload of `current`, which fits. -/
theorem chunkLoop_cut {m : Int} {es : List Entry} (current : List Entry) (hfits : Fits m current)
    (hne : current = [] → es ≠ []) :
    IsCut (Fits m) (current ++ es) (chunkLoop m es current (payloadSize current)) ∧
      Greedy (Fits m) (chunkLoop m es current (payloadSize current)) := by
  induction es generalizing current with
  | nil =>
    simp only [chunkLoop, List.append_nil]
    refine ⟨⟨by simp, ?_, ?_⟩, List.isChain_singleton _⟩
    · exact List.forall_mem_singleton.2 fun h => hne h rfl
    · exact List.forall_mem_singleton.2 hfits
  | cons e es ih =>
    have hsingle := payloadSize_singleton e
    rw [chunkLoop]
    split
    · next hempty =>
      obtain rfl : current = [] := by simpa using hempty
      rw [payloadSize_nil, Int.zero_add, ← hsingle]
      exact ih [e] (fits_singleton m e) (by simp)
    · next hempty =>
      have hcurrent : current ≠ [] := by simpa using hempty
      have hconcat := fits_concat_iff (m := m) hcurrent e
      split
      · next hlarge =>
        -- `e` does not fit any more and begins a chunk of its own
        obtain ⟨hcut, hgreedy⟩ := ih [e] (fits_singleton m e) (by simp)
        rw [hsingle] at hcut hgreedy
        obtain ⟨chunk, chunks, hchunks, hhead⟩ := chunkLoop_head m es e [] (Entry.size e)
        refine ⟨⟨?_, ?_, ?_⟩, ?_⟩
        · rw [List.flatten_cons, hcut.flatten, List.singleton_append]
        · exact List.forall_mem_cons.2 ⟨hcurrent, hcut.ne_nil⟩
        · exact List.forall_mem_cons.2 ⟨hfits, hcut.admissible⟩
        · rw [hchunks] at hgreedy ⊢
          refine List.isChain_cons_cons.2 ⟨fun x hx => ?_, hgreedy⟩
          obtain rfl : e = x := by simpa [hhead] using hx
          rw [hconcat]
          omega
      · next hsmall =>
        have hfits' := hconcat.2 (Int.not_lt.1 hsmall)
        have hsize : payloadSize current + (Entry.size e + 1) = payloadSize (current ++ [e]) := by
          rw [payloadSize_concat, if_neg hcurrent]
          omega
        rw [hsize, List.append_cons]
        exact ih (current ++ [e]) hfits' (by simp)

theorem chunkPackets_cut {m : Int} (hm : 0 < m) {es : List Entry} (hne : es ≠ []) :
    IsCut (Fits m) es (chunkPackets es m) ∧ Greedy (Fits m) (chunkPackets es m) := by
  unfold chunkPackets
  split
  · next h =>
    have hlen : es.length ≤ 1 := by simpa [show ¬ m ≤ 0 by omega] using h
    refine ⟨⟨by simp, by simpa using hne, ?_⟩, List.isChain_singleton _⟩
    exact List.forall_mem_singleton.2 (.inl (by simpa using hlen))
  · exact chunkLoop_cut [] (.inl (Nat.zero_le 1)) fun _ => hne

/-- Packets that fit alone are cut into chunks that fit. -/
theorem chunkPackets_fits {m : Int} (hm : 0 < m) {es : List Entry} (hne : es ≠ [])
    (hes : ∀ e ∈ es, Entry.size e ≤ m) :
    ∀ chunk ∈ chunkPackets es m, chunk ≠ [] ∧ payloadSize chunk ≤ m := by
  intro chunk hchunk
  have hcut := (chunkPackets_cut hm hne).1
  have hchunkne := hcut.ne_nil chunk hchunk
  refine ⟨hchunkne, (hcut.admissible chunk hchunk).elim (fun hone => ?_) id⟩
  obtain ⟨e, rfl⟩ : ∃ e, chunk = [e] := by
    have hpos := List.length_pos_iff.2 hchunkne
    rw [List.length_map] at hone
    exact List.length_eq_one_iff.1 (by omega)
  rw [payloadSize_singleton]
  exact hes e (hcut.flatten ▸ List.mem_flatten_of_mem hchunk (List.mem_singleton_self e))

/-! ## Machine integers

The chunker's sums above are unbounded. The machine's wrap, but none of them does unless the packets
together are larger than any slice. -/

/-- The loop of `chunkPackets` with its sums in 64 bits. -/
def chunkLoop64 (maxPayload : Int) : List Entry → List Entry → Int → List (List Entry)
  | [], current, _ => [current]
  | e :: rest, current, size =>
    if current.isEmpty then chunkLoop64 maxPayload rest [e] (int64 (size + Entry.size e))
    else if int64 (size + int64 (Entry.size e + 1)) > maxPayload then
      current :: chunkLoop64 maxPayload rest [e] (int64 (0 + Entry.size e))
    else
      chunkLoop64 maxPayload rest (current ++ [e]) (int64 (size + int64 (Entry.size e + 1)))

theorem chunkLoop64_eq {m : Int} {es current : List Entry}
    (hsmall : payloadSize (current ++ es) < 2 ^ 63) :
    chunkLoop64 m es current (payloadSize current) = chunkLoop m es current (payloadSize current) := by
  induction es generalizing current with
  | nil => rfl
  | cons e es ih =>
    have hsingle := payloadSize_singleton e
    have hconcat := payloadSize_concat current e
    have hsize : 0 ≤ Entry.size e := Int.natCast_nonneg _
    have hcurrent : 0 ≤ payloadSize current := Int.natCast_nonneg _
    have hjoin : current ++ e :: es = (current ++ [e]) ++ es := by simp
    -- all that is summed is part of the payload of everything
    have hnext : payloadSize (current ++ [e]) < 2 ^ 63 := by
      have hle := payloadSize_le_append (current ++ [e]) es
      rw [← hjoin] at hle
      omega
    have hrest : payloadSize ([e] ++ es) < 2 ^ 63 := by
      have hle := payloadSize_le_append_left current (e :: es)
      rw [List.singleton_append]
      omega
    rw [chunkLoop64, chunkLoop]
    split
    · next hempty =>
      obtain rfl : current = [] := by simpa using hempty
      rw [List.nil_append] at hnext
      rw [payloadSize_nil, Int.zero_add, ← hsingle, int64_eq_self (by omega) hnext]
      exact ih hrest
    · next hempty =>
      rw [if_neg (by simpa using hempty)] at hconcat
      have hsum : payloadSize current + (Entry.size e + 1) = payloadSize (current ++ [e]) := by omega
      rw [int64_eq_self (n := Entry.size e + 1) (by omega) (by omega), hsum,
        int64_eq_self (by omega) hnext, int64_eq_self (by omega) (by omega), Int.zero_add, ← hsingle,
        ih hrest, ih (hjoin ▸ hsmall)]

/-- `chunkPackets`, in 64 bits. -/
def chunkPackets64 (ps : List Entry) (maxPayload : Int) : List (List Entry) :=
  if maxPayload ≤ 0 || ps.length ≤ 1 then [ps] else chunkLoop64 maxPayload ps [] 0

/-! ## Optimality -/

/-- The payloads that `chunkPackets` cuts the packets into. -/
def packetChunks (es : List Entry) (m : Int) : List (List Packet) :=
  (chunkPackets es m).map (List.map Entry.packet)

/-- **Chunking.** The chunks of any packets are non-empty and make up the packets, in order. Without a maximum
    there is one chunk; with a maximum every chunk of two packets or more is a payload within it, and no
    way of cutting the packets into single packets and payloads within the maximum has fewer chunks. The
    machine's sums give the same chunks. -/
theorem chunkPackets_optimal (es : List Entry) (m : Int) (hne : es ≠ []) :
    (packetChunks es m).flatten = es.map Entry.packet ∧ (∀ chunk ∈ packetChunks es m, chunk ≠ []) ∧
      (m ≤ 0 → (packetChunks es m).length = 1) ∧
      (0 < m →
        (∀ chunk ∈ packetChunks es m, 2 ≤ chunk.length → ((encodePayload chunk).length : Int) ≤ m) ∧
        ∀ cuts, IsCut (Postable m) (es.map Entry.packet) cuts →
          (packetChunks es m).length ≤ cuts.length) ∧
      (((encodePayload (es.map Entry.packet)).length : Int) < 2 ^ 63 →
        chunkPackets64 es m = chunkPackets es m) := by
  unfold packetChunks
  refine ⟨?_, ?_, fun hm => ?_, fun hm => ?_, fun hsmall => ?_⟩
  · rw [← List.map_flatten, chunkPackets_flatten]
  · by_cases hm : 0 < m
    · exact (chunkPackets_cut hm hne).1.map.ne_nil
    · have hone : chunkPackets es m = [es] := by simp [chunkPackets, show m ≤ 0 by omega]
      simpa [hone] using hne
  · simp [chunkPackets, hm]
  · obtain ⟨hcut, hgreedy⟩ := chunkPackets_cut hm hne
    refine ⟨fun chunk hchunk hlen => ?_, fun cuts hcuts => ?_⟩
    · exact (hcut.map.admissible chunk hchunk).resolve_left (by omega)
    · exact length_le (postable_hereditary m) hgreedy.map hcut.map hcuts List.suffix_rfl
  · unfold chunkPackets64 chunkPackets
    split
    · rfl
    · exact chunkLoop64_eq hsmall

/-- Of three messages of two bytes, two and their separator just fit into five bytes: there is no way to do with
    fewer than two chunks. -/
theorem chunkPackets_optimal_three :
    let es : List Entry := [⟨{ type := .message, data := [97] }, 0, 0⟩,
      ⟨{ type := .message, data := [98] }, 0, 1⟩, ⟨{ type := .message, data := [99] }, 0, 2⟩]
    (packetChunks es 5).length = 2 ∧
      ∀ cuts, IsCut (Postable 5) (es.map Entry.packet) cuts → 2 ≤ cuts.length :=
  ⟨rfl, ((chunkPackets_optimal _ 5 (by simp)).2.2.2.1 (by decide)).2⟩

end EngineIo.Client
