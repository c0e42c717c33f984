import EngineIo.Client.Chunking
import EngineIo.Server.Http

set_option autoImplicit false

/-! # A client's flush over long polling, against the server's POST handler

`sendChunks` (`socket.go`) cuts the packets into payloads within the negotiated maximum and posts them one
after another (`PollingTransport.Send`, `write` and `request`); `handleSend` reads each with the same
maximum. The chunker counts what `EncodePayload` will write, so no payload is refused. -/

namespace EngineIo.EndToEnd

open Client Client.Socket Cursor Server

/-! ## The client's side -/

/-- What `request` got back: a request without a body is a GET, and only a POST reaches `handleSend`. -/
inductive Answer
  | polled
  | posted (outcome : SendOutcome)
deriving DecidableEq, Repr

/-- The content type of a POST. -/
def textPlain : List Char := "text/plain; charset=UTF-8".toList

/-- `PollingTransport.request`, with the server that answers it. -/
def request (serve : Post → SendOutcome) (data : List UInt8) : Answer :=
  if data = [] then .polled
  else .posted (serve { contentType := textPlain, bytes := data })

structure Upload where
  /-- How many packets were written before any error. -/
  sent : Nat
  answers : List Answer
deriving DecidableEq, Repr

/-- `sendChunks` over an open polling transport, behind `sent` packets: it stops at the first answer
    that is not 200. -/
def sendChunks (serve : Post → SendOutcome) : List (List Entry) → Nat → Upload
  | [], sent => { sent, answers := [] }
  | chunk :: chunks, sent =>
    let answer := request serve (encodePayload (chunk.map Entry.packet))
    match answer with
    | .posted (.badRequest _) => { sent, answers := [answer] }
    | .posted .entityTooLarge => { sent, answers := [answer] }
    | _ =>
      let rest := sendChunks serve chunks (sent + chunk.length)
      { rest with answers := answer :: rest.answers }

/-! ## The server's side -/

theorem not_octetStream_textPlain : ¬ octetStream <+: textPlain := by decide

/-- A payload of a chunk that fits is accepted, and its packets are dispatched. -/
theorem request_accepted {m : Int} (hm : m < 2 ^ 63 - 1) {chunk : List Entry} (hne : chunk ≠ [])
    (hfits : payloadSize chunk ≤ m)
    (hps : ∀ e ∈ chunk, e.packet.WellFormed ∧ e.packet.Separable) :
    request (handleSend m) (encodePayload (chunk.map Entry.packet)) =
      .posted (.ok (chunk.map Entry.packet)) := by
  have hpackets : chunk.map Entry.packet ≠ [] := by simpa using hne
  have hbody := encodePayload_ne_nil hpackets
  have hdecode : decodeRecordSeparatorPayload (encodePayload (chunk.map Entry.packet)) =
      .ok (chunk.map Entry.packet) := by
    refine decodeRecordSeparatorPayload_encodePayload hpackets fun p hp => ?_
    obtain ⟨e, he, rfl⟩ := List.mem_map.1 hp
    exact hps e he
  unfold payloadSize at hfits
  rw [request, if_neg hbody, handleSend, if_neg not_octetStream_textPlain, Post.readLimited_eq hm hfits rfl]
  simp only [gt_iff_lt, Int.not_lt.2 hfits, if_false, if_neg hbody, decodePayload, if_pos, hdecode]

theorem sendChunks_ok {serve : Post → SendOutcome} {chunks : List (List Entry)}
    (h : ∀ chunk ∈ chunks, request serve (encodePayload (chunk.map Entry.packet)) =
      .posted (.ok (chunk.map Entry.packet))) (sent : Nat) :
    sendChunks serve chunks sent =
      { sent := sent + chunks.flatten.length
        answers := chunks.map fun chunk => .posted (.ok (chunk.map Entry.packet)) } := by
  induction chunks generalizing sent with
  | nil => rfl
  | cons chunk chunks ih =>
    obtain ⟨hhead, htail⟩ := List.forall_mem_cons.1 h
    simp only [sendChunks, hhead, ih htail, List.flatten_cons, List.length_append, List.map_cons,
      Nat.add_assoc]

/-- **Chunking agrees with the limit.** With the same maximum on both sides, every chunk of a flush is
    posted and accepted, and the packets dispatched over all the POSTs are the packets flushed. -/
theorem sendChunks_accepted (m : Int) (hm : 0 < m) (hm' : m < 2 ^ 63 - 1) (es : List Entry)
    (hne : es ≠ [])
    (hps : ∀ e ∈ es, e.packet.WellFormed ∧ e.packet.Separable)
    (hsize : ∀ e ∈ es, ((encodePacket e.packet).length : Int) ≤ m) :
    ∃ bodies : List (List Packet),
      sendChunks (handleSend m) (chunkPackets es m) 0 =
        { sent := es.length, answers := bodies.map fun body => .posted (.ok body) } ∧
      bodies.flatten = es.map Entry.packet := by
  have hfits := chunkPackets_fits hm hne hsize
  have hflatten := chunkPackets_flatten es m
  have haccepted : ∀ chunk ∈ chunkPackets es m,
      request (handleSend m) (encodePayload (chunk.map Entry.packet)) =
        .posted (.ok (chunk.map Entry.packet)) := by
    intro chunk hchunk
    refine request_accepted hm' (hfits chunk hchunk).1 (hfits chunk hchunk).2 fun e he => ?_
    exact hps e (hflatten ▸ List.mem_flatten_of_mem hchunk he)
  refine ⟨(chunkPackets es m).map (List.map Entry.packet), ?_, ?_⟩
  · rw [sendChunks_ok haccepted, hflatten, Nat.zero_add, List.map_map]
    rfl
  · rw [← List.map_flatten, hflatten]

/-- Two messages of two bytes under a maximum that the two together, with the separator, exceed by one:
    they go out in two POSTs. -/
theorem sendChunks_two_posts :
    ∃ bodies : List (List Packet),
      sendChunks (handleSend 4)
        (chunkPackets [⟨{ type := .message, data := [97] }, 0, 0⟩,
          ⟨{ type := .message, data := [98] }, 0, 1⟩] 4) 0 =
        { sent := 2, answers := bodies.map fun body => .posted (.ok body) } ∧
      bodies.flatten = [{ type := .message, data := [97] }, { type := .message, data := [98] }] :=
  sendChunks_accepted 4 (by decide) (by decide)
    [⟨{ type := .message, data := [97] }, 0, 0⟩, ⟨{ type := .message, data := [98] }, 0, 1⟩] (by decide)
    (by
      simp only [List.forall_mem_cons]
      exact ⟨⟨⟨by decide, by decide⟩, by decide⟩, ⟨⟨by decide, by decide⟩, by decide⟩, by simp⟩)
    (by decide)

end EngineIo.EndToEnd
