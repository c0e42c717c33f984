import EngineIo.Codec.Payload
import EngineIo.Server.Goroutine

set_option autoImplicit false

/-! # The POST handler (`server.go`)

`handleSend` as a function of the request: what it answers, which packets it hands to `handlePacket`,
and the reason it closes the session with, if it does. -/

namespace EngineIo.Server

open Cursor (int64)

/-- A POST: its content type, the bytes of its body, and whether reading fails behind them. -/
structure Post where
  contentType : List Char
  bytes : List UInt8
  aborted : Bool := false
deriving DecidableEq, Repr

def octetStream : List Char := "application/octet-stream".toList

inductive SendOutcome
  /-- 400, with the reason for which the session is closed. -/
  | badRequest (closes : Option Reason)
  /-- 413. -/
  | entityTooLarge
  /-- 200, with the packets given to `handlePacket`. -/
  | ok (dispatched : List Packet)
deriving DecidableEq, Repr

/-- `io.ReadAll(io.LimitReader(r.Body, limit))`. -/
def Post.readLimited (post : Post) (limit : Int) : Option (List UInt8) :=
  if post.aborted ∧ (post.bytes.length : Int) < limit then none
  else some (post.bytes.take limit.toNat)

def handleSend (maxPayload : Int) (post : Post) : SendOutcome :=
  if octetStream <+: post.contentType then
    .badRequest (some .transportError)
  else
    match post.readLimited (int64 (maxPayload + 1)) with
    | none => .badRequest none
    | some body =>
      if (body.length : Int) > maxPayload then .entityTooLarge
      else if body = [] then .ok []
      else
        match decodePayload 4 body with
        | .error _ => .badRequest (some .parseError)
        | .ok packets => .ok packets

namespace SendOutcome

/-- The status of the response. -/
def status : SendOutcome → Nat
  | badRequest _ => 400
  | entityTooLarge => 413
  | ok _ => 200

/-- The packets given to `handlePacket`, in order. -/
def dispatched : SendOutcome → List Packet
  | ok packets => packets
  | badRequest _ | entityTooLarge => []

/-- The reason the session is closed with, if it is closed. -/
def closes : SendOutcome → Option Reason
  | badRequest reason => reason
  | entityTooLarge | ok _ => none

end SendOutcome

/-! ## The limit -/

/-- A body within the limit is read as a whole. -/
theorem Post.readLimited_eq {post : Post} {maxPayload : Int} (hmax : maxPayload < 2 ^ 63 - 1)
    (hlen : (post.bytes.length : Int) ≤ maxPayload) (haborted : post.aborted = false) :
    post.readLimited (int64 (maxPayload + 1)) = some post.bytes := by
  rw [Cursor.int64_eq_self (by omega) (by omega)]
  simp only [readLimited, haborted, Bool.false_eq_true, false_and, if_false, Option.some.injEq]
  exact List.take_of_length_le (by omega)

/-- Of a larger body one byte more than the limit is read. -/
theorem Post.readLimited_over {post : Post} {maxPayload : Int} (hmin : 0 ≤ maxPayload)
    (hmax : maxPayload < 2 ^ 63 - 1) (hlen : maxPayload < (post.bytes.length : Int)) :
    ∃ body, post.readLimited (int64 (maxPayload + 1)) = some body ∧
      (body.length : Int) = maxPayload + 1 := by
  rw [Cursor.int64_eq_self (by omega) (by omega)]
  refine ⟨post.bytes.take (maxPayload + 1).toNat, ?_, ?_⟩
  · exact if_neg fun h => absurd h.2 (by omega)
  · rw [List.length_take]
    omega

/-- At the largest limit the sum wraps, and nothing is read. -/
theorem Post.readLimited_wraps (post : Post) :
    post.readLimited (int64 (2 ^ 63 - 1 + 1)) = some [] := by
  have hwrap : int64 (2 ^ 63 - 1 + 1) = -2 ^ 63 := by decide
  rw [hwrap, readLimited, if_neg (by omega)]
  rfl

/-- What the limit is to mean for the body of a POST. -/
structure LimitRespected (maxPayload : Int) (post : Post) : Prop where
  /-- All of a body within the limit is decoded, and all of its packets are dispatched or none is. -/
  within : (post.bytes.length : Int) ≤ maxPayload →
    (∃ packets, decodePayload 4 post.bytes = .ok packets ∧
      (handleSend maxPayload post).status = 200 ∧
      (handleSend maxPayload post).dispatched = packets ∧
      (handleSend maxPayload post).closes = none) ∨
    (∃ e, decodePayload 4 post.bytes = .error e ∧
      (handleSend maxPayload post).dispatched = [] ∧
      (handleSend maxPayload post).closes = some .parseError)
  /-- A larger body changes nothing. -/
  beyond : maxPayload < (post.bytes.length : Int) →
    (handleSend maxPayload post).status = 413 ∧ (handleSend maxPayload post).dispatched = [] ∧
      (handleSend maxPayload post).closes = none
  acknowledged : (handleSend maxPayload post).status = 200 →
    decodePayload 4 post.bytes = .ok (handleSend maxPayload post).dispatched

theorem handleSend_within {maxPayload : Int} {post : Post} (hmax : maxPayload < 2 ^ 63 - 1)
    (hne : post.bytes ≠ []) (htype : ¬ octetStream <+: post.contentType)
    (hread : post.aborted = false) (hlen : (post.bytes.length : Int) ≤ maxPayload) :
    handleSend maxPayload post =
      match decodePayload 4 post.bytes with
      | .error _ => .badRequest (some .parseError)
      | .ok packets => .ok packets := by
  rw [handleSend, if_neg htype, Post.readLimited_eq hmax hlen hread]
  simp only [gt_iff_lt, Int.not_lt.2 hlen, if_false, if_neg hne]

theorem handleSend_over {maxPayload : Int} {post : Post} (hmin : 0 ≤ maxPayload)
    (hmax : maxPayload < 2 ^ 63 - 1) (htype : ¬ octetStream <+: post.contentType)
    (hlen : maxPayload < (post.bytes.length : Int)) :
    handleSend maxPayload post = .entityTooLarge := by
  obtain ⟨body, hbody, hlength⟩ := Post.readLimited_over hmin hmax hlen
  rw [handleSend, if_neg htype, hbody]
  exact if_pos (by omega)

theorem handleSend_wraps {post : Post} (htype : ¬ octetStream <+: post.contentType) :
    handleSend (2 ^ 63 - 1) post = .ok [] := by
  rw [handleSend, if_neg htype, Post.readLimited_wraps]
  rfl

/-- A v4 payload holds at least one packet. -/
theorem decodePayload_ne_nil (input : List UInt8) : decodePayload 4 input ≠ .ok [] := by
  intro h
  simp only [decodePayload, if_pos] at h
  cases hd : decodeRecordSeparatorPayload input with
  | error e => simp [hd] at h
  | ok ps =>
    obtain rfl : ps = [] := by simpa [hd] using h
    have hlength := (AllOrNothing.mapM_eq_ok_iff.1 hd).length_eq
    rw [length_splitOn] at hlength
    simp at hlength

/-- **The limit of a POST.** For every limit but the largest one and every body that is not empty, a body
    within the limit is decoded as a whole and all of its packets are dispatched or none, a larger one is
    refused and changes nothing, and what is acknowledged has been dispatched. -/
theorem limit_respected_iff (maxPayload : Int) (post : Post) (hmin : 1 ≤ maxPayload)
    (hmax : maxPayload ≤ 2 ^ 63 - 1) (hne : post.bytes ≠ [])
    (htype : ¬ octetStream <+: post.contentType) (hread : post.aborted = false) :
    LimitRespected maxPayload post ↔ maxPayload ≠ 2 ^ 63 - 1 := by
  constructor
  · rintro ⟨-, -, hack⟩ rfl
    rw [handleSend_wraps htype] at hack
    exact decodePayload_ne_nil post.bytes (hack rfl)
  · intro hne'
    have hlt : maxPayload < 2 ^ 63 - 1 := by omega
    by_cases hlen : (post.bytes.length : Int) ≤ maxPayload
    · have hsend := handleSend_within hlt hne htype hread hlen
      cases hdecode : decodePayload 4 post.bytes with
      | ok packets =>
        simp only [hdecode] at hsend
        refine ⟨fun _ => .inl ⟨packets, hdecode, ?_⟩, fun h => absurd hlen (by omega), fun _ => ?_⟩
        · simp [hsend, SendOutcome.status, SendOutcome.dispatched, SendOutcome.closes]
        · rw [hsend, hdecode]
          rfl
      | error e =>
        simp only [hdecode] at hsend
        refine ⟨fun _ => .inr ⟨e, hdecode, ?_⟩, fun h => absurd hlen (by omega), fun hok => ?_⟩
        · simp [hsend, SendOutcome.dispatched, SendOutcome.closes]
        · rw [hsend] at hok
          cases hok
    · have hsend := handleSend_over (by omega) hlt htype (Int.not_le.1 hlen)
      refine ⟨fun h => absurd h hlen, fun _ => ?_, fun hok => ?_⟩
      · simp [hsend, SendOutcome.status, SendOutcome.dispatched, SendOutcome.closes]
      · rw [hsend] at hok
        cases hok

/-- The message `a`, as the client posts it. -/
def messagePost : Post := { contentType := "text/plain; charset=UTF-8".toList, bytes := [52, 97] }

theorem limit_respected_two_bytes : LimitRespected 2 messagePost ↔ (2 : Int) ≠ 2 ^ 63 - 1 :=
  limit_respected_iff 2 messagePost (by decide) (by decide) (by decide) (by decide) rfl

/-- A server with the largest limit acknowledges the message and dispatches nothing. -/
theorem largest_limit_drops :
    handleSend (2 ^ 63 - 1) messagePost = .ok [] ∧
      decodePayload 4 messagePost.bytes = .ok [{ type := .message, data := [97] }] :=
  ⟨rfl, rfl⟩

end EngineIo.Server
