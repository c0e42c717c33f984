import EngineIo.Codec.OpenPacket
import EngineIo.Data.Query
import EngineIo.Server.Routing

set_option autoImplicit false

/-! # Addresses of requests (`resolveURL` in `socket.go`, `request` in `socket_transport_polling.go`)

A transport is given a URL whose query names the protocol version, the transport and the session. A poll adds
its cache-busting value to the text of that URL, and the text is parsed again. The server reads the query and
routes by it.

Everything but the query and the fragment of a URL is left alone on the way and kept as one text. The caller may
have put a query of their own into the URL of the server; what becomes of its other keys is part of the result. -/

namespace EngineIo.Client

open Query (Text Values)

def question : UInt8 := 63
def hash : UInt8 := 35

/-- A parsed URL. -/
structure URL where
  /-- What stands in front of the query. -/
  base : Text
  rawQuery : Text
  fragment : Text
  question_not_mem : question ∉ base
  hash_not_mem : hash ∉ base
  hash_not_mem_query : hash ∉ rawQuery

namespace URL

/-- `String`. -/
def string (u : URL) : Text :=
  u.base ++ (if u.rawQuery = [] then [] else question :: u.rawQuery) ++
    (if u.fragment = [] then [] else hash :: u.fragment)

/-- `url.Parse`: the fragment is cut off first. -/
def parse (s : Text) : URL where
  base := (Query.cut question (Query.cut hash s).1).1
  rawQuery := (Query.cut question (Query.cut hash s).1).2
  fragment := (Query.cut hash s).2
  question_not_mem := Query.not_mem_cut_fst question _
  hash_not_mem h := Query.not_mem_cut_fst hash s (Query.mem_of_mem_cut (.inl h))
  hash_not_mem_query h := Query.not_mem_cut_fst hash s (Query.mem_of_mem_cut (.inr h))

end URL

/-! ## The client -/

section

variable (limit : Nat)

/-- The query parameters of a transport's URL before there is a session. -/
def transportValues (u : URL) (type : TransportType) : Values :=
  ((Query.parse limit u.rawQuery).set (goBytes "EIO") (goBytes "4")).set (goBytes "transport") type.name

def addressValues (u : URL) (sessionID : Text) (type : TransportType) : Values :=
  if sessionID = [] then transportValues limit u type
  else (transportValues limit u type).set (goBytes "sid") sessionID

theorem hash_not_mem_encode (vs : Values) : hash ∉ vs.encode :=
  Query.not_mem_encode (by decide) (by decide) (by decide) (by decide) (by decide) vs

/-- `resolveURL`. -/
def resolveURL (u : URL) (sessionID : Text) (type : TransportType) : URL :=
  { URL.parse u.string with
    rawQuery := (addressValues limit u sessionID type).encode
    hash_not_mem_query := hash_not_mem_encode _ }

end

/-- The URL of a `request`: a GET has the value `t` of the generator appended. -/
def requestURL (u : URL) (data : List UInt8) (t : Text) : Server.Method × URL :=
  if data.length ≠ 0 then (.post, URL.parse u.string)
  else (.get, URL.parse (u.string ++ (goBytes "&t=" ++ Query.escape t)))

end EngineIo.Client

namespace EngineIo.Server

/-- What `ServeHTTP` reads from the query of a request. -/
def Request.ofQuery (limit : Nat) (method : Method) (rawQuery : Query.Text) : Request :=
  let query := Query.parse limit rawQuery
  { method
    eio := goString (query.get (goBytes "EIO"))
    transport := TransportType.ofName (query.get (goBytes "transport"))
    sid := goString (query.get (goBytes "sid")) }

end EngineIo.Server

namespace EngineIo.Client

open Query (Text Values)

/-! ## Parsing what was written -/

namespace URL

theorem string_eq (u : URL) (h : u.rawQuery ≠ []) :
    u.string = u.base ++ question :: u.rawQuery ++ (if u.fragment = [] then [] else hash :: u.fragment) := by
  rw [string, if_neg h]

/-- A URL with a query is parsed back, with what was appended to its text in the fragment or else in the
    query. -/
theorem parse_string_append {u : URL} (h : u.rawQuery ≠ []) {more : Text} (hmore : hash ∉ more) :
    (parse (u.string ++ more)).rawQuery = if u.fragment = [] then u.rawQuery ++ more else u.rawQuery := by
  rw [string_eq u h]
  by_cases hfragment : u.fragment = []
  · have hnot : hash ∉ u.base ++ question :: (u.rawQuery ++ more) := by
      have hne : hash ≠ question := by decide
      simp [u.hash_not_mem, u.hash_not_mem_query, hmore, hne]
    rw [if_pos hfragment, if_pos hfragment, List.append_nil, List.append_assoc, List.cons_append]
    simp only [parse, Query.cut_of_not_mem hnot, Query.cut_append u.question_not_mem]
  · have hnot : hash ∉ u.base ++ question :: u.rawQuery := by
      have hne : hash ≠ question := by decide
      simp [u.hash_not_mem, u.hash_not_mem_query, hne]
    rw [if_neg hfragment, if_neg hfragment, List.append_assoc, List.cons_append]
    simp only [parse, Query.cut_append hnot, Query.cut_append u.question_not_mem]

theorem parse_string_rawQuery {u : URL} (h : u.rawQuery ≠ []) : (parse u.string).rawQuery = u.rawQuery := by
  have hparse := parse_string_append h (show hash ∉ [] from List.not_mem_nil)
  rwa [List.append_nil, List.append_nil, ite_self] at hparse

/-- The fragment of a URL is parsed back. -/
theorem parse_string_fragment (u : URL) : (parse u.string).fragment = u.fragment := by
  have hne : hash ≠ question := by decide
  have hnot : hash ∉ u.base ++ (if u.rawQuery = [] then [] else question :: u.rawQuery) := by
    split <;> simp [u.hash_not_mem, u.hash_not_mem_query, hne]
  rw [parse, string]
  by_cases hfragment : u.fragment = []
  · simp only [if_pos hfragment, List.append_nil, Query.cut_of_not_mem hnot]
    exact hfragment.symm
  · simp only [if_neg hfragment, Query.cut_append hnot]

end URL

/-! ## What the server reads -/

variable (limit : Nat) (u : URL) (sessionID : Text) (type : TransportType)

/-- The values of a key that the client asks for. -/
def expected (key : Text) : List Text :=
  if key = goBytes "EIO" then [goBytes "4"]
  else if key = goBytes "transport" then [type.name]
  else if key = goBytes "sid" ∧ sessionID ≠ [] then [sessionID]
  else (Query.parse limit u.rawQuery).all key

theorem all_addressValues (key : Text) :
    (addressValues limit u sessionID type).all key = expected limit u sessionID type key := by
  have heio : goBytes "EIO" ≠ goBytes "sid" ∧ goBytes "EIO" ≠ goBytes "transport" := by decide
  have htransport : goBytes "transport" ≠ goBytes "sid" := by decide
  unfold addressValues transportValues expected
  by_cases hsid : sessionID = []
  · simp only [hsid, if_true, Values.all_set, ne_eq, not_true_eq_false, and_false, if_false]
    split_ifs with h1 h2 <;> simp_all
  · simp only [hsid, if_false, Values.all_set, ne_eq, not_false_eq_true, and_true]
    split_ifs <;> simp_all

theorem addressValues_ne_nil : addressValues limit u sessionID type ≠ [] := by
  intro h
  have hall : (addressValues limit u sessionID type).all (goBytes "EIO") = [goBytes "4"] := by
    rw [all_addressValues, expected, if_pos rfl]
  rw [h] at hall
  cases hall

theorem length_transportValues_le :
    (transportValues limit u type).length ≤ (Query.parse limit u.rawQuery).length + 2 := by
  have hversion := Values.length_set_le (Query.parse limit u.rawQuery) (goBytes "EIO") (goBytes "4")
  exact (Values.length_set_le ..).trans (Nat.add_le_add_right hversion 1)

theorem length_addressValues_le :
    (addressValues limit u sessionID type).length ≤ (Query.parse limit u.rawQuery).length + 3 := by
  have htransport := length_transportValues_le limit u type
  unfold addressValues
  split
  · omega
  · exact (Values.length_set_le ..).trans (Nat.add_le_add_right htransport 1)

theorem resolveURL_rawQuery_ne_nil : (resolveURL limit u sessionID type).rawQuery ≠ [] :=
  Query.encode_ne_nil (addressValues_ne_nil limit u sessionID type)

theorem resolveURL_fragment : (resolveURL limit u sessionID type).fragment = u.fragment :=
  u.parse_string_fragment

/-- The text that a poll appends is an escaped pair. -/
theorem append_t (t : Text) : goBytes "&t=" ++ Query.escape t = Query.amp :: Query.encodePair (goBytes "t", t) := by
  have hkey : Query.escape (goBytes "t") = goBytes "t" := by decide
  rw [Query.encodePair, hkey]
  rfl

section

variable {limit u} {limit' : Nat} (h : (Query.parse limit u.rawQuery).length + 4 ≤ limit') (data : List UInt8)
  (t : Text)
include h

/-- The pairs of a request's query, as they are parsed. -/
theorem parse_requestURL :
    Query.parse limit' (requestURL (resolveURL limit u sessionID type) data t).2.rawQuery =
      (addressValues limit u sessionID type).sorted ++
        if data.length = 0 ∧ u.fragment = [] then [(goBytes "t", t)] else [] := by
  have hlength := length_addressValues_le limit u sessionID type
  have hne := addressValues_ne_nil limit u sessionID type
  have hraw := resolveURL_rawQuery_ne_nil limit u sessionID type
  have hquery : (resolveURL limit u sessionID type).rawQuery = (addressValues limit u sessionID type).encode := rfl
  have hparse : Query.parse limit' (resolveURL limit u sessionID type).rawQuery =
      (addressValues limit u sessionID type).sorted :=
    Query.parse_encode (by omega) hne
  unfold requestURL
  split
  · rename_i hdata
    rw [URL.parse_string_rawQuery hraw, hparse, if_neg (fun h => hdata h.1), List.append_nil]
  · rename_i hdata
    have hhash : hash ∉ goBytes "&t=" ++ Query.escape t := by
      have hkey : hash ∉ goBytes "&t=" := by decide
      have hvalue := Query.not_mem_escape (b := hash) (by decide) (by decide) (by decide) t
      simp [hkey, hvalue]
    rw [URL.parse_string_append hraw hhash, resolveURL_fragment]
    by_cases hfragment : u.fragment = []
    · have hcount : (resolveURL limit u sessionID type).rawQuery.count Query.amp + 2 ≤ limit' := by
        rw [hquery, Query.count_amp_encode]
        have hpos := List.length_pos_of_ne_nil hne
        omega
      rw [if_pos hfragment, append_t, Query.parse_append_pair hcount, hparse, if_pos ⟨not_not.1 hdata, hfragment⟩]
    · rw [if_neg hfragment, hparse, if_neg (fun h => hfragment h.2), List.append_nil]

/-- The values of a key in it. -/
theorem all_requestURL (key : Text) :
    (Query.parse limit' (requestURL (resolveURL limit u sessionID type) data t).2.rawQuery).all key =
      expected limit u sessionID type key ++
        if key = goBytes "t" ∧ data.length = 0 ∧ u.fragment = [] then [t] else [] := by
  rw [parse_requestURL sessionID type h, Values.all_append, Values.all_sorted, all_addressValues]
  by_cases hpoll : data.length = 0 ∧ u.fragment = []
  · rw [if_pos hpoll, Values.all_singleton]
    simp [hpoll]
  · rw [if_neg hpoll, if_neg (fun h => hpoll h.2)]
    rfl

/-- What the server reads in it. A client without a session leaves the `sid` of the configured URL in place. -/
theorem ofQuery_requestURL (method : Server.Method) :
    Server.Request.ofQuery limit' method (requestURL (resolveURL limit u sessionID type) data t).2.rawQuery =
      { method, eio := "4", transport := some type,
        sid := goString
          (if sessionID = [] then (Query.parse limit u.rawQuery).get (goBytes "sid") else sessionID) } := by
  have hkeys : goBytes "EIO" ≠ goBytes "t" ∧ goBytes "transport" ≠ goBytes "t" ∧ goBytes "sid" ≠ goBytes "t" ∧
      goBytes "transport" ≠ goBytes "EIO" ∧ goBytes "sid" ≠ goBytes "EIO" ∧
      goBytes "sid" ≠ goBytes "transport" := by decide
  obtain ⟨heio, htransport, hsid, h1, h2, h3⟩ := hkeys
  simp only [Server.Request.ofQuery, Values.get, all_requestURL sessionID type h, heio, htransport, hsid, expected,
    h1, h2, h3, false_and, if_true, if_false, true_and, List.append_nil, List.headD_cons, TransportType.ofName_name]
  by_cases hempty : sessionID = []
  · rw [if_neg (not_not.2 hempty), if_pos hempty]
    rfl
  · rw [if_pos hempty, if_neg hempty]
    rfl

/-- **What reaches the server.** Every request names the protocol version and the transport once, in place of what the
    configured URL has for them, and the session once if there is one; every other key of that URL arrives with all
    its values in order. The value of a poll comes after those of its key, unless the URL has a fragment: then it
    ends up there and does not reach the server. -/
theorem requestURL_query (method : Server.Method) :
    Server.Request.ofQuery limit' method (requestURL (resolveURL limit u sessionID type) data t).2.rawQuery =
        { method, eio := "4", transport := some type,
          sid := goString
            (if sessionID = [] then (Query.parse limit u.rawQuery).get (goBytes "sid") else sessionID) } ∧
      ∀ key, (Query.parse limit' (requestURL (resolveURL limit u sessionID type) data t).2.rawQuery).all key =
        (if key = goBytes "EIO" then [goBytes "4"]
          else if key = goBytes "transport" then [type.name]
          else if key = goBytes "sid" ∧ sessionID ≠ [] then [sessionID]
          else (Query.parse limit u.rawQuery).all key) ++
            if key = goBytes "t" ∧ data.length = 0 ∧ u.fragment = [] then [t] else [] :=
  ⟨ofQuery_requestURL sessionID type h data t method, all_requestURL sessionID type h data t⟩

end

/-- A configured URL with keys of its own. -/
def configured : URL where
  base := goBytes "/engine.io/"
  rawQuery := goBytes "token=a%20b&EIO=3"
  fragment := []
  question_not_mem := by decide
  hash_not_mem := by decide
  hash_not_mem_query := by decide

theorem parse_configured : Query.parse 10 configured.rawQuery =
    [(goBytes "token", goBytes "a b"), (goBytes "EIO", goBytes "3")] := by decide +kernel

/-- The version in the configured URL is replaced. -/
theorem requestURL_query_configured :
    let query := Query.parse 10
      (requestURL (resolveURL 10 configured (goBytes "s") .polling) [] (goBytes "x")).2.rawQuery
    query.all (goBytes "token") = [goBytes "a b"] ∧ query.all (goBytes "EIO") = [goBytes "4"] ∧
      query.all (goBytes "sid") = [goBytes "s"] ∧ query.all (goBytes "t") = [goBytes "x"] := by
  have hlimit : (Query.parse 10 configured.rawQuery).length + 4 ≤ 10 := by simp [parse_configured]
  have hquery := (requestURL_query (goBytes "s") .polling hlimit [] (goBytes "x") .get).2
  rw [parse_configured] at hquery
  intro query
  exact ⟨(hquery _).trans (by decide), (hquery _).trans (by decide), (hquery _).trans (by decide),
    (hquery _).trans (by decide)⟩

end EngineIo.Client
