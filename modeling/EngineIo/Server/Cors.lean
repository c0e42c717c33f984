import EngineIo.Server.Routing

set_option autoImplicit false

/-! # Cross-origin headers (`applyCORS` in `server.go`)

The server names in `Access-Control-Allow-Origin` either every origin (`*`) or the origin of the request, or
sends no such header. A cache between the server and its clients may give a stored response to another
request unless the response says `Vary: Origin`, so a response that depends on the origin has to say so.

The code says so only in the responses that name the origin of the request. A response without the header, or
with `*`, is just as specific to its request wherever another origin would have been named. -/

namespace EngineIo.Server

/-- `http.Header`, by canonical key. -/
abbrev Header := String → List String

namespace Header

def get (h : Header) (key : String) : String := (h key).headD ""

def set (h : Header) (key value : String) : Header := Function.update h key [value]

def add (h : Header) (key value : String) : Header := Function.update h key (h key ++ [value])

end Header

structure CORSOptions where
  allowCredentials : Bool := false
  allowedOrigins : List String := []
  allowedHeaders : List String := []
deriving DecidableEq, Repr

/-- A request with its headers. -/
structure HttpRequest extends Request where
  header : Header := fun _ => []

/-- The origin that a request comes from, empty if it names none. -/
def HttpRequest.origin (r : HttpRequest) : String := r.header.get "Origin"

/-- The same request from elsewhere. -/
def HttpRequest.withOrigin (r : HttpRequest) (origins : List String) : HttpRequest :=
  { r with header := Function.update r.header "Origin" origins }

theorem HttpRequest.origin_withOrigin (r : HttpRequest) (origins : List String) :
    (r.withOrigin origins).origin = origins.headD "" := by
  simp only [origin, withOrigin, Header.get, Function.update_self]

theorem HttpRequest.withOrigin_withOrigin (r : HttpRequest) (origins : List String) :
    (r.withOrigin origins).withOrigin (r.header "Origin") = r := by
  simp [withOrigin]

/-- `http.ResponseWriter`: the headers, and the status once it is written. -/
structure ResponseWriter where
  header : Header := fun _ => []
  status : Option Nat := none

theorem serveHTTP_eq_preflight_iff {options : Options} {registered : String → Bool} {r : Request} :
    serveHTTP options registered r = .preflight ↔ r.method = .options := by
  have hpolling : handlePolling registered r ≠ .preflight := by
    fun_cases handlePolling registered r <;> intro h <;> cases h
  have hwebSocket : handleWebSocket registered r ≠ .preflight := by
    fun_cases handleWebSocket registered r <;> intro h <;> cases h
  have hwebTransport : serveWebTransport registered r ≠ .preflight := by
    fun_cases serveWebTransport registered r <;> intro h <;> cases h
  fun_cases serveHTTP options registered r <;> simp_all

namespace CORSOptions

def allowsAllOrigins (cors : CORSOptions) : Bool :=
  cors.allowedOrigins.length = 0 || cors.allowedOrigins.contains "*"

/-- `applyCORS`, the switch. -/
def allowOrigin (cors : CORSOptions) (origin : String) : String :=
  if cors.allowsAllOrigins then
    if cors.allowCredentials ∧ origin ≠ "" then origin else "*"
  else if origin ≠ "" ∧ cors.allowedOrigins.contains origin then origin
  else ""

/-- `applyCORS`, the headers of every response. -/
def originHeader (cors : CORSOptions) (origin : String) (h : Header) : Header :=
  let allowOrigin := cors.allowOrigin origin
  if allowOrigin ≠ "" then
    let h := h.set "Access-Control-Allow-Origin" allowOrigin
    let h := if allowOrigin ≠ "*" then h.add "Vary" "Origin" else h
    if cors.allowCredentials then h.set "Access-Control-Allow-Credentials" "true" else h
  else h

/-- `applyCORS`: the response, and whether the request is handled with it. -/
def applyCORS (cors : CORSOptions) (w : ResponseWriter) (r : HttpRequest) : ResponseWriter × Bool :=
  let header := cors.originHeader r.origin w.header
  if r.method = .options then
    let allowedHeaders := if cors.allowedHeaders.length = 0 then ["Content-Type"] else cors.allowedHeaders
    let header := header.set "Access-Control-Allow-Methods" "GET, POST, OPTIONS"
    let header := header.set "Access-Control-Allow-Headers" (", ".intercalate allowedHeaders)
    ({ header, status := some 204 }, true)
  else ({ w with header }, false)

/-- The headers that `applyCORS` puts on a response. -/
def answer (cors : CORSOptions) (r : HttpRequest) : Header := (cors.applyCORS {} r).1.header

/-- **Cache safety.** If two requests that differ in their origin only get different answers, both answers say
    that they depend on it. -/
def CacheSafe (cors : CORSOptions) : Prop :=
  ∀ (r : HttpRequest) (origins : List String),
    (cors.answer r "Access-Control-Allow-Origin" ≠
        cors.answer (r.withOrigin origins) "Access-Control-Allow-Origin" ∨
      cors.answer r "Access-Control-Allow-Credentials" ≠
        cors.answer (r.withOrigin origins) "Access-Control-Allow-Credentials") →
    "Origin" ∈ cors.answer r "Vary" ∧ "Origin" ∈ cors.answer (r.withOrigin origins) "Vary"

/-- What a shared cache relies on: a response that does not say `Vary: Origin` is stored once, and given to
    every request that is the same but for its origin. -/
theorem cacheSafe_iff_reusable {cors : CORSOptions} :
    cors.CacheSafe ↔ ∀ (r : HttpRequest) (origins : List String), "Origin" ∉ cors.answer r "Vary" →
      cors.answer r "Access-Control-Allow-Origin" =
          cors.answer (r.withOrigin origins) "Access-Control-Allow-Origin" ∧
        cors.answer r "Access-Control-Allow-Credentials" =
          cors.answer (r.withOrigin origins) "Access-Control-Allow-Credentials" := by
  constructor
  · intro h r origins hunmarked
    by_contra hdiffer
    exact hunmarked (h r origins (Decidable.not_and_iff_or_not.1 hdiffer)).1
  · intro h r origins hdiffer
    refine ⟨?_, ?_⟩ <;> by_contra hunmarked
    · obtain ⟨horigin, hcredentials⟩ := h r origins hunmarked
      rcases hdiffer with hne | hne
      · exact hne horigin
      · exact hne hcredentials
    · -- the other request is the same as the first but for its origin, too
      obtain ⟨horigin, hcredentials⟩ := h (r.withOrigin origins) (r.header "Origin") hunmarked
      rw [HttpRequest.withOrigin_withOrigin] at horigin hcredentials
      rcases hdiffer with hne | hne
      · exact hne horigin.symm
      · exact hne hcredentials.symm

/-! ## What a response carries -/

variable {cors : CORSOptions} {r : HttpRequest}

/-- The requests that `applyCORS` handles are the preflights of the routing. -/
theorem applyCORS_handled_iff {options : Options} {registered : String → Bool} (w : ResponseWriter) :
    (cors.applyCORS w r).2 = true ↔ serveHTTP options registered r.toRequest = .preflight := by
  rw [serveHTTP_eq_preflight_iff]
  unfold applyCORS
  split
  · next hmethod => simp [hmethod]
  · next hmethod => simp [hmethod]

/-- A preflight sets no header that `originHeader` sets. -/
theorem answer_eq_originHeader {key : String} (hmethods : key ≠ "Access-Control-Allow-Methods")
    (hheaders : key ≠ "Access-Control-Allow-Headers") :
    cors.answer r key = cors.originHeader r.origin (fun _ => []) key := by
  unfold answer applyCORS
  split
  · simp only [Header.set]
    rw [Function.update_of_ne hheaders, Function.update_of_ne hmethods]
  · rfl

/-- The headers that depend on the origin, by the value of `allowOrigin`. -/
theorem originHeader_spec (cors : CORSOptions) (origin : String) :
    cors.originHeader origin (fun _ => []) "Access-Control-Allow-Origin" =
        (if cors.allowOrigin origin = "" then [] else [cors.allowOrigin origin]) ∧
      cors.originHeader origin (fun _ => []) "Access-Control-Allow-Credentials" =
        (if cors.allowOrigin origin ≠ "" ∧ cors.allowCredentials then ["true"] else []) ∧
      cors.originHeader origin (fun _ => []) "Vary" =
        (if cors.allowOrigin origin ≠ "" ∧ cors.allowOrigin origin ≠ "*" then ["Origin"] else []) := by
  unfold originHeader
  generalize cors.allowOrigin origin = allowed
  by_cases hnone : allowed = ""
  · simp [hnone]
  · by_cases hall : allowed = "*" <;> cases cors.allowCredentials <;>
      simp [hnone, hall, Header.set, Header.add, Function.update]

/-- The response names the origin of the request. -/
def Names (cors : CORSOptions) (origin : String) : Prop :=
  cors.allowOrigin origin ≠ "" ∧ cors.allowOrigin origin ≠ "*"

theorem origin_mem_answer_vary : "Origin" ∈ cors.answer r "Vary" ↔ cors.Names r.origin := by
  rw [answer_eq_originHeader (by decide) (by decide), (originHeader_spec cors r.origin).2.2]
  unfold Names
  split
  · next hnames => simp [hnames]
  · next hnames => simp only [List.not_mem_nil, hnames]

/-- Two answers differ exactly when the values of `allowOrigin` do. -/
theorem answer_ne_iff {r' : HttpRequest} :
    (cors.answer r "Access-Control-Allow-Origin" ≠ cors.answer r' "Access-Control-Allow-Origin" ∨
      cors.answer r "Access-Control-Allow-Credentials" ≠ cors.answer r' "Access-Control-Allow-Credentials") ↔
      cors.allowOrigin r.origin ≠ cors.allowOrigin r'.origin := by
  rw [answer_eq_originHeader (by decide) (by decide), answer_eq_originHeader (by decide) (by decide),
    answer_eq_originHeader (by decide) (by decide), answer_eq_originHeader (by decide) (by decide)]
  obtain ⟨horigin, hcredentials, -⟩ := originHeader_spec cors r.origin
  obtain ⟨horigin', hcredentials', -⟩ := originHeader_spec cors r'.origin
  rw [horigin, hcredentials, horigin', hcredentials']
  constructor
  · rintro hne heq
    simp only [heq, ne_eq, not_true_eq_false, or_self] at hne
  · intro hne
    refine .inl ?_
    split <;> split <;> simp_all

/-- Cache safety is about the values of `allowOrigin` at any two origins. -/
theorem cacheSafe_iff_names :
    cors.CacheSafe ↔ ∀ origin origin', cors.allowOrigin origin ≠ cors.allowOrigin origin' →
      cors.Names origin ∧ cors.Names origin' := by
  unfold CacheSafe
  simp only [answer_ne_iff, origin_mem_answer_vary]
  constructor
  · intro h origin origin' hne
    have hpair := h { header := fun _ => [origin] } [origin']
    rw [HttpRequest.origin_withOrigin] at hpair
    exact hpair hne
  · exact fun h r origins => h r.origin (r.withOrigin origins).origin

/-- **Cache safety.** Responses are cache-safe exactly when no response depends on the origin at all: every
    origin is allowed and credentials are not, or none can be allowed. Two responses that both name the origin
    of their request are safe with any options. -/
theorem cacheSafe_iff (cors : CORSOptions) :
    (cors.CacheSafe ↔
      cors.allowsAllOrigins = true ∧ cors.allowCredentials = false ∨
        cors.allowsAllOrigins = false ∧ ∀ origin ∈ cors.allowedOrigins, origin = "") ∧
    ∀ (r : HttpRequest) (origins : List String),
      cors.Names r.origin → cors.Names (r.withOrigin origins).origin →
      "Origin" ∈ cors.answer r "Vary" ∧ "Origin" ∈ cors.answer (r.withOrigin origins) "Vary" := by
  refine ⟨?_, fun r origins h h' => ⟨origin_mem_answer_vary.2 h, origin_mem_answer_vary.2 h'⟩⟩
  rw [cacheSafe_iff_names]
  cases hall : cors.allowsAllOrigins with
  | true =>
    refine ⟨fun h => .inl ⟨rfl, ?_⟩, ?_⟩
    · -- with credentials an absent origin gets `*`, and any other is named
      cases hcredentials : cors.allowCredentials with
      | false => rfl
      | true =>
        have hnames := (h "" "https://a" (by simp [allowOrigin, hall, hcredentials])).1
        simp [Names, allowOrigin, hall] at hnames
    · rintro (⟨-, hcredentials⟩ | ⟨habsurd, -⟩)
      · intro origin origin' hne
        simp [allowOrigin, hall, hcredentials] at hne
      · cases habsurd
  | false =>
    refine ⟨fun h => .inr ⟨rfl, fun origin hmem => ?_⟩, ?_⟩
    · -- an origin that is allowed is named, and an absent one gets no header
      by_contra hne
      have hallowed : cors.allowOrigin origin = origin := by simp [allowOrigin, hall, hne, hmem]
      have habsent : cors.allowOrigin "" = "" := by simp [allowOrigin, hall]
      exact (h origin "" (by rwa [hallowed, habsent])).2.1 habsent
    · rintro (⟨habsurd, -⟩ | ⟨-, hempty⟩)
      · cases habsurd
      · have hnever : ∀ origin, cors.allowOrigin origin = "" := fun origin => by
          rw [allowOrigin, hall, if_neg (by decide), if_neg]
          rintro ⟨hne, hmem⟩
          exact hne (hempty origin (by simpa using hmem))
        exact fun origin origin' hne => absurd ((hnever origin).trans (hnever origin').symm) hne

/-- The default options are safe, and two origins that are allowed with credentials get marked responses. -/
theorem cacheSafe_default :
    CORSOptions.CacheSafe {} ∧
    let cors : CORSOptions := { allowCredentials := true }
    let r := HttpRequest.withOrigin {} ["https://a"]
    "Origin" ∈ cors.answer r "Vary" ∧ "Origin" ∈ cors.answer (r.withOrigin ["https://b"]) "Vary" :=
  ⟨(cacheSafe_iff {}).1.2 (.inl ⟨rfl, rfl⟩),
    (cacheSafe_iff { allowCredentials := true }).2 _ _ ⟨by decide +kernel, by decide +kernel⟩
      ⟨by decide +kernel, by decide +kernel⟩⟩

/-- One allowed origin: the response to another origin depends on the origin and does not say so. -/
theorem unmarked_refusal :
    let cors : CORSOptions := { allowedOrigins := ["https://a"] }
    let r := HttpRequest.withOrigin {} ["https://a"]
    let r' := r.withOrigin ["https://b"]
    cors.answer r "Access-Control-Allow-Origin" = ["https://a"] ∧
      cors.answer r' "Access-Control-Allow-Origin" = [] ∧ cors.answer r' "Vary" = [] ∧ ¬ cors.CacheSafe := by
  refine ⟨by decide +kernel, by decide +kernel, by decide +kernel, fun h => ?_⟩
  have hmarked := (h (HttpRequest.withOrigin {} ["https://a"]) ["https://b"] (by decide +kernel)).2
  exact absurd hmarked (by decide +kernel)

end CORSOptions

end EngineIo.Server
