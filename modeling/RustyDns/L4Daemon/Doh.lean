import RustyDns.Lib.Base64Url
import RustyDns.L4Daemon.LogRuns

/-!
# DNS over HTTPS

`rustydnsd/src/doh.rs`: the two forms of a request, the checks before a message is parsed, and the
response made of what the handler sends. A message is decoded and a response encoded by hickory
(`Codec`); what axum answers by itself is a parameter (`Axum`), with the status it answers with.

The handler is awaited before the receiver of its response is, so the deadline of `timeout` starts
when the response is already there (`Times`).

Results:
* `route_asked`, `route_refused`: a request is the DNS request it carries, or has no effect.
* `doh_run_is_dns_run`: the same of whole runs.
-/

namespace RustyDns.L4.Doh

open RustyDns.Lib RustyDns.L1 RustyDns.L3 RustyDns.L4.Pipeline

/-! ## HTTP -/

/-- `Method`: `get` of axum also serves HEAD. -/
inductive Method where
  | get
  | head
  | post
  | other
  deriving DecidableEq, Repr

/-- A request as axum hands it over: `dns` is the parameter of that name of a query string that
deserializes. -/
structure HttpRequest where
  method : Method
  path : Str
  dns : Option Str
  headers : List (Str × List UInt8)
  body : List UInt8
  deriving DecidableEq

structure HttpResponse where
  status : Nat
  headers : List (Str × Str)
  body : List UInt8
  deriving DecidableEq

/-- What axum answers before a handler runs. -/
structure Axum where
  notFound : HttpResponse
  methodNotAllowed : HttpResponse
  queryRejection : HttpResponse
  bodyTooLarge : HttpResponse
  notFound_status : notFound.status = 404
  methodNotAllowed_status : methodNotAllowed.status = 405
  queryRejection_status : queryRejection.status = 400
  bodyTooLarge_status : bodyTooLarge.status = 413

/-- hickory's encoding of messages. -/
structure Codec (H : Hickory) where
  decode : List UInt8 → Option (Metadata × List (Query H) × Option Edns)
  emit : Response H → Except Str (List UInt8)

/-- mirrors crates/rustydnsd/src/doh.rs:40-40 -/
def maxDohMessageBytes : Nat := 65535

def dohPath : Str := "/dns-query".toList

/-- mirrors crates/rustydnsd/src/doh.rs:225-231 -/
def badRequest (message : String) : HttpResponse where
  status := 400
  headers := [("Cache-Control".toList, "no-store".toList)]
  body := Str.asBytes message.toList

/-- mirrors crates/rustydnsd/src/doh.rs:233-239 -/
def serverError (message : String) : HttpResponse where
  status := 500
  headers := [("Cache-Control".toList, "no-store".toList)]
  body := Str.asBytes message.toList

def payloadTooLarge : HttpResponse where
  status := 413
  headers := [("Cache-Control".toList, "no-store".toList)]
  body := Str.asBytes "DNS message too large".toList

def unsupportedMediaType : HttpResponse where
  status := 415
  headers := [("accept".toList, "application/dns-message".toList)]
  body := Str.asBytes "content-type must be application/dns-message".toList

def dnsMessage (bytes : List UInt8) : HttpResponse where
  status := 200
  headers := [("Content-Type".toList, "application/dns-message".toList),
    ("Cache-Control".toList, "no-store".toList)]
  body := bytes

/-- `HeaderValue::to_str`: visible ASCII and tabs. -/
def headerText (value : List UInt8) : Option Str :=
  if value.all fun b => (32 ≤ b && b < 127) || b == 9 then
    some (value.map fun b => Char.ofNat b.toNat)
  else none

/-- mirrors crates/rustydnsd/src/doh.rs:157-166 -/
def isDnsMessageContentType (headers : List (Str × List UInt8)) : Bool :=
  match (headers.lookup "content-type".toList).bind headerText with
  | some v =>
    match (v.splitBy (· == ';')).head? with
    | some t => t.trim.toAsciiLowercase == "application/dns-message".toList
    | none => false
  | none => false

/-! ## The deadline -/

/-- `Duration::MAX`, in nanoseconds. -/
def durationMax : Nat := (2 ^ 64 - 1) * 1000000000 + 999999999

/-- `None` where the addition of the source would abort.
mirrors crates/rustydnsd/src/doh.rs:56-58 -/
def dohDeadline (upstreamTimeout : Nat) : Option Nat :=
  let doubled := min (upstreamTimeout * 2) durationMax
  if doubled + 500000000 ≤ durationMax then some (max (doubled + 500000000) 5000000000) else none

/-- When the handler sent its response, and when it returned. -/
structure Times where
  sent : Nat
  finished : Nat
  sent_le : sent ≤ finished

/-- The receiving end of the channel: a value since some time, closed by the drop of its sender, or
neither. -/
inductive Receiver where
  | sent (at_ : Nat) (bytes : List UInt8)
  | closed
  | waiting
  deriving DecidableEq

/-- What `timeout(deadline, rx)` gives at the time `now`: `none` is the elapsed deadline. -/
def timeout (deadline now : Nat) : Receiver → Option (Except Unit (List UInt8))
  | .sent t bytes => if t ≤ now + deadline then some (.ok bytes) else none
  | .closed => some (.error ())
  | .waiting => none

/-- The channel after `send_response`: a response that does not encode leaves it without a value, and
the sender is dropped with the handler.
mirrors crates/rustydnsd/src/doh.rs:259-283 -/
def sendResponse (times : Times) : Except Str (List UInt8) → Receiver
  | .ok bytes => .sent times.sent bytes
  | .error _ => .closed

/-! ## The handlers -/

section
variable {H : Hickory} (S : HickoryServer H) (T : UnicodeTables) (hashQname : Str → UInt64)
  (C : Codec H) (A : Axum) (h : Pipeline.DnsHandler H)

/-- `Request::from_bytes` with `Protocol::Https`. -/
def fromBytes (src : IpAddr) (bytes : List UInt8) : Option (Request H) :=
  (C.decode bytes).map fun m =>
    { src, protocol := .other, metadata := m.1, queries := m.2.1, edns := m.2.2 }

/-- The HTTP response to what the handler sent. -/
def received (deadline : Nat) (times : Times) (response : Response H) : HttpResponse :=
  match timeout deadline times.finished (sendResponse times (C.emit response)) with
  | some (.ok bytes) => dnsMessage bytes
  | some (.error ()) => serverError "failed to build DNS response"
  | none => serverError "DNS response timed out"

/-- mirrors crates/rustydnsd/src/doh.rs:168-223 -/
def handleDnsMessage (deadline : Nat) (clock : Clock) (times : Times) (src : IpAddr)
    (bytes : List UInt8) : StateM (World × Journal) HttpResponse :=
  if bytes.isEmpty then pure (badRequest "empty DNS message")
  else if maxDohMessageBytes < bytes.length then pure payloadTooLarge
  else
    match fromBytes C src bytes with
    | none => pure (badRequest "malformed DNS message")
    | some request => do
      let response ← h.handleLogged S T hashQname clock request
      pure (received C deadline times response)

/-- mirrors crates/rustydnsd/src/doh.rs:122-133 -/
def handleGet (deadline : Nat) (clock : Clock) (times : Times) (src : IpAddr) (dns : Str) :
    StateM (World × Journal) HttpResponse :=
  match Base64Url.decode dns with
  | none => pure (badRequest "invalid base64url in dns parameter")
  | some bytes => handleDnsMessage S T hashQname C h deadline clock times src bytes

/-- mirrors crates/rustydnsd/src/doh.rs:135-152 -/
def handlePost (deadline : Nat) (clock : Clock) (times : Times) (src : IpAddr)
    (headers : List (Str × List UInt8)) (body : List UInt8) :
    StateM (World × Journal) HttpResponse :=
  if isDnsMessageContentType headers then
    handleDnsMessage S T hashQname C h deadline clock times src body
  else pure unsupportedMediaType

/-- A request with when and from where it comes. -/
structure Arrival where
  clock : Clock
  times : Times
  src : IpAddr
  request : HttpRequest

/-- The extractors of a GET: a query string without the parameter is refused. -/
def extractGet (deadline : Nat) (arrival : Arrival) : StateM (World × Journal) HttpResponse :=
  match arrival.request.dns with
  | none => pure A.queryRejection
  | some dns =>
    handleGet S T hashQname C h deadline arrival.clock arrival.times arrival.src dns

/-- The extractors of a POST: the body is read, up to the limit, before the handler looks at the
headers. -/
def extractPost (deadline : Nat) (arrival : Arrival) : StateM (World × Journal) HttpResponse :=
  if maxDohMessageBytes < arrival.request.body.length then pure A.bodyTooLarge
  else
    handlePost S T hashQname C h deadline arrival.clock arrival.times arrival.src
      arrival.request.headers arrival.request.body

/-- The router of `serve`.
mirrors crates/rustydnsd/src/doh.rs:66-109 -/
def route (deadline : Nat) (arrival : Arrival) : StateM (World × Journal) HttpResponse :=
  if arrival.request.path ≠ dohPath then pure A.notFound
  else
    match arrival.request.method with
    | .get => extractGet S T hashQname C A h deadline arrival
    | .head => do
      let response ← extractGet S T hashQname C A h deadline arrival
      pure { response with body := [] }
    | .post => extractPost S T hashQname C A h deadline arrival
    | .other => pure A.methodNotAllowed

/-- Requests served one after another. -/
def serve (deadline : Nat) (arrivals : List Arrival) :
    StateM (World × Journal) (List HttpResponse) :=
  arrivals.mapM (route S T hashQname C A h deadline)

/-! ## What a request carries -/

/-- The message of a request, by either form. -/
inductive Carries (request : HttpRequest) : List UInt8 → Prop
  | get {bytes : List UInt8} (hpath : request.path = dohPath)
      (hmethod : request.method = .get ∨ request.method = .head)
      (hdns : request.dns = some (Base64Url.encode bytes)) : Carries request bytes
  | post (hpath : request.path = dohPath) (hmethod : request.method = .post)
      (htype : isDnsMessageContentType request.headers = true) : Carries request request.body

/-- The DNS request that an HTTP request asks for. -/
def Asks (arrival : Arrival) (request : Request H) : Prop :=
  ∃ bytes, Carries arrival.request bytes ∧ bytes ≠ [] ∧ bytes.length ≤ maxDohMessageBytes ∧
    fromBytes C arrival.src bytes = some request

/-- A HEAD request is answered without the body. -/
def strip (method : Method) (response : HttpResponse) : HttpResponse :=
  if method = .head then { response with body := [] } else response

/-- The HTTP response to what the handler sent. -/
def wrap (sent : Except Str (List UInt8)) : HttpResponse :=
  match sent with
  | .ok bytes => dnsMessage bytes
  | .error _ => serverError "failed to build DNS response"

/-- The statuses of a request that carries no DNS request. -/
def refusals : List Nat := [400, 404, 405, 413, 415]

theorem Carries.unique {request : HttpRequest} {bytes bytes' : List UInt8}
    (h₁ : Carries request bytes) (h₂ : Carries request bytes') : bytes = bytes' := by
  cases h₁ with
  | get _ hmethod hdns =>
    cases h₂ with
    | get _ _ hdns' =>
      rw [hdns, Option.some.injEq] at hdns'
      have hdecoded := Base64Url.decode_encode bytes
      rw [hdns', Base64Url.decode_encode, Option.some.injEq] at hdecoded
      exact hdecoded.symm
    | post _ hpost _ => simp [hpost] at hmethod
  | post _ hpost _ =>
    cases h₂ with
    | get _ hmethod _ => simp [hpost] at hmethod
    | post _ _ _ => rfl

/-- The response was sent before the wait for it starts. -/
theorem received_eq (deadline : Nat) (times : Times) (response : Response H) :
    received C deadline times response = wrap (C.emit response) := by
  have hready := times.sent_le
  unfold received sendResponse
  cases C.emit response with
  | error e => rfl
  | ok bytes =>
    have hin : times.sent ≤ times.finished + deadline := by omega
    simp only [timeout, if_pos hin]
    rfl

theorem handleDnsMessage_asked {src : IpAddr} {bytes : List UInt8} {request : Request H}
    (hne : bytes ≠ []) (hlen : bytes.length ≤ maxDohMessageBytes)
    (hparse : fromBytes C src bytes = some request) (deadline : Nat) (clock : Clock)
    (times : Times) (state : World × Journal) :
    handleDnsMessage S T hashQname C h deadline clock times src bytes state =
      (wrap (C.emit (h.handleLogged S T hashQname clock request state).1),
        (h.handleLogged S T hashQname clock request state).2) := by
  unfold handleDnsMessage
  rw [if_neg (by simpa using hne), if_neg (by omega), hparse]
  simp only [← received_eq C deadline times]
  rfl

theorem handleDnsMessage_refused {src : IpAddr} {bytes : List UInt8}
    (hnone : ¬ ∃ request, bytes ≠ [] ∧ bytes.length ≤ maxDohMessageBytes ∧
      fromBytes C src bytes = some request) (deadline : Nat) (clock : Clock) (times : Times) :
    ∃ response, response.status ∈ refusals ∧
      handleDnsMessage S T hashQname C h deadline clock times src bytes = pure response := by
  unfold handleDnsMessage
  split
  · exact ⟨_, by decide, rfl⟩
  · rename_i hne
    split
    · exact ⟨_, by decide, rfl⟩
    · rename_i hlen
      split
      · exact ⟨_, by decide, rfl⟩
      · rename_i request hparse
        exact absurd ⟨request, by simpa using hne, by omega, hparse⟩ hnone

theorem handleGet_cases (deadline : Nat) (clock : Clock) (times : Times) (src : IpAddr)
    (dns : Str) :
    (∃ bytes, dns = Base64Url.encode bytes ∧ handleGet S T hashQname C h deadline clock times src dns =
      handleDnsMessage S T hashQname C h deadline clock times src bytes) ∨
    ((∀ bytes, dns ≠ Base64Url.encode bytes) ∧ handleGet S T hashQname C h deadline clock times src dns =
      pure (badRequest "invalid base64url in dns parameter")) := by
  unfold handleGet
  split
  · rename_i hbad
    refine .inr ⟨?_, rfl⟩
    rintro bytes rfl
    rw [Base64Url.decode_encode] at hbad
    cases hbad
  · rename_i bytes hbytes
    exact .inl ⟨bytes, (Base64Url.encode_of_decode hbytes).symm, rfl⟩

theorem extractGet_cases (deadline : Nat) (arrival : Arrival) :
    (∃ bytes, arrival.request.dns = some (Base64Url.encode bytes) ∧
      extractGet S T hashQname C A h deadline arrival = handleDnsMessage S T hashQname C h deadline
        arrival.clock arrival.times arrival.src bytes) ∨
    ((∀ bytes, arrival.request.dns ≠ some (Base64Url.encode bytes)) ∧
      ∃ response, response.status = 400 ∧
        extractGet S T hashQname C A h deadline arrival = pure response) := by
  unfold extractGet
  split
  · rename_i hmissing
    exact .inr ⟨by simp [hmissing], _, A.queryRejection_status, rfl⟩
  · rename_i dns hdns
    simp only [hdns, Option.some.injEq, ne_eq]
    rcases handleGet_cases S T hashQname C h deadline arrival.clock arrival.times arrival.src dns
      with hbytes | ⟨hnone, heq⟩
    · exact .inl hbytes
    · exact .inr ⟨hnone, _, rfl, heq⟩

/-- A request is handled as the message it carries, or refused without one that could be handled. -/
theorem route_cases (deadline : Nat) (arrival : Arrival) :
    (∃ bytes, Carries arrival.request bytes ∧ route S T hashQname C A h deadline arrival =
      strip arrival.request.method <$> handleDnsMessage S T hashQname C h deadline arrival.clock
        arrival.times arrival.src bytes) ∨
    ((∀ bytes, Carries arrival.request bytes → maxDohMessageBytes < bytes.length) ∧
      ∃ response, response.status ∈ refusals ∧
        route S T hashQname C A h deadline arrival = pure response) := by
  by_cases hpath : arrival.request.path = dohPath
  swap
  · refine .inr ⟨?_, A.notFound, by simp [refusals, A.notFound_status], if_pos hpath⟩
    intro bytes hcarries
    cases hcarries with
    | get hp _ _ => exact absurd hp hpath
    | post hp _ _ => exact absurd hp hpath
  -- with neither form there is nothing carried
  have hget : ∀ bytes, Carries arrival.request bytes → arrival.request.method ≠ .post →
      arrival.request.dns = some (Base64Url.encode bytes) := by
    intro bytes hcarries hmethod
    cases hcarries with
    | get _ _ hdns => exact hdns
    | post _ hpost _ => exact absurd hpost hmethod
  unfold route
  rw [if_neg (not_not.2 hpath)]
  cases hmethod : arrival.request.method with
  | get =>
    rcases extractGet_cases S T hashQname C A h deadline arrival with
      ⟨bytes, hdns, heq⟩ | ⟨hnone, response, hstatus, heq⟩
    · exact .inl ⟨bytes, .get hpath (.inl hmethod) hdns, heq.trans (id_map _).symm⟩
    · refine .inr ⟨?_, response, by simp [refusals, hstatus], heq⟩
      intro bytes hcarries
      exact absurd (hget bytes hcarries (by simp [hmethod])) (hnone bytes)
  | head =>
    rcases extractGet_cases S T hashQname C A h deadline arrival with
      ⟨bytes, hdns, heq⟩ | ⟨hnone, response, hstatus, heq⟩
    · refine .inl ⟨bytes, .get hpath (.inr hmethod) hdns, ?_⟩
      simp only [heq]
      rfl
    · refine .inr ⟨?_, { response with body := [] }, by simp [refusals, hstatus], ?_⟩
      · intro bytes hcarries
        exact absurd (hget bytes hcarries (by simp [hmethod])) (hnone bytes)
      · simp only [heq]
        rfl
  | post =>
    simp only [extractPost, handlePost]
    split
    · rename_i hlong
      refine .inr ⟨?_, A.bodyTooLarge, by simp [refusals, A.bodyTooLarge_status], rfl⟩
      intro bytes hcarries
      cases hcarries with
      | get _ hm _ => simp [hmethod] at hm
      | post _ _ _ => exact hlong
    · split
      · rename_i htype
        exact .inl ⟨_, .post hpath hmethod htype, (id_map _).symm⟩
      · rename_i htype
        refine .inr ⟨?_, unsupportedMediaType, by decide, rfl⟩
        intro bytes hcarries
        cases hcarries with
        | get _ hm _ => simp [hmethod] at hm
        | post _ _ ht => exact absurd ht htype
  | other =>
    refine .inr ⟨?_, A.methodNotAllowed, by simp [refusals, A.methodNotAllowed_status], rfl⟩
    intro bytes hcarries
    cases hcarries with
    | get _ hm _ => simp [hmethod] at hm
    | post _ hm _ => simp [hmethod] at hm

/-- A request that asks something is the DNS request it asks, whatever the deadline. -/
theorem route_asked {arrival : Arrival} {request : Request H} (hasks : Asks C arrival request)
    (deadline : Nat) (state : World × Journal) :
    route S T hashQname C A h deadline arrival state =
      (strip arrival.request.method
          (wrap (C.emit (h.handleLogged S T hashQname arrival.clock request state).1)),
        (h.handleLogged S T hashQname arrival.clock request state).2) := by
  obtain ⟨bytes, hcarries, hne, hlen, hparse⟩ := hasks
  rcases route_cases S T hashQname C A h deadline arrival with ⟨bytes', hcarries', heq⟩ | ⟨hlong, -⟩
  · cases hcarries.unique hcarries'
    have hhandled := handleDnsMessage_asked S T hashQname C h hne hlen hparse deadline
      arrival.clock arrival.times state
    rw [heq]
    exact congrArg (fun r => (strip arrival.request.method r.1, r.2)) hhandled
  · exact absurd (hlong bytes hcarries) (by omega)

/-- A request that asks nothing is refused, and leaves everything as it was. -/
theorem route_refused {arrival : Arrival} (hnone : ¬ ∃ request, Asks C arrival request)
    (deadline : Nat) :
    ∃ response, response.status ∈ refusals ∧
      ∀ state, route S T hashQname C A h deadline arrival state = (response, state) := by
  rcases route_cases S T hashQname C A h deadline arrival with
    ⟨bytes, hcarries, heq⟩ | ⟨-, response, hstatus, heq⟩
  · have hrefused : ¬ ∃ request, bytes ≠ [] ∧ bytes.length ≤ maxDohMessageBytes ∧
        fromBytes C arrival.src bytes = some request := by
      rintro ⟨request, hne, hlen, hparse⟩
      exact hnone ⟨request, bytes, hcarries, hne, hlen, hparse⟩
    obtain ⟨response, hstatus, hpure⟩ := handleDnsMessage_refused S T hashQname C h hrefused
      deadline arrival.clock arrival.times
    refine ⟨strip arrival.request.method response, ?_, ?_⟩
    · unfold strip
      split
      · exact hstatus
      · exact hstatus
    · intro state
      rw [heq, hpure]
      rfl
  · refine ⟨response, hstatus, ?_⟩
    intro state
    rw [heq]
    rfl

/-! ## Runs -/

/-- The DNS run that a list of arrivals stands for, and the HTTP responses to its responses. -/
inductive Stands : List Arrival → List (Clock × Request H) → List (Response H) →
    List HttpResponse → Prop
  | nil : Stands [] [] [] []
  | refused {arrival : Arrival} {arrivals : List Arrival} {packets : List (Clock × Request H)}
      {answers : List (Response H)} {responses : List HttpResponse} {response : HttpResponse}
      (hnone : ¬ ∃ request, Asks C arrival request) (hstatus : response.status ∈ refusals)
      (rest : Stands arrivals packets answers responses) :
      Stands (arrival :: arrivals) packets answers (response :: responses)
  | asked {arrival : Arrival} {arrivals : List Arrival} {packets : List (Clock × Request H)}
      {answers : List (Response H)} {responses : List HttpResponse} {request : Request H}
      {answer : Response H} (hasks : Asks C arrival request)
      (rest : Stands arrivals packets answers responses) :
      Stands (arrival :: arrivals) ((arrival.clock, request) :: packets) (answer :: answers)
        (strip arrival.request.method (wrap (C.emit answer)) :: responses)

theorem serve_cons (deadline : Nat) (arrival : Arrival) (arrivals : List Arrival)
    (state : World × Journal) :
    serve S T hashQname C A h deadline (arrival :: arrivals) state =
      ((route S T hashQname C A h deadline arrival state).1 ::
        (serve S T hashQname C A h deadline arrivals
          (route S T hashQname C A h deadline arrival state).2).1,
        (serve S T hashQname C A h deadline arrivals
          (route S T hashQname C A h deadline arrival state).2).2) := by
  rw [serve, List.mapM_cons]
  rfl

/-- **DNS over HTTPS is the DNS server.** Any run of HTTP requests, GET, HEAD or POST, has the effect
on the rate limiter, the upstream and the logs of the DNS run of the messages they carry, in their
order, and each of these is answered with the encoded response to its message (a HEAD request without
its body, a response that does not encode with a 500). A request that does not carry a message is
refused without an effect. None of it depends on the deadline or on how long a
query takes. -/
theorem doh_run_is_dns_run (deadline : Nat) (arrivals : List Arrival) (state : World × Journal) :
    ∃ packets, Stands C arrivals packets (h.serveLogged S T hashQname packets state).1
        (serve S T hashQname C A h deadline arrivals state).1 ∧
      (serve S T hashQname C A h deadline arrivals state).2 =
        (h.serveLogged S T hashQname packets state).2 := by
  induction arrivals generalizing state with
  | nil => exact ⟨[], .nil, rfl⟩
  | cons arrival arrivals ih =>
    rw [serve_cons]
    by_cases hasked : ∃ request, Asks C arrival request
    · obtain ⟨request, hasks⟩ := hasked
      rw [route_asked S T hashQname C A h hasks deadline state]
      obtain ⟨packets, hstands, hstate⟩ :=
        ih (h.handleLogged S T hashQname arrival.clock request state).2
      refine ⟨(arrival.clock, request) :: packets, ?_, ?_⟩
      · rw [Pipeline.DnsHandler.serveLogged_cons]
        exact .asked hasks hstands
      · rw [Pipeline.DnsHandler.serveLogged_cons]
        exact hstate
    · obtain ⟨response, hstatus, hroute⟩ := route_refused S T hashQname C A h hasked deadline
      rw [hroute state]
      obtain ⟨packets, hstands, hstate⟩ := ih state
      exact ⟨packets, .refused hasked hstatus hstands, hstate⟩

/-- The deadline is never computed out of range: `timeout_ms` is a `u64`. -/
theorem dohDeadline_isSome (timeoutMs : UInt64) :
    (dohDeadline (timeoutMs.toNat * 1000000)).isSome := by
  have hlt := timeoutMs.toNat_lt
  unfold dohDeadline
  have hsum : min (timeoutMs.toNat * 1000000 * 2) durationMax + 500000000 ≤ durationMax := by
    unfold durationMax
    omega
  rw [if_pos hsum]
  rfl

end

end RustyDns.L4.Doh
