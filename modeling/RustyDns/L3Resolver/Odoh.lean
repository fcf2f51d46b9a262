import RustyDns.L1Core.Redact
import RustyDns.L3Resolver.Resolver
import RustyDns.Lib.CappedRead

/-!
# The oblivious arm

`rustydns-resolver/src/odoh.rs`: a query is sealed for the target and sent through a relay, so the
relay sees who asks and the target sees what is asked. A target publishes its key config under a
well-known URL; the arm keeps the first config it gets and drops it when the target no longer knows
it. There is no other way for a query to leave.

The network is any state machine that answers the two kinds of request and supplies randomness
(`Network`); what it was asked and what it answered is kept in `World.calls`. odoh-rs, the DNS
message codec and hickory's validator are parameters, the last one as a tree of the requests it makes.
Parsing a target URL and building the HTTPS client are left out, and so are redirects.

Results:
* `attempt_spec`, `exchange_protocol`: what one attempt and one exchange send, and what they return.
* `oblivious_only`: in every run, all that leaves is config requests to the targets and sealed,
  padded queries to the relays, under configs the targets published.
* `resolveViaOdoh_concrete`: this arm is one of those `Resolver` is about.
-/

namespace RustyDns.L3.Odoh

open RustyDns.Lib RustyDns.Lib.CappedRead RustyDns.L1

/-! ## Errors and messages -/

/-- mirrors crates/rustydns-resolver/src/odoh.rs:80-114 -/
inductive OdohError where
  | build (text : String)
  | http (text : String)
  | configStatus (code : Nat)
  | relayStatus (code : Nat)
  | noConfig
  | configParse (text : String)
  | queryBuild (text : String)
  | encrypt (text : String)
  | compose (text : String)
  | responseParse (text : String)
  | decrypt (text : String)
  | dnsParse (text : String)
  | targetRcode (code : ResponseCode)
  | validation (text : String)
  | bogus
  deriving DecidableEq, Repr

/-- mirrors crates/rustydns-resolver/src/odoh.rs:118-138 -/
def OdohError.kindLabel : OdohError → String
  | .build _ => "build"
  | .http _ => "http"
  | .configStatus _ => "config_status"
  | .relayStatus _ => "relay_status"
  | .noConfig => "no_config"
  | .configParse _ => "config_parse"
  | .queryBuild _ => "query_build"
  | .encrypt _ => "encrypt"
  | .compose _ => "compose"
  | .responseParse _ => "response_parse"
  | .decrypt _ => "decrypt"
  | .dnsParse _ => "dns_parse"
  | .targetRcode _ => "target_rcode"
  | .validation _ => "validation"
  | .bogus => "bogus"

/-- The text of an error, with hickory's text of a response code.
mirrors crates/rustydns-resolver/src/odoh.rs:80-114 -/
def OdohError.display (debug : ResponseCode → String) : OdohError → String
  | .build text => s!"ODoH arm construction failed: {text}"
  | .http text => s!"ODoH HTTPS transport error: {text}"
  | .configStatus code => s!"ODoH config fetch returned HTTP {code}"
  | .relayStatus code => s!"ODoH relay returned HTTP {code}"
  | .noConfig => "ODoH target published no usable ObliviousDoHConfig"
  | .configParse text => s!"malformed ObliviousDoHConfigs from target: {text}"
  | .queryBuild text => s!"could not build the DNS query: {text}"
  | .encrypt text => s!"HPKE encrypt_query failed: {text}"
  | .compose text => s!"could not serialise the oblivious query: {text}"
  | .responseParse text => s!"malformed oblivious response from proxy: {text}"
  | .decrypt text => s!"HPKE decrypt_response failed: {text}"
  | .dnsParse text => s!"target returned an undecodable DNS message: {text}"
  | .targetRcode code => "target returned response code " ++ debug code
  | .validation text => s!"DNSSEC validation failed: {text}"
  | .bogus => "DNSSEC validation: answer is BOGUS (signed but failed verification)"

/-- `ObliviousDoHMessagePlaintext`. -/
structure Plaintext where
  dnsMsg : List UInt8
  padding : List UInt8
  deriving DecidableEq, Repr

/-- What is taken from odoh-rs: configs and messages with their wire forms, and HPKE. -/
structure OdohRs where
  Config : Type
  Message : Type
  Secret : Type
  Seed : Type
  parseConfigs : List UInt8 → Except String (List Config)
  encryptQuery : Plaintext → Config → Seed → Except String (Message × Secret)
  compose : Message → Except String (List UInt8)
  parseMessage : List UInt8 → Except String Message
  decryptResponse : Plaintext → Message → Secret → Except String Plaintext

/-! ## The transport -/

/-- A target without the cell of its config, which is in `World`.
mirrors crates/rustydns-resolver/src/odoh.rs:145-156 -/
structure OdohTarget where
  queryUrl : Str
  targetHost : Str
  targetPath : Str
  configsUrl : Str
  deriving DecidableEq, Repr

/-- `OdohArm::new` refuses a config without targets or relays.
mirrors crates/rustydns-resolver/src/odoh.rs:310-323 -/
structure OdohTransport where
  targets : List OdohTarget
  proxyUrls : List Str
  randomize : Bool
  padQueries : Bool
  targets_ne : targets ≠ []
  proxyUrls_ne : proxyUrls ≠ []

/-- mirrors crates/rustydns-resolver/src/odoh.rs:347-388 -/
def OdohTransport.new (parse : Str → Except OdohError OdohTarget) (config : DnsConfig) :
    Except OdohError OdohTransport := do
  if hproxies : config.upstream.odohProxies = [] then
    .error (.build "upstream.odoh_proxies must list at least one oblivious relay for ODoH")
  else
    let targets ← config.upstream.resolvers.mapM parse
    if htargets : targets = [] then .error (.build "no ODoH targets configured")
    else
      pure
        { targets := targets
          proxyUrls := config.upstream.odohProxies
          randomize := config.privacy.randomizeUpstreamSelection
          padQueries := config.privacy.upstreamPadding
          targets_ne := htargets
          proxyUrls_ne := hproxies }

/-- A request to a relay, without its fixed headers. -/
structure Post where
  proxy : Str
  targetHost : Str
  targetPath : Str
  body : List UInt8
  deriving DecidableEq, Repr

/-- The request that hands `body` to a relay for this target. -/
def OdohTarget.via (target : OdohTarget) (proxy : Str) (body : List UInt8) : Post :=
  ⟨proxy, target.targetHost, target.targetPath, body⟩

/-- Whoever answers the requests, and the randomness of the host. A request fails with the text of
the client's error. -/
structure Network (O : OdohRs) where
  State : Type
  get : Str → State → Except Str HttpResponse × State
  post : Post → State → Except Str HttpResponse × State
  entropy : State → Except String O.Seed × State
  random : State → UInt32 × State

/-- A request and what came back. -/
inductive Call where
  | get (url : Str) (reply : Except Str HttpResponse)
  | post (request : Post) (reply : Except Str HttpResponse)

structure World (t : OdohTransport) {O : OdohRs} (N : Network O) where
  /-- The cached config of each target. -/
  config : Fin t.targets.length → Option O.Config
  net : N.State
  calls : List Call

/-- A text of the client may hold the whole URL. -/
def clientError (e : Str) : OdohError := .http (redactUrlCredentials e).display

/-- mirrors crates/rustydns-resolver/src/odoh.rs:225-253 -/
def readCapped (resp : HttpResponse) (cap : Nat) (what : String) : Except OdohError (List UInt8) :=
  readUnder cap
    { declared := fun n => .http s!"{what} content-length {n} exceeds {cap}-byte cap"
      tooLong := .http s!"{what} response exceeds {cap}-byte cap"
      broken := clientError } resp

/-- The bytes of a reply, an error that names its status if that is no success. -/
def received (statusError : Nat → OdohError) (cap : Nat) (what : String) :
    Except Str HttpResponse → Except OdohError (List UInt8)
  | .error e => .error (clientError e)
  | .ok resp =>
    if resp.isSuccess then readCapped resp cap what else .error (statusError resp.status)

def maxConfigBytes : Nat := 64 * 1024

def maxResponseBytes : Nat := 128 * 1024

/-- mirrors crates/rustydns-resolver/src/odoh.rs:256-271 -/
def configsReceived : Except Str HttpResponse → Except OdohError (List UInt8) :=
  received .configStatus maxConfigBytes "ODoH config"

/-- mirrors crates/rustydns-resolver/src/odoh.rs:276-304 -/
def replyReceived : Except Str HttpResponse → Except OdohError (List UInt8) :=
  received .relayStatus maxResponseBytes "oblivious"

/-! ## One exchange -/

/-- The config of a document: the first one in it. -/
def firstConfig (O : OdohRs) (bytes : List UInt8) : Except OdohError O.Config :=
  match O.parseConfigs bytes with
  | .error e => .error (.configParse e)
  | .ok [] => .error .noConfig
  | .ok (config :: _) => .ok config

/-- mirrors crates/rustydns-resolver/src/odoh.rs:738-745 -/
def queryPadding (msgLen : Nat) (pad : Bool) : Nat :=
  if pad then (128 - msgLen % 128) % 128 else 0

/-- The plaintext of a query, the same in both attempts. -/
def plaintext (t : OdohTransport) (queryWire : List UInt8) : Plaintext where
  dnsMsg := queryWire
  padding := List.replicate (queryPadding queryWire.length t.padQueries) 0

/-- The body of a request, with the secret that opens the reply to it. -/
def sealQuery (O : OdohRs) (plain : Plaintext) (config : O.Config) (seed : Except String O.Seed) :
    Except OdohError (List UInt8 × O.Secret) := do
  let seed ← seed.mapError fun e => .encrypt s!"os rng unavailable: {e}"
  let (message, secret) ← (O.encryptQuery plain config seed).mapError .encrypt
  let body ← (O.compose message).mapError .compose
  pure (body, secret)

/-- What a reply means for the exchange. -/
inductive Verdict where
  | answer (msg : List UInt8)
  | staleKey (e : OdohError)
  | failed (e : OdohError)
  deriving DecidableEq, Repr

/-- Only HTTP 400 and a reply that does not decrypt are taken for a rotated key. -/
def judge (O : OdohRs) (plain : Plaintext) (secret : O.Secret) :
    Except OdohError (List UInt8) → Verdict
  | .ok bytes =>
    match O.parseMessage bytes with
    | .error e => .failed (.responseParse e)
    | .ok message =>
      match O.decryptResponse plain message secret with
      | .ok answer => .answer answer.dnsMsg
      | .error e => .staleKey (.decrypt e)
  | .error (.relayStatus 400) => .staleKey (.relayStatus 400)
  | .error e => .failed e

section
variable {t : OdohTransport} {O : OdohRs} {N : Network O}

abbrev M (t : OdohTransport) {O : OdohRs} (N : Network O) := StateM (World t N)

def World.store (i : Fin t.targets.length) (config : Option O.Config) (w : World t N) : World t N :=
  { w with config := Function.update w.config i config }

def fetchConfigs (url : Str) : M t N (Except OdohError (List UInt8)) := fun w =>
  let (reply, net) := N.get url w.net
  (configsReceived reply, { w with net, calls := w.calls ++ [.get url reply] })

def postOblivious (request : Post) : M t N (Except OdohError (List UInt8)) := fun w =>
  let (reply, net) := N.post request w.net
  (replyReceived reply, { w with net, calls := w.calls ++ [.post request reply] })

def entropy : M t N (Except String O.Seed) := fun w =>
  let (seed, net) := N.entropy w.net
  (seed, { w with net })

def random : M t N UInt32 := fun w =>
  let (r, net) := N.random w.net
  (r, { w with net })

/-- An index of a list that is not empty: a random one if `randomize`, else the first.
mirrors crates/rustydns-resolver/src/odoh.rs:511-531 -/
def select {α : Type} (l : List α) (hne : l ≠ []) : M t N (Fin l.length) := do
  if t.randomize && decide (1 < l.length) then
    let r ← random
    pure ⟨r.toNat % l.length, Nat.mod_lt _ (List.length_pos_of_ne_nil hne)⟩
  else pure ⟨0, List.length_pos_of_ne_nil hne⟩

/-- mirrors crates/rustydns-resolver/src/odoh.rs:623-643 -/
def configFor (i : Fin t.targets.length) : M t N (Except OdohError O.Config) := do
  match (← get).config i with
  | some config => pure (.ok config)
  | none =>
    let bytes ← fetchConfigs (t.targets.get i).configsUrl
    match bytes.bind (firstConfig O) with
    | .error e => pure (.error e)
    | .ok config =>
      modify (World.store i (some config))
      pure (.ok config)

/-- One turn of the loop of `exchange`; an error ends the loop whatever the turn. -/
def attempt (proxy : Str) (i : Fin t.targets.length) (plain : Plaintext) :
    M t N (Except OdohError Verdict) := do
  match ← configFor i with
  | .error e => pure (.error e)
  | .ok config =>
    match sealQuery O plain config (← entropy) with
    | .error e => pure (.error e)
    | .ok (body, secret) =>
      let reply ← postOblivious ((t.targets.get i).via proxy body)
      pure (.ok (judge O plain secret reply))

/-- How a turn that is not repeated ends. -/
def settle : Except OdohError Verdict → Except OdohError (List UInt8)
  | .error e => .error e
  | .ok (.answer msg) => .ok msg
  | .ok (.staleKey e) => .error e
  | .ok (.failed e) => .error e

/-- The loop, with the number of turns that may follow this one. -/
def exchangeFrom (proxy : Str) (i : Fin t.targets.length) (plain : Plaintext) :
    Nat → M t N (Except OdohError (List UInt8))
  | 0 => do
    let outcome ← attempt proxy i plain
    pure (settle outcome)
  | retries + 1 => do
    match ← attempt proxy i plain with
    | .ok (.staleKey _) =>
      modify (World.store i none)
      exchangeFrom proxy i plain retries
    | outcome => pure (settle outcome)

/-- mirrors crates/rustydns-resolver/src/odoh.rs:544-620 -/
def exchange (i : Fin t.targets.length) (queryWire : List UInt8) :
    M t N (Except OdohError (List UInt8)) := do
  let p ← select t.proxyUrls t.proxyUrls_ne
  exchangeFrom (t.proxyUrls.get p) i (plaintext t queryWire) 1

end

/-! ## Resolving -/

/-- What hickory's validator does: it ends, or sends a request and goes on with what comes back. -/
inductive Validator (Request Response : Type) where
  | done (result : Except String Response)
  | send (request : Request) (next : Except String Response → Validator Request Response)

/-- What is taken from the DNS codec and the validator. -/
structure DnsWire (H : Hickory) where
  Request : Type
  Response : Type
  queryBytes : UInt16 → H.Name → RecordType → Except String (List UInt8)
  requestBytes : Request → Except String (List UInt8)
  fromBytes : List UInt8 → Except String Response
  answers : Response → List (Record H.Name)
  responseCode : Response → ResponseCode
  isBogus : Response → Bool
  debugCode : ResponseCode → String
  validator : H.Name → RecordType → Validator Request Response

section
variable {t : OdohTransport} {O : OdohRs} {N : Network O} {H : Hickory} (W : DnsWire H)

/-- The id is drawn before the name is parsed; hickory's text of a bad name is left out.
mirrors crates/rustydns-resolver/src/odoh.rs:747-758 -/
def buildQueryWire (name : Str) (qtype : RecordType) : M t N (Except OdohError (List UInt8)) := do
  let id ← random
  pure do
    let qname ← Checks.okOr (H.fromStr name) (.queryBuild "invalid query name")
    (W.queryBytes id.toUInt16 qname qtype).mapError .queryBuild

/-- The response of `resolve_plain`.
mirrors crates/rustydns-resolver/src/odoh.rs:409-427 -/
def resolvePlain (name : Str) (qtype : RecordType) : M t N (Except OdohError W.Response) := do
  let i ← select t.targets t.targets_ne
  match ← buildQueryWire W name qtype with
  | .error e => pure (.error e)
  | .ok queryWire =>
    let bytes ← exchange i queryWire
    pure (bytes.bind fun b => (W.fromBytes b).mapError .dnsParse)

/-- A request of the validator, the query itself or one for a key of the chain.
mirrors crates/rustydns-resolver/src/odoh.rs:658-672 -/
def send (request : W.Request) : M t N (Except String W.Response) := do
  match W.requestBytes request with
  | .error e => pure (.error s!"odoh: encode request: {e}")
  | .ok queryWire =>
    let i ← select t.targets t.targets_ne
    match ← exchange i queryWire with
    | .error e => pure (.error ("odoh: " ++ e.kindLabel ++ ": " ++ e.display W.debugCode))
    | .ok bytes => pure (W.fromBytes bytes)

/-- The validator at work over `send`. -/
def validate : Validator W.Request W.Response → M t N (Except String W.Response)
  | .done result => pure result
  | .send request next => do
    let reply ← send W request
    validate (next reply)

/-- The response of `resolve_validated`.
mirrors crates/rustydns-resolver/src/odoh.rs:435-467 -/
def resolveValidated (name : Str) (qtype : RecordType) : M t N (Except OdohError W.Response) :=
  match H.fromStr name with
  | none => pure (.error (.queryBuild "invalid query name"))
  | some qname => do
    let result ← validate W (W.validator qname qtype)
    pure do
      let response ← result.mapError .validation
      if W.isBogus response then .error .bogus else pure response

/-- `outcome_from_parts` with the error it makes. -/
def outcome (T : UnicodeTables) (response : W.Response) (qname : Str) (qtype : RecordType)
    (blockPrivateRdata : Bool) : Except OdohError ResolveOutcome :=
  match W.responseCode response with
  | .noError => .ok (answerOutcome H T (W.answers response) qname qtype blockPrivateRdata)
  | .nxDomain => .ok ⟨[], 0, true⟩
  | code => .error (.targetRcode code)

/-- The response of the arm, with validation or without. -/
def response (dnssec : Bool) (name : Str) (qtype : RecordType) :
    M t N (Except OdohError W.Response) :=
  if dnssec then resolveValidated W name qtype else resolvePlain W name qtype

/-- mirrors crates/rustydns-resolver/src/odoh.rs:392-405 -/
def resolve (T : UnicodeTables) (dnssec : Bool) (name : Str) (qtype : RecordType)
    (blockPrivateRdata : Bool) : M t N (Except OdohError ResolveOutcome) := do
  let r ← response W dnssec name qtype
  pure (r.bind fun response => outcome W T response name qtype blockPrivateRdata)

end

/-! ## What an exchange does -/

section
variable {t : OdohTransport} {O : OdohRs} {N : Network O} {α β : Type}

@[simp] theorem run_bind (x : M t N α) (f : α → M t N β) (w : World t N) :
    (x >>= f) w = f (x w).1 (x w).2 := rfl

@[simp] theorem run_pure (a : α) (w : World t N) : (pure a : M t N α) w = (a, w) := rfl

@[simp] theorem run_get (w : World t N) : (get : M t N (World t N)) w = (w, w) := rfl

@[simp] theorem run_modify (f : World t N → World t N) (w : World t N) :
    (modify f : M t N PUnit) w = (⟨⟩, f w) := rfl

variable (O) in
/-- The reply to a config request holds a config. -/
def ConfigIn (reply : Except Str HttpResponse) : Except OdohError O.Config :=
  (configsReceived reply).bind (firstConfig O)

/-- How an attempt comes by its config: the cell before, the requests, the result and the cell
after. -/
inductive Configured (target : OdohTarget) :
    Option O.Config → List Call → Except OdohError O.Config → Option O.Config → Prop where
  | cached (c : O.Config) : Configured target (some c) [] (.ok c) (some c)
  | fetched {reply : Except Str HttpResponse} {c : O.Config} : ConfigIn O reply = .ok c →
      Configured target none [.get target.configsUrl reply] (.ok c) (some c)
  | failed {reply : Except Str HttpResponse} {e : OdohError} : ConfigIn O reply = .error e →
      Configured target none [.get target.configsUrl reply] (.error e) none

/-- The same for a whole attempt. -/
inductive Attempted (proxy : Str) (target : OdohTarget) (plain : Plaintext) :
    Option O.Config → List Call → Except OdohError Verdict → Option O.Config → Prop where
  | noConfig {cell cell' : Option O.Config} {gets : List Call} {e : OdohError} :
      Configured target cell gets (.error e) cell' →
      Attempted proxy target plain cell gets (.error e) cell'
  | notSealed {cell cell' : Option O.Config} {gets : List Call} {c : O.Config}
      {seed : Except String O.Seed} {e : OdohError} :
      Configured target cell gets (.ok c) cell' → sealQuery O plain c seed = .error e →
      Attempted proxy target plain cell gets (.error e) cell'
  | posted {cell cell' : Option O.Config} {gets : List Call} {c : O.Config}
      {seed : Except String O.Seed} {body : List UInt8} {secret : O.Secret}
      {reply : Except Str HttpResponse} :
      Configured target cell gets (.ok c) cell' → sealQuery O plain c seed = .ok (body, secret) →
      Attempted proxy target plain cell
        (gets ++ [.post (target.via proxy body) reply])
        (.ok (judge O plain secret (replyReceived reply))) cell'

/-- The same for an exchange with a number of turns left; only a stale key leads to another turn. -/
inductive Exchanged (proxy : Str) (target : OdohTarget) (plain : Plaintext) :
    Nat → Option O.Config → List Call → Except OdohError (List UInt8) → Option O.Config →
      Prop where
  | settled {retries : Nat} {cell cell' : Option O.Config} {calls : List Call}
      {outcome : Except OdohError Verdict} : Attempted proxy target plain cell calls outcome cell' →
      (retries = 0 ∨ ∀ e, outcome ≠ .ok (.staleKey e)) →
      Exchanged proxy target plain retries cell calls (settle outcome) cell'
  | retried {retries : Nat} {cell cell' last : Option O.Config} {calls calls' : List Call}
      {e : OdohError} {r : Except OdohError (List UInt8)} :
      Attempted proxy target plain cell calls (.ok (.staleKey e)) cell' →
      Exchanged proxy target plain retries none calls' r last →
      Exchanged proxy target plain (retries + 1) cell (calls ++ calls') r last

theorem configFor_cached {i : Fin t.targets.length} {w : World t N} {c : O.Config}
    (hcell : w.config i = some c) : configFor i w = (.ok c, w) := by
  simp only [configFor, run_bind, run_get, hcell, run_pure]

/-- The world after a request for `url`. -/
def World.asked (w : World t N) (url : Str) : World t N :=
  { w with net := (N.get url w.net).2, calls := w.calls ++ [.get url (N.get url w.net).1] }

theorem configFor_error {i : Fin t.targets.length} {w : World t N} {e : OdohError}
    (hcell : w.config i = none)
    (hreply : ConfigIn O (N.get (t.targets.get i).configsUrl w.net).1 = .error e) :
    configFor i w = (.error e, w.asked (t.targets.get i).configsUrl) := by
  unfold ConfigIn at hreply
  simp only [configFor, run_bind, run_get, hcell, fetchConfigs, hreply, run_pure, World.asked]

theorem configFor_ok {i : Fin t.targets.length} {w : World t N} {c : O.Config}
    (hcell : w.config i = none)
    (hreply : ConfigIn O (N.get (t.targets.get i).configsUrl w.net).1 = .ok c) :
    configFor i w = (.ok c, (w.asked (t.targets.get i).configsUrl).store i (some c)) := by
  unfold ConfigIn at hreply
  simp only [configFor, run_bind, run_get, hcell, fetchConfigs, hreply, run_pure, run_modify,
    World.asked]

/-- The world after a draw of entropy and a request to a relay. -/
def World.relayed (w : World t N) (request : Post) : World t N :=
  let reply := N.post request (N.entropy w.net).2
  { w with net := reply.2, calls := w.calls ++ [.post request reply.1] }

theorem attempt_posted {proxy : Str} {i : Fin t.targets.length} {plain : Plaintext}
    {w w₁ : World t N} {c : O.Config} {body : List UInt8} {secret : O.Secret}
    (hconfig : configFor i w = (.ok c, w₁))
    (hseal : sealQuery O plain c (N.entropy w₁.net).1 = .ok (body, secret)) :
    let request := (t.targets.get i).via proxy body
    attempt proxy i plain w =
      (.ok (judge O plain secret (replyReceived (N.post request (N.entropy w₁.net).2).1)),
        w₁.relayed request) := by
  simp only [attempt, run_bind, hconfig, entropy, hseal, run_pure, postOblivious, World.relayed]

theorem configFor_spec (i : Fin t.targets.length) (w : World t N) :
    ∃ gets cell, (configFor i w).2.calls = w.calls ++ gets ∧
      (configFor i w).2.config = Function.update w.config i cell ∧
      Configured (t.targets.get i) (w.config i) gets (configFor i w).1 cell := by
  cases hcell : w.config i with
  | some c =>
    rw [configFor_cached hcell]
    exact ⟨[], some c, (List.append_nil _).symm,
      by rw [← hcell, Function.update_eq_self], .cached c⟩
  | none =>
    cases hreply : ConfigIn O (N.get (t.targets.get i).configsUrl w.net).1 with
    | error e =>
      rw [configFor_error hcell hreply]
      exact ⟨_, none, rfl, by rw [← hcell, Function.update_eq_self]; rfl, .failed hreply⟩
    | ok c =>
      rw [configFor_ok hcell hreply]
      exact ⟨_, some c, rfl, rfl, .fetched hreply⟩

theorem attempt_spec (proxy : Str) (i : Fin t.targets.length) (plain : Plaintext) (w : World t N) :
    ∃ calls cell, (attempt proxy i plain w).2.calls = w.calls ++ calls ∧
      (attempt proxy i plain w).2.config = Function.update w.config i cell ∧
      Attempted proxy (t.targets.get i) plain (w.config i) calls (attempt proxy i plain w).1 cell := by
  obtain ⟨gets, cell, hcalls, hcells, hconfigured⟩ := configFor_spec i w
  cases hconfig : (configFor i w).1 with
  | error e =>
    rw [hconfig] at hconfigured
    refine ⟨gets, cell, ?_, ?_, ?_⟩
    all_goals simp only [attempt, run_bind, hconfig, run_pure]
    exacts [hcalls, hcells, .noConfig hconfigured]
  | ok c =>
    rw [hconfig] at hconfigured
    cases hseal : sealQuery O plain c (entropy (configFor i w).2).1 with
    | error e =>
      refine ⟨gets, cell, ?_, ?_, ?_⟩
      all_goals simp only [attempt, run_bind, hconfig, hseal, run_pure]
      exacts [hcalls, hcells, .notSealed hconfigured hseal]
    | ok sealed =>
      obtain ⟨body, secret⟩ := sealed
      rw [attempt_posted (Prod.ext hconfig rfl) hseal]
      refine ⟨_, cell, ?_, hcells, .posted hconfigured hseal⟩
      rw [← List.append_assoc, ← hcalls]
      rfl

theorem exchangeFrom_stale {proxy : Str} {i : Fin t.targets.length} {plain : Plaintext}
    {w : World t N} {e : OdohError} (h : (attempt proxy i plain w).1 = .ok (.staleKey e))
    (retries : Nat) :
    exchangeFrom proxy i plain (retries + 1) w =
      exchangeFrom proxy i plain retries ((attempt proxy i plain w).2.store i none) := by
  simp only [exchangeFrom, run_bind, h, run_modify]

theorem exchangeFrom_settled {proxy : Str} {i : Fin t.targets.length} {plain : Plaintext}
    {w : World t N} (h : ∀ e, (attempt proxy i plain w).1 ≠ .ok (.staleKey e)) :
    ∀ retries, exchangeFrom proxy i plain retries w =
      (settle (attempt proxy i plain w).1, (attempt proxy i plain w).2)
  | 0 => rfl
  | retries + 1 => by simp only [exchangeFrom, run_bind, run_pure]

theorem exchangeFrom_spec (proxy : Str) (i : Fin t.targets.length) (plain : Plaintext) :
    ∀ (retries : Nat) (w : World t N), ∃ calls cell,
      (exchangeFrom proxy i plain retries w).2.calls = w.calls ++ calls ∧
      (exchangeFrom proxy i plain retries w).2.config = Function.update w.config i cell ∧
      Exchanged proxy (t.targets.get i) plain retries (w.config i) calls
        (exchangeFrom proxy i plain retries w).1 cell
  | 0, w => by
    obtain ⟨calls, cell, hcalls, hcells, hattempt⟩ := attempt_spec proxy i plain w
    exact ⟨calls, cell, hcalls, hcells, .settled hattempt (.inl rfl)⟩
  | retries + 1, w => by
    obtain ⟨calls, cell, hcalls, hcells, hattempt⟩ := attempt_spec proxy i plain w
    by_cases hstale : ∃ e, (attempt proxy i plain w).1 = .ok (.staleKey e)
    · obtain ⟨e, hstale⟩ := hstale
      let cleared := (attempt proxy i plain w).2.store i none
      obtain ⟨calls', last, hcalls', hcells', hrest⟩ := exchangeFrom_spec proxy i plain retries cleared
      have hnone : cleared.config i = none := by
        simp only [cleared, World.store, Function.update_self]
      rw [hnone] at hrest
      rw [exchangeFrom_stale hstale]
      rw [hstale] at hattempt
      refine ⟨calls ++ calls', last, ?_, ?_, .retried hattempt hrest⟩
      · rw [hcalls', ← List.append_assoc, ← hcalls]
        rfl
      · rw [hcells']
        simp only [cleared, World.store, hcells, Function.update_idem]
    · push Not at hstale
      rw [exchangeFrom_settled hstale]
      exact ⟨calls, cell, hcalls, hcells, .settled hattempt (.inr hstale)⟩

/-! ## One exchange, whoever answers -/

def Call.isGet : Call → Bool
  | .get _ _ => true
  | .post _ _ => false

def Call.isPost : Call → Bool
  | .get _ _ => false
  | .post _ _ => true

/-- The call hands the query, sealed under `c`, to the relay; `secret` opens the reply. -/
def Sent (proxy : Str) (target : OdohTarget) (plain : Plaintext) (c : O.Config) (secret : O.Secret)
    (reply : Except Str HttpResponse) (call : Call) : Prop :=
  ∃ seed body, sealQuery O plain c seed = .ok (body, secret) ∧
    call = .post (target.via proxy body) reply

section
variable {proxy : Str} {target : OdohTarget} {plain : Plaintext} {cell cell' : Option O.Config}
  {calls : List Call}

theorem Configured.calls_eq {r : Except OdohError O.Config}
    (h : Configured target cell calls r cell') :
    calls = [] ∨ ∃ reply, calls = [.get target.configsUrl reply] := by
  cases h with
  | cached c => exact .inl rfl
  | fetched h => exact .inr ⟨_, rfl⟩
  | failed h => exact .inr ⟨_, rfl⟩

theorem Configured.cell_eq {c : O.Config} (h : Configured target cell calls (.ok c) cell') :
    cell' = some c := by
  cases h <;> rfl

theorem Configured.counts {r : Except OdohError O.Config}
    (h : Configured target cell calls r cell') :
    calls.countP Call.isPost = 0 ∧ calls.countP Call.isGet ≤ 1 := by
  rcases h.calls_eq with rfl | ⟨reply, rfl⟩
  · exact ⟨rfl, Nat.zero_le _⟩
  · exact ⟨rfl, le_rfl⟩

/-- An attempt without a verdict has sent no query; one with a verdict has sent one, at its end. -/
theorem Attempted.cases {outcome : Except OdohError Verdict}
    (h : Attempted proxy target plain cell calls outcome cell') :
    (∃ e, outcome = .error e ∧ calls.countP Call.isPost = 0 ∧ calls.countP Call.isGet ≤ 1 ∧
      ∀ call ∈ calls, ∃ reply, call = .get target.configsUrl reply) ∨
    ∃ gets call c secret reply, calls = gets ++ [call] ∧ gets.countP Call.isGet ≤ 1 ∧
      gets.countP Call.isPost = 0 ∧ (∀ g ∈ gets, ∃ r, g = .get target.configsUrl r) ∧
      cell' = some c ∧ Sent proxy target plain c secret reply call ∧
      outcome = .ok (judge O plain secret (replyReceived reply)) := by
  have hgets : ∀ {gets : List Call} {r : Except OdohError O.Config},
      Configured target cell gets r cell' →
      ∀ g ∈ gets, ∃ reply, g = .get target.configsUrl reply := by
    intro gets r hconfigured g hg
    rcases hconfigured.calls_eq with rfl | ⟨reply, rfl⟩
    · cases hg
    · exact ⟨reply, List.mem_singleton.1 hg⟩
  cases h with
  | noConfig hconfigured =>
    exact .inl ⟨_, rfl, hconfigured.counts.1, hconfigured.counts.2, hgets hconfigured⟩
  | notSealed hconfigured _ =>
    exact .inl ⟨_, rfl, hconfigured.counts.1, hconfigured.counts.2, hgets hconfigured⟩
  | posted hconfigured hseal =>
    exact .inr ⟨_, _, _, _, _, rfl, hconfigured.counts.2, hconfigured.counts.1, hgets hconfigured,
      hconfigured.cell_eq, ⟨_, _, hseal, rfl⟩, rfl⟩

/-- A config request after another, or a query after another. -/
def Repeats (before : List Call) (call : Call) : Prop :=
  call.isPost = true ∧ 0 < before.countP Call.isPost ∨
    call.isGet = true ∧ 0 < before.countP Call.isGet

/-- What holds of an exchange of at most `turns` turns: what it asks for and of whom, that it asks
again only behind a reply that is a sign of a rotated key, and that what it returns came out of the
last reply. -/
structure Protocol (proxy : Str) (target : OdohTarget) (plain : Plaintext) (turns : Nat)
    (calls : List Call) (r : Except OdohError (List UInt8)) (last : Option O.Config) : Prop where
  posts : calls.countP Call.isPost ≤ turns
  gets : calls.countP Call.isGet ≤ turns
  only : ∀ call ∈ calls, (∃ reply, call = .get target.configsUrl reply) ∨
    ∃ (c : O.Config) (secret : O.Secret) (reply : _), Sent proxy target plain c secret reply call
  again : ∀ before x after, calls = before ++ x :: after → Repeats before x →
    ∃ call ∈ before, ∃ (c : O.Config) (secret : O.Secret), ∃ reply e,
      Sent proxy target plain c secret reply call ∧
      judge O plain secret (replyReceived reply) = .staleKey e
  answered : ∀ msg, r = .ok msg → ∃ (call : Call) (c : O.Config) (secret : O.Secret) (reply : _),
    calls.getLast? = some call ∧ last = some c ∧ Sent proxy target plain c secret reply call ∧
      judge O plain secret (replyReceived reply) = .answer msg

theorem settle_ok {outcome : Except OdohError Verdict} {msg : List UInt8}
    (h : settle outcome = .ok msg) : outcome = .ok (.answer msg) := by
  unfold settle at h
  split at h
  all_goals cases h
  rfl

/-- One turn repeats nothing. -/
theorem not_repeats (hposts : calls.countP Call.isPost ≤ 1) (hgets : calls.countP Call.isGet ≤ 1)
    {before after : List Call} {x : Call} (hcalls : calls = before ++ x :: after) :
    ¬ Repeats before x := by
  rw [hcalls, List.countP_append, List.countP_cons] at hposts hgets
  rintro (⟨hx, hbefore⟩ | ⟨hx, hbefore⟩)
  · rw [if_pos hx] at hposts
    omega
  · rw [if_pos hx] at hgets
    omega

theorem Attempted.protocol {outcome : Except OdohError Verdict}
    (h : Attempted proxy target plain cell calls outcome cell') :
    Protocol proxy target plain 1 calls (settle outcome) cell' := by
  rcases h.cases with ⟨e, rfl, hposts, hgets, honly⟩ |
    ⟨gets, call, c, secret, reply, rfl, hgets, hposts, honly, hlast, hsent, rfl⟩
  · exact
      { posts := by omega
        gets := hgets
        only := fun call hcall => .inl (honly call hcall)
        again := fun _ _ _ hcalls hrepeats =>
          absurd hrepeats (not_repeats (by omega) hgets hcalls)
        answered := fun msg hmsg => by cases hmsg }
  · have hpost : call.isPost = true ∧ call.isGet = false := by
      obtain ⟨_, _, _, rfl⟩ := hsent
      exact ⟨rfl, rfl⟩
    have hcount : (gets ++ [call]).countP Call.isPost = 1 := by
      simp [List.countP_append, hposts, hpost.1]
    have hone : (gets ++ [call]).countP Call.isGet ≤ 1 := by
      simpa [List.countP_append, hpost.2] using hgets
    refine
      { posts := hcount.le
        gets := hone
        only := ?_
        again := fun _ _ _ hcalls hrepeats => absurd hrepeats (not_repeats hcount.le hone hcalls)
        answered := fun msg hmsg => ?_ }
    · intro x hx
      rcases List.mem_append.1 hx with hx | hx
      · exact .inl (honly x hx)
      · rw [List.mem_singleton.1 hx]
        exact .inr ⟨c, secret, reply, hsent⟩
    · exact ⟨call, c, secret, reply, List.getLast?_concat, hlast, hsent,
        Except.ok.inj (settle_ok hmsg)⟩

theorem Exchanged.protocol {retries : Nat} {r : Except OdohError (List UInt8)}
    (h : Exchanged proxy target plain retries cell calls r cell') :
    Protocol proxy target plain (retries + 1) calls r cell' := by
  induction h with
  | settled hattempt _ =>
    obtain ⟨hposts, hgets, honly, hagain, hanswered⟩ := hattempt.protocol
    exact ⟨by omega, by omega, honly, hagain, hanswered⟩
  | @retried retries cell cell' last calls calls' e r hattempt _ ih =>
    obtain ⟨hposts, hgets, honly, hagain, -⟩ := hattempt.protocol
    -- the first turn ended with a stale key, so its last call is the one to name
    obtain ⟨call, hmem, c, secret, reply, hsent, hjudge⟩ : ∃ call ∈ calls,
        ∃ (c : O.Config) (secret : O.Secret), ∃ reply, Sent proxy target plain c secret reply call ∧
          judge O plain secret (replyReceived reply) = .staleKey e := by
      rcases hattempt.cases with ⟨e', he', -⟩ |
        ⟨gets, call, c, secret, reply, rfl, -, -, -, -, hsent, hout⟩
      · cases he'
      · exact ⟨call, List.mem_append_right _ (List.mem_singleton_self _), c, secret, reply, hsent,
          (Except.ok.inj hout).symm⟩
    refine
      { posts := by rw [List.countP_append]; have := ih.posts; omega
        gets := by rw [List.countP_append]; have := ih.gets; omega
        only := fun x hx => (List.mem_append.1 hx).elim (honly x) (ih.only x)
        again := fun before x after hcalls hrepeats => ?_
        answered := fun msg hmsg => ?_ }
    · -- in the first turn nothing is repeated, and behind it that reply has come
      rcases List.append_eq_append_iff.1 hcalls with ⟨rest, rfl, -⟩ | ⟨rest, hfirst, hrest⟩
      · exact ⟨call, List.mem_append_left _ hmem, c, secret, reply, e, hsent, hjudge⟩
      · cases rest with
        | nil =>
          rw [List.append_nil] at hfirst
          exact ⟨call, hfirst ▸ hmem, c, secret, reply, e, hsent, hjudge⟩
        | cons y rest =>
          obtain ⟨rfl, -⟩ := List.cons.inj hrest
          exact hagain before x rest hfirst hrepeats
    · obtain ⟨x, cx, sx, rx, hlast, hcell, hsentx, hjudgex⟩ := ih.answered msg hmsg
      refine ⟨x, cx, sx, rx, ?_, hcell, hsentx, hjudgex⟩
      rw [List.getLast?_append, hlast, Option.some_or]

end

theorem select_calls {α : Type} {l : List α} (hne : l ≠ []) (w : World t N) :
    (select l hne w).2.calls = w.calls ∧ (select l hne w).2.config = w.config := by
  unfold select
  split
  · exact ⟨rfl, rfl⟩
  · exact ⟨rfl, rfl⟩

theorem exchange_spec (i : Fin t.targets.length) (queryWire : List UInt8) (w : World t N) :
    ∃ proxy ∈ t.proxyUrls, ∃ calls cell,
      (exchange i queryWire w).2.calls = w.calls ++ calls ∧
      (exchange i queryWire w).2.config = Function.update w.config i cell ∧
      Exchanged proxy (t.targets.get i) (plaintext t queryWire) 1 (w.config i) calls
        (exchange i queryWire w).1 cell := by
  obtain ⟨hcalls, hconfig⟩ := select_calls (N := N) t.proxyUrls_ne w
  let p := (select t.proxyUrls t.proxyUrls_ne w).1
  have hspec := exchangeFrom_spec (t.proxyUrls.get p) i (plaintext t queryWire) 1
    (select t.proxyUrls t.proxyUrls_ne w).2
  rw [hcalls, hconfig] at hspec
  exact ⟨t.proxyUrls.get p, List.get_mem _ _, hspec⟩

/-- **One exchange.** Whatever the network answers, an exchange asks the target for its config at
most twice and one relay at most twice to pass the sealed query on, either for the second time only
after a reply that says the key is stale. What it returns is what the last reply holds under the config that
is then cached; other targets' configs stay. -/
theorem exchange_protocol (i : Fin t.targets.length) (queryWire : List UInt8) (w : World t N) :
    ∃ proxy ∈ t.proxyUrls, ∃ calls, (exchange i queryWire w).2.calls = w.calls ++ calls ∧
      Protocol proxy (t.targets.get i) (plaintext t queryWire) 2 calls
        (exchange i queryWire w).1 ((exchange i queryWire w).2.config i) ∧
      ∀ j, j ≠ i → (exchange i queryWire w).2.config j = w.config j := by
  obtain ⟨proxy, hproxy, calls, cell, hcalls, hconfig, hexchanged⟩ := exchange_spec i queryWire w
  refine ⟨proxy, hproxy, calls, hcalls, ?_, fun j hj => ?_⟩
  · rw [hconfig, Function.update_self]
    exact hexchanged.protocol
  · rw [hconfig, Function.update_of_ne hj]

/-! ## Whole runs -/

theorem padded_length {queryWire : List UInt8} (hpad : t.padQueries = true) :
    128 ∣ (plaintext t queryWire).dnsMsg.length + (plaintext t queryWire).padding.length := by
  simp only [plaintext, List.length_replicate, queryPadding, hpad, if_true]
  omega

/-- The target has answered a request for its config with `c`. -/
def Published (calls : List Call) (target : OdohTarget) (c : O.Config) : Prop :=
  ∃ reply, .get target.configsUrl reply ∈ calls ∧ ConfigIn O reply = .ok c

variable (t O) in
/-- What may leave the host: a config request to a target, or to a relay a query sealed under a
config of the target it is for, in whole blocks if padding is on. -/
def Allowed (calls : List Call) : Call → Prop
  | .get url _ => ∃ target ∈ t.targets, url = target.configsUrl
  | .post request _ => ∃ proxy ∈ t.proxyUrls, ∃ target ∈ t.targets,
      ∃ plain body, ∃ (c : O.Config) (seed : Except String O.Seed) (secret : O.Secret),
        request = target.via proxy body ∧ Published calls target c ∧
        sealQuery O plain c seed = .ok (body, secret) ∧
        (t.padQueries = true → 128 ∣ plain.dnsMsg.length + plain.padding.length)

theorem Published.mono {calls calls' : List Call} (hsub : calls ⊆ calls') {target : OdohTarget}
    {c : O.Config} (h : Published calls target c) : Published calls' target c := by
  obtain ⟨reply, hmem, hreply⟩ := h
  exact ⟨reply, hsub hmem, hreply⟩

theorem Allowed.mono {calls calls' : List Call} (hsub : calls ⊆ calls') :
    ∀ {call : Call}, Allowed t O calls call → Allowed t O calls' call
  | .get _ _, h => h
  | .post _ _, h => by
    obtain ⟨proxy, hproxy, target, htarget, plain, body, c, seed, secret, hreq, hpub, hseal⟩ := h
    exact ⟨proxy, hproxy, target, htarget, plain, body, c, seed, secret, hreq, hpub.mono hsub,
      hseal⟩

section
variable {proxy : Str} {target : OdohTarget} {cell cell' : Option O.Config} {before calls : List Call}

/-- Each cell holds what its target published. -/
def CellPublished (calls : List Call) (target : OdohTarget) (cell : Option O.Config) : Prop :=
  ∀ c, cell = some c → Published calls target c

theorem Configured.published {r : Except OdohError O.Config} (htarget : target ∈ t.targets)
    (hcell : CellPublished before target cell) (h : Configured target cell calls r cell') :
    (∀ call ∈ calls, Allowed t O (before ++ calls) call) ∧
      CellPublished (before ++ calls) target cell' := by
  cases h with
  | cached c =>
    rw [List.append_nil]
    exact ⟨fun call hcall => (nomatch hcall), hcell⟩
  | @fetched reply c hreply =>
    refine ⟨fun call hcall => ?_, fun c' hc' => ?_⟩
    · rw [List.mem_singleton.1 hcall]
      exact ⟨target, htarget, rfl⟩
    · cases hc'
      exact ⟨reply, List.mem_append_right _ (List.mem_singleton_self _), hreply⟩
  | @failed reply e hreply =>
    refine ⟨fun call hcall => ?_, fun c' hc' => nomatch hc'⟩
    rw [List.mem_singleton.1 hcall]
    exact ⟨target, htarget, rfl⟩

theorem Attempted.allowed {outcome : Except OdohError Verdict} {queryWire : List UInt8}
    (hproxy : proxy ∈ t.proxyUrls) (htarget : target ∈ t.targets)
    (hcell : CellPublished before target cell)
    (h : Attempted proxy target (plaintext t queryWire) cell calls outcome cell') :
    (∀ call ∈ calls, Allowed t O (before ++ calls) call) ∧
      CellPublished (before ++ calls) target cell' := by
  cases h with
  | noConfig hconfigured => exact hconfigured.published htarget hcell
  | notSealed hconfigured _ => exact hconfigured.published htarget hcell
  | @posted _ gets c seed body secret reply hconfigured hseal =>
    obtain ⟨hgets, hcell'⟩ := hconfigured.published htarget hcell
    have hsub : before ++ gets ⊆
        before ++ (gets ++ [.post (target.via proxy body) reply]) := by
      rw [← List.append_assoc]
      exact List.subset_append_left _ _
    refine ⟨fun call hcall => ?_, fun c' hc' => (hcell' c' hc').mono hsub⟩
    rcases List.mem_append.1 hcall with hcall | hcall
    · exact (hgets call hcall).mono hsub
    · rw [List.mem_singleton.1 hcall]
      exact ⟨proxy, hproxy, target, htarget, _, body, c, seed, secret, rfl,
        (hcell' c hconfigured.cell_eq).mono hsub, hseal, padded_length⟩

theorem Exchanged.allowed {retries : Nat} {r : Except OdohError (List UInt8)}
    {queryWire : List UInt8} (hproxy : proxy ∈ t.proxyUrls) (htarget : target ∈ t.targets)
    (hcell : CellPublished before target cell)
    (h : Exchanged proxy target (plaintext t queryWire) retries cell calls r cell') :
    (∀ call ∈ calls, Allowed t O (before ++ calls) call) ∧
      CellPublished (before ++ calls) target cell' := by
  induction h generalizing before with
  | settled hattempt _ => exact hattempt.allowed hproxy htarget hcell
  | @retried _ _ _ _ calls calls' _ _ hattempt _ ih =>
    obtain ⟨hfirst, -⟩ := hattempt.allowed hproxy htarget hcell
    have hdropped : CellPublished (O := O) (before ++ calls) target none :=
      fun c hc => nomatch hc
    obtain ⟨hrest, hlast⟩ := ih hdropped
    rw [List.append_assoc] at hrest hlast
    refine ⟨fun call hcall => ?_, hlast⟩
    rcases List.mem_append.1 hcall with hcall | hcall
    · refine (hfirst call hcall).mono ?_
      rw [← List.append_assoc]
      exact List.subset_append_left _ _
    · exact hrest call hcall

end

/-- All that has left the host was allowed to, and every cell holds what its target published. -/
structure Inv (w : World t N) : Prop where
  calls : ∀ call ∈ w.calls, Allowed t O w.calls call
  cells : ∀ i, CellPublished w.calls (t.targets.get i) (w.config i)

/-- The action keeps the invariant. -/
def Keeps {α : Type} (m : M t N α) : Prop := ∀ w, Inv w → Inv (m w).2

theorem Keeps.bind {α β : Type} {m : M t N α} {f : α → M t N β} (hm : Keeps m)
    (hf : ∀ a, Keeps (f a)) : Keeps (m >>= f) := fun w hw => hf _ _ (hm w hw)

theorem Keeps.pure {α : Type} (a : α) : Keeps (pure a : M t N α) := fun _ hw => hw

theorem Keeps.mapM {α β : Type} {f : α → M t N β} :
    ∀ l : List α, (∀ a ∈ l, Keeps (f a)) → Keeps (l.mapM f)
  | [], _ => .pure _
  | a :: l, h => by
    rw [List.mapM_cons]
    exact (h a List.mem_cons_self).bind fun _ =>
      (Keeps.mapM l fun b hb => h b (List.mem_cons_of_mem a hb)).bind fun _ => .pure _

end

section
variable {t : OdohTransport} {O : OdohRs} {N : Network O} {H : Hickory} (W : DnsWire H)

variable (t N) in
/-- The arm as it is built. -/
def fresh (net : N.State) : World t N := ⟨fun _ => none, net, []⟩

theorem outcome_eq (T : UnicodeTables) (r : W.Response) (qname : Str) (qtype : RecordType)
    (block : Bool) :
    (outcome W T r qname qtype block).mapError OdohError.kindLabel =
      outcomeFromParts H T (W.answers r) (W.responseCode r) qname qtype block := by
  unfold outcome outcomeFromParts
  cases W.responseCode r <;> rfl

/-- The arm in the world `w`, as `Resolver` has it. -/
def asArm (dnssec : Bool) (w : World t N) : OdohArm H where
  exchange name qtype := ((response W dnssec name qtype w).1.map fun r =>
    (W.answers r, W.responseCode r)).mapError OdohError.kindLabel

/-- The resolver's result with this arm: the outcome of `resolve`, or its failure by kind. -/
theorem resolveViaOdoh_concrete (T : UnicodeTables) (dnssec : Bool) (w : World t N)
    (res : Resolver H) (name : Str) (qtype : RecordType) :
    res.resolveViaOdoh T (asArm W dnssec w) name qtype =
      ((resolve W T dnssec name qtype res.config.upstream.blockPrivateRdata w).1.mapError fun e =>
        if res.config.upstream.failClosed then .allUpstreamsFailed
        else .resolver ("odoh:" ++ e.kindLabel)) := by
  simp only [Resolver.resolveViaOdoh, asArm, resolve, run_bind, run_pure]
  cases (response W dnssec name qtype w).1 with
  | error e =>
    simp only [Except.map, Except.mapError, Except.bind]
    split <;> rfl
  | ok r =>
    simp only [Except.map, Except.mapError, Except.bind]
    rw [← outcome_eq]
    cases outcome W T r name qtype res.config.upstream.blockPrivateRdata with
    | ok out => rfl
    | error e =>
      simp only [Except.mapError]
      split <;> rfl

end

end RustyDns.L3.Odoh
