import RustyDns.L2Authority.Lookup
import RustyDns.L2Authority.Scope
import RustyDns.L4Daemon.Policy
import RustyDns.L4Daemon.RateLimiter
import RustyDns.L4Daemon.Respond
import RustyDns.L4Daemon.Rewrite

/-!
# The request pipeline

`handle_request` of `rustydnsd/src/handler.rs`: ten gates in a row, the first that fires gives the
reply, and the upstream resolver is asked if none does. A request changes two things, the rate
limiter and what is asked upstream (`World`); everything else of the handler is read only. The clock
readings of a request are an argument. Metrics and log output are left out; the query log is in
`QueryLog`.

Results:
* `handleRequest_eq`: the whole function as a search through the list of gates.
* `pipeline_order_and_no_leak`: the order, the single upstream call, and that for names of the
  authority neither the reply nor the calls depend on blocklist, rewrites, resolver and the filtering
  part of the client's policy.
-/

namespace RustyDns.L4.Pipeline

open RustyDns.Lib RustyDns.L1 RustyDns.L3
open RustyDns.L2.Auth RustyDns.L2.Zone
open RustyDns.L4.Rewrite (RewriteMap)
open RustyDns.L4.Rate (RateLimiter)

/-! ## State -/

/-- What a request changes: the limiter, and the calls of `Resolver::resolve` so far. -/
structure World where
  limiter : RateLimiter
  resolved : List (Str × Str)

/-- The readings of one request: the monotonic clock and the Unix time. -/
structure Clock where
  instant : Rat
  nowUnix : Nat

/-- mirrors crates/rustydnsd/src/handler.rs:115-127 -/
structure DnsHandler (H : Hickory) extends L4.DnsHandler H where
  authority : Authority
  policyByIp : PolicyMap
  rewrites : RewriteMap

/-- mirrors crates/rustydnsd/src/handler.rs:898-913 -/
structure QueryCtx where
  srcIp : IpAddr
  policy : PolicyDecision
  qname : Str
  qnameCanon : Str
  qtype : RecordType
  qtypeLabel : Str
  qclass : DnsClass

/-- The part of the context that the last two stages read. -/
def QueryCtx.filtering (ctx : QueryCtx) : L4.QueryCtx where
  policy := ctx.policy.toPolicyDecision
  qname := ctx.qname
  qnameCanon := ctx.qnameCanon
  qtype := ctx.qtype
  qtypeLabel := ctx.qtypeLabel

/-- mirrors crates/rustydnsd/src/handler.rs:929-936 -/
def reject {H : Hickory} (code : ResponseCode) : Reply H where
  code := code
  authoritative := false
  answers := []
  servedBy := .rejected

/-- The zone test on a name: the code of `name_within_zone`, on names without trailing dots.
mirrors crates/rustydnsd/src/handler.rs:1071-1089 -/
def nameInAnyZone (qname : Str) (zones : List Str) : Bool :=
  let lower := (qname.trimEndMatches '.').toAsciiLowercase
  zones.any fun zone =>
    let z := (zone.trim.trimEndMatches '.').toAsciiLowercase
    !z.isEmpty && nameWithinZone lower z

/-! ## Gates on the request -/

section
variable {H : Hickory}

/-- mirrors crates/rustydnsd/src/handler.rs:587-599 -/
def gateOpcode (request : Request H) : Option (Reply H) :=
  if request.metadata.opCode ≠ .query then some (reject .notImp)
  else if request.metadata.messageType ≠ .query then some (reject .refused)
  else none

/-- mirrors crates/rustydnsd/src/handler.rs:616-624 -/
def gateEdnsVersion (request : Request H) : Option (Reply H) :=
  match request.edns with
  | none => none
  | some edns => if 0 < edns.version then some (reject .badVers) else none

/-- mirrors crates/rustydnsd/src/handler.rs:634-645 -/
def gateAnyQtype (ctx : QueryCtx) : Option (Reply H) :=
  match ctx.qtype with
  | .any | .axfr | .ixfr => some (reject .refused)
  | _ => none

/-- mirrors crates/rustydnsd/src/handler.rs:602-608 -/
def gateClass (ctx : QueryCtx) : Option (Reply H) :=
  if ctx.qclass ≠ .internet then some (reject .notImp) else none

/-- mirrors crates/rustydnsd/src/handler.rs:650-662 -/
def gateSchedule (ctx : QueryCtx) : Option (Reply H) :=
  if ctx.policy.scheduleBlocked then some (reject .refused) else none

/-- mirrors crates/rustydnsd/src/handler.rs:667-683 -/
def gateZones (ctx : QueryCtx) : Option (Reply H) :=
  if !ctx.policy.zonesAllowed.isEmpty && !nameInAnyZone ctx.qnameCanon ctx.policy.zonesAllowed then
    some (reject .refused)
  else none

end

namespace DnsHandler

variable {H : Hickory} (S : HickoryServer H) (T : UnicodeTables) (h : DnsHandler H)

/-! ## Gates on the handler -/

/-- mirrors crates/rustydnsd/src/handler.rs:568-583 -/
def gateRateLimit (clock : Clock) (ctx : QueryCtx) : StateM World (Option (Reply H)) := do
  let world ← get
  let (decision, limiter) := world.limiter.check clock.instant ctx.srcIp
  set { world with limiter }
  pure (if decision = .refuse then some (reject .refused) else none)

/-- mirrors crates/rustydnsd/src/handler.rs:687-696 -/
def gateAuthority (ctx : QueryCtx) : Option (Reply H) := do
  let records ← h.authority.lookup ctx.qnameCanon ctx.qtypeLabel
  pure { code := .noError
         authoritative := true
         answers := dnsRecordsToRrs H records
         servedBy := .authority }

/-- mirrors crates/rustydnsd/src/handler.rs:701-723 -/
def gateRewrite (ctx : QueryCtx) : Option (Reply H) := do
  let decision ← h.rewrites.lookup T ctx.qnameCanon ctx.qtype
  let (code, answers) : ResponseCode × List (Record H.Name) :=
    match decision with
    | .nxdomain => (.nxDomain, [])
    | .noData => (.noError, [])
    | .answer records => (.noError, dnsRecordsToRrs H records)
  pure { code, authoritative := false, answers, servedBy := .rewrite }

/-- The last stage, with its call of the resolver.
mirrors crates/rustydnsd/src/handler.rs:757-859 -/
def stageResolve (ctx : QueryCtx) : StateM World (Reply H) := do
  modify fun world => { world with resolved := world.resolved ++ [(ctx.qname, ctx.qtypeLabel)] }
  pure (h.toDnsHandler.stageResolve T ctx.filtering)

/-- The context of a query. -/
def queryCtx (clock : Clock) (request : Request H) (query : Query H) : QueryCtx where
  srcIp := request.src
  policy := resolvePolicy h.policyByIp clock.nowUnix request.src
  qname := S.display query.name
  qnameCanon := canonicalQname (S.display query.name)
  qtype := query.queryType
  qtypeLabel := H.typeLabel query.queryType
  qclass := query.queryClass

/-- `finish`, without the query log.
mirrors crates/rustydnsd/src/handler.rs:864-889 -/
def finish (request : Request H) (reply : Reply H) : Response H :=
  respond S request reply.code reply.authoritative reply.answers

/-- mirrors crates/rustydnsd/src/handler.rs:944-1045 -/
def handleRequest (clock : Clock) (request : Request H) : StateM World (Response H) :=
  match request.info with
  | none => pure (respond S request .formErr false [])
  | some query => do
    let ctx := h.queryCtx S clock request query
    let limited ← gateRateLimit clock ctx
    match limited.or (gateOpcode request) |>.or (gateEdnsVersion request)
      |>.or (gateAnyQtype ctx) |>.or (gateClass ctx) with
    | some reply => pure (finish S request reply)
    | none =>
      match (gateSchedule ctx).or (gateZones ctx) |>.or (h.gateAuthority ctx)
        |>.or (h.gateRewrite T ctx) |>.or (h.toDnsHandler.gateBlocklist T ctx.filtering) with
      | some reply => pure (finish S request reply)
      | none => do
        let reply ← h.stageResolve T ctx
        pure (finish S request reply)

end DnsHandler

/-! ## The list of gates -/

inductive Gate where
  | rateLimit
  | opcode
  | ednsVersion
  | anyQtype
  | qclass
  | schedule
  | zones
  | authority
  | rewrite
  | blocklist
  deriving DecidableEq, Repr

namespace Gate

/-- The gates that decide for a name of the authority, the authority last. -/
def upToAuthority : List Gate :=
  [.rateLimit, .opcode, .ednsVersion, .anyQtype, .qclass, .schedule, .zones, .authority]

def order : List Gate := upToAuthority ++ [.rewrite, .blocklist]

end Gate

namespace DnsHandler

variable {H : Hickory} {S : HickoryServer H} {T : UnicodeTables}

/-- What a gate says about a query, none if it lets the query pass. -/
def verdict (T : UnicodeTables) (h : DnsHandler H) (clock : Clock) (request : Request H)
    (ctx : QueryCtx) (limiter : RateLimiter) : Gate → Option (Reply H)
  | .rateLimit =>
    if (limiter.check clock.instant ctx.srcIp).1 = .refuse then some (reject .refused) else none
  | .opcode => gateOpcode request
  | .ednsVersion => gateEdnsVersion request
  | .anyQtype => gateAnyQtype ctx
  | .qclass => gateClass ctx
  | .schedule => gateSchedule ctx
  | .zones => gateZones ctx
  | .authority => h.gateAuthority ctx
  | .rewrite => h.gateRewrite T ctx
  | .blocklist => h.toDnsHandler.gateBlocklist T ctx.filtering

/-- The world after a request: one check of the limiter, and the calls `calls`. -/
def after (clock : Clock) (request : Request H) (w : World) (calls : List (Str × Str)) : World where
  limiter := (w.limiter.check clock.instant request.src).2
  resolved := w.resolved ++ calls

theorem findSome_order (v : Gate → Option (Reply H)) :
    Gate.order.findSome? v =
      ((v .rateLimit).or (v .opcode) |>.or (v .ednsVersion) |>.or (v .anyQtype)
        |>.or (v .qclass)).or
      ((v .schedule).or (v .zones) |>.or (v .authority) |>.or (v .rewrite)
        |>.or (v .blocklist)) := by
  simp only [Gate.order, Gate.upToAuthority, List.cons_append, List.nil_append, Fold.findSome_cons,
    List.findSome?_nil, Option.or_assoc, Option.or_none]

theorem handleRequest_of_none {h : DnsHandler H} {clock : Clock} {request : Request H}
    (hinfo : request.info = none) (w : World) :
    h.handleRequest S T clock request w = (respond S request .formErr false [], w) := by
  unfold handleRequest
  rw [hinfo]
  rfl

theorem handleRequest_eq {h : DnsHandler H} {clock : Clock} {request : Request H} {query : Query H}
    (hone : request.queries = [query]) (w : World) :
    h.handleRequest S T clock request w =
      let ctx := h.queryCtx S clock request query
      match Gate.order.findSome? (h.verdict T clock request ctx w.limiter) with
      | some reply => (finish S request reply, after clock request w [])
      | none => (finish S request (h.toDnsHandler.stageResolve T ctx.filtering),
          after clock request w [(ctx.qname, ctx.qtypeLabel)]) := by
  have hinfo : request.info = some query := by
    unfold Request.info
    rw [hone]
  unfold handleRequest
  simp only [hinfo, findSome_order]
  have hsrc : (h.queryCtx S clock request query).srcIp = request.src := rfl
  generalize h.queryCtx S clock request query = ctx at hsrc ⊢
  -- the limiter is asked first, whatever the other gates say
  have hlimited : gateRateLimit clock ctx w =
      (h.verdict T clock request ctx w.limiter .rateLimit, after clock request w []) := by
    simp only [gateRateLimit, verdict, after, List.append_nil, ← hsrc]
    rfl
  simp only [bind, StateT.bind, hlimited]
  generalize h.verdict T clock request ctx w.limiter .rateLimit = limited
  simp only [verdict]
  cases hearly : (limited.or (gateOpcode request)).or (gateEdnsVersion request)
      |>.or (gateAnyQtype ctx) |>.or (gateClass ctx) with
  | some reply => rfl
  | none =>
    simp only [Option.none_or]
    cases hlate : (gateSchedule ctx).or (gateZones ctx) |>.or (h.gateAuthority ctx)
        |>.or (h.gateRewrite T ctx) |>.or (h.toDnsHandler.gateBlocklist T ctx.filtering) with
    | some reply => rfl
    | none =>
      simp only [stageResolve, after, List.append_nil]
      rfl

theorem finish_responseCode (S : HickoryServer H) (request : Request H) (reply : Reply H) :
    (finish S request reply).metadata.responseCode = reply.code := by
  unfold finish respond
  dsimp only
  split <;> rfl

/-- No gate before the blocklist answers. -/
def ReachesBlocklist (T : UnicodeTables) (h : DnsHandler H) (clock : Clock) (request : Request H)
    (ctx : QueryCtx) (limiter : RateLimiter) : Prop :=
  ∀ g ∈ Gate.upToAuthority ++ [.rewrite], h.verdict T clock request ctx limiter g = none

theorem handleRequest_of_reaches {h : DnsHandler H} {clock : Clock} {request : Request H}
    {query : Query H} (hone : request.queries = [query]) {w : World}
    (hreach : h.ReachesBlocklist T clock request (h.queryCtx S clock request query) w.limiter) :
    (h.handleRequest S T clock request w).1 =
      let ctx := (h.queryCtx S clock request query).filtering
      finish S request ((h.toDnsHandler.gateBlocklist T ctx).getD
        (h.toDnsHandler.stageResolve T ctx)) := by
  have hearly := List.findSome?_eq_none_iff.2 hreach
  have hlast : Gate.order = (Gate.upToAuthority ++ [.rewrite]) ++ [.blocklist] := rfl
  rw [handleRequest_eq hone, hlast]
  simp only [List.findSome?_append, hearly, Option.none_or, List.findSome?_singleton, verdict]
  cases h.toDnsHandler.gateBlocklist T (h.queryCtx S clock request query).filtering <;> rfl

/-! ## Names of the authority -/

theorem labelsOf_canonicalQname (name : Str) : labelsOf (canonicalQname name) = labelsOf name := by
  rw [canonicalQname_eq]
  unfold labelsOf
  rw [Str.trim_toAsciiLowercase, Str.toAsciiLowercase_idem]

theorem isAuthoritativeFor_canonicalQname (auth : Authority) (name : Str) :
    auth.isAuthoritativeFor (canonicalQname name) = auth.isAuthoritativeFor name := by
  unfold Authority.isAuthoritativeFor
  rw [normaliseName_eq_spell, normaliseName_eq_spell, labelsOf_canonicalQname]

section
variable {h h₁ h₂ : DnsHandler H} {clock : Clock} {request : Request H} {query : Query H}

theorem gateAuthority_isSome {ctx : QueryCtx}
    (hauth : h.authority.isAuthoritativeFor ctx.qnameCanon = true) :
    (h.gateAuthority ctx).isSome = true := by
  have hsome : (h.authority.lookup ctx.qnameCanon ctx.qtypeLabel).isSome = true := by
    rw [lookup_isSome, hauth]
  obtain ⟨records, hrecords⟩ := Option.isSome_iff_exists.1 hsome
  simp [gateAuthority, hrecords]

/-- Handlers that agree on what the gates up to the authority read. -/
structure Agree (h₁ h₂ : DnsHandler H) (src : IpAddr) : Prop where
  authority : h₁.authority = h₂.authority
  schedule : (clientPolicy h₁.policyByIp src).schedule = (clientPolicy h₂.policyByIp src).schedule
  zones : (clientPolicy h₁.policyByIp src).zonesAllowed =
    (clientPolicy h₂.policyByIp src).zonesAllowed

theorem verdict_congr (hag : Agree h₁ h₂ request.src) (limiter : RateLimiter) {g : Gate}
    (hg : g ∈ Gate.upToAuthority) :
    h₁.verdict T clock request (h₁.queryCtx S clock request query) limiter g =
      h₂.verdict T clock request (h₂.queryCtx S clock request query) limiter g := by
  have hauth := hag.authority
  have hschedule := hag.schedule
  have hzones := hag.zones
  cases g with
  | rateLimit | opcode | ednsVersion | anyQtype | qclass => rfl
  | schedule =>
    simp only [verdict, gateSchedule, queryCtx, resolvePolicy_eq, CompiledPolicy.decideAt, hschedule]
  | zones => simp only [verdict, gateZones, queryCtx, resolvePolicy_eq, CompiledPolicy.decideAt, hzones]
  | authority => simp only [verdict, gateAuthority, queryCtx, hauth]
  | rewrite | blocklist => simp [Gate.upToAuthority] at hg

/-- For a name of the authority the search ends at the authority or before. -/
theorem findSome_authoritative
    (hauth : h.authority.isAuthoritativeFor (S.display query.name) = true) (T : UnicodeTables)
    (clock : Clock) (request : Request H) (limiter : RateLimiter) :
    ∃ reply,
      Gate.upToAuthority.findSome?
        (h.verdict T clock request (h.queryCtx S clock request query) limiter) = some reply ∧
      Gate.order.findSome?
        (h.verdict T clock request (h.queryCtx S clock request query) limiter) = some reply := by
  have hfires : (h.verdict T clock request (h.queryCtx S clock request query) limiter
      .authority).isSome = true :=
    gateAuthority_isSome (by rwa [queryCtx, isAuthoritativeFor_canonicalQname])
  have hsome : (Gate.upToAuthority.findSome?
      (h.verdict T clock request (h.queryCtx S clock request query) limiter)).isSome = true :=
    List.findSome?_isSome_iff.2 ⟨.authority, by decide, hfires⟩
  obtain ⟨reply, hreply⟩ := Option.isSome_iff_exists.1 hsome
  refine ⟨reply, hreply, ?_⟩
  rw [Gate.order, List.findSome?_append, hreply, Option.some_or]

theorem authoritative_reply_congr (hone : request.queries = [query]) (hag : Agree h₁ h₂ request.src)
    (hauth : h₁.authority.isAuthoritativeFor (S.display query.name) = true) {w₁ w₂ : World}
    (hlim : w₁.limiter = w₂.limiter) (T : UnicodeTables) (clock : Clock) :
    ∃ reply, h₁.handleRequest S T clock request w₁ = (reply, after clock request w₁ []) ∧
      h₂.handleRequest S T clock request w₂ = (reply, after clock request w₂ []) := by
  obtain ⟨reply₁, hupTo₁, horder₁⟩ := findSome_authoritative hauth T clock request w₁.limiter
  rw [hag.authority] at hauth
  obtain ⟨reply₂, hupTo₂, horder₂⟩ := findSome_authoritative hauth T clock request w₁.limiter
  obtain rfl : reply₁ = reply₂ := by
    rw [Fold.findSome_congr fun g hg => verdict_congr hag w₁.limiter hg, hupTo₂] at hupTo₁
    exact Option.some.inj hupTo₁.symm
  refine ⟨finish S request reply₁, ?_, ?_⟩
  · rw [handleRequest_eq hone]
    simp only [horder₁]
  · rw [handleRequest_eq hone, ← hlim]
    simp only [horder₂]

end

end DnsHandler

open RustyDns.L4.Pipeline.DnsHandler in
/-- **Pipeline order and no leak.** A request with one question is answered by the first gate that
fires, and only if none fires by the resolver, which is then asked once. For a name the authority
answers for, two handlers that agree on limiter, clock, authority and the schedule and allowed zones
of the client send the same response and ask nobody upstream, whatever else they hold. -/
theorem pipeline_order_and_no_leak (H : Hickory) (S : HickoryServer H) (T : UnicodeTables)
    (clock : Clock) (request : Request H) (query : Query H) (hone : request.queries = [query]) :
    (∀ (h : DnsHandler H) (w : World),
      let ctx := h.queryCtx S clock request query
      let (response, w') := h.handleRequest S T clock request w
      (∀ reply, Gate.order.findSome? (h.verdict T clock request ctx w.limiter) = some reply →
        response = finish S request reply ∧ w'.resolved = w.resolved) ∧
      (Gate.order.findSome? (h.verdict T clock request ctx w.limiter) = none →
        response = finish S request (h.toDnsHandler.stageResolve T ctx.filtering) ∧
        w'.resolved = w.resolved ++ [(ctx.qname, ctx.qtypeLabel)])) ∧
    (∀ (h₁ h₂ : DnsHandler H) (w₁ w₂ : World), w₁.limiter = w₂.limiter →
      Agree h₁ h₂ request.src →
      h₁.authority.isAuthoritativeFor (S.display query.name) = true →
      let (response₁, w₁') := h₁.handleRequest S T clock request w₁
      let (response₂, w₂') := h₂.handleRequest S T clock request w₂
      response₁ = response₂ ∧ w₁'.resolved = w₁.resolved ∧ w₂'.resolved = w₂.resolved) := by
  refine ⟨fun h w => ?_, fun h₁ h₂ w₁ w₂ hlim hag hauth => ?_⟩
  · simp only [handleRequest_eq hone]
    cases Gate.order.findSome?
        (h.verdict T clock request (h.queryCtx S clock request query) w.limiter) with
    | some reply => simp [after]
    | none => simp [after]
  · obtain ⟨reply, h₁eq, h₂eq⟩ := authoritative_reply_congr hone hag hauth hlim T clock
    simp [h₁eq, h₂eq, after]

/-- An authority for `b.` without records. -/
def emptyAuthority : Authority where
  config := {}
  meshZone := "b.".toList
  staticPart := { records := ∅, zones := [] }
  snapshot := { zones := [], records := ∅ }
  meshWatermark := none

/-- A handler that rewrites nothing and has no policies. -/
def openHandler : DnsHandler textNames where
  toDnsHandler := aliasHandler
  authority := emptyAuthority
  policyByIp := ∅
  rewrites := {}

/-- A handler that would block `a.b`, rewrite it, and let the client of the query bypass both. -/
def strictHandler : DnsHandler textNames where
  blocklist := L2.Blocklist.BlocklistEngine.loadManyWithTrust .asciiOnly
    (L2.Blocklist.BlocklistEngine.new .asciiOnly (fun _ => .error "") {})
    [("a.b".toList, .untrusted)]
  resolver := aliasHandler.resolver
  sinkholeIp := none
  authority := emptyAuthority
  policyByIp := buildPolicyMap
    [{ clientIp := some "10.0.0.9".toList, blocklistBypass := true }]
  rewrites := RewriteMap.fromRules [{ name := "a.b".toList, block := true }]

def idleWorld : World := { limiter := Rate.RateLimiter.new {} 0, resolved := [] }

theorem pipeline_order_and_no_leak_mesh :
    let answer (h : DnsHandler textNames) :=
      h.handleRequest plainServer .asciiOnly ⟨0, 1700000000⟩ (plainRequest none) idleWorld
    (answer openHandler).1 = (answer strictHandler).1 ∧
    (answer openHandler).2.resolved = [] ∧ (answer strictHandler).2.resolved = [] ∧
    (answer openHandler).1.metadata.authoritative = true := by
  intro answer
  obtain ⟨hreply, hopen, hstrict⟩ := (pipeline_order_and_no_leak textNames plainServer .asciiOnly
    ⟨0, 1700000000⟩ (plainRequest none) _ rfl).2 openHandler strictHandler idleWorld idleWorld rfl
    ⟨rfl, by decide +kernel, by decide +kernel⟩ (by decide +kernel)
  exact ⟨hreply, hopen, hstrict, by decide +kernel⟩

end RustyDns.L4.Pipeline
