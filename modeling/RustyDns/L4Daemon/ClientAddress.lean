import RustyDns.Lib.AddressText
import RustyDns.L4Daemon.QueryLog

/-!
# One client, two address families

A dual-stack socket reports an IPv4 client under its IPv4-mapped IPv6 address. The policy table, the
rate limiter and the logs each bring a client's address to one form with code of their own
(`canonicalClientIp`, `normaliseMapped`, `anonymized`). Here: whichever of the two addresses its
packets carry, a client is treated the same, over whole runs.

Results:
* `handleLogged_readdress`: one request, with its reply, the next state and the logs.
* `serveLogged_congr`: a run of requests.
* `address_family_blind`: an IPv4 address and its mapped form.
-/

namespace RustyDns.L4.Pipeline

open RustyDns.Lib RustyDns.L1 RustyDns.L3
open RustyDns.L4.Rate (RateLimiter)

/-- Two addresses of one client. -/
def SameClient (a b : IpAddr) : Prop := canonicalClientIp a = canonicalClientIp b

section
variable {a b : IpAddr}

theorem normaliseMapped_eq (ip : IpAddr) : Rate.normaliseMapped ip = canonicalClientIp ip := by
  cases ip <;> rfl

theorem check_congr (h : SameClient a b) (limiter : RateLimiter) (now : Rat) :
    limiter.check now a = limiter.check now b := by
  have hnorm : Rate.normaliseMapped a = Rate.normaliseMapped b := by
    rw [normaliseMapped_eq, normaliseMapped_eq, h]
  unfold RateLimiter.check Rate.exempt Rate.clientKey
  rw [hnorm]

theorem resolvePolicy_congr (h : SameClient a b) (map : PolicyMap) (nowUnix : Nat) :
    resolvePolicy map nowUnix a = resolvePolicy map nowUnix b := by
  rw [resolvePolicy, resolvePolicy, h]

theorem anonymized_canonical (ip : IpAddr) :
    (ClientId.fromIp (canonicalClientIp ip)).anonymized = (ClientId.fromIp ip).anonymized := by
  cases ip with
  | v4 v4 => rfl
  | v6 v6 =>
    cases hmapped : v6.toIpv4Mapped <;>
      simp only [canonicalClientIp, ClientId.fromIp, ClientId.anonymized, hmapped]

theorem anonymized_congr (h : SameClient a b) :
    (ClientId.fromIp a).anonymized = (ClientId.fromIp b).anonymized := by
  rw [← anonymized_canonical a, h, anonymized_canonical]

theorem logQuery_congr (h : SameClient a b) (hashQname : Str → UInt64) (now : Nat)
    (policy : PolicyDecision) (qnameCanon qtype : Str) (code : ResponseCode) (servedBy : ServedBy)
    (journal : Journal) :
    logQuery hashQname now policy (.fromIp a) qnameCanon qtype code servedBy journal =
      logQuery hashQname now policy (.fromIp b) qnameCanon qtype code servedBy journal := by
  have hclient : AnonymisedClient.fromClient (.fromIp a) =
      AnonymisedClient.fromClient (.fromIp b) := by
    simp only [AnonymisedClient.fromClient, anonymized_congr h]
  simp only [logQuery, QueryLog.record, hclient, anonymized_congr h]

end

namespace DnsHandler

variable {H : Hickory} (S : HickoryServer H) (T : UnicodeTables) (hashQname : Str → UInt64)
  (h : DnsHandler H)

/-- The same request under another address of its client. -/
def readdress (request : Request H) (src : IpAddr) : Request H := { request with src }

variable {a b : IpAddr}

/-- The contexts of the two requests differ in the raw address only. -/
theorem queryCtx_readdress (hsame : SameClient a b) (clock : Clock) (request : Request H)
    (query : Query H) :
    h.queryCtx S clock (readdress request a) query =
      { h.queryCtx S clock (readdress request b) query with srcIp := a } := by
  simp only [queryCtx, readdress, resolvePolicy_congr hsame]

/-- Only the limiter reads the raw address. -/
theorem verdict_readdress (hsame : SameClient a b) (clock : Clock) (request : Request H)
    (query : Query H) (limiter : RateLimiter) (g : Gate) :
    h.verdict T clock (readdress request a) (h.queryCtx S clock (readdress request a) query)
        limiter g =
      h.verdict T clock (readdress request b) (h.queryCtx S clock (readdress request b) query)
        limiter g := by
  rw [queryCtx_readdress S h hsame]
  cases g with
  | rateLimit =>
    simp only [verdict, check_congr hsame]
    rfl
  | opcode => rfl
  | ednsVersion => rfl
  | anyQtype => rfl
  | qclass => rfl
  | schedule => rfl
  | zones => rfl
  | authority => rfl
  | rewrite => rfl
  | blocklist => rfl

theorem settle_readdress (hsame : SameClient a b) (clock : Clock) (request : Request H)
    (query : Query H) (limiter : RateLimiter) :
    h.settle T clock (readdress request a) (h.queryCtx S clock (readdress request a) query)
        limiter =
      h.settle T clock (readdress request b) (h.queryCtx S clock (readdress request b) query)
        limiter := by
  have hverdict := funext (h.verdict_readdress S T hsame clock request query limiter)
  unfold settle
  rw [hverdict, queryCtx_readdress S h hsame]
  rfl

theorem after_readdress (hsame : SameClient a b) (clock : Clock) (request : Request H) (w : World)
    (calls : List (Str × Str)) :
    after clock (readdress request a) w calls = after clock (readdress request b) w calls := by
  simp only [after, readdress, check_congr hsame]

theorem handleRequest_readdress (hsame : SameClient a b) (clock : Clock) (request : Request H)
    (w : World) :
    h.handleRequest S T clock (readdress request a) w =
      h.handleRequest S T clock (readdress request b) w := by
  have hinfo : (readdress request a).info = (readdress request b).info := rfl
  cases hquery : (readdress request b).info with
  | none =>
    unfold handleRequest
    rw [hinfo, hquery]
    rfl
  | some query =>
    have honeb : (readdress request b).queries = [query] := Request.info_eq_some_iff.1 hquery
    have honea : (readdress request a).queries = [query] := honeb
    have hverdict := funext (h.verdict_readdress S T hsame clock request query w.limiter)
    simp only [handleRequest_eq honea, handleRequest_eq honeb, hverdict, after_readdress hsame]
    cases Gate.order.findSome? (h.verdict T clock (readdress request b)
        (h.queryCtx S clock (readdress request b) query) w.limiter) with
    | some reply => rfl
    | none =>
      simp only [queryCtx_readdress S h hsame]
      rfl

theorem logRequest_readdress (hsame : SameClient a b) (clock : Clock) (request : Request H)
    (limiter : RateLimiter) (journal : Journal) :
    h.logRequest S T hashQname clock (readdress request a) limiter journal =
      h.logRequest S T hashQname clock (readdress request b) limiter journal := by
  have hinfo : (readdress request a).info = (readdress request b).info := rfl
  unfold logRequest
  rw [hinfo]
  cases (readdress request b).info with
  | none =>
    simp only [readdress, resolvePolicy_congr hsame]
    exact logQuery_congr hsame ..
  | some query =>
    dsimp only
    rw [h.settle_readdress S T hsame clock request query limiter,
      queryCtx_readdress S h hsame clock request query]
    exact logQuery_congr hsame ..

theorem handleLogged_readdress (hsame : SameClient a b) (clock : Clock) (request : Request H)
    (state : World × Journal) :
    h.handleLogged S T hashQname clock (readdress request a) state =
      h.handleLogged S T hashQname clock (readdress request b) state := by
  unfold handleLogged
  simp only [bind, StateT.bind, get, getThe, MonadStateOf.get, StateT.get, pure,
    h.handleRequest_readdress S T hsame, h.logRequest_readdress S T hashQname hsame]

/-- Two packets that differ in the address their client sends from, if at all. -/
structure SamePacket (p q : Clock × Request H) : Prop where
  clock : p.1 = q.1
  client : SameClient p.2.src q.2.src
  rest : readdress p.2 q.2.src = q.2

/-- A run: no reply, no later state and no log shows which address a packet came from. -/
theorem serveLogged_congr {packets packets' : List (Clock × Request H)}
    (hsame : List.Forall₂ SamePacket packets packets') (state : World × Journal) :
    h.serveLogged S T hashQname packets state = h.serveLogged S T hashQname packets' state := by
  induction hsame generalizing state with
  | nil => rfl
  | cons hpacket hrest ih =>
    rename_i p q ps qs
    obtain ⟨hclock, hclient, hreq⟩ := hpacket
    have hstep : h.handleLogged S T hashQname p.1 p.2 state =
        h.handleLogged S T hashQname q.1 q.2 state := by
      rw [hclock, ← hreq]
      exact h.handleLogged_readdress S T hashQname hclient q.1 p.2 state
    unfold serveLogged at ih ⊢
    simp only [List.mapM_cons, bind, StateT.bind, hstep, ih]

end DnsHandler

/-- A policy for one client, whichever way its address is written. -/
theorem buildPolicyMap_congr {a b : IpAddr} (hsame : SameClient a b) {written written' : Str}
    (ha : parseIpAddr written = some a) (hb : parseIpAddr written' = some b)
    (before after : List NodePolicy) (policy : NodePolicy) :
    buildPolicyMap (before ++ { policy with clientIp := some written } :: after) =
      buildPolicyMap (before ++ { policy with clientIp := some written' } :: after) := by
  have hadd : ∀ map, addPolicy map { policy with clientIp := some written } =
      addPolicy map { policy with clientIp := some written' } := by
    intro map
    simp only [addPolicy, Option.bind_some, ha, hb]
    rw [hsame]
    rfl
  simp only [buildPolicyMap, List.foldl_append, List.foldl_cons, hadd]

theorem sameClient_mapped (x : Ipv4Addr) : SameClient (.v4 x) (.v6 x.toIpv6Mapped) := by
  simp only [SameClient, canonicalClientIp, Ipv6Addr.toIpv4Mapped_toIpv6Mapped]

/-- **Address-family blindness.** For an IPv4 address and its IPv4-mapped IPv6 form: the limiter
decides the same and has the same next state, the policy is the same, and so are the client in the
logs and, for any request, the reply, the next state and what is logged. Hence runs whose packets
differ in the form of such addresses only are the same; and a policy with either form is the same
policy. -/
theorem address_family_blind {H : Hickory} (S : HickoryServer H) (T : UnicodeTables)
    (hashQname : Str → UInt64) (x : Ipv4Addr) :
    let native := IpAddr.v4 x
    let mapped := IpAddr.v6 x.toIpv6Mapped
    (∀ (limiter : RateLimiter) now, limiter.check now native = limiter.check now mapped) ∧
    (∀ policies now, resolvePolicy (buildPolicyMap policies) now native =
      resolvePolicy (buildPolicyMap policies) now mapped) ∧
    (ClientId.fromIp native).anonymized = (ClientId.fromIp mapped).anonymized ∧
    (∀ (h : DnsHandler H) clock (request : Request H) state,
      h.handleLogged S T hashQname clock { request with src := native } state =
        h.handleLogged S T hashQname clock { request with src := mapped } state) ∧
    SameClient native mapped ∧
    (∀ (h : DnsHandler H) packets packets', List.Forall₂ DnsHandler.SamePacket packets packets' →
      ∀ state, h.serveLogged S T hashQname packets state =
        h.serveLogged S T hashQname packets' state) ∧
    ∀ before after (policy : NodePolicy) written written', parseIpAddr written = some native →
      parseIpAddr written' = some mapped →
      buildPolicyMap (before ++ { policy with clientIp := some written } :: after) =
        buildPolicyMap (before ++ { policy with clientIp := some written' } :: after) := by
  intro native mapped
  have hsame : SameClient native mapped := sameClient_mapped x
  refine ⟨check_congr hsame, fun policies => resolvePolicy_congr hsame _, anonymized_congr hsame,
    ?_, hsame, ?_, ?_⟩
  · intro h clock request state
    exact h.handleLogged_readdress S T hashQname hsame clock request state
  · intro h packets packets' hpackets state
    exact h.serveLogged_congr S T hashQname hpackets state
  · intro before after policy written written' ha hb
    exact buildPolicyMap_congr hsame ha hb before after policy

example : parseIpAddr "::ffff:10.0.0.9".toList =
    some (.v6 (Ipv4Addr.ofOctets 10 0 0 9).toIpv6Mapped) := by decide

end RustyDns.L4.Pipeline
