import RustyDns.L2Blocklist.Engine
import RustyDns.L3Resolver.Resolver

/-!
# Blocklist gate and forwarding

The last two stages of `rustydnsd/src/handler.rs`: `gate_blocklist`, and `stage_resolve` with the
defences that look at an upstream answer (CNAME cloaking, response-IP denylist). Metrics and log
output are left out. The stages before them do not read the blocklist or the resolver.

Results:
* `stageResolve_resolver`: what a reply served from the resolver went through.
* `forwarded_answer_unblocked`: such a reply names nothing blocked for the client's group and holds
  no denied address.
-/

namespace RustyDns.L4

open RustyDns.Lib RustyDns.L1 RustyDns.L2.Blocklist RustyDns.L3

/-- `ServedBy` of rustydnsd/src/query_log.rs. -/
inductive ServedBy where
  | authority
  | rewrite
  | blocklist
  | resolver
  | rejected
  | serverFailure
  deriving DecidableEq, Repr

/-- The part of `PolicyDecision` that the last two stages read.
mirrors crates/rustydnsd/src/handler.rs:69-79 -/
structure PolicyDecision where
  blocklistBypass : Bool := false
  blocklistGroup : Option Str := none

/-- mirrors crates/rustydnsd/src/handler.rs:898-913 -/
structure QueryCtx where
  policy : PolicyDecision
  qname : Str
  qnameCanon : Str
  qtype : RecordType
  qtypeLabel : Str

/-- mirrors crates/rustydnsd/src/handler.rs:918-923 -/
structure Reply (H : Hickory) where
  code : ResponseCode
  authoritative : Bool
  answers : List (Record H.Name)
  servedBy : ServedBy

/-- mirrors crates/rustydnsd/src/handler.rs:1096-1102 -/
def canonicalQname (name : Str) : Str :=
  if name.any Char.isUpper then name.toAsciiLowercase else name

/-- The context `handle_request` assembles for a query. -/
def QueryCtx.new (H : Hickory) (policy : PolicyDecision) (qname : Str) (qtype : RecordType) :
    QueryCtx where
  policy := policy
  qname := qname
  qnameCanon := canonicalQname qname
  qtype := qtype
  qtypeLabel := H.typeLabel qtype

/-! ## Records on the wire -/

section
variable (H : Hickory)

def recordDataToRdata : RecordData → Option (RData H.Name)
  | .a ip => some (.a ip)
  | .aaaa ip => some (.aaaa ip)
  | .cname target => (H.fromStr target).map .cname
  | .ptr target => (H.fromStr target).map .ptr
  | .ns target => (H.fromStr target).map .ns
  | .txt parts => some (.txt parts)
  | .mx preference exchange => (H.fromStr exchange).map (.mx preference)
  | .srv priority weight port target => (H.fromStr target).map (.srv priority weight port)

/-- mirrors crates/rustydnsd/src/handler.rs:1104-1150 -/
def dnsRecordToRr (rec : DnsRecord) : Option (Record H.Name) := do
  let name ← H.fromStr rec.name
  let ttl := min (max minPositiveCacheTtlSecs (min rec.ttl maxPositiveCacheTtlSecs)) (2 ^ 32 - 1)
  let data ← recordDataToRdata H rec.data
  pure { name, ttl, data }

/-- mirrors crates/rustydnsd/src/handler.rs:472-474 -/
def dnsRecordsToRrs (records : List DnsRecord) : List (Record H.Name) :=
  records.filterMap (dnsRecordToRr H)

end

/-! ## The handler -/

/-- The components the last two stages use.
mirrors crates/rustydnsd/src/handler.rs:115-127 -/
structure DnsHandler (H : Hickory) where
  blocklist : BlocklistEngine
  resolver : Resolver H
  sinkholeIp : Option IpAddr

namespace DnsHandler

def sinkholeTtlSecs : Nat := 60

variable {H : Hickory} (T : UnicodeTables) (h : DnsHandler H)

/-- mirrors crates/rustydnsd/src/handler.rs:476-506 -/
def sinkholeAnswers (qname : Str) (qtype : RecordType) : List (Record H.Name) :=
  match h.sinkholeIp, H.fromStr qname with
  | some ip, some name =>
    match qtype, ip with
    | .a, .v4 v4 => [{ name, ttl := sinkholeTtlSecs, data := .a v4 }]
    | .aaaa, .v6 v6 => [{ name, ttl := sinkholeTtlSecs, data := .aaaa v6 }]
    | .any, .v4 v4 => [{ name, ttl := sinkholeTtlSecs, data := .a v4 }]
    | .any, .v6 v6 => [{ name, ttl := sinkholeTtlSecs, data := .aaaa v6 }]
    | _, _ => []
  | _, _ => []

/-- mirrors crates/rustydnsd/src/handler.rs:513-526 -/
def buildBlockResponse (qname : Str) (qtype : RecordType) :
    ResponseCode × List (Record H.Name) :=
  match h.blocklist.config.blockResponse with
  | .nxdomain => (.nxDomain, [])
  | .refused => (.refused, [])
  | .sinkhole =>
    let answers := h.sinkholeAnswers qname qtype
    if answers.isEmpty then (.nxDomain, []) else (.noError, answers)

/-- The reply to a blocked query. -/
def blockReply (ctx : QueryCtx) : Reply H :=
  let (code, answers) := h.buildBlockResponse ctx.qname ctx.qtype
  { code, authoritative := false, answers, servedBy := .blocklist }

/-- mirrors crates/rustydnsd/src/handler.rs:538-543 -/
def cnameChainBlocked (records : List DnsRecord) (group : Option Str) : Bool :=
  records.any fun rec =>
    match rec.data with
    | .cname target => h.blocklist.isBlockedForGroup T target group
    | _ => false

/-- mirrors crates/rustydnsd/src/handler.rs:549-555 -/
def responseIpBlocked (records : List DnsRecord) : Bool :=
  records.any fun rec =>
    match rec.data with
    | .a ip => h.blocklist.responseIpDenylist.contains (.v4 ip)
    | .aaaa ip => h.blocklist.responseIpDenylist.contains (.v6 ip)
    | _ => false

/-- mirrors crates/rustydnsd/src/handler.rs:728-751 -/
def gateBlocklist (ctx : QueryCtx) : Option (Reply H) :=
  if !ctx.policy.blocklistBypass &&
      h.blocklist.isBlockedForGroup T ctx.qnameCanon ctx.policy.blocklistGroup then
    some (h.blockReply ctx)
  else none

/-- mirrors crates/rustydnsd/src/handler.rs:757-859 -/
def stageResolve (ctx : QueryCtx) : Reply H :=
  match h.resolver.resolve T ctx.qname ctx.qtypeLabel with
  | .ok out =>
    if h.blocklist.config.blockCnameCloaking && !ctx.policy.blocklistBypass &&
        h.cnameChainBlocked T out.records ctx.policy.blocklistGroup then
      h.blockReply ctx
    else if !h.blocklist.responseIpDenylist.isEmpty && !ctx.policy.blocklistBypass &&
        h.responseIpBlocked out.records then
      h.blockReply ctx
    else
      let answers := dnsRecordsToRrs H out.records
      { code := if out.nxdomain && answers.isEmpty then .nxDomain else .noError
        authoritative := false
        answers := answers
        servedBy := .resolver }
  | .error _ =>
    { code := .servFail, authoritative := false, answers := [], servedBy := .serverFailure }

end DnsHandler

/-! ## Names and their text -/

theorem canonicalQname_eq (s : Str) : canonicalQname s = s.toAsciiLowercase := by
  unfold canonicalQname
  split
  · rfl
  · rename_i h
    exact (Str.toAsciiLowercase_of_not_upper (by simpa using h)).symm

theorem trimEndMatches_canonicalQname (s : Str) :
    (canonicalQname s).trimEndMatches '.' = canonical s := by
  rw [canonicalQname_eq, Str.trimEndMatches_toAsciiLowercase]
  rfl

theorem canonical_canonicalQname (s : Str) : canonical (canonicalQname s) = canonical s := by
  rw [canonicalQname_eq]
  exact canonical_toAsciiLowercase s

section
variable {H : Hickory} {T : UnicodeTables} {h : DnsHandler H} {r : DnsRecord}

theorem dnsRecordToRr_eq_some {rr : Record H.Name} (hrr : dnsRecordToRr H r = some rr) :
    H.fromStr r.name = some rr.name ∧ recordDataToRdata H r.data = some rr.data := by
  unfold dnsRecordToRr at hrr
  simp only [Option.bind_eq_bind, Option.bind_eq_some_iff, Option.pure_def,
    Option.some.injEq] at hrr
  obtain ⟨name, hname, data, hdata, rfl⟩ := hrr
  exact ⟨hname, hdata⟩

theorem recordDataToRdata_cname {data : RecordData} {target : H.Name}
    (hd : recordDataToRdata H data = some (.cname target)) :
    ∃ text, data = .cname text ∧ H.fromStr text = some target := by
  cases data <;> simp [recordDataToRdata] at hd ⊢
  exact hd

theorem recordDataToRdata_a {data : RecordData} {ip : Ipv4Addr}
    (hd : recordDataToRdata H data = some (.a ip)) : data = .a ip := by
  cases data <;> simp [recordDataToRdata] at hd ⊢
  exact hd

theorem recordDataToRdata_aaaa {data : RecordData} {ip : Ipv6Addr}
    (hd : recordDataToRdata H data = some (.aaaa ip)) : data = .aaaa ip := by
  cases data <;> simp [recordDataToRdata] at hd ⊢
  exact hd

/-! ## What a forwarded reply went through -/

theorem gateBlocklist_eq_none_iff {ctx : QueryCtx} :
    h.gateBlocklist T ctx = none ↔
      ctx.policy.blocklistBypass = true ∨
      h.blocklist.isBlockedForGroup T ctx.qnameCanon ctx.policy.blocklistGroup = false := by
  unfold DnsHandler.gateBlocklist
  cases ctx.policy.blocklistBypass <;> simp

theorem stageResolve_resolver {ctx : QueryCtx} (hs : (h.stageResolve T ctx).servedBy = .resolver) :
    ∃ out, h.resolver.resolve T ctx.qname ctx.qtypeLabel = .ok out ∧
      (h.stageResolve T ctx).answers = dnsRecordsToRrs H out.records ∧
      (h.blocklist.config.blockCnameCloaking && !ctx.policy.blocklistBypass &&
        h.cnameChainBlocked T out.records ctx.policy.blocklistGroup) = false ∧
      (!h.blocklist.responseIpDenylist.isEmpty && !ctx.policy.blocklistBypass &&
        h.responseIpBlocked out.records) = false := by
  unfold DnsHandler.stageResolve at hs ⊢
  split at hs
  · rename_i out hout
    refine ⟨out, hout, ?_⟩
    split at hs
    · cases hs
    · rename_i hcloak
      split at hs
      · cases hs
      · rename_i hip
        rw [if_neg hcloak, if_neg hip]
        exact ⟨rfl, by simpa using hcloak, by simpa using hip⟩
  · cases hs

/-! ## Names and addresses of a forwarded reply -/

theorem isBlockedForGroup_congr {name name' : Str} {group : Option Str}
    (hascii : name.isAscii = true) (heq : canonical name' = canonical name) :
    h.blocklist.isBlockedForGroup T name' group = h.blocklist.isBlockedForGroup T name group :=
  isBlocked_congr hascii heq

/-- The records of an outcome come from ASCII records, if all upstream records are ASCII. -/
theorem names_of_outcome {name qtype : Str} {out : ResolveOutcome} (hH : H.NamesRoundTrip)
    (hascii : ∀ rec, h.resolver.Answered name rec → AsciiRecord H rec)
    (hout : h.resolver.resolve T name qtype = .ok out) (hr : r ∈ out.records) :
    (∃ owner, H.isAsciiName owner = true ∧ canonical r.name = canonical (H.toUtf8 owner)) ∧
    ∀ text, r.data = .cname text → ∃ target, H.isAsciiName target = true ∧
      text = H.toUtf8 target := by
  rcases Resolver.resolve_ok_cases hout with hempty | ⟨answers, t, b, hanswered, rfl⟩
  · rw [hempty] at hr
    cases hr
  · obtain ⟨rec, hrec, hconv⟩ := mem_answerOutcome hr
    have hrecAscii := hascii rec (hanswered rec hrec)
    obtain ⟨hname, htargets⟩ := recordToDnsRecord_names hH hrecAscii hconv
    exact ⟨⟨rec.name, hrecAscii.1, hname⟩, htargets⟩

theorem outcome_chainCovered {name qtype : Str} {out : ResolveOutcome}
    (hout : h.resolver.resolve T name qtype = .ok out) : ChainCovered name out.records := by
  rcases Resolver.resolve_ok_cases hout with hempty | ⟨answers, t, b, -, rfl⟩
  · intro r hr
    rw [hempty] at hr
    cases hr
  · exact answerOutcome_chainCovered

theorem target_unblocked {records : List DnsRecord} {group : Option Str} {target : Str}
    (hchain : h.cnameChainBlocked T records group = false) (hr : r ∈ records)
    (hdata : r.data = .cname target) : h.blocklist.isBlockedForGroup T target group = false := by
  have := List.any_eq_false.1 hchain r hr
  simpa [hdata] using this

theorem address_allowed {records : List DnsRecord} {ip : IpAddr}
    (hips : (!h.blocklist.responseIpDenylist.isEmpty && h.responseIpBlocked records) = false)
    (hr : r ∈ records)
    (hdata : (∃ v4, ip = .v4 v4 ∧ r.data = .a v4) ∨ ∃ v6, ip = .v6 v6 ∧ r.data = .aaaa v6) :
    h.blocklist.responseIpDenylist.contains ip = false := by
  by_cases hempty : h.blocklist.responseIpDenylist.isEmpty = true
  · simp only [IpDenylist.isEmpty, Bool.and_eq_true, List.isEmpty_iff] at hempty
    rcases hdata with ⟨v4, rfl, -⟩ | ⟨v6, rfl, -⟩
    · simp [IpDenylist.contains, IpDenylist.hitsV4, hempty.1]
    · simp only [IpDenylist.contains, IpDenylist.hitsV6, IpDenylist.hitsV4, hempty.1, hempty.2,
        List.any_nil, Bool.false_or]
      split <;> rfl
  · have hblocked : h.responseIpBlocked records = false := by simpa [hempty] using hips
    have := List.any_eq_false.1 hblocked r hr
    rcases hdata with ⟨v4, rfl, hdata⟩ | ⟨v6, rfl, hdata⟩ <;> simpa [hdata] using this

end

/-- **No blocked name and no denied address is forwarded to a filtered client.** For every upstream
answer of ASCII records, a query that passed the blocklist gate and is answered from the resolver is
answered with owners and CNAME targets that are not blocked for the client's group, and with
addresses outside every range of the denylist, also when an IPv4-mapped address is read as IPv4. -/
theorem forwarded_answer_unblocked (H : Hickory) (hH : H.NamesRoundTrip) (T : UnicodeTables)
    (h : DnsHandler H) (policy : PolicyDecision) (qname : Str) (qtype : RecordType)
    (hbypass : policy.blocklistBypass = false)
    (hcloak : h.blocklist.config.blockCnameCloaking = true)
    (hdeny : IpDenylist.parse h.blocklist.config.responseIpDenylist =
      .ok h.blocklist.responseIpDenylist)
    (hqname : qname.isAscii = true)
    (hascii : ∀ rec, h.resolver.Answered qname rec → AsciiRecord H rec)
    (hgate : h.gateBlocklist T (QueryCtx.new H policy qname qtype) = none)
    (hserved : (h.stageResolve T (QueryCtx.new H policy qname qtype)).servedBy = .resolver) :
    ∀ rr ∈ (h.stageResolve T (QueryCtx.new H policy qname qtype)).answers,
      h.blocklist.isBlockedForGroup T (H.toUtf8 rr.name) policy.blocklistGroup = false ∧
      (∀ target, rr.data = .cname target →
        h.blocklist.isBlockedForGroup T (H.toUtf8 target) policy.blocklistGroup = false) ∧
      (∀ ip, rr.data = .a ip →
        ¬ IpDenylist.Denied h.blocklist.config.responseIpDenylist (.v4 ip)) ∧
      (∀ ip, rr.data = .aaaa ip →
        ¬ IpDenylist.Denied h.blocklist.config.responseIpDenylist (.v6 ip) ∧
        ∀ v4, ip.toIpv4Mapped = some v4 →
          ¬ IpDenylist.Denied h.blocklist.config.responseIpDenylist (.v4 v4)) := by
  obtain ⟨out, hout, hanswers, hchain, hips⟩ := stageResolve_resolver hserved
  simp only [QueryCtx.new, hcloak, hbypass, Bool.not_false, Bool.and_true, Bool.true_and]
    at hout hchain hips
  have hq : h.blocklist.isBlockedForGroup T qname policy.blocklistGroup = false := by
    rw [← isBlockedForGroup_congr hqname (canonical_canonicalQname qname)]
    exact (gateBlocklist_eq_none_iff.1 hgate).resolve_left (by simp [QueryCtx.new, hbypass])
  intro rr hrr
  rw [hanswers] at hrr
  obtain ⟨r, hr, hconv⟩ := List.mem_filterMap.1 hrr
  obtain ⟨hname, hdata⟩ := dnsRecordToRr_eq_some hconv
  obtain ⟨⟨owner, howner, hownerText⟩, htargets⟩ := names_of_outcome hH hascii hout hr
  refine ⟨?_, fun target htarget => ?_, fun ip hip => ?_, fun ip hip => ?_⟩
  · have htext := hH.parse owner r.name rr.name howner hownerText hname
    rcases outcome_chainCovered hout r hr with heq | ⟨link, hlink, text, hlinkData, heq⟩
    · rw [isBlockedForGroup_congr hqname (htext.trans heq)]
      exact hq
    · obtain ⟨target, htarget, rfl⟩ := (names_of_outcome hH hascii hout hlink).2 text hlinkData
      rw [isBlockedForGroup_congr (hH.isAscii target htarget) (htext.trans heq.symm)]
      exact target_unblocked hchain hlink hlinkData
  · rw [htarget] at hdata
    obtain ⟨text, hcname, hparsed⟩ := recordDataToRdata_cname hdata
    obtain ⟨name, hascii', rfl⟩ := htargets text hcname
    have htext := hH.parse name _ target hascii' rfl hparsed
    rw [isBlockedForGroup_congr (hH.isAscii name hascii') htext]
    exact target_unblocked hchain hr hcname
  · rw [hip] at hdata
    have hfree := address_allowed hips hr (.inl ⟨ip, rfl, recordDataToRdata_a hdata⟩)
    exact fun hden => absurd (IpDenylist.contains_of_denied hdeny hden) (by simp [hfree])
  · rw [hip] at hdata
    have hfree := address_allowed hips hr (.inr ⟨ip, rfl, recordDataToRdata_aaaa hdata⟩)
    refine ⟨fun hden => absurd (IpDenylist.contains_of_denied hdeny hden) (by simp [hfree]), ?_⟩
    intro v4 hmapped hden
    have hmappedHit := IpDenylist.contains_mapped hmapped (IpDenylist.contains_of_denied hdeny hden)
    exact absurd hmappedHit (by simp [hfree])

/-- Names that are their own text. -/
def textNames : Hickory where
  Name := Str
  toUtf8 := id
  fromStr := some
  isAsciiName := Str.isAscii
  typeLabel _ := ['A']
  typeFromStr _ := some .a

theorem textNames_roundTrip : textNames.NamesRoundTrip where
  isAscii _ h := h
  parse _ _ _ _ _ hparsed := by rw [← Option.some.inj hparsed]; rfl

/-- A handler that blocks `ads.net` and `6.6.6.0/24`, and whose upstream answers `a.b` with an alias
and the alias with an address. -/
def aliasHandler : DnsHandler textNames where
  blocklist := BlocklistEngine.loadManyWithTrust .asciiOnly
    (BlocklistEngine.new .asciiOnly (fun _ => .error "")
      { responseIpDenylist := ["6.6.6.0/24".toList] })
    [("ads.net".toList, .untrusted)]
  resolver :=
    { config := {}
      default := .hickory
        { lookup := fun _ _ => .ok
            [{ name := "a.b.".toList, ttl := 60, data := .cname "c.d.".toList },
             { name := "C.d.".toList, ttl := 60, data := .a (.ofOctets 1 2 3 4) }] }
      routes := [] }
  sinkholeIp := none

theorem aliasHandler_ascii (rec : Record textNames.Name)
    (h : aliasHandler.resolver.Answered "a.B.".toList rec) : AsciiRecord textNames rec := by
  cases h with
  | route hmem => exact absurd hmem List.not_mem_nil
  | odoh hdefault => cases hdefault
  | hickory hdefault hlookup hmem =>
    cases hdefault
    cases hlookup
    rcases List.mem_cons.1 hmem with rfl | hmem
    · exact ⟨by decide, fun target htarget => by cases htarget; decide⟩
    · obtain rfl := List.mem_singleton.1 hmem
      exact ⟨by decide, fun target htarget => by cases htarget⟩

theorem forwarded_answer_unblocked_alias :
    aliasHandler.blocklist.isBlockedForGroup .asciiOnly "ADS.net".toList none = true ∧
    (aliasHandler.stageResolve .asciiOnly (.new textNames {} "a.B.".toList .a)).answers.length = 2 ∧
    ∀ rr ∈ (aliasHandler.stageResolve .asciiOnly (.new textNames {} "a.B.".toList .a)).answers,
      aliasHandler.blocklist.isBlockedForGroup .asciiOnly rr.name none = false := by
  refine ⟨by decide +kernel, by decide +kernel, fun rr hrr => ?_⟩
  exact (forwarded_answer_unblocked textNames textNames_roundTrip .asciiOnly aliasHandler {}
    "a.B.".toList .a rfl rfl (by rfl) (by decide) aliasHandler_ascii (by rfl)
    (by decide +kernel) rr hrr).1

end RustyDns.L4
