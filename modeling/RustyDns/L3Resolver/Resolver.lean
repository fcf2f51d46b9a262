import RustyDns.L3Resolver.Answer
import RustyDns.L1Core.Config
import RustyDns.Lib.Checks

/-!
# The upstream resolver

`Resolver` of `rustydns-resolver/src/lib.rs` and the outcome of the oblivious arm (`odoh.rs`). An arm
is what it answers: a hickory arm gives the answer records of a lookup or its error, the oblivious
arm gives answer records with a response code or its error's label. Nothing is assumed of either.

Results:
* `resolve_ok_cases`: an outcome has no records, or is the filtered answer of one arm.
* `answerOutcome_chainCovered`: each owner of a filtered answer is the query name or a CNAME target
  of the same answer.
-/

namespace RustyDns.L3

open RustyDns.Lib RustyDns.L1

/-- `ResponseCode`: the codes the code names, and the rest by number. -/
inductive ResponseCode where
  | noError
  | formErr
  | servFail
  | nxDomain
  | notImp
  | refused
  | badVers
  | other (code : Nat)
  deriving DecidableEq, Repr

/-- The variants of `NetError` that `error_kind_label` tells apart. -/
inductive NetErrorKind where
  | busy
  | dns
  | message
  | noConnections
  | proto
  | other
  deriving DecidableEq, Repr

/-- `NetError`, with its accessors `is_no_records_found` and `is_nx_domain`. -/
structure NetError where
  kind : NetErrorKind
  noRecordsFound : Bool
  nxDomain : Bool
  deriving DecidableEq, Repr

/-- The shortest TTL that is cached or shown to a client, in seconds. -/
def minPositiveCacheTtlSecs : Nat := 2

/-- The longest one: a day. -/
def maxPositiveCacheTtlSecs : Nat := 86400

/-- mirrors crates/rustydns-resolver/src/lib.rs:85-104 -/
structure ResolveOutcome where
  records : List DnsRecord
  privateRdataDropped : Nat
  nxdomain : Bool
  deriving DecidableEq, Repr

/-- mirrors crates/rustydns-resolver/src/lib.rs:1246-1256 -/
def noRecordsOutcome (e : NetError) : Option ResolveOutcome :=
  if e.noRecordsFound then some ⟨[], 0, e.nxDomain⟩ else none

/-- mirrors crates/rustydns-resolver/src/lib.rs:1258-1273 -/
def errorKindLabel (e : NetError) : String :=
  if e.noRecordsFound then "no-records"
  else match e.kind with
    | .busy => "busy"
    | .dns => "dns"
    | .message => "message"
    | .noConnections => "no-connections"
    | .proto => "proto"
    | .other => "other"

/-- What a hickory resolver answers. -/
structure ResolverArm (H : Hickory) where
  lookup : Str → RecordType → Except NetError (List (Record H.Name))

/-- mirrors crates/rustydns-resolver/src/lib.rs:120-131 -/
structure RouteArm (H : Hickory) where
  zoneWithDot : Str
  dottedSuffix : Str
  arm : ResolverArm H

/-- The arm of a route to `zone`. -/
def RouteArm.ofZone {H : Hickory} (zone : Str) (arm : ResolverArm H) : RouteArm H :=
  let zoneWithDot := zone.trim.toAsciiLowercase
  { zoneWithDot := zoneWithDot
    dottedSuffix := '.' :: zoneWithDot
    arm := arm }

/-- The arms of the configured routes, the longest zone first.
mirrors crates/rustydns-resolver/src/lib.rs:293-313 -/
def routeArms {H : Hickory} (routes : List (UpstreamRoute × ResolverArm H)) : List (RouteArm H) :=
  (routes.map fun r => RouteArm.ofZone r.1.zone r.2).insertionSort fun a b =>
    b.zoneWithDot.byteLen ≤ a.zoneWithDot.byteLen

/-- What the oblivious exchange answers, validated or not; an error is its `kind_label`. -/
structure OdohArm (H : Hickory) where
  exchange : Str → RecordType → Except String (List (Record H.Name) × ResponseCode)

/-- mirrors crates/rustydns-resolver/src/lib.rs:170-173 -/
inductive DefaultArm (H : Hickory) where
  | hickory (arm : ResolverArm H)
  | odoh (arm : OdohArm H)

/-- mirrors crates/rustydns-resolver/src/lib.rs:151-161 -/
structure Resolver (H : Hickory) where
  config : DnsConfig
  default : DefaultArm H
  routes : List (RouteArm H)

section
variable (H : Hickory) (T : UnicodeTables)

/-- The filters every transport applies, the rebinding filter if `blockPrivate`. -/
def answerOutcome (answers : List (Record H.Name)) (qname : Str) (qtype : RecordType)
    (blockPrivate : Bool) : ResolveOutcome :=
  let (records, dropped) := filterAnswerSanity T (lookupToDnsRecords H T answers) qname qtype
  if blockPrivate then
    let (records, privateDropped) := filterPrivateRdata records
    ⟨records, dropped + privateDropped, false⟩
  else ⟨records, dropped, false⟩

/-- mirrors crates/rustydns-resolver/src/odoh.rs:479-506 -/
def outcomeFromParts (answers : List (Record H.Name)) (responseCode : ResponseCode) (qname : Str)
    (qtype : RecordType) (blockPrivateRdata : Bool) : Except String ResolveOutcome :=
  match responseCode with
  | .noError => .ok (answerOutcome H T answers qname qtype blockPrivateRdata)
  | .nxDomain => .ok ⟨[], 0, true⟩
  | _ => .error "target_rcode"

/-- mirrors crates/rustydns-resolver/src/lib.rs:953-957 -/
def parseRecordType (qtype : Str) : Except RustyDnsError RecordType :=
  match H.typeFromStr qtype.trim.toAsciiUppercase with
  | some t => .ok t
  | none => .error (.resolver s!"unsupported record type `{qtype.display}`")

end

namespace Resolver

variable {H : Hickory} (T : UnicodeTables) (res : Resolver H)

/-- mirrors crates/rustydns-resolver/src/lib.rs:471-489 -/
def matchRoute (name : Str) : Option (RouteArm H) :=
  if res.routes.isEmpty then none
  else
    let lower := name.toAsciiLowercase
    let lower := if lower.endsWith ['.'] then lower else lower ++ ['.']
    res.routes.find? fun r => lower == r.zoneWithDot || lower.endsWith r.dottedSuffix

/-- mirrors crates/rustydns-resolver/src/lib.rs:492-520 -/
def mapResolveError (e : NetError) : Except RustyDnsError ResolveOutcome :=
  match noRecordsOutcome e with
  | some outcome => .ok outcome
  | none =>
    if res.config.upstream.failClosed then .error .allUpstreamsFailed
    else .error (.resolver (errorKindLabel e))

/-- mirrors crates/rustydns-resolver/src/lib.rs:400-429 -/
def resolveViaHickory (arm : ResolverArm H) (name : Str) (recordType : RecordType)
    (onDefault : Bool) : Except RustyDnsError ResolveOutcome :=
  match arm.lookup name recordType with
  | .ok answers => .ok (answerOutcome H T answers name recordType
      (onDefault && res.config.upstream.blockPrivateRdata))
  | .error e => res.mapResolveError e

/-- mirrors crates/rustydns-resolver/src/lib.rs:434-463, odoh.rs:391-427 -/
def resolveViaOdoh (arm : OdohArm H) (name : Str) (recordType : RecordType) :
    Except RustyDnsError ResolveOutcome :=
  let answer := arm.exchange name recordType
  match answer.bind fun (answers, code) =>
      outcomeFromParts H T answers code name recordType res.config.upstream.blockPrivateRdata with
  | .ok outcome => .ok outcome
  | .error kind =>
    if res.config.upstream.failClosed then .error .allUpstreamsFailed
    else .error (.resolver s!"odoh:{kind}")

/-- mirrors crates/rustydns-resolver/src/lib.rs:375-396 -/
def resolve (name qtype : Str) : Except RustyDnsError ResolveOutcome := do
  let recordType ← parseRecordType H qtype
  match res.matchRoute name with
  | some route => res.resolveViaHickory T route.arm name recordType false
  | none =>
    match res.default with
    | .hickory arm => res.resolveViaHickory T arm name recordType true
    | .odoh arm => res.resolveViaOdoh T arm name recordType

/-- Some arm answered `rec` to a lookup of `name`. -/
inductive Answered (name : Str) (rec : Record H.Name) : Prop where
  | route {r : RouteArm H} {t : RecordType} {answers : List (Record H.Name)} :
      r ∈ res.routes → r.arm.lookup name t = .ok answers → rec ∈ answers → Answered name rec
  | hickory {arm : ResolverArm H} {t : RecordType} {answers : List (Record H.Name)} :
      res.default = .hickory arm → arm.lookup name t = .ok answers → rec ∈ answers →
      Answered name rec
  | odoh {arm : OdohArm H} {t : RecordType} {answers : List (Record H.Name)} {code : ResponseCode} :
      res.default = .odoh arm → arm.exchange name t = .ok (answers, code) → rec ∈ answers →
      Answered name rec

variable {T res} {name qtype : Str} {out : ResolveOutcome}

theorem mapResolveError_ok {e : NetError} (h : res.mapResolveError e = .ok out) :
    out.records = [] := by
  unfold mapResolveError noRecordsOutcome at h
  split at h
  · rename_i o ho
    split at ho
    · cases ho
      cases h
      rfl
    · cases ho
  · split at h <;> cases h

theorem resolveViaHickory_ok {arm : ResolverArm H} {t : RecordType} {onDefault : Bool}
    (h : res.resolveViaHickory T arm name t onDefault = .ok out) :
    out.records = [] ∨ ∃ answers b, arm.lookup name t = .ok answers ∧
      out = answerOutcome H T answers name t b := by
  unfold resolveViaHickory at h
  split at h
  · rename_i answers hanswers
    cases h
    exact .inr ⟨answers, _, hanswers, rfl⟩
  · exact .inl (mapResolveError_ok h)

theorem resolveViaOdoh_ok {arm : OdohArm H} {t : RecordType}
    (h : res.resolveViaOdoh T arm name t = .ok out) :
    out.records = [] ∨ ∃ answers code b, arm.exchange name t = .ok (answers, code) ∧
      out = answerOutcome H T answers name t b := by
  unfold resolveViaOdoh at h
  simp only at h
  split at h
  · rename_i o ho
    cases h
    cases hexchange : arm.exchange name t with
    | error e => simp [hexchange, Except.bind] at ho
    | ok answer =>
      obtain ⟨answers, code⟩ := answer
      simp only [hexchange, Except.bind, outcomeFromParts] at ho
      split at ho
      · cases ho
        exact .inr ⟨answers, _, _, rfl, rfl⟩
      · cases ho
        exact .inl rfl
      · cases ho
  · split at h <;> cases h

theorem resolve_ok_cases (h : res.resolve T name qtype = .ok out) :
    out.records = [] ∨ ∃ answers t b, (∀ rec ∈ answers, res.Answered name rec) ∧
      out = answerOutcome H T answers name t b := by
  unfold resolve at h
  obtain ⟨t, -, h⟩ := Checks.bind_ok_iff.1 h
  split at h
  · rename_i route hroute
    rcases resolveViaHickory_ok h with hempty | ⟨answers, b, hanswers, rfl⟩
    · exact .inl hempty
    · have hmem : route ∈ res.routes := by
        unfold matchRoute at hroute
        split at hroute
        · cases hroute
        · exact List.mem_of_find?_eq_some hroute
      exact .inr ⟨answers, t, b, fun rec hrec => .route hmem hanswers hrec, rfl⟩
  · split at h
    · rename_i arm harm
      rcases resolveViaHickory_ok h with hempty | ⟨answers, b, hanswers, rfl⟩
      · exact .inl hempty
      · exact .inr ⟨answers, t, b, fun rec hrec => .hickory harm hanswers hrec, rfl⟩
    · rename_i arm harm
      rcases resolveViaOdoh_ok h with hempty | ⟨answers, code, b, hanswers, rfl⟩
      · exact .inl hempty
      · exact .inr ⟨answers, t, b, fun rec hrec => .odoh harm hanswers hrec, rfl⟩

end Resolver

/-! ## Filtered answers -/

section
variable {H : Hickory} {T : UnicodeTables} {answers : List (Record H.Name)} {qname : Str}
  {t : RecordType} {b : Bool}

theorem answerOutcome_chainCovered :
    ChainCovered qname (answerOutcome H T answers qname t b).records := by
  unfold answerOutcome
  simp only
  split
  · exact privateRdata_chainCovered (sanity_chainCovered T _ qname t)
  · exact sanity_chainCovered T _ qname t

theorem mem_answerOutcome {r : DnsRecord} (h : r ∈ (answerOutcome H T answers qname t b).records) :
    ∃ rec ∈ answers, recordToDnsRecord H T rec = some r := by
  have hsanity : r ∈ (filterAnswerSanity T (lookupToDnsRecords H T answers) qname t).1 := by
    unfold answerOutcome at h
    simp only at h
    split at h
    · exact (mem_retain.1 h).1
    · exact h
  exact List.mem_filterMap.1 (mem_of_mem_sanity hsanity)

end

end RustyDns.L3
