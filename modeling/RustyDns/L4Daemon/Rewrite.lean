import RustyDns.L1Core.Config
import RustyDns.L3Resolver.Answer

/-!
# The rewrite map

`rustydnsd/src/rewrite.rs`: rules that pin a name, or every name below one, to an address, an alias
or NXDOMAIN. The suffixes are kept longest first, equal lengths in the order of the rules.
-/

namespace RustyDns.L4.Rewrite

open RustyDns.Lib RustyDns.L1 RustyDns.L3

/-- mirrors crates/rustydnsd/src/rewrite.rs:32-39 -/
inductive Action where
  | address (ip : IpAddr)
  | cname (target : Str)
  | block
  deriving DecidableEq, Repr

/-- mirrors crates/rustydnsd/src/rewrite.rs:43-52 -/
inductive RewriteDecision where
  | answer (records : List DnsRecord)
  | noData
  | nxdomain
  deriving DecidableEq, Repr

/-- mirrors crates/rustydnsd/src/rewrite.rs:57-63 -/
structure RewriteMap where
  exact : AList fun _ : Str => Action := ∅
  suffixes : List (Str × Action) := []

/-- mirrors crates/rustydnsd/src/rewrite.rs:179-181 -/
def lowerNoDot (s : Str) : Str := (s.trim.trimEndMatches '.').toAsciiLowercase

/-- mirrors crates/rustydnsd/src/rewrite.rs:184-190 -/
def normaliseFqdn (s : Str) : Str :=
  let n := s.trim.toAsciiLowercase
  if !n.endsWith ['.'] then n ++ ['.'] else n

/-- The action of a rule; none for one that is skipped.
mirrors crates/rustydnsd/src/rewrite.rs:76-98 -/
def ruleAction (rule : RewriteRule) : Option Action :=
  match rule.address, rule.target with
  | some addr, _ =>
    match parseIpAddr addr with
    | some (.v6 v6) =>
      match v6.toIpv4Mapped with
      | some v4 => some (.address (.v4 v4))
      | none => some (.address (.v6 v6))
    | some ip => some (.address ip)
    | none => none
  | none, some target => some (.cname (normaliseFqdn target))
  | none, none => if rule.block then some .block else none

/-- One turn of the loop over the rules. -/
def addRule (map : RewriteMap) (rule : RewriteRule) : RewriteMap :=
  match ruleAction rule with
  | none => map
  | some action =>
    let name := rule.name.trim
    match name.stripStart "*.".toList, name.stripStart ['.'] with
    | some rest, _ => { map with suffixes := map.suffixes ++ [('.' :: lowerNoDot rest, action)] }
    | none, some rest => { map with suffixes := map.suffixes ++ [('.' :: lowerNoDot rest, action)] }
    | none, none => { map with exact := map.exact.insert (lowerNoDot name) action }

/-- mirrors crates/rustydnsd/src/rewrite.rs:71-110 -/
def RewriteMap.fromRules (rules : List RewriteRule) : RewriteMap :=
  let map := rules.foldl addRule {}
  { map with suffixes := map.suffixes.insertionSort fun a b => b.1.byteLen ≤ a.1.byteLen }

/-- mirrors crates/rustydnsd/src/rewrite.rs:148-176 -/
def decide (T : UnicodeTables) (action : Action) (qnameCanon : Str) (qtype : RecordType) :
    RewriteDecision :=
  match action with
  | .block => .nxdomain
  | .cname target => .answer [DnsRecord.new T qnameCanon (.cname target) staticRecordTtl]
  | .address ip =>
    match ip, qtype with
    | .v4 v4, .a | .v4 v4, .any => .answer [DnsRecord.new T qnameCanon (.a v4) staticRecordTtl]
    | .v6 v6, .aaaa | .v6 v6, .any => .answer [DnsRecord.new T qnameCanon (.aaaa v6) staticRecordTtl]
    | _, _ => .noData

/-- mirrors crates/rustydnsd/src/rewrite.rs:125-144 -/
def RewriteMap.lookup (T : UnicodeTables) (map : RewriteMap) (qnameCanon : Str)
    (qtype : RecordType) : Option RewriteDecision :=
  let key := qnameCanon.trimEndMatches '.'
  if key.isEmpty then none
  else
    match map.exact.lookup key with
    | some action => some (decide T action qnameCanon qtype)
    | none =>
      (map.suffixes.find? fun s => key.endsWith s.1).map fun s => decide T s.2 qnameCanon qtype

/-- The Safe Search rules first, so that a rule of the operator for the same name wins.
mirrors crates/rustydnsd/src/main.rs:1339-1345 -/
def combinedRewriteRules (config : DnsConfig) : List RewriteRule :=
  config.safesearch.rewriteRules ++ config.rewrite

end RustyDns.L4.Rewrite
