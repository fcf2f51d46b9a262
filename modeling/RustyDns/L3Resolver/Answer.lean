import RustyDns.L3Resolver.RecordKey
import RustyDns.Lib.Closure

/-!
# Upstream answers

What `rustydns-resolver/src/lib.rs` does with the records of an upstream answer before anyone else
sees them: conversion from the wire types, the answer-sanity pipeline (bailiwick, requested type,
duplicates) and the rebinding filter. The wire types are hickory's; its names, their text forms and
the labels of its record types are a parameter (`Hickory`).

The fixpoint loop of the bailiwick filter is `Closure.saturate`, with one pass more than there are
records. Each filter returns what it keeps and how many it dropped.

Of hickory it is assumed (`Hickory.NamesRoundTrip`) that an ASCII name has an ASCII text form, and
that parsing that text in any letter case and with or without the trailing dot gives a name with the
same text up to case and trailing dots.

Results:
* `mem_allowedOwners_iff`: the fixpoint is reached, so the owners allowed are exactly those linked
  to the query name.
* `sanity_chainCovered`: whatever survives, each owner is the query name or a CNAME target that
  survived too.
-/

namespace RustyDns.L3

open RustyDns.Lib RustyDns.L1

/-! ## Wire types -/

/-- `RecordType`: the types the code names, and the rest by number. -/
inductive RecordType where
  | a
  | aaaa
  | cname
  | ptr
  | ns
  | mx
  | srv
  | txt
  | any
  | axfr
  | ixfr
  | other (code : Nat)
  deriving DecidableEq, Repr

/-- What is taken from hickory-proto: names with their text form and its parser, which names consist
of ASCII labels shown as they are, and the labels of record types. -/
structure Hickory where
  Name : Type
  toUtf8 : Name → Str
  fromStr : Str → Option Name
  isAsciiName : Name → Bool
  typeLabel : RecordType → Str
  typeFromStr : Str → Option RecordType

/-- `RData`; `other` stands for every type the code does not convert. -/
inductive RData (Name : Type) where
  | a (ip : Ipv4Addr)
  | aaaa (ip : Ipv6Addr)
  | cname (target : Name)
  | ptr (target : Name)
  | ns (target : Name)
  | mx (preference : Nat) (exchange : Name)
  | srv (priority weight port : Nat) (target : Name)
  | txt (parts : List (List UInt8))
  | other

structure Record (Name : Type) where
  name : Name
  ttl : Nat
  data : RData Name

/-! ## Conversion -/

section
variable (H : Hickory) (T : UnicodeTables)

/-- mirrors crates/rustydns-resolver/src/lib.rs:975-997 -/
def rdataToRecordData : RData H.Name → Option RecordData
  | .a ip => some (.a ip)
  | .aaaa ip => some (.aaaa ip)
  | .cname target => some (.cname (H.toUtf8 target))
  | .ptr target => some (.ptr (H.toUtf8 target))
  | .ns target => some (.ns (H.toUtf8 target))
  | .mx preference exchange => some (.mx preference (H.toUtf8 exchange))
  | .srv priority weight port target => some (.srv priority weight port (H.toUtf8 target))
  | .txt parts => some (.txt parts)
  | .other => none

/-- mirrors crates/rustydns-resolver/src/lib.rs:963-973 -/
def recordToDnsRecord (rec : Record H.Name) : Option DnsRecord :=
  (rdataToRecordData H rec.data).map fun data => DnsRecord.new T (H.toUtf8 rec.name) data rec.ttl

/-- mirrors crates/rustydns-resolver/src/lib.rs:959-961 -/
def lookupToDnsRecords (records : List (Record H.Name)) : List DnsRecord :=
  records.filterMap (recordToDnsRecord H T)

end

/-! ## Rebinding filter -/

/-- mirrors crates/rustydns-resolver/src/lib.rs:1201-1207 -/
def isDocumentationV4 (ip : Ipv4Addr) : Bool :=
  (ip.octet 3, ip.octet 2, ip.octet 1) ∈ [(192, 0, 2), (198, 51, 100), (203, 0, 113)]

/-- `Ipv4Addr::is_private`. -/
def isPrivateV4 (ip : Ipv4Addr) : Bool :=
  ip.octet 3 == 10 || (ip.octet 3 == 172 && decide (16 ≤ ip.octet 2 ∧ ip.octet 2 ≤ 31)) ||
    (ip.octet 3 == 192 && ip.octet 2 == 168)

/-- mirrors crates/rustydns-resolver/src/lib.rs:1186-1194 -/
def isPrivateOrInternalV4 (ip : Ipv4Addr) : Bool :=
  isPrivateV4 ip
    || ip.isLoopback
    || (ip.octet 3 == 169 && ip.octet 2 == 254)
    || ip == 0#32
    || ip == BitVec.allOnes 32
    || isDocumentationV4 ip
    || decide (224 ≤ ip.octet 3 ∧ ip.octet 3 ≤ 239)

/-- mirrors crates/rustydns-resolver/src/lib.rs:1217-1236 -/
def isPrivateOrInternalV6 (ip : Ipv6Addr) : Bool :=
  match ip.toIpv4Mapped with
  | some v4 => isPrivateOrInternalV4 v4
  | none =>
    ip == 1#128
      || ip == 0#128
      || ip >>> 121 == 0x7e#128 -- fc00::/7
      || ip >>> 118 == 0x3fa#128 -- fe80::/10
      || ip >>> 96 == 0x20010db8#128
      || ip >>> 120 == 0xff#128

def keepsRdata (r : DnsRecord) : Bool :=
  match r.data with
  | .a ip => !isPrivateOrInternalV4 ip
  | .aaaa ip => !isPrivateOrInternalV6 ip
  | _ => true

/-- `retain`, with the count of what it removed. -/
def retain (keep : DnsRecord → Bool) (records : List DnsRecord) : List DnsRecord × Nat :=
  let kept := records.filter keep
  (kept, records.length - kept.length)

/-- mirrors crates/rustydns-resolver/src/lib.rs:1010-1027 -/
def filterPrivateRdata : List DnsRecord → List DnsRecord × Nat := retain keepsRdata

/-! ## Answer sanity -/

/-- mirrors crates/rustydns-resolver/src/lib.rs:1116-1128 -/
def qtypeName : RecordType → Str
  | .a => "A".toList
  | .aaaa => "AAAA".toList
  | .cname => "CNAME".toList
  | .ptr => "PTR".toList
  | .ns => "NS".toList
  | .mx => "MX".toList
  | .srv => "SRV".toList
  | .txt => "TXT".toList
  | _ => []

/-- mirrors crates/rustydns-resolver/src/lib.rs:1101-1114 -/
def typeLabelMatches (qtype : RecordType) (data : RecordData) : Bool :=
  let want := qtypeName qtype
  match data with
  | .a _ => want == "A".toList
  | .aaaa _ => want == "AAAA".toList
  | .ptr _ => want == "PTR".toList
  | .ns _ => want == "NS".toList
  | .mx _ _ => want == "MX".toList
  | .srv _ _ _ _ => want == "SRV".toList
  | .txt _ => want == "TXT".toList
  | .cname _ => false

def keepsType (qtype : RecordType) (r : DnsRecord) : Bool :=
  match r.data with
  | .cname _ => true
  | other => typeLabelMatches qtype other

/-- mirrors crates/rustydns-resolver/src/lib.rs:1065-1081 -/
def filterWrongType (records : List DnsRecord) (qtype : RecordType) : List DnsRecord × Nat :=
  retain (keepsType qtype) records

/-- The loop of `dedup_identical`: keep a record whose key was not seen yet. -/
def dedupFrom (T : UnicodeTables) (seen : List Str) : List DnsRecord → List DnsRecord
  | [] => []
  | r :: rest =>
    if dedupKey T r ∈ seen then dedupFrom T seen rest
    else r :: dedupFrom T (dedupKey T r :: seen) rest

/-- mirrors crates/rustydns-resolver/src/lib.rs:1089-1098 -/
def dedupIdentical (T : UnicodeTables) (records : List DnsRecord) : List DnsRecord × Nat :=
  let kept := dedupFrom T [] records
  (kept, records.length - kept.length)

/-- The form in which owners and targets are compared. -/
def canonical (name : Str) : Str := (name.trimEndMatches '.').toAsciiLowercase

/-- A CNAME record as a link from its owner to its target. -/
def cnameLink (r : DnsRecord) : Option (Str × Str) :=
  match r.data with
  | .cname target => some (canonical r.name, canonical target)
  | _ => none

def cnameLinks (records : List DnsRecord) : List (Str × Str) := records.filterMap cnameLink

/-- What the fixpoint loop leaves in `allowed`. -/
def allowedOwners (records : List DnsRecord) (qname : Str) : Finset Str :=
  Closure.saturate (cnameLinks records) (records.length + 1) {canonical qname}

/-- mirrors crates/rustydns-resolver/src/lib.rs:1130-1177 -/
def filterOutOfBailiwick (records : List DnsRecord) (qname : Str) : List DnsRecord × Nat :=
  retain (fun r => canonical r.name ∈ allowedOwners records qname) records

/-- mirrors crates/rustydns-resolver/src/lib.rs:1036-1045 -/
def filterAnswerSanity (T : UnicodeTables) (records : List DnsRecord) (qname : Str)
    (qtype : RecordType) : List DnsRecord × Nat :=
  let (records, outside) := filterOutOfBailiwick records qname
  let (records, foreign) := filterWrongType records qtype
  let (records, repeated) := dedupIdentical T records
  (records, outside + foreign + repeated)

/-! ## Names and their text -/

/-- Parsing respects the text form of ASCII names. -/
structure Hickory.NamesRoundTrip (H : Hickory) : Prop where
  isAscii : ∀ name, H.isAsciiName name = true → (H.toUtf8 name).isAscii = true
  parse : ∀ name text parsed, H.isAsciiName name = true →
    canonical text = canonical (H.toUtf8 name) → H.fromStr text = some parsed →
    canonical (H.toUtf8 parsed) = canonical text

/-- Owner and CNAME target are ASCII names. -/
def AsciiRecord (H : Hickory) (rec : Record H.Name) : Prop :=
  H.isAsciiName rec.name = true ∧ ∀ target, rec.data = .cname target → H.isAsciiName target = true

theorem canonical_toAsciiLowercase (s : Str) : canonical s.toAsciiLowercase = canonical s := by
  unfold canonical
  rw [Str.trimEndMatches_toAsciiLowercase, Str.toAsciiLowercase_idem]

theorem canonical_new {T : UnicodeTables} {name : Str} (h : name.isAscii = true) (data : RecordData)
    (ttl : Nat) : canonical (DnsRecord.new T name data ttl).name = canonical name := by
  simp only [DnsRecord.new, Str.toLowercase_of_isAscii T h]
  split
  · exact canonical_toAsciiLowercase name
  · rw [← canonical_toAsciiLowercase name]
    unfold canonical
    rw [Str.trimEndMatches_concat]

/-- What a converted record keeps of an ASCII record. -/
theorem recordToDnsRecord_names {H : Hickory} {T : UnicodeTables} {rec : Record H.Name}
    {r : DnsRecord} (hH : H.NamesRoundTrip)
    (hrec : AsciiRecord H rec) (hr : recordToDnsRecord H T rec = some r) :
    canonical r.name = canonical (H.toUtf8 rec.name) ∧
    ∀ text, r.data = .cname text → ∃ target, H.isAsciiName target = true ∧
      text = H.toUtf8 target := by
  obtain ⟨data, hdata, rfl⟩ := Option.map_eq_some_iff.1 hr
  refine ⟨canonical_new (hH.isAscii _ hrec.1) data rec.ttl, fun text htext => ?_⟩
  obtain rfl : data = .cname text := htext
  unfold rdataToRecordData at hdata
  split at hdata <;> simp only [Option.some.injEq, RecordData.cname.injEq, reduceCtorEq] at hdata
  rename_i target htarget
  exact ⟨target, hrec.2 target htarget, hdata.symm⟩

/-! ## Owners and targets -/

section
variable {T : UnicodeTables} {records : List DnsRecord} {qname : Str} {r : DnsRecord}

theorem cnameLink_eq_some_iff {a b : Str} :
    cnameLink r = some (a, b) ↔
      ∃ target, r.data = .cname target ∧ canonical r.name = a ∧ canonical target = b := by
  unfold cnameLink
  split
  · rename_i target hdata
    simp [hdata]
  · rename_i hdata
    refine ⟨fun h => absurd h (by simp), ?_⟩
    rintro ⟨target, htarget, -⟩
    exact (hdata target htarget).elim

/-- The loop has reached its fixpoint. -/
theorem mem_allowedOwners_iff {a : Str} :
    a ∈ allowedOwners records qname ↔
      Closure.Linked (cnameLinks records) {canonical qname} a :=
  Closure.mem_saturate_iff (Nat.lt_succ_of_le (List.length_filterMap_le _ _))

@[simp] theorem mem_retain {keep : DnsRecord → Bool} :
    r ∈ (retain keep records).1 ↔ r ∈ records ∧ keep r = true := List.mem_filter

/-- Each owner is the query name or the target of a CNAME in the list. -/
def ChainCovered (qname : Str) (records : List DnsRecord) : Prop :=
  ∀ r ∈ records, canonical r.name = canonical qname ∨
    ∃ link ∈ records, ∃ target, link.data = .cname target ∧ canonical target = canonical r.name

/-- Dropping records other than CNAMEs, or repeated CNAMEs, keeps every owner covered. -/
theorem ChainCovered.of_subset {kept : List DnsRecord} (h : ChainCovered qname records)
    (hsub : ∀ r ∈ kept, r ∈ records)
    (hlinks : ∀ r ∈ records, ∀ target, r.data = .cname target →
      ∃ r' ∈ kept, r'.data = .cname target) : ChainCovered qname kept := by
  intro r hr
  rcases h r (hsub r hr) with hq | ⟨link, hlink, target, hdata, heq⟩
  · exact .inl hq
  · obtain ⟨link', hlink', hdata'⟩ := hlinks link hlink target hdata
    exact .inr ⟨link', hlink', target, hdata', heq⟩

theorem bailiwick_chainCovered (records : List DnsRecord) (qname : Str) :
    ChainCovered qname (filterOutOfBailiwick records qname).1 := by
  intro r hr
  obtain ⟨hmem, hallowed⟩ := mem_retain.1 hr
  rw [decide_eq_true_eq, mem_allowedOwners_iff] at hallowed
  cases hallowed with
  | start hstart => exact .inl (Finset.mem_singleton.1 hstart)
  | link hsource hlink =>
    obtain ⟨link, hin, hsome⟩ := List.mem_filterMap.1 hlink
    obtain ⟨target, hdata, rfl, heq⟩ := cnameLink_eq_some_iff.1 hsome
    refine .inr ⟨link, mem_retain.2 ⟨hin, ?_⟩, target, hdata, heq⟩
    rw [decide_eq_true_eq, mem_allowedOwners_iff]
    exact hsource

theorem dedupFrom_sublist (T : UnicodeTables) :
    ∀ (seen : List Str) (records : List DnsRecord), (dedupFrom T seen records).Sublist records
  | _, [] => .slnil
  | seen, r :: rest => by
    unfold dedupFrom
    split
    · exact (dedupFrom_sublist T seen rest).cons r
    · exact (dedupFrom_sublist T _ rest).cons_cons r

theorem mem_of_mem_dedupFrom {seen : List Str} (h : r ∈ dedupFrom T seen records) : r ∈ records :=
  (dedupFrom_sublist T seen records).subset h

/-- A record that is not kept has the key of one seen before or of one that is kept. -/
theorem key_mem_dedupFrom :
    ∀ {records : List DnsRecord} (seen : List Str), r ∈ records →
      dedupKey T r ∈ seen ∨ ∃ r' ∈ dedupFrom T seen records, dedupKey T r' = dedupKey T r
  | r' :: rest, seen, h => by
    unfold dedupFrom
    split
    · rename_i hseen
      rcases List.mem_cons.1 h with rfl | h
      · exact .inl hseen
      · exact key_mem_dedupFrom seen h
    · rcases List.mem_cons.1 h with rfl | h
      · exact .inr ⟨r, List.mem_cons_self, rfl⟩
      · rcases key_mem_dedupFrom (dedupKey T r' :: seen) h with hseen | ⟨r₂, h₂, hk⟩
        · rcases List.mem_cons.1 hseen with heq | hseen
          · exact .inr ⟨r', List.mem_cons_self, heq.symm⟩
          · exact .inl hseen
        · exact .inr ⟨r₂, List.mem_cons_of_mem _ h₂, hk⟩

theorem wrongType_chainCovered {qtype : RecordType} (h : ChainCovered qname records) :
    ChainCovered qname (filterWrongType records qtype).1 := by
  refine h.of_subset (fun r hr => (mem_retain.1 hr).1) fun r hr target hdata => ?_
  exact ⟨r, mem_retain.2 ⟨hr, by simp [keepsType, hdata]⟩, hdata⟩

theorem dedup_chainCovered (h : ChainCovered qname records) :
    ChainCovered qname (dedupIdentical T records).1 := by
  refine h.of_subset (fun r hr => mem_of_mem_dedupFrom hr) fun r hr target hdata => ?_
  rcases key_mem_dedupFrom (T := T) [] hr with hnil | ⟨r', hr', hkey⟩
  · cases hnil
  · exact ⟨r', hr', (dedupKey_eq_iff.1 hkey).2.1.trans hdata⟩

theorem privateRdata_chainCovered (h : ChainCovered qname records) :
    ChainCovered qname (filterPrivateRdata records).1 := by
  refine h.of_subset (fun r hr => (mem_retain.1 hr).1) fun r hr target hdata => ?_
  exact ⟨r, mem_retain.2 ⟨hr, by simp [keepsRdata, hdata]⟩, hdata⟩

theorem sanity_chainCovered (T : UnicodeTables) (records : List DnsRecord) (qname : Str)
    (qtype : RecordType) : ChainCovered qname (filterAnswerSanity T records qname qtype).1 :=
  dedup_chainCovered (wrongType_chainCovered (bailiwick_chainCovered records qname))

theorem mem_of_mem_sanity {qtype : RecordType}
    (h : r ∈ (filterAnswerSanity T records qname qtype).1) : r ∈ records :=
  (mem_retain.1 (mem_retain.1 (mem_of_mem_dedupFrom h)).1).1

end

end RustyDns.L3
