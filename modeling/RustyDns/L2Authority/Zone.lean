import RustyDns.Lib.Checks
import RustyDns.L1Core.Config

/-!
# Zone apexes and static records

`rustydns-authority/src/lib.rs`: how names are normalised and compared with a zone, which zone apex
a static record claims, and how a static record of the config becomes a `DnsRecord`, with every
refusal and its message.

`declared_zones` (a `BTreeSet`) is its ascending list (`btreeSet`).
-/

namespace RustyDns.L2.Zone

open RustyDns.Lib RustyDns.L1
open RustyDns.Lib.Checks (reject okOr)

/-! ## Names -/

/-- mirrors crates/rustydns-authority/src/lib.rs:569-582 -/
def normaliseName (name : Str) : Str :=
  let trimmed := name.trim
  let hasDot := trimmed.endsWith ['.']
  let hasUpper := trimmed.any Char.isUpper
  if hasDot && !hasUpper && trimmed.byteLen == name.byteLen then name
  else
    let n := trimmed.toAsciiLowercase
    if !hasDot then n ++ ['.'] else n

/-- mirrors crates/rustydns-authority/src/lib.rs:551-559 -/
def nameWithinZone (name zone : Str) : Bool :=
  name == zone ||
    (zone.byteLen < name.byteLen &&
      -- `ends_with(zone)`, and the byte before the zone is a dot
      match name.stripEnd zone with
      | some front => front.getLast? == some '.'
      | none => false)

/-! ## Apexes -/

/-- `iter.collect::<BTreeSet<String>>()`, in iteration order. -/
def btreeSet (l : List Str) : List Str := l.dedup.insertionSort (· ≤ ·)

@[simp] theorem mem_btreeSet {l : List Str} {x : Str} : x ∈ btreeSet l ↔ x ∈ l := by
  simp [btreeSet]

/-- mirrors crates/rustydns-authority/src/lib.rs:607-651 -/
def staticZoneApex (T : UnicodeTables) (name meshZone : Str) (declaredZones : List Str) :
    Except RustyDnsError Str :=
  let dbg := Str.debugFmt T name
  let ownApex : Except RustyDnsError Str :=
    if name = ['.'] then
      .error (.zone
        s!"static record name {dbg} would make the authority authoritative over the DNS root")
    else if name ∈ declaredZones ∨ name = meshZone then .ok name
    else
      .error (.zone (s!"static record name {dbg} is a single-label name that would claim " ++
        s!"the whole top-level domain {dbg} as its own apex — declare it " ++
        s!"with `authority.zones = [\"{name.display}\"]` if it is a deliberate " ++
        "internal zone (e.g. \"localhost.\")"))
  match name.splitOnce '.' with
  | some (_, parent) =>
    if parent ≠ [] then
      let singleLabel := '.' ∉ parent.dropLast
      if singleLabel ∧ parent ≠ meshZone ∧ parent ∉ declaredZones then
        .error (.zone (s!"static record name {dbg} implies the bare TLD apex " ++
          s!"{Str.debugFmt T parent} — " ++
          "refusing to claim authority over a whole top-level domain (every name " ++
          "under it would return authoritative NODATA); declare it with " ++
          s!"`authority.zones = [\"{parent.display}\"]` if it is a deliberate internal " ++
          "zone, or use a record name of at least three labels, e.g. " ++
          "\"host.zone.tld\""))
      else .ok parent
    else ownApex
  | none => ownApex

/-! ## Static records -/

/-- mirrors crates/rustydns-authority/src/lib.rs:773-783 -/
def requireAddress (sr : StaticRecord) (typeLabel : String) : Except RustyDnsError Str :=
  okOr (sr.address.filter (· ≠ []))
    (.zone (s!"static record `{sr.name.display}` of type {typeLabel} is missing required " ++
      "`address` field"))

/-- mirrors crates/rustydns-authority/src/lib.rs:785-795 -/
def requireTarget (sr : StaticRecord) (typeLabel : String) : Except RustyDnsError Str :=
  okOr (sr.target.filter (· ≠ []))
    (.zone (s!"static record `{sr.name.display}` of type {typeLabel} is missing required " ++
      "`target` field"))

/-- mirrors crates/rustydns-authority/src/lib.rs:797-804 -/
def parseU16 (sr : StaticRecord) (label : String) (value : Str) : Except RustyDnsError Nat :=
  okOr (value.parseUnsigned 65536)
    (.zone s!"static record `{sr.name.display}` {label} `{value.display}` is not a valid u16")

/-- The `A` and `AAAA` arms: an address in the text form of its family. -/
def addressData {α : Type} (sr : StaticRecord) (typeLabel syntaxError : String)
    (parse : Str → Option α) (mk : α → RecordData) : Except RustyDnsError RecordData := do
  let addr ← requireAddress sr typeLabel
  let ip ← okOr (parse addr) (.zone (s!"static record `{sr.name.display}` has invalid " ++
    s!"{typeLabel} address `{addr.display}`: {syntaxError}"))
  pure (mk ip)

/-- The `CNAME`, `PTR` and `NS` arms: a normalised target. -/
def targetData (sr : StaticRecord) (typeLabel : String) (mk : Str → RecordData) :
    Except RustyDnsError RecordData := do
  let target ← requireTarget sr typeLabel
  pure (mk (normaliseName target))

/-- The `TXT` arm. -/
def txtData (sr : StaticRecord) : Except RustyDnsError RecordData := do
  let target ← requireTarget sr "TXT"
  let bytes := target.asBytes
  reject (255 < bytes.length)
    (.zone (s!"static record `{sr.name.display}` TXT value is {bytes.length} bytes — a single " ++
      "TXT character-string is limited to 255 bytes (RFC 1035 §3.3). " ++
      "Shorten the value or split it across multiple records."))
  pure (.txt [bytes])

/-- The `MX` arm: `<preference> <hostname>`. -/
def mxData (sr : StaticRecord) : Except RustyDnsError RecordData := do
  let target ← requireTarget sr "MX"
  let parts := target.splitWhitespace
  let pref ← okOr (parts[0]?.bind (Str.parseUnsigned 65536))
    (.zone (s!"static record `{sr.name.display}` MX target `{target.display}` must be " ++
      "\"<preference> <hostname>\""))
  let exchange ← okOr ((parts[1]?.map Str.trim).filter (· ≠ []))
    (.zone (s!"static record `{sr.name.display}` MX target `{target.display}` missing " ++
      "exchange hostname"))
  reject (parts[2]?.isSome)
    (.zone (s!"static record `{sr.name.display}` MX target `{target.display}` has trailing " ++
      "junk after \"<preference> <hostname>\""))
  pure (.mx pref (normaliseName exchange))

/-- The `SRV` arm: `<priority> <weight> <port> <hostname>`. -/
def srvData (sr : StaticRecord) : Except RustyDnsError RecordData := do
  let target ← requireTarget sr "SRV"
  match target.splitWhitespace with
  | [priority, weight, port, host] =>
    let priority ← parseU16 sr "SRV priority" priority
    let weight ← parseU16 sr "SRV weight" weight
    let port ← parseU16 sr "SRV port" port
    pure (.srv priority weight port (normaliseName host))
  | _ =>
    throw (.zone (s!"static record `{sr.name.display}` SRV target `{target.display}` must be " ++
      "\"<priority> <weight> <port> <hostname>\""))

/-- The `match rtype` of `static_record_to_dns_record`. -/
def staticRecordData (sr : StaticRecord) (rtype : Str) : Except RustyDnsError RecordData :=
  if rtype = "A".toList then
    addressData sr "A" "invalid IPv4 address syntax" parseIpv4Addr .a
  else if rtype = "AAAA".toList then
    addressData sr "AAAA" "invalid IPv6 address syntax" parseIpv6Addr .aaaa
  else if rtype = "CNAME".toList then targetData sr "CNAME" .cname
  else if rtype = "PTR".toList then targetData sr "PTR" .ptr
  else if rtype = "TXT".toList then txtData sr
  else if rtype = "NS".toList then targetData sr "NS" .ns
  else if rtype = "MX".toList then mxData sr
  else if rtype = "SRV".toList then srvData sr
  else
    .error (.zone (s!"static record `{sr.name.display}` has unsupported type " ++
      s!"`{rtype.display}` (supported: A, AAAA, CNAME, PTR, TXT, MX, NS, SRV)"))

/-- mirrors crates/rustydns-authority/src/lib.rs:657-771 -/
def staticRecordToDnsRecord (T : UnicodeTables) (sr : StaticRecord) :
    Except RustyDnsError DnsRecord := do
  let ttl := if sr.ttl = 0 then staticRecordTtl else sr.ttl
  let data ← staticRecordData sr sr.recordType.trim.toAsciiUppercase
  pure (DnsRecord.new T sr.name data ttl)

end RustyDns.L2.Zone
