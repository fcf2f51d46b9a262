import RustyDns.Lib.Net
import RustyDns.Lib.Unicode

/-!
# Records and errors

The in-memory DNS record (`rustydns-core/src/record.rs`) and the error type the crates share
(`rustydns-core/src/error.rs`). Durations are whole seconds, as every record of the daemon has.
Of the errors only the variants that modelled code returns are here.
-/

namespace RustyDns.L1

open RustyDns.Lib

/-- mirrors crates/rustydns-core/src/error.rs:7-87 -/
inductive RustyDnsError where
  | config (msg : String)
  | zone (msg : String)
  | blocklist (msg : String)
  | resolver (msg : String)
  | allUpstreamsFailed
  deriving DecidableEq, Repr

/-- mirrors crates/rustydns-core/src/record.rs:22-55 -/
inductive RecordData where
  | a (ip : Ipv4Addr)
  | aaaa (ip : Ipv6Addr)
  | cname (target : Str)
  | ptr (target : Str)
  | txt (parts : List (List UInt8))
  | mx (preference : Nat) (exchange : Str)
  | ns (target : Str)
  | srv (priority weight port : Nat) (target : Str)
  deriving DecidableEq, Repr

/-- mirrors crates/rustydns-core/src/record.rs:59-70 -/
def RecordData.typeName : RecordData → Str
  | .a _ => "A".toList
  | .aaaa _ => "AAAA".toList
  | .cname _ => "CNAME".toList
  | .ptr _ => "PTR".toList
  | .txt _ => "TXT".toList
  | .mx _ _ => "MX".toList
  | .ns _ => "NS".toList
  | .srv _ _ _ _ => "SRV".toList

/-- mirrors crates/rustydns-core/src/record.rs:79-94 -/
structure DnsRecord where
  name : Str
  data : RecordData
  ttl : Nat
  meshNodeId : Option Str := none
  deriving DecidableEq, Repr

namespace DnsRecord

/-- mirrors crates/rustydns-core/src/record.rs:101-112 -/
def new (T : UnicodeTables) (name : Str) (data : RecordData) (ttl : Nat) : DnsRecord :=
  let name := name.toLowercase T
  let name := if name.endsWith ['.'] then name else name ++ ['.']
  { name, data, ttl }

/-- mirrors crates/rustydns-core/src/record.rs:118-121 -/
def withMeshNode (r : DnsRecord) (nodeId : Str) : DnsRecord := { r with meshNodeId := some nodeId }

/-- mirrors crates/rustydns-core/src/record.rs:124-126 -/
def typeName (r : DnsRecord) : Str := r.data.typeName

end DnsRecord

/-- `STATIC_RECORD_TTL`, in seconds. -/
def staticRecordTtl : Nat := 300

end RustyDns.L1
