import RustyDns.Lib.Net

/-!
# Clients

`rustydns-core/src/client.rs`: who sent a query, and what of that may be written to a log. An IPv4
client keeps its /16 and an IPv6 client its /64; the node id is never logged.
-/

namespace RustyDns.L1

open RustyDns.Lib

/-- mirrors crates/rustydns-core/src/client.rs:58-68 -/
structure ClientId where
  sourceIp : IpAddr
  nodeId : Option Str
  deriving DecidableEq, Repr

/-- mirrors crates/rustydns-core/src/client.rs:175-177 -/
structure AnonymizedClientId where
  anonIp : IpAddr
  deriving DecidableEq, Repr

/-- The last two octets zeroed. -/
def zeroHost (v4 : Ipv4Addr) : Ipv4Addr := .ofOctets (v4.octet 3) (v4.octet 2) 0 0

namespace ClientId

/-- mirrors crates/rustydns-core/src/client.rs:72-77 -/
def fromIp (ip : IpAddr) : ClientId where
  sourceIp := ip
  nodeId := none

/-- mirrors crates/rustydns-core/src/client.rs:106-142 -/
def anonymized (client : ClientId) : AnonymizedClientId :=
  match client.sourceIp with
  | .v4 v4 => { anonIp := .v4 (zeroHost v4) }
  | .v6 v6 =>
    match v6.toIpv4Mapped with
    | some v4 => { anonIp := .v4 (zeroHost v4) }
    | none => { anonIp := .v6 (.ofSegments (v6.segments.take 4 ++ [0, 0, 0, 0])) }

end ClientId

/-- `Display` of an `AnonymizedClientId`.
mirrors crates/rustydns-core/src/client.rs:179-186 -/
def AnonymizedClientId.display (client : AnonymizedClientId) : Str :=
  match client.anonIp with
  | .v4 v4 => v4.display ++ "/16/anon".toList
  | .v6 v6 => v6.display ++ "/64/anon".toList

end RustyDns.L1
