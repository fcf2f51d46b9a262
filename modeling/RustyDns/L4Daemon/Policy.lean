import RustyDns.L1Core.Schedule
import RustyDns.L4Daemon.Handler

/-!
# Client policies

The `[[policy]]` table of `rustydnsd/src/handler.rs`, keyed by client address, and the decision it
gives for one query. The wall clock is an argument. A policy whose windows do not compile gets an
empty schedule; log output is left out.

Result: `resolvePolicy_eq`, a client without an entry is treated as one with an entry that restricts
nothing.
-/

namespace RustyDns.L4.Pipeline

open RustyDns.Lib RustyDns.L1

/-- The whole decision of a query.
mirrors crates/rustydnsd/src/handler.rs:69-79 -/
structure PolicyDecision extends L4.PolicyDecision where
  zonesAllowed : List Str := []
  logAllQueries : Bool := false
  scheduleBlocked : Bool := false

/-- mirrors crates/rustydnsd/src/handler.rs:98-104 -/
structure CompiledPolicy where
  blocklistBypass : Bool := false
  zonesAllowed : List Str := []
  logAllQueries : Bool := false
  schedule : List CompiledWindow := []
  blocklistGroup : Option Str := none
  deriving DecidableEq, Repr

abbrev PolicyMap := AList fun _ : IpAddr => CompiledPolicy

/-- mirrors crates/rustydnsd/src/handler.rs:137-145 -/
def canonicalClientIp : IpAddr → IpAddr
  | .v6 v6 =>
    match v6.toIpv4Mapped with
    | some v4 => .v4 v4
    | none => .v6 v6
  | .v4 v4 => .v4 v4

def compilePolicy (policy : NodePolicy) : CompiledPolicy where
  blocklistBypass := policy.blocklistBypass
  zonesAllowed := policy.zonesAllowed
  logAllQueries := policy.logAllQueries
  schedule := (BlockSchedule.compile policy.blockWindows).toOption.getD []
  blocklistGroup := policy.blocklistGroup

/-- One turn of the loop over the policies; the later of two entries for one address wins. -/
def addPolicy (map : PolicyMap) (policy : NodePolicy) : PolicyMap :=
  match policy.clientIp.bind parseIpAddr with
  | some ip => map.insert (canonicalClientIp ip) (compilePolicy policy)
  | none => map

/-- mirrors crates/rustydnsd/src/handler.rs:147-186 -/
def buildPolicyMap (policies : List NodePolicy) : PolicyMap := policies.foldl addPolicy ∅

/-- The decision of an entry at a time. -/
def CompiledPolicy.decideAt (p : CompiledPolicy) (nowUnix : Nat) : PolicyDecision where
  blocklistBypass := p.blocklistBypass
  zonesAllowed := p.zonesAllowed
  logAllQueries := p.logAllQueries
  scheduleBlocked :=
    !p.schedule.isEmpty && BlockSchedule.isBlockedAtConservative p.schedule nowUnix
  blocklistGroup := p.blocklistGroup

/-- mirrors crates/rustydnsd/src/handler.rs:263-285 -/
def resolvePolicy (map : PolicyMap) (nowUnix : Nat) (srcIp : IpAddr) : PolicyDecision :=
  match map.lookup (canonicalClientIp srcIp) with
  | some p => p.decideAt nowUnix
  | none => {}

/-- The entry of a client, one that restricts nothing if there is none. -/
def clientPolicy (map : PolicyMap) (srcIp : IpAddr) : CompiledPolicy :=
  (map.lookup (canonicalClientIp srcIp)).getD {}

theorem resolvePolicy_eq (map : PolicyMap) (nowUnix : Nat) (srcIp : IpAddr) :
    resolvePolicy map nowUnix srcIp = (clientPolicy map srcIp).decideAt nowUnix := by
  unfold resolvePolicy clientPolicy
  cases map.lookup (canonicalClientIp srcIp) <;> rfl

end RustyDns.L4.Pipeline
