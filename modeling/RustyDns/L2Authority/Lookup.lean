import RustyDns.L2Authority.Authority

/-!
# Authority lookups

`Authority::lookup` of `rustydns-authority/src/lib.rs`, with the CNAME chase inside the authority's
zones. The set of visited names is a list; log output is left out.

Result: `lookup_isSome`, the authority answers exactly for the names of its zones.
-/

namespace RustyDns.L2.Auth

open RustyDns.Lib RustyDns.L1
open RustyDns.L2.Zone

/-- `MAX_CNAME_DEPTH`. -/
def maxCnameDepth : Nat := 8

/-- The target of a CNAME record. -/
def cnameTarget (r : DnsRecord) : Option Str :=
  match r.data with
  | .cname target => some target
  | _ => none

/-- The first CNAME of a name, with its target. -/
def firstCname (records : List DnsRecord) : Option (DnsRecord × Str) :=
  records.findSome? fun r => (cnameTarget r).map (r, ·)

namespace Authority

variable (auth : Authority) (snap : Snapshot) (rtype : Str)

/-- The loop over the hops, at most `hops` of them.
mirrors crates/rustydns-authority/src/lib.rs:433-480 -/
def chase : (hops : Nat) → (visited : List Str) → (next : Str) → (out : List DnsRecord) →
    List DnsRecord
  | 0, _, _, out => out
  | hops + 1, visited, next, out =>
    if next ∈ visited then out
    else if !auth.isAuthoritativeForNormalised next snap then out
    else
      match snap.records.lookup next with
      | none => out
      | some recs =>
        let terminal := recs.filter (·.typeName == rtype)
        if !terminal.isEmpty then out ++ terminal
        else
          match firstCname recs with
          | some (hop, target) => chase hops (next :: visited) target (out ++ [hop])
          | none => out

/-- mirrors crates/rustydns-authority/src/lib.rs:381-488 -/
def collectWithCnameChain (name : Str) : List DnsRecord :=
  let initial := (snap.records.lookup name).getD []
  let direct :=
    if rtype = "ANY".toList then initial else initial.filter (·.typeName == rtype)
  if rtype = "CNAME".toList ∨ rtype = "ANY".toList ∨ direct ≠ [] then direct
  else
    match firstCname initial with
    | none => []
    | some (hop, target) => chase auth snap rtype maxCnameDepth [name] target [hop]

/-- mirrors crates/rustydns-authority/src/lib.rs:298-311 -/
def lookup (name recordType : Str) : Option (List DnsRecord) :=
  let key := normaliseName name
  let rtype := recordType.trim.toAsciiUppercase
  if !auth.isAuthoritativeForNormalised key auth.snapshot then none
  else some (auth.collectWithCnameChain auth.snapshot rtype key)

end Authority

theorem lookup_isSome {auth : Authority} {name rtype : Str} :
    (auth.lookup name rtype).isSome = auth.isAuthoritativeFor name := by
  unfold Authority.lookup Authority.isAuthoritativeFor
  cases h : auth.isAuthoritativeForNormalised (normaliseName name) auth.snapshot <;> simp [h]

end RustyDns.L2.Auth
