import RustyDns.Lib.AddressText
import RustyDns.Lib.Prefix
import RustyDns.L1Core.Matchers

/-!
# What the response-IP denylist denies

`Listed` is the meaning of a list of entries in terms of leading bits alone: which addresses agree
with an entry's address on as many bits as its prefix says, and in which family an entry counts.
`contains` works on two tables of networks and masks.

Results:
* `has_parse_iff`: the tables hold the rules of the accepted entries and nothing else.
* `contains_iff_listed`: a list finds exactly the listed addresses, an IPv4 address that is found is
  found in its mapped form too, and no mask of an accepted entry is computed with an overflow.
-/

namespace RustyDns.L1.IpDenylist

open RustyDns.Lib

/-! ## Meaning of an entry -/

/-- The IPv4 addresses an entry denies. An IPv4-mapped entry that fixes the mapped part counts as
the IPv4 range behind it. -/
def DeniesV4 : IpAddr × Nat → Ipv4Addr → Prop
  | (.v4 net, len), a => Within net len a
  | (.v6 net, len), a => 96 ≤ len ∧ ∃ b, net.toIpv4Mapped = some b ∧ Within b (len - 96) a

/-- The IPv6 addresses an entry denies as such. -/
def DeniesV6 : IpAddr × Nat → Ipv6Addr → Prop
  | (.v4 _, _), _ => False
  | (.v6 net, len), a => ¬ (96 ≤ len ∧ net.toIpv4Mapped.isSome = true) ∧ Within net len a

def ListedV4 (entries : List Str) (a : Ipv4Addr) : Prop :=
  ∃ entry ∈ entries, ∃ range, parseRange entry = .ok range ∧ DeniesV4 range a

def ListedV6 (entries : List Str) (a : Ipv6Addr) : Prop :=
  ∃ entry ∈ entries, ∃ range, parseRange entry = .ok range ∧ DeniesV6 range a

/-- An IPv4-mapped address is tested twice, as it is written and as the IPv4 address behind it. -/
def Listed (entries : List Str) : IpAddr → Prop
  | .v4 a => ListedV4 entries a
  | .v6 a => ListedV6 entries a ∨ ∃ b, a.toIpv4Mapped = some b ∧ ListedV4 entries b

/-! ## Masks with overflow checks -/

/-- `MAX << (w - len)` behind its test for `0`, with overflow checks on: `none` where the subtraction
would wrap or the shift would reach the width. -/
def checkedMask (w len : Nat) : Option (BitVec w) :=
  if len = 0 then some 0
  else if w < len then none
  else if w ≤ w - len then none
  else some (BitVec.allOnes w <<< (w - len))

theorem checkedMask_eq {w len : Nat} (h : len ≤ w) : checkedMask w len = some (maskOf w len) := by
  unfold checkedMask maskOf
  by_cases hzero : len = 0
  · rw [if_pos hzero, if_pos hzero]
  · rw [if_neg hzero, if_neg (by omega), if_neg (by omega), if_neg hzero]

theorem parsePrefix_le {part : Option Str} {max len : Nat} {entry : Str}
    (h : parsePrefix part max entry = .ok len) : len ≤ max := by
  cases part with
  | none =>
    obtain rfl := Except.ok.inj h
    exact le_refl _
  | some p =>
    simp only [parsePrefix, Checks.bind_ok_iff, Checks.reject_ok_iff, Checks.pure_ok_iff] at h
    obtain ⟨n, -, -, hle, rfl⟩ := h
    omega

/-- `cidrOf` with the overflow checks. -/
def checkedCidr : IpAddr × Nat → Option Cidr
  | (.v4 a, len) => (checkedMask 32 len).map fun mask => .v4 (a &&& mask) mask
  | (.v6 a, len) =>
    match (if 96 ≤ len then a.toIpv4Mapped else none) with
    | some b => (checkedMask 32 (len - 96)).map fun mask => .v4 (b &&& mask) mask
    | none => (checkedMask 128 len).map fun mask => .v6 (a &&& mask) mask

theorem checkedCidr_eq {ip : IpAddr} {len : Nat}
    (h : len ≤ match ip with | .v4 _ => 32 | .v6 _ => 128) :
    checkedCidr (ip, len) = some (cidrOf ip len) := by
  cases ip with
  | v4 a =>
    simp only at h
    simp only [checkedCidr, cidrOf, checkedMask_eq h, Option.map_some]
  | v6 a =>
    simp only at h
    have hshort : len - 96 ≤ 32 := by omega
    simp only [checkedCidr, cidrOf, checkedMask_eq h, checkedMask_eq hshort, Option.map_some]
    cases (if 96 ≤ len then a.toIpv4Mapped else none) <;> rfl

theorem checkedCidr_of_parseRange {entry : Str} {range : IpAddr × Nat}
    (h : parseRange entry = .ok range) : checkedCidr range = some (cidrOf range.1 range.2) := by
  simp only [parseRange, Checks.bind_ok_iff] at h
  obtain ⟨-, -, ip, -, h⟩ := h
  cases ip with
  | v4 net =>
    simp only [Checks.bind_ok_iff, Checks.pure_ok_iff] at h
    obtain ⟨len, hlen, rfl⟩ := h
    exact checkedCidr_eq (parsePrefix_le hlen)
  | v6 net =>
    simp only [Checks.bind_ok_iff, Checks.pure_ok_iff] at h
    obtain ⟨len, hlen, rfl⟩ := h
    exact checkedCidr_eq (parsePrefix_le hlen)

/-! ## The tables -/

theorem has_parse_iff {entries : List Str} {d : IpDenylist} (h : parse entries = .ok d) {c : Cidr} :
    d.Has c ↔ ∃ entry ∈ entries, ∃ range, parseRange entry = .ok range ∧
      cidrOf range.1 range.2 = c := by
  have hempty : ¬ ({} : IpDenylist).Has c := by cases c <;> simp [Has]
  have hstep : ∀ (d : IpDenylist) entry (d' : IpDenylist), (parseEntry entry).map d.push = .ok d' →
      (d'.Has c ↔ d.Has c ∨ parseEntry entry = .ok c) := by
    intro d entry d' hd
    cases hc : parseEntry entry with
    | error e => simp [hc, Except.map] at hd
    | ok c₀ =>
      obtain rfl : d.push c₀ = d' := by simpa [hc, Except.map] using hd
      rw [has_push, Except.ok.injEq, eq_comm (a := c)]
  rw [Checks.foldlM_ok_iff hstep h, or_iff_right hempty]
  simp only [parseEntry, Checks.bind_ok_iff, Checks.pure_ok_iff]

theorem masked_iff {w len : Nat} {net a : BitVec w} :
    a &&& maskOf w len = net &&& maskOf w len ↔ Within net len a := by
  rw [and_maskOf_eq_iff, within_iff_shiftRight]

/-- The rule of an entry matches the IPv4 addresses the entry denies. -/
theorem cidrOf_v4_iff {range : IpAddr × Nat} {a : Ipv4Addr} :
    (∃ net mask, cidrOf range.1 range.2 = .v4 net mask ∧ a &&& mask = net) ↔ DeniesV4 range a := by
  obtain ⟨ip, len⟩ := range
  cases ip with
  | v4 net => simp [cidrOf, DeniesV4, ← masked_iff, eq_comm]
  | v6 net =>
    by_cases hlen : 96 ≤ len
    · cases hnet : net.toIpv4Mapped with
      | none => simp [cidrOf, DeniesV4, hlen, hnet]
      | some b => simp [cidrOf, DeniesV4, hlen, hnet, ← masked_iff, eq_comm]
    · simp [cidrOf, DeniesV4, hlen]

theorem cidrOf_v6_iff {range : IpAddr × Nat} {a : Ipv6Addr} :
    (∃ net mask, cidrOf range.1 range.2 = .v6 net mask ∧ a &&& mask = net) ↔ DeniesV6 range a := by
  obtain ⟨ip, len⟩ := range
  cases ip with
  | v4 net => simp [cidrOf, DeniesV6]
  | v6 net =>
    by_cases hlen : 96 ≤ len
    · cases hnet : net.toIpv4Mapped with
      | none => simp [cidrOf, DeniesV6, hlen, hnet, ← masked_iff, eq_comm (a := a &&& _)]
      | some b => simp [cidrOf, DeniesV6, hlen, hnet]
    · simp [cidrOf, DeniesV6, hlen, ← masked_iff, eq_comm (a := a &&& _)]

theorem hitsV4_iff {entries : List Str} {d : IpDenylist} (h : parse entries = .ok d)
    {a : Ipv4Addr} : d.hitsV4 a = true ↔ ListedV4 entries a := by
  have hrow : d.hitsV4 a = true ↔ ∃ net mask, d.Has (.v4 net mask) ∧ a &&& mask = net := by
    simp [hitsV4, Has]
  simp only [hrow, has_parse_iff h, ListedV4, ← cidrOf_v4_iff]
  grind

theorem hitsV6_iff {entries : List Str} {d : IpDenylist} (h : parse entries = .ok d)
    {a : Ipv6Addr} : d.hitsV6 a = true ↔ ListedV6 entries a := by
  have hrow : d.hitsV6 a = true ↔ ∃ net mask, d.Has (.v6 net mask) ∧ a &&& mask = net := by
    simp [hitsV6, Has]
  simp only [hrow, has_parse_iff h, ListedV6, ← cidrOf_v6_iff]
  grind

theorem contains_iff {entries : List Str} {d : IpDenylist} (h : parse entries = .ok d)
    {a : IpAddr} : d.contains a = true ↔ Listed entries a := by
  cases a with
  | v4 a => exact hitsV4_iff h
  | v6 a =>
    cases hb : a.toIpv4Mapped with
    | none => simp [contains, Listed, hb, hitsV6_iff h]
    | some b => simp [contains, Listed, hb, hitsV6_iff h, hitsV4_iff h]

/-- The response-IP denylist matches exactly its ranges, in both families and without an overflow. -/
theorem contains_iff_listed {entries : List Str} {d : IpDenylist} (h : parse entries = .ok d) :
    (∀ a, d.contains a = true ↔ Listed entries a) ∧
    (∀ a : Ipv4Addr, d.contains (.v4 a) = true → d.contains (.v6 a.toIpv6Mapped) = true) ∧
    ∀ entry ∈ entries, ∀ range, parseRange entry = .ok range →
      checkedCidr range = some (cidrOf range.1 range.2) := by
  refine ⟨fun a => contains_iff h, fun a ha => ?_, fun _ _ _ => checkedCidr_of_parseRange⟩
  exact contains_mapped (Ipv6Addr.toIpv4Mapped_toIpv6Mapped a) ha

/-- An IPv4 range, a mapped one and a single IPv6 address. -/
def sampleEntries : List Str :=
  ["10.0.0.0/8".toList, "::ffff:6.6.6.0/120".toList, "2001:db8::1".toList]

/-- The mapped entry is stored as `6.6.6.0/24`. -/
def sampleList : IpDenylist where
  v4 := [(0x0a000000#32, 0xff000000#32), (0x06060600#32, 0xffffff00#32)]
  v6 := [(0x20010db8000000000000000000000001#128, BitVec.allOnes 128)]

theorem sample_contains_iff_listed :
    parse sampleEntries = .ok sampleList ∧
    (∀ a, sampleList.contains a = true ↔ Listed sampleEntries a) ∧
    (sampleList.contains (.v6 (Ipv4Addr.toIpv6Mapped 0x06060607#32))) = true :=
  have h : parse sampleEntries = .ok sampleList := by decide +kernel
  ⟨h, (contains_iff_listed h).1, (contains_iff_listed h).2.1 _ (by decide)⟩

end RustyDns.L1.IpDenylist
