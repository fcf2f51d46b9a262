import RustyDns.Lib.Prefix
import RustyDns.L3Resolver.Answer

/-!
# Which addresses the rebinding filter drops

The source documents the filter as a table of networks and builds it from the classifiers of the
standard library. `internalV4` and `internalV6` are the documented table.

The two differ on one network: the table has `0.0.0.0/8`, the classifier `is_unspecified` only the
address `0.0.0.0`.

Results:
* `isPrivateOrInternalV4_iff`, `isPrivateOrInternalV6_iff`: the classifiers as networks.
* `filterPrivateRdata_eq_iff`: the filter keeps what the table says exactly for the lists without a
  record in the rest of `0.0.0.0/8`.
-/

namespace RustyDns.L3

open RustyDns.Lib RustyDns.L1

/-! ## The documented table -/

/-- Networks of IPv4 addresses no public answer should hold. -/
def internalV4 : List (Ipv4Addr × Nat) :=
  [ (.ofOctets 10 0 0 0, 8), (.ofOctets 172 16 0 0, 12), (.ofOctets 192 168 0 0, 16)
  , (.ofOctets 127 0 0 0, 8), (.ofOctets 169 254 0 0, 16), (.ofOctets 0 0 0 0, 8)
  , (.ofOctets 255 255 255 255, 32)
  , (.ofOctets 192 0 2 0, 24), (.ofOctets 198 51 100 0, 24), (.ofOctets 203 0 113 0, 24)
  , (.ofOctets 224 0 0 0, 4) ]

/-- Networks of IPv6 addresses: `::1`, `::`, `fc00::/7`, `fe80::/10`, `2001:db8::/32`, `ff00::/8`. -/
def internalV6 : List (Ipv6Addr × Nat) :=
  [ (.ofSegments [0, 0, 0, 0, 0, 0, 0, 1], 128), (.ofSegments [0, 0, 0, 0, 0, 0, 0, 0], 128)
  , (.ofSegments [0xfc00, 0, 0, 0, 0, 0, 0, 0], 7), (.ofSegments [0xfe80, 0, 0, 0, 0, 0, 0, 0], 10)
  , (.ofSegments [0x2001, 0xdb8, 0, 0, 0, 0, 0, 0], 32)
  , (.ofSegments [0xff00, 0, 0, 0, 0, 0, 0, 0], 8) ]

def InternalV4 (a : Ipv4Addr) : Prop := ∃ net ∈ internalV4, Within net.1 net.2 a

def InternalV6 (a : Ipv6Addr) : Prop :=
  (∃ net ∈ internalV6, Within net.1 net.2 a) ∨ ∃ b, a.toIpv4Mapped = some b ∧ InternalV4 b

instance (a : Ipv4Addr) : Decidable (InternalV4 a) :=
  inferInstanceAs (Decidable (∃ net ∈ internalV4, _))

instance (a : Ipv6Addr) : Decidable (InternalV6 a) :=
  match h : a.toIpv4Mapped with
  | none => decidable_of_iff (∃ net ∈ internalV6, Within net.1 net.2 a) (by simp [InternalV6, h])
  | some b => decidable_of_iff ((∃ net ∈ internalV6, Within net.1 net.2 a) ∨ InternalV4 b)
      (by simp [InternalV6, h])

/-- An internal address of a record. -/
def InternalData : RecordData → Prop
  | .a ip => InternalV4 ip
  | .aaaa ip => InternalV6 ip
  | _ => False

instance : DecidablePred InternalData
  | .a ip => inferInstanceAs (Decidable (InternalV4 ip))
  | .aaaa ip => inferInstanceAs (Decidable (InternalV6 ip))
  | .cname _ | .ptr _ | .txt _ | .mx _ _ | .ns _ | .srv _ _ _ _ => inferInstanceAs (Decidable False)

/-- The part of `0.0.0.0/8` the classifiers do not know. -/
def ThisNetwork (a : Ipv4Addr) : Prop := Within (Ipv4Addr.ofOctets 0 0 0 0) 8 a ∧ a ≠ 0#32

/-- An address of a record in that part, mapped or not. -/
def ThisNetworkData : RecordData → Prop
  | .a ip => ThisNetwork ip
  | .aaaa ip => ∃ b, ip.toIpv4Mapped = some b ∧ ThisNetwork b
  | _ => False

/-! ## The classifiers as networks -/

section Octets

variable {x y z : Nat} {a : Ipv4Addr}

theorem within_eight (hx : x < 256) : Within (Ipv4Addr.ofOctets x 0 0 0) 8 a ↔ a.octet 3 = x := by
  have hlt := a.isLt
  simp only [within_iff_toNat, Ipv4Addr.ofOctets, Ipv4Addr.octet, BitVec.toNat_ofNat]
  omega

theorem within_sixteen (hx : x < 256) (hy : y < 256) :
    Within (Ipv4Addr.ofOctets x y 0 0) 16 a ↔ a.octet 3 = x ∧ a.octet 2 = y := by
  have hlt := a.isLt
  simp only [within_iff_toNat, Ipv4Addr.ofOctets, Ipv4Addr.octet, BitVec.toNat_ofNat]
  omega

theorem within_twentyFour (hx : x < 256) (hy : y < 256) (hz : z < 256) :
    Within (Ipv4Addr.ofOctets x y z 0) 24 a ↔ a.octet 3 = x ∧ a.octet 2 = y ∧ a.octet 1 = z := by
  have hlt := a.isLt
  simp only [within_iff_toNat, Ipv4Addr.ofOctets, Ipv4Addr.octet, BitVec.toNat_ofNat]
  omega

/-- `172.16.0.0/12` takes in the second octets 16 to 31. -/
theorem within_twelve : Within (Ipv4Addr.ofOctets 172 16 0 0) 12 a ↔
    a.octet 3 = 172 ∧ 16 ≤ a.octet 2 ∧ a.octet 2 ≤ 31 := by
  have hlt := a.isLt
  simp only [within_iff_toNat, Ipv4Addr.ofOctets, Ipv4Addr.octet, BitVec.toNat_ofNat]
  omega

theorem within_four : Within (Ipv4Addr.ofOctets 224 0 0 0) 4 a ↔
    224 ≤ a.octet 3 ∧ a.octet 3 ≤ 239 := by
  have hlt := a.isLt
  simp only [within_iff_toNat, Ipv4Addr.ofOctets, Ipv4Addr.octet, BitVec.toNat_ofNat]
  omega

theorem isLoopback_iff : a.isLoopback = true ↔ a.octet 3 = 127 := by
  have hlt := a.isLt
  simp only [Ipv4Addr.isLoopback, Ipv4Addr.octet, beq_iff_eq, ← BitVec.toNat_inj,
    BitVec.toNat_ushiftRight, Nat.shiftRight_eq_div_pow, BitVec.toNat_ofNat]
  omega

end Octets

theorem within_full {w : Nat} {net a : BitVec w} : Within net w a ↔ a = net := by
  rw [within_iff_shiftRight, Nat.sub_self, BitVec.ushiftRight_zero, BitVec.ushiftRight_zero]

/-- The classifiers, octet by octet. -/
theorem isPrivateOrInternalV4_octets {a : Ipv4Addr} :
    isPrivateOrInternalV4 a = true ↔
      (a.octet 3 = 10 ∨ (a.octet 3 = 172 ∧ 16 ≤ a.octet 2 ∧ a.octet 2 ≤ 31) ∨
        (a.octet 3 = 192 ∧ a.octet 2 = 168)) ∨
      a.octet 3 = 127 ∨ (a.octet 3 = 169 ∧ a.octet 2 = 254) ∨ a = 0#32 ∨ a = BitVec.allOnes 32 ∨
      ((a.octet 3 = 192 ∧ a.octet 2 = 0 ∧ a.octet 1 = 2) ∨
        (a.octet 3 = 198 ∧ a.octet 2 = 51 ∧ a.octet 1 = 100) ∨
        (a.octet 3 = 203 ∧ a.octet 2 = 0 ∧ a.octet 1 = 113)) ∨
      (224 ≤ a.octet 3 ∧ a.octet 3 ≤ 239) := by
  simp only [isPrivateOrInternalV4, isPrivateV4, isDocumentationV4, isLoopback_iff, Bool.or_eq_true,
    Bool.and_eq_true, beq_iff_eq, decide_eq_true_iff, List.mem_cons, List.not_mem_nil, or_false,
    Prod.mk.injEq, or_assoc]

/-- The documented table, octet by octet. -/
theorem internalV4_octets {a : Ipv4Addr} :
    InternalV4 a ↔
      a.octet 3 = 10 ∨ (a.octet 3 = 172 ∧ 16 ≤ a.octet 2 ∧ a.octet 2 ≤ 31) ∨
      (a.octet 3 = 192 ∧ a.octet 2 = 168) ∨ a.octet 3 = 127 ∨
      (a.octet 3 = 169 ∧ a.octet 2 = 254) ∨ a.octet 3 = 0 ∨ a = BitVec.allOnes 32 ∨
      (a.octet 3 = 192 ∧ a.octet 2 = 0 ∧ a.octet 1 = 2) ∨
      (a.octet 3 = 198 ∧ a.octet 2 = 51 ∧ a.octet 1 = 100) ∨
      (a.octet 3 = 203 ∧ a.octet 2 = 0 ∧ a.octet 1 = 113) ∨
      (224 ≤ a.octet 3 ∧ a.octet 3 ≤ 239) := by
  have hbroadcast : Ipv4Addr.ofOctets 255 255 255 255 = BitVec.allOnes 32 := by decide
  simp (disch := decide) only [InternalV4, internalV4, List.mem_cons, List.not_mem_nil, or_false,
    or_and_right, exists_or, exists_eq_left, within_eight, within_twelve, within_sixteen,
    within_twentyFour, within_four, within_full, hbroadcast]

/-- Of the addresses whose first octet is `0` the classifiers know one. -/
theorem isPrivateOrInternalV4_zero {a : Ipv4Addr} (h : a.octet 3 = 0) :
    isPrivateOrInternalV4 a = true ↔ a = 0#32 := by
  have hne : a ≠ 4294967295#32 := by
    rintro rfl
    exact absurd h (by decide)
  simp [isPrivateOrInternalV4_octets, h, hne]

theorem isPrivateOrInternalV4_iff {a : Ipv4Addr} :
    isPrivateOrInternalV4 a = true ↔ InternalV4 a ∧ ¬ ThisNetwork a := by
  rw [ThisNetwork, within_eight (by decide)]
  by_cases h : a.octet 3 = 0
  · simp [isPrivateOrInternalV4_zero h, internalV4_octets, h]
  · have hne : a ≠ 0#32 := by
      rintro rfl
      exact h rfl
    simp [isPrivateOrInternalV4_octets, internalV4_octets, h, hne, or_assoc]

/-! ### IPv6 -/

theorem toIpv4Mapped_eq_some_iff {a : Ipv6Addr} {b : Ipv4Addr} :
    a.toIpv4Mapped = some b ↔ a.toNat / 2 ^ 32 = 65535 ∧ b.toNat = a.toNat % 2 ^ 32 := by
  rw [Ipv6Addr.toIpv4Mapped, Option.ite_none_right_eq_some, Option.some.injEq,
    ← BitVec.toNat_inj, BitVec.toNat_ushiftRight, Nat.shiftRight_eq_div_pow, ← BitVec.toNat_inj,
    BitVec.toNat_setWidth, eq_comm (a := b.toNat)]
  rfl

theorem within_internalV6_iff {a : Ipv6Addr} :
    (∃ net ∈ internalV6, Within net.1 net.2 a) ↔
      a.toNat = 1 ∨ a.toNat = 0 ∨ a.toNat / 2 ^ 121 = 126 ∨ a.toNat / 2 ^ 118 = 1018 ∨
        a.toNat / 2 ^ 96 = 536939960 ∨ a.toNat / 2 ^ 120 = 255 := by
  simp [internalV6, within_iff_toNat, Ipv6Addr.ofSegments]

/-- The mapped addresses are in none of the IPv6 networks. -/
theorem not_within_of_mapped {a : Ipv6Addr} {b : Ipv4Addr} (h : a.toIpv4Mapped = some b) :
    ¬ ∃ net ∈ internalV6, Within net.1 net.2 a := by
  rw [within_internalV6_iff]
  obtain ⟨hhigh, -⟩ := toIpv4Mapped_eq_some_iff.1 h
  omega

theorem isPrivateOrInternalV6_iff {a : Ipv6Addr} :
    isPrivateOrInternalV6 a = true ↔
      InternalV6 a ∧ ¬ ∃ b, a.toIpv4Mapped = some b ∧ ThisNetwork b := by
  cases h : a.toIpv4Mapped with
  | some b =>
    simp [isPrivateOrInternalV6, InternalV6, h, isPrivateOrInternalV4_iff, not_within_of_mapped h]
  | none =>
    simp only [isPrivateOrInternalV6, h, InternalV6, within_internalV6_iff, Bool.or_eq_true,
      beq_iff_eq, ← BitVec.toNat_inj, BitVec.toNat_ushiftRight, Nat.shiftRight_eq_div_pow,
      BitVec.toNat_ofNat, reduceCtorEq, false_and, exists_false, or_false, not_false_eq_true,
      and_true, or_assoc]

/-! ## The filter -/

theorem keepsRdata_iff {r : DnsRecord} :
    keepsRdata r = true ↔ ¬ InternalData r.data ∨ ThisNetworkData r.data := by
  unfold keepsRdata
  cases r.data with
  | a ip => simp only [Bool.not_eq_true', ← Bool.not_eq_true, isPrivateOrInternalV4_iff,
      not_and_or, not_not, InternalData, ThisNetworkData]
  | aaaa ip => simp only [Bool.not_eq_true', ← Bool.not_eq_true, isPrivateOrInternalV6_iff,
      not_and_or, not_not, InternalData, ThisNetworkData]
  | _ => simp [InternalData]

theorem internalData_of_thisNetwork {data : RecordData} (h : ThisNetworkData data) :
    InternalData data := by
  have hmem : (Ipv4Addr.ofOctets 0 0 0 0, 8) ∈ internalV4 := by simp [internalV4]
  cases data with
  | a ip => exact ⟨_, hmem, h.1⟩
  | aaaa ip =>
    obtain ⟨b, hb, hnet⟩ := h
    exact .inr ⟨b, hb, _, hmem, hnet.1⟩
  | _ => exact h

theorem filterPrivateRdata_eq_iff (records : List DnsRecord) :
    (filterPrivateRdata records).1 = records.filter (fun r => ¬ InternalData r.data) ↔
      ∀ r ∈ records, ¬ ThisNetworkData r.data := by
  have hkept : (filterPrivateRdata records).1 = records.filter keepsRdata := rfl
  rw [hkept]
  constructor
  · intro heq r hr hnet
    have hmem : r ∈ records.filter keepsRdata :=
      List.mem_filter.2 ⟨hr, keepsRdata_iff.2 (.inr hnet)⟩
    rw [heq, List.mem_filter, decide_eq_true_iff] at hmem
    exact hmem.2 (internalData_of_thisNetwork hnet)
  · intro hall
    refine List.filter_congr fun r hr => ?_
    rw [Bool.eq_iff_iff, keepsRdata_iff, decide_eq_true_iff, or_iff_left (hall r hr)]

/-- An answer in `0.0.0.0/8` passes. -/
theorem filterPrivateRdata_this_network :
    let r : DnsRecord := { name := "rebind.example.".toList, data := .a 0x00000001#32, ttl := 60 }
    InternalData r.data ∧ (filterPrivateRdata [r]).1 = [r] := by
  decide

end RustyDns.L3
