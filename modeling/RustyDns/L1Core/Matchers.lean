import RustyDns.Lib.Checks
import RustyDns.Lib.Net
import RustyDns.Lib.Unicode

/-!
# Response-IP denylist and regex rules

`rustydns-core/src/ip_denylist.rs` and `regex_rules.rs`. The regex crate is a parameter: building a
set gives its matcher or the text of its error, and nothing is assumed of either.

`inRange` is what an entry of the denylist is for: the addresses that agree with the entry's address
on the first bits. `Denied` is membership in some entry's range.

Results:
* `and_maskOf_eq_iff`: comparing under a mask is comparing the first bits.
* `contains_of_denied`: every denied address is found, and so is an IPv4-mapped address whose IPv4
  form is denied (`contains_mapped`).
-/

namespace RustyDns.L1

open RustyDns.Lib
open RustyDns.Lib.Checks (reject okOr)

/-! ## Denylist -/

/-- A parsed entry: `(network, mask)` of its family. -/
inductive Cidr where
  | v4 (network mask : BitVec 32)
  | v6 (network mask : BitVec 128)
  deriving DecidableEq, Repr

/-- mirrors crates/rustydns-core/src/ip_denylist.rs:27-30 -/
structure IpDenylist where
  v4 : List (BitVec 32 × BitVec 32) := []
  v6 : List (BitVec 128 × BitVec 128) := []
  deriving DecidableEq, Repr

namespace IpDenylist

/-- mirrors crates/rustydns-core/src/ip_denylist.rs:160-175 -/
def parsePrefix (prefixPart : Option Str) (max : Nat) (entry : Str) : Except String Nat :=
  match prefixPart with
  | none => .ok max
  | some p => do
    let n ← okOr (p.parseUnsigned 256) s!"`{entry.display}` has an invalid prefix length"
    reject (max < n) (s!"`{entry.display}` prefix length {n} exceeds the maximum of {max} " ++
      "for its address family")
    pure n

/-- The mask of a prefix length. -/
def maskOf (w len : Nat) : BitVec w := if len = 0 then 0 else BitVec.allOnes w <<< (w - len)

/-- An entry's address and prefix length. -/
def parseRange (entry : Str) : Except String (IpAddr × Nat) := do
  let entry := entry.trim
  reject (entry = []) "empty response-IP denylist entry"
  let (addrPart, prefixPart) := match entry.splitOnce '/' with
    | some (a, p) => (a.trim, some p.trim)
    | none => (entry, none)
  let ip ← okOr (parseIpAddr addrPart) s!"`{entry.display}` is not a valid IP address"
  let len ← match ip with
    | .v4 _ => parsePrefix prefixPart 32 entry
    | .v6 _ => parsePrefix prefixPart 128 entry
  pure (ip, len)

/-- The rule stored for an address and a prefix length. -/
def cidrOf (ip : IpAddr) (len : Nat) : Cidr :=
  match ip with
  | .v4 a => .v4 (a &&& maskOf 32 len) (maskOf 32 len)
  | .v6 a =>
    match (if 96 ≤ len then a.toIpv4Mapped else none) with
    | some b => .v4 (b &&& maskOf 32 (len - 96)) (maskOf 32 (len - 96))
    | none => .v6 (a &&& maskOf 128 len) (maskOf 128 len)

/-- mirrors crates/rustydns-core/src/ip_denylist.rs:96-158 -/
def parseEntry (entry : Str) : Except String Cidr := do
  let (ip, len) ← parseRange entry
  pure (cidrOf ip len)

def push (d : IpDenylist) : Cidr → IpDenylist
  | .v4 network mask => { d with v4 := d.v4 ++ [(network, mask)] }
  | .v6 network mask => { d with v6 := d.v6 ++ [(network, mask)] }

/-- mirrors crates/rustydns-core/src/ip_denylist.rs:41-51 -/
def parse (entries : List Str) : Except String IpDenylist :=
  entries.foldlM (fun d entry => (parseEntry entry).map d.push) {}

def hitsV4 (d : IpDenylist) (a : Ipv4Addr) : Bool := d.v4.any fun (net, mask) => a &&& mask == net

def hitsV6 (d : IpDenylist) (a : Ipv6Addr) : Bool := d.v6.any fun (net, mask) => a &&& mask == net

/-- mirrors crates/rustydns-core/src/ip_denylist.rs:58-83 -/
def contains (d : IpDenylist) : IpAddr → Bool
  | .v4 a => d.hitsV4 a
  | .v6 a =>
    d.hitsV6 a ||
      match a.toIpv4Mapped with
      | some b => d.hitsV4 b
      | none => false

def isEmpty (d : IpDenylist) : Bool := d.v4.isEmpty && d.v6.isEmpty

/-! ### What an entry is for -/

/-- The addresses an entry stands for: those of its family that agree with its address on the first
`len` bits. An IPv4-mapped entry that fixes the mapped part is an IPv4 entry too. -/
def inRange : IpAddr × Nat → IpAddr → Bool
  | (.v4 net, len), .v4 a => a >>> (32 - len) == net >>> (32 - len)
  | (.v6 net, len), .v6 a => a >>> (128 - len) == net >>> (128 - len)
  | (.v6 net, len), .v4 a =>
    match (if 96 ≤ len then net.toIpv4Mapped else none) with
    | some b => a >>> (128 - len) == b >>> (128 - len)
    | none => false
  | (.v4 _, _), .v6 _ => false

/-- In the range of an entry of the list. -/
def Denied (entries : List Str) (a : IpAddr) : Prop :=
  ∃ entry ∈ entries, ∃ range, parseRange entry = .ok range ∧ inRange range a = true

theorem getLsbD_maskOf {w len i : Nat} :
    (maskOf w len).getLsbD i = decide (i < w ∧ w - len ≤ i) := by
  unfold maskOf
  split
  · rename_i h
    subst h
    simp
  · rw [BitVec.getLsbD_shiftLeft]
    simp only [BitVec.getLsbD_allOnes]
    grind

theorem and_maskOf_eq_iff {w len : Nat} {x y : BitVec w} :
    x &&& maskOf w len = y &&& maskOf w len ↔ x >>> (w - len) = y >>> (w - len) := by
  constructor
  · intro h
    refine BitVec.eq_of_getLsbD_eq fun i hi => ?_
    have hbit := congrArg (·.getLsbD (w - len + i)) h
    simp only [BitVec.getLsbD_and, getLsbD_maskOf] at hbit
    rw [BitVec.getLsbD_ushiftRight, BitVec.getLsbD_ushiftRight]
    by_cases hlt : w - len + i < w
    · simpa [hlt] using hbit
    · rw [BitVec.getLsbD_of_ge _ _ (by omega), BitVec.getLsbD_of_ge _ _ (by omega)]
  · intro h
    refine BitVec.eq_of_getLsbD_eq fun i hi => ?_
    rw [BitVec.getLsbD_and, BitVec.getLsbD_and, getLsbD_maskOf]
    by_cases hge : w - len ≤ i
    · have hbit := congrArg (·.getLsbD (i - (w - len))) h
      simp only [BitVec.getLsbD_ushiftRight, Nat.add_sub_cancel' hge] at hbit
      rw [hbit]
    · simp [hge]

/-- The list stores this rule. -/
def Has (d : IpDenylist) : Cidr → Prop
  | .v4 network mask => (network, mask) ∈ d.v4
  | .v6 network mask => (network, mask) ∈ d.v6

theorem has_push {d : IpDenylist} {c c' : Cidr} : (d.push c).Has c' ↔ d.Has c' ∨ c' = c := by
  cases c <;> cases c' <;> simp [push, Has]

/-- Every accepted entry is stored. -/
theorem has_of_parse {entries : List Str} :
    ∀ {d₀ d : IpDenylist},
      entries.foldlM (fun d entry => (parseEntry entry).map d.push) d₀ = .ok d →
      (∀ c, d₀.Has c → d.Has c) ∧ ∀ entry ∈ entries, ∃ c, parseEntry entry = .ok c ∧ d.Has c := by
  induction entries with
  | nil =>
    intro d₀ d h
    cases h
    exact ⟨fun _ hc => hc, by simp⟩
  | cons entry entries ih =>
    intro d₀ d h
    rw [List.foldlM_cons, Checks.bind_ok_iff] at h
    obtain ⟨d₁, h₁, h₂⟩ := h
    cases hc : parseEntry entry with
    | error e => simp [hc, Except.map] at h₁
    | ok c =>
      obtain rfl : d₀.push c = d₁ := by simpa [hc, Except.map] using h₁
      obtain ⟨hkeep, hrest⟩ := ih h₂
      refine ⟨fun c' hc' => hkeep c' (has_push.2 (.inl hc')), ?_⟩
      intro e he
      rcases List.mem_cons.1 he with rfl | he
      · exact ⟨c, hc, hkeep c (has_push.2 (.inr rfl))⟩
      · exact hrest e he

theorem hitsV4_of_has {d : IpDenylist} {net a : Ipv4Addr} {len : Nat}
    (h : d.Has (.v4 (net &&& maskOf 32 len) (maskOf 32 len)))
    (hbits : a >>> (32 - len) = net >>> (32 - len)) : d.hitsV4 a = true :=
  List.any_eq_true.2 ⟨_, h, by simpa using and_maskOf_eq_iff.2 hbits⟩

theorem hitsV6_of_has {d : IpDenylist} {net a : Ipv6Addr} {len : Nat}
    (h : d.Has (.v6 (net &&& maskOf 128 len) (maskOf 128 len)))
    (hbits : a >>> (128 - len) = net >>> (128 - len)) : d.hitsV6 a = true :=
  List.any_eq_true.2 ⟨_, h, by simpa using and_maskOf_eq_iff.2 hbits⟩

/-- An address that agrees with an IPv4-mapped one on the first 96 bits and more is IPv4-mapped, and
the IPv4 forms agree on what is left. -/
theorem toIpv4Mapped_of_agree {a net : Ipv6Addr} {b : Ipv4Addr} {k : Nat} (hk : k ≤ 32)
    (h : a >>> k = net >>> k) (hnet : net.toIpv4Mapped = some b) :
    ∃ b', a.toIpv4Mapped = some b' ∧ b' >>> k = b >>> k := by
  unfold Ipv6Addr.toIpv4Mapped at hnet ⊢
  split at hnet
  · rename_i hmapped
    obtain rfl := Option.some.inj hnet
    have hhigh : a >>> 32 = net >>> 32 := by
      rw [← Nat.add_sub_cancel' hk, BitVec.shiftRight_add, BitVec.shiftRight_add, h]
    refine ⟨_, if_pos (hhigh.trans hmapped), BitVec.eq_of_getLsbD_eq fun i hi => ?_⟩
    have hbit := congrArg (·.getLsbD i) h
    simp only [BitVec.getLsbD_ushiftRight] at hbit
    simp only [BitVec.getLsbD_ushiftRight, BitVec.getLsbD_setWidth, hbit]
  · cases hnet

theorem contains_of_has {d : IpDenylist} {ip a : IpAddr} {len : Nat} (h : d.Has (cidrOf ip len))
    (ha : inRange (ip, len) a = true) : d.contains a = true := by
  match ip, a, ha with
  | .v4 net, .v4 a, ha => exact hitsV4_of_has h (by simpa [inRange] using ha)
  | .v6 net, .v6 a, ha =>
    have hbits : a >>> (128 - len) = net >>> (128 - len) := by simpa [inRange] using ha
    simp only [cidrOf] at h
    split at h
    · rename_i b hb
      split at hb
      · rename_i hlen
        obtain ⟨b', hb', hbits'⟩ := toIpv4Mapped_of_agree (by omega) hbits hb
        have hk : 128 - len = 32 - (len - 96) := by omega
        simp only [contains, hb', hitsV4_of_has h (hk ▸ hbits'), Bool.or_true]
      · cases hb
    · simp only [contains, hitsV6_of_has h hbits, Bool.true_or]
  | .v6 net, .v4 a, ha =>
    simp only [inRange] at ha
    simp only [cidrOf] at h
    split at h
    · rename_i b hb
      simp only [hb, beq_iff_eq] at ha
      split at hb
      · rename_i hlen
        have hk : 128 - len = 32 - (len - 96) := by omega
        exact hitsV4_of_has h (hk ▸ ha)
      · cases hb
    · rename_i hb
      simp [hb] at ha

theorem contains_mapped {d : IpDenylist} {a : Ipv6Addr} {b : Ipv4Addr}
    (hb : a.toIpv4Mapped = some b) (h : d.contains (.v4 b) = true) : d.contains (.v6 a) = true := by
  simp only [contains] at h
  simp [contains, hb, h]

theorem contains_of_denied {entries : List Str} {d : IpDenylist} (h : parse entries = .ok d)
    {a : IpAddr} (ha : Denied entries a) : d.contains a = true := by
  obtain ⟨entry, hmem, range, hrange, ha⟩ := ha
  obtain ⟨c, hc, hhas⟩ := (has_of_parse h).2 entry hmem
  rw [parseEntry, hrange] at hc
  obtain rfl : cidrOf range.1 range.2 = c := Except.ok.inj hc
  exact contains_of_has hhas ha

end IpDenylist

/-! ## Regex rules -/

/-- The regex crate: `RegexSetBuilder::build`, giving the matcher or the error's text. -/
abbrev RegexBuild := List Str → Except String (Str → Bool)

/-- mirrors crates/rustydns-core/src/regex_rules.rs:24-26 -/
structure RegexRules where
  set : Option (Str → Bool) := none

namespace RegexRules

def maxRegexPatternLen : Nat := 512

def maxRegexRules : Nat := 1000

/-- mirrors crates/rustydns-core/src/regex_rules.rs:34-64 -/
def compile (build : RegexBuild) (patterns : List Str) : Except String RegexRules :=
  if patterns = [] then .ok {}
  else do
    reject (maxRegexRules < patterns.length)
      s!"{patterns.length} regex rules exceeds the maximum of {maxRegexRules}"
    Checks.forEach patterns.zipIdx fun (p, i) =>
      reject (maxRegexPatternLen < p.byteLen) (s!"regex rule {i} is {p.byteLen} bytes, " ++
        s!"exceeding the maximum of {maxRegexPatternLen}")
    let set ← (build patterns).mapError fun e => s!"invalid regex rule: {e}"
    pure { set := some set }

/-- mirrors crates/rustydns-core/src/regex_rules.rs:68-73 -/
def isMatch (r : RegexRules) (qnameLc : Str) : Bool :=
  match r.set with
  | some set => set qnameLc
  | none => false

end RegexRules

end RustyDns.L1
