import RustyDns.Lib.Text

/-!
# IP and socket addresses

The `std::net` address types and their text parser (`core::net::parser`). The parser reads from the
front of a string and hands back what is left; a reader that fails consumes nothing, and a
`FromStr` implementation succeeds only when everything was consumed.
-/

namespace RustyDns.Lib

/-- `Ipv4Addr`, as the big-endian `u32` it converts to. -/
abbrev Ipv4Addr := BitVec 32

/-- `Ipv6Addr`, as the big-endian `u128` it converts to. -/
abbrev Ipv6Addr := BitVec 128

namespace Ipv4Addr

/-- `Ipv4Addr::new(a, b, c, d)`. -/
def ofOctets (a b c d : Nat) : Ipv4Addr := BitVec.ofNat 32 (((a * 256 + b) * 256 + c) * 256 + d)

/-- `Ipv4Addr::octets`, as the octet `i` places from the right. -/
def octet (a : Ipv4Addr) (i : Nat) : Nat := a.toNat / 256 ^ i % 256

/-- `Ipv4Addr::is_loopback`: 127.0.0.0/8. -/
def isLoopback (a : Ipv4Addr) : Bool := a >>> 24 == 127#32

/-- `Display` of an `Ipv4Addr`; `Debug` is the same. -/
def display (a : Ipv4Addr) : Str :=
  Nat.toDigits 10 (a.octet 3) ++ '.' :: Nat.toDigits 10 (a.octet 2) ++
    '.' :: Nat.toDigits 10 (a.octet 1) ++ '.' :: Nat.toDigits 10 (a.octet 0)

/-- `Ipv4Addr::to_ipv6_mapped`: the address under `::ffff:0:0/96`. -/
def toIpv6Mapped (a : Ipv4Addr) : Ipv6Addr := 0xffff#96 ++ a

end Ipv4Addr

namespace Ipv6Addr

/-- `Ipv6Addr::from([u16; 8])`. -/
def ofSegments (segments : List Nat) : Ipv6Addr :=
  BitVec.ofNat 128 (segments.foldl (fun acc seg => acc * 65536 + seg) 0)

/-- `Ipv6Addr::segments`. -/
def segments (a : Ipv6Addr) : List Nat :=
  (List.range 8).map fun i => a.toNat / 65536 ^ (7 - i) % 65536

/-- `Ipv6Addr::to_ipv4_mapped`: the address under `::ffff:0:0/96`. -/
def toIpv4Mapped (a : Ipv6Addr) : Option Ipv4Addr :=
  if a >>> 32 = 0xffff#128 then some (a.setWidth 32) else none

/-- A run of segments: where it starts and how long it is. -/
structure Span where
  start : Nat := 0
  len : Nat := 0
  deriving DecidableEq, Repr

/-- The loop that finds the first longest run of zero segments. -/
def longestZeros (longest current : Span) : List (Nat × Nat) → Span
  | [] => longest
  | (segment, i) :: rest =>
    if segment = 0 then
      let current : Span := { start := if current.len = 0 then i else current.start
                              len := current.len + 1 }
      longestZeros (if longest.len < current.len then current else longest) current rest
    else longestZeros longest {} rest

/-- `fmt_subslice`: segments in hexadecimal, colons between them. -/
def fmtSubslice (segments : List Nat) : Str :=
  [':'].intercalate (segments.map (Nat.toDigits 16))

/-- `Display` of an `Ipv6Addr`; `Debug` is the same. -/
def display (a : Ipv6Addr) : Str :=
  match a.toIpv4Mapped with
  | some b => "::ffff:".toList ++ b.display
  | none =>
    let zeros := longestZeros {} {} a.segments.zipIdx
    if 1 < zeros.len then
      fmtSubslice (a.segments.take zeros.start) ++ "::".toList ++
        fmtSubslice (a.segments.drop (zeros.start + zeros.len))
    else fmtSubslice a.segments

end Ipv6Addr

/-- `IpAddr`. -/
inductive IpAddr where
  | v4 (a : Ipv4Addr)
  | v6 (a : Ipv6Addr)
  deriving DecidableEq, Repr

namespace IpAddr

/-- `IpAddr::is_loopback`. -/
def isLoopback : IpAddr → Bool
  | .v4 a => a.isLoopback
  | .v6 a => a == 1#128

end IpAddr

/-- `SocketAddr`. The scope id is 0 for IPv4 and for `SocketAddr::new`. -/
structure SocketAddr where
  ip : IpAddr
  port : UInt16
  scopeId : UInt32 := 0
  deriving DecidableEq, Repr

/-- `Display` of a `SocketAddr`. -/
def SocketAddr.display (a : SocketAddr) : String :=
  let ip := match a.ip with
    | .v4 v4 => v4.display
    | .v6 v6 =>
      if a.scopeId = 0 then '[' :: v6.display ++ [']']
      else '[' :: v6.display ++ '%' :: Nat.toDigits 10 a.scopeId.toNat ++ [']']
  s!"{String.ofList ip}:{a.port}"

/-! ## The text parser -/

namespace NetParser

/-- The leading digits of `s` in `radix`, with the rest. -/
def spanDigits (radix : Nat) : Str → List Nat × Str
  | [] => ([], [])
  | c :: cs =>
    match Str.toDigit radix c with
    | some d => let (ds, rest) := spanDigits radix cs; (d :: ds, rest)
    | none => ([], c :: cs)

/-- `read_number`: the longest run of digits, at most `maxDigits` of them if that is given. -/
def readNumber (radix : Nat) (maxDigits : Option Nat) (allowZeroPrefix : Bool) (bound : Nat)
    (s : Str) : Option (Nat × Str) :=
  let (ds, rest) := spanDigits radix s
  let value := ds.foldl (fun acc d => acc * radix + d) 0
  if ds.length = 0 then none
  else if maxDigits.any (· < ds.length) then none
  else if !allowZeroPrefix && s.head? == some '0' && decide (1 < ds.length) then none
  else if value < bound then some (value, rest) else none

/-- `read_given_char`. -/
def readGivenChar (c : Char) : Str → Option Str
  | [] => none
  | x :: xs => if x = c then some xs else none

/-- `read_separator`: the first item of a sequence has no separator before it. -/
def readSeparator {α : Type} (sep : Char) (first : Bool) (inner : Str → Option (α × Str))
    (s : Str) : Option (α × Str) :=
  if first then inner s else (readGivenChar sep s).bind inner

def readOctet : Str → Option (Nat × Str) := readNumber 10 (some 3) false 256

/-- `read_ipv4_addr`. -/
def readIpv4Addr (s : Str) : Option (Ipv4Addr × Str) := do
  let (a, s) ← readSeparator '.' true readOctet s
  let (b, s) ← readSeparator '.' false readOctet s
  let (c, s) ← readSeparator '.' false readOctet s
  let (d, s) ← readSeparator '.' false readOctet s
  pure (Ipv4Addr.ofOctets a b c d, s)

/-- `read_groups`: up to `left` groups, whether they end in an embedded IPv4 address, the rest. -/
def readGroups : Nat → Bool → Str → List Nat × Bool × Str
  | 0, _, s => ([], false, s)
  | left + 1, first, s =>
    -- an embedded IPv4 address takes two groups
    match (if 1 ≤ left then readSeparator ':' first readIpv4Addr s else none) with
    | some (v4, rest) => ([v4.toNat / 65536, v4.toNat % 65536], true, rest)
    | none =>
      match readSeparator ':' first (readNumber 16 (some 4) true 65536) s with
      | some (g, rest) =>
        let (gs, v4, rest) := readGroups left false rest
        (g :: gs, v4, rest)
      | none => ([], false, s)

/-- `read_ipv6_addr`. -/
def readIpv6Addr (s : Str) : Option (Ipv6Addr × Str) :=
  let (head, headV4, s) := readGroups 8 true s
  if head.length = 8 then some (Ipv6Addr.ofSegments head, s)
  else if headV4 then none
  else do
    let s ← readGivenChar ':' s
    let s ← readGivenChar ':' s
    let (tail, _, s) := readGroups (8 - (head.length + 1)) true s
    let zeros := List.replicate (8 - head.length - tail.length) 0
    pure (Ipv6Addr.ofSegments (head ++ zeros ++ tail), s)

/-- `read_ip_addr`. -/
def readIpAddr (s : Str) : Option (IpAddr × Str) :=
  match readIpv4Addr s with
  | some (a, s) => some (.v4 a, s)
  | none => (readIpv6Addr s).map fun (a, s) => (.v6 a, s)

/-- `read_port`. -/
def readPort (s : Str) : Option (Nat × Str) :=
  (readGivenChar ':' s).bind (readNumber 10 none true 65536)

/-- `read_scope_id`. -/
def readScopeId (s : Str) : Option (Nat × Str) :=
  (readGivenChar '%' s).bind (readNumber 10 none true 4294967296)

/-- `read_socket_addr_v4`. -/
def readSocketAddrV4 (s : Str) : Option (SocketAddr × Str) := do
  let (ip, s) ← readIpv4Addr s
  let (port, s) ← readPort s
  pure ({ ip := .v4 ip, port := UInt16.ofNat port }, s)

/-- `read_socket_addr_v6`. -/
def readSocketAddrV6 (s : Str) : Option (SocketAddr × Str) := do
  let s ← readGivenChar '[' s
  let (ip, s) ← readIpv6Addr s
  let (scope, s) := (readScopeId s).getD (0, s)
  let s ← readGivenChar ']' s
  let (port, s) ← readPort s
  pure ({ ip := .v6 ip, port := UInt16.ofNat port, scopeId := UInt32.ofNat scope }, s)

/-- `parse_with`: everything must be consumed. -/
def parseWith {α : Type} (inner : Str → Option (α × Str)) (s : Str) : Option α :=
  match inner s with
  | some (a, []) => some a
  | _ => none

end NetParser

/-- `Ipv4Addr::from_str`. -/
def parseIpv4Addr (s : Str) : Option Ipv4Addr :=
  if 15 < s.byteLen then none else NetParser.parseWith NetParser.readIpv4Addr s

/-- `Ipv6Addr::from_str`. -/
def parseIpv6Addr (s : Str) : Option Ipv6Addr := NetParser.parseWith NetParser.readIpv6Addr s

/-- `IpAddr::from_str`. -/
def parseIpAddr (s : Str) : Option IpAddr := NetParser.parseWith NetParser.readIpAddr s

/-- `SocketAddr::from_str`. -/
def parseSocketAddr (s : Str) : Option SocketAddr :=
  NetParser.parseWith
    (fun s => NetParser.readSocketAddrV4 s <|> NetParser.readSocketAddrV6 s) s

end RustyDns.Lib
