import RustyDns.Lib.Net
import RustyDns.Lib.Unicode

/-!
# Blocklist parsers

`rustydns-blocklist/src/parser.rs`: format detection on the first significant line, then one of
four line-by-line parsers. Each parser is `content.lines` followed by its own line function, so the
entries of a content are the entries of its lines in order. Counting of skipped lines only feeds
log output and is left out.
-/

namespace RustyDns.L2.Blocklist

open RustyDns.Lib

def maxLineBytes : Nat := 512

def maxDomainBytes : Nat := 253

def maxLabelBytes : Nat := 63

/-- mirrors crates/rustydns-blocklist/src/parser.rs:46-58 -/
inductive ParsedEntry where
  | exact (d : Str)
  | wildcardParent (d : Str)
  | allow (d : Str)
  deriving DecidableEq, Repr

inductive ListFormat where
  | hosts
  | plain
  | rpz
  | adGuard
  deriving DecidableEq, Repr

/-! ## Domain validation -/

/-- mirrors crates/rustydns-blocklist/src/parser.rs:305-346 -/
def validateAndNormalize (s : Str) : Option Str :=
  let s := s.trim.trimEndMatches '.'
  if s = [] then none
  else if s.any fun c => Str.isAsciiControl c || !Str.isAsciiChar c then none
  else
    let lower := s.toAsciiLowercase
    if maxDomainBytes < lower.byteLen then none
    else if (lower.splitBy (· == '.')).any fun l => maxLabelBytes < l.byteLen || l = [] then none
    else some lower

/-- `validate_allow_entry` and `validate_block_entry`: the domain rules and at least two labels.
mirrors crates/rustydns-blocklist/src/parser.rs:366-395 -/
def validateMultiLabel (s : Str) : Option Str :=
  (validateAndNormalize s).bind fun d => if '.' ∈ d then some d else none

def validateAllowEntry : Str → Option Str := validateMultiLabel

def validateBlockEntry : Str → Option Str := validateMultiLabel

/-- mirrors crates/rustydns-blocklist/src/parser.rs:352-358 -/
def stripComment (line : Str) (marker : Char) : Str := line.takeWhile (· ≠ marker)

def isIpAddress (s : Str) : Bool := (parseIpv4Addr s).isSome || (parseIpv6Addr s).isSome

/-- mirrors crates/rustydns-blocklist/src/parser.rs:408-422 -/
def isAlwaysSkipped (domain : Str) : Bool :=
  domain ∈ ["localhost".toList, "broadcasthost".toList, "local".toList, "ip6-localhost".toList,
    "ip6-loopback".toList, "ip6-localnet".toList, "ip6-mcastprefix".toList,
    "ip6-allnodes".toList, "ip6-allrouters".toList, "ip6-allhosts".toList]

/-- A domain that may become a block entry. -/
def blockable (s : Str) : Option Str :=
  (validateBlockEntry s).filter fun d => !isAlwaysSkipped d

/-! ## Line parsers -/

/-- mirrors crates/rustydns-blocklist/src/parser.rs:121-145 -/
def hostsLine (line : Str) : List ParsedEntry :=
  if maxLineBytes < line.byteLen then []
  else
    match (stripComment line '#').trim.splitWhitespace with
    | ip :: domains => if isIpAddress ip then (domains.filterMap blockable).map .exact else []
    | [] => []

/-- mirrors crates/rustydns-blocklist/src/parser.rs:164-181 -/
def plainLine (line : Str) : List ParsedEntry :=
  if maxLineBytes < line.byteLen then []
  else
    let line := (stripComment (stripComment line '#') ';').trim
    if line = [] ∨ ' ' ∈ line ∨ '\t' ∈ line then []
    else (blockable line).toList.map .exact

/-- mirrors crates/rustydns-blocklist/src/parser.rs:199-237 -/
def rpzLine (T : UnicodeTables) (line : Str) : List ParsedEntry :=
  if maxLineBytes < line.byteLen then []
  else
    match (stripComment (stripComment line ';') '#').trim.splitWhitespace with
    | name :: rtype :: rdata :: _ =>
      let rdata := rdata.toLowercase T
      if rtype.toAsciiUppercase ≠ "CNAME".toList then []
      else if rdata = "rpz-passthru.".toList ∨ rdata = "rpz-passthru".toList then
        (validateAllowEntry name).toList.map .allow
      else if rdata = ".".toList then
        match name.stripStart "*.".toList with
        | some parent => (validateBlockEntry parent).toList.map .wildcardParent
        | none => (blockable name).toList.map .exact
      else []
    | _ => []

/-- mirrors crates/rustydns-blocklist/src/parser.rs:249-289 -/
def adguardLine (line : Str) : List ParsedEntry :=
  if maxLineBytes < line.byteLen then []
  else
    let line := line.trim
    if line = [] ∨ line.startsWith ['!'] ∨ line.startsWith ['['] then []
    else
      match line.stripStart "@@||".toList with
      | some rest =>
        match rest.splitOnce '^' with
        | some (domain, _) =>
          if '/' ∈ domain then [] else (validateAllowEntry domain).toList.map .allow
        | none => []
      | none =>
        match (line.stripStart "||".toList).bind (Str.splitOnce '^') with
        | some (domain, _) =>
          if '/' ∈ domain then []
          else (blockable domain).toList.flatMap fun d => [.exact d, .wildcardParent d]
        | none => []

/-! ## Format detection -/

/-- Comments and headers that `detect_format` passes over. -/
def insignificant (line : Str) : Bool :=
  line = [] || line.startsWith ['#'] || line.startsWith [';'] || line.startsWith ['!'] ||
    line.startsWith ['[']

/-- What the first significant line says. -/
def formatOfLine (line : Str) : ListFormat :=
  if (line.startsWith "||".toList || line.startsWith "@@||".toList) && '^' ∈ line then .adGuard
  else
    let parts := line.splitWhitespace
    let types := ["CNAME".toList, "A".toList, "AAAA".toList, "TXT".toList, "SOA".toList,
      "NS".toList]
    if 3 ≤ parts.length && (parts[1]?.any fun typ => typ.toAsciiUppercase ∈ types) then .rpz
    else if 2 ≤ parts.length && (parts[0]?.any isIpAddress) then .hosts
    else .plain

/-- mirrors crates/rustydns-blocklist/src/parser.rs:74-101 -/
def detectFormat (content : Str) : ListFormat :=
  match (content.lines.map Str.trim).find? fun line => !insignificant line with
  | some line => formatOfLine line
  | none => .plain

def parseHosts (content : Str) : List ParsedEntry := content.lines.flatMap hostsLine

def parsePlain (content : Str) : List ParsedEntry := content.lines.flatMap plainLine

def parseRpz (T : UnicodeTables) (content : Str) : List ParsedEntry :=
  content.lines.flatMap (rpzLine T)

def parseAdguard (content : Str) : List ParsedEntry := content.lines.flatMap adguardLine

/-- mirrors crates/rustydns-blocklist/src/parser.rs:104-111 -/
def parse (T : UnicodeTables) (content : Str) : List ParsedEntry :=
  match detectFormat content with
  | .hosts => parseHosts content
  | .plain => parsePlain content
  | .rpz => parseRpz T content
  | .adGuard => parseAdguard content

end RustyDns.L2.Blocklist
