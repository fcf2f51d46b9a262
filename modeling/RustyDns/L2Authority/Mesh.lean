import RustyDns.Lib.Checks
import RustyDns.L1Core.Schedule

/-!
# The signed mesh-zone bundle

`rustydns-authority/src/mesh.rs`: reading a bundle file, checking its signature against the
configured verifier key, parsing its `key=value` payload and checking its freshness.

The file system and the clock are inputs (`MeshFiles`: what one load reads). The ed25519 crate is a
parameter (`Ed25519`): which bytes are a key, and which signatures verify. Nothing is assumed of
either.

Results:
* `loadMeshBundle_cases`: a load that succeeds passed every stage, in the source's order.
* `enforceFreshnessAt_ok_iff`: the freshness check as a condition on the clock.
-/

namespace RustyDns.L2.Mesh

open RustyDns.Lib RustyDns.L1
open RustyDns.Lib.Checks (reject okOr forEach)

/-- `MAX_BUNDLE_BYTES`: 256 KiB. -/
def maxBundleBytes : Nat := 256 * 1024

/-- `MAX_BUNDLE_RECORDS`. -/
def maxBundleRecords : Nat := 100000

/-- mirrors crates/rustydns-authority/src/mesh.rs:71-144 -/
inductive MeshBundleError where
  | io (msg : String)
  | tooLarge
  | missingField (name : String)
  | invalidField (field reason : String)
  | invalidVerifierKey (msg : String)
  | missingSignature
  | signatureMismatch
  | stale (reason : String)
  | rollback (candidateGeneratedAt candidateNonce currentGeneratedAt currentNonce : Nat)
  | zoneMismatch (bundle configured : String)
  deriving DecidableEq, Repr

/-- mirrors crates/rustydns-authority/src/mesh.rs:148-162 -/
structure LoadedBundle where
  records : List DnsRecord
  generatedAtUnix : Nat
  expiresAtUnix : Nat
  nonce : Nat
  deriving DecidableEq, Repr

/-- The ed25519 crate: `VerifyingKey::from_bytes` (with its error text) and `verify_strict`. -/
structure Ed25519 where
  fromBytes : List UInt8 → Except String Unit
  verifyStrict : List UInt8 → List UInt8 → List UInt8 → Bool

/-- What one load reads: the key file's text, the bundle file's bytes (each `error` if the read
fails) and the wall clock at the freshness check. -/
structure MeshFiles where
  keyFile : Except String Str
  bundleFile : Except String (List UInt8)
  now : Nat

/-- No key verifies, and there are no bundle files. -/
def noKeys : Ed25519 where
  fromBytes _ := .error ""
  verifyStrict _ _ _ := false

def noFiles : MeshFiles where
  keyFile := .error ""
  bundleFile := .error ""
  now := 0

/-- Every key is accepted and every signature verifies. -/
def sampleEd25519 : Ed25519 where
  fromBytes := fun _ => .ok ()
  verifyStrict := fun _ _ _ => true

/-! ## Hex -/

/-- mirrors crates/rustydns-authority/src/mesh.rs:587-594 -/
def nibble (b : UInt8) : Except String UInt8 :=
  if 48 ≤ b ∧ b ≤ 57 then .ok (b - 48)
  else if 97 ≤ b ∧ b ≤ 102 then .ok (b - 97 + 10)
  else if 65 ≤ b ∧ b ≤ 70 then .ok (b - 65 + 10)
  else .error "invalid hex digit"

/-- The loop of `decode_hex_fixed`, two digits a byte. -/
def hexPairs : List UInt8 → Except String (List UInt8)
  | h :: l :: rest => do
    let hi ← nibble h
    let lo ← nibble l
    let out ← hexPairs rest
    pure ((hi <<< 4 ||| lo) :: out)
  | _ => pure []

/-- mirrors crates/rustydns-authority/src/mesh.rs:572-585 -/
def decodeHexFixed (n : Nat) (s : Str) : Except String (List UInt8) :=
  let bytes := s.trim.asBytes
  if bytes.length ≠ n * 2 then .error "hex length mismatch" else hexPairs bytes

/-! ## Files and signature -/

/-- mirrors crates/rustydns-authority/src/mesh.rs:198-211 -/
def readVerifierKey (E : Ed25519) (file : Except String Str) :
    Except MeshBundleError (List UInt8) := do
  let contents ← file.mapError .io
  let line ← okOr ((contents.lines.map Str.trim).find? (· ≠ []))
    (.invalidVerifierKey "verifier key file is empty")
  let bytes ← (decodeHexFixed 32 line).mapError
    fun e => .invalidVerifierKey s!"hex decode failed: {e}"
  (E.fromBytes bytes).mapError
    fun e => .invalidVerifierKey s!"not a valid ed25519 key: {e}"
  pure bytes

/-- mirrors crates/rustydns-authority/src/mesh.rs:213-228 -/
def readBundleFile (file : Except String (List UInt8)) : Except MeshBundleError (List UInt8) := do
  let contents ← file.mapError .io
  -- the reader is capped one byte past the limit
  let buf := contents.take (maxBundleBytes + 1)
  reject (maxBundleBytes < buf.length) .tooLarge
  pure buf

/-- `\nsignature=`. -/
def signatureNeedle : List UInt8 := Str.asBytes "\nsignature=".toList

/-- `raw.windows(n).rposition(|w| w == needle)`: where the last occurrence starts. -/
def rposition (needle : List UInt8) : List UInt8 → Option Nat
  | [] => none
  | b :: bs =>
    match rposition needle bs with
    | some p => some (p + 1)
    | none => if needle.isPrefixOf (b :: bs) then some 0 else none

/-- mirrors crates/rustydns-authority/src/mesh.rs:241-258 -/
def splitPayloadAndSignature (raw : List UInt8) : Except MeshBundleError (List UInt8 × Str) := do
  let pos ← okOr (rposition signatureNeedle raw) .missingSignature
  let sig ← okOr (Str.fromUtf8 (raw.drop (pos + signatureNeedle.length))) .missingSignature
  let sig := (sig.trimEndMatches '\n').trim
  reject (sig = []) .missingSignature
  pure (raw.take (pos + 1), sig)

/-- mirrors crates/rustydns-authority/src/mesh.rs:260-263 -/
def parseSignature (hex : Str) : Except MeshBundleError (List UInt8) :=
  (decodeHexFixed 64 hex).mapError fun _ => .missingSignature

/-! ## Payload -/

/-- The parsed fields (`BTreeMap<String, String>`). -/
abbrev Fields := AList (fun _ : Str => Str)

/-- One line of `parse_fields`. -/
def parseFieldLine (map : Fields) (line : Str) : Except MeshBundleError Fields :=
  if line = [] then .ok map
  else match line.splitOnce '=' with
    | none => .error (.invalidField line.display "line is not `key=value`")
    | some (k, v) =>
      if k.trim ∈ map then .error (.invalidField k.trim.display "duplicate field in bundle")
      else .ok (map.insert k.trim v.trim)

/-- mirrors crates/rustydns-authority/src/mesh.rs:270-300 -/
def parseFields (payload : List UInt8) : Except MeshBundleError Fields :=
  match Str.fromUtf8 payload with
  | none => .error (.invalidField "<payload>" "payload is not valid UTF-8")
  | some text => text.lines.foldlM parseFieldLine ∅

/-- mirrors crates/rustydns-authority/src/mesh.rs:472-480 -/
def require (fields : Fields) (name : Str) : Except MeshBundleError Str :=
  okOr (fields.lookup name) (.missingField name.display)

/-- The key `record.{index}.{name}`. -/
def recordKey (index : Nat) (name : Str) : Str :=
  "record.".toList ++ Nat.toDigits 10 index ++ '.' :: name

/-- mirrors crates/rustydns-authority/src/mesh.rs:482-495 -/
def requiredIndexed (fields : Fields) (index : Nat) (name : Str) : Except MeshBundleError Str :=
  okOr (fields.lookup (recordKey index name))
    (.invalidField (recordKey index name).display "missing required record field")

/-- mirrors crates/rustydns-authority/src/mesh.rs:497-507 and :537-547 -/
def parseNumberField (typeName : String) (fields : Fields) (name : Str) :
    Except MeshBundleError Nat := do
  let v ← require fields name
  okOr (v.parseUnsigned (2 ^ 64)) (.invalidField name.display s!"not a {typeName}")

def parseU64 := parseNumberField "u64"

def parseUsize := parseNumberField "usize"

/-- mirrors crates/rustydns-authority/src/mesh.rs:517-535 -/
def validateSingleLabel (value : Str) (field : Str) : Except MeshBundleError Unit := do
  let invalid (reason : String) := MeshBundleError.invalidField field.display reason
  reject (value = []) (invalid "label is empty")
  reject (63 < value.byteLen) (invalid s!"label is {value.byteLen} bytes (max 63)")
  reject (value.isAscii = false) (invalid "label is not ASCII")
  reject ('.' ∈ value) (invalid s!"label `{value.display}` contains a dot")

/-- mirrors crates/rustydns-authority/src/mesh.rs:551-558 -/
def normaliseZone (value : Str) : Str :=
  let s := (value.trim.trimEndMatches '.').toAsciiLowercase
  if s.endsWith ['.'] then s else s ++ ['.']

/-- mirrors crates/rustydns-authority/src/mesh.rs:562-570 -/
def meshZoneDotted (meshZone : Str) : Str :=
  if meshZone = [] then ['.']
  else if meshZone.startsWith ['.'] then meshZone
  else '.' :: meshZone

/-- The names a record stands under: its label, then each alias that is not blank. -/
def recordNames (index : Nat) (label aliases : Str) : Except MeshBundleError (List Str) := do
  let aliases := ((aliases.splitBy (· == ',')).map Str.trim).filter (· ≠ [])
  forEach aliases fun a => validateSingleLabel a (recordKey index "aliases".toList)
  pure (label :: aliases)

/-- mirrors crates/rustydns-authority/src/mesh.rs:359-417 -/
def buildRecord (T : UnicodeTables) (fields : Fields) (index : Nat) (meshZone : Str) :
    Except MeshBundleError (List DnsRecord) := do
  let label ← requiredIndexed fields index "label".toList
  validateSingleLabel label (recordKey index "label".toList)
  let rrType ← requiredIndexed fields index "rr_type".toList
  let targetAddrKind ← requiredIndexed fields index "target_addr_kind".toList
  let expectedIp ← requiredIndexed fields index "expected_ip".toList
  let ttlSecsStr ← requiredIndexed fields index "ttl_secs".toList
  let targetNodeId ← requiredIndexed fields index "target_node_id".toList
  let aliases := (fields.lookup (recordKey index "aliases".toList)).getD []
  reject (rrType ≠ "A".toList) (.invalidField (recordKey index "rr_type".toList).display
    s!"only `A` is supported (got `{rrType.display}`)")
  reject (targetAddrKind ≠ "mesh_ipv4".toList)
    (.invalidField (recordKey index "target_addr_kind".toList).display
      s!"only `mesh_ipv4` is supported (got `{targetAddrKind.display}`)")
  let ip ← okOr (parseIpv4Addr expectedIp)
    (.invalidField (recordKey index "expected_ip".toList).display
      "not a valid IPv4 address: invalid IPv4 address syntax")
  let ttl ← okOr (ttlSecsStr.parseUnsigned (2 ^ 64))
    (.invalidField (recordKey index "ttl_secs".toList).display
      s!"not a u64: `{ttlSecsStr.display}`")
  let names ← recordNames index label aliases
  pure (names.map fun n =>
    (DnsRecord.new T (n ++ meshZoneDotted meshZone) (.a ip) ttl).withMeshNode targetNodeId)

/-- mirrors crates/rustydns-authority/src/mesh.rs:302-357 -/
def buildLoadedBundle (T : UnicodeTables) (fields : Fields) (meshZone : Str) :
    Except MeshBundleError LoadedBundle := do
  let version ← require fields "version".toList
  reject (version ≠ "1".toList)
    (.invalidField "version" s!"unsupported bundle version `{version.display}`")
  let zoneName ← require fields "zone_name".toList
  reject (normaliseZone zoneName ≠ meshZone) (.zoneMismatch zoneName.display meshZone.display)
  let generatedAtUnix ← parseU64 fields "generated_at_unix".toList
  let expiresAtUnix ← parseU64 fields "expires_at_unix".toList
  reject (expiresAtUnix ≤ generatedAtUnix) (.invalidField "expires_at_unix"
    "expires_at_unix must be greater than generated_at_unix")
  let nonce ← parseU64 fields "nonce".toList
  let recordCount ← parseUsize fields "record_count".toList
  reject (maxBundleRecords < recordCount) (.invalidField "record_count"
    s!"record_count {recordCount} exceeds the maximum of {maxBundleRecords}")
  let records ← (List.range recordCount).mapM fun i => buildRecord T fields i meshZone
  pure { records := records.flatten, generatedAtUnix, expiresAtUnix, nonce }

/-! ## Freshness -/

/-- `u64::saturating_add`. -/
def saturatingAdd (a b : Nat) : Nat := min (a + b) (2 ^ 64 - 1)

/-- mirrors crates/rustydns-authority/src/mesh.rs:433-466 -/
def enforceFreshnessAt (bundle : LoadedBundle) (maxAgeSecs now : Nat) :
    Except MeshBundleError Unit := do
  reject (now < BlockSchedule.minTrustedUnixSecs)
    (.stale (s!"system clock reads unix={now}, before the plausibility floor " ++
      s!"({BlockSchedule.minTrustedUnixSecs}); refusing to evaluate bundle freshness with an " ++
      "untrusted clock. Fix the system time and reload."))
  reject (bundle.expiresAtUnix ≤ now)
    (.stale s!"expires_at_unix={bundle.expiresAtUnix} is in the past (now={now})")
  reject (0 < maxAgeSecs ∧ saturatingAdd bundle.generatedAtUnix maxAgeSecs < now)
    (.stale (s!"generated_at_unix={bundle.generatedAtUnix} is older than " ++
      s!"mesh_zone_max_age_secs={maxAgeSecs} (now={now})"))

/-- The clock readings at which a bundle counts as fresh. -/
structure Fresh (bundle : LoadedBundle) (maxAgeSecs now : Nat) : Prop where
  trusted : BlockSchedule.minTrustedUnixSecs ≤ now
  unexpired : now < bundle.expiresAtUnix
  young : maxAgeSecs = 0 ∨ now ≤ saturatingAdd bundle.generatedAtUnix maxAgeSecs

theorem enforceFreshnessAt_ok_iff {bundle : LoadedBundle} {maxAgeSecs now : Nat} :
    enforceFreshnessAt bundle maxAgeSecs now = .ok () ↔ Fresh bundle maxAgeSecs now := by
  simp only [enforceFreshnessAt, Checks.seq_ok_iff, Checks.reject_ok_iff]
  constructor
  · rintro ⟨h1, h2, h3⟩
    exact ⟨by omega, by omega, by omega⟩
  · rintro ⟨h1, h2, h3⟩
    exact ⟨by omega, by omega, by omega⟩

/-! ## Loading -/

/-- mirrors crates/rustydns-authority/src/mesh.rs:170-192 -/
def loadMeshBundle (E : Ed25519) (T : UnicodeTables) (files : MeshFiles) (meshZone : Str)
    (maxAgeSecs : Nat) : Except MeshBundleError LoadedBundle := do
  let key ← readVerifierKey E files.keyFile
  let raw ← readBundleFile files.bundleFile
  let (payload, signatureHex) ← splitPayloadAndSignature raw
  let signature ← parseSignature signatureHex
  reject (E.verifyStrict key payload signature = false) .signatureMismatch
  let fields ← parseFields payload
  let bundle ← buildLoadedBundle T fields meshZone
  enforceFreshnessAt bundle maxAgeSecs files.now
  pure bundle

/-- Everything a successful load went through. -/
structure LoadPassed (E : Ed25519) (T : UnicodeTables) (files : MeshFiles) (meshZone : Str)
    (maxAgeSecs : Nat) (bundle : LoadedBundle) : Prop where
  /-- The payload's signature was verified under the configured key. -/
  signed : ∃ key raw payload hex signature fields,
    readVerifierKey E files.keyFile = .ok key ∧ readBundleFile files.bundleFile = .ok raw ∧
    splitPayloadAndSignature raw = .ok (payload, hex) ∧ parseSignature hex = .ok signature ∧
    E.verifyStrict key payload signature = true ∧
    parseFields payload = .ok fields ∧ buildLoadedBundle T fields meshZone = .ok bundle
  fresh : Fresh bundle maxAgeSecs files.now

theorem loadMeshBundle_cases {E : Ed25519} {T : UnicodeTables} {files : MeshFiles} {zone : Str}
    {maxAge : Nat} {bundle : LoadedBundle}
    (h : loadMeshBundle E T files zone maxAge = .ok bundle) :
    LoadPassed E T files zone maxAge bundle := by
  simp only [loadMeshBundle, Checks.bind_ok_iff, Checks.reject_ok_iff, Checks.pure_ok_iff] at h
  obtain ⟨key, hkey, raw, hraw, ⟨payload, hex⟩, hsplit, sig, hsig, ⟨⟩, hverify, fields, hfields,
    b, hb, ⟨⟩, hfresh, rfl⟩ := h
  refine ⟨⟨key, raw, payload, hex, sig, fields, hkey, hraw, hsplit, hsig, ?_, hfields, hb⟩, ?_⟩
  · simpa using hverify
  · exact enforceFreshnessAt_ok_iff.1 hfresh

end RustyDns.L2.Mesh
