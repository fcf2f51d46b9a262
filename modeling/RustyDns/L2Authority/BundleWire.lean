import RustyDns.L2Authority.Mesh
import RustyDns.Lib.Quoted
import RustyDns.Lib.Written

/-!
# The bundle wire format, written and read back

The signer writes a bundle as `key=value` lines, then `signature=`, 128 hex digits and a line feed
(`build_signed_bundle` in the tests of `mesh.rs` is such a writer). The reader looks for the last
`\nsignature=` in the raw bytes, puts the lines into a map and rebuilds the records in order from
keys that hold decimal indexes.

Results:
* `split_wire`, `parseSignature_hexText`: the reader cuts at the real signature line and decodes it.
* `parseFields_payload`: the map holds every written field.
* `buildRecord_fields`: the fields of record `i` give back its label and aliases.
* `bundle_round_trip`: the whole trip.
-/

namespace RustyDns.L2.Mesh

open RustyDns.Lib RustyDns.Lib.Labels RustyDns.L1

/-! ## The writer -/

/-- `format!("{b:02x}")`. -/
def hexByte (b : UInt8) : Str := [Nat.digitChar (b.toNat / 16), Nat.digitChar (b.toNat % 16)]

def hexText (bytes : List UInt8) : Str := bytes.flatMap hexByte

/-- One record, as its signer has it. -/
structure WireRecord where
  label : Str
  nodeId : Str
  ip : Ipv4Addr
  ttlSecs : Nat
  aliases : List Str

structure WireBundle where
  zone : Str
  subjectNodeId : Str
  generatedAtUnix : Nat
  expiresAtUnix : Nat
  nonce : Nat
  records : List WireRecord

/-- mirrors crates/rustydns-authority/src/mesh.rs:665-672 -/
def WireRecord.fields (zone : Str) (r : WireRecord) (i : Nat) : List (Str × Str) :=
  [(recordKey i "label".toList, r.label),
   (recordKey i "fqdn".toList, r.label ++ '.' :: zone),
   (recordKey i "target_node_id".toList, r.nodeId),
   (recordKey i "rr_type".toList, "A".toList),
   (recordKey i "target_addr_kind".toList, "mesh_ipv4".toList),
   (recordKey i "expected_ip".toList, r.ip.display),
   (recordKey i "ttl_secs".toList, Nat.toDigits 10 r.ttlSecs),
   (recordKey i "aliases".toList, [','].intercalate r.aliases)]

/-- mirrors crates/rustydns-authority/src/mesh.rs:656-663 -/
def WireBundle.headerFields (b : WireBundle) : List (Str × Str) :=
  [("version".toList, "1".toList),
   ("zone_name".toList, b.zone),
   ("subject_node_id".toList, b.subjectNodeId),
   ("generated_at_unix".toList, Nat.toDigits 10 b.generatedAtUnix),
   ("expires_at_unix".toList, Nat.toDigits 10 b.expiresAtUnix),
   ("nonce".toList, Nat.toDigits 10 b.nonce),
   ("record_count".toList, Nat.toDigits 10 b.records.length)]

def WireBundle.fields (b : WireBundle) : List (Str × Str) :=
  b.headerFields ++ b.records.zipIdx.flatMap fun (r, i) => r.fields b.zone i

def fieldLine (f : Str × Str) : Str := f.1 ++ '=' :: f.2

def WireBundle.payload (b : WireBundle) : Str := spell '\n' (b.fields.map fieldLine)

/-- mirrors crates/rustydns-authority/src/mesh.rs:680-681 -/
def WireBundle.wire (b : WireBundle) (signature : List UInt8) : List UInt8 :=
  Str.asBytes (b.payload ++ "signature=".toList ++ hexText signature ++ ['\n'])

/-- The records a reader gets for one written record: its label, then each alias. -/
def WireRecord.dnsRecords (T : UnicodeTables) (zone : Str) (r : WireRecord) : List DnsRecord :=
  (r.label :: r.aliases).map fun n =>
    { name := Str.toLowercase T (n ++ '.' :: zone), data := .a r.ip, ttl := r.ttlSecs
      meshNodeId := some r.nodeId }

/-! ## What can be written -/

/-- A value that fits on a line: no blanks around it, no line feed. -/
def Clean (v : Str) : Prop := v.trim = v ∧ '\n' ∉ v

/-- What `validate_single_label` accepts. -/
structure SingleLabel (v : Str) : Prop where
  ne_nil : v ≠ []
  len : v.byteLen ≤ 63
  ascii : v.isAscii = true
  dot : '.' ∉ v

instance (v : Str) : Decidable (Clean v) := inferInstanceAs (Decidable (_ ∧ _))

instance (v : Str) : Decidable (SingleLabel v) :=
  decidable_of_iff (v ≠ [] ∧ v.byteLen ≤ 63 ∧ v.isAscii = true ∧ '.' ∉ v)
    ⟨fun ⟨h1, h2, h3, h4⟩ => ⟨h1, h2, h3, h4⟩, fun ⟨h1, h2, h3, h4⟩ => ⟨h1, h2, h3, h4⟩⟩

theorem validateSingleLabel_ok_iff {value field : Str} :
    validateSingleLabel value field = .ok () ↔ SingleLabel value := by
  simp only [validateSingleLabel, Checks.seq_ok_iff, Checks.reject_ok_iff]
  constructor
  · rintro ⟨h1, h2, h3, h4⟩
    exact ⟨h1, by omega, by simpa using h3, h4⟩
  · rintro ⟨h1, h2, h3, h4⟩
    exact ⟨h1, by omega, by simp [h3], h4⟩

structure WireRecord.WellFormed (r : WireRecord) : Prop where
  label : SingleLabel r.label
  labelClean : Clean r.label
  nodeId : Clean r.nodeId
  ttlSecs : r.ttlSecs < 2 ^ 64
  aliases : ∀ a ∈ r.aliases, SingleLabel a ∧ Clean a ∧ ',' ∉ a

/-- Lower-case labels that are not empty, each with its dot. -/
structure ZoneText (zone : Str) : Prop where
  labels : ∃ ls : List Str, ls ≠ [] ∧ zone = spell '.' ls ∧ ∀ l ∈ ls, l ≠ [] ∧ '.' ∉ l
  lower : zone.toAsciiLowercase = zone
  clean : Clean zone

structure WireBundle.WellFormed (b : WireBundle) : Prop where
  zone : ZoneText b.zone
  subjectNodeId : Clean b.subjectNodeId
  times : b.generatedAtUnix < b.expiresAtUnix
  expiresAtUnix : b.expiresAtUnix < 2 ^ 64
  nonce : b.nonce < 2 ^ 64
  count : b.records.length ≤ maxBundleRecords
  records : ∀ r ∈ b.records, r.WellFormed

/-! ## Hex -/

theorem nibble_digitChar : ∀ n : Fin 16,
    nibble (UInt8.ofNat (Nat.digitChar n).toNat) = .ok (UInt8.ofNat n) := by
  decide +kernel

theorem hexByte_bits (b : UInt8) :
    (UInt8.ofNat (b.toNat / 16)) <<< 4 ||| UInt8.ofNat (b.toNat % 16) = b := by
  have h : ∀ n : Fin 256, (UInt8.ofNat (n.val / 16)) <<< 4 ||| UInt8.ofNat (n.val % 16) =
      UInt8.ofNat n.val := by
    decide +kernel
  simpa using h ⟨b.toNat, b.toNat_lt⟩

theorem mem_hexText {bytes : List UInt8} {c : Char} (h : c ∈ hexText bytes) :
    c ∈ "0123456789abcdef".toList := by
  have hdigit : ∀ n : Fin 16, Nat.digitChar n ∈ "0123456789abcdef".toList := by decide
  obtain ⟨b, -, hc⟩ := List.mem_flatMap.1 h
  have hlt := b.toNat_lt
  rcases List.mem_cons.1 hc with rfl | hc
  · exact hdigit ⟨b.toNat / 16, by omega⟩
  · rw [List.mem_singleton.1 hc]
    exact hdigit ⟨b.toNat % 16, by omega⟩

theorem isAscii_hexText (bytes : List UInt8) : (hexText bytes).isAscii = true := by
  have hall : ∀ c ∈ "0123456789abcdef".toList, Str.isAsciiChar c = true := by decide
  rw [Str.isAscii, List.all_eq_true]
  exact fun c hc => hall c (mem_hexText hc)

theorem trim_hexText (bytes : List UInt8) : (hexText bytes).trim = hexText bytes := by
  have hall : ∀ c ∈ "0123456789abcdef".toList, Str.isWhitespace c = false := by decide
  exact Str.trim_of_no_blank fun c hc => hall c (mem_hexText hc)

theorem hexText_cons (b : UInt8) (bs : List UInt8) : hexText (b :: bs) =
    Nat.digitChar (b.toNat / 16) :: Nat.digitChar (b.toNat % 16) :: hexText bs := rfl

theorem length_hexText (bytes : List UInt8) : (hexText bytes).length = bytes.length * 2 := by
  induction bytes with
  | nil => rfl
  | cons b bs ih => rw [hexText_cons, List.length_cons, List.length_cons, ih, List.length_cons]; omega

theorem hexPairs_hexText (bytes : List UInt8) : hexPairs (hexText bytes).asBytes = .ok bytes := by
  rw [Str.asBytes_of_isAscii (isAscii_hexText bytes)]
  induction bytes with
  | nil => rfl
  | cons b bs ih =>
    have hlt := b.toNat_lt
    have hhi := nibble_digitChar ⟨b.toNat / 16, by omega⟩
    have hlo := nibble_digitChar ⟨b.toNat % 16, by omega⟩
    simp only [hexText_cons, List.map_cons, hexPairs, Checks.bind_ok_iff, Checks.pure_ok_iff]
    exact ⟨_, hhi, _, hlo, bs, ih, by rw [hexByte_bits]⟩

theorem parseSignature_hexText {signature : List UInt8} (h : signature.length = 64) :
    parseSignature (hexText signature) = .ok signature := by
  have hlen : (hexText signature).asBytes.length = 64 * 2 := by
    rw [Str.asBytes_of_isAscii (isAscii_hexText signature), List.length_map, length_hexText, h]
  rw [parseSignature, Checks.mapError_ok_iff, decodeHexFixed]
  simp only [trim_hexText, hlen, ne_eq, not_true, if_false, hexPairs_hexText]

/-! ## The signature line -/

section
variable {needle : List UInt8}

theorem rposition_eq_none {s : List UInt8} (h : ¬needle <:+: s) : rposition needle s = none := by
  induction s with
  | nil => rfl
  | cons b bs ih =>
    rw [List.infix_cons_iff, not_or] at h
    have hpre : needle.isPrefixOf (b :: bs) = false := by
      rw [Bool.eq_false_iff, ne_eq, List.isPrefixOf_iff_prefix]
      exact h.1
    simp [rposition, ih h.2, hpre]

/-- The last occurrence is found wherever the text starts. -/
theorem rposition_append {s : List UInt8} {p : Nat} (a : List UInt8)
    (h : rposition needle s = some p) : rposition needle (a ++ s) = some (a.length + p) := by
  induction a with
  | nil => simpa using h
  | cons b a ih =>
    rw [List.cons_append, rposition, ih]
    simp only [List.length_cons, Option.some.injEq]
    omega

/-- A needle whose first byte comes back only as the very last byte is not found again. -/
theorem rposition_self {x : UInt8} {rest tail : List UInt8} (hneedle : needle = x :: rest)
    (hrest : rest ≠ []) (htail : x ∉ tail) (hx : x ∉ rest) :
    rposition needle (needle ++ tail ++ [x]) = some 0 := by
  have hlater : ¬needle <:+: rest ++ tail ++ [x] := by
    rintro ⟨front, back, h⟩
    rw [hneedle, List.append_assoc, List.cons_append] at h
    have hnot : x ∉ rest ++ tail := by simp [hx, htail]
    have hfront : x ∉ front := by
      have honce : List.count x (rest ++ tail ++ [x]) = 1 := by
        rw [List.count_append, List.count_eq_zero_of_not_mem hnot, List.count_singleton_self]
      have hcount := congrArg (List.count x) h
      rw [honce, List.count_append, List.count_cons_self] at hcount
      rw [← List.count_eq_zero]
      omega
    -- so the needle starts at the last byte, and there is no room for it
    have hnil := (first_piece hfront hnot h).2
    exact hrest (List.append_eq_nil_iff.1 hnil).1
  have hpre : needle.isPrefixOf (x :: (rest ++ tail ++ [x])) = true := by
    rw [List.isPrefixOf_iff_prefix, hneedle]
    exact ⟨tail ++ [x], by simp⟩
  have hcons : needle ++ tail ++ [x] = x :: (rest ++ tail ++ [x]) := by simp [hneedle]
  rw [hcons, rposition, rposition_eq_none hlater]
  simp only [hpre, if_true]

end

/-- **The cut.** The reader gets the payload and the hex digits back, whatever the payload holds. -/
theorem split_wire {payload front : Str} (hpayload : payload = front ++ ['\n'])
    {signature : List UInt8} (hne : signature ≠ []) :
    splitPayloadAndSignature
        (Str.asBytes (payload ++ "signature=".toList ++ hexText signature ++ ['\n'])) =
      .ok (payload.asBytes, hexText signature) := by
  have hraw : Str.asBytes (payload ++ "signature=".toList ++ hexText signature ++ ['\n']) =
      front.asBytes ++ (signatureNeedle ++ (hexText signature).asBytes ++ [10]) := by
    rw [hpayload]
    simp only [Str.asBytes_append, signatureNeedle, List.append_assoc]
    rfl
  have hten : (10 : UInt8) ∉ (hexText signature).asBytes := by
    rw [Str.asBytes_of_isAscii (isAscii_hexText signature)]
    intro hmem
    obtain ⟨c, hc, heq⟩ := List.mem_map.1 hmem
    have hall : ∀ c ∈ "0123456789abcdef".toList, UInt8.ofNat c.toNat ≠ 10 := by decide
    exact hall c (mem_hexText hc) heq
  have hself : rposition signatureNeedle
      (signatureNeedle ++ (hexText signature).asBytes ++ [10]) = some 0 :=
    rposition_self rfl (by decide) hten (by decide)
  have hpos := rposition_append front.asBytes hself
  have hdrop : (front.asBytes ++ (signatureNeedle ++ (hexText signature).asBytes ++ [10])).drop
      (front.asBytes.length + 0 + signatureNeedle.length) =
      Str.asBytes (hexText signature ++ ['\n']) := by
    rw [Nat.add_zero, ← List.drop_drop, List.drop_left, List.append_assoc, List.drop_left,
      Str.asBytes_append]
    rfl
  have htake : (front.asBytes ++ (signatureNeedle ++ (hexText signature).asBytes ++ [10])).take
      (front.asBytes.length + 0 + 1) = payload.asBytes := by
    rw [hpayload, Str.asBytes_append, Nat.add_zero, List.take_length_add_append]
    rfl
  have hsig : (Str.trimEndMatches '\n' (hexText signature ++ ['\n'])).trim = hexText signature := by
    have hfeed : Str.trimEndMatches '\n' (hexText signature) = hexText signature := by
      have hall : ∀ c ∈ "0123456789abcdef".toList, ¬(c == '\n') = true := by decide
      rw [Str.trimEndMatches, List.rdropWhile_eq_self_iff]
      exact fun hl => hall _ (mem_hexText (List.getLast_mem hl))
    rw [Str.trimEndMatches_concat, hfeed, trim_hexText]
  have hnil : hexText signature ≠ [] := by
    have hlen := length_hexText signature
    have hpos := List.length_pos_iff.2 hne
    rw [← List.length_pos_iff]
    omega
  rw [hraw]
  simp only [splitPayloadAndSignature, hpos, Checks.bind_ok_iff, Checks.okOr_ok_iff,
    Checks.reject_ok_iff, Checks.pure_ok_iff]
  refine ⟨_, rfl, hexText signature ++ ['\n'], ?_, (), ?_, ?_⟩
  · rw [hdrop, Str.fromUtf8_asBytes]
  · rw [hsig]
    exact hnil
  · rw [htake, hsig]

/-! ## The field map -/

/-- A field that a line can carry. -/
structure FieldOk (f : Str × Str) : Prop where
  keyTrim : f.1.trim = f.1
  keyEq : '=' ∉ f.1
  keyLine : '\n' ∉ f.1
  value : Clean f.2

theorem parseFieldLine_fieldLine {map : Fields} {f : Str × Str} (hf : FieldOk f) (hmem : f.1 ∉ map) :
    parseFieldLine map (fieldLine f) = .ok (map.insert f.1 f.2) := by
  have hne : fieldLine f ≠ [] := by simp [fieldLine]
  have hsplit : (fieldLine f).splitOnce '=' = some (f.1, f.2) :=
    Str.splitOnce_eq_some_iff.2 ⟨rfl, hf.keyEq⟩
  simp only [parseFieldLine, if_neg hne, hsplit, hf.keyTrim, hf.value.1, if_neg hmem]

/-- The loop over the lines: with distinct keys every field is in the map at the end. -/
theorem foldlM_fieldLine {fs : List (Str × Str)} (hfs : ∀ f ∈ fs, FieldOk f)
    (hkeys : (fs.map Prod.fst).Nodup) {map : Fields} (hnew : ∀ f ∈ fs, f.1 ∉ map) :
    ∃ map' : Fields, (fs.map fieldLine).foldlM parseFieldLine map = .ok map' ∧
      (∀ f ∈ fs, map'.lookup f.1 = some f.2) ∧
      ∀ k ∉ fs.map Prod.fst, map'.lookup k = map.lookup k := by
  induction fs generalizing map with
  | nil => exact ⟨map, rfl, by simp, by simp⟩
  | cons f fs ih =>
    obtain ⟨hf, hrest⟩ := List.forall_mem_cons.1 hfs
    obtain ⟨hmem, hnew⟩ := List.forall_mem_cons.1 hnew
    rw [List.map_cons, List.nodup_cons] at hkeys
    have hins : ∀ g ∈ fs, g.1 ∉ map.insert f.1 f.2 := by
      intro g hg hin
      rcases (AList.mem_insert map).1 hin with heq | hin
      · exact hkeys.1 (heq ▸ List.mem_map_of_mem hg)
      · exact hnew g hg hin
    obtain ⟨map', hfold, hlook, hold⟩ := ih hrest hkeys.2 hins
    refine ⟨map', ?_, List.forall_mem_cons.2 ⟨?_, hlook⟩, ?_⟩
    · rw [List.map_cons, List.foldlM_cons, parseFieldLine_fieldLine hf hmem]
      exact hfold
    · rw [hold f.1 hkeys.1, AList.lookup_insert]
    · intro k hk
      rw [List.map_cons, List.mem_cons, not_or] at hk
      rw [hold k hk.2, AList.lookup_insert_ne hk.1]

theorem lines_fieldLine {fs : List (Str × Str)} (hfs : ∀ f ∈ fs, FieldOk f) :
    Str.lines (spell '\n' (fs.map fieldLine)) = fs.map fieldLine := by
  have hfeed : ∀ f ∈ fs, '\n' ∉ fieldLine f := by
    intro f hf
    simp [fieldLine, (hfs f hf).keyLine, (hfs f hf).value.2]
  apply Str.lines_spell
  · intro l hl
    obtain ⟨f, hf, rfl⟩ := List.mem_map.1 hl
    exact hfeed f hf
  · intro l hl c hc
    obtain ⟨f, hf, rfl⟩ := List.mem_map.1 hl
    have hlast := (Str.trim_eq_self_iff.1 (hfs f hf).value.1).2
    cases hv : f.2.getLast? with
    | none =>
      rw [List.getLast?_eq_none_iff] at hv
      simp only [fieldLine, hv, List.getLast?_append, List.getLast?_singleton, Option.some_or] at hc
      cases hc
      decide
    | some d =>
      simp only [fieldLine, List.getLast?_append, List.getLast?_cons, hv, Option.getD_some,
        Option.some_or] at hc
      cases hc
      exact hlast _ hv

/-! ## Keys -/

theorem recordKey_inj {i j : Nat} {a b : Str} (h : recordKey i a = recordKey j b) : i = j ∧ a = b := by
  have hdot : ∀ n, '.' ∉ Nat.toDigits 10 n := fun n hmem =>
    absurd (Str.isDigit_toDigits hmem) (by decide)
  unfold recordKey at h
  rw [List.append_assoc, List.append_assoc, List.append_cancel_left_eq] at h
  obtain ⟨hdigits, rfl⟩ := first_piece (hdot i) (hdot j) h
  exact ⟨toDigits_inj (by decide) (by decide) i j hdigits, rfl⟩

/-- The names in the keys of one record. -/
def recordFieldNames : List Str :=
  ["label".toList, "fqdn".toList, "target_node_id".toList, "rr_type".toList,
   "target_addr_kind".toList, "expected_ip".toList, "ttl_secs".toList, "aliases".toList]

theorem keys_fields (zone : Str) (r : WireRecord) (i : Nat) :
    (r.fields zone i).map Prod.fst = recordFieldNames.map (recordKey i) := rfl

theorem recordKey_plain {i : Nat} {name : Str} (hname : name ∈ recordFieldNames) :
    (recordKey i name).trim = recordKey i name ∧ '=' ∉ recordKey i name ∧
      '\n' ∉ recordKey i name := by
  have hstart : ∀ c ∈ "record.".toList,
      Str.isWhitespace c = false ∧ c ≠ '=' ∧ c ≠ '\n' := by decide
  have hnames : ∀ name ∈ recordFieldNames, ∀ c ∈ name,
      Str.isWhitespace c = false ∧ c ≠ '=' ∧ c ≠ '\n' := by decide
  have hdigit : ∀ c ∈ Nat.toDigits 10 i, Str.isWhitespace c = false ∧ c ≠ '=' ∧ c ≠ '\n' := by
    intro c hc
    have hd := Str.isDigit_toDigits hc
    refine ⟨Str.isWhitespace_of_isDigit hd, ?_, ?_⟩
    · rintro rfl
      exact absurd hd (by decide)
    · rintro rfl
      exact absurd hd (by decide)
  have hall : ∀ c ∈ recordKey i name, Str.isWhitespace c = false ∧ c ≠ '=' ∧ c ≠ '\n' := by
    intro c hc
    rcases List.mem_append.1 hc with hc | hc
    · rcases List.mem_append.1 hc with hc | hc
      · exact hstart c hc
      · exact hdigit c hc
    · rcases List.mem_cons.1 hc with rfl | hc
      · exact ⟨by decide, by decide, by decide⟩
      · exact hnames name hname c hc
  exact ⟨Str.trim_of_no_blank fun c hc => (hall c hc).1, fun h => (hall _ h).2.1 rfl,
    fun h => (hall _ h).2.2 rfl⟩

/-- The keys of the header lines. -/
def headerFieldNames : List Str :=
  ["version".toList, "zone_name".toList, "subject_node_id".toList, "generated_at_unix".toList,
   "expires_at_unix".toList, "nonce".toList, "record_count".toList]

theorem recordKey_notMem_header {i : Nat} {name : Str} : recordKey i name ∉ headerFieldNames := by
  intro h
  have hstart : ∀ k ∈ headerFieldNames, k.take 7 ≠ "record.".toList := by decide
  exact hstart _ h rfl

theorem nodup_keys (b : WireBundle) : (b.fields.map Prod.fst).Nodup := by
  have hkeys : b.fields.map Prod.fst =
      headerFieldNames ++ b.records.zipIdx.flatMap fun p => recordFieldNames.map (recordKey p.2) := by
    rw [WireBundle.fields, List.map_append, List.map_flatMap]
    rfl
  rw [hkeys, List.nodup_append]
  refine ⟨by decide, ?_, ?_⟩
  · rw [List.nodup_flatMap]
    constructor
    · intro p _
      exact List.Nodup.map (fun a b h => (recordKey_inj h).2) (by decide)
    · have hindex : (b.records.zipIdx.map Prod.snd).Nodup := by
        rw [List.zipIdx_map_snd]
        exact List.nodup_range'
      refine (List.pairwise_map.1 hindex).imp ?_
      intro p q hne k hp hq
      obtain ⟨a, -, rfl⟩ := List.mem_map.1 hp
      obtain ⟨a', -, heq⟩ := List.mem_map.1 hq
      exact hne (recordKey_inj heq).1.symm
  · intro k hk k' hk' heq
    obtain ⟨p, -, hp⟩ := List.mem_flatMap.1 hk'
    obtain ⟨name, -, rfl⟩ := List.mem_map.1 hp
    exact recordKey_notMem_header (heq ▸ hk)

/-! ## Values -/

theorem Clean.append {s t : Str} (hs : Clean s) (ht : Clean t) : Clean (s ++ t) :=
  ⟨Str.trim_append_self hs.1 ht.1, by simp [hs.2, ht.2]⟩

theorem clean_of_forall {s : Str} (h : ∀ c ∈ s, Str.isWhitespace c = false) : Clean s :=
  ⟨Str.trim_of_no_blank h, fun hmem => absurd (h _ hmem) (by decide)⟩

theorem clean_toDigits (n : Nat) : Clean (Nat.toDigits 10 n) :=
  clean_of_forall fun _ hc => Str.isWhitespace_of_isDigit (Str.isDigit_toDigits hc)

theorem clean_display (ip : Ipv4Addr) : Clean ip.display := by
  refine clean_of_forall fun c hc => ?_
  rcases Ipv4Addr.mem_display hc with hdigit | rfl
  · exact Str.isWhitespace_of_isDigit hdigit
  · decide

theorem clean_intercalate {ls : List Str} (h : ∀ l ∈ ls, Clean l) : Clean ([','].intercalate ls) := by
  have hcomma : Clean [','] := clean_of_forall (by decide)
  induction ls with
  | nil => exact clean_of_forall (by simp)
  | cons l ls ih =>
    obtain ⟨hl, hls⟩ := List.forall_mem_cons.1 h
    cases ls with
    | nil => simpa using hl
    | cons m ls =>
      rw [List.intercalate_cons_cons]
      exact (hl.append hcomma).append (ih hls)

theorem fieldOk_record {zone : Str} (hzone : Clean zone) {r : WireRecord} (hr : r.WellFormed) (i : Nat) :
    ∀ f ∈ r.fields zone i, FieldOk f := by
  have hvalue : ∀ f ∈ r.fields zone i, Clean f.2 := by
    have hdot : Clean ['.'] := clean_of_forall (by decide)
    simp only [WireRecord.fields, List.forall_mem_cons]
    exact ⟨hr.labelClean, hr.labelClean.append (hdot.append hzone), hr.nodeId,
      clean_of_forall (by decide), clean_of_forall (by decide), clean_display _, clean_toDigits _,
      clean_intercalate fun a ha => (hr.aliases a ha).2.1, by simp⟩
  intro f hf
  have hkey : f.1 ∈ recordFieldNames.map (recordKey i) :=
    keys_fields zone r i ▸ List.mem_map_of_mem hf
  obtain ⟨name, hname, heq⟩ := List.mem_map.1 hkey
  obtain ⟨htrim, heq', hline⟩ := recordKey_plain (i := i) hname
  rw [heq] at htrim heq' hline
  exact ⟨htrim, heq', hline, hvalue f hf⟩

theorem fieldOk_fields {b : WireBundle} (hb : b.WellFormed) : ∀ f ∈ b.fields, FieldOk f := by
  intro f hf
  rcases List.mem_append.1 hf with hf | hf
  · have hvalue : ∀ f ∈ b.headerFields, Clean f.2 := by
      simp only [WireBundle.headerFields, List.forall_mem_cons]
      exact ⟨clean_of_forall (by decide), hb.zone.clean, hb.subjectNodeId, clean_toDigits _,
        clean_toDigits _, clean_toDigits _, clean_toDigits _, by simp⟩
    have hkeys : ∀ k ∈ headerFieldNames, k.trim = k ∧ '=' ∉ k ∧ '\n' ∉ k := by decide
    obtain ⟨htrim, heq, hline⟩ := hkeys f.1 (List.mem_map_of_mem (f := Prod.fst) hf)
    exact ⟨htrim, heq, hline, hvalue f hf⟩
  · obtain ⟨⟨r, i⟩, hr, hf⟩ := List.mem_flatMap.1 hf
    exact fieldOk_record hb.zone.clean (hb.records r (List.fst_mem_of_mem_zipIdx hr)) i f hf

/-- Every written field is in the map the reader builds. -/
theorem parseFields_payload {b : WireBundle} (hb : b.WellFormed) :
    ∃ map, parseFields b.payload.asBytes = .ok map ∧ ∀ f ∈ b.fields, map.lookup f.1 = some f.2 := by
  have hok := fieldOk_fields hb
  have hempty : ∀ f ∈ b.fields, f.1 ∉ (∅ : Fields) := by simp
  obtain ⟨map, hfold, hlook, -⟩ := foldlM_fieldLine hok (nodup_keys b) hempty
  refine ⟨map, ?_, hlook⟩
  simp only [parseFields, Str.fromUtf8_asBytes, WireBundle.payload, lines_fieldLine hok, hfold]

/-! ## The zone -/

section
variable {zone : Str}

/-- A zone text ends in one dot and does not start with one. -/
theorem ZoneText.shape (h : ZoneText zone) :
    ∃ front, zone = front ++ ['.'] ∧ front.getLast? ≠ some '.' ∧ zone.head? ≠ some '.' := by
  obtain ⟨ls, hne, rfl, hls⟩ := h.labels
  obtain ⟨init, last, hlast⟩ := (List.eq_nil_or_concat ls).resolve_left hne
  have hlabel := hls last (by simp [hlast])
  refine ⟨spell '.' init ++ last, by simp [hlast, spell_append], ?_, ?_⟩
  · rw [List.getLast?_append, List.getLast?_eq_some_getLast hlabel.1, Option.some_or]
    intro heq
    exact hlabel.2 (Option.some.inj heq ▸ List.getLast_mem hlabel.1)
  · cases ls with
    | nil => exact absurd rfl hne
    | cons l ls =>
      obtain ⟨hl, hdot⟩ := hls l List.mem_cons_self
      rw [spell_cons, List.head?_append, List.head?_eq_some_head hl, Option.some_or]
      intro heq
      exact hdot (Option.some.inj heq ▸ List.head_mem hl)

theorem normaliseZone_self (h : ZoneText zone) : normaliseZone zone = zone := by
  obtain ⟨front, hfront, hlast, -⟩ := h.shape
  have hends : front.endsWith ['.'] = false := by
    rw [Bool.eq_false_iff]
    intro hdot
    obtain ⟨init, rfl⟩ := Str.endsWith_iff.1 hdot
    exact hlast (by simp)
  have htrim : zone.trimEndMatches '.' = front := by
    rw [hfront, Str.trimEndMatches_concat, Str.trimEndMatches, List.rdropWhile_eq_self_iff]
    intro hne hdot
    rw [List.getLast?_eq_some_getLast hne] at hlast
    exact hlast (congrArg some (beq_iff_eq.1 hdot))
  have hlower : front.toAsciiLowercase = front := by
    have hlow := h.lower
    rw [hfront, Str.toAsciiLowercase, List.map_append] at hlow
    exact (List.append_inj' hlow rfl).1
  simp only [normaliseZone, h.clean.1, htrim, hlower, hends, Bool.false_eq_true, if_false]
  exact hfront.symm

theorem meshZoneDotted_self (h : ZoneText zone) : meshZoneDotted zone = '.' :: zone := by
  obtain ⟨front, hfront, -, hhead⟩ := h.shape
  have hne : zone ≠ [] := by simp [hfront]
  have hstart : zone.startsWith ['.'] = false := by
    rw [Bool.eq_false_iff]
    intro hdot
    obtain ⟨rest, hrest⟩ := Str.startsWith_iff.1 hdot
    exact hhead (by simp [hrest])
  rw [meshZoneDotted, if_neg hne, if_neg (by simp [hstart])]

end

/-! ## Records -/

theorem recordNames_intercalate {r : WireRecord} (hr : r.WellFormed) (i : Nat) :
    recordNames i r.label ([','].intercalate r.aliases) = .ok (r.label :: r.aliases) := by
  have hsplit : ((Str.splitBy (· == ',') ([','].intercalate r.aliases)).map Str.trim).filter
      (· ≠ []) = r.aliases := by
    cases haliases : r.aliases with
    | nil => decide
    | cons a as =>
      rw [← haliases, Str.splitBy_intercalate (fun a ha => (hr.aliases a ha).2.2) (by simp [haliases])]
      have htrim : r.aliases.map Str.trim = r.aliases :=
        (List.map_congr_left fun a ha => (hr.aliases a ha).2.1.1).trans (List.map_id _)
      rw [htrim, List.filter_eq_self]
      exact fun a ha => decide_eq_true (hr.aliases a ha).1.ne_nil
  simp only [recordNames, Checks.bind_ok_iff, Checks.forEach_ok_iff, Checks.pure_ok_iff]
  refine ⟨(), ?_, ?_⟩
  · rw [hsplit]
    exact fun a ha => validateSingleLabel_ok_iff.2 (hr.aliases a ha).1
  · rw [hsplit]

theorem requiredIndexed_ok {map : Fields} {i : Nat} {name value : Str}
    (h : map.lookup (recordKey i name) = some value) : requiredIndexed map i name = .ok value := by
  rw [requiredIndexed, Checks.okOr_ok_iff, h]

/-- The fields of a record give back one record per label and alias. -/
theorem buildRecord_fields {T : UnicodeTables} {map : Fields} {zone : Str} (hzone : ZoneText zone)
    {r : WireRecord} (hr : r.WellFormed) {i : Nat}
    (hmap : ∀ f ∈ r.fields zone i, map.lookup f.1 = some f.2) :
    buildRecord T map i zone = .ok (r.dnsRecords T zone) := by
  simp only [WireRecord.fields, List.forall_mem_cons] at hmap
  obtain ⟨hlabel, -, hnode, htype, hkind, hip, httl, haliases, -⟩ := hmap
  have hrecord : ∀ n, (DnsRecord.new T (n ++ '.' :: zone) (.a r.ip) r.ttlSecs).withMeshNode r.nodeId =
      { name := Str.toLowercase T (n ++ '.' :: zone), data := .a r.ip, ttl := r.ttlSecs
        meshNodeId := some r.nodeId } := by
    intro n
    obtain ⟨front, hfront, -⟩ := hzone.shape
    have hdot : (Str.toLowercase T (n ++ '.' :: zone)).endsWith ['.'] = true := by
      apply Str.endsWith_dot_toLowercase
      exact Str.endsWith_iff.2 ⟨n ++ '.' :: front, by simp [hfront]⟩
    simp only [DnsRecord.new, hdot, if_true, DnsRecord.withMeshNode]
  simp only [buildRecord, Checks.bind_ok_iff, Checks.reject_ok_iff, Checks.okOr_ok_iff,
    Checks.pure_ok_iff]
  refine ⟨_, requiredIndexed_ok hlabel, (), validateSingleLabel_ok_iff.2 hr.label, _,
    requiredIndexed_ok htype, _, requiredIndexed_ok hkind, _, requiredIndexed_ok hip, _,
    requiredIndexed_ok httl, _, requiredIndexed_ok hnode, (), by simp, (), by simp, _,
    parseIpv4Addr_display r.ip, _, Str.parseUnsigned_toDigits hr.ttlSecs,
    r.label :: r.aliases, ?_, ?_⟩
  · rw [haliases]
    exact recordNames_intercalate hr i
  · rw [meshZoneDotted_self hzone]
    exact List.map_congr_left fun n _ => hrecord n

theorem parseNumberField_ok {typeName : String} {map : Fields} {name : Str} {n : Nat} (hn : n < 2 ^ 64)
    (h : map.lookup name = some (Nat.toDigits 10 n)) :
    parseNumberField typeName map name = .ok n := by
  simp only [parseNumberField, require, Checks.bind_ok_iff, Checks.okOr_ok_iff]
  exact ⟨_, h, Str.parseUnsigned_toDigits hn⟩

theorem buildLoadedBundle_fields {T : UnicodeTables} {b : WireBundle} (hb : b.WellFormed) {map : Fields}
    (hheader : ∀ f ∈ b.headerFields, map.lookup f.1 = some f.2)
    (hrecords : ∀ p ∈ b.records.zipIdx, ∀ f ∈ p.1.fields b.zone p.2, map.lookup f.1 = some f.2) :
    buildLoadedBundle T map b.zone = .ok
      { records := b.records.flatMap (·.dnsRecords T b.zone)
        generatedAtUnix := b.generatedAtUnix, expiresAtUnix := b.expiresAtUnix
        nonce := b.nonce } := by
  simp only [WireBundle.headerFields, List.forall_mem_cons] at hheader
  obtain ⟨hversion, hzone, -, hgen, hexp, hnonce, hcount, -⟩ := hheader
  have htimes := hb.times
  have hexpires := hb.expiresAtUnix
  have hlen := hb.count
  have hmax : maxBundleRecords < 2 ^ 64 := by decide
  -- record `i` is rebuilt from the keys that hold `i`
  have hbuild : (List.range b.records.length).mapM (fun i => buildRecord T map i b.zone) =
      .ok ((List.range b.records.length).map fun i =>
        ((b.records[i]?).map (·.dnsRecords T b.zone)).getD []) := by
    apply Checks.mapM_ok_of_forall
    intro i hi
    have hlt : i < b.records.length := List.mem_range.1 hi
    have hget : b.records[i]? = some b.records[i] := List.getElem?_eq_getElem hlt
    rw [hget, Option.map_some, Option.getD_some]
    apply buildRecord_fields hb.zone (hb.records _ (List.getElem_mem _))
    exact hrecords (b.records[i], i) (List.mk_mem_zipIdx_iff_getElem?.2 hget)
  have hall : ((List.range b.records.length).map fun i =>
      ((b.records[i]?).map (·.dnsRecords T b.zone)).getD []) =
      b.records.map (·.dnsRecords T b.zone) := by
    apply List.ext_getElem
    · simp
    · intro i h₁ h₂
      simp at h₁
      simp [h₁]
  simp only [buildLoadedBundle, Checks.bind_ok_iff, Checks.reject_ok_iff, Checks.pure_ok_iff]
  refine ⟨_, Checks.okOr_ok_iff.2 hversion, (), by simp, _, Checks.okOr_ok_iff.2 hzone, (), ?_, _,
    parseNumberField_ok (by omega) hgen, _, parseNumberField_ok hexpires hexp, (), by omega, _,
    parseNumberField_ok hb.nonce hnonce, _, parseNumberField_ok (by omega) hcount, (), by omega, _,
    hbuild, ?_⟩
  · rw [normaliseZone_self hb.zone]
    simp
  · rw [hall, List.flatMap]

/-- **The wire format round-trips.** What the writer wrote, the reader splits, decodes and rebuilds:
the payload, the signature, the header and one record per label and alias, in order. -/
theorem bundle_round_trip (T : UnicodeTables) {b : WireBundle} (hb : b.WellFormed)
    {signature : List UInt8} (hsig : signature.length = 64) :
    ∃ hex map, splitPayloadAndSignature (b.wire signature) = .ok (b.payload.asBytes, hex) ∧
      parseSignature hex = .ok signature ∧ parseFields b.payload.asBytes = .ok map ∧
      buildLoadedBundle T map b.zone = .ok
        { records := b.records.flatMap (·.dnsRecords T b.zone)
          generatedAtUnix := b.generatedAtUnix, expiresAtUnix := b.expiresAtUnix
          nonce := b.nonce } := by
  obtain ⟨map, hparse, hlook⟩ := parseFields_payload hb
  refine ⟨hexText signature, map, ?_, parseSignature_hexText hsig, hparse, ?_⟩
  · have hne : b.fields.map fieldLine ≠ [] := by simp [WireBundle.fields, WireBundle.headerFields]
    apply split_wire (Str.intercalate_append_sep hne).symm
    rintro rfl
    cases hsig
  · obtain ⟨hheader, hrecords⟩ := List.forall_mem_append.1 hlook
    exact buildLoadedBundle_fields hb hheader fun p hp f hf =>
      hrecords f (List.mem_flatMap.2 ⟨p, hp, hf⟩)

/-- Values that hold an equals sign and the signature marker. -/
def trickyRecord : WireRecord where
  label := "NAS".toList
  nodeId := "signature=00".toList
  ip := 0x64400002#32
  ttlSecs := 60
  aliases := ["files".toList, "x=y".toList]

def trickyBundle : WireBundle where
  zone := "lab.mesh.".toList
  subjectNodeId := "a=b".toList
  generatedAtUnix := 1700000000
  expiresAtUnix := 1700000300
  nonce := 7
  records := [trickyRecord]

theorem wellFormed_trickyRecord : trickyRecord.WellFormed where
  label := by decide
  labelClean := by decide
  nodeId := by decide
  ttlSecs := by decide
  aliases := by decide

theorem wellFormed_trickyBundle : trickyBundle.WellFormed where
  zone := {
    labels := ⟨["lab".toList, "mesh".toList], by decide, by decide, by decide⟩
    lower := by decide
    clean := by decide }
  subjectNodeId := by decide
  times := by decide
  expiresAtUnix := by decide
  nonce := by decide
  count := by decide
  records := List.forall_mem_singleton.2 wellFormed_trickyRecord

theorem bundle_round_trip_tricky :
    ∃ hex map loaded,
      splitPayloadAndSignature (trickyBundle.wire (List.replicate 64 200)) =
        .ok (trickyBundle.payload.asBytes, hex) ∧
      parseFields trickyBundle.payload.asBytes = .ok map ∧
      buildLoadedBundle .asciiOnly map trickyBundle.zone = .ok loaded ∧
      loaded.records.map DnsRecord.name =
        ["nas.lab.mesh.".toList, "files.lab.mesh.".toList, "x=y.lab.mesh.".toList] := by
  obtain ⟨hex, map, hsplit, -, hparse, hbuild⟩ :=
    bundle_round_trip .asciiOnly wellFormed_trickyBundle (List.length_replicate (n := 64) (a := 200))
  exact ⟨hex, map, _, hsplit, hparse, hbuild, by decide +kernel⟩

end RustyDns.L2.Mesh
