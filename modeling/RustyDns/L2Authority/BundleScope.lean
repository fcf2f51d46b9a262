import RustyDns.L1Core.Validate
import RustyDns.L2Authority.BundleWire
import RustyDns.L2Authority.Scope

/-!
# What a bundle does to the authority's scope

`build_snapshot` adds every record name of a bundle to the zone list. So a bundle widens the scope
unless each of its names is inside the mesh zone already. A name is `label` and `mesh_zone_dotted`
put together, then lower-cased by `DnsRecord::new`; the mesh zone itself went through
`normalise_name` only.

Two settings that `validate_config` lets through make the two disagree. A mesh zone that starts with
a dot gets no second one, so the name is not below the zone; for the mesh zone `.` the name is a
whole top-level domain. And `DnsRecord::new` lower-cases by Unicode where `normalise_name` stops at
ASCII, so a zone with another upper-case letter is spelled differently in the name.

Results:
* `mem_bundle_records`: the names a bundle can bring.
* `name_within_iff`: such a name is inside the mesh zone exactly if the zone `Stays`.
* `bundle_keeps_scope_iff`: when applying a bundle leaves the scope as it is.
-/

namespace RustyDns.L2.Auth

open RustyDns.Lib RustyDns.Lib.Labels RustyDns.L1
open RustyDns.L2.Mesh RustyDns.L2.Zone

/-- The mesh zone reappears unchanged at the end of every record name. -/
def Stays (T : UnicodeTables) (zone : Str) : Prop :=
  zone.head? ≠ some '.' ∧ Str.LowerFixed T zone

instance (T : UnicodeTables) (zone : Str) : Decidable (Stays T zone) :=
  inferInstanceAs (Decidable (_ ∧ _))

/-- The authority as it is with no bundle loaded. -/
def Authority.withoutBundle (auth : Authority) : Authority :=
  { auth with snapshot := buildSnapshot auth.staticPart none, meshWatermark := none }

/-! ## Record names -/

section
variable {T : UnicodeTables}

/-- The name of the record for one label. -/
def meshName (T : UnicodeTables) (label zone : Str) : Str :=
  (DnsRecord.new T (label ++ meshZoneDotted zone) (.a 0) 0).name

theorem recordNames_ok {i : Nat} {label aliases : Str} {names : List Str} (hlabel : SingleLabel label)
    (h : recordNames i label aliases = .ok names) : ∀ n ∈ names, SingleLabel n := by
  simp only [recordNames, Checks.bind_ok_iff, Checks.forEach_ok_iff, Checks.pure_ok_iff] at h
  obtain ⟨⟨⟩, haliases, rfl⟩ := h
  exact List.forall_mem_cons.2 ⟨hlabel, fun a ha => validateSingleLabel_ok_iff.1 (haliases a ha)⟩

theorem buildRecord_ok {fields : Fields} {i : Nat} {zone : Str} {recs : List DnsRecord}
    (h : buildRecord T fields i zone = .ok recs) :
    ∀ r ∈ recs, ∃ label, SingleLabel label ∧ r.name = meshName T label zone := by
  simp only [buildRecord, Checks.bind_ok_iff, Checks.reject_ok_iff, Checks.okOr_ok_iff,
    Checks.pure_ok_iff] at h
  obtain ⟨label, -, ⟨⟩, hlabel, -, -, -, -, -, -, -, -, -, -, -, -, -, -, ip, -, ttl, -, names, hnames,
    rfl⟩ := h
  intro r hr
  obtain ⟨n, hn, rfl⟩ := List.mem_map.1 hr
  exact ⟨n, recordNames_ok (validateSingleLabel_ok_iff.1 hlabel) hnames n hn, rfl⟩

/-- Every record of an accepted bundle has a single label in front of the dotted mesh zone. -/
theorem mem_bundle_records {E : Ed25519} {files : MeshFiles} {zone : Str} {maxAge : Nat}
    {b : LoadedBundle} (h : loadMeshBundle E T files zone maxAge = .ok b) :
    ∀ r ∈ b.records, ∃ label, SingleLabel label ∧ r.name = meshName T label zone := by
  obtain ⟨-, -, -, -, -, fields, -, -, -, -, -, -, hbuild⟩ := (loadMeshBundle_cases h).signed
  simp only [buildLoadedBundle, Checks.bind_ok_iff, Checks.pure_ok_iff] at hbuild
  obtain ⟨_, -, _, -, _, -, _, -, _, -, _, -, _, -, _, -, _, -, _, -, recs, hrecs, rfl⟩ := hbuild
  intro r hr
  obtain ⟨rs, hrs, hr⟩ := List.mem_flatten.1 hr
  obtain ⟨i, -, hrecord⟩ := Checks.exists_of_mem_mapM hrecs rs hrs
  exact buildRecord_ok hrecord r hr

/-- The mesh zone as it stands after the label: with a dot of its own, or with the one it has. -/
theorem meshZoneDotted_cases {zone : Str} (hdot : zone.endsWith ['.'] = true) :
    ∃ w : Str, meshZoneDotted zone = '.' :: w ∧ Str.endsWith ('.' :: w) ['.'] = true ∧
      ((zone.head? ≠ some '.' ∧ w = zone) ∨ zone = '.' :: w) := by
  obtain ⟨front, hfront⟩ := Str.endsWith_iff.1 hdot
  have hne : zone ≠ [] := by simp [hfront]
  by_cases hhead : zone.head? = some '.'
  · obtain ⟨w, rfl⟩ : ∃ w, zone = '.' :: w := List.head?_eq_some_iff.1 hhead
    refine ⟨w, ?_, hdot, .inr rfl⟩
    have hstart : Str.startsWith ('.' :: w) ['.'] = true := Str.startsWith_iff.2 ⟨w, rfl⟩
    rw [meshZoneDotted, if_neg hne, if_pos hstart]
  · have hdot' : Str.endsWith ('.' :: zone) ['.'] = true :=
      Str.endsWith_iff.2 ⟨'.' :: front, by simp [hfront]⟩
    refine ⟨zone, ?_, hdot', .inl ⟨hhead, rfl⟩⟩
    rw [meshZoneDotted, if_neg hne, if_neg]
    intro hstart
    obtain ⟨w, rfl⟩ := Str.startsWith_iff.1 hstart
    exact hhead rfl

theorem meshName_eq {label zone w : Str} (hlabel : SingleLabel label)
    (hw : meshZoneDotted zone = '.' :: w) (hdot : Str.endsWith ('.' :: w) ['.'] = true) :
    ∃ before, meshName T label zone =
      label.toAsciiLowercase ++ '.' :: Str.lowercaseFrom T before w := by
  have hends : (Str.toLowercase T (label ++ '.' :: w)).endsWith ['.'] = true := by
    apply Str.endsWith_dot_toLowercase
    obtain ⟨front, hfront⟩ := Str.endsWith_iff.1 hdot
    rw [Str.endsWith_iff]
    exact ⟨label ++ front, by rw [hfront, List.append_assoc]⟩
  have hascii : Str.isAscii (label ++ ['.']) = true := by
    have := hlabel.ascii
    simp_all [Str.isAscii, Str.isAsciiChar]
  have hlower := Str.lowercaseFrom_append_of_isAscii T w (label ++ ['.']) [] hascii
  refine ⟨(label ++ ['.']).reverse ++ [], ?_⟩
  simp only [meshName, DnsRecord.new, hw, hends, if_true]
  rw [Str.toLowercase, show label ++ '.' :: w = label ++ ['.'] ++ w by simp, hlower]
  simp [Str.toAsciiLowercase]

/-- A name under the mesh zone is inside it exactly if the zone reappears unchanged. -/
theorem name_within_iff (hT : T.Sound) {label zone : Str} (hlabel : SingleLabel label)
    (hdot : zone.endsWith ['.'] = true) :
    nameWithinZone (meshName T label zone) zone = true ↔ Stays T zone := by
  obtain ⟨w, hw, hwdot, hcases⟩ := meshZoneDotted_cases hdot
  obtain ⟨before, hname⟩ := meshName_eq (T := T) hlabel hw hwdot
  have hlabeldot : '.' ∉ label.toAsciiLowercase := by
    rw [Str.dot_mem_toAsciiLowercase]
    exact hlabel.dot
  have hzero := List.count_eq_zero_of_not_mem hlabeldot
  have hcount := Str.count_dot_lowercaseFrom hT w before
  rw [hname, nameWithinZone_eq_true_iff]
  constructor
  · intro h
    -- the name and the zone are compared by the number of dots in them
    rcases h with h | ⟨front, h, hlast⟩
    · rcases hcases with ⟨-, rfl⟩ | rfl
      · have hdots := congrArg (List.count '.') h
        rw [List.count_append, List.count_cons_self, hcount] at hdots
        omega
      · have hnil := (first_piece hlabeldot (List.not_mem_nil) h).1
        exact absurd (List.map_eq_nil_iff.1 hnil) hlabel.ne_nil
    · obtain ⟨init, rfl⟩ := List.getLast?_eq_some_iff.1 hlast
      have hdots := congrArg (List.count '.') h
      rw [List.count_append, List.count_cons_self, hcount, List.count_append, List.count_append,
        List.count_singleton_self] at hdots
      rcases hcases with ⟨hhead, rfl⟩ | rfl
      · have hinit : '.' ∉ init := by
          rw [← List.count_eq_zero]
          omega
        rw [List.append_assoc] at h
        exact ⟨hhead, Str.fixed_of_lowercaseFrom_eq hT before (first_piece hlabeldot hinit h).2⟩
      · rw [List.count_cons_self] at hdots
        omega
  · rintro ⟨hhead, hfixed⟩
    rcases hcases with ⟨-, rfl⟩ | rfl
    · rw [Str.lowercaseFrom_of_fixed before hfixed]
      exact .inr ⟨label.toAsciiLowercase ++ ['.'], by simp, by simp⟩
    · exact absurd rfl hhead

/-! ## Scope -/

theorem nameWithinZone_trans {a b c : Str} (hab : nameWithinZone a b = true)
    (hbc : nameWithinZone b c = true) : nameWithinZone a c = true := by
  rw [nameWithinZone_eq_true_iff] at *
  rcases hab with rfl | ⟨front, rfl, hfront⟩
  · exact hbc
  · rcases hbc with rfl | ⟨front', rfl, hfront'⟩
    · exact .inr ⟨front, rfl, hfront⟩
    · exact .inr ⟨front ++ front', by simp, by simp [hfront']⟩

theorem mem_snapshot_zones {st : StaticPart} {b : LoadedBundle} {z : Str} :
    z ∈ (buildSnapshot st (some b)).zones ↔ z ∈ st.zones ∨ ∃ r ∈ b.records, z = r.name := by
  unfold buildSnapshot
  simp only
  rw [Fold.foldl_iff (P := fun zones => z ∈ zones) (Q := fun r : DnsRecord => z = r.name)]
  intro zones r
  exact mem_pushZone

/-- With every record name inside the mesh zone, a bundle adds nothing to the scope. -/
theorem scope_of_within {auth : Authority} {b : LoadedBundle}
    (h : ∀ r ∈ b.records, nameWithinZone r.name auth.meshZone = true) (name : Str) :
    auth.isAuthoritativeForNormalised name (buildSnapshot auth.staticPart (some b)) =
      auth.isAuthoritativeForNormalised name (buildSnapshot auth.staticPart none) := by
  rw [Bool.eq_iff_iff]
  simp only [Authority.isAuthoritativeForNormalised, Bool.or_eq_true, List.any_eq_true,
    mem_snapshot_zones]
  constructor
  · rintro (hmesh | ⟨z, hz | ⟨r, hr, rfl⟩, hwithin⟩)
    · exact .inl hmesh
    · exact .inr ⟨z, hz, hwithin⟩
    · exact .inl (nameWithinZone_trans hwithin (h r hr))
  · rintro (hmesh | ⟨z, hz, hwithin⟩)
    · exact .inl hmesh
    · exact .inr ⟨z, .inl hz, hwithin⟩

end

theorem endsWith_dot_normaliseName (name : Str) : (normaliseName name).endsWith ['.'] = true := by
  rw [normaliseName_eq_spell, ← Str.intercalate_append_sep (labelsOf_ne_nil name)]
  exact Str.endsWith_iff.2 ⟨_, rfl⟩

/-- All records of an accepted bundle are inside the mesh zone, or none is. -/
theorem records_within_iff {E : Ed25519} {T : UnicodeTables} (hT : T.Sound) {files : MeshFiles}
    {zone : Str} {maxAge : Nat} {b : LoadedBundle} (hdot : zone.endsWith ['.'] = true)
    (hload : loadMeshBundle E T files zone maxAge = .ok b) :
    (∀ r ∈ b.records, nameWithinZone r.name zone = true) ↔ b.records = [] ∨ Stays T zone := by
  have hnames := mem_bundle_records hload
  constructor
  · intro h
    cases hrecs : b.records with
    | nil => exact .inl rfl
    | cons r rs =>
      have hr : r ∈ b.records := by simp [hrecs]
      obtain ⟨label, hlabel, hname⟩ := hnames r hr
      have hwithin := h r hr
      rw [hname, name_within_iff hT hlabel hdot] at hwithin
      exact .inr hwithin
  · rintro (hnil | hstays) r hr
    · simp [hnil] at hr
    · obtain ⟨label, hlabel, hname⟩ := hnames r hr
      rw [hname, name_within_iff hT hlabel hdot]
      exact hstays

/-- The scope of a new authority is the same with and without a bundle, if the mesh zone stays. -/
theorem new_scope {E : Ed25519} {T : UnicodeTables} (hT : T.Sound) {cfg : AuthorityConfig}
    {files : MeshFiles} {auth : Authority} (hnew : Authority.new E T cfg files = .ok auth)
    (hstays : Stays T (normaliseName cfg.meshZone)) (name : Str) :
    auth.isAuthoritativeFor name = auth.withoutBundle.isAuthoritativeFor name := by
  simp only [Authority.new, Checks.bind_ok_iff, Checks.pure_ok_iff] at hnew
  obtain ⟨st, -, rfl⟩ := hnew
  cases hmesh : loadMeshIfConfigured E T cfg (normaliseName cfg.meshZone) files with
  | none => rfl
  | some b =>
    have hload : loadMeshBundle E T files (normaliseName cfg.meshZone) cfg.meshZoneMaxAgeSecs =
        .ok b := by
      unfold loadMeshIfConfigured at hmesh
      split at hmesh
      · exact Checks.toOption_eq_some_iff.1 hmesh
      · cases hmesh
    have hdot := endsWith_dot_normaliseName cfg.meshZone
    exact scope_of_within ((records_within_iff hT hdot hload).2 (.inr hstays)) (normaliseName name)

/-- **When a bundle leaves the scope alone.** Applying an accepted bundle changes no answer of
`is_authoritative_for`, with every record name inside the mesh zone, exactly if the bundle is empty
or the mesh zone neither starts with a dot nor changes under `to_lowercase`. -/
theorem bundle_keeps_scope_iff {E : Ed25519} {T : UnicodeTables} (hT : T.Sound) {cfg : DnsConfig}
    {files files' : MeshFiles} {auth auth' : Authority} {b : LoadedBundle} {maxAge : Nat}
    {count : Option Nat} (hnew : Authority.new E T cfg.authority files = .ok auth)
    (hload : loadMeshBundle E T files' auth.meshZone maxAge = .ok b)
    (happly : auth.reloadMeshApply b = (.ok count, auth')) :
    (((∀ r ∈ b.records, nameWithinZone r.name auth.meshZone = true) ∧
        ∀ name, auth'.isAuthoritativeFor name = auth.withoutBundle.isAuthoritativeFor name) ↔
      b.records = [] ∨ Stays T (normaliseName cfg.authority.meshZone)) ∧
    (Stays T (normaliseName cfg.authority.meshZone) →
      ∀ name, auth'.isAuthoritativeFor name = auth.isAuthoritativeFor name) := by
  have hzone : auth.meshZone = normaliseName cfg.authority.meshZone := by
    simp only [Authority.new, Checks.bind_ok_iff, Checks.pure_ok_iff] at hnew
    obtain ⟨st, -, rfl⟩ := hnew
    rfl
  rw [← hzone]
  have hdot : auth.meshZone.endsWith ['.'] = true := hzone ▸ endsWith_dot_normaliseName _
  have hwithin := records_within_iff hT hdot hload
  have hscope : (∀ r ∈ b.records, nameWithinZone r.name auth.meshZone = true) → ∀ name,
      auth'.isAuthoritativeFor name = auth.withoutBundle.isAuthoritativeFor name := by
    intro h name
    rcases reloadMeshApply_cases auth b with ⟨e, herr⟩ | ⟨-, hok⟩
    · rw [herr] at happly
      cases happly
    · rw [hok] at happly
      cases happly
      exact scope_of_within h (normaliseName name)
  refine ⟨⟨fun h => hwithin.1 h.1, fun h => ⟨hwithin.2 h, hscope (hwithin.2 h)⟩⟩, ?_⟩
  intro hstays name
  rw [hscope (hwithin.2 (.inr hstays)), new_scope hT hnew (hzone ▸ hstays)]

/-! ## Two mesh zones -/

/-- A small config with a mesh zone. -/
def meshConfig (zone : Str) : DnsConfig where
  upstream := { resolvers := ["https://a".toList] }
  blocklist := { sources := [] }
  authority := { meshZone := zone, meshZoneBundlePath := some "b".toList,
                 meshZoneVerifierKeyPath := some "k".toList }

/-- A bundle for the zone with one record. -/
def oneRecordFiles (zone label : Str) : MeshFiles where
  keyFile := .ok (List.replicate 64 '0')
  bundleFile := .ok (WireBundle.wire
    { zone, subjectNodeId := "n".toList, generatedAtUnix := 1700000000
      expiresAtUnix := 1700000300, nonce := 1
      records := [{ label, nodeId := "n".toList, ip := 0#32, ttlSecs := 60, aliases := [] }] }
    (List.replicate 64 0))
  now := 1700000100

/-- A startup without a bundle, then a reload that applies one: what `is_authoritative_for` says of
`name` before and after, and what the reload returns. -/
def applied (zone label name : Str) : Option (Option (Option Nat) × Bool × Bool) :=
  (Authority.new sampleEd25519 .asciiOnly (meshConfig zone).authority noFiles).toOption.bind fun auth =>
    (loadMeshBundle sampleEd25519 .asciiOnly (oneRecordFiles zone label) auth.meshZone
      (meshConfig zone).authority.meshZoneMaxAgeSecs).toOption.map fun b =>
        ((auth.reloadMeshApply b).1.toOption, auth.isAuthoritativeFor name,
          (auth.reloadMeshApply b).2.isAuthoritativeFor name)

theorem exists_of_applied {zone label name : Str} {count : Option Nat} {before after : Bool}
    (h : applied zone label name = some (some count, before, after)) :
    ∃ auth auth' b,
      Authority.new sampleEd25519 .asciiOnly (meshConfig zone).authority noFiles = .ok auth ∧
      loadMeshBundle sampleEd25519 .asciiOnly (oneRecordFiles zone label) auth.meshZone
        (meshConfig zone).authority.meshZoneMaxAgeSecs = .ok b ∧
      auth.reloadMeshApply b = (.ok count, auth') ∧
      auth.isAuthoritativeFor name = before ∧ auth'.isAuthoritativeFor name = after := by
  obtain ⟨auth, hauth, hrest⟩ := Option.bind_eq_some_iff.1 h
  obtain ⟨b, hb, hview⟩ := Option.map_eq_some_iff.1 hrest
  simp only [Prod.mk.injEq] at hview
  obtain ⟨hcount, hbefore, hafter⟩ := hview
  exact ⟨auth, (auth.reloadMeshApply b).2, b, Checks.toOption_eq_some_iff.1 hauth,
    Checks.toOption_eq_some_iff.1 hb, Prod.ext (Checks.toOption_eq_some_iff.1 hcount) rfl, hbefore,
    hafter⟩

/-- With the mesh zone `.`, a bundle for the label `com` takes over all of `com.`. -/
theorem root_mesh_zone_widens :
    validateConfig (fun _ => .error "") (meshConfig ".".toList) = .ok () ∧
    ∃ auth auth' b,
      Authority.new sampleEd25519 .asciiOnly (meshConfig ".".toList).authority noFiles = .ok auth ∧
      loadMeshBundle sampleEd25519 .asciiOnly (oneRecordFiles ".".toList "com".toList) auth.meshZone
        (meshConfig ".".toList).authority.meshZoneMaxAgeSecs = .ok b ∧
      auth.reloadMeshApply b = (.ok (some 1), auth') ∧
      auth.isAuthoritativeFor "example.com".toList = false ∧
      auth'.isAuthoritativeFor "example.com".toList = true :=
  ⟨rfl, exists_of_applied (by decide +kernel)⟩

theorem bundle_keeps_scope_lab :
    ∃ auth auth' b,
      Authority.new sampleEd25519 .asciiOnly (meshConfig "Lab.".toList).authority noFiles = .ok auth ∧
      loadMeshBundle sampleEd25519 .asciiOnly (oneRecordFiles "Lab.".toList "nas".toList) auth.meshZone
        (meshConfig "Lab.".toList).authority.meshZoneMaxAgeSecs = .ok b ∧
      auth.reloadMeshApply b = (.ok (some 1), auth') ∧
      ∀ name, auth'.isAuthoritativeFor name = auth.isAuthoritativeFor name := by
  obtain ⟨auth, auth', b, hnew, hload, happly, -⟩ := exists_of_applied
    (show applied "Lab.".toList "nas".toList "com".toList = some (some (some 1), false, false) by
      decide +kernel)
  have hstays : Stays .asciiOnly (normaliseName (meshConfig "Lab.".toList).authority.meshZone) :=
    by decide
  exact ⟨auth, auth', b, hnew, hload, happly,
    (bundle_keeps_scope_iff UnicodeTables.sound_asciiOnly hnew hload happly).2 hstays⟩

end RustyDns.L2.Auth
