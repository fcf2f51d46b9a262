import RustyDns.L2Authority.BundleScope
import RustyDns.L2Authority.Chase

/-!
# Static records are served

A static record is stored under the name that `DnsRecord::new` makes of the configured one
(Unicode lower case, blanks kept) and looked up under what `normalise_name` makes of it (trimmed,
ASCII lower case). Whatever bundles are loaded afterwards, it is found if the two agree.

Results:
* `Built.afterReloads`: the static half and its share of the snapshot last through every reload.
* `static_record_served_iff`: a record is served in every config exactly if its two names agree.
-/

namespace RustyDns.L2.Auth

open RustyDns.Lib RustyDns.Lib.Labels RustyDns.L1
open RustyDns.L2.Mesh RustyDns.L2.Zone

/-- The name that a record with the configured name `name` is stored under, whatever its data. -/
def storedName (T : UnicodeTables) (name : Str) : Str := (DnsRecord.new T name (.txt []) 0).name

/-- Trimmed ASCII names are stored under the name they are looked up with. -/
theorem storedName_of_isAscii {T : UnicodeTables} {name : Str} (h : name.isAscii = true)
    (htrim : name.trim = name) : storedName T name = normaliseName name := by
  rw [normaliseName_eq_spell]
  unfold storedName DnsRecord.new labelsOf
  rw [← qualified_eq_spell, htrim]
  simp only [Str.toLowercase_of_isAscii T h]

/-! ## Runs -/

/-- The authority after reloads that found the given files. -/
def Authority.afterReloads (E : Ed25519) (T : UnicodeTables) (auth : Authority)
    (reloads : List MeshFiles) : Authority :=
  reloads.foldl (fun auth files => (auth.reloadMesh E T files).2) auth

/-- The static half is that of the config, and the snapshot was merged from it. -/
structure Built (T : UnicodeTables) (cfg : AuthorityConfig) (auth : Authority) : Prop where
  meshZone : auth.meshZone = normaliseName cfg.meshZone
  static : buildStatic T cfg = .ok auth.staticPart
  snapshot : ∃ mesh, auth.snapshot = buildSnapshot auth.staticPart mesh

section
variable {E : Ed25519} {T : UnicodeTables} {cfg : AuthorityConfig} {files : MeshFiles}
  {auth : Authority}

theorem built_new (h : Authority.new E T cfg files = .ok auth) : Built T cfg auth := by
  simp only [Authority.new, Checks.bind_ok_iff, Checks.pure_ok_iff] at h
  obtain ⟨st, hst, rfl⟩ := h
  exact ⟨rfl, hst, _, rfl⟩

theorem Built.reloadMesh (h : Built T cfg auth) (files : MeshFiles) :
    Built T cfg (auth.reloadMesh E T files).2 := by
  unfold Authority.reloadMesh
  split
  · exact h
  · exact h
  · rename_i loaded _
    rcases reloadMeshApply_cases auth loaded with ⟨e, heq⟩ | ⟨-, heq⟩
    · rw [heq]
      exact h
    · rw [heq]
      exact ⟨h.meshZone, h.static, some loaded, rfl⟩

theorem Built.afterReloads (h : Built T cfg auth) (reloads : List MeshFiles) :
    Built T cfg (auth.afterReloads E T reloads) := by
  induction reloads generalizing auth with
  | nil => exact h
  | cons files reloads ih => exact ih (h.reloadMesh files)

end

/-! ## What the static half holds -/

theorem mem_lookup_pushRecord {r : DnsRecord} {n : Str} (map : RecordMap) (rec' : DnsRecord) :
    r ∈ ((pushRecord map rec').lookup n).getD [] ↔
      r ∈ (map.lookup n).getD [] ∨ (n = rec'.name ∧ r = rec') := by
  unfold pushRecord
  by_cases hn : n = rec'.name
  · subst hn
    simp
  · rw [AList.lookup_insert_ne hn]
    simp [hn]

theorem mem_recordsAt_buildSnapshot {st : StaticPart} {r : DnsRecord} {n : Str}
    (h : r ∈ (st.records.lookup n).getD []) (mesh : Option LoadedBundle) :
    r ∈ recordsAt (buildSnapshot st mesh) n := by
  cases mesh with
  | none => exact h
  | some b =>
    exact (Fold.foldl_iff (P := fun map : RecordMap => r ∈ (map.lookup n).getD [])
      mem_lookup_pushRecord b.records st.records).2 (.inl h)

theorem mem_zones_buildSnapshot {st : StaticPart} {z : Str} (h : z ∈ st.zones)
    (mesh : Option LoadedBundle) : z ∈ (buildSnapshot st mesh).zones := by
  cases mesh with
  | none => exact h
  | some b => exact mem_snapshot_zones.2 (.inl h)

section
variable {T : UnicodeTables} {meshZone : Str} {declared : List Str}

/-- The loop over the static records: the records it stores. -/
theorem mem_records_foldlM {srs : List StaticRecord} {st st' : StaticPart}
    (h : srs.foldlM (addStaticRecord T meshZone declared) st = .ok st') {r : DnsRecord} {n : Str} :
    r ∈ (st'.records.lookup n).getD [] ↔
      r ∈ (st.records.lookup n).getD [] ∨
        ∃ sr ∈ srs, staticRecordToDnsRecord T sr = .ok r ∧ n = r.name := by
  refine Checks.foldlM_ok_iff
    (P := fun st : StaticPart => r ∈ (st.records.lookup n).getD []) ?_ h
  intro acc sr acc' hone
  obtain ⟨rec', apex, hrec, -, rfl⟩ := addStaticRecord_ok hone
  rw [mem_lookup_pushRecord, hrec, Except.ok.injEq]
  refine or_congr_right ⟨?_, ?_⟩
  · rintro ⟨hn, rfl⟩
    exact ⟨rfl, hn⟩
  · rintro ⟨rfl, hn⟩
    exact ⟨hn, rfl⟩

/-- A name is within the apex it claims: its parent, or itself. -/
theorem staticZoneApex_within {name apex : Str}
    (h : staticZoneApex T name meshZone declared = .ok apex) : nameWithinZone name apex = true := by
  have hself : ∀ x : Str, x = name → nameWithinZone name x = true := by
    rintro x rfl
    exact nameWithinZone_eq_true_iff.2 (.inl rfl)
  have hparent : ∀ l x : Str, name.splitOnce '.' = some (l, x) → nameWithinZone name x = true := by
    intro l x hsplit
    obtain ⟨hname, -⟩ := Str.splitOnce_eq_some_iff.1 hsplit
    exact nameWithinZone_eq_true_iff.2 (.inr ⟨l ++ ['.'], by simp [hname], by simp⟩)
  have hown : ∀ (e e' : RustyDnsError),
      (if name = ['.'] then .error e
        else if name ∈ declared ∨ name = meshZone then .ok name else .error e') = Except.ok apex →
      apex = name := by
    intro e e' hok
    split at hok
    · cases hok
    · split at hok
      · exact (Except.ok.inj hok).symm
      · cases hok
  unfold staticZoneApex at h
  simp only at h
  split at h
  · rename_i l parent hsplit
    split at h
    · split at h
      · cases h
      · exact hparent l apex (Except.ok.inj h ▸ hsplit)
    · exact hself apex (hown _ _ h)
  · exact hself apex (hown _ _ h)

end

/-! ## Types -/

theorem addressData_ok {α : Type} {sr : StaticRecord} {label err : String} {parse : Str → Option α}
    {mk : α → RecordData} {data : RecordData} (h : addressData sr label err parse mk = .ok data) :
    ∃ ip, data = mk ip := by
  simp only [addressData, Checks.bind_ok_iff, Checks.pure_ok_iff] at h
  obtain ⟨_, -, ip, -, rfl⟩ := h
  exact ⟨ip, rfl⟩

theorem targetData_ok {sr : StaticRecord} {label : String} {mk : Str → RecordData}
    {data : RecordData} (h : targetData sr label mk = .ok data) : ∃ target, data = mk target := by
  simp only [targetData, Checks.bind_ok_iff, Checks.pure_ok_iff] at h
  obtain ⟨target, -, rfl⟩ := h
  exact ⟨_, rfl⟩

/-- A static record has data of the type it names. -/
theorem staticRecordData_typeName {sr : StaticRecord} {rtype : Str} {data : RecordData}
    (h : staticRecordData sr rtype = .ok data) : data.typeName = rtype := by
  unfold staticRecordData at h
  split_ifs at h with hA hAAAA hCNAME hPTR hTXT hNS hMX hSRV
  · obtain ⟨_, rfl⟩ := addressData_ok h
    exact hA.symm
  · obtain ⟨_, rfl⟩ := addressData_ok h
    exact hAAAA.symm
  · obtain ⟨_, rfl⟩ := targetData_ok h
    exact hCNAME.symm
  · obtain ⟨_, rfl⟩ := targetData_ok h
    exact hPTR.symm
  · simp only [txtData, Checks.bind_ok_iff, Checks.pure_ok_iff] at h
    obtain ⟨_, -, _, -, rfl⟩ := h
    exact hTXT.symm
  · obtain ⟨_, rfl⟩ := targetData_ok h
    exact hNS.symm
  · simp only [mxData, Checks.bind_ok_iff, Checks.pure_ok_iff] at h
    obtain ⟨_, -, _, -, _, -, _, -, rfl⟩ := h
    exact hMX.symm
  · simp only [srvData, Checks.bind_ok_iff] at h
    obtain ⟨_, -, h⟩ := h
    split at h
    · simp only [Checks.bind_ok_iff, Checks.pure_ok_iff] at h
      obtain ⟨_, -, _, -, _, -, rfl⟩ := h
      exact hSRV.symm
    · cases h

/-! ## Lookups -/

/-- The lookup of the record's own name and type has the record in its answer. -/
def Serves (T : UnicodeTables) (auth : Authority) (sr : StaticRecord) : Prop :=
  ∃ rec' out, staticRecordToDnsRecord T sr = .ok rec' ∧
    auth.lookup sr.name sr.recordType = some out ∧ rec' ∈ out

section
variable {T : UnicodeTables} {cfg : AuthorityConfig} {auth : Authority} {sr : StaticRecord}

theorem staticRecordToDnsRecord_ok {rec' : DnsRecord} (h : staticRecordToDnsRecord T sr = .ok rec') :
    rec'.name = storedName T sr.name ∧ rec'.typeName = sr.recordType.trim.toAsciiUppercase := by
  simp only [staticRecordToDnsRecord, Checks.bind_ok_iff, Checks.pure_ok_iff] at h
  obtain ⟨data, hdata, rfl⟩ := h
  exact ⟨rfl, staticRecordData_typeName hdata⟩

/-- The record is in the snapshot, under its stored name and in a zone. -/
theorem Built.stored (h : Built T cfg auth) (hsr : sr ∈ cfg.staticRecords) :
    ∃ rec', staticRecordToDnsRecord T sr = .ok rec' ∧
      rec' ∈ recordsAt auth.snapshot rec'.name ∧ InZones auth auth.snapshot rec'.name := by
  obtain ⟨mesh, hsnap⟩ := h.snapshot
  have hstatic := h.static
  simp only [buildStatic, Checks.bind_ok_iff, Checks.pure_ok_iff] at hstatic
  obtain ⟨st, hfold, hst⟩ := hstatic
  obtain ⟨hall, hzones⟩ := foldlM_addStaticRecord hfold
  obtain ⟨apex, rec', hrec, hapex⟩ := hall sr hsr
  have hmem : rec' ∈ (auth.staticPart.records.lookup rec'.name).getD [] := by
    rw [← hst]
    exact (mem_records_foldlM hfold).2 (.inr ⟨sr, hsr, hrec, rfl⟩)
  have hzone : apex ∈ auth.staticPart.zones := by
    rw [← hst]
    exact mem_foldl_addDeclaredZone.2 (.inl ((hzones apex).2 (.inr ⟨sr, hsr, rec', hrec, hapex⟩)))
  refine ⟨rec', hrec, ?_, .inr ⟨apex, ?_, staticZoneApex_within hapex⟩⟩
  · rw [hsnap]
    exact mem_recordsAt_buildSnapshot hmem mesh
  · rw [hsnap]
    exact mem_zones_buildSnapshot hzone mesh

theorem Built.serves (h : Built T cfg auth) (hsr : sr ∈ cfg.staticRecords)
    (hname : storedName T sr.name = normaliseName sr.name) : Serves T auth sr := by
  obtain ⟨rec', hrec, hmem, hzones⟩ := h.stored hsr
  obtain ⟨hstored, htype⟩ := staticRecordToDnsRecord_ok hrec
  rw [hstored, hname] at hmem hzones
  have htyped : rec' ∈ typedAt auth.snapshot sr.recordType.trim.toAsciiUppercase
      (normaliseName sr.name) := List.mem_filter.2 ⟨hmem, by simp [htype]⟩
  have hany : sr.recordType.trim.toAsciiUppercase ≠ "ANY".toList := by
    rw [← htype, DnsRecord.typeName]
    cases rec'.data <;> simp [RecordData.typeName]
  refine ⟨rec', _, hrec, lookup_eq_some_iff.2 ⟨hzones, ?_⟩, htyped⟩
  unfold ReferenceAnswer
  rw [if_neg hany, if_pos (.inr (List.ne_nil_of_mem htyped))]

/-! ## Names that do not agree -/

/-- Nothing at the name gives an empty answer. -/
theorem answer_nil_of_recordsAt {name rtype : Str} {out : List DnsRecord}
    (hnil : recordsAt auth.snapshot (normaliseName name) = [])
    (h : auth.lookup name rtype = some out) : out = [] := by
  unfold recordsAt at hnil
  unfold Authority.lookup at h
  simp only at h
  split at h
  · cases h
  · rw [← Option.some.inj h]
    simp [Authority.collectWithCnameChain, hnil, firstCname]

/-- The config with `sr` alone, and no bundle. -/
def alone (cfg : AuthorityConfig) (sr : StaticRecord) : AuthorityConfig :=
  { cfg with staticRecords := [sr], meshZoneBundlePath := none }

/-- A record that is accepted among others is accepted alone, and nothing else is stored then. -/
theorem Built.alone (E : Ed25519) (h : Built T cfg auth) (hsr : sr ∈ cfg.staticRecords)
    (files : MeshFiles) :
    ∃ auth', Authority.new E T (alone cfg sr) files = .ok auth' ∧
      ∀ n, n ≠ storedName T sr.name → recordsAt auth'.snapshot n = [] := by
  have hstatic := h.static
  simp only [buildStatic, Checks.bind_ok_iff] at hstatic
  obtain ⟨st, hfold, -⟩ := hstatic
  obtain ⟨apex, rec', hrec, hapex⟩ := (foldlM_addStaticRecord hfold).1 sr hsr
  have hone : addStaticRecord T (normaliseName cfg.meshZone) (btreeSet (cfg.zones.map normaliseName))
      ⟨∅, []⟩ sr = .ok ⟨pushRecord ∅ rec', pushZone [] apex⟩ := by
    simp [addStaticRecord, hrec, hapex]
  refine ⟨_, by simp [Authority.new, buildStatic, Auth.alone, hone, loadMeshIfConfigured]; rfl, ?_⟩
  intro n hn
  rw [← (staticRecordToDnsRecord_ok hrec).1] at hn
  refine List.eq_nil_iff_forall_not_mem.2 fun r hr => ?_
  rcases (mem_lookup_pushRecord ∅ rec').1 hr with hr | ⟨heq, -⟩
  · simp at hr
  · exact hn heq

end

/-- **When static records are served.** A record of an accepted config is found under its configured
name and type, in every accepted config that has it and after any reloads, exactly if it is stored
under the name that the lookup makes of the configured one. -/
theorem static_record_served_iff (E : Ed25519) (T : UnicodeTables) {cfg : AuthorityConfig}
    {files : MeshFiles} {auth : Authority} {sr : StaticRecord}
    (hnew : Authority.new E T cfg files = .ok auth) (hsr : sr ∈ cfg.staticRecords) :
    (∀ cfg' files' auth' reloads, Authority.new E T cfg' files' = .ok auth' →
        sr ∈ cfg'.staticRecords → Serves T (auth'.afterReloads E T reloads) sr) ↔
      storedName T sr.name = normaliseName sr.name := by
  constructor
  · intro hserves
    by_contra hname
    obtain ⟨auth', hnew', hnil⟩ := (built_new hnew).alone E hsr files
    obtain ⟨rec', out, -, hout, hmem⟩ := hserves _ files auth' [] hnew' List.mem_cons_self
    rw [answer_nil_of_recordsAt (hnil _ (Ne.symm hname)) hout] at hmem
    cases hmem
  · intro hname cfg' files' auth' reloads hnew' hsr'
    exact ((built_new hnew').afterReloads reloads).serves hsr' hname

/-- A static record whose name starts with a blank. -/
def blankRecord : StaticRecord :=
  { name := " nas.home.lan".toList, recordType := "A".toList, address := some "10.0.0.5".toList,
    ttl := 60 }

def blankConfig : AuthorityConfig where
  staticRecords := [blankRecord]

/-- The config is accepted, and the lookup of the record's own name and type finds nothing. -/
theorem blank_name_not_served :
    ∃ auth, Authority.new noKeys .asciiOnly blankConfig noFiles = .ok auth ∧
      auth.lookup blankRecord.name blankRecord.recordType = some [] ∧
      ¬ Serves .asciiOnly auth blankRecord := by
  have hlookup : (Authority.new noKeys .asciiOnly blankConfig noFiles).toOption.map
      (·.lookup blankRecord.name blankRecord.recordType) = some (some []) := by decide +kernel
  obtain ⟨auth, hauth, hnil⟩ := Option.map_eq_some_iff.1 hlookup
  refine ⟨auth, Checks.toOption_eq_some_iff.1 hauth, hnil, ?_⟩
  rintro ⟨rec', out, -, hout, hmem⟩
  rw [hnil] at hout
  cases hout
  cases hmem

theorem static_record_served_iff_home :
    ∃ auth sr, Authority.new noKeys .asciiOnly homeConfig noFiles = .ok auth ∧
      sr ∈ homeConfig.staticRecords ∧
      ∀ reloads, Serves .asciiOnly (auth.afterReloads noKeys .asciiOnly reloads) sr := by
  have hsome : (Authority.new noKeys .asciiOnly homeConfig noFiles).toOption.isSome = true := by
    decide +kernel
  obtain ⟨auth, hauth⟩ := Option.isSome_iff_exists.1 hsome
  have hnew := Checks.toOption_eq_some_iff.1 hauth
  refine ⟨auth, _, hnew, List.mem_cons_self, fun reloads => ?_⟩
  exact (static_record_served_iff noKeys .asciiOnly hnew List.mem_cons_self).2
    (storedName_of_isAscii (by decide) (by decide)) _ noFiles auth reloads hnew List.mem_cons_self

end RustyDns.L2.Auth
