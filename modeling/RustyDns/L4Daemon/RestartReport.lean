import RustyDns.L1Core.Config
import RustyDns.L3Resolver.RecordKey

/-!
# Settings that need a restart

A SIGHUP does not rebuild the blocklist loader and engine, the authority and the query log.
`restart_required_changes` of `rustydnsd/src/main.rs` names the settings of these that differ in the
new config, for the operator to see that they were not applied. Static records are compared by the
text of `{:?}`.

Results:
* `debugStaticRecords_inj`: that text tells the records apart.
* `unchanged_iff`: the settings listed here are all of `[blocklist]`, of `[authority]` and of the
  query log.
* `restart_report_complete_iff`: which changes are reported.
-/

namespace RustyDns.L4

open RustyDns.Lib RustyDns.L1
open RustyDns.L3 (debugList)

/-! ## The text of static records -/

def debugStaticRecord (T : UnicodeTables) (r : StaticRecord) : Str :=
  field "StaticRecord \x7b name: " (r.name.debugStr T) ++
    field ", record_type: " (r.recordType.debugStr T) ++
    field ", address: " (debugOption (Str.debugStr T) r.address) ++
    field ", target: " (debugOption (Str.debugStr T) r.target) ++
    field ", ttl: " (Nat.toDigits 10 r.ttl) ++
    field ", client_filter: " (debugOption (Str.debugStr T) r.clientFilter) ++ [' ', '\x7d']

/-- `format!("{:?}", static_records)`. -/
def debugStaticRecords (T : UnicodeTables) (records : List StaticRecord) : Str :=
  debugList (records.map (debugStaticRecord T))

theorem selfDelimiting_debugStaticRecord (T : UnicodeTables) :
    SelfDelimiting (debugStaticRecord T) := by
  intro a b x y h
  have hstr := (selfDelimiting_debugStr T).field
  have hopt := (selfDelimiting_debugStr T).debugOption.field
  have hcomma : ∀ s t : Str, (field ", client_filter: " s ++ t).head? = some ',' := fun _ _ => rfl
  simp only [debugStaticRecord, List.append_assoc] at h
  obtain ⟨hname, h⟩ := hstr _ h
  obtain ⟨htype, h⟩ := hstr _ h
  obtain ⟨haddress, h⟩ := hopt _ h
  obtain ⟨htarget, h⟩ := hopt _ h
  obtain ⟨httl, h⟩ := field_toDigits_inj (hcomma _ _) (hcomma _ _) h
  obtain ⟨hfilter, h⟩ := hopt _ h
  refine ⟨?_, List.append_cancel_left h⟩
  cases a
  cases b
  simp only [StaticRecord.mk.injEq]
  exact ⟨hname, htype, haddress, htarget, httl, hfilter⟩

/-- The text of a list, item by item. -/
theorem debugStaticRecords_cons (T : UnicodeTables) (r : StaticRecord) :
    ∀ rs : List StaticRecord, debugStaticRecords T (r :: rs) =
      '[' :: (debugStaticRecord T r ++ debugListRest (debugStaticRecord T) rs)
  | [] => by simp [debugStaticRecords, debugList, debugListRest]
  | r' :: rs => by
    have ih := debugStaticRecords_cons T r' rs
    simp only [debugStaticRecords, debugList, List.map_cons, List.cons_append, List.cons.injEq,
      true_and] at ih ⊢
    rw [List.intercalate_cons_cons, List.append_assoc, List.append_assoc, ih]
    rfl

theorem debugStaticRecords_inj (T : UnicodeTables) {a b : List StaticRecord}
    (h : debugStaticRecords T a = debugStaticRecords T b) : a = b := by
  have hitem := selfDelimiting_debugStaticRecord T
  have hnil : ∀ r rs, debugStaticRecords T [] ≠ debugStaticRecords T (r :: rs) := by
    intro r rs h
    rw [debugStaticRecords_cons] at h
    exact absurd (List.cons.inj (List.cons.inj h).2).1 (by decide)
  cases a with
  | nil =>
    cases b with
    | nil => rfl
    | cons r rs => exact absurd h (hnil r rs)
  | cons r rs =>
    cases b with
    | nil => exact absurd h.symm (hnil r rs)
    | cons r' rs' =>
      rw [debugStaticRecords_cons, debugStaticRecords_cons] at h
      obtain ⟨rfl, hrest⟩ := hitem (List.cons.inj h).2
      rw [hitem.debugListRest_inj hrest]

/-! ## The report -/

/-- One comparison: its name is pushed if the values differ. -/
def pushIf (changed : Bool) (name : String) : List String := if changed then [name] else []

/-- Paths are compared as texts. The source compares their components, so that another spelling of
one path (`a//b`, `a/./b`) is no change there.
mirrors crates/rustydnsd/src/main.rs:1437-1506 -/
def restartRequiredChanges (T : UnicodeTables) (old new : DnsConfig) : List String :=
  pushIf (old.blocklist.sources ≠ new.blocklist.sources) "blocklist.sources" ++
  pushIf (old.blocklist.localFiles ≠ new.blocklist.localFiles) "blocklist.local_files" ++
  pushIf (old.blocklist.blockResponse ≠ new.blocklist.blockResponse) "blocklist.block_response" ++
  pushIf (old.blocklist.sinkholeIp ≠ new.blocklist.sinkholeIp) "blocklist.sinkhole_ip" ++
  pushIf (old.blocklist.allowlist ≠ new.blocklist.allowlist) "blocklist.allowlist" ++
  pushIf (old.blocklist.blockCnameCloaking ≠ new.blocklist.blockCnameCloaking)
    "blocklist.block_cname_cloaking" ++
  pushIf (old.blocklist.responseIpDenylist ≠ new.blocklist.responseIpDenylist)
    "blocklist.response_ip_denylist" ++
  pushIf (old.blocklist.regexRules ≠ new.blocklist.regexRules) "blocklist.regex_rules" ++
  pushIf (old.blocklist.groups ≠ new.blocklist.groups) "blocklist.groups" ++
  pushIf (debugStaticRecords T old.authority.staticRecords ≠
    debugStaticRecords T new.authority.staticRecords) "authority.static_records" ++
  pushIf (old.authority.meshZone ≠ new.authority.meshZone) "authority.mesh_zone" ++
  pushIf (old.authority.zones ≠ new.authority.zones) "authority.zones" ++
  pushIf (old.authority.meshZoneMaxAgeSecs ≠ new.authority.meshZoneMaxAgeSecs)
    "authority.mesh_zone_max_age_secs" ++
  pushIf (old.authority.pollIntervalSecs ≠ new.authority.pollIntervalSecs)
    "authority.poll_interval_secs" ++
  pushIf (old.privacy.queryLogToDisk ≠ new.privacy.queryLogToDisk ∨
    old.privacy.queryLogDiskPath ≠ new.privacy.queryLogDiskPath) "privacy.query_log_to_disk/path"

/-! ## The settings -/

/-- A setting of `[blocklist]`, of `[authority]` or of the query log. -/
inductive Setting where
  | sources
  | trustedRpzSources
  | localFiles
  | blockResponse
  | sinkholeIp
  | reloadIntervalSecs
  | fetchTimeoutMs
  | maxFetchBytes
  | allowlist
  | blockCnameCloaking
  | responseIpDenylist
  | regexRules
  | groups
  | meshZoneBundlePath
  | meshZoneVerifierKeyPath
  | meshZoneMaxAgeSecs
  | meshZone
  | staticRecords
  | zones
  | pollIntervalSecs
  | queryLogToDisk
  | queryLogDiskPath
  | queryLogMaxFileBytes
  | queryLogMaxFiles
  | queryLogRingSize
  deriving DecidableEq, Repr

namespace Setting

def Changed (old new : DnsConfig) : Setting → Prop
  | sources => old.blocklist.sources ≠ new.blocklist.sources
  | trustedRpzSources => old.blocklist.trustedRpzSources ≠ new.blocklist.trustedRpzSources
  | localFiles => old.blocklist.localFiles ≠ new.blocklist.localFiles
  | blockResponse => old.blocklist.blockResponse ≠ new.blocklist.blockResponse
  | sinkholeIp => old.blocklist.sinkholeIp ≠ new.blocklist.sinkholeIp
  | reloadIntervalSecs => old.blocklist.reloadIntervalSecs ≠ new.blocklist.reloadIntervalSecs
  | fetchTimeoutMs => old.blocklist.fetchTimeoutMs ≠ new.blocklist.fetchTimeoutMs
  | maxFetchBytes => old.blocklist.maxFetchBytes ≠ new.blocklist.maxFetchBytes
  | allowlist => old.blocklist.allowlist ≠ new.blocklist.allowlist
  | blockCnameCloaking => old.blocklist.blockCnameCloaking ≠ new.blocklist.blockCnameCloaking
  | responseIpDenylist => old.blocklist.responseIpDenylist ≠ new.blocklist.responseIpDenylist
  | regexRules => old.blocklist.regexRules ≠ new.blocklist.regexRules
  | groups => old.blocklist.groups ≠ new.blocklist.groups
  | meshZoneBundlePath => old.authority.meshZoneBundlePath ≠ new.authority.meshZoneBundlePath
  | meshZoneVerifierKeyPath =>
    old.authority.meshZoneVerifierKeyPath ≠ new.authority.meshZoneVerifierKeyPath
  | meshZoneMaxAgeSecs => old.authority.meshZoneMaxAgeSecs ≠ new.authority.meshZoneMaxAgeSecs
  | meshZone => old.authority.meshZone ≠ new.authority.meshZone
  | staticRecords => old.authority.staticRecords ≠ new.authority.staticRecords
  | zones => old.authority.zones ≠ new.authority.zones
  | pollIntervalSecs => old.authority.pollIntervalSecs ≠ new.authority.pollIntervalSecs
  | queryLogToDisk => old.privacy.queryLogToDisk ≠ new.privacy.queryLogToDisk
  | queryLogDiskPath => old.privacy.queryLogDiskPath ≠ new.privacy.queryLogDiskPath
  | queryLogMaxFileBytes => old.privacy.queryLogMaxFileBytes ≠ new.privacy.queryLogMaxFileBytes
  | queryLogMaxFiles => old.privacy.queryLogMaxFiles ≠ new.privacy.queryLogMaxFiles
  | queryLogRingSize => old.privacy.queryLogRingSize ≠ new.privacy.queryLogRingSize

/-- The name a change is reported under: the path of the setting in the config file, and one name
for the two settings that switch the on-disk log. -/
def label : Setting → String
  | sources => "blocklist.sources"
  | trustedRpzSources => "blocklist.trusted_rpz_sources"
  | localFiles => "blocklist.local_files"
  | blockResponse => "blocklist.block_response"
  | sinkholeIp => "blocklist.sinkhole_ip"
  | reloadIntervalSecs => "blocklist.reload_interval_secs"
  | fetchTimeoutMs => "blocklist.fetch_timeout_ms"
  | maxFetchBytes => "blocklist.max_fetch_bytes"
  | allowlist => "blocklist.allowlist"
  | blockCnameCloaking => "blocklist.block_cname_cloaking"
  | responseIpDenylist => "blocklist.response_ip_denylist"
  | regexRules => "blocklist.regex_rules"
  | groups => "blocklist.groups"
  | meshZoneBundlePath => "authority.mesh_zone_bundle_path"
  | meshZoneVerifierKeyPath => "authority.mesh_zone_verifier_key_path"
  | meshZoneMaxAgeSecs => "authority.mesh_zone_max_age_secs"
  | meshZone => "authority.mesh_zone"
  | staticRecords => "authority.static_records"
  | zones => "authority.zones"
  | pollIntervalSecs => "authority.poll_interval_secs"
  | queryLogToDisk | queryLogDiskPath => "privacy.query_log_to_disk/path"
  | queryLogMaxFileBytes => "privacy.query_log_max_file_bytes"
  | queryLogMaxFiles => "privacy.query_log_max_files"
  | queryLogRingSize => "privacy.query_log_ring_size"

/-- The settings that nothing compares. -/
def unreported : List Setting :=
  [trustedRpzSources, reloadIntervalSecs, fetchTimeoutMs, maxFetchBytes, meshZoneBundlePath,
    meshZoneVerifierKeyPath, queryLogMaxFileBytes, queryLogMaxFiles, queryLogRingSize]

end Setting

/-- The settings of the query log. -/
@[ext] structure QueryLogSettings where
  toDisk : Bool
  diskPath : Option Str
  maxFileBytes : Nat
  maxFiles : Nat
  ringSize : Nat
  deriving DecidableEq, Repr

def queryLogSettings (privacy : PrivacyConfig) : QueryLogSettings where
  toDisk := privacy.queryLogToDisk
  diskPath := privacy.queryLogDiskPath
  maxFileBytes := privacy.queryLogMaxFileBytes
  maxFiles := privacy.queryLogMaxFiles
  ringSize := privacy.queryLogRingSize

section
variable {T : UnicodeTables} {old new : DnsConfig}

/-- No setting is missing in the list. -/
theorem unchanged_iff : (∀ s : Setting, ¬ s.Changed old new) ↔
    old.blocklist = new.blocklist ∧ old.authority = new.authority ∧
      queryLogSettings old.privacy = queryLogSettings new.privacy := by
  constructor
  · intro h
    refine ⟨BlocklistConfig.ext ?_ ?_ ?_ ?_ ?_ ?_ ?_ ?_ ?_ ?_ ?_ ?_ ?_,
      AuthorityConfig.ext ?_ ?_ ?_ ?_ ?_ ?_ ?_, QueryLogSettings.ext ?_ ?_ ?_ ?_ ?_⟩
    · exact not_not.1 (h .sources)
    · exact not_not.1 (h .trustedRpzSources)
    · exact not_not.1 (h .localFiles)
    · exact not_not.1 (h .blockResponse)
    · exact not_not.1 (h .sinkholeIp)
    · exact not_not.1 (h .reloadIntervalSecs)
    · exact not_not.1 (h .fetchTimeoutMs)
    · exact not_not.1 (h .maxFetchBytes)
    · exact not_not.1 (h .allowlist)
    · exact not_not.1 (h .blockCnameCloaking)
    · exact not_not.1 (h .responseIpDenylist)
    · exact not_not.1 (h .regexRules)
    · exact not_not.1 (h .groups)
    · exact not_not.1 (h .meshZoneBundlePath)
    · exact not_not.1 (h .meshZoneVerifierKeyPath)
    · exact not_not.1 (h .meshZoneMaxAgeSecs)
    · exact not_not.1 (h .meshZone)
    · exact not_not.1 (h .staticRecords)
    · exact not_not.1 (h .zones)
    · exact not_not.1 (h .pollIntervalSecs)
    · exact not_not.1 (h .queryLogToDisk)
    · exact not_not.1 (h .queryLogDiskPath)
    · exact not_not.1 (h .queryLogMaxFileBytes)
    · exact not_not.1 (h .queryLogMaxFiles)
    · exact not_not.1 (h .queryLogRingSize)
  · rintro ⟨hblocklist, hauthority, hlog⟩ s
    simp only [queryLogSettings, QueryLogSettings.mk.injEq] at hlog
    cases s <;> simp [Setting.Changed, hblocklist, hauthority, hlog]

theorem mem_pushIf {changed : Prop} [Decidable changed] {name x : String} :
    x ∈ pushIf changed name ↔ changed ∧ x = name := by
  unfold pushIf
  split <;> simp_all

/-- A changed setting is reported exactly if something compares it. -/
theorem label_mem_report {s : Setting} (h : s.Changed old new) :
    s.label ∈ restartRequiredChanges T old new ↔ s ∉ Setting.unreported := by
  have hrecords : old.authority.staticRecords ≠ new.authority.staticRecords →
      debugStaticRecords T old.authority.staticRecords ≠
        debugStaticRecords T new.authority.staticRecords := mt (debugStaticRecords_inj T)
  simp only [restartRequiredChanges, List.mem_append, mem_pushIf]
  cases s <;> simp_all [Setting.label, Setting.unreported, Setting.Changed]

/-- Every name in the report is that of a changed setting. -/
theorem exists_changed_of_mem_report {x : String} (h : x ∈ restartRequiredChanges T old new) :
    ∃ s ∉ Setting.unreported, s.Changed old new ∧ s.label = x := by
  simp only [restartRequiredChanges, List.mem_append, mem_pushIf] at h
  rcases h with (((((((((((((h | h) | h) | h) | h) | h) | h) | h) | h) | h) | h) | h) | h) | h) | h
  · exact ⟨.sources, by decide, h.1, h.2.symm⟩
  · exact ⟨.localFiles, by decide, h.1, h.2.symm⟩
  · exact ⟨.blockResponse, by decide, h.1, h.2.symm⟩
  · exact ⟨.sinkholeIp, by decide, h.1, h.2.symm⟩
  · exact ⟨.allowlist, by decide, h.1, h.2.symm⟩
  · exact ⟨.blockCnameCloaking, by decide, h.1, h.2.symm⟩
  · exact ⟨.responseIpDenylist, by decide, h.1, h.2.symm⟩
  · exact ⟨.regexRules, by decide, h.1, h.2.symm⟩
  · exact ⟨.groups, by decide, h.1, h.2.symm⟩
  · exact ⟨.staticRecords, by decide, mt (congrArg (debugStaticRecords T)) h.1, h.2.symm⟩
  · exact ⟨.meshZone, by decide, h.1, h.2.symm⟩
  · exact ⟨.zones, by decide, h.1, h.2.symm⟩
  · exact ⟨.meshZoneMaxAgeSecs, by decide, h.1, h.2.symm⟩
  · exact ⟨.pollIntervalSecs, by decide, h.1, h.2.symm⟩
  · rcases h.1 with hchanged | hchanged
    · exact ⟨.queryLogToDisk, by decide, hchanged, h.2.symm⟩
    · exact ⟨.queryLogDiskPath, by decide, hchanged, h.2.symm⟩

theorem report_eq_nil_iff : restartRequiredChanges T old new = [] ↔
    ∀ s : Setting, s.Changed old new → s ∈ Setting.unreported := by
  constructor
  · intro hnil s hchanged
    by_contra hs
    have hmem := (label_mem_report (T := T) hchanged).2 hs
    rw [hnil] at hmem
    cases hmem
  · intro h
    refine List.eq_nil_iff_forall_not_mem.2 fun x hx => ?_
    obtain ⟨s, hs, hchanged, -⟩ := exists_changed_of_mem_report hx
    exact hs (h s hchanged)

/-- **Which changes are reported**: every changed setting is named in the report exactly if none of
the settings that nothing compares has changed. An empty report means that no setting has changed
exactly if the same holds, or else another change keeps the report from being empty. -/
theorem restart_report_complete_iff (T : UnicodeTables) (old new : DnsConfig) :
    ((∀ s : Setting, s.Changed old new → s.label ∈ restartRequiredChanges T old new) ↔
      ∀ s ∈ Setting.unreported, ¬ s.Changed old new) ∧
    ((restartRequiredChanges T old new = [] → ∀ s : Setting, ¬ s.Changed old new) ↔
      (∀ s ∈ Setting.unreported, ¬ s.Changed old new) ∨
        ∃ s ∉ Setting.unreported, s.Changed old new) := by
  refine ⟨⟨?_, ?_⟩, ?_, ?_⟩
  · intro h s hs hchanged
    exact (label_mem_report hchanged).1 (h s hchanged) hs
  · intro h s hchanged
    exact (label_mem_report hchanged).2 fun hs => h s hs hchanged
  · intro h
    by_contra hcon
    rw [not_or, not_exists] at hcon
    refine hcon.1 fun s _ => h (report_eq_nil_iff.2 fun s hs => ?_) s
    by_contra hmem
    exact hcon.2 s ⟨hmem, hs⟩
  · rintro (hsame | ⟨s, hs, hchanged⟩) hnil
    · intro s hchanged
      exact hsame s (report_eq_nil_iff.1 hnil s hchanged) hchanged
    · exact absurd (report_eq_nil_iff.1 hnil s hchanged) hs

end

end RustyDns.L4
