import RustyDns.L2Authority.Mesh
import RustyDns.L2Authority.Zone

/-!
# The authority

`rustydns-authority/src/lib.rs`: the static half that `Authority::new` builds once, the snapshot
merged from it and a mesh bundle, `reload_mesh` with its anti-rollback watermark, and the test
whether a name is in a zone of the authority.

`reload_mesh` has two phases. The first reads and verifies a bundle and touches nothing shared
(`reloadMeshLoad`); the second runs under the watermark lock (`reloadMeshApply`). `reloadMesh` is
the call as a whole, one phase after the other with nothing in between.
-/

namespace RustyDns.L2.Auth

open RustyDns.Lib RustyDns.L1
open RustyDns.L2.Mesh RustyDns.L2.Zone
open RustyDns.Lib.Checks (reject)

/-- `HashMap<String, Vec<DnsRecord>>`. -/
abbrev RecordMap := AList (fun _ : Str => List DnsRecord)

/-- `map.entry(rec.name).or_default().push(rec)`. -/
def pushRecord (map : RecordMap) (rec : DnsRecord) : RecordMap :=
  map.insert rec.name ((map.lookup rec.name).getD [] ++ [rec])

/-- `if !zones.iter().any(|z| z == zone) { zones.push(zone) }`. -/
def pushZone (zones : List Str) (zone : Str) : List Str :=
  if zone ∈ zones then zones else zones ++ [zone]

/-- mirrors crates/rustydns-authority/src/lib.rs:65-70 -/
structure Snapshot where
  zones : List Str
  records : RecordMap

/-- The static half of the authority, fixed at startup. -/
structure StaticPart where
  records : RecordMap
  zones : List Str

/-- mirrors crates/rustydns-authority/src/lib.rs:81-108 -/
structure Authority where
  config : AuthorityConfig
  meshZone : Str
  staticPart : StaticPart
  snapshot : Snapshot
  meshWatermark : Option (Nat × Nat)

/-! ## Construction -/

/-- One turn of the loop over `config.static_records` in `new`. -/
def addStaticRecord (T : UnicodeTables) (meshZone : Str) (declared : List Str) (st : StaticPart)
    (sr : StaticRecord) : Except RustyDnsError StaticPart := do
  let rec' ← staticRecordToDnsRecord T sr
  let apex ← staticZoneApex T rec'.name meshZone declared
  pure { records := pushRecord st.records rec', zones := pushZone st.zones apex }

/-- One turn of the loop over the declared zones in `new`. -/
def addDeclaredZone (meshZone : Str) (zones : List Str) (zone : Str) : List Str :=
  if zone ≠ meshZone then pushZone zones zone else zones

/-- mirrors crates/rustydns-authority/src/lib.rs:124-159: `new` up to the mesh load. -/
def buildStatic (T : UnicodeTables) (config : AuthorityConfig) :
    Except RustyDnsError StaticPart := do
  let meshZone := normaliseName config.meshZone
  let declared := btreeSet (config.zones.map normaliseName)
  let st ← config.staticRecords.foldlM (addStaticRecord T meshZone declared) ⟨∅, []⟩
  pure { st with zones := declared.foldl (addDeclaredZone meshZone) st.zones }

/-- mirrors crates/rustydns-authority/src/lib.rs:494-515 -/
def buildSnapshot (st : StaticPart) (mesh : Option LoadedBundle) : Snapshot :=
  match mesh with
  | none => { zones := st.zones, records := st.records }
  | some loaded =>
    { zones := loaded.records.foldl (fun zones rec => pushZone zones rec.name) st.zones
      records := loaded.records.foldl pushRecord st.records }

/-- mirrors crates/rustydns-authority/src/lib.rs:519-546 -/
def loadMeshIfConfigured (E : Ed25519) (T : UnicodeTables) (config : AuthorityConfig)
    (meshZone : Str) (files : MeshFiles) : Option LoadedBundle :=
  match config.meshZoneBundlePath, config.meshZoneVerifierKeyPath with
  | some _, some _ => (loadMeshBundle E T files meshZone config.meshZoneMaxAgeSecs).toOption
  | _, _ => none

/-- What a bundle is ordered by: `(generated_at_unix, nonce)`. -/
def stamp (b : LoadedBundle) : Nat × Nat := (b.generatedAtUnix, b.nonce)

/-- mirrors crates/rustydns-authority/src/lib.rs:124-187 -/
def Authority.new (E : Ed25519) (T : UnicodeTables) (config : AuthorityConfig) (files : MeshFiles) :
    Except RustyDnsError Authority := do
  let meshZone := normaliseName config.meshZone
  let staticPart ← buildStatic T config
  let mesh := loadMeshIfConfigured E T config meshZone files
  pure { config, meshZone, staticPart
         snapshot := buildSnapshot staticPart mesh
         meshWatermark := mesh.map stamp }

/-! ## Reload -/

/-- Rust's `<` on `(u64, u64)`. -/
def stampLt (a b : Nat × Nat) : Prop := a.1 < b.1 ∨ (a.1 = b.1 ∧ a.2 < b.2)

instance (a b : Nat × Nat) : Decidable (stampLt a b) :=
  inferInstanceAs (Decidable (_ ∨ _))

/-- The first phase of `reload_mesh`; `ok none` when no bundle is configured.
mirrors crates/rustydns-authority/src/lib.rs:222-239 -/
def Authority.reloadMeshLoad (E : Ed25519) (T : UnicodeTables) (auth : Authority) (files : MeshFiles) :
    Except MeshBundleError (Option LoadedBundle) :=
  match auth.config.meshZoneBundlePath, auth.config.meshZoneVerifierKeyPath with
  | some _, some _ =>
    (loadMeshBundle E T files auth.meshZone auth.config.meshZoneMaxAgeSecs).map some
  | _, _ => .ok none

/-- The second phase, under the lock: refuse a rollback, or store the snapshot and the watermark.
mirrors crates/rustydns-authority/src/lib.rs:240-277 -/
def Authority.reloadMeshApply (auth : Authority) (loaded : LoadedBundle) :
    Except MeshBundleError (Option Nat) × Authority :=
  let candidate := stamp loaded
  let store := (.ok (some loaded.records.length),
    { auth with snapshot := buildSnapshot auth.staticPart (some loaded),
                meshWatermark := some candidate })
  match auth.meshWatermark with
  | some current =>
    if stampLt candidate current then
      (.error (.rollback candidate.1 candidate.2 current.1 current.2), auth)
    else store
  | none => store

/-- The lock phase refuses a bundle older than the watermark and changes nothing, or stores it. -/
theorem reloadMeshApply_cases (auth : Authority) (b : LoadedBundle) :
    (∃ e, auth.reloadMeshApply b = (.error e, auth)) ∨
    ((∀ w, auth.meshWatermark = some w → ¬ stampLt (stamp b) w) ∧
      auth.reloadMeshApply b = (.ok (some b.records.length),
        { auth with snapshot := buildSnapshot auth.staticPart (some b),
                    meshWatermark := some (stamp b) })) := by
  unfold Authority.reloadMeshApply
  cases hw : auth.meshWatermark with
  | none => exact .inr ⟨by simp, rfl⟩
  | some w =>
    by_cases hlt : stampLt (stamp b) w
    · exact .inl ⟨_, by simp [hlt]; rfl⟩
    · exact .inr ⟨by simp [hlt], by simp [hlt]⟩

/-- mirrors crates/rustydns-authority/src/lib.rs:221-278 -/
def Authority.reloadMesh (E : Ed25519) (T : UnicodeTables) (auth : Authority) (files : MeshFiles) :
    Except MeshBundleError (Option Nat) × Authority :=
  match auth.reloadMeshLoad E T files with
  | .error e => (.error e, auth)
  | .ok none => (.ok none, auth)
  | .ok (some loaded) => auth.reloadMeshApply loaded

/-- A reload keeps the configuration. -/
theorem Authority.reloadMesh_config (E : Ed25519) (T : UnicodeTables) (auth : Authority)
    (files : MeshFiles) : (auth.reloadMesh E T files).2.config = auth.config := by
  unfold Authority.reloadMesh
  split
  · rfl
  · rfl
  · rename_i loaded _
    rcases reloadMeshApply_cases auth loaded with ⟨e, h⟩ | ⟨-, h⟩
    · rw [h]
    · rw [h]

/-! ## Lookups -/

/-- mirrors crates/rustydns-authority/src/lib.rs:324-329 -/
def Authority.isAuthoritativeForNormalised (auth : Authority) (name : Str) (snap : Snapshot) : Bool :=
  nameWithinZone name auth.meshZone || snap.zones.any (nameWithinZone name)

/-- mirrors crates/rustydns-authority/src/lib.rs:318-322 -/
def Authority.isAuthoritativeFor (auth : Authority) (name : Str) : Bool :=
  auth.isAuthoritativeForNormalised (normaliseName name) auth.snapshot

end RustyDns.L2.Auth
