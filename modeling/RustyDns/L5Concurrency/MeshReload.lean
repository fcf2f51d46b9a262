import RustyDns.Lib.StampedLog
import RustyDns.L2Authority.Authority

/-!
# Concurrent mesh reloads

The poll loop and SIGHUP both call `Authority::reload_mesh`. A call reads and verifies a bundle
outside the watermark lock and applies it under the lock, so calls overlap: a slow call can hold an
old verified bundle while a newer one is applied.

`St` holds the authority, the phase of each call and, as ghost state, the log of the loads whose
bundle was applied (what each load read, and the bundle it returned). Each action is one phase of
one call; a call sees whatever files and clock it sees, so those are part of the action.

Results:
* `log_refines`: the log of applied bundles is a run of `StampedLog`, the register with rollback
  protection, so none of them is newer than the watermark (`stamp_le_mark`).
* `inv_reachable`: snapshot and watermark are those of the last applied bundle, and every applied
  bundle passed signature and freshness checks at its own load.
* `reload_mesh_never_rolls_back`: the guarantees of a whole run, with failed calls.
* `reloadMesh_run`: a call that is not interrupted is `Authority.reloadMesh`.
-/

namespace RustyDns.L5.MeshReload

open RustyDns.Lib RustyDns.L1
open RustyDns.L2.Mesh RustyDns.L2.Zone RustyDns.L2.Auth

/-- A load that succeeded: what it read, and the bundle. -/
structure Load where
  files : MeshFiles
  bundle : LoadedBundle

/-- Where a call of `reload_mesh` stands. -/
inductive Call where
  | idle
  | verified (l : Load)
  | returned (r : Except MeshBundleError (Option Nat))

structure St where
  auth : Authority
  calls : Nat → Call
  /-- Ghost: the loads applied so far, oldest first. -/
  log : List Load

inductive Act where
  /-- Call `id` reads and verifies. -/
  | load (id : Nat) (files : MeshFiles)
  /-- Call `id` takes the lock and applies. -/
  | apply (id : Nat)

def Act.id : Act → Nat
  | .load id _ => id
  | .apply id => id

def St.setCall (s : St) (id : Nat) (c : Call) : St :=
  { s with calls := Function.update s.calls id c }

section
variable (E : Ed25519) (T : UnicodeTables)

def step (s : St) : Act → Option St
  | .load id files =>
    match s.calls id with
    | .idle =>
      match s.auth.reloadMeshLoad E T files with
      | .error e => some (s.setCall id (.returned (.error e)))
      | .ok none => some (s.setCall id (.returned (.ok none)))
      | .ok (some bundle) => some (s.setCall id (.verified ⟨files, bundle⟩))
    | _ => none
  | .apply id =>
    match s.calls id with
    | .verified l =>
      match s.auth.reloadMeshApply l.bundle with
      | (.error e, auth) => some ({ s with auth }.setCall id (.returned (.error e)))
      | (.ok n, auth) => some ({ s with auth, log := s.log ++ [l] }.setCall id (.returned (.ok n)))
    | _ => none

/-- The state right after `Authority::new` read `files`. -/
def initial (cfg : AuthorityConfig) (files : MeshFiles) (auth : Authority) : St where
  auth := auth
  calls := fun _ => .idle
  log := match loadMeshIfConfigured E T cfg (normaliseName cfg.meshZone) files with
    | some bundle => [⟨files, bundle⟩]
    | none => []

def system (cfg : AuthorityConfig) : LTS St Act :=
  LTS.ofFn (fun s => ∃ files auth, Authority.new E T cfg files = .ok auth ∧
    s = initial E T cfg files auth) (step E T)

end

variable {E : Ed25519} {T : UnicodeTables} {cfg : AuthorityConfig} {s t : St} {a : Act}

/-! ## What a step can do -/

/-- A step lets a call return without touching the authority, leaves it with a verified bundle, or
applies the verified bundle it holds. -/
theorem step_cases (h : step E T s a = some t) :
    (∃ r, (∀ n, r ≠ .ok (some n)) ∧ t = s.setCall a.id (.returned r)) ∨
    (∃ l, s.auth.reloadMeshLoad E T l.files = .ok (some l.bundle) ∧
      t = s.setCall a.id (.verified l)) ∨
    (∃ l, s.calls a.id = .verified l ∧
      (∀ w, s.auth.meshWatermark = some w → ¬ stampLt (stamp l.bundle) w) ∧
      t = St.setCall { s with
        auth := { s.auth with snapshot := buildSnapshot s.auth.staticPart (some l.bundle),
                              meshWatermark := some (stamp l.bundle) }
        log := s.log ++ [l] } a.id (.returned (.ok (some l.bundle.records.length)))) := by
  cases a with
  | load id files =>
    simp only [step, Act.id] at h ⊢
    split at h
    · split at h
      · rename_i e he
        exact .inl ⟨.error e, by simp, (Option.some.inj h).symm⟩
      · exact .inl ⟨.ok none, by simp, (Option.some.inj h).symm⟩
      · rename_i bundle hb
        exact .inr (.inl ⟨⟨files, bundle⟩, hb, (Option.some.inj h).symm⟩)
    · cases h
  | apply id =>
    simp only [step, Act.id] at h ⊢
    split at h
    · rename_i l hl
      rcases reloadMeshApply_cases s.auth l.bundle with ⟨e, he⟩ | ⟨hw, hok⟩
      · rw [he] at h
        exact .inl ⟨.error e, by simp, (Option.some.inj h).symm⟩
      · rw [hok] at h
        exact .inr (.inr ⟨l, hl, hw, (Option.some.inj h).symm⟩)
    · cases h

/-- Only a call that is not finished takes a step. -/
theorem step_not_returned (h : step E T s a = some t) (r : Except MeshBundleError (Option Nat)) :
    s.calls a.id ≠ .returned r := by
  intro hr
  cases a with
  | load id files => simp [step, Act.id] at h hr; simp [hr] at h
  | apply id => simp [step, Act.id] at h hr; simp [hr] at h

/-! ## The invariant -/

/-- The checks a load goes through, under the configured zone and maximal age. -/
def Passed (E : Ed25519) (T : UnicodeTables) (cfg : AuthorityConfig) (l : Load) : Prop :=
  LoadPassed E T l.files (normaliseName cfg.meshZone) cfg.meshZoneMaxAgeSecs l.bundle

structure Inv (E : Ed25519) (T : UnicodeTables) (cfg : AuthorityConfig) (s : St) : Prop where
  config : s.auth.config = cfg
  meshZone : s.auth.meshZone = normaliseName cfg.meshZone
  static : buildStatic T cfg = .ok s.auth.staticPart
  snapshot : s.auth.snapshot = buildSnapshot s.auth.staticPart (s.log.getLast?.map Load.bundle)
  watermark : s.auth.meshWatermark = s.log.getLast?.map fun l => stamp l.bundle
  applied : ∀ l ∈ s.log, Passed E T cfg l
  pending : ∀ id l, s.calls id = .verified l → Passed E T cfg l

theorem inv_initial {files : MeshFiles} {auth : Authority}
    (h : Authority.new E T cfg files = .ok auth) : Inv E T cfg (initial E T cfg files auth) := by
  simp only [Authority.new, Checks.bind_ok_iff, Checks.pure_ok_iff] at h
  obtain ⟨st, hst, rfl⟩ := h
  unfold initial
  cases hm : loadMeshIfConfigured E T cfg (normaliseName cfg.meshZone) files with
  | none => exact ⟨rfl, rfl, hst, rfl, rfl, by simp, by simp⟩
  | some b =>
    refine ⟨rfl, rfl, hst, rfl, rfl, ?_, by simp⟩
    intro l hl
    obtain rfl : l = ⟨files, b⟩ := by simpa using hl
    unfold loadMeshIfConfigured at hm
    split at hm
    · cases hb : loadMeshBundle E T files (normaliseName cfg.meshZone) cfg.meshZoneMaxAgeSecs with
      | error e => simp [hb, Except.toOption] at hm
      | ok b' =>
        obtain rfl : b' = b := by simpa [hb, Except.toOption] using hm
        exact loadMeshBundle_cases hb
    · cases hm

/-- A verified bundle passed the checks of its load. -/
theorem passed_of_load (hi : Inv E T cfg s) {l : Load}
    (h : s.auth.reloadMeshLoad E T l.files = .ok (some l.bundle)) : Passed E T cfg l := by
  unfold Authority.reloadMeshLoad at h
  rw [hi.config, hi.meshZone] at h
  split at h
  · cases hl : loadMeshBundle E T l.files (normaliseName cfg.meshZone) cfg.meshZoneMaxAgeSecs with
    | error e => simp [hl, Except.map] at h
    | ok b =>
      obtain rfl : b = l.bundle := by simpa [hl, Except.map] using h
      exact loadMeshBundle_cases hl
  · cases h

/-- Moving one call on keeps the invariant, as long as a bundle it then holds passed. -/
theorem Inv.setCall (hi : Inv E T cfg s) (id : Nat) {c : Call}
    (hc : ∀ l, c = .verified l → Passed E T cfg l) : Inv E T cfg (s.setCall id c) := by
  obtain ⟨h1, h2, h3, h4, h5, h6, h7⟩ := hi
  refine ⟨h1, h2, h3, h4, h5, h6, fun id' l hl => ?_⟩
  by_cases hid : id' = id
  · subst hid
    exact hc l (by simpa [St.setCall] using hl)
  · exact h7 id' l (by simpa [St.setCall, hid] using hl)

theorem inv_step (hi : Inv E T cfg s) (h : step E T s a = some t) : Inv E T cfg t := by
  rcases step_cases h with ⟨r, -, rfl⟩ | ⟨l, hl, rfl⟩ | ⟨l, hl, -, rfl⟩
  · exact hi.setCall _ (by simp)
  · refine hi.setCall _ fun l' hl' => ?_
    cases hl'
    exact passed_of_load hi hl
  · refine Inv.setCall ?_ _ (by simp)
    obtain ⟨h1, h2, h3, h4, h5, h6, h7⟩ := hi
    refine ⟨h1, h2, h3, by simp, by simp, fun l' hl' => ?_, h7⟩
    rcases List.mem_append.1 hl' with hl' | hl'
    · exact h6 l' hl'
    · rw [List.mem_singleton.1 hl']
      exact h7 _ l hl

theorem inv_reachable (h : (system E T cfg).Reachable s) : Inv E T cfg s := by
  refine h.invariant ?_ fun s a t hi hst => inv_step hi hst
  rintro s ⟨files, auth, hnew, rfl⟩
  exact inv_initial hnew

/-! ## Refinement of the stamped log -/

/-- The stamp of a load in the lexicographic order. -/
def Load.stamp (l : Load) : ℕ ×ₗ ℕ := toLex (L2.Auth.stamp l.bundle)

/-- The watermark in the lexicographic order, below everything while there is none. -/
def mark (auth : Authority) : WithBot (ℕ ×ₗ ℕ) :=
  match auth.meshWatermark with
  | some w => (toLex w : ℕ ×ₗ ℕ)
  | none => ⊥

theorem stampLt_iff (a b : ℕ × ℕ) : stampLt a b ↔ (toLex a : ℕ ×ₗ ℕ) < toLex b := by
  rw [Prod.Lex.toLex_lt_toLex]
  rfl

theorem Inv.mark_eq (hi : Inv E T cfg s) : mark s.auth = StampedLog.watermark Load.stamp s.log := by
  unfold mark StampedLog.watermark
  rw [hi.watermark]
  cases s.log.getLast? <;> rfl

theorem log_step (hi : Inv E T cfg s) (h : step E T s a = some t) :
    t.log = s.log ∨ ∃ l, (StampedLog.system Load.stamp).step s.log l t.log := by
  rcases step_cases h with ⟨r, -, rfl⟩ | ⟨l, -, rfl⟩ | ⟨l, -, hw, rfl⟩
  · exact .inl rfl
  · exact .inl rfl
  · refine .inr ⟨l, ?_, rfl⟩
    rw [← hi.mark_eq]
    unfold mark
    cases hm : s.auth.meshWatermark with
    | none => exact bot_le
    | some w =>
      rw [WithBot.coe_le_coe]
      exact not_lt.1 fun hlt => hw w hm ((stampLt_iff _ _).2 hlt)

theorem log_refines (h : (system E T cfg).Reachable s) :
    (StampedLog.system Load.stamp).Reachable s.log := by
  refine h.refines St.log ?_ fun s a t hs hst => log_step (inv_reachable hs) hst
  rintro s ⟨files, auth, -, rfl⟩
  unfold initial
  split
  · exact le_rfl
  · exact Nat.zero_le 1

/-- No applied bundle is newer than the watermark. -/
theorem stamp_le_mark (h : (system E T cfg).Reachable s) :
    ∀ l ∈ s.log, (l.stamp : WithBot (ℕ ×ₗ ℕ)) ≤ mark s.auth := by
  rw [(inv_reachable h).mark_eq]
  exact (StampedLog.sorted_of_reachable (log_refines h)).le_watermark

theorem mark_le_of_step (hs : (system E T cfg).Reachable s) (h : step E T s a = some t) :
    mark s.auth ≤ mark t.auth := by
  have hi := inv_reachable hs
  rw [hi.mark_eq, (inv_step hi h).mark_eq]
  rcases log_step hi h with heq | ⟨l, hl⟩
  · rw [heq]
  · exact StampedLog.watermark_le_of_step hl

/-! ## Whole calls -/

/-- A step changes the authority only when its call returns a record count with it. -/
theorem auth_eq_or_returned_ok (h : step E T s a = some t) :
    (∃ n, t.calls a.id = .returned (.ok (some n))) ∨ t.auth = s.auth := by
  rcases step_cases h with ⟨r, -, rfl⟩ | ⟨l, -, rfl⟩ | ⟨l, -, -, rfl⟩
  · exact .inr rfl
  · exact .inr rfl
  · exact .inl ⟨l.bundle.records.length, by simp [St.setCall]⟩

theorem calls_eq_of_ne (h : step E T s a = some t) {id : Nat} (hid : id ≠ a.id) :
    t.calls id = s.calls id := by
  rcases step_cases h with ⟨r, -, rfl⟩ | ⟨l, -, rfl⟩ | ⟨l, -, -, rfl⟩
  all_goals simp [St.setCall, hid]

/-- What a call returned stays returned. -/
theorem returned_final {as : List Act} (h : (system E T cfg).Run s as t) {id : Nat}
    {r : Except MeshBundleError (Option Nat)} (hr : s.calls id = .returned r) :
    t.calls id = .returned r := by
  induction h with
  | nil => exact hr
  | cons hst _ ih =>
    refine ih ?_
    rw [calls_eq_of_ne hst, hr]
    rintro rfl
    exact step_not_returned hst r hr

/-- An uninterrupted call is `Authority.reloadMesh`: it ends with that call's result and state. -/
theorem reloadMesh_run {id : Nat} (files : MeshFiles) (hid : s.calls id = .idle) :
    ∃ as t, (system E T cfg).Run s as t ∧
      t.auth = (s.auth.reloadMesh E T files).2 ∧
      t.calls id = .returned (s.auth.reloadMesh E T files).1 := by
  unfold Authority.reloadMesh
  cases hl : s.auth.reloadMeshLoad E T files with
  | error e =>
    refine ⟨[.load id files], s.setCall id (.returned (.error e)), .cons ?_ (.nil _), rfl, ?_⟩
    · simp [system, LTS.ofFn, step, hid, hl]
    · simp [St.setCall]
  | ok o =>
    cases o with
    | none =>
      refine ⟨[.load id files], s.setCall id (.returned (.ok none)), .cons ?_ (.nil _), rfl, ?_⟩
      · simp [system, LTS.ofFn, step, hid, hl]
      · simp [St.setCall]
    | some b =>
      have hload : step E T s (.load id files) = some (s.setCall id (.verified ⟨files, b⟩)) := by
        simp [step, hid, hl]
      cases ha : s.auth.reloadMeshApply b with
      | mk r auth =>
        have happly : ∃ t, step E T (s.setCall id (.verified ⟨files, b⟩)) (.apply id) = some t ∧
            t.auth = auth ∧ t.calls id = .returned r := by
          cases r with
          | error e => exact ⟨_, by simp [step, St.setCall, ha]; rfl, rfl, by simp⟩
          | ok n => exact ⟨_, by simp [step, St.setCall, ha]; rfl, rfl, by simp⟩
        obtain ⟨t, ht, hauth, hcall⟩ := happly
        refine ⟨[.load id files, .apply id], t, .cons hload (.cons ht (.nil _)), ?_, ?_⟩
        · simp only [ha, hauth]
        · simp only [ha, hcall]

/-- **Anti-rollback**, in every state `s` that interleaved reloads reach. -/
theorem reload_mesh_never_rolls_back (E : Ed25519) (T : UnicodeTables) (cfg : AuthorityConfig)
    {s : St} (hs : (system E T cfg).Reachable s) :
    -- the watermark never decreases
    (∀ as t, (system E T cfg).Run s as t → mark s.auth ≤ mark t.auth) ∧
    -- the snapshot and the watermark are those of the most recently applied bundle
    (∃ st, buildStatic T cfg = .ok st ∧
      s.auth.snapshot = buildSnapshot st (s.log.getLast?.map Load.bundle)) ∧
    s.auth.meshWatermark = (s.log.getLast?.map fun l => stamp l.bundle) ∧
    -- every applied bundle was signed and fresh at its own load
    (∀ l ∈ s.log, LoadPassed E T l.files (normaliseName cfg.meshZone) cfg.meshZoneMaxAgeSecs
      l.bundle) ∧
    -- a step changes snapshot or watermark only if its call returns `Ok(Some(n))` with it, and
    -- what a call returned is final; so a call that returns an error changed neither
    (∀ a t, (system E T cfg).step s a t →
      (∃ n, t.calls a.id = .returned (.ok (some n))) ∨
      (t.auth.snapshot = s.auth.snapshot ∧ t.auth.meshWatermark = s.auth.meshWatermark)) ∧
    (∀ id r, s.calls id = .returned r →
      ∀ as t, (system E T cfg).Run s as t → t.calls id = .returned r) := by
  have hi := inv_reachable hs
  refine ⟨?_, ⟨_, hi.static, hi.snapshot⟩, hi.watermark, hi.applied, ?_, ?_⟩
  · intro as t hrun
    exact hrun.monotone (fun s => mark s.auth) (fun s a t hs hst => mark_le_of_step hs hst) hs
  · intro a t hst
    rcases auth_eq_or_returned_ok hst with hok | hauth
    · exact .inl hok
    · exact .inr ⟨by rw [hauth], by rw [hauth]⟩
  · intro id r hr as t hrun
    exact returned_final hrun hr

/-- A bundle file of zone `m` without records. -/
def sampleBundle (generatedAt : Nat) : List UInt8 :=
  Str.asBytes ("version=1\nzone_name=m\ngenerated_at_unix=".toList ++
    Nat.toDigits 10 generatedAt ++
    "\nexpires_at_unix=1700009999\nnonce=1\nrecord_count=0\nsignature=".toList ++
    List.replicate 128 'a')

def sampleFiles (generatedAt now : Nat) : MeshFiles where
  keyFile := .ok (List.replicate 64 '0')
  bundleFile := .ok (sampleBundle generatedAt)
  now := now

def sampleConfig : AuthorityConfig where
  meshZoneBundlePath := some "b".toList
  meshZoneVerifierKeyPath := some "k".toList
  meshZone := "m.".toList

/-- Two overlapping reloads after startup: the newer bundle is applied first, and the older one,
verified before that, is refused. -/
theorem reload_mesh_never_rolls_back_overlapping :
    ∃ s, (system sampleEd25519 .asciiOnly sampleConfig).Reachable s ∧ s.log.length = 2 ∧
      s.auth.meshWatermark = (s.log.getLast?.map fun l => stamp l.bundle) ∧
      s.auth.meshWatermark = some (1700000300, 1) := by
  let f0 := sampleFiles 1700000100 1700000200
  let f1 := sampleFiles 1700000200 1700000300
  let f2 := sampleFiles 1700000300 1700000400
  have hrun : (((Authority.new sampleEd25519 .asciiOnly sampleConfig f0).toOption.bind fun auth =>
      LTS.exec (step sampleEd25519 .asciiOnly) (initial sampleEd25519 .asciiOnly sampleConfig f0 auth)
        [.load 0 f1, .load 1 f2, .apply 1, .apply 0]).map
      fun s => (s.log.length, s.auth.meshWatermark)) = some (2, some (1700000300, 1)) := by
    decide +kernel
  obtain ⟨s, hs, hlog⟩ := Option.map_eq_some_iff.1 hrun
  obtain ⟨auth, hnew, hexec⟩ := Option.bind_eq_some_iff.1 hs
  have hnew' : Authority.new sampleEd25519 .asciiOnly sampleConfig f0 = .ok auth := by
    cases h : Authority.new sampleEd25519 .asciiOnly sampleConfig f0 with
    | error e => simp [h, Except.toOption] at hnew
    | ok auth' => simpa [h, Except.toOption] using hnew
  have hreach : (system sampleEd25519 .asciiOnly sampleConfig).Reachable s :=
    LTS.Reachable.run (.init ⟨f0, auth, hnew', rfl⟩) (.of_exec hexec)
  obtain ⟨hlen, hmark⟩ := Prod.mk.injEq .. ▸ hlog
  exact ⟨s, hreach, hlen, (reload_mesh_never_rolls_back _ _ _ hreach).2.2.1, hmark⟩

end RustyDns.L5.MeshReload
