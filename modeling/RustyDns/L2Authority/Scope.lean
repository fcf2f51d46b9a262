import RustyDns.L2Authority.Authority
import RustyDns.Lib.Fold
import RustyDns.Lib.Labels

/-!
# The names the authority answers for

`is_authoritative_for` compares texts: a name is within a zone if it ends with the zone's text and a
dot stands before that. Here a name is a list of labels (`labelsOf`), and the authority's scope is
stated on labels.

Results:
* `normaliseName_eq_spell`: every normalised name is the spelling of its labels.
* `nameWithinZone_iff`: the test on texts is the suffix test on labels.
* `staticZoneApex_ok`: the apex of a static record, and that a single label is claimed only if it is
  the mesh zone or declared.
* `authority_scope`: the exact scope of an authority without a mesh bundle.
-/

namespace RustyDns.L2.Auth

open RustyDns.Lib RustyDns.Lib.Labels RustyDns.L1
open RustyDns.L2.Mesh RustyDns.L2.Zone

/-- The labels of a name: blanks around it, ASCII case and one trailing dot do not count. -/
def labelsOf (name : Str) : List Str :=
  let lower := name.trim.toAsciiLowercase
  pieces '.' ((lower.stripEnd ['.']).getD lower)

example : labelsOf " WWW.Example.com. ".toList =
    ["www".toList, "example".toList, "com".toList] := by decide

theorem apart_labelsOf (name : Str) : Apart '.' (labelsOf name) := apart_pieces _ _

theorem labelsOf_ne_nil (name : Str) : labelsOf name ≠ [] := pieces_ne_nil _ _

theorem trim_concat_dot (t : Str) :
    Str.trim (t ++ ['.']) = t.dropWhile Str.isWhitespace ++ ['.'] := by
  have hdot : Str.isWhitespace '.' = false := by decide
  unfold Str.trim
  rw [List.dropWhile_append]
  split
  · rename_i hnil
    rw [List.isEmpty_iff.1 hnil]
    decide
  · exact List.rdropWhile_concat_neg _ _ _ (by simp [hdot])

/-- A text without a dot is one label. -/
theorem labelsOf_concat_dot {t : Str} (h : '.' ∉ t) :
    labelsOf (t ++ ['.']) = [Str.toAsciiLowercase (t.dropWhile Str.isWhitespace)] := by
  have hlower : Str.toAsciiLowercase (t.dropWhile Str.isWhitespace ++ ['.']) =
      Str.toAsciiLowercase (t.dropWhile Str.isWhitespace) ++ ['.'] := by
    simp [Str.toAsciiLowercase]
  have hdots : '.' ∉ Str.toAsciiLowercase (t.dropWhile Str.isWhitespace) := by
    rw [Str.dot_mem_toAsciiLowercase]
    exact fun hmem => h (List.dropWhile_subset _ hmem)
  unfold labelsOf
  simp only
  rw [trim_concat_dot, hlower, Str.stripEnd_eq_some_iff.2 rfl]
  exact pieces_of_notMem hdots

/-! ## Normalised names -/

/-- A text with its trailing dot is the spelling of its pieces. -/
theorem qualified_eq_spell (n : Str) :
    (if n.endsWith ['.'] then n else n ++ ['.']) =
      spell '.' (pieces '.' ((n.stripEnd ['.']).getD n)) := by
  rw [spell_pieces]
  unfold Str.endsWith
  cases h : n.stripEnd ['.'] with
  | none => simp
  | some front =>
    rw [Str.stripEnd_eq_some_iff] at h
    simp [h]

theorem endsWith_dot_toAsciiLowercase (s : Str) :
    s.toAsciiLowercase.endsWith ['.'] = s.endsWith ['.'] := by
  rw [Bool.eq_iff_iff, Str.endsWith_iff, Str.endsWith_iff]
  constructor
  · rintro ⟨front, h⟩
    obtain ⟨a, b, rfl, -, hb⟩ := List.map_eq_append_iff.1 h
    obtain ⟨c, rfl, hc⟩ := List.map_eq_singleton_iff.1 hb
    rw [Str.toLower_eq_dot_iff] at hc
    exact ⟨a, by rw [hc]⟩
  · rintro ⟨front, rfl⟩
    exact ⟨front.toAsciiLowercase, by simp [Str.toAsciiLowercase]⟩

theorem normaliseName_eq_spell (name : Str) : normaliseName name = spell '.' (labelsOf name) := by
  unfold labelsOf
  rw [← qualified_eq_spell, endsWith_dot_toAsciiLowercase]
  unfold normaliseName
  simp only
  split
  · -- the name is borrowed: it is trimmed already and has no upper case
    rename_i h
    simp only [Bool.and_eq_true, Bool.not_eq_true', beq_iff_eq] at h
    obtain ⟨⟨hdot, hupper⟩, hlen⟩ := h
    rw [if_pos hdot, Str.toAsciiLowercase_of_not_upper hupper]
    exact (Str.eq_of_infix_of_byteLen (Str.trim_infix name) hlen).symm
  · cases name.trim.endsWith ['.'] <;> rfl

/-- ASCII text without blanks. -/
def PlainAscii (name : Str) : Prop :=
  name.isAscii = true ∧ ∀ c ∈ name, Str.isWhitespace c = false

theorem name_new {T : UnicodeTables} {name : Str} (h : PlainAscii name) (data : RecordData)
    (ttl : Nat) : (DnsRecord.new T name data ttl).name = spell '.' (labelsOf name) := by
  unfold labelsOf DnsRecord.new
  rw [← qualified_eq_spell, Str.trim_of_no_blank h.2]
  simp only [Str.toLowercase_of_isAscii T h.1]

/-! ## Zones -/

theorem nameWithinZone_eq_true_iff {name zone : Str} : nameWithinZone name zone = true ↔
    name = zone ∨ ∃ front, name = front ++ zone ∧ front.getLast? = some '.' := by
  unfold nameWithinZone
  rw [Bool.or_eq_true, beq_iff_eq, Bool.and_eq_true, decide_eq_true_eq]
  refine or_congr_right ?_
  constructor
  · rintro ⟨-, h⟩
    split at h
    · rename_i front hfront
      exact ⟨front, Str.stripEnd_eq_some_iff.1 hfront, by simpa using h⟩
    · cases h
  · rintro ⟨front, rfl, hlast⟩
    have hne : front ≠ [] := by
      rintro rfl
      cases hlast
    have hpos := Str.byteLen_pos hne
    refine ⟨by rw [Str.byteLen_append]; omega, ?_⟩
    rw [Str.stripEnd_eq_some_iff.2 rfl]
    simp [hlast]

/-- **Label boundaries**: a name is within a zone when it ends with the zone's labels. -/
theorem nameWithinZone_iff {a b : List Str} (ha : Apart '.' a) (hb : Apart '.' b) :
    nameWithinZone (spell '.' a) (spell '.' b) = true ↔ b <:+ a := by
  rw [nameWithinZone_eq_true_iff, spell_suffix_iff ha hb]

/-- The parent of a name, or the name itself if it has one label. -/
def parentOrSelf : List Str → List Str
  | _ :: l :: ls => l :: ls
  | ls => ls

theorem apart_parentOrSelf {ls : List Str} (h : Apart '.' ls) : Apart '.' (parentOrSelf ls) := by
  unfold parentOrSelf
  split
  · exact (apart_cons.1 h).2
  · exact h

theorem parentOrSelf_ne_nil {ls : List Str} (h : ls ≠ []) : parentOrSelf ls ≠ [] := by
  unfold parentOrSelf
  split
  · exact List.cons_ne_nil _ _
  · exact h

/-- The apex of a record is its parent; one label is an apex only with a declaration. -/
theorem staticZoneApex_ok {T : UnicodeTables} {l : Str} {ls : List Str} {meshZone apex : Str}
    {declared : List Str} (hls : Apart '.' (l :: ls))
    (h : staticZoneApex T (spell '.' (l :: ls)) meshZone declared = .ok apex) :
    apex = spell '.' (parentOrSelf (l :: ls)) ∧
      ((parentOrSelf (l :: ls)).length = 1 → apex = meshZone ∨ apex ∈ declared) := by
  have hsplit : Str.splitOnce '.' (spell '.' (l :: ls)) = some (l, spell '.' ls) := by
    rw [Str.splitOnce_eq_some_iff, spell_cons]
    exact ⟨rfl, (apart_cons.1 hls).1⟩
  unfold staticZoneApex at h
  simp only [hsplit] at h
  cases ls with
  | nil =>
    -- one label: the name is its own apex
    rw [if_neg (by simp)] at h
    split at h
    · cases h
    · split at h
      · rename_i hdecl
        cases h
        exact ⟨rfl, fun _ => hdecl.symm⟩
      · cases h
  | cons m ms =>
    rw [if_pos (by simp)] at h
    split at h
    · cases h
    · rename_i hcond
      cases h
      refine ⟨rfl, fun hlen => ?_⟩
      -- the parent is one label, so it has no dot before the last one
      obtain rfl : ms = [] := by simpa [parentOrSelf] using hlen
      have hsingle : '.' ∉ (spell '.' [m]).dropLast := by
        simpa using (apart_cons.1 (apart_cons.1 hls).2).1
      by_contra hno
      rw [not_or] at hno
      exact hcond ⟨hsingle, hno⟩

/-! ## Construction -/

section
variable {T : UnicodeTables} {meshZone : Str} {declared : List Str}

/-- `z` is the apex that the static record `sr` claims. -/
def Claims (T : UnicodeTables) (meshZone : Str) (declared : List Str) (sr : StaticRecord) (z : Str) :
    Prop :=
  ∃ rec', staticRecordToDnsRecord T sr = .ok rec' ∧
    staticZoneApex T rec'.name meshZone declared = .ok z

theorem mem_pushZone {zones : List Str} {zone z : Str} :
    z ∈ pushZone zones zone ↔ z ∈ zones ∨ z = zone := by
  unfold pushZone
  split
  · rename_i hmem
    constructor
    · exact .inl
    · rintro (h | rfl)
      · exact h
      · exact hmem
  · simp

/-- One turn of the loop: the record has an apex, and that is the zone it adds. -/
theorem addStaticRecord_ok {st st' : StaticPart} {sr : StaticRecord}
    (h : addStaticRecord T meshZone declared st sr = .ok st') :
    ∃ rec' apex, staticRecordToDnsRecord T sr = .ok rec' ∧
      (∀ z, Claims T meshZone declared sr z ↔ z = apex) ∧
      st' = ⟨pushRecord st.records rec', pushZone st.zones apex⟩ := by
  simp only [addStaticRecord, Checks.bind_ok_iff, Checks.pure_ok_iff] at h
  obtain ⟨rec', hrec, apex, hapex, rfl⟩ := h
  refine ⟨rec', apex, hrec, fun z => ⟨?_, ?_⟩, rfl⟩
  · rintro ⟨rec'', hrec', hz⟩
    rw [hrec] at hrec'
    cases hrec'
    rw [hapex] at hz
    cases hz
    rfl
  · rintro rfl
    exact ⟨rec', hrec, hapex⟩

/-- The loop over the static records: each has an apex, and these are the zones it adds. -/
theorem foldlM_addStaticRecord {srs : List StaticRecord} {st st' : StaticPart}
    (h : srs.foldlM (addStaticRecord T meshZone declared) st = .ok st') :
    (∀ sr ∈ srs, ∃ z, Claims T meshZone declared sr z) ∧
      ∀ z, z ∈ st'.zones ↔ z ∈ st.zones ∨ ∃ sr ∈ srs, Claims T meshZone declared sr z := by
  constructor
  · intro sr hsr
    obtain ⟨_, _, hone⟩ := Checks.exists_of_mem_foldlM h sr hsr
    obtain ⟨_, apex, -, hclaim, -⟩ := addStaticRecord_ok hone
    exact ⟨apex, (hclaim apex).2 rfl⟩
  · intro z
    refine Checks.foldlM_ok_iff (P := fun st : StaticPart => z ∈ st.zones) ?_ h
    intro acc sr acc' hone
    obtain ⟨_, apex, -, hclaim, rfl⟩ := addStaticRecord_ok hone
    rw [mem_pushZone, hclaim]

/-- The loop over the declared zones. -/
theorem mem_foldl_addDeclaredZone {zones : List Str} {z : Str} :
    z ∈ declared.foldl (addDeclaredZone meshZone) zones ↔
      z ∈ zones ∨ (z ∈ declared ∧ z ≠ meshZone) := by
  rw [Fold.foldl_iff (P := fun zones => z ∈ zones) (Q := fun zone => z = zone ∧ z ≠ meshZone)]
  · simp
  · intro zones zone
    unfold addDeclaredZone
    split
    · rename_i hne
      rw [mem_pushZone]
      constructor
      · rintro (h | rfl)
        · exact .inl h
        · exact .inr ⟨rfl, hne⟩
      · rintro (h | ⟨rfl, -⟩)
        · exact .inl h
        · exact .inr rfl
    · rename_i heq
      rw [not_not] at heq
      constructor
      · exact .inl
      · rintro (h | ⟨rfl, hne⟩)
        · exact h
        · exact absurd heq hne

/-- What a static record with a plain name claims. -/
theorem Claims.labels {sr : StaticRecord} {z : Str} (h : Claims T meshZone declared sr z)
    (hplain : PlainAscii sr.name) :
    z = spell '.' (parentOrSelf (labelsOf sr.name)) ∧
      ((parentOrSelf (labelsOf sr.name)).length = 1 → z = meshZone ∨ z ∈ declared) := by
  obtain ⟨rec', hrec, hz⟩ := h
  simp only [staticRecordToDnsRecord, Checks.bind_ok_iff, Checks.pure_ok_iff] at hrec
  obtain ⟨data, -, rfl⟩ := hrec
  rw [name_new hplain] at hz
  have hapart := apart_labelsOf sr.name
  have hne := labelsOf_ne_nil sr.name
  cases hls : labelsOf sr.name with
  | nil => exact absurd hls hne
  | cons l ls =>
    rw [hls] at hz hapart
    exact staticZoneApex_ok hapart hz

end

section
variable {E : Ed25519} {T : UnicodeTables} {cfg : AuthorityConfig} {files : MeshFiles}
  {auth : Authority}

/-- `declared_zones` in `new`. -/
def declaredZones (cfg : AuthorityConfig) : List Str := btreeSet (cfg.zones.map normaliseName)

/-- The zones of a new authority without a bundle. -/
theorem new_zones (hnew : Authority.new E T cfg files = .ok auth) (hnone : auth.meshWatermark = none) :
    auth.meshZone = normaliseName cfg.meshZone ∧
      (∀ sr ∈ cfg.staticRecords, ∃ z, Claims T auth.meshZone (declaredZones cfg) sr z) ∧
      ∀ z, z ∈ auth.snapshot.zones ↔
        (∃ sr ∈ cfg.staticRecords, Claims T auth.meshZone (declaredZones cfg) sr z) ∨
        (z ∈ declaredZones cfg ∧ z ≠ auth.meshZone) := by
  simp only [Authority.new, Checks.bind_ok_iff, Checks.pure_ok_iff] at hnew
  obtain ⟨st, hst, rfl⟩ := hnew
  simp only [Option.map_eq_none_iff] at hnone
  simp only [buildStatic, Checks.bind_ok_iff, Checks.pure_ok_iff] at hst
  obtain ⟨st₀, hfold, rfl⟩ := hst
  obtain ⟨hall, hzones⟩ := foldlM_addStaticRecord hfold
  refine ⟨rfl, hall, fun z => ?_⟩
  simp only [hnone, buildSnapshot]
  rw [mem_foldl_addDeclaredZone, hzones]
  simp only [List.not_mem_nil, false_or]
  rfl

/-- A zone whose text is the spelling of its labels, against any name. -/
theorem within_spell_iff (name : Str) {ls : List Str} (hls : Apart '.' ls) :
    nameWithinZone (normaliseName name) (spell '.' ls) = true ↔ ls <:+ labelsOf name := by
  rw [normaliseName_eq_spell, nameWithinZone_iff (apart_labelsOf name) hls]

theorem isAuthoritativeFor_iff (hnew : Authority.new E T cfg files = .ok auth)
    (hnone : auth.meshWatermark = none) (hplain : ∀ sr ∈ cfg.staticRecords, PlainAscii sr.name)
    (name : Str) : auth.isAuthoritativeFor name = true ↔
      labelsOf cfg.meshZone <:+ labelsOf name ∨
      (∃ zone ∈ cfg.zones, labelsOf zone <:+ labelsOf name) ∨
      ∃ sr ∈ cfg.staticRecords, parentOrSelf (labelsOf sr.name) <:+ labelsOf name := by
  obtain ⟨hmesh, hall, hzones⟩ := new_zones hnew hnone
  have hzone : ∀ zone : Str, nameWithinZone (normaliseName name) (normaliseName zone) = true ↔
      labelsOf zone <:+ labelsOf name := by
    intro zone
    rw [normaliseName_eq_spell zone, within_spell_iff name (apart_labelsOf zone)]
  have happart : ∀ sr : StaticRecord, Apart '.' (parentOrSelf (labelsOf sr.name)) := fun sr =>
    apart_parentOrSelf (apart_labelsOf sr.name)
  unfold Authority.isAuthoritativeFor Authority.isAuthoritativeForNormalised
  rw [Bool.or_eq_true, List.any_eq_true, hmesh, hzone]
  constructor
  · intro h
    rcases h with h | ⟨z, hz, hwithin⟩
    · exact .inl h
    · rcases (hzones z).1 hz with ⟨sr, hsr, hclaim⟩ | ⟨hdecl, -⟩
      · rw [(hclaim.labels (hplain sr hsr)).1, within_spell_iff name (happart sr)] at hwithin
        exact .inr (.inr ⟨sr, hsr, hwithin⟩)
      · obtain ⟨zone, hmem, rfl⟩ := List.mem_map.1 (mem_btreeSet.1 hdecl)
        exact .inr (.inl ⟨zone, hmem, (hzone zone).1 hwithin⟩)
  · intro h
    rcases h with h | ⟨zone, hmem, hwithin⟩ | ⟨sr, hsr, hwithin⟩
    · exact .inl h
    · by_cases heq : normaliseName zone = auth.meshZone
      · rw [← hzone, heq, hmesh, hzone] at hwithin
        exact .inl hwithin
      · have hdecl : normaliseName zone ∈ declaredZones cfg :=
          mem_btreeSet.2 (List.mem_map_of_mem hmem)
        exact .inr ⟨_, (hzones _).2 (.inr ⟨hdecl, heq⟩), (hzone zone).2 hwithin⟩
    · obtain ⟨z, hclaim⟩ := hall sr hsr
      refine .inr ⟨z, (hzones z).2 (.inl ⟨sr, hsr, hclaim⟩), ?_⟩
      rw [(hclaim.labels (hplain sr hsr)).1, within_spell_iff name (happart sr)]
      exact hwithin

theorem eq_of_suffix_singleton {ls : List Str} {l : Str} (h : ls <:+ [l]) (hne : ls ≠ []) :
    ls = [l] := by
  rcases List.suffix_cons_iff.1 h with heq | hnil
  · exact heq
  · exact absurd (List.suffix_nil.1 hnil) hne

theorem labels_eq_of_normaliseName {zone : Str} {ls : List Str} (hls : Apart '.' ls)
    (h : spell '.' ls = normaliseName zone) : labelsOf zone = ls := by
  rw [normaliseName_eq_spell] at h
  exact (spell_inj hls (apart_labelsOf zone) h).symm

/-- A single label in the scope is the mesh zone or a declared zone. -/
theorem single_label_declared (hnew : Authority.new E T cfg files = .ok auth)
    (hnone : auth.meshWatermark = none) (hplain : ∀ sr ∈ cfg.staticRecords, PlainAscii sr.name)
    {name l : Str} (hname : labelsOf name = [l]) (h : auth.isAuthoritativeFor name = true) :
    labelsOf cfg.meshZone = [l] ∨ ∃ zone ∈ cfg.zones, labelsOf zone = [l] := by
  rw [isAuthoritativeFor_iff hnew hnone hplain, hname] at h
  rcases h with h | ⟨zone, hmem, h⟩ | ⟨sr, hsr, h⟩
  · exact .inl (eq_of_suffix_singleton h (labelsOf_ne_nil _))
  · exact .inr ⟨zone, hmem, eq_of_suffix_singleton h (labelsOf_ne_nil _)⟩
  · -- the apex of a static record was admitted for one of these two reasons
    have hls := eq_of_suffix_singleton h (parentOrSelf_ne_nil (labelsOf_ne_nil _))
    have hapart : Apart '.' [l] := hname ▸ apart_labelsOf name
    obtain ⟨hmesh, hall, -⟩ := new_zones hnew hnone
    obtain ⟨z, hclaim⟩ := hall sr hsr
    obtain ⟨hz, hsingle⟩ := hclaim.labels (hplain sr hsr)
    rw [hls] at hz hsingle
    rcases hsingle rfl with heq | hdecl
    · rw [hz, hmesh] at heq
      exact .inl (labels_eq_of_normaliseName hapart heq)
    · obtain ⟨zone, hmem, heq⟩ := List.mem_map.1 (mem_btreeSet.1 hdecl)
      rw [hz] at heq
      exact .inr ⟨zone, hmem, labels_eq_of_normaliseName hapart heq.symm⟩

end

/-- **Exact scope without a bundle.** The authority answers for a name exactly when its labels end
with those of the mesh zone, of a declared zone, or of the parent of a static record; so it does not
answer for a top-level label that is neither the mesh zone nor declared. -/
theorem authority_scope (E : Ed25519) (T : UnicodeTables) (cfg : AuthorityConfig) (files : MeshFiles)
    {auth : Authority} (hnew : Authority.new E T cfg files = .ok auth)
    (hnone : auth.meshWatermark = none)
    (hplain : ∀ sr ∈ cfg.staticRecords, PlainAscii sr.name) :
    (∀ name, auth.isAuthoritativeFor name = true ↔
      labelsOf cfg.meshZone <:+ labelsOf name ∨
      (∃ zone ∈ cfg.zones, labelsOf zone <:+ labelsOf name) ∨
      ∃ sr ∈ cfg.staticRecords, parentOrSelf (labelsOf sr.name) <:+ labelsOf name) ∧
    ∀ t : Str, '.' ∉ t → labelsOf cfg.meshZone ≠ labelsOf (t ++ ['.']) →
      (∀ zone ∈ cfg.zones, labelsOf zone ≠ labelsOf (t ++ ['.'])) →
      auth.isAuthoritativeFor (t ++ ['.']) = false := by
  refine ⟨isAuthoritativeFor_iff hnew hnone hplain, ?_⟩
  intro t hdot hmesh hzones
  rw [Bool.eq_false_iff]
  intro h
  have hlabels := labelsOf_concat_dot hdot
  rw [hlabels] at hmesh hzones
  rcases single_label_declared hnew hnone hplain hlabels h with heq | ⟨zone, hmem, heq⟩
  · exact hmesh heq
  · exact hzones zone hmem heq

/-- A declared zone and a host two labels below it. -/
def homeConfig : AuthorityConfig where
  zones := ["Home".toList]
  staticRecords := [{ name := "nas.lab.Home.".toList, recordType := "TXT".toList,
                      target := some "x".toList, ttl := 60 }]

theorem authority_scope_home :
    ∃ auth, Authority.new noKeys .asciiOnly homeConfig noFiles = .ok auth ∧
      auth.meshWatermark = none ∧
      auth.isAuthoritativeFor "ghost.lab.home".toList = true ∧
      auth.isAuthoritativeFor "com.".toList = false := by
  have hplain : ∀ sr ∈ homeConfig.staticRecords, PlainAscii sr.name := by
    intro sr hsr
    obtain rfl := List.mem_singleton.1 hsr
    exact ⟨by decide, by decide⟩
  have hmark : (Authority.new noKeys .asciiOnly homeConfig noFiles).toOption.map
      Authority.meshWatermark = some none := by decide +kernel
  obtain ⟨auth, hauth, hnone⟩ := Option.map_eq_some_iff.1 hmark
  have hnew := Checks.toOption_eq_some_iff.1 hauth
  obtain ⟨hscope, hsingle⟩ := authority_scope _ _ _ _ hnew hnone hplain
  refine ⟨auth, hnew, hnone, (hscope _).2 ?_, hsingle "com".toList ?_ ?_ ?_⟩
  all_goals decide

end RustyDns.L2.Auth
