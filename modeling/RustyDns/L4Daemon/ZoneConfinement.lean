import RustyDns.L4Daemon.WireNames

/-!
# Allowed zones on wire names

`gate_zones` compares the text of the query name with the zones of the client. A label may hold any
byte, and a dot inside a label is rendered as backslash and dot, so the text has dots that are no
label boundaries. `ByteText` is what is assumed of the rendering.

Results:
* `zone_test_iff`: what the test means for the labels.
* `zones_confine_iff`: for which query names the gate confines a client to its zones.
-/

namespace RustyDns.L4.Names

open RustyDns.Lib RustyDns.Lib.Labels RustyDns.L3
open RustyDns.L2.Zone RustyDns.L2.Auth
open RustyDns.L4.Pipeline

/-- What hickory prints for a byte of a label: a dot or a backslash after a backslash, a character
of host names as it is, and for the others something without a dot that is no host name. -/
structure ByteText where
  text : UInt8 → Str
  dot : text 46 = ['\\', '.']
  backslash : text 92 = ['\\', '\\']
  host : ∀ b, hostByte b = true → text b = [byteChar b]
  other : ∀ b, hostByte b = false → b ≠ 46 → b ≠ 92 →
    '.' ∉ text b ∧ ∃ c ∈ text b, hostChar c = false

/-! ## Zones -/

/-- The labels of an allowed zone: blanks around it and trailing dots do not count. -/
def zoneLabels (zone : Str) : List Str := pieces '.' (zone.trim.trimEndMatches '.')

theorem zoneLabels_ne_nil (zone : Str) : zoneLabels zone ≠ [] := pieces_ne_nil '.' _

/-- Labels of host-name characters, none of them empty. -/
def WellFormedZone (zone : Str) : Prop :=
  ∀ l ∈ zoneLabels zone, l ≠ [] ∧ ∀ c ∈ l, hostChar c = true

instance (zone : Str) : Decidable (WellFormedZone zone) :=
  inferInstanceAs (Decidable (∀ l ∈ zoneLabels zone, l ≠ [] ∧ ∀ c ∈ l, hostChar c = true))

/-- The labels of the zone are the last labels of the name, in any letter case. -/
def Within (zone : Str) (name : WireName) : Prop :=
  (zoneLabels zone).map Str.toAsciiLowercase <:+ name.labels.map lowerLabel

instance (zone : Str) (name : WireName) : Decidable (Within zone name) :=
  inferInstanceAs (Decidable (_ <:+ _))

/-- A label of host-name bytes. -/
def HostLabel (l : List UInt8) : Prop := l ≠ [] ∧ ∀ b ∈ l, hostByte b = true

/-- Some label ends in a dot and a host label, and only host labels follow it. -/
def DotInLabel (name : WireName) : Prop :=
  ∃ pre a b rest, name.labels = pre ++ (a ++ 46 :: b) :: rest ∧ HostLabel b ∧
    ∀ l ∈ rest, HostLabel l

/-- The labels of the zone are what follows a dot inside a label, to the end of the name. -/
def BehindDot (zone : Str) (name : WireName) : Prop :=
  ∃ pre a b rest, name.labels = pre ++ (a ++ 46 :: b) :: rest ∧ HostLabel b ∧
    (∀ l ∈ rest, HostLabel l) ∧ (zoneLabels zone).map Str.toAsciiLowercase = (b :: rest).map lowerLabel

/-! ## The text of a label -/

namespace ByteText

variable (R : ByteText)

def label (l : List UInt8) : Str := l.flatMap R.text

/-- The text of a label in lower case. -/
def low (l : List UInt8) : Str := Str.toAsciiLowercase (R.label l)

@[simp] theorem low_nil : R.low [] = [] := rfl

@[simp] theorem low_append (a b : List UInt8) : R.low (a ++ b) = R.low a ++ R.low b := by
  simp [low, label, Str.toAsciiLowercase]

theorem low_cons (b : UInt8) (l : List UInt8) : R.low (b :: l) = R.low [b] ++ R.low l :=
  R.low_append [b] l

@[simp] theorem low_dot : R.low [46] = ['\\', '.'] := by
  simp only [low, label, List.flatMap_cons, List.flatMap_nil, R.dot]
  decide

theorem low_host {b : UInt8} (h : hostByte b = true) : R.low [b] = [(byteChar b).toLower] := by
  simp [low, label, R.host b h, Str.toAsciiLowercase]

/-- Only the byte of a dot prints one, and only bytes of host names print as host names. -/
theorem low_other {b : UInt8} (h : hostByte b = false) (hb : b ≠ 46) :
    '.' ∉ R.low [b] ∧ ∃ c ∈ R.low [b], hostChar c = false := by
  have htext : '.' ∉ R.text b ∧ ∃ c ∈ R.text b, hostChar c = false := by
    by_cases hslash : b = 92
    · subst hslash
      rw [R.backslash]
      exact ⟨by decide, '\\', by simp, hostChar_backslash⟩
    · exact R.other b h hb hslash
  obtain ⟨hdot, c, hc, hhost⟩ := htext
  simp only [low, label, List.flatMap_cons, List.flatMap_nil, List.append_nil,
    Str.dot_mem_toAsciiLowercase]
  exact ⟨hdot, c.toLower, List.mem_map_of_mem hc, by rw [hostChar_toLower, hhost]⟩

theorem dot_notMem_low_byte {b : UInt8} (hb : b ≠ 46) : '.' ∉ R.low [b] := by
  by_cases h : hostByte b = true
  · rw [R.low_host h, List.mem_singleton]
    intro heq
    have : hostChar '.' = true := by rw [heq, hostChar_toLower]; exact h
    exact absurd this (by decide)
  · exact (R.low_other (by simpa using h) hb).1

theorem dot_notMem_low {l : List UInt8} (h : 46 ∉ l) : '.' ∉ R.low l := by
  induction l with
  | nil => simp
  | cons b l ih =>
    rw [List.mem_cons, not_or] at h
    rw [low_cons, List.mem_append, not_or]
    exact ⟨R.dot_notMem_low_byte (Ne.symm h.1), ih h.2⟩

theorem low_byte_ne_nil (b : UInt8) : R.low [b] ≠ [] := by
  by_cases h : hostByte b = true
  · simp [R.low_host h]
  · by_cases hb : b = 46
    · simp [hb]
    · obtain ⟨-, c, hc, -⟩ := R.low_other (by simpa using h) hb
      exact List.ne_nil_of_mem hc

theorem low_of_host {l : List UInt8} (h : ∀ b ∈ l, hostByte b = true) : R.low l = lowerLabel l := by
  induction l with
  | nil => rfl
  | cons b l ih =>
    rw [low_cons, R.low_host (h b List.mem_cons_self),
      ih fun c hc => h c (List.mem_cons_of_mem b hc)]
    rfl

theorem host_of_low {l : List UInt8} (h : ∀ c ∈ R.low l, hostChar c = true) :
    ∀ b ∈ l, hostByte b = true := by
  induction l with
  | nil => simp
  | cons b l ih =>
    rw [low_cons] at h
    refine List.forall_mem_cons.2 ⟨?_, ih fun c hc => h c (List.mem_append_right _ hc)⟩
    by_contra hb
    rw [Bool.not_eq_true] at hb
    obtain ⟨c, hc, hhost⟩ : ∃ c ∈ R.low [b], hostChar c = false := by
      by_cases hdot : b = 46
      · exact ⟨'.', by simp [hdot], hostChar_dot⟩
      · exact (R.low_other hb hdot).2
    exact absurd (h c (List.mem_append_left _ hc)) (by simp [hhost])

/-! ## The pieces of a label -/

/-- The text of a label between dots. -/
def parts (l : List UInt8) : List Str := pieces '.' (R.low l)

/-- A host label, as text. -/
def GoodPart (p : Str) : Prop := ∀ c ∈ p, hostChar c = true

/-- All parts but the last end in a backslash; the last one is what follows the last dot. -/
theorem parts_eq (l : List UInt8) :
    ∃ init b, R.parts l = init ++ [R.low b] ∧ (∀ q ∈ init, ¬ GoodPart q) ∧
      ((init = [] ∧ b = l) ∨ (init ≠ [] ∧ ∃ a, l = a ++ 46 :: b)) := by
  induction l with
  | nil => exact ⟨[], [], rfl, by simp, .inl ⟨rfl, rfl⟩⟩
  | cons x l ih =>
    obtain ⟨init, b, hparts, hbad, hcase⟩ := ih
    by_cases hx : x = 46
    · subst hx
      have hslash : ¬ GoodPart ['\\'] := fun h => absurd (h '\\' (by simp)) (by decide)
      refine ⟨['\\'] :: init, b, ?_, List.forall_mem_cons.2 ⟨hslash, hbad⟩,
        .inr ⟨by simp, ?_⟩⟩
      · have hpieces := pieces_append_sep '.' ['\\'] (R.low l)
        rw [parts, low_cons, low_dot]
        rw [parts] at hparts
        rw [show ['\\', '.'] ++ R.low l = ['\\'] ++ '.' :: R.low l from rfl, hpieces, hparts]
        rfl
      · rcases hcase with ⟨-, rfl⟩ | ⟨-, a, rfl⟩
        · exact ⟨[], rfl⟩
        · exact ⟨46 :: a, rfl⟩
    · have hnot := R.dot_notMem_low_byte hx
      rcases hcase with ⟨rfl, rfl⟩ | ⟨hne, a, rfl⟩
      · refine ⟨[], x :: b, ?_, by simp, .inl ⟨rfl, rfl⟩⟩
        rw [parts, low_cons, pieces_append_of_notMem hnot hparts]
        rfl
      · obtain ⟨q, init, rfl⟩ := List.exists_cons_of_ne_nil hne
        rw [List.forall_mem_cons] at hbad
        refine ⟨(R.low [x] ++ q) :: init, b, ?_, List.forall_mem_cons.2 ⟨?_, hbad.2⟩,
          .inr ⟨by simp, x :: a, rfl⟩⟩
        · rw [parts, low_cons, pieces_append_of_notMem hnot hparts]
          rfl
        · exact fun h => hbad.1 fun c hc => h c (List.mem_append_right _ hc)

theorem parts_of_host {l : List UInt8} (h : 46 ∉ l) : R.parts l = [R.low l] :=
  pieces_of_notMem (R.dot_notMem_low h)

theorem parts_dot (a b : List UInt8) (h : 46 ∉ b) :
    R.parts (a ++ 46 :: b) = pieces '.' (R.low a ++ ['\\']) ++ [R.low b] := by
  rw [← R.parts_of_host h, parts, parts, ← pieces_append_sep, low_append, low_cons, low_dot]
  simp

/-! ## The text of a name -/

section
variable {R : ByteText} {name : WireName}

/-- The text of the name in lower case. -/
def lowText (R : ByteText) (name : WireName) : Str := spell '.' (name.labels.map R.low)

theorem canonical_eq_lowText :
    canonical (nameText R.label name) = (lowText R name).trimEndMatches '.' :=
  canonical_nameText R.label name

theorem lowText_eq_parts : lowText R name = spell '.' (name.labels.flatMap R.parts) :=
  (spell_flatMap_pieces R.low name.labels).symm

theorem apart_parts : Apart '.' (name.labels.flatMap R.parts) := by
  intro p hp
  obtain ⟨l, -, hl⟩ := List.mem_flatMap.1 hp
  exact apart_pieces '.' (R.low l) p hl

/-- Trimming takes one dot off a text that then ends like a host name; after a label that ends in a
dot it takes two and leaves a backslash. -/
theorem lowText_of_host {t : Str} {c : Char} (hc : hostChar c = true)
    (h : (lowText R name).trimEndMatches '.' = t ++ [c]) : lowText R name = t ++ [c] ++ ['.'] := by
  rcases List.eq_nil_or_concat' name.labels with hnil | ⟨init, l, hlabels⟩
  · simp [lowText, hnil, Str.trimEndMatches] at h
  · obtain ⟨l', x, rfl⟩ :=
      (List.eq_nil_or_concat' l).resolve_left (name.nonempty l (by simp [hlabels]))
    have htext : lowText R name =
        spell '.' (init.map R.low) ++ R.low l' ++ R.low [x] ++ ['.'] := by
      simp [lowText, hlabels]
    by_cases hx : x = 46
    · subst hx
      have hsplit : spell '.' (init.map R.low) ++ R.low l' ++ ['\\', '.'] =
          spell '.' (init.map R.low) ++ R.low l' ++ ['\\'] ++ ['.'] := by simp
      rw [htext, Str.trimEndMatches_concat, R.low_dot, hsplit, Str.trimEndMatches_concat,
        trimEndMatches_of_ne (by decide)] at h
      obtain ⟨-, hslash⟩ := List.append_inj' h rfl
      rw [← (List.cons.inj hslash).1, hostChar_backslash] at hc
      cases hc
    · rw [htext, trimEndMatches_dot (R.low_byte_ne_nil x) (R.dot_notMem_low_byte hx)] at h
      rw [htext, h]

end

/-! ## The zone test -/

end ByteText

/-- The text of a zone that the test compares. -/
def zoneText (zone : Str) : Str := (zone.trim.trimEndMatches '.').toAsciiLowercase

theorem spell_zoneLabels (zone : Str) :
    spell '.' ((zoneLabels zone).map Str.toAsciiLowercase) = zoneText zone ++ ['.'] := by
  have hdot : Char.toLower '.' = '.' := by decide
  rw [← toAsciiLowercase_spell, zoneLabels, spell_pieces]
  simp [zoneText, Str.toAsciiLowercase, hdot]

theorem apart_zoneLabels (zone : Str) :
    Apart '.' ((zoneLabels zone).map Str.toAsciiLowercase) := by
  intro l hl
  obtain ⟨l', hl', rfl⟩ := List.mem_map.1 hl
  rw [Str.dot_mem_toAsciiLowercase]
  exact apart_pieces '.' _ l' hl'

section
variable {R : ByteText} {name : WireName} {zone : Str}

theorem goodPart_zoneLabels (hz : WellFormedZone zone) :
    ∀ m ∈ (zoneLabels zone).map Str.toAsciiLowercase, ByteText.GoodPart m ∧ m ≠ [] := by
  intro m hm
  obtain ⟨l, hl, rfl⟩ := List.mem_map.1 hm
  refine ⟨fun c hc => ?_, by simpa using (hz l hl).1⟩
  obtain ⟨d, hd, rfl⟩ := List.mem_map.1 hc
  rw [hostChar_toLower]
  exact (hz l hl).2 d hd

/-- A well-formed zone ends like a host name. -/
theorem zoneText_concat (hz : WellFormedZone zone) :
    ∃ s c, zoneText zone = s ++ [c] ∧ hostChar c = true := by
  obtain ⟨init, m, hms⟩ := (List.eq_nil_or_concat'
    ((zoneLabels zone).map Str.toAsciiLowercase)).resolve_left
      (by simpa using zoneLabels_ne_nil zone)
  obtain ⟨hgood, hne⟩ := goodPart_zoneLabels hz m (by simp [hms])
  obtain ⟨m', c, hm⟩ := (List.eq_nil_or_concat' m).resolve_left hne
  refine ⟨spell '.' init ++ m', c, ?_, hgood c (by simp [hm])⟩
  have hspell := spell_zoneLabels zone
  rw [hms, hm] at hspell
  simpa using (List.append_cancel_right (by simpa using hspell.symm) : zoneText zone = _)

/-- **What the zone test says about the labels**: the zone's labels are the last parts between dots,
whether a dot ends a label or stands in it. -/
theorem zone_test_iff (hz : WellFormedZone zone) :
    nameWithinZone (canonical (nameText R.label name)) (zoneText zone) = true ↔
      (zoneLabels zone).map Str.toAsciiLowercase <:+ name.labels.flatMap R.parts := by
  obtain ⟨s, c, hzone, hc⟩ := zoneText_concat hz
  have hdot : c ≠ '.' := by
    rintro rfl
    exact absurd hc (by decide)
  rw [nameWithinZone_eq_true_iff, ByteText.canonical_eq_lowText,
    ← spell_suffix_iff ByteText.apart_parts (apart_zoneLabels zone), ← ByteText.lowText_eq_parts,
    spell_zoneLabels, hzone]
  refine or_congr ⟨fun h => ByteText.lowText_of_host hc h, fun h => ?_⟩
    (exists_congr fun front => and_congr_left fun _ => ⟨fun h => ?_, fun h => ?_⟩)
  · rw [h, Str.trimEndMatches_concat, trimEndMatches_of_ne hdot]
  · rw [← List.append_assoc] at h
    rw [ByteText.lowText_of_host hc h]
    simp
  · rw [h, ← List.append_assoc, Str.trimEndMatches_concat, ← List.append_assoc,
      trimEndMatches_of_ne hdot]

/-! ## Where the parts come from -/

theorem lowerLabel_host {l : List UInt8} (h : ∀ c ∈ lowerLabel l, hostChar c = true) :
    ∀ b ∈ l, hostByte b = true := by
  intro b hb
  have := h (byteChar b).toLower (List.mem_map_of_mem (List.mem_map_of_mem hb))
  rwa [hostChar_toLower] at this

theorem dot_notMem_of_host {l : List UInt8} (h : ∀ b ∈ l, hostByte b = true) : 46 ∉ l :=
  fun hdot => absurd (h 46 hdot) (by decide)

theorem parts_of_hostLabels {ls : List (List UInt8)} (h : ∀ l ∈ ls, ∀ b ∈ l, hostByte b = true) :
    ls.flatMap R.parts = ls.map lowerLabel := by
  induction ls with
  | nil => rfl
  | cons l ls ih =>
    rw [List.forall_mem_cons] at h
    rw [List.flatMap_cons, ih h.2, R.parts_of_host (dot_notMem_of_host h.1), R.low_of_host h.1]
    rfl

/-- Host labels at the end of the parts are the last labels of the name, or the first of them is
what follows a dot inside a label. -/
theorem suffix_parts_iff {labels : List (List UInt8)} {ms : List Str} (hne : ms ≠ [])
    (hgood : ∀ m ∈ ms, ByteText.GoodPart m ∧ m ≠ []) :
    ms <:+ labels.flatMap R.parts ↔
      ms <:+ labels.map lowerLabel ∨
      ∃ pre a b rest, labels = pre ++ (a ++ 46 :: b) :: rest ∧ HostLabel b ∧
        (∀ l ∈ rest, HostLabel l) ∧ ms = (b :: rest).map lowerLabel := by
  constructor
  · intro h
    have hparts : ∀ l, ∃ init p, R.parts l = init ++ [p] ∧ ∀ q ∈ init, ¬ ByteText.GoodPart q := by
      intro l
      obtain ⟨init, b, hl, hbad, -⟩ := R.parts_eq l
      exact ⟨init, R.low b, hl, hbad⟩
    obtain ⟨pre, x, rest, p, ps, rfl, hx, hrest, rfl⟩ :=
      suffix_flatMap hparts hne (fun m hm => (hgood m hm).1) h
    rw [List.forall_mem_cons] at hgood
    -- the labels after `x` have one part each
    have hps : ps = rest.map R.low := by
      have hsingle : ∀ y ∈ rest, R.parts y = [R.low y] := by
        intro y hy
        obtain ⟨q, -, hq⟩ := List.mem_map.1 (hrest ▸ List.mem_map_of_mem hy)
        obtain ⟨init, b, hl, -, hcase⟩ := R.parts_eq y
        rw [hl] at hq
        obtain ⟨rfl, rfl⟩ | ⟨hinit, -⟩ := hcase
        · simpa using hl
        · obtain ⟨r, init, rfl⟩ := List.exists_cons_of_ne_nil hinit
          simp at hq
      have hmap : rest.map R.parts = (rest.map R.low).map fun q => [q] := by
        rw [List.map_map]
        exact List.map_congr_left hsingle
      rw [hmap] at hrest
      exact (List.map_injective_iff.2 (fun _ _ h => (List.cons.inj h).1) hrest).symm
    subst hps
    obtain ⟨init, b, hl, -, hcase⟩ := R.parts_eq x
    obtain rfl : R.low b = p := by simpa [hl] using hx
    have hhost : ∀ l ∈ b :: rest, HostLabel l := by
      intro l hl
      have hlow : ByteText.GoodPart (R.low l) ∧ R.low l ≠ [] := by
        rcases List.mem_cons.1 hl with rfl | hl
        · exact hgood.1
        · exact hgood.2 _ (List.mem_map_of_mem hl)
      refine ⟨?_, R.host_of_low hlow.1⟩
      rintro rfl
      exact hlow.2 rfl
    have hmap : R.low b :: rest.map R.low = (b :: rest).map lowerLabel :=
      List.map_congr_left (l := b :: rest) fun l hl => R.low_of_host (hhost l hl).2
    rw [hmap]
    rw [List.forall_mem_cons] at hhost
    rcases hcase with ⟨-, rfl⟩ | ⟨-, a, rfl⟩
    · exact .inl ⟨pre.map lowerLabel, by simp⟩
    · exact .inr ⟨pre, a, b, rest, rfl, hhost.1, hhost.2, rfl⟩
  · rintro (⟨front, h⟩ | ⟨pre, a, b, rest, rfl, hb, hrest, rfl⟩)
    · obtain ⟨pre, tail, rfl, -, rfl⟩ := List.map_eq_append_iff.1 h.symm
      refine ⟨pre.flatMap R.parts, ?_⟩
      rw [List.flatMap_append, parts_of_hostLabels fun l hl => lowerLabel_host
        (hgood _ (List.mem_map_of_mem hl)).1]
    · refine ⟨pre.flatMap R.parts ++ pieces '.' (R.low a ++ ['\\']), ?_⟩
      rw [List.flatMap_append, List.flatMap_cons, R.parts_dot a b (dot_notMem_of_host hb.2),
        parts_of_hostLabels fun l hl => (hrest l hl).2, R.low_of_host hb.2]
      simp

end

/-! ## Confinement -/

/-- The text of labels, as an operator writes a zone. -/
def writeZone (labels : List (List UInt8)) : Str := (spell '.' (labels.map (·.map byteChar))).dropLast

theorem spell_writeZone {labels : List (List UInt8)} (hne : labels ≠ []) :
    spell '.' (labels.map (·.map byteChar)) = writeZone labels ++ ['.'] := by
  obtain ⟨init, l, rfl⟩ := (List.eq_nil_or_concat' labels).resolve_left hne
  simp [writeZone, ← List.append_assoc]

theorem zoneLabels_writeZone {labels : List (List UInt8)} (hne : labels ≠ [])
    (h : ∀ l ∈ labels, HostLabel l) :
    zoneLabels (writeZone labels) = labels.map (·.map byteChar) := by
  have hspell := spell_writeZone hne
  have hchars : ∀ c ∈ writeZone labels, Str.isWhitespace c = false := by
    intro c hc
    have hmem : c ∈ spell '.' (labels.map (·.map byteChar)) := by simp [hspell, hc]
    simp only [spell, List.mem_flatMap, List.mem_map, List.mem_append, List.mem_singleton] at hmem
    obtain ⟨-, ⟨l, hl, rfl⟩, hc | rfl⟩ := hmem
    · obtain ⟨b, hb, rfl⟩ := List.mem_map.1 hc
      exact hostChar_not_blank ((h l hl).2 b hb)
    · decide
  have htrim : (writeZone labels).trimEndMatches '.' = writeZone labels := by
    obtain ⟨init, l, rfl⟩ := (List.eq_nil_or_concat' labels).resolve_left hne
    have hl := h l (by simp)
    have hlne : l.map byteChar ≠ [] := by simpa using hl.1
    have hldot : '.' ∉ l.map byteChar := by
      intro hmem
      obtain ⟨b, hb, heq⟩ := List.mem_map.1 hmem
      have := hl.2 b hb
      rw [hostByte, heq, hostChar_dot] at this
      cases this
    have htext : writeZone (init ++ [l]) =
        spell '.' (init.map (·.map byteChar)) ++ l.map byteChar := by
      refine List.append_cancel_right (?_ : _ ++ ['.'] = _ ++ ['.'])
      rw [← hspell]
      simp
    rw [htext, ← Str.trimEndMatches_concat]
    exact trimEndMatches_dot hlne hldot
  unfold zoneLabels
  rw [Str.trim_of_no_blank hchars, htrim]
  refine spell_inj (apart_pieces '.' _) (fun l hl hdot => ?_) (by rw [spell_pieces, hspell])
  obtain ⟨l', hl', rfl⟩ := List.mem_map.1 hl
  obtain ⟨b, hb, heq⟩ := List.mem_map.1 hdot
  have := (h l' hl').2 b hb
  rw [hostByte, heq, hostChar_dot] at this
  cases this

theorem wellFormedZone_writeZone {labels : List (List UInt8)} (hne : labels ≠ [])
    (h : ∀ l ∈ labels, HostLabel l) : WellFormedZone (writeZone labels) := by
  unfold WellFormedZone
  rw [zoneLabels_writeZone hne h]
  intro l hl
  obtain ⟨l', hl', rfl⟩ := List.mem_map.1 hl
  refine ⟨by simpa using (h l' hl').1, fun c hc => ?_⟩
  obtain ⟨b, hb, rfl⟩ := List.mem_map.1 hc
  exact (h l' hl').2 b hb

/-- The labels after a dot inside a label are not the last labels of the name. -/
theorem not_within_of_dot {name : WireName} {pre rest : List (List UInt8)} {a b : List UInt8}
    (hname : name.labels = pre ++ (a ++ 46 :: b) :: rest)
    (hlabels : ∀ l ∈ b :: rest, HostLabel l) : ¬ Within (writeZone (b :: rest)) name := by
  unfold Within
  rw [zoneLabels_writeZone (by simp) hlabels, hname, List.map_map]
  rintro ⟨front, h⟩
  have hlen : front.length = pre.length := by
    have := congrArg List.length h
    simp at this
    omega
  rw [List.map_append] at h
  obtain ⟨-, htail⟩ := List.append_inj h (by simpa using hlen)
  have hhead := congrArg List.length (List.cons.inj htail).1
  simp [lowerLabel, Str.toAsciiLowercase] at hhead
  omega

section
variable {H : Hickory} {S : HickoryServer H} {wire : H.Name → WireName} {R : ByteText}

theorem gateZones_eq_none_iff {ctx : Pipeline.QueryCtx} (hne : ctx.policy.zonesAllowed ≠ []) :
    (gateZones ctx : Option (Reply H)) = none ↔
      ∃ zone ∈ ctx.policy.zonesAllowed, zoneText zone ≠ [] ∧
        nameWithinZone (canonical ctx.qnameCanon) (zoneText zone) = true := by
  have hzones : ctx.policy.zonesAllowed.isEmpty = false := by simpa using hne
  unfold gateZones
  simp only [hzones, Bool.not_false, Bool.true_and, Bool.not_eq_true', ite_eq_right_iff,
    reduceCtorEq, imp_false, Bool.not_eq_false, nameInAnyZone, List.any_eq_true, Bool.and_eq_true,
    List.isEmpty_eq_false_iff]
  rfl

/-- Which queries pass the gate, for well-formed zones. -/
theorem gateZones_passes_iff {ctx : Pipeline.QueryCtx} {name : H.Name}
    (hname : S.display name = nameText R.label (wire name))
    (hctx : ctx.qnameCanon = canonicalQname (S.display name)) (hne : ctx.policy.zonesAllowed ≠ [])
    (hzones : ∀ zone ∈ ctx.policy.zonesAllowed, WellFormedZone zone) :
    (gateZones ctx : Option (Reply H)) = none ↔
      ∃ zone ∈ ctx.policy.zonesAllowed, Within zone (wire name) ∨ BehindDot zone (wire name) := by
  rw [gateZones_eq_none_iff hne, hctx, canonical_canonicalQname, hname]
  refine exists_congr fun zone => and_congr_right fun hzone => ?_
  have hz := hzones zone hzone
  rw [zone_test_iff hz]
  refine (and_iff_right ?_).trans (suffix_parts_iff (by simpa using zoneLabels_ne_nil zone)
    (goodPart_zoneLabels hz))
  obtain ⟨s, c, hs, -⟩ := zoneText_concat hz
  simp [hs]

end

/-- **When allowed zones confine a client.** A query name passes the gate exactly if it is in an
allowed zone or has, behind a dot inside a label, the labels of one. So whatever passes is in an
allowed zone, for every list of well-formed zones, exactly if no label of the name has a dot inside
after which only host labels follow. -/
theorem zones_confine_iff (H : Hickory) (S : HickoryServer H) (wire : H.Name → WireName)
    (R : ByteText) (h : Pipeline.DnsHandler H) (clock : Clock) (request : Request H)
    (query : Query H) (hname : S.display query.name = nameText R.label (wire query.name)) :
    (∀ zones : List Str, zones ≠ [] → (∀ zone ∈ zones, WellFormedZone zone) →
      let ctx := h.queryCtx S clock request query
      ((gateZones { ctx with policy := { ctx.policy with zonesAllowed := zones } } :
        Option (Reply H)) = none ↔
      ∃ zone ∈ zones, Within zone (wire query.name) ∨ BehindDot zone (wire query.name))) ∧
    ((∀ zones : List Str, zones ≠ [] → (∀ zone ∈ zones, WellFormedZone zone) →
      let ctx := h.queryCtx S clock request query
      (gateZones { ctx with policy := { ctx.policy with zonesAllowed := zones } } :
        Option (Reply H)) = none →
      ∃ zone ∈ zones, Within zone (wire query.name)) ↔
    ¬ DotInLabel (wire query.name)) := by
  have hpasses : ∀ zones : List Str, zones ≠ [] → (∀ zone ∈ zones, WellFormedZone zone) →
      let ctx := h.queryCtx S clock request query
      ((gateZones { ctx with policy := { ctx.policy with zonesAllowed := zones } } :
        Option (Reply H)) = none ↔
      ∃ zone ∈ zones, Within zone (wire query.name) ∨ BehindDot zone (wire query.name)) :=
    fun zones hne hwf => gateZones_passes_iff hname rfl hne hwf
  refine ⟨hpasses, ?_, ?_⟩
  · rintro hconfined ⟨pre, a, b, rest, hlabelsEq, hb, hrest⟩
    have hlabels : ∀ l ∈ b :: rest, HostLabel l := List.forall_mem_cons.2 ⟨hb, hrest⟩
    have hwf := wellFormedZone_writeZone (by simp) hlabels
    have hzone : (zoneLabels (writeZone (b :: rest))).map Str.toAsciiLowercase =
        (b :: rest).map lowerLabel := by
      rw [zoneLabels_writeZone (by simp) hlabels, List.map_map]
      rfl
    obtain ⟨zone, hmem, hwithin⟩ := hconfined [writeZone (b :: rest)] (by simp) (by simpa using hwf)
      ((hpasses _ (by simp) (by simpa using hwf)).2 ⟨writeZone (b :: rest), by simp,
        .inr ⟨pre, a, b, rest, hlabelsEq, hb, hrest, hzone⟩⟩)
    rw [List.mem_singleton.1 hmem] at hwithin
    exact not_within_of_dot hlabelsEq hlabels hwithin
  · intro hdot zones hne hwf ctx hpass
    obtain ⟨zone, hzone, hwithin | ⟨pre, a, b, rest, hlabelsEq, hb, hrest, -⟩⟩ :=
      (hpasses zones hne hwf).1 hpass
    · exact ⟨zone, hzone, hwithin⟩
    · exact absurd ⟨pre, a, b, rest, hlabelsEq, hb, hrest⟩ hdot

/-- Each byte as the character of its code, after a backslash if it is a dot or a backslash. -/
def escapedBytes : ByteText where
  text b := if b = 46 ∨ b = 92 then ['\\', byteChar b] else [byteChar b]
  dot := by decide
  backslash := by decide
  host b hb := by
    refine if_neg ?_
    rintro (rfl | rfl) <;> exact absurd hb (by decide)
  other b hb hdot hslash := by
    have hchar : byteChar b ≠ '.' := by
      intro heq
      have hcode := toNat_byteChar b
      rw [heq] at hcode
      exact hdot (UInt8.toNat_inj.1 hcode.symm)
    rw [if_neg (by simp [hdot, hslash])]
    exact ⟨by simpa using hchar.symm, byteChar b, by simp, hb⟩

abbrev wireHickory : Hickory := labelHickory escapedBytes.label

def wireServer : HickoryServer wireHickory := labelServer escapedBytes.label

/-- A handler whose only client policy allows `10.0.0.9` the zone `corp.example`. -/
def confinedHandler : Pipeline.DnsHandler wireHickory :=
  bareHandler wireHickory (.new .asciiOnly (fun _ => .error "") {})
    (buildPolicyMap
      [{ clientIp := some "10.0.0.9".toList, zonesAllowed := ["corp.example".toList] }])
    emptyAuthority

/-- The labels `evil.corp` and `example`. -/
def dottedQuery : Query wireHickory :=
  addressQuery (wireName ["evil.corp".toList, "example".toList] (by decide +kernel))

/-- A client confined to `corp.example` gets through with the two labels `evil.corp` and `example`,
which are not below `corp.example`. -/
theorem dotted_label_passes :
    Renders wireServer (fun name => name) escapedBytes.label ∧
    (∀ zone ∈ (clientPolicy confinedHandler.policyByIp (wireRequest dottedQuery).src).zonesAllowed,
      WellFormedZone zone) ∧
    (gateZones (confinedHandler.queryCtx wireServer ⟨0, 1700000000⟩ (wireRequest dottedQuery)
      dottedQuery) : Option (Reply wireHickory)).isNone = true ∧
    ¬ ∃ zone ∈ (clientPolicy confinedHandler.policyByIp
        (wireRequest dottedQuery).src).zonesAllowed, Within zone dottedQuery.name :=
  ⟨fun _ => rfl, by decide +kernel, by decide +kernel, by decide +kernel⟩

/-- The labels `WWW`, `corp` and `example`. -/
def plainQuery : Query wireHickory :=
  addressQuery (wireName ["WWW".toList, "corp".toList, "example".toList] (by decide +kernel))

theorem not_dotInLabel {name : WireName} (h : ∀ l ∈ name.labels, 46 ∉ l) : ¬ DotInLabel name := by
  rintro ⟨pre, a, b, rest, hname, -⟩
  exact h (a ++ 46 :: b) (by simp [hname]) (by simp)

theorem zones_confine_iff_www :
    ¬ DotInLabel plainQuery.name ∧
    ∃ zone ∈ [" Corp.Example. ".toList, "lab".toList], Within zone plainQuery.name := by
  have hdot : ¬ DotInLabel plainQuery.name := not_dotInLabel (by decide +kernel)
  refine ⟨hdot, (zones_confine_iff wireHickory wireServer (fun name => name) escapedBytes
    confinedHandler ⟨0, 1700000000⟩ (wireRequest plainQuery) plainQuery rfl).2.2 hdot
    [" Corp.Example. ".toList, "lab".toList] (by simp) (by decide +kernel) ?_⟩
  exact Option.isNone_iff_eq_none.1 (by decide +kernel)

end RustyDns.L4.Names
