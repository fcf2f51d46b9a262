import RustyDns.L2Blocklist.Engine
import RustyDns.L2Blocklist.Entries

/-!
# Block verdicts on labels

`is_blocked` and `is_allowed` look for dots in a text. Here a name is its list of labels, and the
verdict of a state built from sources and allow entries is stated on labels: an entry for one name
is an equal list, an entry for everything below a name is a proper suffix.

Results:
* `parsed_names_wellformed`: what the parsers emit has two labels at least, so no entry reaches
  everything under a single label.
* `matchesBlock_iff`: the block half of the verdict, entry by entry.
* `blocked_iff_labelwise`: the whole verdict on labels.
-/

namespace RustyDns.L2.Blocklist

open RustyDns.Lib RustyDns.Lib.Labels RustyDns.L1

/-! ## Names of entries -/

/-- Lower-case printable ASCII of at most 253 bytes, with two labels or more of 1 to 63 bytes. -/
structure WellFormedName (d : Str) : Prop where
  chars : ∀ c ∈ d, 32 ≤ c.toNat ∧ c.toNat < 127 ∧ c.isUpper = false
  length : d.byteLen ≤ 253
  two_labels : 2 ≤ (pieces '.' d).length
  labels : ∀ l ∈ pieces '.' d, 1 ≤ Str.byteLen l ∧ Str.byteLen l ≤ 63

theorem Normalised.wellFormed {d : Str} (h : Normalised d) (hdot : '.' ∈ d) :
    WellFormedName d where
  chars c hc := by
    obtain ⟨hcontrol, hascii⟩ := h.printable c hc
    have hupper := Str.no_upper_toAsciiLowercase d
    rw [h.lower, List.any_eq_false] at hupper
    simp only [Str.isAsciiControl, Str.isAsciiChar, Bool.or_eq_false_iff, decide_eq_false_iff_not,
      decide_eq_true_eq, beq_eq_false_iff_ne] at hcontrol hascii
    exact ⟨by omega, by omega, by simpa using hupper c hc⟩
  length := h.length
  two_labels := two_le_length_pieces_iff.2 hdot
  labels l hl := ⟨Str.byteLen_pos (h.labels l hl).2, (h.labels l hl).1⟩

theorem Validated.wellFormed {e : ParsedEntry} (h : Validated e) : WellFormedName e.domain := by
  obtain ⟨s, hs⟩ := h
  obtain ⟨hnorm, hdot⟩ := validateBlockEntry_eq_some_iff.1 hs
  exact (validateAndNormalize_eq_some_iff.1 hnorm).2.wellFormed hdot

theorem WellFormedName.dot_mem {d : Str} (h : WellFormedName d) : '.' ∈ d :=
  two_le_length_pieces_iff.1 h.two_labels

/-! ## Single entries -/

/-- The names an entry is about. -/
def ParsedEntry.Matches : ParsedEntry → Str → Prop
  | .exact d, name => name = d
  | .wildcardParent p, name => ∃ front, name = front ++ '.' :: p
  | .allow d, name => name = d

/-- The entries a state holds. -/
def BlocklistState.Has (st : BlocklistState) : ParsedEntry → Prop
  | .exact d => d ∈ st.domains
  | .wildcardParent p => p ∈ st.wildcardParents
  | .allow d => d ∈ st.allowlist.exact

/-- The block half of the verdict, entry by entry. -/
theorem matchesBlock_iff {st : BlocklistState} {name : Str} :
    st.matchesBlock name = true ↔
      (∃ e, e.blockName.isSome = true ∧ st.Has e ∧ e.Matches name) ∨
        st.regexRules.isMatch name = true := by
  simp only [BlocklistState.matchesBlock, Bool.or_eq_true, decide_eq_true_eq, parentWalk_iff]
  refine or_congr_left ⟨?_, ?_⟩
  · rintro (hmem | ⟨front, p, hp, rfl⟩)
    · exact ⟨.exact name, rfl, hmem, rfl⟩
    · exact ⟨.wildcardParent p, rfl, hp, front, rfl⟩
  · rintro ⟨e, hblock, he, hmatch⟩
    cases e with
    | exact d => exact .inl (hmatch ▸ he)
    | wildcardParent p =>
      obtain ⟨front, rfl⟩ := hmatch
      exact .inr ⟨front, p, he, rfl⟩
    | allow d => cases hblock

/-- No name of one label under `t` ends in a parent of two labels. -/
theorem not_matches_wildcardParent {l t p : Str} (hl : '.' ∉ l) (ht : '.' ∉ t) (hp : '.' ∈ p) :
    ¬ (ParsedEntry.wildcardParent p).Matches (l ++ '.' :: t) := by
  rintro ⟨front, heq⟩
  have hpieces := congrArg (fun s => (pieces '.' s).length) heq
  simp only [pieces_append_sep, pieces_of_notMem hl, pieces_of_notMem ht, List.length_append,
    List.length_singleton] at hpieces
  have hfront := List.length_pos_iff.2 (pieces_ne_nil '.' front)
  have htwo := two_le_length_pieces_iff.2 hp
  omega

/-- One name is not every name under `t`. -/
theorem exists_ne_under (t d : Str) : ∃ l : Str, l ≠ [] ∧ '.' ∉ l ∧ l ++ '.' :: t ≠ d := by
  by_cases hd : ['a'] ++ '.' :: t = d
  · exact ⟨['b'], by decide, by decide, by simp [← hd]⟩
  · exact ⟨['a'], by decide, by decide, hd⟩

/-- **Parsers emit only well-formed names of at least two labels**, whichever format a content is
read as. So no built state has a single label as a wildcard parent, and each of its entries misses
some name under any given single label. -/
theorem parsed_names_wellformed (T : UnicodeTables) :
    (∀ content e, (e ∈ parseHosts content ∨ e ∈ parsePlain content ∨ e ∈ parseRpz T content ∨
        e ∈ parseAdguard content) → WellFormedName e.domain) ∧
    ∀ (rules : RegexRules) (sources : List (Str × BlocklistSource)) (allow : List Str) (t : Str),
      '.' ∉ t →
      t ∉ (buildState T rules sources allow).wildcardParents ∧
      ∀ e, (buildState T rules sources allow).Has e →
        ∃ l, l ≠ [] ∧ '.' ∉ l ∧ ¬ e.Matches (l ++ '.' :: t) := by
  refine ⟨fun content e he => (validated_of_mem_parsers he).wellFormed, ?_⟩
  intro rules sources allow t ht
  have hparents : ∀ p ∈ (buildState T rules sources allow).wildcardParents, '.' ∈ p := by
    intro p hp
    obtain ⟨src, -, hsrc⟩ := mem_wildcardParents_buildState.1 hp
    exact (validated_of_mem_parse hsrc).wellFormed.dot_mem
  refine ⟨fun hmem => ht (hparents t hmem), fun e he => ?_⟩
  cases e with
  | exact d => exact exists_ne_under t d
  | wildcardParent p =>
    exact ⟨['a'], by decide, by decide, not_matches_wildcardParent (by decide) ht (hparents p he)⟩
  | allow d => exact exists_ne_under t d

/-! ## The verdict -/

section
variable {T : UnicodeTables} {name : Str} {ls : List Str}

/-- The allow half of the verdict, on a name in lower case without trailing dots. -/
theorem isAllowed_iff {al : Allowlist} (hne : name ≠ []) (hdots : name.trimEndMatches '.' = name)
    (hlower : name.any Char.isUpper = false) :
    al.isAllowed name = true ↔
      name ∈ al.exact ∨ ∃ front d, '.' :: d ∈ al.suffixes ∧ name = front ++ '.' :: d := by
  unfold Allowlist.isAllowed
  simp only [hdots, if_neg hne, hlower, Bool.false_eq_true, if_false, Bool.or_eq_true,
    decide_eq_true_eq, Allowlist.suffixWalk_iff]

/-- `ls` is the name of an exact allow entry, of the config or of a trusted source, or properly below
the name of a suffix allow entry. -/
def Allowed (T : UnicodeTables) (sources : List (Str × BlocklistSource)) (allow : List Str)
    (ls : List Str) : Prop :=
  (∃ entry ∈ allow, ∃ d, Allowlist.pattern T entry = some (.exact d) ∧ pieces '.' d = ls) ∨
  (∃ src ∈ sources, src.2 = .trusted ∧
    ∃ d, .allow d ∈ parse T src.1 ∧ pieces '.' (Allowlist.exactForm T d) = ls) ∨
  ∃ entry ∈ allow, ∃ d, Allowlist.pattern T entry = some (.below d) ∧
    pieces '.' d <:+ ls ∧ pieces '.' d ≠ ls

/-- `ls` is the name of an exact entry, or has a wildcard parent as a proper ancestor. -/
def Listed (T : UnicodeTables) (sources : List (Str × BlocklistSource)) (ls : List Str) : Prop :=
  (∃ src ∈ sources, ∃ d, .exact d ∈ parse T src.1 ∧ pieces '.' d = ls) ∨
  ∃ src ∈ sources, ∃ p, .wildcardParent p ∈ parse T src.1 ∧ pieces '.' p <:+ ls ∧ pieces '.' p ≠ ls

variable (rules : RegexRules) (sources : List (Str × BlocklistSource)) (allow : List Str)

theorem isAllowed_buildState_iff (h : Str.Dotted name ls) :
    (buildState T rules sources allow).allowlist.isAllowed (['.'].intercalate ls) = true ↔
      Allowed T sources allow ls := by
  have hlower : (['.'].intercalate ls).any Char.isUpper = false := by
    rw [← h.canonical_eq]
    exact Str.no_upper_toAsciiLowercase _
  have hpieces : ∀ d : Str, d = ['.'].intercalate ls ↔ pieces '.' d = ls := fun d =>
    (Str.pieces_eq_iff h.apart h.ne_nil).symm
  rw [isAllowed_iff h.intercalate_ne_nil h.trimEndMatches_intercalate hlower, mem_exact_buildState,
    buildState_allowlist, Allowlist.extendExact_suffixes, or_assoc]
  refine or_congr ?_ (or_congr ?_ ?_)
  · simp only [Allowlist.mem_exact_fromEntries, ← hpieces, exists_eq_right]
  · simp only [← hpieces]
    refine exists_congr fun src => and_congr_right fun _ => and_congr_right fun _ =>
      exists_congr fun d => and_congr_right fun _ => ?_
    exact and_iff_left h.intercalate_ne_nil
  · simp only [Allowlist.mem_suffixes_fromEntries, ← Str.after_sep_iff h.apart h.ne_nil]
    constructor
    · rintro ⟨front, d, ⟨entry, hmem, hentry⟩, heq⟩
      exact ⟨entry, hmem, d, hentry, front, heq⟩
    · rintro ⟨entry, hmem, d, hentry, front, heq⟩
      exact ⟨front, d, ⟨entry, hmem, hentry⟩, heq⟩

theorem matchesBlock_buildState_iff (h : Str.Dotted name ls) :
    (buildState T rules sources allow).matchesBlock (['.'].intercalate ls) = true ↔
      Listed T sources ls ∨ rules.isMatch (['.'].intercalate ls) = true := by
  rw [matchesBlock_iff]
  refine or_congr_left ⟨?_, ?_⟩
  · rintro ⟨e, hblock, he, hmatch⟩
    cases e with
    | exact d =>
      obtain ⟨src, hsrc, hd⟩ := mem_domains_buildState.1 he
      exact .inl ⟨src, hsrc, d, hd, (Str.pieces_eq_iff h.apart h.ne_nil).2 hmatch.symm⟩
    | wildcardParent p =>
      obtain ⟨src, hsrc, hp⟩ := mem_wildcardParents_buildState.1 he
      exact .inr ⟨src, hsrc, p, hp, (Str.after_sep_iff h.apart h.ne_nil).1 hmatch⟩
    | allow d => cases hblock
  · rintro (⟨src, hsrc, d, hd, hpieces⟩ | ⟨src, hsrc, p, hp, hsuffix⟩)
    · refine ⟨.exact d, rfl, mem_domains_buildState.2 ⟨src, hsrc, hd⟩, ?_⟩
      exact ((Str.pieces_eq_iff h.apart h.ne_nil).1 hpieces).symm
    · refine ⟨.wildcardParent p, rfl, mem_wildcardParents_buildState.2 ⟨src, hsrc, hp⟩, ?_⟩
      exact (Str.after_sep_iff h.apart h.ne_nil).2 hsuffix

end

/-- **Blocking verdict on labels.** A dotted name is blocked when no entry allows it and an exact
entry has its labels, a wildcard parent is a proper ancestor, or a regex rule matches its lower-case
form without the trailing dot. -/
theorem blocked_iff_labelwise (T : UnicodeTables) (rules : RegexRules)
    (sources : List (Str × BlocklistSource)) (allow : List Str) {name : Str} {ls : List Str}
    (h : Str.Dotted name ls) :
    (buildState T rules sources allow).isBlocked T name = true ↔
      ¬ Allowed T sources allow ls ∧
        (Listed T sources ls ∨ rules.isMatch (['.'].intercalate ls) = true) := by
  have hne : name.trimEndMatches '.' ≠ [] := by
    intro hnil
    have heq := h.canonical_eq
    rw [hnil] at heq
    exact h.intercalate_ne_nil heq.symm
  rw [← isAllowed_buildState_iff rules sources allow h,
    ← matchesBlock_buildState_iff rules sources allow h]
  unfold BlocklistState.isBlocked
  simp only [if_neg hne, lookupForm_of_isAscii h.ascii, h.canonical_eq]
  split
  · rename_i hallow
    simp only [hallow, not_true_eq_false, false_and, Bool.false_eq_true]
  · rename_i hallow
    simp only [hallow, not_false_eq_true, true_and, Bool.false_eq_true]

theorem blocked_iff_labelwise_tracker :
    let sources : List (Str × BlocklistSource) := [("||ads.example.com^".toList, .untrusted)]
    let allow := ["*.ok.ads.example.com".toList]
    let ls := ["tracker".toList, "ads".toList, "example".toList, "com".toList]
    (buildState .asciiOnly {} sources allow).isBlocked .asciiOnly "Tracker.ADS.Example.com.".toList =
        true ∧
      ¬ Allowed .asciiOnly sources allow ls ∧
        (Listed .asciiOnly sources ls ∨
          ({} : RegexRules).isMatch "tracker.ads.example.com".toList = true) := by
  intro sources allow ls
  have hname : Str.Dotted "Tracker.ADS.Example.com.".toList ls :=
    ⟨by decide, by decide, by decide, .inr (by decide)⟩
  have hblocked : (buildState .asciiOnly {} sources allow).isBlocked .asciiOnly
      "Tracker.ADS.Example.com.".toList = true := by decide
  exact ⟨hblocked, (blocked_iff_labelwise .asciiOnly {} sources allow hname).1 hblocked⟩

end RustyDns.L2.Blocklist
