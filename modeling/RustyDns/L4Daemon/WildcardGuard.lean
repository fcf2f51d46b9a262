import RustyDns.Lib.Split
import RustyDns.L2Blocklist.Allowlist
import RustyDns.L4Daemon.RewriteRules

/-!
# The wildcard guard

Validation refuses allowlist entries and rewrite names that would cover a whole top-level domain. It
counts labels after cutting every `*.` and every dot off the front; the two compilers trim blanks,
dots and case in other orders and cut one star only.

What both agree on is a dot with something other than a dot behind it (`DotThen`): a text with two
labels has one, cutting and lower-casing keep it, and a suffix with a single label has none. For the
lower-casing of the allowlist the tables must not make a star of another character
(`UnicodeTables.StarSound`).

Results:
* `dotThen_of_below`, `dotThen_of_rule`: what a wildcard compiles to has at least two labels.
* `wildcard_guard`: no accepted entry or rule covers the names under a top-level domain.
-/

namespace RustyDns.Lib

/-- Sound tables in which only the star has a star in its lower-case form. -/
structure UnicodeTables.StarSound (T : UnicodeTables) : Prop extends T.Sound where
  star_lower : ∀ c, '*' ∈ T.lower c → c = '*'

end RustyDns.Lib

namespace RustyDns.L4.WildcardGuard

open RustyDns.Lib RustyDns.Lib.Labels RustyDns.L1 RustyDns.L2.Blocklist RustyDns.L4.Rewrite

/-! ## A dot with something behind it -/

/-- Some dot has another character behind it. -/
def DotThen (s : Str) : Prop := ∃ c ≠ '.', ['.', c].Sublist s

theorem DotThen.mono {s t : Str} (h : DotThen s) (hst : s.Sublist t) : DotThen t := by
  obtain ⟨c, hc, hs⟩ := h
  exact ⟨c, hc, hs.trans hst⟩

theorem DotThen.dot_mem {s : Str} (h : DotThen s) : '.' ∈ s := by
  obtain ⟨c, -, hs⟩ := h
  exact hs.subset (by simp)

theorem exists_of_labelCount_pos {s : Str} (h : 0 < labelCount s) : ∃ c ∈ s, c ≠ '.' := by
  obtain ⟨l, hl⟩ := List.exists_mem_of_length_pos h
  rw [List.mem_filter, decide_eq_true_iff, Str.splitBy_eq_pieces] at hl
  obtain ⟨c, hc⟩ := List.exists_mem_of_ne_nil l hl.2
  have hne : c ≠ '.' := by
    rintro rfl
    exact apart_pieces '.' s l hl.1 hc
  exact ⟨c, (mem_iff_mem_pieces hne).2 ⟨l, hl.1, hc⟩, hne⟩

/-- A text with two labels has a dot between them. -/
theorem dotThen_of_labelCount {s : Str} (h : 1 < labelCount s) : DotThen s := by
  cases hcut : s.splitOnce '.' with
  | none =>
    have hone : labelCount s ≤ 1 := by
      rw [labelCount, Str.splitBy_eq_pieces, pieces_of_notMem (Str.splitOnce_eq_none_iff.1 hcut)]
      exact List.length_filter_le _ _
    omega
  | some p =>
    obtain ⟨a, t⟩ := p
    obtain ⟨rfl, ha⟩ := Str.splitOnce_eq_some_iff.1 hcut
    have hcount : labelCount (a ++ '.' :: t) ≤ 1 + labelCount t := by
      rw [labelCount, labelCount, Str.splitBy_eq_pieces, Str.splitBy_eq_pieces, pieces_append_sep,
        pieces_of_notMem ha, List.filter_append, List.length_append]
      exact Nat.add_le_add_right (List.length_filter_le _ _) _
    obtain ⟨c, hc, hne⟩ := exists_of_labelCount_pos (s := t) (by omega)
    refine ⟨c, hne, List.Sublist.trans ?_ (List.sublist_append_right a _)⟩
    exact (List.singleton_sublist.2 hc).cons_cons '.'

theorem DotThen.trimEndMatches {s : Str} (h : DotThen s) : DotThen (s.trimEndMatches '.') := by
  obtain ⟨c, hc, hs⟩ := h
  have hkept : (['.'] ++ [c]).Sublist (s.trimEndMatches '.') :=
    Str.sublist_rdropWhile (by simpa using hc) hs
  exact ⟨c, hc, hkept⟩

/-- The blanks `trim` takes off stand before the dot, if none stand at the end. -/
theorem DotThen.trim {s : Str} (h : DotThen s)
    (hlast : ∀ c ∈ s.getLast?, Str.isWhitespace c = false) : DotThen s.trim := by
  obtain ⟨c, hc, hs⟩ := h
  have hend : (s.dropWhile Str.isWhitespace).rdropWhile Str.isWhitespace =
      s.dropWhile Str.isWhitespace := by
    rw [List.rdropWhile_eq_self_iff]
    intro hne
    obtain ⟨front, hfront⟩ := List.dropWhile_suffix (l := s) Str.isWhitespace
    have hsame : s.getLast? = (s.dropWhile Str.isWhitespace).getLast? :=
      (congrArg List.getLast? hfront).symm.trans (List.getLast?_append_of_ne_nil _ hne)
    simp [hlast _ (hsame ▸ List.getLast_mem_getLast? hne)]
  refine ⟨c, hc, ?_⟩
  rw [Str.trim, hend]
  exact Str.sublist_dropWhile (by decide) hs

theorem DotThen.toAsciiLowercase {s : Str} (h : DotThen s) : DotThen s.toAsciiLowercase := by
  obtain ⟨c, hc, hs⟩ := h
  exact ⟨c.toLower, mt Str.toLower_eq_dot_iff.1 hc, hs.map Char.toLower⟩

/-! ## Lower-casing by the tables -/

section
variable {T : UnicodeTables}

/-- What a character becomes, at any place of a text. -/
theorem exists_lowercaseFrom_cons (T : UnicodeTables) (before : Str) (c : Char) (s : Str) :
    ∃ u, Str.lowercaseFrom T before (c :: s) = u ++ Str.lowercaseFrom T (c :: before) s ∧
      (u = T.lower c ∨ u = ['ς'] ∨ u = ['σ']) := by
  refine ⟨_, rfl, ?_⟩
  split
  · unfold Str.mapUppercaseSigma
    split
    · exact .inr (.inl rfl)
    · exact .inr (.inr rfl)
  · exact .inl rfl

theorem exists_mem_lowercaseFrom (hT : T.Sound) :
    ∀ {s : Str} (before : Str) {c : Char}, c ∈ s → c ≠ '.' →
      ∃ d ∈ Str.lowercaseFrom T before s, d ≠ '.'
  | x :: s, before, c, hc, hne => by
    obtain ⟨u, hu, hcases⟩ := exists_lowercaseFrom_cons T before x s
    rw [hu]
    rcases List.mem_cons.1 hc with rfl | hc
    · rcases hcases with rfl | rfl | rfl
      · obtain ⟨d, hd⟩ := List.exists_mem_of_ne_nil _ (hT.lower_ne_nil c)
        refine ⟨d, List.mem_append_left _ hd, ?_⟩
        rintro rfl
        exact hne (hT.dot_lower c hd)
      · exact ⟨'ς', by simp, by decide⟩
      · exact ⟨'σ', by simp, by decide⟩
    · obtain ⟨d, hd, hdne⟩ := exists_mem_lowercaseFrom hT (x :: before) hc hne
      exact ⟨d, List.mem_append_right _ hd, hdne⟩

theorem DotThen.lowercaseFrom (hT : T.Sound) :
    ∀ {s : Str} (before : Str), DotThen s → DotThen (Str.lowercaseFrom T before s)
  | [], _, ⟨_, _, h⟩ => by cases h
  | x :: s, before, ⟨c, hc, h⟩ => by
    obtain ⟨u, hu, -⟩ := exists_lowercaseFrom_cons T before x s
    cases h with
    | cons _ h =>
      rw [hu]
      exact (DotThen.lowercaseFrom hT (x :: before) ⟨c, hc, h⟩).mono (List.sublist_append_right u _)
    | cons_cons _ h =>
      obtain ⟨d, hd, hne⟩ := exists_mem_lowercaseFrom hT ('.' :: before)
        (List.singleton_sublist.1 h) hc
      refine ⟨d, hne, ?_⟩
      have hdot : T.lower '.' = ['.'] := T.lower_ascii '.' (by decide)
      rw [Str.lowercaseFrom, if_neg (by decide), hdot]
      exact (List.singleton_sublist.2 hd).cons_cons '.'

/-- A text whose lower-case form starts with a dot or a star starts with it. -/
theorem head_of_lowercaseFrom (hT : T.StarSound) {before s t : Str} {p : Char}
    (hp : p = '.' ∨ p = '*') (h : Str.lowercaseFrom T before s = p :: t) :
    ∃ s', s = p :: s' ∧ t = Str.lowercaseFrom T (p :: before) s' := by
  cases s with
  | nil => cases h
  | cons x s =>
    obtain ⟨u, hu, hcases⟩ := exists_lowercaseFrom_cons T before x s
    rw [hu] at h
    have hx : x = p := by
      rcases hcases with rfl | rfl | rfl
      · cases hlower : T.lower x with
        | nil => exact absurd hlower (hT.lower_ne_nil x)
        | cons d ds =>
          rw [hlower] at h
          obtain ⟨rfl, -⟩ := List.cons.inj h
          have hmem : d ∈ T.lower x := by simp [hlower]
          rcases hp with rfl | rfl
          · exact hT.dot_lower x hmem
          · exact hT.star_lower x hmem
      · rcases hp with rfl | rfl <;> exact absurd (List.cons.inj h).1 (by decide)
      · rcases hp with rfl | rfl <;> exact absurd (List.cons.inj h).1 (by decide)
    subst hx
    refine ⟨s, rfl, ?_⟩
    have hself : T.lower x = [x] ∧ x ≠ 'Σ' := by
      rcases hp with rfl | rfl
      · exact ⟨T.lower_ascii '.' (by decide), by decide⟩
      · exact ⟨T.lower_ascii '*' (by decide), by decide⟩
    rw [← hu, Str.lowercaseFrom, if_neg hself.2, hself.1] at h
    exact (List.cons.inj h).2.symm

end

/-! ## What the guard counts -/

/-- Cutting a name that is written as a wildcard takes the first star or dot off. -/
theorem bare_suffix {name rest : Str} (h : name = "*.".toList ++ rest ∨ name = '.' :: rest) :
    (name.trimStartStr "*.".toList).trimStartMatches '.' <:+ rest := by
  rcases h with rfl | rfl
  · exact (List.dropWhile_suffix _).trans (Str.trimStartStr_suffix (by decide))
  · have hkeep : Str.trimStartStr ('.' :: rest) "*.".toList = '.' :: rest := by
      simp [Str.trimStartStr, Str.trimStartFrom, Str.stripStart, Str.dropStart]
    rw [hkeep, Str.trimStartMatches, List.dropWhile_cons_of_pos (by decide)]
    exact List.dropWhile_suffix _

/-- An allowlist entry the guard lets pass. -/
def Guarded (entry : Str) : Prop :=
  1 < labelCount ((entry.trim.trimStartStr "*.".toList).trimStartMatches '.')

theorem DotThen.of_append_dots {s dots : Str} (hdots : ∀ c ∈ dots, c = '.')
    (h : DotThen (s ++ dots)) : DotThen s := by
  obtain ⟨c, hc, hs⟩ := h
  obtain ⟨l, l', heq, hl, hl'⟩ := List.sublist_append_iff.1 hs
  have hnil : l' = [] := by
    by_contra hne
    have hlast : c ∈ l' := by
      have hc' := congrArg List.getLast? heq
      rw [List.getLast?_append_of_ne_nil _ hne] at hc'
      exact List.mem_of_mem_getLast? hc'.symm
    exact hc (hdots c (hl'.subset hlast))
  rw [hnil, List.append_nil] at heq
  exact ⟨c, hc, heq ▸ hl⟩

/-- How a wildcard entry is written, and what its lower-case form leaves. -/
theorem written_of_below {T : UnicodeTables} (hT : T.StarSound) {entry d : Str}
    (h : Allowlist.pattern T entry = some (.below d)) :
    ∃ rest before dots, (entry.trim = "*.".toList ++ rest ∨ entry.trim = '.' :: rest) ∧
      Str.lowercaseFrom T before rest = d ++ dots ∧ ∀ c ∈ dots, c = '.' := by
  have hlow : entry.trim.toLowercase T = (entry.trim.toLowercase T).trimEndMatches '.' ++
      (entry.trim.toLowercase T).rtakeWhile (· == '.') :=
    List.rdropWhile_append_rtakeWhile.symm
  have hdots : ∀ c ∈ (entry.trim.toLowercase T).rtakeWhile (· == '.'), c = '.' := by
    intro c hc
    simpa using List.mem_rtakeWhile_imp hc
  generalize (entry.trim.toLowercase T).rtakeWhile (· == '.') = dots at hlow hdots
  unfold Allowlist.pattern at h
  simp only at h
  generalize (entry.trim.toLowercase T).trimEndMatches '.' = e at hlow h
  split at h
  · cases h
  · split at h
    · rename_i rest hstar
      obtain rfl : rest = d := by simpa using h
      obtain rfl := Str.stripStart_eq_some_iff.1 hstar
      obtain ⟨t, ht, hrest⟩ := head_of_lowercaseFrom hT (.inr rfl) hlow
      obtain ⟨t', rfl, hrest'⟩ := head_of_lowercaseFrom hT (.inl rfl) hrest.symm
      exact ⟨t', _, dots, .inl ht, hrest'.symm, hdots⟩
    · rename_i rest hnone hdot
      obtain rfl : rest = d := by simpa using h
      obtain rfl := Str.stripStart_eq_some_iff.1 hdot
      obtain ⟨t, ht, hrest⟩ := head_of_lowercaseFrom hT (.inl rfl) hlow
      exact ⟨t, _, dots, .inr ht, hrest.symm, hdots⟩
    · cases h

/-- What an accepted wildcard entry allows has at least two labels. -/
theorem dotThen_of_below {T : UnicodeTables} (hT : T.StarSound) {entry d : Str}
    (h : Guarded entry) (hp : Allowlist.pattern T entry = some (.below d)) : DotThen d := by
  obtain ⟨rest, before, dots, hname, hlow, hdots⟩ := written_of_below hT hp
  have hrest : DotThen rest := (dotThen_of_labelCount h).mono (bare_suffix hname).sublist
  have hcase := DotThen.lowercaseFrom hT.toSound before hrest
  rw [hlow] at hcase
  exact hcase.of_append_dots hdots

/-- A wildcard rule the guard lets pass is for names below one with at least two labels. -/
theorem dotThen_of_rule {idx : Nat} {r : RewriteRule} (h : validateRewrite idx r = .ok ())
    {base : List Str} (hp : rulePattern r.name = .below base) : DotThen (['.'].intercalate base) := by
  simp only [validateRewrite, Checks.seq_ok_iff, Checks.reject_ok_iff] at h
  obtain ⟨-, -, -, hguard⟩ := h
  have hwritten : ∃ rest, (r.name.trim = "*.".toList ++ rest ∨ r.name.trim = '.' :: rest) ∧
      base = nameLabels rest := by
    unfold rulePattern at hp
    split at hp
    · rename_i rest hstar
      exact ⟨rest, .inl (Str.stripStart_eq_some_iff.1 hstar), (RulePattern.below.inj hp).symm⟩
    · rename_i rest hnone hdot
      exact ⟨rest, .inr (Str.stripStart_eq_some_iff.1 hdot), (RulePattern.below.inj hp).symm⟩
    · cases hp
  obtain ⟨rest, hname, rfl⟩ := hwritten
  have hwild : (r.name.trim.startsWith "*.".toList || r.name.trim.startsWith ['.']) = true := by
    rw [Bool.or_eq_true, Str.startsWith_iff, Str.startsWith_iff]
    rcases hname with hname | hname
    · exact .inl ⟨rest, hname⟩
    · exact .inr ⟨rest, hname⟩
  have hcount := not_le.1 fun hle => hguard ⟨hwild, hle⟩
  have hrest : DotThen rest := by
    refine (dotThen_of_labelCount hcount).mono ?_
    exact (List.rdropWhile_prefix _ _).sublist.trans (bare_suffix hname).sublist
  have hlast : ∀ c ∈ rest.getLast?, Str.isWhitespace c = false := by
    intro c hc
    refine (Str.trim_eq_self_iff.1 (Str.trim_trim r.name)).2 c ?_
    rcases hname with hname | hname
    · rw [hname, List.getLast?_append, Option.mem_def.1 hc]
      rfl
    · rw [hname, ← List.singleton_append, List.getLast?_append, Option.mem_def.1 hc]
      rfl
  rw [nameLabels, Str.intercalate_pieces, lowerNoDot]
  exact (hrest.trim hlast).trimEndMatches.toAsciiLowercase

/-! ## Accepted configs -/

theorem guarded_of_accepted {entries : List Str} {ctx : String}
    (h : rejectOverbroadAllowlist entries ctx = .ok ()) : ∀ e ∈ entries, Guarded e := by
  intro e he
  have hentry := Checks.forEach_ok_iff.1 h e he
  exact not_le.1 (Checks.reject_ok_iff.1 hentry)

theorem guarded_of_validateGroups {seen : List Str} {groups : List (BlocklistGroup × Nat)}
    (h : validateGroups seen groups = .ok ()) : ∀ p ∈ groups, ∀ e ∈ p.1.allowlist, Guarded e := by
  induction groups generalizing seen with
  | nil => simp
  | cons p rest ih =>
    simp only [validateGroups, Checks.seq_ok_iff] at h
    obtain ⟨-, -, -, hallow, hrest⟩ := h
    rw [List.forall_mem_cons]
    exact ⟨guarded_of_accepted hallow, ih hrest⟩

/-- An allowlist entry of a config, global or of a group. -/
def AllowEntry (cfg : DnsConfig) (e : Str) : Prop :=
  e ∈ cfg.blocklist.allowlist ∨ ∃ g ∈ cfg.blocklist.groups, e ∈ g.allowlist

theorem guarded_of_allowEntry {build : RegexBuild} {cfg : DnsConfig}
    (h : validateConfig build cfg = .ok ()) {e : Str} (he : AllowEntry cfg e) : Guarded e := by
  obtain ⟨-, -, hblocklist, -⟩ := validateConfig_ok_iff.1 h
  simp only [validateBlocklist, Checks.bind_ok_iff] at hblocklist
  obtain ⟨-, -, -, -, -, -, -, -, -, -, _, hglobal, hgroups⟩ := hblocklist
  rcases he with he | ⟨g, hg, he⟩
  · exact guarded_of_accepted hglobal e he
  · obtain ⟨i, hi⟩ := List.mem_iff_getElem?.1 hg
    exact guarded_of_validateGroups hgroups (g, i) (List.mem_zipIdx_iff_getElem?.2 hi) e he

/-- A dot and one label. -/
def OneLabel (suffix : Str) : Prop := ∃ l, suffix = '.' :: l ∧ '.' ∉ l

theorem DotThen.not_oneLabel {d : Str} (h : DotThen d) : ¬ OneLabel ('.' :: d) := by
  rintro ⟨l, heq, hl⟩
  obtain rfl := (List.cons.inj heq).2
  exact hl h.dot_mem

theorem not_oneLabel_of_allowed {build : RegexBuild} {cfg : DnsConfig} {T : UnicodeTables}
    (hT : T.StarSound) (h : validateConfig build cfg = .ok ()) {entries : List Str}
    (hentries : ∀ e ∈ entries, AllowEntry cfg e) :
    ∀ s ∈ (Allowlist.fromEntries T entries).suffixes, ¬ OneLabel s := by
  rintro s hs ⟨l, rfl, hl⟩
  obtain ⟨e, he, hp⟩ := Allowlist.mem_suffixes_fromEntries.1 hs
  exact hl (dotThen_of_below hT (guarded_of_allowEntry h (hentries e he)) hp).dot_mem

theorem dotThen_of_rewritten {build : RegexBuild} {cfg : DnsConfig}
    (h : validateConfig build cfg = .ok ()) {rules : List RewriteRule}
    (hrules : ∀ r ∈ rules, r ∈ cfg.rewrite) :
    ∀ s ∈ (RewriteMap.fromRules rules).suffixes, ∃ d, s.1 = '.' :: d ∧ DotThen d := by
  intro s hs
  rw [suffixes_fromRules, LongestFirst.longestFirst, List.mem_insertionSort,
    List.mem_filterMap] at hs
  obtain ⟨r, hr, hentry⟩ := hs
  obtain ⟨base, hp, -, htext⟩ := suffixEntry_eq_some hentry
  obtain ⟨idx, hidx⟩ := validateRewrite_of_mem h (hrules r hr)
  exact ⟨_, htext, dotThen_of_rule hidx hp⟩

/-! ## Names under a top-level domain -/

/-- A name right under a top-level domain. -/
theorem eq_of_dot {label tld front d : Str} (hlabel : '.' ∉ label) (htld : '.' ∉ tld)
    (h : label ++ '.' :: tld = front ++ '.' :: d) : '.' ∉ d := by
  have hcount := congrArg (List.count '.') h
  simp only [List.count_append, List.count_cons_self, List.count_eq_zero_of_not_mem hlabel,
    List.count_eq_zero_of_not_mem htld] at hcount
  exact List.count_eq_zero.1 (by omega)

/-- A label longer than any text of a finite set. -/
theorem exists_long_label (texts : Finset Str) :
    ∃ label : Str, label ≠ [] ∧ (∀ c ∈ label, c = 'a') ∧
      ∀ s ∈ texts, s.length < label.length := by
  refine ⟨List.replicate (texts.sup List.length + 1) 'a', by simp, ?_, fun s hs => ?_⟩
  · intro c hc
    exact List.eq_of_mem_replicate hc
  · rw [List.length_replicate]
    exact Nat.lt_succ_of_le (Finset.le_sup (f := List.length) hs)

section
variable {label tld : Str}

theorem trimEndMatches_under (htld : tld ≠ []) (hdot : '.' ∉ tld) :
    Str.trimEndMatches '.' (label ++ '.' :: tld) = label ++ '.' :: tld := by
  rw [Str.trimEndMatches, List.rdropWhile_eq_self_iff]
  intro hne
  have hlast : (label ++ '.' :: tld).getLast hne ∈ tld := by
    rw [List.getLast_append_of_ne_nil _ (by simp), List.getLast_cons htld]
    exact List.getLast_mem htld
  intro heq
  rw [beq_iff_eq] at heq
  exact hdot (heq ▸ hlast)

/-- Without a suffix of one label, a long name under a top-level domain is not allowed. -/
theorem exists_not_allowed {al : Allowlist} (hal : ∀ s ∈ al.suffixes, ¬ OneLabel s) (htld : tld ≠ [])
    (hdot : '.' ∉ tld) :
    ∃ label ≠ [], '.' ∉ label ∧ al.isAllowed (label ++ '.' :: tld) = false := by
  obtain ⟨label, hne, hchars, hlong⟩ := exists_long_label al.exact
  have hlabel : '.' ∉ label := by
    intro hmem
    exact absurd (hchars '.' hmem) (by decide)
  refine ⟨label, hne, hlabel, ?_⟩
  -- the name is looked up as it is or in lower case, either way with the label as it is
  have hform : ∃ tld' : Str, '.' ∉ tld' ∧
      (if (label ++ '.' :: tld).any Char.isUpper then Str.toAsciiLowercase (label ++ '.' :: tld)
        else label ++ '.' :: tld) = label ++ '.' :: tld' := by
    split
    · refine ⟨tld.toAsciiLowercase, by simpa using hdot, ?_⟩
      have hkeep : label.toAsciiLowercase = label := by
        conv_rhs => rw [← List.map_id label]
        refine List.map_congr_left fun c hc => ?_
        rw [hchars c hc]
        rfl
      rw [Str.toAsciiLowercase, List.map_append, List.map_cons]
      exact congrArg₂ _ hkeep rfl
    · exact ⟨tld, hdot, rfl⟩
  obtain ⟨tld', hdot', hname⟩ := hform
  simp only [Allowlist.isAllowed, trimEndMatches_under htld hdot, List.append_eq_nil_iff,
    reduceCtorEq, and_false, if_false, hname, Bool.or_eq_false_iff, decide_eq_false_iff_not]
  constructor
  · intro hmem
    have hlen := hlong _ hmem
    rw [List.length_append] at hlen
    omega
  · rw [← Bool.not_eq_true, Allowlist.suffixWalk_iff]
    rintro ⟨front, d, hd, heq⟩
    exact hal _ hd ⟨d, rfl, eq_of_dot hlabel hdot' heq⟩

/-- Without a suffix of one label, a long name under a top-level domain is not rewritten. -/
theorem exists_not_rewritten {map : RewriteMap} (hmap : ∀ s ∈ map.suffixes, ∃ d, s.1 = '.' :: d ∧
    DotThen d) (htld : tld ≠ []) (hdot : '.' ∉ tld) :
    ∃ label ≠ [], '.' ∉ label ∧
      ∀ T qtype, map.lookup T (label ++ '.' :: tld) qtype = none := by
  obtain ⟨label, hne, hchars, hlong⟩ := exists_long_label map.exact.keys.toFinset
  have hlabel : '.' ∉ label := by
    intro hmem
    exact absurd (hchars '.' hmem) (by decide)
  refine ⟨label, hne, hlabel, fun T qtype => ?_⟩
  have hexact : map.exact.lookup (Str.trimEndMatches '.' (label ++ '.' :: tld)) = none := by
    rw [AList.lookup_eq_none, trimEndMatches_under htld hdot]
    intro hmem
    have hlen := hlong _ (List.mem_toFinset.2 hmem)
    rw [List.length_append] at hlen
    omega
  have hsuffix : (map.suffixes.find? fun s => Str.endsWith (label ++ '.' :: tld) s.1) = none := by
    rw [List.find?_eq_none]
    intro s hs hends
    obtain ⟨d, htext, hd⟩ := hmap s hs
    obtain ⟨front, heq⟩ := Str.endsWith_iff.1 hends
    exact eq_of_dot hlabel hdot (htext ▸ heq) hd.dot_mem
  simp only [RewriteMap.lookup, trimEndMatches_under htld hdot, hexact, hsuffix, Option.map_none,
    ite_self]

end

/-- The wildcard guard: whatever an accepted entry or rule is compiled to, no suffix is a dot and one
label, and under every top-level domain some name is neither allowed nor rewritten. -/
theorem wildcard_guard {build : RegexBuild} {cfg : DnsConfig} {T : UnicodeTables} (hT : T.StarSound)
    (h : validateConfig build cfg = .ok ()) :
    (∀ entries, (∀ e ∈ entries, AllowEntry cfg e) →
      (∀ s ∈ (Allowlist.fromEntries T entries).suffixes, ¬ OneLabel s) ∧
      ∀ tld ≠ [], '.' ∉ tld → ∃ label ≠ [], '.' ∉ label ∧
        (Allowlist.fromEntries T entries).isAllowed (label ++ '.' :: tld) = false) ∧
    ∀ rules, (∀ r ∈ rules, r ∈ cfg.rewrite) →
      (∀ s ∈ (RewriteMap.fromRules rules).suffixes, ¬ OneLabel s.1) ∧
      ∀ tld ≠ [], '.' ∉ tld → ∃ label ≠ [], '.' ∉ label ∧
        ∀ qtype, (RewriteMap.fromRules rules).lookup T (label ++ '.' :: tld) qtype = none := by
  refine ⟨fun entries hentries => ?_, fun rules hrules => ?_⟩
  · have hsuffixes := not_oneLabel_of_allowed hT h hentries
    exact ⟨hsuffixes, fun tld htld hdot => exists_not_allowed hsuffixes htld hdot⟩
  · have hsuffixes := dotThen_of_rewritten h hrules
    refine ⟨fun s hs => ?_, fun tld htld hdot => ?_⟩
    · obtain ⟨d, htext, hd⟩ := hsuffixes s hs
      rw [htext]
      exact hd.not_oneLabel
    · obtain ⟨label, hne, hlabel, hlookup⟩ := exists_not_rewritten hsuffixes htld hdot
      exact ⟨label, hne, hlabel, hlookup T⟩

theorem starSound_asciiOnly : UnicodeTables.asciiOnly.StarSound where
  toSound := UnicodeTables.sound_asciiOnly
  star_lower c h := by
    unfold UnicodeTables.asciiOnly at h
    simp only at h
    split at h
    · have hlower := (List.mem_singleton.1 h).symm
      rcases Str.toLower_cases c with ⟨-, hc⟩ | ⟨-, hlow, -, hc⟩
      · exact hc.symm.trans hlower
      · rw [hlower] at hc
        have hstar : '*'.toNat = 42 := rfl
        omega
    · exact (List.mem_singleton.1 h).symm

/-- Odd spellings that pass: blanks, dots and stars around two labels. -/
def spelledConfig : DnsConfig where
  blocklist := { allowlist := [" *.Example.COM.. ".toList, "*.com. .".toList] }
  rewrite := [{ name := "*. .com".toList, block := true }]

theorem wildcard_guard_spelled :
    validateConfig (fun _ => .ok fun _ => false) spelledConfig = .ok () ∧
    (∀ s ∈ (Allowlist.fromEntries .asciiOnly spelledConfig.blocklist.allowlist).suffixes,
      ¬ OneLabel s) ∧
    ∀ s ∈ (RewriteMap.fromRules spelledConfig.rewrite).suffixes, ¬ OneLabel s.1 := by
  have hvalid : validateConfig (fun _ => .ok fun _ => false) spelledConfig = .ok () := by
    decide +kernel
  have hguard := wildcard_guard starSound_asciiOnly hvalid
  exact ⟨hvalid, (hguard.1 _ fun _ he => .inl he).1, (hguard.2 _ fun _ hr => hr).1⟩

end RustyDns.L4.WildcardGuard
