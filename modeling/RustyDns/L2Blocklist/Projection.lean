import RustyDns.L2Blocklist.Entries
import RustyDns.L2Blocklist.Allowlist

/-!
# Names that change when they are read again

`validate_and_normalize` strips blanks once and then dots once, so dots can uncover a blank that
stays. The name then ends in a label of blanks. The two label guard of `validate_allow_entry` counts
that label; `extend_exact` strips it, with the dot before it.

`com. .` is read as `com. `, which is read as `com`. As an exception rule it passes the guard and is
stored as the single label `com`.

Results:
* `validateAndNormalize_again_iff`: which texts become names that are read as themselves.
* `labels_of_validated`: which texts become names that keep two labels in the allowlist.
* `normalisation_projection_iff`: both, for every text and for the rules of every list.
-/

namespace RustyDns.L2.Blocklist

open RustyDns.Lib RustyDns.Lib.Labels

section
variable {T : UnicodeTables} {s d : Str}

/-! ## Blanks of a normalised name -/

/-- Blanks at the start are gone before the dots are stripped. -/
theorem head_not_blank (h : validateAndNormalize s = some d) :
    ∀ c ∈ d.head?, Str.isWhitespace c = false := by
  obtain ⟨rfl, -⟩ := validateAndNormalize_eq_some_iff.1 h
  have hstart := (Str.trim_eq_self_iff.1 (Str.trim_trim s)).1
  obtain ⟨dots, hdots⟩ := List.rdropWhile_prefix (· == '.') s.trim
  change s.trim.trimEndMatches '.' ++ dots = s.trim at hdots
  intro c hc
  rw [Str.toAsciiLowercase, List.head?_map, Option.mem_def, Option.map_eq_some_iff] at hc
  obtain ⟨c', hc', rfl⟩ := hc
  rw [Str.isWhitespace_toLower]
  refine hstart c' ?_
  rw [← hdots, List.head?_append, hc']
  rfl

/-- A name is without blanks at its ends if no blank stands before the dots that were stripped. -/
theorem trim_eq_self_iff_last (h : validateAndNormalize s = some d) :
    d.trim = d ↔ ∀ c ∈ (s.trim.trimEndMatches '.').getLast?, Str.isWhitespace c = false := by
  rw [Str.trim_eq_self_iff, and_iff_right (head_not_blank h)]
  obtain ⟨rfl, -⟩ := validateAndNormalize_eq_some_iff.1 h
  rw [Str.toAsciiLowercase, List.getLast?_map]
  constructor
  · intro hlast c hc
    rw [← Str.isWhitespace_toLower]
    exact hlast c.toLower (Option.mem_map_of_mem _ hc)
  · intro hlast c hc
    obtain ⟨c', hc', rfl⟩ := Option.mem_map.1 hc
    rw [Str.isWhitespace_toLower]
    exact hlast c' hc'

theorem validateAndNormalize_again_iff (h : validateAndNormalize s = some d) :
    validateAndNormalize d = some d ↔
      ∀ c ∈ (s.trim.trimEndMatches '.').getLast?, Str.isWhitespace c = false := by
  have hnormal := (validateAndNormalize_eq_some_iff.1 h).2
  rw [← trim_eq_self_iff_last h]
  constructor
  · intro hagain
    -- the second reading only shortens the name, so it took no blank away
    have hlength := congrArg List.length (validateAndNormalize_eq_some_iff.1 hagain).1
    have hdots := (List.rdropWhile_prefix (· == '.') d.trim).length_le
    change (d.trim.trimEndMatches '.').length ≤ _ at hdots
    rw [Str.toAsciiLowercase, List.length_map] at hlength
    exact (Str.trim_infix d).eq_of_length_le (by omega)
  · exact validateAndNormalize_self hnormal

/-! ## Labels in the allowlist -/

theorem Normalised.no_double_dot (h : Normalised d) (x y : Str) : d ≠ x ++ '.' :: '.' :: y := by
  rintro rfl
  have hpieces : pieces '.' (x ++ '.' :: '.' :: y) = pieces '.' x ++ [] :: pieces '.' y := by
    rw [pieces_append_sep, pieces, if_pos rfl]
  exact (h.labels [] (by simp [hpieces])).2 rfl

/-- The allowlist lowercases what is in lower case. -/
theorem Normalised.exactForm_eq (h : Normalised d) :
    Allowlist.exactForm T d = d.trim.trimEndMatches '.' := by
  have hascii : Str.isAscii (d.trim.trimEndMatches '.') = true := by
    rw [Str.isAscii_trimEndMatches_dot]
    exact List.all_eq_true.2 fun c hc => (h.printable c ((Str.trim_infix d).subset hc)).2
  rw [Allowlist.exactForm, Str.toLowercase_of_isAscii T hascii,
    ← Str.trimEndMatches_toAsciiLowercase, ← Str.trim_toAsciiLowercase, h.lower]

/-- The name loses its second label exactly if it is one label, a dot and blanks. -/
theorem labels_exactForm_iff (h : Normalised d) (hdot : '.' ∈ d) :
    2 ≤ (pieces '.' (Allowlist.exactForm T d)).length ↔
      ¬ ∃ l, '.' ∉ l ∧ d.trim = l ++ ['.'] := by
  have hmem : '.' ∈ d.trim := Str.mem_trim hdot (by decide)
  rw [h.exactForm_eq, two_le_length_pieces_iff]
  obtain ⟨before, after, hinfix⟩ := Str.trim_infix d
  rcases List.eq_nil_or_concat' d.trim with hnil | ⟨v, c, hv⟩
  · rw [hnil] at hmem
    cases hmem
  · rw [hv] at hmem hinfix ⊢
    by_cases hc : c = '.'
    · subst hc
      -- no dot stands before the last one, so only that one goes
      have hkept : Str.trimEndMatches '.' v = v := by
        refine List.rdropWhile_eq_self_iff.2 fun hne hlast => ?_
        rw [beq_iff_eq] at hlast
        refine h.no_double_dot (before ++ v.dropLast) after ?_
        rw [← hinfix, ← List.dropLast_append_getLast hne, hlast]
        simp
      rw [Str.trimEndMatches_concat, hkept]
      constructor
      · rintro hmem ⟨l, hl, heq⟩
        exact hl (List.append_cancel_right heq ▸ hmem)
      · intro hnot
        by_contra hv
        exact hnot ⟨v, hv, rfl⟩
    · have hkept : Str.trimEndMatches '.' (v ++ [c]) = v ++ [c] :=
        List.rdropWhile_concat_neg _ _ _ (by simpa using hc)
      rw [hkept]
      refine iff_of_true hmem ?_
      rintro ⟨l, -, heq⟩
      exact hc (List.append_inj_right' heq rfl |> List.singleton_inj.1)

/-! ## Names as written -/

/-- Without outer blanks the text is one label, a dot, and blanks with dots after them. -/
def OneLabel (name : Str) : Prop :=
  ∃ l blanks dots, name.trim = l ++ '.' :: (blanks ++ dots) ∧ '.' ∉ l ∧
    (∀ c ∈ blanks, Str.isWhitespace c = true) ∧ ∀ c ∈ dots, c = '.'

theorem trimEndMatches_of_notMem {l : Str} (h : '.' ∉ l) : l.trimEndMatches '.' = l := by
  refine List.rdropWhile_eq_self_iff.2 fun hne hlast => h ?_
  rw [← beq_iff_eq.1 hlast]
  exact List.getLast_mem hne

/-- What the domain rules make of such a text, if they take it as two labels. -/
theorem trimEndMatches_of_oneLabel {name l blanks dots : Str} (h : validateMultiLabel name = some d)
    (hname : name.trim = l ++ '.' :: (blanks ++ dots)) (hl : '.' ∉ l)
    (hblanks : ∀ c ∈ blanks, Str.isWhitespace c = true) (hdots : ∀ c ∈ dots, c = '.') :
    blanks ≠ [] ∧ name.trim.trimEndMatches '.' = l ++ '.' :: blanks := by
  have hstrip : name.trim.trimEndMatches '.' = (l ++ '.' :: blanks).trimEndMatches '.' := by
    rw [hname, ← List.cons_append, ← List.append_assoc, Str.trimEndMatches,
      Str.rdropWhile_append_all _ fun c hc => beq_iff_eq.2 (hdots c hc)]
    rfl
  rcases List.eq_nil_or_concat' blanks with rfl | ⟨front, c, rfl⟩
  · -- one label and dots is not taken
    obtain ⟨hvalid, hdot⟩ := validateBlockEntry_eq_some_iff.1 h
    rw [(validateAndNormalize_eq_some_iff.1 hvalid).1, Str.dot_mem_toAsciiLowercase, hstrip,
      Str.trimEndMatches_concat, trimEndMatches_of_notMem hl] at hdot
    exact absurd hdot hl
  · have hc : Str.isWhitespace c = true := hblanks c (by simp)
    refine ⟨by simp, hstrip.trans ?_⟩
    rw [← List.cons_append, ← List.append_assoc]
    refine List.rdropWhile_concat_neg _ _ _ fun hdot => ?_
    rw [beq_iff_eq.1 hdot] at hc
    cases hc

/-- The text is one label and so on if what the domain rules make of it is one label, a dot and
blanks. -/
theorem oneLabel_iff {name : Str} (h : validateMultiLabel name = some d) :
    OneLabel name ↔ ∃ l, '.' ∉ l ∧ d.trim = l ++ ['.'] := by
  obtain ⟨hvalid, -⟩ := validateBlockEntry_eq_some_iff.1 h
  have hd := (validateAndNormalize_eq_some_iff.1 hvalid).1
  have hhead := head_not_blank hvalid
  constructor
  · rintro ⟨l, blanks, dots, hname, hl, hblanks, hdots⟩
    obtain ⟨-, hstrip⟩ := trimEndMatches_of_oneLabel h hname hl hblanks hdots
    refine ⟨l.toAsciiLowercase, by simpa using hl, ?_⟩
    have hlower : d = (l ++ ['.']).toAsciiLowercase ++ Str.toAsciiLowercase blanks := by
      rw [hd, hstrip]
      simp [Str.toAsciiLowercase]
    have hblank : ∀ c ∈ Str.toAsciiLowercase blanks, Str.isWhitespace c = true := by
      intro c hc
      obtain ⟨c', hc', rfl⟩ := List.mem_map.1 hc
      rw [Str.isWhitespace_toLower]
      exact hblanks c' hc'
    rw [Str.trim_eq_rdropWhile hhead, hlower, Str.rdropWhile_append_all _ hblank, Str.toAsciiLowercase,
      List.map_append]
    exact List.rdropWhile_concat_neg _ _ _ (by decide)
  · rintro ⟨l, hl, htrim⟩
    -- dots were stripped from the text, and blanks then from the name
    have hhead' : ∀ c ∈ (name.trim.trimEndMatches '.').head?, Str.isWhitespace c = false := by
      intro c hc
      rw [← Str.isWhitespace_toLower]
      refine hhead c.toLower ?_
      rw [hd, Str.toAsciiLowercase, List.head?_map]
      exact Option.mem_map_of_mem _ hc
    rw [hd, Str.trim_toAsciiLowercase, Str.trim_eq_rdropWhile hhead'] at htrim
    obtain ⟨l', last, hkept, rfl, hlast⟩ := List.map_eq_append_iff.1 htrim
    obtain ⟨c, rfl, hc⟩ := List.map_eq_singleton_iff.1 hlast
    obtain rfl := Str.toLower_eq_dot_iff.1 hc
    refine ⟨l', (name.trim.trimEndMatches '.').rtakeWhile Str.isWhitespace,
      name.trim.rtakeWhile (· == '.'), ?_,
      fun hdot => hl (Str.dot_mem_toAsciiLowercase.2 hdot), fun c => List.mem_rtakeWhile_imp,
      fun c hc => by simpa using List.mem_rtakeWhile_imp hc⟩
    calc name.trim = name.trim.trimEndMatches '.' ++ name.trim.rtakeWhile (· == '.') :=
          (List.rdropWhile_append_rtakeWhile ..).symm
      _ = l' ++ ['.'] ++ (name.trim.trimEndMatches '.').rtakeWhile Str.isWhitespace ++
            name.trim.rtakeWhile (· == '.') := by
          rw [← hkept, List.rdropWhile_append_rtakeWhile]
      _ = _ := by simp

end

/-! ## Exception rules -/

section
variable {T : UnicodeTables} {content line name d : Str}

/-- An allow entry that the domain rules took keeps two labels unless its text is one label, a dot,
blanks and dots. -/
theorem labels_of_validated (h : validateAllowEntry name = some d) :
    2 ≤ (pieces '.' (Allowlist.exactForm T d)).length ↔ ¬ OneLabel name := by
  obtain ⟨hvalid, hdot⟩ := validateBlockEntry_eq_some_iff.1 h
  rw [oneLabel_iff h, labels_exactForm_iff (validateAndNormalize_eq_some_iff.1 hvalid).2 hdot]

/-- Text without blanks keeps its two labels. -/
theorem not_oneLabel_of_no_blank (h : validateAllowEntry name = some d)
    (hname : ∀ c ∈ name, Str.isWhitespace c = false) : ¬ OneLabel name := by
  rintro ⟨l, blanks, dots, htrim, hl, hblanks, hdots⟩
  obtain ⟨hne, -⟩ := trimEndMatches_of_oneLabel h htrim hl hblanks hdots
  obtain ⟨c, hc⟩ := List.exists_mem_of_ne_nil blanks hne
  have hmem : c ∈ name := by
    rw [← Str.trim_of_no_blank hname, htrim]
    simp [hc]
  have hblank := hblanks c hc
  rw [hname c hmem] at hblank
  cases hblank

theorem allow_notMem_hostsLine : .allow d ∉ hostsLine line := by
  unfold hostsLine
  split
  · simp
  · split
    · split <;> simp
    · simp

theorem allow_notMem_plainLine : .allow d ∉ plainLine line := by
  unfold plainLine
  split
  · simp
  · dsimp only
    split <;> simp

/-- An allow entry of an RPZ list is for a word of its line. -/
theorem allow_mem_rpzLine (h : .allow d ∈ rpzLine T line) :
    ∃ name, (∀ c ∈ name, Str.isWhitespace c = false) ∧ validateAllowEntry name = some d := by
  unfold rpzLine at h
  split at h
  · cases h
  · split at h
    · rename_i name rtype rdata rest hwords
      refine ⟨name, Str.no_blank_of_mem_splitWhitespace (hwords ▸ List.mem_cons_self), ?_⟩
      dsimp only at h
      split at h
      · cases h
      · split at h
        · simpa using h
        · split at h
          · split at h <;> simp at h
          · cases h
    · cases h

/-- `name` stands in an exception rule of a list, between `@@||` and the first `^`, and the rule gives
the allow entry `d`. -/
def ExceptionRule (content name d : Str) : Prop :=
  ∃ line ∈ content.lines, .allow d ∈ adguardLine line ∧
    ∃ rest, line.trim = "@@||".toList ++ (name ++ '^' :: rest) ∧ '^' ∉ name

/-- An allow entry of an AdGuard list is for what stands in an exception rule. -/
theorem allow_mem_adguardLine (h : .allow d ∈ adguardLine line) :
    ∃ name rest, line.trim = "@@||".toList ++ (name ++ '^' :: rest) ∧ '^' ∉ name ∧
      validateAllowEntry name = some d := by
  unfold adguardLine at h
  split at h
  · cases h
  · dsimp only at h
    split at h
    · cases h
    · split at h
      · rename_i rest hrest
        split at h
        · rename_i name after hsplit
          obtain ⟨rfl, hcaret⟩ := Str.splitOnce_eq_some_iff.1 hsplit
          split at h
          · cases h
          · exact ⟨name, after, Str.stripStart_eq_some_iff.1 hrest, hcaret, by simpa using h⟩
        · cases h
      · split at h
        · split at h
          · cases h
          · obtain ⟨d', -, hmem⟩ := List.mem_flatMap.1 h
            simp at hmem
        · cases h

theorem exists_exceptionRule (h : .allow d ∈ parseAdguard content) :
    ∃ name, ExceptionRule content name d := by
  obtain ⟨line, hline, hmem⟩ := List.mem_flatMap.1 h
  obtain ⟨name, rest, htext, hcaret, -⟩ := allow_mem_adguardLine hmem
  exact ⟨name, line, hline, hmem, rest, htext, hcaret⟩

theorem ExceptionRule.validated (h : ExceptionRule content name d) :
    validateAllowEntry name = some d := by
  obtain ⟨line, -, hmem, rest, htext, hcaret⟩ := h
  obtain ⟨name', rest', htext', hcaret', hvalid⟩ := allow_mem_adguardLine hmem
  rw [htext] at htext'
  obtain ⟨rfl, -⟩ := first_piece hcaret hcaret' (List.append_cancel_left htext')
  exact hvalid

end

/-- **Where normalisation is a projection.** What becomes of a text is read as itself exactly if no
blank stands before the trailing dots of the text. Allow entries of hosts files, plain lists and RPZ
lists keep two labels in the allowlist; one of an AdGuard list does exactly if the name in its rule is
not written as one label, a dot, blanks and dots. -/
theorem normalisation_projection_iff (T : UnicodeTables) :
    (∀ s d : Str, validateAndNormalize s = some d →
      (validateAndNormalize d = some d ↔
        ∀ c ∈ (s.trim.trimEndMatches '.').getLast?, Str.isWhitespace c = false)) ∧
    (∀ content d : Str, (.allow d ∈ parseHosts content ∨ .allow d ∈ parsePlain content ∨
        .allow d ∈ parseRpz T content) → 2 ≤ (pieces '.' (Allowlist.exactForm T d)).length) ∧
    ∀ content d : Str, .allow d ∈ parseAdguard content →
      (∃ name, ExceptionRule content name d) ∧ ∀ name, ExceptionRule content name d →
        (2 ≤ (pieces '.' (Allowlist.exactForm T d)).length ↔ ¬ OneLabel name) := by
  refine ⟨fun s d => validateAndNormalize_again_iff, fun content d h => ?_, fun content d h =>
    ⟨exists_exceptionRule h, fun name hrule => labels_of_validated hrule.validated⟩⟩
  rcases h with h | h | h <;> obtain ⟨line, -, hline⟩ := List.mem_flatMap.1 h
  · exact absurd hline allow_notMem_hostsLine
  · exact absurd hline allow_notMem_plainLine
  · obtain ⟨name, hname, hvalid⟩ := allow_mem_rpzLine hline
    exact (labels_of_validated hvalid).2 (not_oneLabel_of_no_blank hvalid hname)

/-- An exception rule for `com. .` has the name `com. `, which is read again as `com` and stored as
`com`. -/
theorem com_blank_dot_single_label :
    validateAndNormalize "com. .".toList = some "com. ".toList ∧
    validateAndNormalize "com. ".toList = some "com".toList ∧
    parseAdguard "@@||com. .^".toList = [.allow "com. ".toList] ∧
    ∀ T, Allowlist.exactForm T "com. ".toList = "com".toList := by
  refine ⟨by decide, by decide, by decide, fun T => ?_⟩
  exact (Str.toLowercase_of_isAscii T (by decide)).trans (by decide)

end RustyDns.L2.Blocklist
