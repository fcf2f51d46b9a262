import RustyDns.L2Blocklist.Parser
import RustyDns.Lib.Written

/-!
# The names of block entries

What the parsers of `rustydns-blocklist/src/parser.rs` let through as the name of an entry
(`Normalised`), and that such a name, if it has no blanks, goes through them again.

Results:
* `validateAndNormalize_eq_some_iff`: the domain rules accept exactly what becomes a normalised name.
* `validated_of_mem_parsers`: the name of every entry went through the domain rules, whichever of
  the four formats the content is read as.
* `parse_adguardRule`: the rule for a name blocks that name and what is below it, and nothing else.
-/

namespace RustyDns.L2.Blocklist

open RustyDns.Lib RustyDns.Lib.Labels

/-- The output of the domain rules. -/
structure Normalised (d : Str) : Prop where
  ne_nil : d ≠ []
  printable : ∀ c ∈ d, Str.isAsciiControl c = false ∧ Str.isAsciiChar c = true
  lower : d.toAsciiLowercase = d
  length : d.byteLen ≤ maxDomainBytes
  labels : ∀ l ∈ pieces '.' d, Str.byteLen l ≤ maxLabelBytes ∧ l ≠ []

theorem isAsciiControl_toLower (c : Char) : Str.isAsciiControl c.toLower = Str.isAsciiControl c := by
  rcases Str.toLower_cases c with ⟨-, h⟩ | ⟨-, hlow, hhigh, h⟩
  · rw [h]
  · simp only [Str.isAsciiControl, h]
    rw [Bool.eq_iff_iff]
    simp only [Bool.or_eq_true, decide_eq_true_eq, beq_iff_eq]
    omega

section
variable {s d : Str}

theorem validateAndNormalize_eq_some_iff :
    validateAndNormalize s = some d ↔
      d = (s.trim.trimEndMatches '.').toAsciiLowercase ∧ Normalised d := by
  unfold validateAndNormalize
  simp only [Str.splitBy_eq_pieces]
  generalize s.trim.trimEndMatches '.' = t
  constructor
  · intro h
    split at h
    · cases h
    · split at h
      · cases h
      · split at h
        · cases h
        · split at h
          · cases h
          · rename_i hne hchars hlen hlabels
            cases h
            refine ⟨rfl, by simpa using hne, ?_, by simp, by omega, ?_⟩
            · intro c hc
              obtain ⟨c', hc', rfl⟩ := List.mem_map.1 hc
              rw [isAsciiControl_toLower, Str.isAsciiChar_toLower]
              simp only [List.any_eq_true, not_exists, not_and] at hchars
              simpa using hchars c' hc'
            · simpa [List.any_eq_true] using hlabels
  · rintro ⟨rfl, h⟩
    have hne : t ≠ [] := by simpa using h.ne_nil
    have hchars : (t.any fun c => Str.isAsciiControl c || !Str.isAsciiChar c) = false := by
      rw [List.any_eq_false]
      intro c hc
      have := h.printable c.toLower (List.mem_map_of_mem hc)
      rw [isAsciiControl_toLower, Str.isAsciiChar_toLower] at this
      simp [this]
    rw [if_neg hne, if_neg (by simp [hchars]), if_neg (by have := h.length; omega), if_neg]
    simpa [List.any_eq_true] using h.labels

/-- A normalised name does not end in a dot. -/
theorem Normalised.last_ne_dot {c : Char} (h : Normalised (d ++ [c])) : c ≠ '.' := by
  intro hdot
  subst hdot
  have hpieces := pieces_append_sep '.' d []
  exact (h.labels [] (by simp [hpieces, pieces])).2 rfl

theorem Normalised.trimEndMatches_eq (h : Normalised d) : d.trimEndMatches '.' = d := by
  obtain ⟨d', c, rfl⟩ := (List.eq_nil_or_concat' d).resolve_left h.ne_nil
  exact List.rdropWhile_concat_neg _ _ _ (by simpa using h.last_ne_dot)

theorem validateAndNormalize_self (h : Normalised d) (hblank : d.trim = d) :
    validateAndNormalize d = some d := by
  rw [validateAndNormalize_eq_some_iff, hblank, h.trimEndMatches_eq, h.lower]
  exact ⟨rfl, h⟩

theorem validateBlockEntry_eq_some_iff :
    validateBlockEntry s = some d ↔ validateAndNormalize s = some d ∧ '.' ∈ d := by
  simp only [validateBlockEntry, validateMultiLabel, Option.bind_eq_some_iff,
    Option.ite_none_right_eq_some, Option.some.injEq]
  constructor
  · rintro ⟨d', h, hdot, rfl⟩
    exact ⟨h, hdot⟩
  · rintro ⟨h, hdot⟩
    exact ⟨d, h, hdot, rfl⟩

/-- None of the names that are always skipped has two labels. -/
theorem blockable_eq (s : Str) : blockable s = validateBlockEntry s := by
  unfold blockable
  cases h : validateBlockEntry s with
  | none => rfl
  | some d =>
    have hdot := (validateBlockEntry_eq_some_iff.1 h).2
    have hskip : isAlwaysSkipped d = false := by
      rw [isAlwaysSkipped, decide_eq_false_iff_not]
      intro hmem
      have hnone : ∀ x ∈ ["localhost".toList, "broadcasthost".toList, "local".toList,
          "ip6-localhost".toList, "ip6-loopback".toList, "ip6-localnet".toList,
          "ip6-mcastprefix".toList, "ip6-allnodes".toList, "ip6-allrouters".toList,
          "ip6-allhosts".toList], '.' ∉ x := by decide
      exact hnone d hmem hdot
    simp [hskip]

/-! ## What the parsers emit -/

/-- The name of a block entry. -/
def ParsedEntry.blockName : ParsedEntry → Option Str
  | .exact d => some d
  | .wildcardParent d => some d
  | .allow _ => none

/-- `e` blocks a name that went through the domain rules, or is an allow entry. -/
def FromRules (e : ParsedEntry) : Prop :=
  ∀ d, e.blockName = some d → ∃ s, validateBlockEntry s = some d

/-- The name of an entry of any kind. -/
def ParsedEntry.domain : ParsedEntry → Str
  | .exact d => d
  | .wildcardParent d => d
  | .allow d => d

/-- The name of the entry went through the domain rules. -/
def Validated (e : ParsedEntry) : Prop := ∃ s, validateMultiLabel s = some e.domain

theorem validated_of_mem {f : Str → ParsedEntry} (hf : ∀ d, (f d).domain = d) {e : ParsedEntry}
    (h : e ∈ (validateMultiLabel s).toList.map f) : Validated e := by
  obtain ⟨d, hd, rfl⟩ := List.mem_map.1 h
  rw [Option.mem_toList] at hd
  exact ⟨s, by rw [hf]; exact hd⟩

theorem validated_hostsLine {e : ParsedEntry} (h : e ∈ hostsLine s) : Validated e := by
  unfold hostsLine at h
  split at h
  · cases h
  · split at h
    · split at h
      · obtain ⟨d, hd, rfl⟩ := List.mem_map.1 h
        obtain ⟨s', -, hs'⟩ := List.mem_filterMap.1 hd
        rw [blockable_eq] at hs'
        exact ⟨s', hs'⟩
      · cases h
    · cases h

theorem validated_plainLine {e : ParsedEntry} (h : e ∈ plainLine s) : Validated e := by
  unfold plainLine at h
  simp only [blockable_eq] at h
  split at h
  · cases h
  · split at h
    · cases h
    · exact validated_of_mem (fun _ => rfl) h

theorem validated_rpzLine {T : UnicodeTables} {e : ParsedEntry} (h : e ∈ rpzLine T s) :
    Validated e := by
  unfold rpzLine at h
  simp only [blockable_eq] at h
  split at h
  · cases h
  · split at h
    · split at h
      · cases h
      · split at h
        · exact validated_of_mem (fun _ => rfl) h
        · split at h
          · split at h
            · exact validated_of_mem (fun _ => rfl) h
            · exact validated_of_mem (fun _ => rfl) h
          · cases h
    · cases h

theorem validated_adguardLine {e : ParsedEntry} (h : e ∈ adguardLine s) : Validated e := by
  unfold adguardLine at h
  simp only [blockable_eq] at h
  split at h
  · cases h
  · split at h
    · cases h
    · split at h
      · split at h
        · split at h
          · cases h
          · exact validated_of_mem (fun _ => rfl) h
        · cases h
      · split at h
        · split at h
          · cases h
          · obtain ⟨d, hd, he⟩ := List.mem_flatMap.1 h
            rw [Option.mem_toList] at hd
            simp only [List.mem_cons, List.not_mem_nil, or_false] at he
            rcases he with rfl | rfl
            · exact ⟨_, hd⟩
            · exact ⟨_, hd⟩
        · cases h

/-- Whichever format a content is read as, each entry's name went through the domain rules. -/
theorem validated_of_mem_parsers {T : UnicodeTables} {content : Str} {e : ParsedEntry}
    (h : e ∈ parseHosts content ∨ e ∈ parsePlain content ∨ e ∈ parseRpz T content ∨
      e ∈ parseAdguard content) : Validated e := by
  rcases h with h | h | h | h <;> obtain ⟨line, -, hline⟩ := List.mem_flatMap.1 h
  · exact validated_hostsLine hline
  · exact validated_plainLine hline
  · exact validated_rpzLine hline
  · exact validated_adguardLine hline

theorem validated_of_mem_parse {T : UnicodeTables} {content : Str} {e : ParsedEntry}
    (h : e ∈ parse T content) : Validated e := by
  unfold parse at h
  split at h
  · exact validated_of_mem_parsers (T := T) (.inl h)
  · exact validated_of_mem_parsers (T := T) (.inr (.inl h))
  · exact validated_of_mem_parsers (.inr (.inr (.inl h)))
  · exact validated_of_mem_parsers (T := T) (.inr (.inr (.inr h)))

theorem fromRules_of_mem_parse {T : UnicodeTables} {content : Str} {e : ParsedEntry}
    (h : e ∈ parse T content) : FromRules e := by
  intro d hd
  obtain ⟨s, hs⟩ := validated_of_mem_parse h
  cases e with
  | exact d' => exact ⟨s, hs.trans hd⟩
  | wildcardParent d' => exact ⟨s, hs.trans hd⟩
  | allow d' => cases hd

/-! ## One rule -/

/-- The AdGuard rule for a name, on a line of its own. -/
def adguardRule (d : Str) : Str := "||".toList ++ d ++ "^\n".toList

/-- No character that means something to the parser of rules. -/
def PlainName (d : Str) : Prop := ∀ c ∈ d, Str.isWhitespace c = false ∧ c ≠ '^' ∧ c ≠ '/'

/-- The line of the rule. -/
def adguardText (d : Str) : Str := '|' :: '|' :: (d ++ ['^'])

theorem adguardText_no_blank (hplain : PlainName d) :
    ∀ c ∈ adguardText d, Str.isWhitespace c = false := by
  intro c hc
  simp only [adguardText, List.mem_cons, List.mem_append, List.not_mem_nil, or_false] at hc
  rcases hc with rfl | rfl | hc | rfl
  · decide
  · decide
  · exact (hplain c hc).1
  · decide

theorem lines_adguardRule (hplain : PlainName d) : (adguardRule d).lines = [adguardText d] := by
  have hspell : adguardRule d = spell '\n' [adguardText d] := by simp [adguardRule, adguardText]
  rw [hspell]
  refine Str.lines_spell (fun l hl hmem => ?_) fun l hl c hc => ?_
  · rw [List.mem_singleton.1 hl] at hmem
    exact absurd (adguardText_no_blank hplain _ hmem) (by decide)
  · rw [List.mem_singleton.1 hl] at hc
    exact adguardText_no_blank hplain c (List.mem_of_mem_getLast? hc)

theorem detectFormat_adguardRule (hplain : PlainName d) :
    detectFormat (adguardRule d) = .adGuard := by
  have hsignificant : insignificant (adguardText d) = false := by
    simp [insignificant, adguardText, Str.startsWith, Str.stripStart, Str.dropStart]
  have hformat : formatOfLine (adguardText d) = .adGuard := by
    simp [formatOfLine, adguardText, Str.startsWith, Str.stripStart, Str.dropStart]
  unfold detectFormat
  rw [lines_adguardRule hplain, List.map_singleton,
    Str.trim_of_no_blank (adguardText_no_blank hplain)]
  simp [hsignificant, hformat]

theorem adguardLine_adguardText (h : Normalised d) (hdot : '.' ∈ d) (hplain : PlainName d) :
    adguardLine (adguardText d) = [.exact d, .wildcardParent d] := by
  have hlen : Str.byteLen (adguardText d) ≤ maxLineBytes := by
    have hd := h.length
    have htext : Str.byteLen (adguardText d) = 2 + d.byteLen + 1 := by
      show Str.byteLen ("||".toList ++ d ++ ['^']) = _
      rw [Str.byteLen_append, Str.byteLen_append]
      rfl
    rw [htext]
    unfold maxDomainBytes at hd
    unfold maxLineBytes
    omega
  have hsplit : Str.splitOnce '^' (d ++ ['^']) = some (d, []) :=
    Str.splitOnce_eq_some_iff.2 ⟨rfl, fun hmem => (hplain _ hmem).2.1 rfl⟩
  have hslash : '/' ∉ d := fun hmem => (hplain _ hmem).2.2 rfl
  have hvalid : validateBlockEntry d = some d := validateBlockEntry_eq_some_iff.2
    ⟨validateAndNormalize_self h (Str.trim_of_no_blank fun c hc => (hplain c hc).1), hdot⟩
  unfold adguardLine
  rw [if_neg (by omega), Str.trim_of_no_blank (adguardText_no_blank hplain)]
  simp [adguardText, Str.startsWith, Str.stripStart, Str.dropStart, hsplit, hslash, blockable_eq,
    hvalid]

theorem parse_adguardRule (T : UnicodeTables) (h : Normalised d) (hdot : '.' ∈ d)
    (hplain : PlainName d) : parse T (adguardRule d) = [.exact d, .wildcardParent d] := by
  unfold parse
  rw [detectFormat_adguardRule hplain]
  simp only [parseAdguard, lines_adguardRule hplain, List.flatMap_singleton,
    adguardLine_adguardText h hdot hplain]

end

end RustyDns.L2.Blocklist
