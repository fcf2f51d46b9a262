import RustyDns.Lib.LongestFirst
import RustyDns.Lib.Written
import RustyDns.L1Core.Validate
import RustyDns.L4Daemon.Rewrite

/-!
# Which rewrite rule decides

The rewrite map keeps the exact rules in a hash map and the wildcard rules in a list of text
suffixes. Here its lookups are read off the rules, on labels: a rule is for one name or for every
name below one, and of the rules for a name one decides.

Results:
* `lookup_most_specific`: the last exact rule for the name decides, without one the first of the
  wildcard rules with the longest base; without either nothing is rewritten.
* `self_alias_iff`: a name is answered with an alias of itself exactly when a wildcard rule decides
  the name of its own target.
-/

namespace RustyDns.L4.Rewrite

open RustyDns.Lib RustyDns.Lib.Labels RustyDns.Lib.LongestFirst RustyDns.L1 RustyDns.L3

/-! ## What a rule is for -/

/-- The names a rule is for: one name, or every name below one. -/
inductive RulePattern where
  | exact (labels : List Str)
  | below (base : List Str)
  deriving DecidableEq, Repr

/-- The labels a rule's name writes. -/
def nameLabels (name : Str) : List Str := pieces '.' (lowerNoDot name)

/-- The name of a rule. `*.d` and `.d` are the same. -/
def rulePattern (name : Str) : RulePattern :=
  match name.trim.stripStart "*.".toList, name.trim.stripStart ['.'] with
  | some rest, _ => .below (nameLabels rest)
  | none, some rest => .below (nameLabels rest)
  | none, none => .exact (nameLabels name.trim)

/-- The labels of a queried name; none for the root. -/
def queryLabels (qname : Str) : List Str :=
  let key := qname.trimEndMatches '.'
  if key.isEmpty then [] else pieces '.' key

/-- The rule is a wildcard for the name. -/
def Covers (name : List Str) (r : RewriteRule) : Prop :=
  ∃ base, rulePattern r.name = .below base ∧ base <:+ name ∧ base ≠ name

def baseLen (r : RewriteRule) : Nat :=
  match rulePattern r.name with
  | .exact _ => 0
  | .below base => base.length

/-- The rule of the list that decides a name. -/
inductive Decides (rules : List RewriteRule) (name : List Str) (r : RewriteRule) : Prop
  | exact (before after : List RewriteRule) (split : rules = before ++ r :: after)
      (named : rulePattern r.name = .exact name)
      (last : ∀ r' ∈ after, rulePattern r'.name ≠ .exact name)
  | wildcard (unnamed : ∀ r' ∈ rules, rulePattern r'.name ≠ .exact name)
      (longest : FirstLongest baseLen (Covers name) rules r)

theorem Decides.mem {rules : List RewriteRule} {name : List Str} {r : RewriteRule}
    (h : Decides rules name r) : r ∈ rules := by
  cases h with
  | exact before after split => simp [split]
  | wildcard unnamed longest => exact longest.mem

theorem Decides.named_or_covers {rules : List RewriteRule} {name : List Str} {r : RewriteRule}
    (h : Decides rules name r) : rulePattern r.name = .exact name ∨ Covers name r := by
  cases h with
  | exact before after split named => exact .inl named
  | wildcard unnamed longest => exact .inr longest.passes

/-- The labels of a well-formed name. -/
theorem nameLabels_dotted {d : Str} {ls : List Str} (h : Str.Dotted d ls) (htrim : d.trim = d) :
    nameLabels d = ls := by
  rw [nameLabels, lowerNoDot, htrim, h.canonical_eq]
  exact (Str.pieces_eq_iff h.apart h.ne_nil).2 rfl

theorem rulePattern_wildcard {d : Str} {ls : List Str} (h : Str.Dotted d ls) (htrim : d.trim = d) :
    rulePattern ("*.".toList ++ d) = .below ls ∧ rulePattern (['.'] ++ d) = .below ls := by
  have hstar : Str.trim ("*.".toList ++ d) = "*.".toList ++ d :=
    Str.trim_append_self (by decide) htrim
  have hdot : Str.trim (['.'] ++ d) = ['.'] ++ d := Str.trim_append_self (by decide) htrim
  have hnot : Str.stripStart (['.'] ++ d) "*.".toList = none := rfl
  unfold rulePattern
  rw [hstar, hdot, hnot, Str.stripStart_eq_some_iff.2 rfl, Str.stripStart_eq_some_iff.2 rfl]
  simp only [nameLabels_dotted h htrim, and_self]

theorem rulePattern_exact {d : Str} {ls : List Str} (h : Str.Dotted d ls) (htrim : d.trim = d)
    (hstar : d.stripStart "*.".toList = none) : rulePattern d = .exact ls := by
  simp only [rulePattern, htrim, hstar, h.stripStart_dot, nameLabels_dotted h htrim]

theorem queryLabels_dotted {q : Str} {ls : List Str} (h : Str.Dotted q ls)
    (hlower : q.toAsciiLowercase = q) : queryLabels q = ls := by
  have hkey : q.trimEndMatches '.' = ['.'].intercalate ls := by
    rw [← h.canonical_eq, ← Str.trimEndMatches_toAsciiLowercase, hlower]
  rw [queryLabels, hkey]
  simp only [List.isEmpty_iff, h.intercalate_ne_nil, if_false]
  exact (Str.pieces_eq_iff h.apart h.ne_nil).2 rfl

/-! ## The map of the rules -/

section
variable {r : RewriteRule} {ls base base' name : List Str} {action : Action}

theorem exact_eq_nameLabels (h : rulePattern r.name = .exact ls) : ls = nameLabels r.name := by
  unfold rulePattern at h
  split at h
  · cases h
  · cases h
  · rw [← RulePattern.exact.inj h, nameLabels, nameLabels, lowerNoDot, lowerNoDot, Str.trim_trim]

theorem below_eq_nameLabels (h : rulePattern r.name = .below base) :
    ∃ text, base = nameLabels text := by
  unfold rulePattern at h
  split at h
  · exact ⟨_, (RulePattern.below.inj h).symm⟩
  · exact ⟨_, (RulePattern.below.inj h).symm⟩
  · cases h

/-- The entry a wildcard rule adds to the suffixes. -/
def suffixEntry (r : RewriteRule) : Option (Str × Action) :=
  match ruleAction r, rulePattern r.name with
  | some action, .below base => some ('.' :: ['.'].intercalate base, action)
  | _, _ => none

theorem suffixEntry_eq_some {s : Str × Action} (h : suffixEntry r = some s) :
    ∃ base, rulePattern r.name = .below base ∧ ruleAction r = some s.2 ∧
      s.1 = '.' :: ['.'].intercalate base := by
  unfold suffixEntry at h
  split at h
  · rename_i ha hp
    obtain rfl := Option.some.inj h
    exact ⟨_, hp, ha, rfl⟩
  · cases h

theorem addRule_of_exact (map : RewriteMap) (hp : rulePattern r.name = .exact ls)
    (ha : ruleAction r = some action) :
    addRule map r = { map with exact := map.exact.insert (['.'].intercalate ls) action } := by
  cases hstar : r.name.trim.stripStart "*.".toList with
  | some rest =>
    simp only [rulePattern, hstar] at hp
    cases hp
  | none =>
    cases hdot : r.name.trim.stripStart ['.'] with
    | some rest =>
      simp only [rulePattern, hstar, hdot] at hp
      cases hp
    | none =>
      simp only [rulePattern, hstar, hdot] at hp
      obtain rfl := RulePattern.exact.inj hp
      simp only [addRule, ha, hstar, hdot, nameLabels, Str.intercalate_pieces]

theorem addRule_of_below (map : RewriteMap) (hp : rulePattern r.name = .below base)
    (ha : ruleAction r = some action) :
    addRule map r =
      { map with suffixes := map.suffixes ++ [('.' :: ['.'].intercalate base, action)] } := by
  cases hstar : r.name.trim.stripStart "*.".toList with
  | some rest =>
    simp only [rulePattern, hstar] at hp
    obtain rfl := RulePattern.below.inj hp
    simp only [addRule, ha, hstar, nameLabels, Str.intercalate_pieces]
  | none =>
    cases hdot : r.name.trim.stripStart ['.'] with
    | some rest =>
      simp only [rulePattern, hstar, hdot] at hp
      obtain rfl := RulePattern.below.inj hp
      simp only [addRule, ha, hstar, hdot, nameLabels, Str.intercalate_pieces]
    | none =>
      simp only [rulePattern, hstar, hdot] at hp
      cases hp

theorem addRule_of_none (map : RewriteMap) (ha : ruleAction r = none) : addRule map r = map := by
  simp only [addRule, ha]

/-- The suffixes, in the order of their rules. -/
theorem suffixes_foldl_addRule (rules : List RewriteRule) (map : RewriteMap) :
    (rules.foldl addRule map).suffixes = map.suffixes ++ rules.filterMap suffixEntry := by
  induction rules generalizing map with
  | nil => simp
  | cons r rules ih =>
    rw [List.foldl_cons, ih, List.filterMap_cons]
    cases ha : ruleAction r with
    | none => simp [addRule_of_none map ha, suffixEntry, ha]
    | some action =>
      cases hp : rulePattern r.name with
      | exact ls => simp [addRule_of_exact map hp ha, suffixEntry, ha, hp]
      | below base => simp [addRule_of_below map hp ha, suffixEntry, ha, hp]

/-- Rules that do not name it leave what the map holds for a name. -/
theorem lookup_foldl_addRule {rules : List RewriteRule} {key : Str}
    (h : ∀ r ∈ rules, rulePattern r.name ≠ .exact (pieces '.' key)) (map : RewriteMap) :
    (rules.foldl addRule map).exact.lookup key = map.exact.lookup key := by
  induction rules generalizing map with
  | nil => rfl
  | cons r rules ih =>
    obtain ⟨hr, hrules⟩ := List.forall_mem_cons.1 h
    rw [List.foldl_cons, ih hrules]
    cases ha : ruleAction r with
    | none => rw [addRule_of_none map ha]
    | some action =>
      cases hp : rulePattern r.name with
      | exact ls =>
        rw [addRule_of_exact map hp ha, AList.lookup_insert_ne]
        rintro rfl
        apply hr
        rw [hp, exact_eq_nameLabels hp, nameLabels, Str.intercalate_pieces]
      | below base => rw [addRule_of_below map hp ha]

/-! ## Suffixes of one name -/

/-- The test on text is the test on labels. -/
theorem endsWith_suffix_iff {key : Str} (hp : rulePattern r.name = .below base) :
    key.endsWith ('.' :: ['.'].intercalate base) = true ↔
      base <:+ pieces '.' key ∧ base ≠ pieces '.' key := by
  obtain ⟨text, rfl⟩ := below_eq_nameLabels hp
  have hafter := Str.after_sep_iff (p := lowerNoDot text) (apart_pieces '.' key)
    (pieces_ne_nil '.' key)
  rw [Str.intercalate_pieces] at hafter
  rw [Str.endsWith_iff, nameLabels, Str.intercalate_pieces]
  exact hafter

theorem byteLen_dot_cons (s : Str) : Str.byteLen ('.' :: s) = 1 + s.byteLen := by
  rw [Str.byteLen, List.map_cons, List.sum_cons]
  rfl

/-- Of two bases, one below the other, the lower one has the longer text. -/
theorem byteLen_lt_of_suffix {text : Str} (hp : rulePattern r.name = .below base)
    (h : base <:+ nameLabels text) (hne : base ≠ nameLabels text) :
    Str.byteLen (['.'].intercalate base) < Str.byteLen (['.'].intercalate (nameLabels text)) := by
  obtain ⟨front, hfront⟩ := Str.endsWith_iff.1 ((endsWith_suffix_iff hp).2 ⟨h, hne⟩)
  have hlen := congrArg Str.byteLen hfront
  rw [Str.byteLen_append, byteLen_dot_cons] at hlen
  rw [nameLabels, Str.intercalate_pieces]
  omega

/-- Among the suffixes of one name the length of the text is the number of labels. -/
theorem byteLen_le_iff {r' : RewriteRule} (hp : rulePattern r.name = .below base)
    (hp' : rulePattern r'.name = .below base') (h : base <:+ name) (h' : base' <:+ name) :
    Str.byteLen ('.' :: ['.'].intercalate base) ≤ Str.byteLen ('.' :: ['.'].intercalate base') ↔
      base.length ≤ base'.length := by
  rw [byteLen_dot_cons, byteLen_dot_cons, Nat.add_le_add_iff_left]
  constructor
  · intro hle
    by_contra hlt
    obtain ⟨text, rfl⟩ := below_eq_nameLabels hp
    have hsuffix := List.suffix_of_suffix_length_le h' h (not_le.1 hlt).le
    refine (byteLen_lt_of_suffix hp' hsuffix ?_).not_ge hle
    rintro rfl
    exact hlt le_rfl
  · intro hle
    obtain ⟨text, rfl⟩ := below_eq_nameLabels hp'
    have hsuffix := List.suffix_of_suffix_length_le h h' hle
    by_cases heq : base = nameLabels text
    · rw [heq]
    · exact (byteLen_lt_of_suffix hp hsuffix heq).le

end

/-! ## Lookups -/

/-- Every rule of the list is compiled, none is skipped. -/
def Compiled (rules : List RewriteRule) : Prop := ∀ r ∈ rules, ∃ action, ruleAction r = some action

section
variable {rules : List RewriteRule} {r : RewriteRule} {name : List Str} {key qname : Str}

theorem covers_iff_suffixEntry (hc : Compiled rules) (hr : r ∈ rules) :
    Covers (pieces '.' key) r ↔ ∃ s, suffixEntry r = some s ∧ key.endsWith s.1 = true := by
  constructor
  · rintro ⟨base, hp, hbase⟩
    obtain ⟨action, ha⟩ := hc r hr
    refine ⟨('.' :: ['.'].intercalate base, action), ?_, (endsWith_suffix_iff hp).2 hbase⟩
    simp only [suffixEntry, ha, hp]
  · rintro ⟨s, hs, hends⟩
    obtain ⟨base, hp, -, htext⟩ := suffixEntry_eq_some hs
    rw [htext] at hends
    exact ⟨base, hp, (endsWith_suffix_iff hp).1 hends⟩

theorem suffixes_fromRules (rules : List RewriteRule) :
    (RewriteMap.fromRules rules).suffixes =
      longestFirst (fun s => s.1.byteLen) (rules.filterMap suffixEntry) := by
  simp only [RewriteMap.fromRules, suffixes_foldl_addRule, List.nil_append]

theorem find?_suffixes_eq_none_iff (hc : Compiled rules) :
    (RewriteMap.fromRules rules).suffixes.find? (fun s => key.endsWith s.1) = none ↔
      ∀ r ∈ rules, ¬ Covers (pieces '.' key) r := by
  simp only [suffixes_fromRules, List.find?_eq_none, List.mem_insertionSort, List.mem_filterMap]
  constructor
  · intro h r hr hcovers
    obtain ⟨s, hs, hends⟩ := (covers_iff_suffixEntry hc hr).1 hcovers
    exact h s ⟨r, hr, hs⟩ hends
  · rintro h s ⟨r, hr, hs⟩ hends
    exact h r hr ((covers_iff_suffixEntry hc hr).2 ⟨s, hs, hends⟩)

/-- The search through the sorted suffixes finds the entry of the first wildcard rule with the
longest base. -/
theorem firstLongest_of_suffixes (hc : Compiled rules) {s : Str × Action}
    (h : (RewriteMap.fromRules rules).suffixes.find? (fun s => key.endsWith s.1) = some s) :
    ∃ r, suffixEntry r = some s ∧ FirstLongest baseLen (Covers (pieces '.' key)) rules r := by
  rw [suffixes_fromRules] at h
  refine (firstLongest_of_find? h).of_filterMap (fun r hr => covers_iff_suffixEntry hc hr) ?_
  intro r r' s s' hs hs' hends hends'
  obtain ⟨base, hp, -, htext⟩ := suffixEntry_eq_some hs
  obtain ⟨base', hp', -, htext'⟩ := suffixEntry_eq_some hs'
  rw [htext, endsWith_suffix_iff hp] at hends
  rw [htext', endsWith_suffix_iff hp'] at hends'
  rw [htext, htext', byteLen_le_iff hp hp' hends.1 hends'.1, baseLen, hp, baseLen, hp']

theorem not_decides_root : ¬ Decides rules [] r := by
  intro h
  cases h with
  | exact before after split named last =>
    exact pieces_ne_nil _ _ (exact_eq_nameLabels named).symm
  | wildcard unnamed longest =>
    obtain ⟨base, -, hsuffix, hne⟩ := longest.passes
    exact hne (List.suffix_nil.1 hsuffix)

theorem lookup_of_key (T : UnicodeTables) (qtype : RecordType)
    (hkey : qname.trimEndMatches '.' ≠ []) :
    (RewriteMap.fromRules rules).lookup T qname qtype =
      match (rules.foldl addRule {}).exact.lookup (qname.trimEndMatches '.') with
      | some action => some (decide T action qname qtype)
      | none =>
        ((RewriteMap.fromRules rules).suffixes.find? fun s =>
          (qname.trimEndMatches '.').endsWith s.1).map fun s => decide T s.2 qname qtype := by
  simp only [RewriteMap.lookup, List.isEmpty_iff, hkey, if_false]
  rfl

theorem queryLabels_of_key (hkey : qname.trimEndMatches '.' ≠ []) :
    queryLabels qname = pieces '.' (qname.trimEndMatches '.') := by
  simp [queryLabels, hkey]

/-- The rule that decides a name gives the answer. -/
theorem lookup_of_decides (hc : Compiled rules) (h : Decides rules (queryLabels qname) r)
    (T : UnicodeTables) (qtype : RecordType) :
    ∃ action, ruleAction r = some action ∧
      (RewriteMap.fromRules rules).lookup T qname qtype = some (decide T action qname qtype) := by
  have hkey : qname.trimEndMatches '.' ≠ [] := by
    intro hnil
    rw [queryLabels, hnil] at h
    exact not_decides_root h
  rw [queryLabels_of_key hkey] at h
  rw [lookup_of_key T qtype hkey]
  cases h with
  | exact before after split named last =>
    obtain ⟨action, ha⟩ := hc r (by simp [split])
    refine ⟨action, ha, ?_⟩
    rw [split, List.foldl_append, List.foldl_cons, lookup_foldl_addRule last,
      addRule_of_exact _ named ha, Str.intercalate_pieces, AList.lookup_insert]
  | wildcard unnamed longest =>
    rw [lookup_foldl_addRule unnamed, show (({} : RewriteMap).exact) = ∅ from rfl,
      AList.lookup_empty]
    cases hfind : (RewriteMap.fromRules rules).suffixes.find? fun s =>
        (qname.trimEndMatches '.').endsWith s.1 with
    | none =>
      exact absurd longest.passes ((find?_suffixes_eq_none_iff hc).1 hfind r longest.mem)
    | some s =>
      obtain ⟨r', hentry, hlongest⟩ := firstLongest_of_suffixes hc hfind
      obtain rfl := longest.unique hlongest
      obtain ⟨-, -, ha, -⟩ := suffixEntry_eq_some hentry
      exact ⟨s.2, ha, rfl⟩

/-- Lists in which the same rule decides a name give the same answer. -/
theorem lookup_eq_of_decides {rules' : List RewriteRule} (hc : Compiled rules)
    (hc' : Compiled rules') (h : Decides rules (queryLabels qname) r)
    (h' : Decides rules' (queryLabels qname) r) (T : UnicodeTables) (qtype : RecordType) :
    (RewriteMap.fromRules rules').lookup T qname qtype =
      (RewriteMap.fromRules rules).lookup T qname qtype := by
  obtain ⟨action, ha, hlookup⟩ := lookup_of_decides hc h T qtype
  obtain ⟨action', ha', hlookup'⟩ := lookup_of_decides hc' h' T qtype
  obtain rfl := Option.some.inj (ha.symm.trans ha')
  rw [hlookup, hlookup']

/-- Where no rule names or covers the name, nothing is rewritten. -/
theorem lookup_eq_none (hc : Compiled rules)
    (h : ∀ r ∈ rules, rulePattern r.name ≠ .exact (queryLabels qname) ∧
      ¬ Covers (queryLabels qname) r) (T : UnicodeTables) (qtype : RecordType) :
    (RewriteMap.fromRules rules).lookup T qname qtype = none := by
  by_cases hkey : qname.trimEndMatches '.' = []
  · simp [RewriteMap.lookup, hkey]
  · rw [queryLabels_of_key hkey] at h
    have hnamed := fun r hr => (h r hr).1
    have hcovers := fun r hr => (h r hr).2
    rw [lookup_of_key T qtype hkey, lookup_foldl_addRule hnamed,
      show (({} : RewriteMap).exact) = ∅ from rfl, AList.lookup_empty]
    simp only [(find?_suffixes_eq_none_iff hc).2 hcovers, Option.map_none]

/-- Of the rules that name a name, the last one decides. -/
theorem exists_last_named (h : ∃ r ∈ rules, rulePattern r.name = .exact name) :
    ∃ before r after, rules = before ++ r :: after ∧ rulePattern r.name = .exact name ∧
      ∀ r' ∈ after, rulePattern r'.name ≠ .exact name := by
  obtain ⟨r, hr, hnamed⟩ := h
  cases hfind : rules.reverse.find? (fun r => rulePattern r.name = .exact name) with
  | none => simpa [hnamed] using List.find?_eq_none.1 hfind r (List.mem_reverse.2 hr)
  | some last =>
    obtain ⟨hlast, after, before, hsplit, hafter⟩ := List.find?_eq_some_iff_append.1 hfind
    refine ⟨before.reverse, last, after.reverse, ?_, by simpa using hlast, ?_⟩
    · have hrev := congrArg List.reverse hsplit
      simpa using hrev
    · intro r' hr'
      simpa using hafter r' (List.mem_reverse.1 hr')

theorem exists_decides (h : ∃ r ∈ rules, rulePattern r.name = .exact name ∨ Covers name r) :
    ∃ r, Decides rules name r := by
  by_cases hnamed : ∃ r ∈ rules, rulePattern r.name = .exact name
  · obtain ⟨before, r, after, hsplit, hr, hlast⟩ := exists_last_named hnamed
    exact ⟨r, .exact before after hsplit hr hlast⟩
  · simp only [not_exists, not_and] at hnamed
    obtain ⟨r, hr, hmatch⟩ := h
    have hcovers : ∃ r ∈ rules, Covers name r := ⟨r, hr, hmatch.resolve_left (hnamed r hr)⟩
    obtain ⟨r', hlongest⟩ : ∃ r', FirstLongest baseLen (Covers name) rules r' :=
      exists_firstLongest hcovers
    exact ⟨r', .wildcard hnamed hlongest⟩

/-- Either a rule decides the name, or no rule is for it. -/
theorem decides_or_unmatched (rules : List RewriteRule) (name : List Str) :
    (∃ r, Decides rules name r) ∨
      ∀ r ∈ rules, rulePattern r.name ≠ .exact name ∧ ¬ Covers name r := by
  by_cases hsome : ∃ r ∈ rules, rulePattern r.name = .exact name ∨ Covers name r
  · exact .inl (exists_decides hsome)
  · simp only [not_exists, not_and, not_or] at hsome
    exact .inr hsome

/-! ## The order of the rules -/

theorem baseLen_of_below {base : List Str} (h : rulePattern r.name = .below base) :
    baseLen r = base.length := by
  simp only [baseLen, h]

/-- Two wildcard rules for a name whose bases are equally long have the same name. -/
theorem pattern_eq_of_baseLen {r' : RewriteRule} (h : Covers name r) (h' : Covers name r')
    (hlen : baseLen r' = baseLen r) : rulePattern r'.name = rulePattern r.name := by
  obtain ⟨base, hp, hsuffix, -⟩ := h
  obtain ⟨base', hp', hsuffix', -⟩ := h'
  rw [baseLen_of_below hp, baseLen_of_below hp'] at hlen
  have hsuff := List.suffix_of_suffix_length_le hsuffix' hsuffix hlen.le
  rw [hp, hp', hsuff.eq_of_length hlen]

/-- Where no two rules have the same name, their order does not show in what decides. -/
theorem decides_iff_of_nodup (h : (rules.map fun r => rulePattern r.name).Nodup) :
    Decides rules name r ↔ r ∈ rules ∧ (rulePattern r.name = .exact name ∨
      (∀ r' ∈ rules, rulePattern r'.name ≠ .exact name) ∧ Covers name r ∧
        ∀ r' ∈ rules, Covers name r' → baseLen r' ≤ baseLen r) := by
  constructor
  · intro hd
    cases hd with
    | exact before after split named last => exact ⟨by simp [split], .inl named⟩
    | wildcard unnamed longest =>
      exact ⟨longest.mem, .inr ⟨unnamed, longest.passes, fun r' hr' => longest.le hr'⟩⟩
  · rintro ⟨hr, hmatch⟩
    obtain ⟨before, after, hsplit⟩ := List.append_of_mem hr
    have hother : ∀ r' ∈ before ++ after, rulePattern r'.name ≠ rulePattern r.name := by
      intro r' hr' heq
      rw [hsplit, List.map_append, List.map_cons, List.nodup_middle, ← List.map_append] at h
      exact (List.nodup_cons.1 h).1 (heq ▸ List.mem_map.2 ⟨r', hr', rfl⟩)
    rcases hmatch with hnamed | ⟨hunnamed, hcovers, hlongest⟩
    · refine .exact before after hsplit hnamed fun r' hr' => ?_
      rw [← hnamed]
      exact hother r' (List.mem_append_right before hr')
    · refine .wildcard hunnamed ⟨before, after, hsplit, hcovers, ?_, ?_⟩
      · intro r' hr' hcovers'
        refine lt_of_le_of_ne (hlongest r' (by simp [hsplit, hr']) hcovers') fun heq => ?_
        exact hother r' (List.mem_append_left after hr')
          (pattern_eq_of_baseLen hcovers hcovers' heq)
      · intro r' hr' hcovers'
        exact hlongest r' (by simp [hsplit, hr']) hcovers'

theorem Compiled.perm {rules' : List RewriteRule} (hc : Compiled rules) (h : rules'.Perm rules) :
    Compiled rules' := fun r hr => hc r (h.mem_iff.1 hr)

theorem lookup_perm {rules' : List RewriteRule} (hc : Compiled rules) (hperm : rules'.Perm rules)
    (hnodup : (rules.map fun r => rulePattern r.name).Nodup) (T : UnicodeTables) (qname : Str)
    (qtype : RecordType) :
    (RewriteMap.fromRules rules').lookup T qname qtype =
      (RewriteMap.fromRules rules).lookup T qname qtype := by
  have hnodup' : (rules'.map fun r => rulePattern r.name).Nodup :=
    (hperm.map _).nodup_iff.2 hnodup
  obtain ⟨r, hr⟩ | hnone := decides_or_unmatched rules (queryLabels qname)
  · have hr' : Decides rules' (queryLabels qname) r := by
      rw [decides_iff_of_nodup hnodup] at hr
      rw [decides_iff_of_nodup hnodup']
      simpa only [hperm.mem_iff] using hr
    exact lookup_eq_of_decides hc (hc.perm hperm) hr hr' T qtype
  · rw [lookup_eq_none hc hnone,
      lookup_eq_none (hc.perm hperm) fun r hr => hnone r (hperm.mem_iff.1 hr)]

/-- Rules before a list do not change what decides a name that a rule of the list names. -/
theorem exists_decides_append (front : List RewriteRule)
    (h : ∃ r ∈ rules, rulePattern r.name = .exact name) :
    ∃ r, Decides rules name r ∧ Decides (front ++ rules) name r := by
  obtain ⟨before, r, after, rfl, hr, hlast⟩ := exists_last_named h
  exact ⟨r, .exact before after rfl hr hlast, .exact (front ++ before) after (by simp) hr hlast⟩

end

/-! ## Accepted rules -/

section
variable {r : RewriteRule}

/-- An accepted rule has an action; an alias has no address, and another name than its target. -/
theorem validateRewrite_ok {idx : Nat} (h : validateRewrite idx r = .ok ()) :
    (∃ action, ruleAction r = some action) ∧
      ∀ target, r.target = some target →
        r.address = none ∧ rewriteForm r.name ≠ rewriteForm target := by
  simp only [validateRewrite, validateRewriteAction, Checks.seq_ok_iff, Checks.reject_ok_iff] at h
  obtain ⟨-, ⟨hsome, hone, hparse⟩, hloop, -⟩ := h
  cases haddr : r.address with
  | some addr =>
    simp only [haddr, Checks.seq_ok_iff, Checks.reject_ok_iff, Option.isNone_iff_eq_none] at hparse
    refine ⟨?_, fun target htarget => ?_⟩
    · obtain ⟨ip, hip⟩ := Option.ne_none_iff_exists'.1 hparse.1
      simp only [ruleAction, haddr, hip]
      cases ip with
      | v4 v4 => exact ⟨_, rfl⟩
      | v6 v6 =>
        simp only
        cases v6.toIpv4Mapped <;> exact ⟨_, rfl⟩
    · rw [haddr, htarget, Option.isSome_some, Option.isSome_some, Bool.toNat_true] at hone
      omega
  | none =>
    refine ⟨?_, fun target htarget => ⟨rfl, fun heq => hloop ⟨by simp [haddr], ?_⟩⟩⟩
    · cases htarget : r.target with
      | some target =>
        exact ⟨.cname (normaliseFqdn target), by simp only [ruleAction, haddr, htarget]⟩
      | none =>
        have hblock : r.block = true := by simpa [haddr, htarget] using hsome
        exact ⟨.block, by simp only [ruleAction, haddr, htarget, hblock, if_true]⟩
    · rw [htarget, Option.getD_some, heq]

theorem validateRewrite_of_mem {build : RegexBuild} {cfg : DnsConfig}
    (hvalid : validateConfig build cfg = .ok ()) (hr : r ∈ cfg.rewrite) :
    ∃ idx, validateRewrite idx r = .ok () := by
  obtain ⟨-, -, -, -, -, -, -, hrules⟩ := validateConfig_ok_iff.1 hvalid
  obtain ⟨idx, hidx, rfl⟩ := List.mem_iff_getElem.1 hr
  exact ⟨idx, hrules (cfg.rewrite[idx], idx) (List.mem_zipIdx_iff_getElem?.2 (by simp))⟩

theorem compiled_rewrite {build : RegexBuild} {cfg : DnsConfig}
    (hvalid : validateConfig build cfg = .ok ()) : Compiled cfg.rewrite := by
  intro r hr
  obtain ⟨idx, hidx⟩ := validateRewrite_of_mem hvalid hr
  exact (validateRewrite_ok hidx).1

/-- The Safe Search rules are aliases. -/
theorem alias_of_mem_safesearch {s : SafeSearchConfig} (hr : r ∈ s.rewriteRules) :
    ∃ name target, r = SafeSearchConfig.cname name target := by
  have hpart : ∀ {on : Bool} {part : List RewriteRule}, r ∈ (if on then part else []) → r ∈ part := by
    intro on part hmem
    split at hmem
    · exact hmem
    · cases hmem
  unfold SafeSearchConfig.rewriteRules at hr
  split at hr
  · cases hr
  · simp only [List.mem_append] at hr
    rcases hr with ((hr | hr) | hr) | hr
    · rcases List.mem_pair.1 (hpart hr) with rfl | rfl <;> exact ⟨_, _, rfl⟩
    · rcases List.mem_pair.1 (hpart hr) with rfl | rfl <;> exact ⟨_, _, rfl⟩
    · exact ⟨_, _, List.mem_singleton.1 (hpart hr)⟩
    · obtain ⟨name, -, rfl⟩ := List.mem_map.1 (hpart hr)
      exact ⟨name, _, rfl⟩

theorem compiled_safesearch (s : SafeSearchConfig) : Compiled s.rewriteRules := by
  intro r hr
  obtain ⟨name, target, rfl⟩ := alias_of_mem_safesearch hr
  exact ⟨_, rfl⟩

theorem compiled_combined {build : RegexBuild} {cfg : DnsConfig}
    (hvalid : validateConfig build cfg = .ok ()) : Compiled (combinedRewriteRules cfg) := by
  intro r hr
  rcases List.mem_append.1 hr with hr | hr
  · exact compiled_safesearch cfg.safesearch r hr
  · exact compiled_rewrite hvalid r hr

end

/-- The most specific rule decides. This holds for the operator's rules alone and with the Safe
Search rules before them; where no two rules have the same name their order does not matter, and
what an operator names exactly is not touched by Safe Search. -/
theorem lookup_most_specific (T : UnicodeTables) {build : RegexBuild} {cfg : DnsConfig}
    (hvalid : validateConfig build cfg = .ok ()) (qname : Str) (qtype : RecordType) :
    (∀ rules, rules = cfg.rewrite ∨ rules = combinedRewriteRules cfg →
      (∀ r, Decides rules (queryLabels qname) r → ∃ action, ruleAction r = some action ∧
        (RewriteMap.fromRules rules).lookup T qname qtype = some (decide T action qname qtype)) ∧
      ((∃ r ∈ rules, rulePattern r.name = .exact (queryLabels qname) ∨
          Covers (queryLabels qname) r) → ∃ r, Decides rules (queryLabels qname) r) ∧
      ((∀ r ∈ rules, rulePattern r.name ≠ .exact (queryLabels qname) ∧
          ¬ Covers (queryLabels qname) r) →
        (RewriteMap.fromRules rules).lookup T qname qtype = none) ∧
      ∀ rules', rules'.Perm rules → (rules.map fun r => rulePattern r.name).Nodup →
        (RewriteMap.fromRules rules').lookup T qname qtype =
          (RewriteMap.fromRules rules).lookup T qname qtype) ∧
    ((∃ r ∈ cfg.rewrite, rulePattern r.name = .exact (queryLabels qname)) →
      (RewriteMap.fromRules (combinedRewriteRules cfg)).lookup T qname qtype =
        (RewriteMap.fromRules cfg.rewrite).lookup T qname qtype) := by
  constructor
  · intro rules hrules
    have hc : Compiled rules := by
      rcases hrules with rfl | rfl
      · exact compiled_rewrite hvalid
      · exact compiled_combined hvalid
    refine ⟨fun r hr => lookup_of_decides hc hr T qtype, exists_decides,
      fun hnone => lookup_eq_none hc hnone T qtype, fun rules' hperm hnodup => ?_⟩
    exact lookup_perm hc hperm hnodup T qname qtype
  · intro hnamed
    obtain ⟨r, hr, hr'⟩ := exists_decides_append cfg.safesearch.rewriteRules hnamed
    exact lookup_eq_of_decides (compiled_rewrite hvalid) (compiled_combined hvalid) hr hr' T qtype

/-- Two wildcards, the second below the first and spelled the other way. -/
def labConfig : DnsConfig where
  rewrite :=
    [{ name := "*.example.com".toList, address := some "10.0.0.1".toList },
      { name := ".Lab.example.com.".toList, block := true }]

theorem lookup_most_specific_lab :
    validateConfig (fun _ => .ok fun _ => false) labConfig = .ok () ∧
      (RewriteMap.fromRules labConfig.rewrite).lookup .asciiOnly "db.lab.example.com.".toList .a =
        some .nxdomain := by
  have hvalid : validateConfig (fun _ => .ok fun _ => false) labConfig = .ok () := by
    decide +kernel
  have hdecides : Decides labConfig.rewrite (queryLabels "db.lab.example.com.".toList)
      { name := ".Lab.example.com.".toList, block := true } := by
    refine .wildcard (by decide) ⟨[_], [], rfl, ?_, ?_, by simp⟩
    · exact ⟨["lab".toList, "example".toList, "com".toList], by decide, by decide, by decide⟩
    · exact List.forall_mem_singleton.2 fun _ => by decide
  obtain ⟨hrules, -⟩ :=
    lookup_most_specific .asciiOnly hvalid "db.lab.example.com.".toList .a
  obtain ⟨action, haction, hlookup⟩ := (hrules labConfig.rewrite (.inl rfl)).1 _ hdecides
  obtain rfl : Action.block = action := Option.some.inj haction
  exact ⟨hvalid, hlookup⟩

/-! ## Aliases of themselves -/

/-- A name up to its letter case and its trailing dots. -/
def bareName (name : Str) : Str := (name.trimEndMatches '.').toAsciiLowercase

theorem bareName_normaliseFqdn (target : Str) :
    bareName (normaliseFqdn target) = lowerNoDot target := by
  unfold bareName normaliseFqdn lowerNoDot
  simp only
  split
  · rw [Str.trimEndMatches_concat, Str.trimEndMatches_toAsciiLowercase, Str.toAsciiLowercase_idem]
  · rw [Str.trimEndMatches_toAsciiLowercase, Str.toAsciiLowercase_idem]

/-- Only an alias answers with a CNAME, and it answers every type with it. -/
theorem decide_cname_iff {T : UnicodeTables} {action : Action} {qname target : Str}
    {qtype : RecordType} :
    (∃ recs, decide T action qname qtype = .answer recs ∧ ∃ rec ∈ recs, rec.data = .cname target) ↔
      action = .cname target := by
  constructor
  · rintro ⟨recs, hd, rec, hrec, hdata⟩
    unfold decide at hd
    split at hd
    · cases hd
    · obtain rfl := RewriteDecision.answer.inj hd
      obtain rfl := List.mem_singleton.1 hrec
      rw [RecordData.cname.inj hdata]
    · split at hd <;> cases hd
      all_goals
        obtain rfl := List.mem_singleton.1 hrec
        cases hdata
  · rintro rfl
    exact ⟨_, rfl, _, List.mem_singleton_self _, rfl⟩

theorem ruleAction_of_target {r : RewriteRule} {target : Str} (haddr : r.address = none)
    (htarget : r.target = some target) : ruleAction r = some (.cname (normaliseFqdn target)) := by
  simp only [ruleAction, haddr, htarget]

theorem target_of_ruleAction {r : RewriteRule} {target : Str}
    (h : ruleAction r = some (.cname target)) :
    ∃ t, r.target = some t ∧ normaliseFqdn t = target := by
  unfold ruleAction at h
  split at h
  · split at h
    · split at h <;> cases h
    · cases h
    · cases h
  · rename_i t haddr htarget
    exact ⟨t, htarget, Action.cname.inj (Option.some.inj h)⟩
  · split at h <;> cases h

/-- An accepted rule that names a name exactly is no alias of it. -/
theorem exact_not_self {r : RewriteRule} {idx : Nat} {qname target : Str}
    (hvalid : validateRewrite idx r = .ok ())
    (hnamed : rulePattern r.name = .exact (queryLabels qname)) (htarget : r.target = some target) : lowerNoDot target ≠ bareName qname := by
  intro hself
  have hlabels := exact_eq_nameLabels hnamed
  have hkey : qname.trimEndMatches '.' ≠ [] := by
    intro hnil
    rw [queryLabels, hnil] at hlabels
    exact pieces_ne_nil _ _ hlabels.symm
  have hname : qname.trimEndMatches '.' = lowerNoDot r.name := by
    rw [queryLabels_of_key hkey, nameLabels] at hlabels
    rw [← Str.intercalate_pieces '.' (qname.trimEndMatches '.'), hlabels, Str.intercalate_pieces]
  refine ((validateRewrite_ok hvalid).2 target htarget).2 (congrArg (· ++ ['.']) ?_)
  change lowerNoDot r.name = lowerNoDot target
  rw [hself, bareName, hname, lowerNoDot, Str.toAsciiLowercase_idem]

/-- A name is never answered with an alias of itself, unless a wildcard rule decides the name of
its own target: the check of the rules compares their names and targets only. -/
theorem self_alias_iff (T : UnicodeTables) {build : RegexBuild} {cfg : DnsConfig}
    (hvalid : validateConfig build cfg = .ok ()) (qname : Str) :
    (∀ qtype recs rec target,
        (RewriteMap.fromRules cfg.rewrite).lookup T qname qtype = some (.answer recs) →
        rec ∈ recs → rec.data = .cname target → bareName target ≠ bareName qname) ↔
      ∀ r ∈ cfg.rewrite, ∀ base target, rulePattern r.name = .below base →
        r.target = some target → lowerNoDot target = bareName qname →
        ¬ Decides cfg.rewrite (queryLabels qname) r := by
  have hc := compiled_rewrite hvalid
  constructor
  · intro hself r hr base target hp htarget hname hd
    obtain ⟨idx, hidx⟩ := validateRewrite_of_mem hvalid hr
    have ha := ruleAction_of_target ((validateRewrite_ok hidx).2 target htarget).1 htarget
    obtain ⟨action, ha', hlookup⟩ := lookup_of_decides hc hd T .a
    obtain rfl := Option.some.inj (ha.symm.trans ha')
    have hcname : ∃ recs, decide T (.cname (normaliseFqdn target)) qname .a = .answer recs ∧
        ∃ rec ∈ recs, rec.data = .cname (normaliseFqdn target) := decide_cname_iff.2 rfl
    obtain ⟨recs, hdecide, rec, hrec, hdata⟩ := hcname
    refine hself .a recs rec _ (hlookup.trans (congrArg some hdecide)) hrec hdata ?_
    rw [bareName_normaliseFqdn, hname]
  · intro hrules qtype recs rec target hlookup hrec hdata hname
    obtain ⟨r, hd⟩ | hnone := decides_or_unmatched cfg.rewrite (queryLabels qname)
    · obtain ⟨action, ha, hlookup'⟩ := lookup_of_decides hc hd T qtype
      have hdecide := Option.some.inj (hlookup'.symm.trans hlookup)
      obtain rfl := decide_cname_iff.1 ⟨recs, hdecide, rec, hrec, hdata⟩
      obtain ⟨t, htarget, rfl⟩ := target_of_ruleAction ha
      rw [bareName_normaliseFqdn] at hname
      rcases hd.named_or_covers with hnamed | ⟨base, hp, -⟩
      · obtain ⟨idx, hidx⟩ := validateRewrite_of_mem hvalid hd.mem
        exact exact_not_self hidx hnamed htarget hname
      · exact hrules r hd.mem base t hp htarget hname hd
    · rw [lookup_eq_none hc hnone] at hlookup
      cases hlookup

/-- A wildcard over its own target. -/
def loopConfig : DnsConfig where
  rewrite := [{ name := "*.example.com".toList, target := some "www.example.com".toList }]

/-- The config is accepted, and the name of the target is answered with itself. -/
theorem wildcard_self_alias :
    validateConfig (fun _ => .ok fun _ => false) loopConfig = .ok () ∧
      (RewriteMap.fromRules loopConfig.rewrite).lookup .asciiOnly "www.example.com.".toList .a =
        some (.answer [{
          name := "www.example.com.".toList
          data := .cname "www.example.com.".toList
          ttl := 300 }]) := by
  decide +kernel

/-- A wildcard over names of another domain than its target. -/
def cdnConfig : DnsConfig where
  rewrite := [{ name := "*.example.com".toList, target := some "cdn.example.net".toList }]

theorem self_alias_iff_cdn :
    validateConfig (fun _ => .ok fun _ => false) cdnConfig = .ok () ∧
      ∀ qtype recs rec target,
        (RewriteMap.fromRules cdnConfig.rewrite).lookup .asciiOnly "www.example.com.".toList qtype =
            some (.answer recs) →
        rec ∈ recs → rec.data = .cname target →
        bareName target ≠ bareName "www.example.com.".toList := by
  have hvalid : validateConfig (fun _ => .ok fun _ => false) cdnConfig = .ok () := by
    decide +kernel
  refine ⟨hvalid, (self_alias_iff .asciiOnly hvalid "www.example.com.".toList).2 ?_⟩
  intro r hr base target hp htarget hname
  obtain rfl := List.mem_singleton.1 hr
  obtain rfl : "cdn.example.net".toList = target := Option.some.inj htarget
  exact absurd hname (by decide)

end RustyDns.L4.Rewrite
