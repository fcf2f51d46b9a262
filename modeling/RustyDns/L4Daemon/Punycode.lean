import RustyDns.L2Blocklist.Entries
import RustyDns.L4Daemon.WireNames

/-!
# Block entries and internationalised names

Block lists keep the ASCII form of a name, `xn--` labels as they are written. The blocklist gate
looks up the text that hickory renders of the query name, in which a valid `xn--` label is printed
in Unicode. `LabelText` is what is assumed of that rendering.

Results:
* `isBlocked_canonicalQname`: what the gate looks up.
* `punycode_entry_effective_iff`: which entries block the names they are for.
-/

namespace RustyDns.L4.Names

open RustyDns.Lib RustyDns.Lib.Labels RustyDns.L3
open RustyDns.L2.Zone RustyDns.L2.Auth RustyDns.L2.Blocklist
open RustyDns.L4.Pipeline

/-- Letters, digits and hyphen. -/
def ldhChar (c : Char) : Bool := c.isAlphanum || c == '-'

def LdhLabel (l : List UInt8) : Prop := l ≠ [] ∧ ∀ b ∈ l, ldhChar (byteChar b) = true

/-- What hickory prints for a label: its Unicode form if it is a valid `xn--` label, and any other
label of letters, digits and hyphens as it is. A Unicode form has no dot and is not ASCII. -/
structure LabelText where
  label : List UInt8 → Str
  valid : List UInt8 → Bool
  xn : ∀ l, valid l = true → (lowerLabel l).startsWith "xn--".toList = true
  plain : ∀ l, LdhLabel l → valid l = false → label l = l.map byteChar
  unicode : ∀ l, valid l = true → '.' ∉ label l ∧ ∃ c ∈ label l, Str.isAsciiChar c = false

/-! ## Entries and the names they are for -/

/-- A name of labels of letters, digits and hyphens. -/
def LdhName (d : Str) : Prop := ∀ l ∈ pieces '.' d, l ≠ [] ∧ ∀ c ∈ l, ldhChar c = true

instance (d : Str) : Decidable (LdhName d) :=
  inferInstanceAs (Decidable (∀ l ∈ pieces '.' d, l ≠ [] ∧ ∀ c ∈ l, ldhChar c = true))

/-- The labels spell the name, in any letter case. -/
def Spells (labels : List (List UInt8)) (d : Str) : Prop := labels.map lowerLabel = pieces '.' d

/-- The names a block entry is for: the name itself, or the names below it. -/
def Hits (e : ParsedEntry) (name : WireName) : Prop :=
  match e with
  | .exact d => Spells name.labels d
  | .wildcardParent d =>
    ∃ extra tail, extra ≠ [] ∧ name.labels = extra ++ tail ∧ Spells tail d
  | .allow _ => False

/-- A query for a name that the entry `e` is for, from a client that does not bypass the blocklist.
The entry is loaded, the name is not allowed and no gate before the blocklist answers. -/
structure Asked (T : UnicodeTables) (R : LabelText) (e : ParsedEntry) {H : Hickory}
    (S : HickoryServer H) (wire : H.Name → WireName) (h : Pipeline.DnsHandler H) (clock : Clock)
    (request : Request H) (query : Query H) (w : World) : Prop where
  renders : Renders S wire R.label
  single : request.queries = [query]
  loaded : ∃ rules sources allow,
    h.blocklist.stateFor (h.queryCtx S clock request query).policy.blocklistGroup =
      buildState T rules sources allow ∧ ∃ src ∈ sources, e ∈ parse T src.1
  hits : Hits e (wire query.name)
  no_bypass : (h.queryCtx S clock request query).policy.blocklistBypass = false
  not_allowed : (h.blocklist.stateFor
    (h.queryCtx S clock request query).policy.blocklistGroup).allowlist.isAllowed
      (h.queryCtx S clock request query).qnameCanon = false
  reaches : h.ReachesBlocklist T clock request (h.queryCtx S clock request query) w.limiter

/-- Every query for a name that the entry is for gets the block response. -/
def Effective (T : UnicodeTables) (R : LabelText) (e : ParsedEntry) : Prop :=
  ∀ (H : Hickory) (S : HickoryServer H) (wire : H.Name → WireName) (h : Pipeline.DnsHandler H)
    (clock : Clock) (request : Request H) (query : Query H) (w : World),
    Asked T R e S wire h clock request query w →
      (h.handleRequest S T clock request w).1 =
        DnsHandler.finish S request
          (h.blockReply (h.queryCtx S clock request query).filtering)

theorem hostChar_of_ldhChar {c : Char} (h : ldhChar c = true) : hostChar c = true := by
  simp only [ldhChar, hostChar, Bool.or_eq_true] at h ⊢
  exact .inl h

theorem ldhChar_toLower (c : Char) : ldhChar c.toLower = ldhChar c := by
  have hhost := hostChar_toLower c
  by_cases hu : c = '_'
  · subst hu
    decide
  · have hu' : c.toLower ≠ '_' := by
      rcases Str.toLower_cases c with ⟨-, h⟩ | ⟨-, hlow, hhigh, h⟩
      · rwa [h]
      · intro heq
        rw [heq] at h
        have : '_'.toNat = 95 := rfl
        omega
    simp only [hostChar, beq_eq_false_iff_ne.2 hu, beq_eq_false_iff_ne.2 hu', Bool.or_false]
      at hhost
    exact hhost

theorem ldhLabel_of_lowerLabel {l : List UInt8} (hne : lowerLabel l ≠ [])
    (h : ∀ c ∈ lowerLabel l, ldhChar c = true) : LdhLabel l := by
  refine ⟨fun hnil => hne (by rw [hnil]; rfl), fun b hb => ?_⟩
  have := h (byteChar b).toLower (List.mem_map_of_mem (List.mem_map_of_mem hb))
  rwa [ldhChar_toLower] at this

section
variable {R : LabelText} {d : Str} {labels : List (List UInt8)}

/-- The text of a label in lower case. -/
def LabelText.low (R : LabelText) (l : List UInt8) : Str := Str.toAsciiLowercase (R.label l)

theorem LdhName.label (hldh : LdhName d) {l : List UInt8} (hl : lowerLabel l ∈ pieces '.' d) :
    LdhLabel l := ldhLabel_of_lowerLabel (hldh _ hl).1 (hldh _ hl).2

theorem low_of_not_valid {l : List UInt8} (h : LdhLabel l) (hvalid : R.valid l = false) :
    R.low l = lowerLabel l := by
  rw [LabelText.low, R.plain l h hvalid]
  rfl

theorem low_ldh {l : List UInt8} (h : LdhLabel l) : '.' ∉ R.low l ∧ R.low l ≠ [] := by
  have hlabel : '.' ∉ R.label l ∧ R.label l ≠ [] := by
    by_cases hvalid : R.valid l = true
    · obtain ⟨hdot, c, hc, -⟩ := R.unicode l hvalid
      exact ⟨hdot, List.ne_nil_of_mem hc⟩
    · rw [R.plain l h (by simpa using hvalid)]
      refine ⟨fun hdot => ?_, by simpa using h.1⟩
      obtain ⟨b, hb, heq⟩ := List.mem_map.1 hdot
      have := h.2 b hb
      rw [heq] at this
      exact absurd this (by decide)
  simpa [LabelText.low] using hlabel

theorem low_not_ascii {l : List UInt8} (h : R.valid l = true) :
    ∃ c ∈ R.low l, Str.isAsciiChar c = false := by
  obtain ⟨-, c, hc, hascii⟩ := R.unicode l h
  exact ⟨c.toLower, List.mem_map_of_mem hc, by rw [Str.isAsciiChar_toLower, hascii]⟩

/-! ## The text of a query name -/

/-- A normalised name after other text, spelled out with its last dot. -/
theorem trimEndMatches_normalised (hd : Normalised d) (front : Str) :
    Str.trimEndMatches '.' (front ++ (d ++ ['.'])) = front ++ d := by
  obtain ⟨d', c, rfl⟩ := (List.eq_nil_or_concat' d).resolve_left hd.ne_nil
  rw [← List.append_assoc, Str.trimEndMatches_concat, ← List.append_assoc,
    trimEndMatches_of_ne hd.last_ne_dot]

theorem low_of_spells (hldh : LdhName d)
    (hvalid : ∀ l, lowerLabel l ∈ pieces '.' d → R.valid l = false) (h : Spells labels d) :
    spell '.' (labels.map R.low) = d ++ ['.'] := by
  have hlow : ∀ l ∈ labels, R.low l = lowerLabel l := by
    intro l hl
    have hmem : lowerLabel l ∈ pieces '.' d := h ▸ List.mem_map_of_mem hl
    exact low_of_not_valid (hldh.label hmem) (hvalid l hmem)
  rw [List.map_congr_left hlow, h, spell_pieces]

theorem pieces_canonical {name : WireName} (hne : name.labels ≠ [])
    (hldh : ∀ l ∈ name.labels, LdhLabel l) :
    pieces '.' (canonical (nameText R.label name)) = name.labels.map R.low := by
  obtain ⟨init, l, hlabels⟩ := (List.eq_nil_or_concat' name.labels).resolve_left hne
  obtain ⟨hdot, hlne⟩ := low_ldh (R := R) (hldh l (by simp [hlabels]))
  have htext : spell '.' (name.labels.map R.low) =
      spell '.' (init.map R.low) ++ R.low l ++ ['.'] := by
    simp [hlabels]
  refine spell_inj (apart_pieces '.' _) (fun p hp => ?_) ?_
  · obtain ⟨l', hl', rfl⟩ := List.mem_map.1 hp
    exact (low_ldh (hldh l' hl')).1
  · rw [spell_pieces, canonical_nameText]
    change Str.trimEndMatches '.' (spell '.' (name.labels.map R.low)) ++ ['.'] = _
    rw [htext, trimEndMatches_dot hlne hdot]

end

/-! ## What the gate looks up -/

theorem lookupForm_canonicalQname (T : UnicodeTables) (s : Str) :
    BlocklistState.lookupForm T (canonicalQname s) = canonical s := by
  have hlower : (canonical s).any Char.isUpper = false := Str.no_upper_toAsciiLowercase _
  unfold BlocklistState.lookupForm
  simp only [trimEndMatches_canonicalQname, hlower, Bool.false_eq_true, if_false]

theorem isAllowed_canonical (al : Allowlist) (s : Str) :
    al.isAllowed (canonical s) = al.isAllowed (canonicalQname s) := by
  have hidem : (canonical s).trimEndMatches '.' = canonical s := by
    rw [← trimEndMatches_canonicalQname]
    exact List.rdropWhile_idempotent _ _
  unfold Allowlist.isAllowed
  simp only [trimEndMatches_canonicalQname, hidem]

/-- The gate looks up the name in lower case and without trailing dots, unless it is allowed. -/
theorem isBlocked_canonicalQname {T : UnicodeTables} {st : BlocklistState} {s : Str}
    (hne : canonical s ≠ []) (hallow : st.allowlist.isAllowed (canonicalQname s) = false) :
    st.isBlocked T (canonicalQname s) = st.matchesBlock (canonical s) := by
  unfold BlocklistState.isBlocked
  rw [trimEndMatches_canonicalQname, if_neg hne, lookupForm_canonicalQname]
  simp only [isAllowed_canonical, hallow, Bool.false_eq_true, if_false]

/-- An entry whose labels print as they are blocks the names it is for. -/
theorem matchesBlock_of_hits {R : LabelText} {st : BlocklistState} {e : ParsedEntry} {d : Str}
    {name : WireName} (hd : Normalised d) (hldh : LdhName d)
    (hvalid : ∀ l, lowerLabel l ∈ pieces '.' d → R.valid l = false)
    (he : (e = .exact d ∧ d ∈ st.domains) ∨ (e = .wildcardParent d ∧ d ∈ st.wildcardParents))
    (hhits : Hits e name) :
    st.matchesBlock (canonical (nameText R.label name)) = true ∧
      canonical (nameText R.label name) ≠ [] := by
  have htext : canonical (nameText R.label name) =
      Str.trimEndMatches '.' (spell '.' (name.labels.map R.low)) := canonical_nameText _ _
  rcases he with ⟨rfl, hmem⟩ | ⟨rfl, hmem⟩
  · have hname : canonical (nameText R.label name) = d := by
      rw [htext, low_of_spells hldh hvalid hhits]
      exact trimEndMatches_normalised hd []
    rw [hname]
    exact ⟨by simp [BlocklistState.matchesBlock, hmem], hd.ne_nil⟩
  · obtain ⟨extra, tail, hextra, hlabels, hspells⟩ := hhits
    obtain ⟨init, l, rfl⟩ := (List.eq_nil_or_concat' extra).resolve_left hextra
    have hname : canonical (nameText R.label name) =
        spell '.' (init.map R.low) ++ R.low l ++ '.' :: d := by
      rw [htext, hlabels, List.map_append, spell_append, low_of_spells hldh hvalid hspells,
        trimEndMatches_normalised hd]
      simp
    rw [hname]
    refine ⟨?_, by simp⟩
    have hwalk := parentWalk_iff.2 ⟨spell '.' (init.map R.low) ++ R.low l, d, hmem, rfl⟩
    simp only [BlocklistState.matchesBlock, hwalk, Bool.or_true, Bool.true_or]

/-! ## An entry with an internationalised label -/

/-- The bytes of an ASCII label. -/
def labelBytes (p : Str) : List UInt8 := p.map fun c => UInt8.ofNat c.toNat

theorem byteChar_ofNat {c : Char} (h : Str.isAsciiChar c = true) :
    byteChar (UInt8.ofNat c.toNat) = c := by
  have hlt : c.toNat < 128 := by simpa [Str.isAsciiChar] using h
  have hcode : (UInt8.ofNat c.toNat).toNat = c.toNat := by
    rw [UInt8.toNat_ofNat']
    omega
  rw [byteChar, hcode, Char.ofNat_toNat]

section
variable {R : LabelText} {d : Str} {l₀ : List UInt8}

theorem lowerLabel_labelBytes (hd : Normalised d) {p : Str} (hp : p ∈ pieces '.' d) :
    lowerLabel (labelBytes p) = p := by
  have hchar : ∀ c ∈ p, (byteChar (UInt8.ofNat c.toNat)).toLower = c := by
    intro c hc
    have hdot : c ≠ '.' := by
      rintro rfl
      exact apart_pieces '.' d p hp hc
    have hmem : c ∈ d := (mem_iff_mem_pieces hdot).2 ⟨p, hp, hc⟩
    rw [byteChar_ofNat (hd.printable c hmem).2]
    exact List.map_inj_left.1 (hd.lower.trans (List.map_id d).symm) c hmem
  have hmap : lowerLabel (labelBytes p) =
      p.map fun c => (byteChar (UInt8.ofNat c.toNat)).toLower := by
    simp [lowerLabel, labelBytes, Str.toAsciiLowercase]
  rw [hmap, List.map_congr_left hchar, List.map_id']

/-- The labels of `d`, with the label `l₀` where it spells one of them. -/
def variant (d : Str) (l₀ : List UInt8) : List (List UInt8) :=
  (pieces '.' d).map fun p => if p = lowerLabel l₀ then l₀ else labelBytes p

theorem spells_variant (hd : Normalised d) (l₀ : List UInt8) : Spells (variant d l₀) d := by
  have hlabel : ∀ p ∈ pieces '.' d,
      lowerLabel (if p = lowerLabel l₀ then l₀ else labelBytes p) = p := by
    intro p hp
    split
    · exact Eq.symm ‹_›
    · exact lowerLabel_labelBytes hd hp
  unfold Spells variant
  rw [List.map_map]
  exact (List.map_congr_left hlabel).trans (List.map_id' _)

theorem mem_variant (hl : lowerLabel l₀ ∈ pieces '.' d) : l₀ ∈ variant d l₀ :=
  List.mem_map.2 ⟨lowerLabel l₀, hl, if_pos rfl⟩

/-- The text of a name that ends in a valid `xn--` label of `d` does not end in the labels of `d`. -/
theorem not_suffix_of_valid (hd : Normalised d) (hl : lowerLabel l₀ ∈ pieces '.' d)
    (hvalid : R.valid l₀ = true) (extra : List (List UInt8)) :
    ¬ pieces '.' d <:+ (extra ++ variant d l₀).map R.low := by
  rw [List.map_append]
  rintro ⟨front, hfront⟩
  have hlen : (pieces '.' d).length = ((variant d l₀).map R.low).length := by simp [variant]
  have hpieces := List.append_inj_right' hfront hlen
  obtain ⟨c, hc, hascii⟩ := low_not_ascii hvalid
  have hdot : c ≠ '.' := by
    rintro rfl
    exact absurd hascii (by decide)
  have hmem : c ∈ d :=
    (mem_iff_mem_pieces hdot).2 ⟨R.low l₀, hpieces ▸ List.mem_map_of_mem (mem_variant hl), hc⟩
  rw [(hd.printable c hmem).2] at hascii
  cases hascii

theorem plainName_of_ldhName (hldh : LdhName d) : PlainName d := by
  intro c hc
  by_cases hdot : c = '.'
  · subst hdot
    decide
  · obtain ⟨p, hp, hcp⟩ := (mem_iff_mem_pieces hdot).1 hc
    have hchar := (hldh p hp).2 c hcp
    refine ⟨hostChar_not_blank (hostChar_of_ldhChar hchar), ?_, ?_⟩
    · rintro rfl
      exact absurd hchar (by decide)
    · rintro rfl
      exact absurd hchar (by decide)

/-! ## One rule -/

/-- What is built from the one rule for `d`. -/
def ruleState (T : UnicodeTables) (d : Str) : BlocklistState :=
  buildState T {} [(adguardRule d, .untrusted)] []

theorem isAllowed_ruleState (T : UnicodeTables) (d name : Str) :
    (ruleState T d).allowlist.isAllowed name = false := by
  have hnone : (collect T [(adguardRule d, .untrusted)]).trustedAllows = [] := by
    refine List.eq_nil_iff_forall_not_mem.2 fun a ha => ?_
    obtain ⟨src, hsrc, htrusted, -⟩ := mem_trustedAllows_collect.1 ha
    rw [List.mem_singleton.1 hsrc] at htrusted
    cases htrusted
  have hwalk : ∀ name, Allowlist.suffixWalk ∅ name = false := by
    intro name
    induction name with
    | nil => rfl
    | cons c rest ih => simp [Allowlist.suffixWalk, ih]
  rw [ruleState, buildState_allowlist, hnone]
  simp [Allowlist.extendExact, Allowlist.fromEntries, Allowlist.isAllowed, hwalk]

/-- The rule for `d` blocks nothing whose text does not end in the labels of `d`. -/
theorem matchesBlock_ruleState (T : UnicodeTables) (hd : Normalised d) (hdot : '.' ∈ d)
    (hldh : LdhName d) {text : Str} (htext : ¬ pieces '.' d <:+ pieces '.' text) :
    (ruleState T d).matchesBlock text = false := by
  have hparse := parse_adguardRule T hd hdot (plainName_of_ldhName hldh)
  have hexact : text ∉ (ruleState T d).domains := by
    intro hmem
    obtain ⟨src, hsrc, hentry⟩ := mem_domains_buildState.1 hmem
    rw [List.mem_singleton.1 hsrc, hparse] at hentry
    simp only [List.mem_cons, ParsedEntry.exact.injEq, reduceCtorEq, List.not_mem_nil,
      or_false] at hentry
    exact htext (hentry ▸ List.suffix_refl _)
  have hparent : BlocklistState.parentWalk (ruleState T d).wildcardParents text = false := by
    rw [Bool.eq_false_iff]
    intro hwalk
    obtain ⟨front, p, hp, rfl⟩ := parentWalk_iff.1 hwalk
    obtain ⟨src, hsrc, hentry⟩ := mem_wildcardParents_buildState.1 hp
    rw [List.mem_singleton.1 hsrc, hparse] at hentry
    simp only [List.mem_cons, ParsedEntry.wildcardParent.injEq, reduceCtorEq, List.not_mem_nil,
      or_false, false_or] at hentry
    rw [pieces_append_sep, hentry] at htext
    exact htext (List.suffix_append _ _)
  have hrules : (ruleState T d).regexRules.isMatch text = false := rfl
  simp [BlocklistState.matchesBlock, hexact, hparent, hrules]

/-- An engine that loaded the one rule for `d`. -/
def ruleEngine (T : UnicodeTables) (d : Str) : BlocklistEngine :=
  (BlocklistEngine.new T (fun _ => .error "") {}).loadManyWithTrust T
    [(adguardRule d, .untrusted)]

/-- An authority whose only zone is longer than `name`. -/
def farAuthority (name : Str) : Authority :=
  { emptyAuthority with meshZone := 'a' :: normaliseName name }

theorem farAuthority_lookup (name rtype : Str) : (farAuthority name).lookup name rtype = none := by
  have hlen : Str.byteLen ('a' :: normaliseName name) = 1 + Str.byteLen (normaliseName name) :=
    Str.byteLen_append ['a'] _
  have hwithin : nameWithinZone (normaliseName name) ('a' :: normaliseName name) = false := by
    unfold nameWithinZone
    rw [beq_eq_false_iff_ne.2 (List.cons_ne_self _ _).symm, hlen, decide_eq_false (by omega)]
    rfl
  have hnone : ((farAuthority name).lookup name rtype).isSome = false := by
    rw [lookup_isSome]
    exact (Bool.or_false _).trans hwithin
  simpa using hnone

end

/-! ## Which entries are effective -/

/-- A query for a name with a valid `xn--` label that an entry spells is not blocked by the entry. -/
theorem variant_not_blocked (T : UnicodeTables) {R : LabelText} {d : Str} {l₀ : List UInt8}
    (hd : Normalised d) (hdot : '.' ∈ d) (hldh : LdhName d) (hl : lowerLabel l₀ ∈ pieces '.' d)
    (hvalid : R.valid l₀ = true) {extra : List (List UInt8)} (hextra : ∀ l ∈ extra, LdhLabel l)
    {name : WireName} (hname : name.labels = extra ++ variant d l₀) :
    (ruleState T d).isBlocked T (canonicalQname (nameText R.label name)) = false := by
  have hspells := spells_variant hd l₀
  have hlabels : ∀ l ∈ name.labels, LdhLabel l := by
    intro l hmem
    rw [hname] at hmem
    rcases List.mem_append.1 hmem with h | h
    · exact hextra l h
    · exact hldh.label (hspells ▸ List.mem_map_of_mem h)
  have hne : name.labels ≠ [] := by
    rw [hname]
    exact List.append_ne_nil_of_right_ne_nil _ (List.ne_nil_of_mem (mem_variant hl))
  have hpieces := pieces_canonical (R := R) hne hlabels
  by_cases hempty : canonical (nameText R.label name) = []
  · unfold BlocklistState.isBlocked
    rw [trimEndMatches_canonicalQname, if_pos hempty]
  · rw [isBlocked_canonicalQname hempty (isAllowed_ruleState T d _)]
    refine matchesBlock_ruleState T hd hdot hldh ?_
    rw [hpieces, hname]
    exact not_suffix_of_valid hd hl hvalid extra

/-- The name has passed the domain rules. -/
theorem normalised_of_accepted {T : UnicodeTables} {e : ParsedEntry} {d content : Str}
    (he : e.blockName = some d) (h : e ∈ parse T content) : Normalised d ∧ '.' ∈ d := by
  obtain ⟨s, hs⟩ := fromRules_of_mem_parse h d he
  obtain ⟨hnorm, hdot⟩ := validateBlockEntry_eq_some_iff.1 hs
  exact ⟨(validateAndNormalize_eq_some_iff.1 hnorm).2, hdot⟩

theorem effective_of_not_valid {T : UnicodeTables} {R : LabelText} {e : ParsedEntry} {d : Str}
    (he : e.blockName = some d) (hd : Normalised d) (hldh : LdhName d)
    (hvalid : ∀ l, lowerLabel l ∈ pieces '.' d → R.valid l = false) : Effective T R e := by
  intro H S wire h clock request query w hask
  obtain ⟨rules, sources, allow, hstate, hsource⟩ := hask.loaded
  have hmem : (e = .exact d ∧ d ∈ (buildState T rules sources allow).domains) ∨
      (e = .wildcardParent d ∧ d ∈ (buildState T rules sources allow).wildcardParents) := by
    cases e with
    | exact d' =>
      obtain rfl := Option.some.inj he
      exact .inl ⟨rfl, mem_domains_buildState.2 hsource⟩
    | wildcardParent d' =>
      obtain rfl := Option.some.inj he
      exact .inr ⟨rfl, mem_wildcardParents_buildState.2 hsource⟩
    | allow d' => cases he
  obtain ⟨hmatch, hne⟩ := matchesBlock_of_hits (R := R) hd hldh hvalid hmem hask.hits
  have hqname : (h.queryCtx S clock request query).qnameCanon =
      canonicalQname (nameText R.label (wire query.name)) :=
    congrArg canonicalQname (hask.renders query.name)
  have hblocked : h.blocklist.isBlockedForGroup T (h.queryCtx S clock request query).qnameCanon
      (h.queryCtx S clock request query).policy.blocklistGroup = true := by
    have hallow := hask.not_allowed
    unfold BlocklistEngine.isBlockedForGroup
    rw [hstate, hqname] at hallow ⊢
    rw [isBlocked_canonicalQname hne hallow, hmatch]
  have hgate : h.toDnsHandler.gateBlocklist T (h.queryCtx S clock request query).filtering =
      some (h.blockReply (h.queryCtx S clock request query).filtering) := by
    refine if_pos ?_
    rw [Bool.and_eq_true, Bool.not_eq_true']
    exact ⟨hask.no_bypass, hblocked⟩
  rw [DnsHandler.handleRequest_of_reaches hask.single hask.reaches]
  simp only [hgate, Option.getD_some]

/-- A handler that loaded the one rule for `d`, with an authority that does not answer for `name`. -/
def ruleHandler (T : UnicodeTables) (R : LabelText) (d : Str) (name : WireName) :
    Pipeline.DnsHandler (labelHickory R.label) :=
  bareHandler (labelHickory R.label) (ruleEngine T d) ∅
    (farAuthority (canonicalQname (nameText R.label name)))

theorem reaches_ruleHandler (T : UnicodeTables) (R : LabelText) (d : Str) (name : WireName) :
    (ruleHandler T R d name).ReachesBlocklist T ⟨0, 0⟩ (wireRequest (addressQuery name))
      ((ruleHandler T R d name).queryCtx (labelServer R.label) ⟨0, 0⟩
        (wireRequest (addressQuery name)) (addressQuery name)) idleWorld.limiter := by
  have hlimit : (idleWorld.limiter.check 0 (.v4 (.ofOctets 10 0 0 9))).1 ≠ .refuse := by
    decide +kernel
  have hauth := farAuthority_lookup (canonicalQname (nameText R.label name)) ['A']
  have hrewrite : Rewrite.RewriteMap.lookup T {} (canonicalQname (nameText R.label name)) .a =
      none := by
    unfold Rewrite.RewriteMap.lookup
    dsimp only
    split <;> rfl
  intro g hg
  cases g with
  | rateLimit => exact if_neg hlimit
  | opcode | ednsVersion | anyQtype | qclass | schedule | zones => rfl
  | authority => exact Option.bind_eq_none_iff.2 fun _ h => nomatch hauth.symm.trans h
  | rewrite => exact Option.bind_eq_none_iff.2 fun _ h => nomatch hrewrite.symm.trans h
  | blocklist => exact absurd hg (by decide)

/-- Without a match the query goes to the resolver. -/
theorem ruleHandler_answer (T : UnicodeTables) (R : LabelText) (d : Str) (name : WireName)
    (hpass : (ruleState T d).isBlocked T (canonicalQname (nameText R.label name)) = false) :
    ((ruleHandler T R d name).handleRequest (labelServer R.label) T ⟨0, 0⟩
      (wireRequest (addressQuery name)) idleWorld).1.metadata.responseCode = .noError := by
  have hgate : (ruleHandler T R d name).toDnsHandler.gateBlocklist T
      ((ruleHandler T R d name).queryCtx (labelServer R.label) ⟨0, 0⟩
        (wireRequest (addressQuery name)) (addressQuery name)).filtering = none :=
    gateBlocklist_eq_none_iff.2 (.inr hpass)
  rw [DnsHandler.handleRequest_of_reaches rfl (reaches_ruleHandler T R d name)]
  simp only [hgate, Option.getD_none]
  rw [DnsHandler.finish_responseCode]
  rfl

theorem asked_ruleHandler {T : UnicodeTables} {R : LabelText} {e : ParsedEntry} {d : Str}
    {name : WireName} (hentry : e ∈ parse T (adguardRule d)) (hhits : Hits e name) :
    Asked T R e (labelServer R.label) (fun n => n) (ruleHandler T R d name) ⟨0, 0⟩
      (wireRequest (addressQuery name)) (addressQuery name) idleWorld where
  renders _ := rfl
  single := rfl
  loaded := ⟨{}, [(adguardRule d, .untrusted)], [], rfl, _, List.mem_singleton_self _, hentry⟩
  hits := hhits
  no_bypass := rfl
  not_allowed := isAllowed_ruleState T d _
  reaches := reaches_ruleHandler T R d name

theorem labels_ne_nil {d : Str} {l₀ : List UInt8} {extra : List (List UInt8)} (hd : Normalised d)
    (hldh : LdhName d) (hextra : ∀ l ∈ extra, LdhLabel l) : ∀ l ∈ extra ++ variant d l₀, l ≠ [] := by
  intro l hl
  rcases List.mem_append.1 hl with h | h
  · exact (hextra l h).1
  · have hmem : lowerLabel l ∈ pieces '.' d :=
      spells_variant hd l₀ ▸ List.mem_map_of_mem h
    exact (hldh.label hmem).1

/-- A name that the entry is for, with `l₀` for one of its labels. -/
theorem exists_hit {e : ParsedEntry} {d : Str} (he : e.blockName = some d) (hd : Normalised d)
    (hldh : LdhName d) (l₀ : List UInt8) :
    ∃ extra, ∃ name : WireName, (∀ l ∈ extra, LdhLabel l) ∧
      name.labels = extra ++ variant d l₀ ∧ Hits e name := by
  have hspells := spells_variant hd l₀
  cases e with
  | exact d' =>
    obtain rfl := Option.some.inj he
    have hextra : ∀ l ∈ ([] : List (List UInt8)), LdhLabel l := by simp
    exact ⟨[], ⟨_, labels_ne_nil hd hldh hextra⟩, hextra, rfl, hspells⟩
  | wildcardParent d' =>
    obtain rfl := Option.some.inj he
    have hextra : ∀ l ∈ [[(97 : UInt8)]], LdhLabel l := by
      intro l hl
      rw [List.mem_singleton.1 hl]
      exact ⟨by simp, by decide⟩
    exact ⟨_, ⟨_, labels_ne_nil hd hldh hextra⟩, hextra, rfl, [[97]], _, by simp, rfl, hspells⟩
  | allow d' => cases he

/-- **Block entries with internationalised labels**: an accepted entry blocks the names it is for,
in any letter case, exactly if none of its labels is in some letter case a valid `xn--` label. -/
theorem punycode_entry_effective_iff (T : UnicodeTables) (R : LabelText) (e : ParsedEntry) (d : Str)
    (he : e.blockName = some d) (haccepted : ∃ content, e ∈ parse T content) (hldh : LdhName d) :
    Effective T R e ↔ ∀ l, lowerLabel l ∈ pieces '.' d → R.valid l = false := by
  obtain ⟨content, hcontent⟩ := haccepted
  obtain ⟨hd, hdot⟩ := normalised_of_accepted he hcontent
  refine ⟨fun heff l hl => ?_, effective_of_not_valid he hd hldh⟩
  by_contra hvalid
  rw [Bool.not_eq_false] at hvalid
  obtain ⟨extra, name, hextra, hname, hhits⟩ := exists_hit he hd hldh l
  have hentry : e ∈ parse T (adguardRule d) := by
    rw [parse_adguardRule T hd hdot (plainName_of_ldhName hldh)]
    cases e with
    | exact d' => simp [Option.some.inj he]
    | wildcardParent d' => simp [Option.some.inj he]
    | allow d' => cases he
  have hpass := variant_not_blocked T hd hdot hldh hl hvalid hextra hname
  have hcode := ruleHandler_answer T R d name hpass
  rw [heff _ _ _ _ _ _ _ _ (asked_ruleHandler hentry hhits), DnsHandler.finish_responseCode] at hcode
  cases hcode

/-! ## A book shop -/

/-- One valid `xn--` label, in any letter case. -/
def bucherText : LabelText where
  label l := if lowerLabel l = "xn--bcher-kva".toList then "bücher".toList else l.map byteChar
  valid l := lowerLabel l == "xn--bcher-kva".toList
  xn l hl := by
    rw [beq_iff_eq.1 hl]
    decide
  plain l _ hl := if_neg (by simpa using hl)
  unicode l hl := by
    rw [if_pos (beq_iff_eq.1 hl)]
    decide

def bucherName : WireName :=
  wireName ["xn--bcher-kva".toList, "example".toList] (by decide +kernel)

/-- The list has `xn--bcher-kva.example`, the query is for that name, and the gate looks for
`bücher.example`: the query is resolved. -/
theorem bucher_entry_not_effective :
    let entry := "xn--bcher-kva.example".toList
    let h := ruleHandler .asciiOnly bucherText entry bucherName
    let request := wireRequest (addressQuery bucherName)
    LdhName entry ∧
    Asked .asciiOnly bucherText (.exact entry) (labelServer bucherText.label) (fun n => n) h ⟨0, 0⟩
      request (addressQuery bucherName) idleWorld ∧
    nameText bucherText.label bucherName = "bücher.example.".toList ∧
    (h.handleRequest (labelServer bucherText.label) .asciiOnly ⟨0, 0⟩ request
      idleWorld).1.metadata.responseCode = .noError ∧
    (DnsHandler.finish (labelServer bucherText.label) request
      (h.blockReply (h.queryCtx (labelServer bucherText.label) ⟨0, 0⟩ request
        (addressQuery bucherName)).filtering)).metadata.responseCode = .nxDomain := by
  have hspells : Spells bucherName.labels "xn--bcher-kva.example".toList := by
    show bucherName.labels.map lowerLabel = pieces '.' _
    decide +kernel
  exact ⟨by decide +kernel, asked_ruleHandler (by decide +kernel) hspells, by decide +kernel,
    ruleHandler_answer _ _ _ _ (by decide +kernel), rfl⟩

theorem punycode_entry_effective_iff_ads :
    Effective .asciiOnly bucherText (.wildcardParent "ads.example".toList) := by
  refine (punycode_entry_effective_iff .asciiOnly bucherText _ "ads.example".toList rfl
    ⟨adguardRule "ads.example".toList, by decide +kernel⟩ (by decide +kernel)).2 fun l hl => ?_
  have hpieces : pieces '.' "ads.example".toList = ["ads".toList, "example".toList] := by decide
  rw [hpieces] at hl
  refine beq_eq_false_iff_ne.2 fun heq => ?_
  rw [heq] at hl
  exact absurd hl (by decide)

end RustyDns.L4.Names
