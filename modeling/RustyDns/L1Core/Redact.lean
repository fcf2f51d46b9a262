import RustyDns.Lib.Quoted
import RustyDns.Lib.Split
import RustyDns.Lib.Written
import RustyDns.L1Core.Config

/-!
# Redacted URLs

`redact_url_credentials` of `rustydns-core/src/config.rs`, which `--print-config` runs over every URL
of the config. It cuts a text at `://`, at the first `/`, `?` or `#` behind it, at the last `@` before
that, and the two parameter sections at `&` and `=`.

`Url` is a text in these parts, none of which holds the character it would be cut at; every text with
a separator is one (`exists_url`). Redacting works on the parts: `Url.mask` puts the marker in place
of the userinfo and of the values whose key names a credential (`redactUrlCredentials_text`).

Results:
* `redactUrlCredentials_hides`: texts that differ in masked parts only look the same redacted.
* `redactUrlCredentials_idem_and_lossless`: a redacted text is not changed again, and a text with
  nothing to mask is not changed at all.
* `redactedForDisplay_idem`: the same for a whole config.
-/

namespace RustyDns.L1

open RustyDns.Lib RustyDns.Lib.Labels

/-! ## The source -/

/-- mirrors crates/rustydns-core/src/config.rs:1443-1466 -/
def isSecretParamKey (key : Str) : Bool :=
  key.toAsciiLowercase ∈
    [ "token".toList, "access_token".toList, "auth".toList, "auth_token".toList
    , "authorization".toList, "apikey".toList, "api_key".toList, "api-key".toList, "key".toList
    , "secret".toList, "password".toList, "passwd".toList, "pass".toList, "sig".toList
    , "signature".toList, "x-amz-signature".toList, "x-goog-signature".toList
    , "x-ms-signature".toList, "hmac".toList ]

def marker : Str := "<redacted>".toList

/-- One pair; `splitn(2, '=')` cuts at the first `=`. -/
def scrubPair (pair : Str) : Str :=
  match pair.splitOnce '=' with
  | some (key, _) => if isSecretParamKey key then key ++ '=' :: marker else pair
  | none => pair

/-- mirrors crates/rustydns-core/src/config.rs:1536-1549 -/
def scrubParamPairs (pairs : Str) : Str :=
  ['&'].intercalate ((pairs.splitBy (· == '&')).map scrubPair)

/-- A character that may end an authority. -/
def isAuthorityEnd (c : Char) : Bool := c == '/' || c == '?' || c == '#'

def redactAuthority (authority : Str) : Str :=
  match authority.rsplitOnce '@' with
  | some (_, host) => marker ++ '@' :: host
  | none => authority

def redactQuery (pathAndQuery : Str) : Str :=
  match pathAndQuery.splitOnce '?' with
  | some (path, query) => path ++ '?' :: scrubParamPairs query
  | none => pathAndQuery

/-- What follows the authority: path, query and fragment. -/
def redactRest (rest : Str) : Str :=
  match rest.splitOnce '#' with
  | some (pathAndQuery, fragment) => redactQuery pathAndQuery ++ '#' :: scrubParamPairs fragment
  | none => redactQuery rest

/-- mirrors crates/rustydns-core/src/config.rs:1492-1532 -/
def redactUrlCredentials (url : Str) : Str :=
  match url.splitOnceStr "://".toList with
  | none => url
  | some (scheme, afterScheme) =>
    scheme ++ "://".toList ++
      (redactAuthority (afterScheme.takeWhile fun c => !isAuthorityEnd c) ++
        redactRest (afterScheme.dropWhile fun c => !isAuthorityEnd c))

/-- mirrors crates/rustydns-core/src/config.rs:197-214 -/
def redactedForDisplay (cfg : DnsConfig) : DnsConfig :=
  let redactList := List.map redactUrlCredentials
  { cfg with
    upstream :=
      { cfg.upstream with
        resolvers := redactList cfg.upstream.resolvers
        odohProxies := redactList cfg.upstream.odohProxies
        routes := cfg.upstream.routes.map fun route =>
          { route with resolvers := redactList route.resolvers } }
    blocklist :=
      { cfg.blocklist with
        sources := redactList cfg.blocklist.sources
        trustedRpzSources := redactList cfg.blocklist.trustedRpzSources
        groups := cfg.blocklist.groups.map fun group =>
          { group with
            sources := redactList group.sources
            trustedRpzSources := redactList group.trustedRpzSources } } }

/-! ## A URL in parts -/

/-- A key with or without a value, as it is written. -/
def pairText (key : Str) : Option Str → Str
  | some v => key ++ '=' :: v
  | none => key

/-- The value a redacted pair shows. -/
def shownValue (key : Str) (value : Option Str) : Option Str :=
  if isSecretParamKey key then value.map fun _ => marker else value

theorem notMem_pairText_iff {c : Char} {key : Str} {value : Option Str} (hc : c ≠ '=') :
    c ∉ pairText key value ↔ c ∉ key ∧ ∀ v ∈ value, c ∉ v := by
  cases value with
  | none => simp [pairText]
  | some v => simp [pairText, hc]

theorem notMem_shownValue {c : Char} {key : Str} {value : Option Str} (hc : c ∉ marker)
    (h : ∀ v ∈ value, c ∉ v) : ∀ v ∈ shownValue key value, c ∉ v := by
  intro v hv
  unfold shownValue at hv
  split at hv
  · obtain ⟨_, _, rfl⟩ := Option.map_eq_some_iff.1 hv
    exact hc
  · exact h v hv

theorem scrubPair_pairText {key : Str} (hkey : '=' ∉ key) (value : Option Str) :
    scrubPair (pairText key value) = pairText key (shownValue key value) := by
  unfold scrubPair shownValue
  cases value with
  | none => simp [pairText, Str.splitOnce_eq_none_iff.2 hkey]
  | some v =>
    have hcut : Str.splitOnce '=' (key ++ '=' :: v) = some (key, v) :=
      Str.splitOnce_eq_some_iff.2 ⟨rfl, hkey⟩
    by_cases hs : isSecretParamKey key = true
    · simp [pairText, hcut, hs]
    · simp [pairText, hcut, hs]

@[simp] theorem shownValue_idem (key : Str) (value : Option Str) :
    shownValue key (shownValue key value) = shownValue key value := by
  unfold shownValue
  split
  · rw [Option.map_map]
    rfl
  · rfl

/-- A parameter, with or without a value. -/
@[ext] structure Param where
  key : Str
  value : Option Str
  key_clean : '&' ∉ key ∧ '=' ∉ key
  value_clean : ∀ v ∈ value, '&' ∉ v

namespace Param

def text (p : Param) : Str := pairText p.key p.value

def mask (p : Param) : Param where
  key := p.key
  value := shownValue p.key p.value
  key_clean := p.key_clean
  value_clean := notMem_shownValue (by decide) p.value_clean

/-- The key names no credential, or there is no value. -/
def Harmless (p : Param) : Prop := isSecretParamKey p.key = false ∨ p.value = none

/-- The same key and, unless it names a credential, the same value. -/
def SameButSecret (p q : Param) : Prop :=
  p.key = q.key ∧ p.value.isSome = q.value.isSome ∧
    (isSecretParamKey p.key = false → p.value = q.value)

theorem amp_notMem_text (p : Param) : '&' ∉ p.text :=
  (notMem_pairText_iff (by decide)).2 ⟨p.key_clean.1, p.value_clean⟩

theorem hash_notMem_mask {p : Param} (h : '#' ∉ p.text) : '#' ∉ p.mask.text := by
  obtain ⟨hkey, hvalue⟩ := (notMem_pairText_iff (by decide)).1 h
  exact (notMem_pairText_iff (by decide)).2 ⟨hkey, notMem_shownValue (by decide) hvalue⟩

theorem scrubPair_text (p : Param) : scrubPair p.text = p.mask.text :=
  scrubPair_pairText p.key_clean.2 p.value

theorem mask_of_harmless {p : Param} (h : p.Harmless) : p.mask = p := by
  obtain ⟨key, value, _, _⟩ := p
  have hshown : shownValue key value = value := by
    unfold shownValue
    rcases h with hs | hv
    · exact if_neg (by simpa using hs)
    · obtain rfl : value = none := hv
      exact ite_self _
  exact Param.ext rfl hshown

theorem mask_congr {p q : Param} (h : p.SameButSecret q) : p.mask = q.mask := by
  obtain ⟨hkey, hsome, hvalue⟩ := h
  have hshown : shownValue p.key p.value = shownValue q.key q.value := by
    unfold shownValue
    rw [← hkey]
    split
    · cases hp : p.value <;> cases hq : q.value <;> simp [hp, hq] at hsome ⊢
    · rename_i hs
      exact hvalue (Bool.not_eq_true _ ▸ hs)
  exact Param.ext hkey hshown

@[simp] theorem mask_mask (p : Param) : p.mask.mask = p.mask := by
  simp only [mask, shownValue_idem]

theorem exists_text {t : Str} (h : '&' ∉ t) : ∃ p : Param, p.text = t := by
  cases hcut : t.splitOnce '=' with
  | none =>
    exact ⟨⟨t, none, ⟨h, Str.splitOnce_eq_none_iff.1 hcut⟩, by simp⟩, rfl⟩
  | some kv =>
    obtain ⟨key, v⟩ := kv
    obtain ⟨rfl, hkey⟩ := Str.splitOnce_eq_some_iff.1 hcut
    simp only [List.mem_append, List.mem_cons, not_or] at h
    exact ⟨⟨key, some v, ⟨h.1, hkey⟩, by simpa using h.2.2⟩, rfl⟩

end Param

/-- Parameters as they are written. -/
def paramsText (ps : List Param) : Str := ['&'].intercalate (ps.map Param.text)

theorem splitBy_paramsText {ps : List Param} (hne : ps ≠ []) :
    Str.splitBy (· == '&') (paramsText ps) = ps.map Param.text := by
  refine Str.splitBy_intercalate (fun t ht => ?_) (by simpa using hne)
  obtain ⟨p, -, rfl⟩ := List.mem_map.1 ht
  exact p.amp_notMem_text

theorem scrubParamPairs_text {ps : List Param} (hne : ps ≠ []) :
    scrubParamPairs (paramsText ps) = paramsText (ps.map Param.mask) := by
  rw [scrubParamPairs, splitBy_paramsText hne, paramsText, List.map_map, List.map_map]
  congr 2
  exact funext Param.scrubPair_text

theorem mem_paramsText {ps : List Param} {p : Param} {c : Char} (hp : p ∈ ps) (hc : c ∈ p.text) :
    c ∈ paramsText ps := by
  have hamp : c ≠ '&' := by
    rintro rfl
    exact p.amp_notMem_text hc
  have hne : ps ≠ [] := List.ne_nil_of_mem hp
  refine (mem_iff_mem_pieces hamp).2 ⟨p.text, ?_, hc⟩
  rw [← Str.splitBy_eq_pieces, splitBy_paramsText hne]
  exact List.mem_map_of_mem hp

theorem exists_paramsText (s : Str) : ∃ ps : List Param, ps ≠ [] ∧ paramsText ps = s := by
  have hparams : ∀ {ls : List Str}, Apart '&' ls → ∃ ps : List Param, ps.map Param.text = ls := by
    intro ls h
    induction ls with
    | nil => exact ⟨[], rfl⟩
    | cons l ls ih =>
      obtain ⟨hl, hls⟩ := apart_cons.1 h
      obtain ⟨p, rfl⟩ := Param.exists_text hl
      obtain ⟨ps, rfl⟩ := ih hls
      exact ⟨p :: ps, rfl⟩
  obtain ⟨ps, hps⟩ := hparams (apart_pieces '&' s)
  refine ⟨ps, ?_, ?_⟩
  · rintro rfl
    exact pieces_ne_nil '&' s hps.symm
  · rw [paramsText, hps, Str.intercalate_pieces]

/-- A text cut into its parts. -/
@[ext] structure Url where
  scheme : Str
  userinfo : Option Str
  host : Str
  path : Str
  query : Option (List Param)
  fragment : Option (List Param)
  scheme_first : ¬ "://".toList <:+: scheme
  userinfo_clean : ∀ u ∈ userinfo, ∀ c ∈ u, isAuthorityEnd c = false
  host_clean : '@' ∉ host ∧ ∀ c ∈ host, isAuthorityEnd c = false
  path_clean : '?' ∉ path ∧ '#' ∉ path ∧ ∀ c ∈ path.head?, c = '/'
  query_clean : ∀ ps ∈ query, ps ≠ [] ∧ ∀ p ∈ ps, '#' ∉ p.text
  fragment_clean : ∀ ps ∈ fragment, ps ≠ []

/-- An authority, with or without a userinfo. -/
def authorityText (host : Str) : Option Str → Str
  | some info => info ++ '@' :: host
  | none => host

/-- A parameter section behind its first character. -/
def part (c : Char) : Option (List Param) → Str
  | some ps => c :: paramsText ps
  | none => []

theorem redactAuthority_text {host : Str} (h : '@' ∉ host) (userinfo : Option Str) :
    redactAuthority (authorityText host userinfo) =
      authorityText host (userinfo.map fun _ => marker) := by
  unfold redactAuthority
  cases userinfo with
  | none => simp [authorityText, Str.rsplitOnce_eq_none_iff.2 h]
  | some info =>
    have hcut : Str.rsplitOnce '@' (info ++ '@' :: host) = some (info, host) :=
      Str.rsplitOnce_eq_some_iff.2 ⟨rfl, h⟩
    simp [authorityText, hcut]

theorem redactQuery_part {path : Str} (hpath : '?' ∉ path) {ps : Option (List Param)}
    (hne : ∀ qs ∈ ps, qs ≠ []) :
    redactQuery (path ++ part '?' ps) = path ++ part '?' (ps.map (List.map Param.mask)) := by
  unfold redactQuery
  cases ps with
  | none => simp [part, Str.splitOnce_eq_none_iff.2 hpath]
  | some qs =>
    have hcut : Str.splitOnce '?' (path ++ '?' :: paramsText qs) = some (path, paramsText qs) :=
      Str.splitOnce_eq_some_iff.2 ⟨rfl, hpath⟩
    simp [part, hcut, scrubParamPairs_text (hne qs rfl)]

theorem redactRest_part {pathAndQuery : Str} (hhash : '#' ∉ pathAndQuery)
    {ps : Option (List Param)} (hne : ∀ qs ∈ ps, qs ≠ []) :
    redactRest (pathAndQuery ++ part '#' ps) =
      redactQuery pathAndQuery ++ part '#' (ps.map (List.map Param.mask)) := by
  unfold redactRest
  cases ps with
  | none => simp [part, Str.splitOnce_eq_none_iff.2 hhash]
  | some qs =>
    have hcut : Str.splitOnce '#' (pathAndQuery ++ '#' :: paramsText qs) =
        some (pathAndQuery, paramsText qs) := Str.splitOnce_eq_some_iff.2 ⟨rfl, hhash⟩
    simp [part, hcut, scrubParamPairs_text (hne qs rfl)]

namespace Url

def authority (u : Url) : Str := authorityText u.host u.userinfo

def rest (u : Url) : Str := u.path ++ part '?' u.query ++ part '#' u.fragment

def text (u : Url) : Str := u.scheme ++ "://".toList ++ (u.authority ++ u.rest)

def mask (u : Url) : Url where
  scheme := u.scheme
  userinfo := u.userinfo.map fun _ => marker
  host := u.host
  path := u.path
  query := u.query.map (List.map Param.mask)
  fragment := u.fragment.map (List.map Param.mask)
  scheme_first := u.scheme_first
  userinfo_clean := by
    intro info hinfo
    obtain ⟨_, _, rfl⟩ := Option.map_eq_some_iff.1 hinfo
    decide
  host_clean := u.host_clean
  path_clean := u.path_clean
  query_clean := by
    intro qs hqs
    obtain ⟨ps, hps, rfl⟩ := Option.map_eq_some_iff.1 hqs
    obtain ⟨hne, hhash⟩ := u.query_clean ps hps
    refine ⟨by simpa using hne, fun q hq => ?_⟩
    obtain ⟨p, hp, rfl⟩ := List.mem_map.1 hq
    exact Param.hash_notMem_mask (hhash p hp)
  fragment_clean := by
    intro qs hqs
    obtain ⟨ps, hps, rfl⟩ := Option.map_eq_some_iff.1 hqs
    simpa using u.fragment_clean ps hps

@[simp] theorem mask_mask (u : Url) : u.mask.mask = u.mask := by
  simp [mask, Function.comp_def]

/-! ### Where the cuts fall -/

theorem authority_clean (u : Url) : ∀ c ∈ u.authority, isAuthorityEnd c = false := by
  intro c hc
  unfold authority at hc
  cases hinfo : u.userinfo with
  | none =>
    rw [hinfo] at hc
    exact u.host_clean.2 c hc
  | some info =>
    simp only [hinfo, authorityText, List.mem_append, List.mem_cons] at hc
    rcases hc with hc | rfl | hc
    · exact u.userinfo_clean info hinfo c hc
    · decide
    · exact u.host_clean.2 c hc

theorem hash_notMem_pathAndQuery (u : Url) : '#' ∉ u.path ++ part '?' u.query := by
  intro hc
  rcases List.mem_append.1 hc with hc | hc
  · exact u.path_clean.2.1 hc
  · cases hq : u.query with
    | none => simp [part, hq] at hc
    | some ps =>
      rw [hq, part, List.mem_cons, or_iff_right (by decide)] at hc
      rcases mem_of_mem_intercalate hc with hc | ⟨t, ht, hc⟩
      · exact absurd hc (by decide)
      · obtain ⟨p, hp, rfl⟩ := List.mem_map.1 ht
        exact (u.query_clean ps hq).2 p hp hc

theorem redactRest_eq (u : Url) : redactRest u.rest = u.mask.rest := by
  unfold rest
  rw [redactRest_part u.hash_notMem_pathAndQuery u.fragment_clean,
    redactQuery_part u.path_clean.1 fun ps hps => (u.query_clean ps hps).1]
  rfl

/-- The rest of a URL begins with a character that ends its authority. -/
theorem rest_head (u : Url) {c : Char} (hc : c ∈ u.rest.head?) : isAuthorityEnd c = true := by
  unfold rest at hc
  cases hp : u.path with
  | cons d path =>
    obtain rfl : d = '/' := u.path_clean.2.2 d (by simp [hp])
    obtain rfl : '/' = c := by simpa [hp] using hc
    rfl
  | nil =>
    cases hq : u.query with
    | some ps =>
      obtain rfl : '?' = c := by simpa [hp, hq, part] using hc
      rfl
    | none =>
      cases hf : u.fragment with
      | some ps =>
        obtain rfl : '#' = c := by simpa [hp, hq, hf, part] using hc
        rfl
      | none => simp [hp, hq, hf, part] at hc

/-- Nothing to mask. -/
def Harmless (u : Url) : Prop :=
  u.userinfo = none ∧ (∀ ps ∈ u.query, ∀ p ∈ ps, p.Harmless) ∧
    ∀ ps ∈ u.fragment, ∀ p ∈ ps, p.Harmless

/-- The same but for the userinfo and the values of credentials. -/
structure SameButSecrets (u v : Url) : Prop where
  scheme : u.scheme = v.scheme
  userinfo : u.userinfo.isSome = v.userinfo.isSome
  host : u.host = v.host
  path : u.path = v.path
  query : Option.Rel (List.Forall₂ Param.SameButSecret) u.query v.query
  fragment : Option.Rel (List.Forall₂ Param.SameButSecret) u.fragment v.fragment

theorem map_mask_of_harmless {ps : Option (List Param)} (h : ∀ qs ∈ ps, ∀ p ∈ qs, p.Harmless) :
    ps.map (List.map Param.mask) = ps := by
  cases ps with
  | none => rfl
  | some qs =>
    have hqs : qs.map Param.mask = qs.map id :=
      List.map_congr_left fun p hp => Param.mask_of_harmless (h qs rfl p hp)
    rw [Option.map_some, hqs, List.map_id]

theorem map_mask_congr {ps qs : Option (List Param)}
    (h : Option.Rel (List.Forall₂ Param.SameButSecret) ps qs) :
    ps.map (List.map Param.mask) = qs.map (List.map Param.mask) := by
  cases h with
  | none => rfl
  | some hsame =>
    rw [Option.map_some, Option.map_some]
    congr 1
    induction hsame with
    | nil => rfl
    | cons hp _ ih => rw [List.map_cons, List.map_cons, Param.mask_congr hp, ih]

theorem mask_of_harmless {u : Url} (h : u.Harmless) : u.mask = u := by
  obtain ⟨hinfo, hquery, hfragment⟩ := h
  exact Url.ext rfl (by simp [mask, hinfo]) rfl rfl (map_mask_of_harmless hquery)
    (map_mask_of_harmless hfragment)

theorem mask_congr {u v : Url} (h : u.SameButSecrets v) : u.mask = v.mask := by
  have hinfo : (u.userinfo.map fun _ => marker) = v.userinfo.map fun _ => marker := by
    have hsome := h.userinfo
    cases hu : u.userinfo <;> cases hv : v.userinfo <;> simp [hu, hv] at hsome ⊢
  exact Url.ext h.scheme hinfo h.host h.path (map_mask_congr h.query) (map_mask_congr h.fragment)

/-! ### Every text with a separator is a URL -/

theorem exists_part {s : Str} {c : Char} (h : ∀ d ∈ s.head?, d = c) :
    ∃ ps : Option (List Param), (∀ qs ∈ ps, qs ≠ []) ∧ part c ps = s := by
  cases s with
  | nil => exact ⟨none, by simp, rfl⟩
  | cons d s =>
    obtain rfl := h d rfl
    obtain ⟨ps, hne, rfl⟩ := exists_paramsText s
    exact ⟨some ps, by simpa using hne, rfl⟩

theorem exists_authority {s : Str} (h : ∀ c ∈ s, isAuthorityEnd c = false) :
    ∃ (userinfo : Option Str) (host : Str), authorityText host userinfo = s ∧
      (∀ u ∈ userinfo, ∀ c ∈ u, isAuthorityEnd c = false) ∧
      '@' ∉ host ∧ ∀ c ∈ host, isAuthorityEnd c = false := by
  cases hcut : s.rsplitOnce '@' with
  | none => exact ⟨none, s, rfl, by simp, Str.rsplitOnce_eq_none_iff.1 hcut, h⟩
  | some p =>
    obtain ⟨info, host⟩ := p
    obtain ⟨rfl, hhost⟩ := Str.rsplitOnce_eq_some_iff.1 hcut
    simp only [List.mem_append, List.mem_cons] at h
    refine ⟨some info, host, rfl, ?_, hhost, fun c hc => h c (.inr (.inr hc))⟩
    intro u hu c hc
    obtain rfl := Option.some.inj hu
    exact h c (.inl hc)

/-- A text behind an authority is a path with its sections. -/
theorem exists_rest {s : Str} (h : ∀ c ∈ s.head?, isAuthorityEnd c = true) :
    ∃ (path : Str) (query fragment : Option (List Param)),
      s = path ++ part '?' query ++ part '#' fragment ∧
      ('?' ∉ path ∧ '#' ∉ path ∧ ∀ c ∈ path.head?, c = '/') ∧
      (∀ ps ∈ query, ps ≠ [] ∧ ∀ p ∈ ps, '#' ∉ p.text) ∧ ∀ ps ∈ fragment, ps ≠ [] := by
  obtain ⟨front, back, rfl, hhash, hback⟩ := Str.exists_cut '#' s
  obtain ⟨path, tail, rfl, hmark, htail⟩ := Str.exists_cut '?' front
  obtain ⟨fragment, hfragment, rfl⟩ := exists_part hback
  obtain ⟨query, hquery, rfl⟩ := exists_part htail
  simp only [List.mem_append, not_or] at hhash
  refine ⟨path, query, fragment, rfl, ⟨hmark, hhash.1, ?_⟩, ?_, hfragment⟩
  · intro c hc
    obtain ⟨rest, rfl⟩ := List.head?_eq_some_iff.1 hc
    have hend := h c rfl
    have hne : c ≠ '?' ∧ c ≠ '#' := by
      constructor
      · rintro rfl
        exact hmark List.mem_cons_self
      · rintro rfl
        exact hhash.1 List.mem_cons_self
    simpa [isAuthorityEnd, hne.1, hne.2] using hend
  · intro ps hps
    refine ⟨hquery ps hps, fun p hp hc => hhash.2 ?_⟩
    obtain rfl : query = some ps := hps
    exact List.mem_cons_of_mem _ (mem_paramsText hp hc)

theorem exists_url {s : Str} (h : "://".toList <:+: s) : ∃ u : Url, u.text = s := by
  obtain ⟨⟨scheme, after⟩, hcut⟩ := Option.isSome_iff_exists.1 (Str.containsStr_iff.2 h)
  obtain ⟨rfl, hfirst⟩ := (Str.splitOnceStr_eq_some_iff (by decide)).1 hcut
  have hafter : after = (after.takeWhile fun c => !isAuthorityEnd c) ++
      after.dropWhile fun c => !isAuthorityEnd c := List.takeWhile_append_dropWhile.symm
  obtain ⟨userinfo, host, hauthority, hinfo, hhost⟩ := exists_authority
    (s := after.takeWhile fun c => !isAuthorityEnd c) fun c hc => by
      simpa using List.mem_takeWhile_imp hc
  obtain ⟨path, query, fragment, hrest, hpath, hquery, hfragment⟩ := exists_rest
    (s := after.dropWhile fun c => !isAuthorityEnd c) fun c hc => by
      simpa using Str.head?_dropWhile hc
  refine ⟨⟨scheme, userinfo, host, path, query, fragment, hfirst, hinfo, hhost, hpath, hquery,
    hfragment⟩, ?_⟩
  rw [hafter, ← hauthority, hrest]
  rfl

end Url

theorem redactUrlCredentials_text (u : Url) : redactUrlCredentials u.text = u.mask.text := by
  have hscheme : u.text.splitOnceStr "://".toList = some (u.scheme, _) :=
    (Str.splitOnceStr_eq_some_iff (by decide)).2 ⟨rfl, u.scheme_first⟩
  have hcut := Str.cut_append (p := fun c => !isAuthorityEnd c) (a := u.authority) (b := u.rest)
    (fun c hc => by rw [u.authority_clean c hc]; rfl) (fun c hc => by rw [u.rest_head hc]; rfl)
  have hauthority : redactAuthority u.authority = u.mask.authority :=
    redactAuthority_text u.host_clean.1 u.userinfo
  simp only [redactUrlCredentials, hscheme, hcut.1, hcut.2, hauthority, u.redactRest_eq]
  rfl

theorem redactUrlCredentials_of_no_scheme {s : Str} (h : ¬ "://".toList <:+: s) :
    redactUrlCredentials s = s := by
  have hnone : s.splitOnceStr "://".toList = none := by
    rw [← Str.containsStr_iff, Str.containsStr, Bool.not_eq_true,
      Option.isSome_eq_false_iff, Option.isNone_iff_eq_none] at h
    exact h
  simp only [redactUrlCredentials, hnone]

/-! ## Results -/

/-- Redacted URLs reveal nothing about the secrets: two URLs that differ only in the userinfo and in
the values of credentials look the same. -/
theorem redactUrlCredentials_hides {u v : Url} (h : u.SameButSecrets v) :
    redactUrlCredentials u.text = redactUrlCredentials v.text := by
  rw [redactUrlCredentials_text, redactUrlCredentials_text, Url.mask_congr h]

/-- A URL with a userinfo and a token. -/
def sampleUrl (info token : Str) (hinfo : ∀ c ∈ info, isAuthorityEnd c = false)
    (htoken : '&' ∉ token ∧ '#' ∉ token) : Url where
  scheme := "https".toList
  userinfo := some info
  host := "dns.example".toList
  path := "/dns-query".toList
  query := some
    [ ⟨"Token".toList, some token, by decide, by simpa using htoken.1⟩
    , ⟨"format".toList, some "hosts".toList, by decide, by decide⟩ ]
  fragment := none
  scheme_first := by decide
  userinfo_clean := by simpa using hinfo
  host_clean := by decide
  path_clean := ⟨by decide, by decide, by simp⟩
  query_clean := by simpa [Param.text, pairText] using htoken.2
  fragment_clean := by simp

/-- Secrets that look like other parts of a URL. -/
theorem redactUrlCredentials_hides_sample :
    let u := sampleUrl "alice:p@ss".toList "a=b?c://d@e".toList (by decide) (by decide +kernel)
    let v := sampleUrl "bob".toList [] (by decide) (by decide)
    u.SameButSecrets v ∧ redactUrlCredentials u.text = redactUrlCredentials v.text :=
  have h : (sampleUrl "alice:p@ss".toList "a=b?c://d@e".toList (by decide)
      (by decide +kernel)).SameButSecrets (sampleUrl "bob".toList [] (by decide) (by decide)) :=
    { scheme := rfl
      userinfo := rfl
      host := rfl
      path := rfl
      query := .some (.cons ⟨rfl, rfl, by decide⟩ (.cons ⟨rfl, rfl, fun _ => rfl⟩ .nil))
      fragment := .none }
  ⟨h, redactUrlCredentials_hides h⟩

theorem redactUrlCredentials_idem (s : Str) :
    redactUrlCredentials (redactUrlCredentials s) = redactUrlCredentials s := by
  by_cases h : "://".toList <:+: s
  · obtain ⟨u, rfl⟩ := Url.exists_url h
    rw [redactUrlCredentials_text, redactUrlCredentials_text, Url.mask_mask]
  · rw [redactUrlCredentials_of_no_scheme h, redactUrlCredentials_of_no_scheme h]

/-- A text is harmless if no way to cut it shows something to mask; without a separator there is no
way to cut it. -/
theorem redactUrlCredentials_of_harmless {s : Str} (h : ∀ u : Url, u.text = s → u.Harmless) :
    redactUrlCredentials s = s := by
  by_cases hsep : "://".toList <:+: s
  · obtain ⟨u, rfl⟩ := Url.exists_url hsep
    rw [redactUrlCredentials_text, Url.mask_of_harmless (h u rfl)]
  · exact redactUrlCredentials_of_no_scheme hsep

/-- Redaction is idempotent and otherwise lossless. -/
theorem redactUrlCredentials_idem_and_lossless (s : Str) :
    redactUrlCredentials (redactUrlCredentials s) = redactUrlCredentials s ∧
    (¬ "://".toList <:+: s → redactUrlCredentials s = s) ∧
    ((∀ u : Url, u.text = s → u.Harmless) → redactUrlCredentials s = s) :=
  ⟨redactUrlCredentials_idem s, redactUrlCredentials_of_no_scheme, redactUrlCredentials_of_harmless⟩

theorem redactedForDisplay_idem (cfg : DnsConfig) :
    redactedForDisplay (redactedForDisplay cfg) = redactedForDisplay cfg := by
  have hlist : redactUrlCredentials ∘ redactUrlCredentials = redactUrlCredentials :=
    funext redactUrlCredentials_idem
  simp only [redactedForDisplay, List.map_map, hlist, Function.comp_def]

end RustyDns.L1
