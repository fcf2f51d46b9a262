import RustyDns.Lib.Quoted
import RustyDns.Lib.Split
import RustyDns.L3Resolver.Upstream

/-!
# Ports as written

What `parse_upstream_url` returns, against what the URL says. A host stands without brackets and
without colons, or is an IP literal in brackets; a port stands behind a colon.

The parser takes a literal apart at its brackets. Without brackets it looks at the last colon only:
with more than one, the host it returns holds the others, and an IPv6 address without brackets loses
its last group to the port.

Results:
* `parseHostPort_outcome`: the five ways in which a text is read.
* `parseUpstreamUrl_reads_iff`: an accepted URL is read as written exactly when it has a bracket, no
  colon, or one colon before digits.
-/

namespace RustyDns.L3

open RustyDns.Lib RustyDns.L1

/-! ## What a URL says -/

/-- The lower-case scheme of a URL and the text between its separator and the first slash behind. A
plain URL may have no scheme; its text starts at once. -/
inductive Authority (protocol : UpstreamProtocol) (url : Str) : Str → Str → Prop where
  | behindScheme {scheme authority path : Str} :
      url = scheme ++ "://".toList ++ (authority ++ path) → ¬ "://".toList <:+: scheme →
      '/' ∉ authority → (∀ c ∈ path.head?, c = '/') →
      Authority protocol url scheme.toAsciiLowercase authority
  | plain {authority path : Str} :
      protocol = .plain → ¬ "://".toList <:+: url → url = authority ++ path →
      '/' ∉ authority → (∀ c ∈ path.head?, c = '/') →
      Authority protocol url "plain".toList authority

/-- What a text says about host and port; `default` is the port of one that names none. -/
inductive ReadAs (default : Nat) : Str → Str → Nat → Prop where
  | host {h : Str} : h ≠ [] → h.head? ≠ some '[' → ':' ∉ h → ReadAs default h h default
  | hostPort {h p : Str} {port : Nat} : h ≠ [] → h.head? ≠ some '[' → ':' ∉ h →
      p.all Char.isDigit = true → p.parseUnsigned 65536 = some port →
      ReadAs default (h ++ ':' :: p) h port
  | literal {ip : Str} : ']' ∉ ip → (parseIpAddr ip).isSome = true →
      ReadAs default ('[' :: (ip ++ [']'])) ip default
  | literalPort {ip p : Str} {port : Nat} : ']' ∉ ip → (parseIpAddr ip).isSome = true →
      p.parseUnsigned 65536 = some port → ReadAs default ('[' :: (ip ++ ']' :: ':' :: p)) ip port

/-- Brackets, no colon, or one colon with digits behind it. -/
def OneColon (t : Str) : Prop :=
  t.head? = some '[' ∨ ':' ∉ t ∨ ∃ h p, t = h ++ ':' :: p ∧ ':' ∉ h ∧ p.all Char.isDigit = true

/-! ## What the parser reads -/

/-- What the parser makes of a text. -/
inductive Outcome (default : Nat) : Str → Str → Nat → Prop where
  | asWritten {t host : Str} {port : Nat} : OneColon t → ReadAs default t host port →
      Outcome default t host port
  /-- No digits behind the last colon: the host takes all of it. -/
  | colonHost {front tail : Str} : (front ++ ':' :: tail).head? ≠ some '[' → ':' ∉ tail →
      tail.all Char.isDigit = false →
      Outcome default (front ++ ':' :: tail) (front ++ ':' :: tail) default
  /-- The host keeps the colons before the last one. -/
  | colonsBefore {front tail : Str} {port : Nat} : (front ++ ':' :: tail).head? ≠ some '[' →
      ':' ∈ front → tail.all Char.isDigit = true → tail.parseUnsigned 65536 = some port →
      Outcome default (front ++ ':' :: tail) front port

theorem parseBare_outcome {url t host : Str} {default port : Nat} (hhead : t.head? ≠ some '[')
    (hne : host ≠ []) (h : parseBare url default t = .ok (host, port)) :
    Outcome default t host port := by
  cases hsplit : t.rsplitOnce ':' with
  | none =>
    have hcolon := Str.rsplitOnce_eq_none_iff.1 hsplit
    simp only [parseBare, hsplit, Except.ok.injEq, Prod.mk.injEq] at h
    obtain ⟨rfl, rfl⟩ := h
    exact .asWritten (.inr (.inl hcolon)) (.host hne hhead hcolon)
  | some p =>
    obtain ⟨front, tail⟩ := p
    obtain ⟨rfl, hcolon⟩ := Str.rsplitOnce_eq_some_iff.1 hsplit
    by_cases hdigits : tail.all Char.isDigit = true
    · simp only [parseBare, hsplit, hdigits, if_true, Checks.bind_ok_iff, Checks.okOr_ok_iff,
        Checks.pure_ok_iff, Prod.mk.injEq] at h
      obtain ⟨n, hport, rfl, rfl⟩ := h
      by_cases hfront : ':' ∈ front
      · exact .colonsBefore hhead hfront hdigits hport
      · have hbare : front.head? ≠ some '[' := by
          intro hb
          obtain ⟨rest, rfl⟩ := List.head?_eq_some_iff.1 hb
          exact hhead rfl
        exact .asWritten (.inr (.inr ⟨front, tail, rfl, hfront, hdigits⟩))
          (.hostPort hne hbare hfront hdigits hport)
    · simp only [parseBare, hsplit, hdigits] at h
      obtain ⟨rfl, rfl⟩ := Prod.mk.inj (Except.ok.inj h)
      exact .colonHost hhead hcolon (Bool.not_eq_true _ ▸ hdigits)

theorem parseLiteral_outcome {url inner host : Str} {default port : Nat}
    (h : parseLiteral url default inner = .ok (host, port)) :
    Outcome default ('[' :: inner) host port := by
  simp only [parseLiteral, Checks.bind_ok_iff, Checks.okOr_ok_iff, Checks.reject_ok_iff,
    Prod.exists, Bool.not_eq_true] at h
  obtain ⟨ip, after, hsplit, -, hip, h⟩ := h
  obtain ⟨rfl, hbracket⟩ := Str.splitOnce_eq_some_iff.1 hsplit
  have hsome := Option.isNone_eq_false_iff.1 hip
  cases hport : after.stripStart [':'] with
  | none =>
    simp only [hport, Checks.seq_ok_iff, Checks.reject_ok_iff, not_not, Checks.pure_ok_iff,
      Prod.mk.injEq] at h
    obtain ⟨rfl, rfl, rfl⟩ := h
    exact .asWritten (.inl rfl) (.literal hbracket hsome)
  | some p =>
    simp only [hport, Checks.bind_ok_iff, Checks.okOr_ok_iff, Checks.pure_ok_iff,
      Prod.mk.injEq] at h
    obtain ⟨n, hn, rfl, rfl⟩ := h
    obtain rfl : after = ':' :: p := Str.stripStart_eq_some_iff.1 hport
    exact .asWritten (.inl rfl) (.literalPort hbracket hsome hn)

theorem parseHostPort_outcome {url t host : Str} {default port : Nat}
    (h : parseHostPort url default t = .ok (host, port)) : Outcome default t host port := by
  simp only [parseHostPort, Checks.bind_ok_iff, Checks.reject_ok_iff, Checks.pure_ok_iff] at h
  obtain ⟨-, -, hp, hrun, -, hne, rfl⟩ := h
  cases hb : t.stripStart ['['] with
  | some inner =>
    obtain rfl : t = '[' :: inner := Str.stripStart_eq_some_iff.1 hb
    simp only [parseEither, hb] at hrun
    exact parseLiteral_outcome hrun
  | none =>
    have hhead : t.head? ≠ some '[' := by
      intro heq
      obtain ⟨inner, rfl⟩ := List.head?_eq_some_iff.1 heq
      simp [Str.stripStart, Str.dropStart] at hb
    simp only [parseEither, hb] at hrun
    exact parseBare_outcome hhead hne hrun

/-- The host a text names holds no colon unless it stands in brackets. -/
theorem ReadAs.colon_notMem {default port : Nat} {t host : Str} (h : ReadAs default t host port)
    (hhead : t.head? ≠ some '[') : ':' ∉ host := by
  cases h with
  | host _ _ hcolon => exact hcolon
  | hostPort _ _ hcolon => exact hcolon
  | literal => exact absurd rfl hhead
  | literalPort => exact absurd rfl hhead

theorem Outcome.readAs_iff {default port : Nat} {t host : Str} (h : Outcome default t host port) :
    ReadAs default t host port ↔ OneColon t := by
  cases h with
  | asWritten hone hread => exact iff_of_true hread hone
  | @colonHost front tail hhead hcolon hdigits =>
    refine iff_of_false (fun hs => hs.colon_notMem hhead (by simp)) ?_
    rintro (hb | hnone | ⟨h, p, heq, -, hp⟩)
    · exact hhead hb
    · exact hnone (by simp)
    · obtain ⟨-, rfl⟩ := append_cons_inj_last hcolon (colon_not_mem_digits hp) heq
      rw [hp] at hdigits
      cases hdigits
  | @colonsBefore front tail port hhead hfront hdigits =>
    refine iff_of_false (fun hs => hs.colon_notMem hhead hfront) ?_
    rintro (hb | hnone | ⟨h, p, heq, hh, hp⟩)
    · exact hhead hb
    · exact hnone (by simp)
    · obtain ⟨rfl, -⟩ := append_cons_inj_last (colon_not_mem_digits hdigits)
        (colon_not_mem_digits hp) heq
      exact hh hfront

/-! ## The URL as a whole -/

theorem exists_authority {protocol : UpstreamProtocol} {url scheme rest : Str}
    (h : splitScheme url protocol = .ok (scheme, rest)) :
    Authority protocol url scheme (rest.takeWhile fun c => !(c == '/')) := by
  have hcut : rest = (rest.takeWhile fun c => !(c == '/')) ++ rest.dropWhile fun c => !(c == '/') :=
    List.takeWhile_append_dropWhile.symm
  have hslash : '/' ∉ rest.takeWhile fun c => !(c == '/') := by
    intro hc
    simpa using List.mem_takeWhile_imp hc
  have hpath : ∀ c ∈ (rest.dropWhile fun c => !(c == '/')).head?, c = '/' := by
    intro c hc
    simpa using Str.head?_dropWhile hc
  cases hsplit : url.splitOnceStr "://".toList with
  | some p =>
    obtain ⟨pre, rest'⟩ := p
    simp only [splitScheme, hsplit, Except.ok.injEq, Prod.mk.injEq] at h
    obtain ⟨rfl, rfl⟩ := h
    obtain ⟨hurl, hfirst⟩ := (Str.splitOnceStr_eq_some_iff (by decide)).1 hsplit
    exact .behindScheme (hurl.trans (by rw [← hcut]; rfl)) hfirst hslash hpath
  | none =>
    have hno : ¬ "://".toList <:+: url := by
      rw [← Str.containsStr_iff, Str.containsStr, hsplit]
      simp
    simp only [splitScheme, hsplit] at h
    split at h
    · rename_i hplain
      obtain ⟨rfl, rfl⟩ := Prod.mk.inj (Except.ok.inj h)
      exact .plain hplain hno hcut hslash hpath
    · cases h

/-- When ports are read as written: for every text and protocol that is accepted, the host and the
port are those of the text between the scheme separator and the first slash exactly when that text
has a bracket in front, no colon, or one colon before digits. -/
theorem parseUpstreamUrl_reads_iff {url : Str} {protocol : UpstreamProtocol} {parsed : ParsedUpstream}
    (h : parseUpstreamUrl url protocol = .ok parsed) :
    ∃ authority, Authority protocol url.trim parsed.scheme authority ∧
      (ReadAs (defaultPort parsed.scheme protocol) authority parsed.host parsed.port ↔
        OneColon authority) := by
  simp only [parseUpstreamUrl, Checks.bind_ok_iff, Checks.pure_ok_iff, Prod.exists] at h
  obtain ⟨scheme, rest, hscheme, host, port, hhost, rfl⟩ := h
  rw [Str.head_splitBy (· == '/')] at hhost
  exact ⟨_, exists_authority hscheme, (parseHostPort_outcome hhost).readAs_iff⟩

/-- An IPv6 address without brackets loses its last group to the port, and no text names what is left
as its host. -/
theorem parseUpstreamUrl_shifts_port :
    parseUpstreamUrl "https://2001:db8::53/dns-query".toList .doh =
      .ok { scheme := "https".toList, host := "2001:db8:".toList, port := 53 } ∧
    ∀ default authority, ¬ ReadAs default authority "2001:db8:".toList 53 := by
  have hcolon : ':' ∈ "2001:db8:".toList := by decide
  refine ⟨by decide +kernel, fun default authority hread => ?_⟩
  cases hread with
  | host _ _ hnone => exact hnone hcolon
  | hostPort _ _ hnone => exact hnone hcolon
  | literal _ hip => exact absurd hip (by decide +kernel)
  | literalPort _ hip => exact absurd hip (by decide +kernel)

theorem parseUpstreamUrl_reads_bracketed :
    parseUpstreamUrl "https://[2001:db8::53]/dns-query".toList .doh =
      .ok { scheme := "https".toList, host := "2001:db8::53".toList, port := 443 } ∧
    ∃ authority, Authority .doh (Str.trim "https://[2001:db8::53]/dns-query".toList) "https".toList
      authority ∧ (ReadAs 443 authority "2001:db8::53".toList 443 ↔ OneColon authority) :=
  have h : parseUpstreamUrl "https://[2001:db8::53]/dns-query".toList .doh =
      .ok { scheme := "https".toList, host := "2001:db8::53".toList, port := 443 } := by
    decide +kernel
  ⟨h, parseUpstreamUrl_reads_iff h⟩

end RustyDns.L3
