import RustyDns.Lib.Text

/-!
# Unicode case and debug output

`str::to_lowercase` and the `{:?}` form of a string depend on tables of the Unicode database. The
tables are a parameter here (`UnicodeTables`); what is assumed of them is only what the standard
documents: an ASCII character lowers to its ASCII lowercase. The algorithm over the tables (final
sigma, escapes) is the standard library's.

Results:
* `toLowercase_of_isAscii`: on ASCII text, `to_lowercase` is the ASCII map, whatever the tables.
-/

namespace RustyDns.Lib

/-- The Unicode tables behind `to_lowercase` and `escape_debug`. -/
structure UnicodeTables where
  /-- `conversions::to_lower`: one to three characters. -/
  lower : Char → Str
  /-- The `Cased` property. -/
  cased : Char → Bool
  /-- The `Case_Ignorable` property. -/
  caseIgnorable : Char → Bool
  /-- Printable and not a grapheme extender, so that `{:?}` shows it unescaped. -/
  debugPrintable : Char → Bool
  lower_ascii : ∀ c, Str.isAsciiChar c = true → lower c = [c.toLower]

namespace UnicodeTables

/-- Tables that know ASCII only; every other character lowers to itself. -/
def asciiOnly : UnicodeTables where
  lower c := if Str.isAsciiChar c then [c.toLower] else [c]
  cased c := c.isAlpha
  caseIgnorable _ := false
  debugPrintable c := 32 ≤ c.toNat && c.toNat < 127
  lower_ascii c h := by simp [h]

/-- What every version of the tables has: a lower-case form is not empty, and only the dot has a dot
in it. -/
structure Sound (T : UnicodeTables) : Prop where
  lower_ne_nil : ∀ c, T.lower c ≠ []
  dot_lower : ∀ c, '.' ∈ T.lower c → c = '.'

theorem sound_asciiOnly : asciiOnly.Sound where
  lower_ne_nil c := by
    unfold asciiOnly
    simp only
    split <;> exact List.cons_ne_nil _ _
  dot_lower c h := by
    unfold asciiOnly at h
    simp only at h
    split at h
    · exact Str.toLower_eq_dot_iff.1 (List.mem_singleton.1 h).symm
    · exact (List.mem_singleton.1 h).symm

end UnicodeTables

namespace Str

section
variable (T : UnicodeTables)

/-- `case_ignorable_then_cased`. -/
def caseIgnorableThenCased (s : Str) : Bool :=
  match s.dropWhile T.caseIgnorable with
  | c :: _ => T.cased c
  | [] => false

/-- `map_uppercase_sigma`, with the text before the sigma reversed. -/
def mapUppercaseSigma (before after : Str) : Char :=
  if caseIgnorableThenCased T before && !caseIgnorableThenCased T after then 'ς' else 'σ'

/-- The loop of `to_lowercase`; `before` is what was already read, reversed. -/
def lowercaseFrom (before : Str) : Str → Str
  | [] => []
  | c :: cs =>
    (if c = 'Σ' then [mapUppercaseSigma T before cs] else T.lower c) ++
      lowercaseFrom (c :: before) cs

/-- `str::to_lowercase`. -/
def toLowercase (s : Str) : Str := lowercaseFrom T [] s

/-- `char::escape_debug` inside a double-quoted string. -/
def escapeDebug (c : Char) : Str :=
  if c = '\x00' then ['\\', '0']
  else if c = '\t' then ['\\', 't']
  else if c = '\r' then ['\\', 'r']
  else if c = '\n' then ['\\', 'n']
  else if c = '"' then ['\\', '"']
  else if c = '\\' then ['\\', '\\']
  else if T.debugPrintable c then [c]
  else ['\\', 'u', '\x7b'] ++ Nat.toDigits 16 c.toNat ++ ['\x7d']

/-- `format!("{:?}", s)`. -/
def debugStr (s : Str) : Str := '"' :: (s.flatMap (escapeDebug T) ++ ['"'])

/-- `{:?}` inside a longer message. -/
def debugFmt (s : Str) : String := String.ofList (debugStr T s)

end

/-- `format!("{}", s)`. -/
def display (s : Str) : String := String.ofList s

theorem lowercaseFrom_of_isAscii (T : UnicodeTables) :
    ∀ (s before : Str), isAscii s = true → lowercaseFrom T before s = toAsciiLowercase s
  | [], _, _ => rfl
  | c :: cs, before, h => by
    simp only [isAscii, List.all_cons, Bool.and_eq_true] at h
    have hc : c ≠ 'Σ' := by
      rintro rfl
      exact absurd h.1 (by decide)
    have ih := lowercaseFrom_of_isAscii T cs (c :: before) h.2
    simp [lowercaseFrom, hc, T.lower_ascii c h.1, ih, toAsciiLowercase]

theorem toLowercase_of_isAscii (T : UnicodeTables) {s : Str} (h : isAscii s = true) :
    toLowercase T s = toAsciiLowercase s :=
  lowercaseFrom_of_isAscii T s [] h

/-- A final dot stays where it is. -/
theorem lowercaseFrom_concat_dot (T : UnicodeTables) :
    ∀ s before : Str, ∃ front, lowercaseFrom T before (s ++ ['.']) = front ++ ['.']
  | [], before => ⟨[], by simp [lowercaseFrom, T.lower_ascii '.' (by decide)]⟩
  | c :: s, before => by
    obtain ⟨front, hfront⟩ := lowercaseFrom_concat_dot T s (c :: before)
    refine ⟨(if c = 'Σ' then [mapUppercaseSigma T before (s ++ ['.'])] else T.lower c) ++ front, ?_⟩
    rw [List.cons_append, lowercaseFrom, hfront, List.append_assoc]

theorem endsWith_dot_toLowercase {T : UnicodeTables} {s : Str} (h : s.endsWith ['.'] = true) :
    (s.toLowercase T).endsWith ['.'] = true := by
  obtain ⟨front, rfl⟩ := endsWith_iff.1 h
  exact endsWith_iff.2 (lowercaseFrom_concat_dot T front [])

/-! ## What lower-casing leaves alone -/

/-- No character of the text has another lower-case form. -/
def LowerFixed (T : UnicodeTables) (s : Str) : Prop := ∀ c ∈ s, c ≠ 'Σ' ∧ T.lower c = [c]

instance (T : UnicodeTables) (s : Str) : Decidable (LowerFixed T s) :=
  inferInstanceAs (Decidable (∀ c ∈ s, _))

theorem lowercaseFrom_of_fixed {T : UnicodeTables} :
    ∀ {s : Str} (before : Str), LowerFixed T s → lowercaseFrom T before s = s
  | [], _, _ => rfl
  | c :: cs, before, h => by
    obtain ⟨⟨hsigma, hlower⟩, hcs⟩ := List.forall_mem_cons.1 h
    rw [lowercaseFrom, if_neg hsigma, hlower, lowercaseFrom_of_fixed (c :: before) hcs]
    rfl

theorem lowercaseFrom_append_of_isAscii (T : UnicodeTables) (t : Str) :
    ∀ (s before : Str), isAscii s = true → lowercaseFrom T before (s ++ t) =
      toAsciiLowercase s ++ lowercaseFrom T (s.reverse ++ before) t
  | [], before, _ => rfl
  | c :: cs, before, h => by
    simp only [isAscii, List.all_cons, Bool.and_eq_true] at h
    have hc : c ≠ 'Σ' := by
      rintro rfl
      exact absurd h.1 (by decide)
    have ih := lowercaseFrom_append_of_isAscii T t cs (c :: before) h.2
    simp [lowercaseFrom, hc, T.lower_ascii c h.1, ih, toAsciiLowercase]

section
variable {T : UnicodeTables} (hT : T.Sound)
include hT

/-- What one character becomes. -/
theorem lower_piece (c : Char) (before after : Str) :
    (if c = 'Σ' then [mapUppercaseSigma T before after] else T.lower c) ≠ [] ∧
      ((if c = 'Σ' then [mapUppercaseSigma T before after] else T.lower c) = [c] →
        c ≠ 'Σ' ∧ T.lower c = [c]) ∧
      List.count '.' (if c = 'Σ' then [mapUppercaseSigma T before after] else T.lower c) =
        List.count '.' [c] := by
  by_cases hc : c = 'Σ'
  · have hsigma : mapUppercaseSigma T before after ≠ 'Σ' ∧ mapUppercaseSigma T before after ≠ '.' := by
      unfold mapUppercaseSigma
      split <;> decide
    simp only [hc]
    refine ⟨List.cons_ne_nil _ _, fun h => absurd (List.singleton_inj.1 h) hsigma.1, ?_⟩
    simp [hsigma.2]
  · simp only [if_neg hc]
    refine ⟨hT.lower_ne_nil c, fun h => ⟨hc, h⟩, ?_⟩
    by_cases hdot : c = '.'
    · rw [hdot, T.lower_ascii '.' (by decide)]
      rfl
    · rw [List.count_eq_zero_of_not_mem fun h => hdot (hT.dot_lower c h)]
      simp [hdot]

theorem length_le_lowercaseFrom : ∀ s before : Str, s.length ≤ (lowercaseFrom T before s).length
  | [], _ => Nat.le_refl _
  | c :: cs, before => by
    have hpos := List.length_pos_iff.2 (lower_piece hT c before cs).1
    have ih := length_le_lowercaseFrom cs (c :: before)
    rw [lowercaseFrom, List.length_append, List.length_cons]
    omega

theorem count_dot_lowercaseFrom :
    ∀ s before : Str, List.count '.' (lowercaseFrom T before s) = List.count '.' s
  | [], _ => rfl
  | c :: cs, before => by
    rw [lowercaseFrom, List.count_append, (lower_piece hT c before cs).2.2,
      count_dot_lowercaseFrom cs (c :: before), ← List.count_append]
    rfl

theorem fixed_of_lowercaseFrom_eq :
    ∀ {s : Str} (before : Str), lowercaseFrom T before s = s → LowerFixed T s
  | [], _, _ => by simp [LowerFixed]
  | c :: cs, before, h => by
    obtain ⟨hne, hfix, -⟩ := lower_piece hT c before cs
    have hlen := length_le_lowercaseFrom hT cs (c :: before)
    rw [lowercaseFrom] at h
    generalize (if c = 'Σ' then [mapUppercaseSigma T before cs] else T.lower c) = piece at *
    -- a piece of two or more characters would leave too little room for the rest
    obtain ⟨x, rfl⟩ : ∃ x, piece = [x] := by
      apply List.length_eq_one_iff.1
      have hpos := List.length_pos_iff.2 hne
      have htotal := congrArg List.length h
      rw [List.length_append, List.length_cons] at htotal
      omega
    obtain ⟨rfl, hrest⟩ := List.cons.inj h
    exact List.forall_mem_cons.2 ⟨hfix rfl, fixed_of_lowercaseFrom_eq (x :: before) hrest⟩

end

end Str

end RustyDns.Lib
