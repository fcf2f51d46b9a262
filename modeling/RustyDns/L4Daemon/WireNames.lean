import RustyDns.Lib.Labels
import RustyDns.L4Daemon.Pipeline

/-!
# Query names on the wire

A query name arrives as labels, byte strings without a limit on their content. The pipeline works on
the text that hickory renders of it, so what the text tests mean for the labels depends on that
rendering. A rendering is what it prints for one label; a name is its labels, each followed by a
dot. The length limits of names play no part.
-/

namespace RustyDns.L4.Names

open RustyDns.Lib RustyDns.Lib.Labels RustyDns.L3
open RustyDns.L4.Pipeline

/-- The labels of a name, the leftmost first. On the wire an empty label ends the name. -/
structure WireName where
  labels : List (List UInt8)
  nonempty : ∀ l ∈ labels, l ≠ []

/-- The character with the code of a byte. -/
def byteChar (b : UInt8) : Char := Char.ofNat b.toNat

theorem toNat_byteChar (b : UInt8) : (byteChar b).toNat = b.toNat := by
  have hlt : b.toNat < 256 := b.toNat_lt
  have hvalid : b.toNat.isValidChar := .inl (by omega)
  rw [byteChar, Char.ofNat, dif_pos hvalid]
  rfl

/-- A label in lower case, as text. -/
def lowerLabel (l : List UInt8) : Str := Str.toAsciiLowercase (l.map byteChar)

/-- The text of a name, under the text of each label. -/
def nameText (label : List UInt8 → Str) (name : WireName) : Str := spell '.' (name.labels.map label)

/-- The server displays a name as the text of its labels. -/
def Renders {H : Hickory} (S : HickoryServer H) (wire : H.Name → WireName)
    (label : List UInt8 → Str) : Prop :=
  ∀ name, S.display name = nameText label (wire name)

theorem toAsciiLowercase_spell (ls : List Str) :
    Str.toAsciiLowercase (spell '.' ls) = spell '.' (ls.map Str.toAsciiLowercase) := by
  induction ls with
  | nil => rfl
  | cons l ls ih =>
    have hdot : Char.toLower '.' = '.' := by decide
    rw [spell_cons, List.map_cons, spell_cons, ← ih]
    simp [Str.toAsciiLowercase, hdot]

/-- The text that the tests on names see: in lower case, without trailing dots. -/
theorem canonical_nameText (label : List UInt8 → Str) (name : WireName) :
    canonical (nameText label name) =
      Str.trimEndMatches '.'
        (spell '.' (name.labels.map fun l => Str.toAsciiLowercase (label l))) := by
  rw [canonical, ← Str.trimEndMatches_toAsciiLowercase, nameText, toAsciiLowercase_spell,
    List.map_map]
  rfl

theorem trimEndMatches_of_ne {s : Str} {c : Char} (h : c ≠ '.') :
    Str.trimEndMatches '.' (s ++ [c]) = s ++ [c] :=
  List.rdropWhile_concat_neg _ _ _ (by simpa using h)

/-- After a text without dots, trimming takes off the dot that ends it and no more. -/
theorem trimEndMatches_dot {s u : Str} (hne : u ≠ []) (hdot : '.' ∉ u) :
    Str.trimEndMatches '.' (s ++ u ++ ['.']) = s ++ u := by
  obtain ⟨u', c, rfl⟩ := (List.eq_nil_or_concat' u).resolve_left hne
  have hc : c ≠ '.' := by
    rintro rfl
    simp at hdot
  rw [Str.trimEndMatches_concat, ← List.append_assoc, trimEndMatches_of_ne hc]

/-! ## Host-name characters -/

/-- Letters, digits, hyphen and underscore. -/
def hostChar (c : Char) : Bool := c.isAlphanum || c == '-' || c == '_'

def hostByte (b : UInt8) : Bool := hostChar (byteChar b)

theorem hostChar_toLower (c : Char) : hostChar c.toLower = hostChar c := by
  rcases Str.toLower_cases c with ⟨-, h⟩ | ⟨hup, hlow, hhigh, h⟩
  · rw [h]
  · have hlower : c.toLower.isLower = true := by
      refine Bool.and_eq_true_iff.2 ⟨decide_eq_true ?_, decide_eq_true ?_⟩
      · show 97 ≤ c.toLower.toNat
        omega
      · show c.toLower.toNat ≤ 122
        omega
    simp [hostChar, Char.isAlphanum, Char.isAlpha, hup, hlower]

theorem hostChar_code {c : Char} (h : hostChar c = true) :
    (48 ≤ c.toNat ∧ c.toNat ≤ 57) ∨ (65 ≤ c.toNat ∧ c.toNat ≤ 90) ∨
      (97 ≤ c.toNat ∧ c.toNat ≤ 122) ∨ c.toNat = 45 ∨ c.toNat = 95 := by
  simp only [hostChar, Char.isAlphanum, Char.isAlpha, Char.isUpper, Char.isLower, Char.isDigit,
    Bool.or_eq_true, Bool.and_eq_true, decide_eq_true_eq, beq_iff_eq] at h
  rcases h with (((⟨hl, hh⟩ | ⟨hl, hh⟩) | ⟨hl, hh⟩) | rfl) | rfl
  · exact .inr (.inl ⟨hl, hh⟩)
  · exact .inr (.inr (.inl ⟨hl, hh⟩))
  · exact .inl ⟨hl, hh⟩
  · exact .inr (.inr (.inr (.inl rfl)))
  · exact .inr (.inr (.inr (.inr rfl)))

theorem hostChar_not_blank {c : Char} (h : hostChar c = true) : Str.isWhitespace c = false := by
  have hcode := hostChar_code h
  rw [Bool.eq_false_iff]
  simp only [Str.isWhitespace, ne_eq, Bool.or_eq_true, Bool.and_eq_true, decide_eq_true_eq,
    beq_iff_eq]
  omega

theorem hostChar_dot : hostChar '.' = false := by decide

theorem hostChar_backslash : hostChar '\\' = false := by decide

/-! ## A small server -/

/-- Names as their labels, displayed label by label. -/
abbrev labelHickory (label : List UInt8 → Str) : Hickory where
  Name := WireName
  toUtf8 := nameText label
  fromStr _ := none
  isAsciiName _ := false
  typeLabel _ := ['A']
  typeFromStr _ := some .a

def labelServer (label : List UInt8 → Str) : HickoryServer (labelHickory label) where
  display := nameText label
  responseFromRequest m := m
  encodedLen _ := none

/-- A handler without rewrites, whose resolver finds nothing. -/
def bareHandler (H : Hickory) (blocklist : L2.Blocklist.BlocklistEngine) (policyByIp : PolicyMap)
    (authority : L2.Auth.Authority) : Pipeline.DnsHandler H where
  blocklist := blocklist
  resolver :=
    { config := {}
      default := .hickory { lookup := fun _ _ => .ok [] }
      routes := [] }
  sinkholeIp := none
  authority := authority
  policyByIp := policyByIp
  rewrites := {}

/-- A question for the address of a name. -/
def addressQuery {label : List UInt8 → Str} (name : WireName) : Query (labelHickory label) where
  name := name
  queryType := .a
  queryClass := .internet

def wireRequest {label : List UInt8 → Str} (query : Query (labelHickory label)) :
    Request (labelHickory label) where
  src := .v4 (.ofOctets 10 0 0 9)
  protocol := .udp
  metadata := (plainRequest none).metadata
  queries := [query]
  edns := none

/-- The name with the labels of an ASCII text. -/
def wireName (labels : List Str) (h : ∀ l ∈ labels.map Str.asBytes, l ≠ []) : WireName where
  labels := labels.map Str.asBytes
  nonempty := h

end RustyDns.L4.Names
