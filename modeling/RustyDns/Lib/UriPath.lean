import RustyDns.Lib.Written

/-!
# The normal form of a URI path

RFC 3986: two paths are equivalent if they are the same after decoding the percent escapes of
unreserved characters and removing dot segments. Other escapes stay, so a slash in a path is one of
its separators before and after.

Results:
* `decodeUnreserved_eq_iff_spells`: the paths that decode to a text without percent signs are those
  that write each character as itself or as an escape.
* `spells_iff_mem_writings`: these are finitely many texts.
* `removeDotSegments_eq_self`: a path without dot segments is left alone.
* `pathNormalForm_eq_iff`: so such a path is equivalent to a text if it spells it.
-/

namespace RustyDns.Lib.Uri

open RustyDns.Lib RustyDns.Lib.Labels

/-! ## Percent escapes -/

/-- `unreserved` of RFC 3986. -/
def isUnreserved (c : Char) : Bool := c.isAlphanum || c ∈ ['-', '.', '_', '~']

/-- The unreserved character that two hex digits stand for. -/
def unreservedEscape (h l : Char) : Option Char := do
  let hi ← Str.toDigit 16 h
  let lo ← Str.toDigit 16 l
  let c := Char.ofNat (hi * 16 + lo)
  if isUnreserved c then some c else none

/-- Escapes of unreserved characters decoded. -/
def decodeUnreserved : Str → Str
  | c :: h :: l :: rest =>
    match if c = '%' then unreservedEscape h l else none with
    | some d => d :: decodeUnreserved rest
    | none => c :: decodeUnreserved (h :: l :: rest)
  | c :: rest => c :: decodeUnreserved rest
  | [] => []

/-- `p` writes each character of a text as itself or as an escape. -/
inductive Spells : Str → Str → Prop where
  | nil : Spells [] []
  | literal {p t : Str} (c : Char) : Spells p t → Spells (c :: p) (c :: t)
  | escape {p t : Str} {h l c : Char} : unreservedEscape h l = some c → Spells p t →
      Spells ('%' :: h :: l :: p) (c :: t)

theorem unreservedEscape_spec {h l c : Char} (he : unreservedEscape h l = some c) :
    (∃ hi, Str.toDigit 16 h = some hi) ∧ (∃ lo, Str.toDigit 16 l = some lo) ∧
      isUnreserved c = true := by
  simp only [unreservedEscape, Option.bind_eq_bind, Option.bind_eq_some_iff,
    Option.ite_none_right_eq_some, Option.some.injEq] at he
  obtain ⟨hi, hhi, lo, hlo, hc, rfl⟩ := he
  exact ⟨⟨hi, hhi⟩, ⟨lo, hlo⟩, hc⟩

theorem decodeUnreserved_literal {c : Char} (hc : c ≠ '%') (rest : Str) :
    decodeUnreserved (c :: rest) = c :: decodeUnreserved rest := by
  match rest with
  | [] => rfl
  | [h] => rfl
  | h :: l :: rest =>
    rw [decodeUnreserved, if_neg hc]

theorem decodeUnreserved_escape {h l c : Char} (he : unreservedEscape h l = some c) (rest : Str) :
    decodeUnreserved ('%' :: h :: l :: rest) = c :: decodeUnreserved rest := by
  rw [decodeUnreserved, if_pos rfl, he]

/-- A percent sign that starts no such escape stays. -/
theorem decodeUnreserved_percent {rest : Str}
    (hnone : ∀ h l r, rest = h :: l :: r → unreservedEscape h l = none) :
    decodeUnreserved ('%' :: rest) = '%' :: decodeUnreserved rest := by
  match rest with
  | [] => rfl
  | [h] => rfl
  | h :: l :: rest =>
    rw [decodeUnreserved, if_pos rfl, hnone h l rest rfl]

/-- A path begins with a character that stays, or with an escape. -/
theorem decodeUnreserved_cons (c : Char) (rest : Str) :
    decodeUnreserved (c :: rest) = c :: decodeUnreserved rest ∨
      ∃ h l r d, c = '%' ∧ rest = h :: l :: r ∧ unreservedEscape h l = some d ∧
        decodeUnreserved (c :: rest) = d :: decodeUnreserved r := by
  by_cases hc : c = '%'
  · subst hc
    by_cases hsome : ∃ h l r d, rest = h :: l :: r ∧ unreservedEscape h l = some d
    · obtain ⟨h, l, r, d, rfl, he⟩ := hsome
      exact .inr ⟨h, l, r, d, rfl, rfl, he, decodeUnreserved_escape he r⟩
    · refine .inl (decodeUnreserved_percent fun h l r hrest => ?_)
      by_contra hne
      obtain ⟨d, hd⟩ := Option.ne_none_iff_exists'.1 hne
      exact hsome ⟨h, l, r, d, hrest, hd⟩
  · exact .inl (decodeUnreserved_literal hc rest)

/-- Induction along the decoding. -/
theorem decodeUnreserved_induction {P : Str → Prop} (nil : P [])
    (literal : ∀ c rest, decodeUnreserved (c :: rest) = c :: decodeUnreserved rest → P rest →
      P (c :: rest))
    (escape : ∀ h l d rest, unreservedEscape h l = some d → P rest → P ('%' :: h :: l :: rest))
    (p : Str) : P p := by
  induction hn : p.length using Nat.strong_induction_on generalizing p with
  | _ n ih =>
    cases p with
    | nil => exact nil
    | cons c rest =>
      simp only [List.length_cons] at hn
      rcases decodeUnreserved_cons c rest with hc | ⟨h, l, r, d, rfl, rfl, he, -⟩
      · exact literal c rest hc (ih rest.length (by omega) rest rfl)
      · simp only [List.length_cons] at hn
        exact escape h l d r he (ih r.length (by omega) r rfl)

theorem spells_decodeUnreserved (p : Str) : Spells p (decodeUnreserved p) := by
  induction p using decodeUnreserved_induction with
  | nil => exact .nil
  | literal c rest hc ih =>
    rw [hc]
    exact .literal c ih
  | escape h l d rest he ih =>
    rw [decodeUnreserved_escape he]
    exact .escape he ih

/-- A text without percent signs is spelled by the paths that decode to it. -/
theorem decodeUnreserved_eq_iff_spells {p t : Str} (ht : '%' ∉ t) :
    decodeUnreserved p = t ↔ Spells p t := by
  constructor
  · rintro rfl
    exact spells_decodeUnreserved p
  · intro h
    induction h with
    | nil => rfl
    | literal c h ih =>
      rw [List.mem_cons, not_or] at ht
      rw [decodeUnreserved_literal (Ne.symm ht.1), ih ht.2]
    | escape he h ih =>
      rw [List.mem_cons, not_or] at ht
      rw [decodeUnreserved_escape he, ih ht.2]

/-! ## Writings of a text -/

/-- The digits for a value below sixteen, in either case. -/
def hexDigits (v : Nat) : List Char :=
  if v < 10 then [Char.ofNat (48 + v)] else [Char.ofNat (87 + v), Char.ofNat (55 + v)]

/-- The escapes that stand for an unreserved character. -/
def escapes (c : Char) : List Str :=
  if isUnreserved c then
    (hexDigits (c.toNat / 16)).flatMap fun h => (hexDigits (c.toNat % 16)).map fun l => ['%', h, l]
  else []

/-- All ways to write a text, each character as itself or as an escape. -/
def writings : Str → List Str
  | [] => [[]]
  | c :: t => ([c] :: escapes c).flatMap fun w => (writings t).map (w ++ ·)

/-- The value of a hex digit by the range it is in. -/
theorem toDigit_sixteen_cases {c : Char} {v : Nat} (h : Str.toDigit 16 c = some v) :
    (48 ≤ c.toNat ∧ c.toNat ≤ 57 ∧ v = c.toNat - 48) ∨
    (97 ≤ c.toNat ∧ c.toNat ≤ 102 ∧ v = c.toNat - 97 + 10) ∨
    (65 ≤ c.toNat ∧ c.toNat ≤ 70 ∧ v = c.toNat - 65 + 10) := by
  simp only [Str.toDigit, Option.bind_eq_some_iff, Option.ite_none_right_eq_some,
    Option.some.injEq] at h
  obtain ⟨n, hn, -, rfl⟩ := h
  split at hn
  · rename_i hdigit
    simp only [Char.isDigit, Bool.and_eq_true, decide_eq_true_eq] at hdigit
    cases hn
    exact .inl ⟨UInt32.le_iff_toNat_le.1 hdigit.1, UInt32.le_iff_toNat_le.1 hdigit.2, rfl⟩
  · split at hn
    · rename_i hlower
      cases hn
      exact .inr (.inl ⟨UInt32.le_iff_toNat_le.1 hlower.1, UInt32.le_iff_toNat_le.1 hlower.2, rfl⟩)
    · split at hn
      · rename_i hupper
        cases hn
        exact .inr (.inr ⟨UInt32.le_iff_toNat_le.1 hupper.1, UInt32.le_iff_toNat_le.1 hupper.2, rfl⟩)
      · cases hn

theorem toDigit_sixteen_iff {c : Char} {v : Nat} :
    Str.toDigit 16 c = some v ↔ v < 16 ∧ c ∈ hexDigits v := by
  constructor
  · intro h
    have hc : ∀ n, c.toNat = n → c = Char.ofNat n := fun n hn => by rw [← hn, Char.ofNat_toNat]
    unfold hexDigits
    rcases toDigit_sixteen_cases h with ⟨hlo, hhi, rfl⟩ | ⟨hlo, hhi, rfl⟩ | ⟨hlo, hhi, rfl⟩
    · rw [if_pos (by omega)]
      exact ⟨by omega, List.mem_singleton.2 (hc _ (by omega))⟩
    · rw [if_neg (by omega)]
      exact ⟨by omega, List.mem_cons.2 (.inl (hc _ (by omega)))⟩
    · rw [if_neg (by omega)]
      exact ⟨by omega, List.mem_cons_of_mem _ (List.mem_singleton.2 (hc _ (by omega)))⟩
  · have hall : ∀ v < 16, ∀ c ∈ hexDigits v, Str.toDigit 16 c = some v := by decide
    exact fun h => hall v h.1 c h.2

theorem toNat_of_isUnreserved {c : Char} (h : isUnreserved c = true) : c.toNat < 128 := by
  simp only [isUnreserved, Bool.or_eq_true, Char.isAlphanum, Char.isAlpha, Char.isUpper,
    Char.isLower, Char.isDigit, Bool.and_eq_true, decide_eq_true_eq, List.mem_cons,
    List.not_mem_nil, or_false] at h
  rcases h with ((⟨-, h⟩ | ⟨-, h⟩) | ⟨-, h⟩) | rfl | rfl | rfl | rfl
  · exact Nat.lt_of_le_of_lt (UInt32.le_iff_toNat_le.1 h) (by decide)
  · exact Nat.lt_of_le_of_lt (UInt32.le_iff_toNat_le.1 h) (by decide)
  · exact Nat.lt_of_le_of_lt (UInt32.le_iff_toNat_le.1 h) (by decide)
  all_goals decide

theorem unreservedEscape_eq_some_iff {h l c : Char} :
    unreservedEscape h l = some c ↔ ['%', h, l] ∈ escapes c := by
  simp only [unreservedEscape, Option.bind_eq_bind, Option.bind_eq_some_iff,
    Option.ite_none_right_eq_some, Option.some.injEq, toDigit_sixteen_iff]
  constructor
  · rintro ⟨hi, ⟨hhi, hh⟩, lo, ⟨hlo, hl⟩, hc, rfl⟩
    have hnat : (Char.ofNat (hi * 16 + lo)).toNat = hi * 16 + lo := by
      rw [Char.toNat_ofNat, if_pos (.inl (by omega))]
    have hdiv : (hi * 16 + lo) / 16 = hi := by omega
    have hmod : (hi * 16 + lo) % 16 = lo := by omega
    rw [escapes, if_pos hc, hnat, hdiv, hmod]
    exact List.mem_flatMap.2 ⟨h, hh, List.mem_map_of_mem hl⟩
  · intro hmem
    unfold escapes at hmem
    split at hmem
    · rename_i hc
      obtain ⟨h', hh, hmem⟩ := List.mem_flatMap.1 hmem
      obtain ⟨l', hl, heq⟩ := List.mem_map.1 hmem
      cases heq
      have hlt := toNat_of_isUnreserved hc
      have hsum : c.toNat / 16 * 16 + c.toNat % 16 = c.toNat := by omega
      refine ⟨c.toNat / 16, ⟨by omega, hh⟩, c.toNat % 16, ⟨by omega, hl⟩, ?_⟩
      rw [hsum, Char.ofNat_toNat]
      exact ⟨hc, rfl⟩
    · cases hmem

theorem eq_escape_of_mem_escapes {c : Char} {w : Str} (h : w ∈ escapes c) :
    ∃ hi lo, w = ['%', hi, lo] := by
  unfold escapes at h
  split at h
  · obtain ⟨hi, -, h⟩ := List.mem_flatMap.1 h
    obtain ⟨lo, -, rfl⟩ := List.mem_map.1 h
    exact ⟨hi, lo, rfl⟩
  · cases h

theorem spells_cons_iff {p t : Str} {c : Char} :
    Spells p (c :: t) ↔ ∃ w ∈ [c] :: escapes c, ∃ p', p = w ++ p' ∧ Spells p' t := by
  constructor
  · intro h
    cases h with
    | literal _ h => exact ⟨[c], List.mem_cons_self, _, rfl, h⟩
    | escape he h =>
      exact ⟨_, List.mem_cons_of_mem _ (unreservedEscape_eq_some_iff.1 he), _, rfl, h⟩
  · rintro ⟨w, hw, p', rfl, h⟩
    rcases List.mem_cons.1 hw with rfl | hw
    · exact .literal c h
    · obtain ⟨hi, lo, rfl⟩ := eq_escape_of_mem_escapes hw
      exact .escape (unreservedEscape_eq_some_iff.2 hw) h

theorem spells_iff_mem_writings {p t : Str} : Spells p t ↔ p ∈ writings t := by
  induction t generalizing p with
  | nil =>
    rw [writings, List.mem_singleton]
    constructor
    · intro h
      cases h
      rfl
    · rintro rfl
      exact .nil
  | cons c t ih =>
    simp only [spells_cons_iff, writings, List.mem_flatMap, List.mem_map, ih]
    constructor
    · rintro ⟨w, hw, p', rfl, h⟩
      exact ⟨w, hw, p', h, rfl⟩
    · rintro ⟨w, hw, p', h, rfl⟩
      exact ⟨w, hw, p', rfl, h⟩

/-- A text without percent signs spells itself only. -/
theorem spells_iff_of_literal {p t : Str} (hp : '%' ∉ p) : Spells p t ↔ p = t := by
  constructor
  · intro h
    induction h with
    | nil => rfl
    | literal c h ih => rw [ih fun hmem => hp (List.mem_cons_of_mem _ hmem)]
    | escape he h ih => exact absurd List.mem_cons_self hp
  · rintro rfl
    induction p with
    | nil => exact .nil
    | cons c p ih => exact .literal c (ih fun hmem => hp (List.mem_cons_of_mem _ hmem))

/-- A slash is written as a slash. -/
theorem spells_slash_iff {p t : Str} :
    Spells p ('/' :: t) ↔ ∃ p', p = '/' :: p' ∧ Spells p' t := by
  have hnone : escapes '/' = [] := by decide
  rw [spells_cons_iff, hnone]
  simp

theorem spells_slash_cons_iff {p t : Str} : Spells ('/' :: p) ('/' :: t) ↔ Spells p t := by
  rw [spells_slash_iff]
  simp

/-! ## Segments -/

theorem slash_not_hex : Str.toDigit 16 '/' = none := by decide

/-- No slash is part of an escape, so what stays in front of one stays. -/
theorem decodeUnreserved_cons_append_slash {c : Char} {rest : Str}
    (hc : decodeUnreserved (c :: rest) = c :: decodeUnreserved rest) (y : Str) :
    decodeUnreserved (c :: (rest ++ '/' :: y)) = c :: decodeUnreserved (rest ++ '/' :: y) := by
  rcases decodeUnreserved_cons c (rest ++ '/' :: y) with hstays | ⟨h, l, r, d, rfl, hr, he, -⟩
  · exact hstays
  · exfalso
    obtain ⟨⟨hi, hhi⟩, ⟨lo, hlo⟩, -⟩ := unreservedEscape_spec he
    match rest with
    | [] =>
      cases hr
      rw [slash_not_hex] at hhi
      cases hhi
    | [h'] =>
      cases hr
      rw [slash_not_hex] at hlo
      cases hlo
    | h' :: l' :: rest =>
      -- an escape in front of the slash, which would not stay
      cases hr
      rw [decodeUnreserved_escape he] at hc
      obtain ⟨rfl, -⟩ := List.cons.inj hc
      exact absurd (unreservedEscape_spec he).2.2 (by decide)

theorem decodeUnreserved_append_slash (x y : Str) :
    decodeUnreserved (x ++ '/' :: y) = decodeUnreserved x ++ '/' :: decodeUnreserved y := by
  induction x using decodeUnreserved_induction with
  | nil => exact decodeUnreserved_literal (by decide) y
  | literal c rest hc ih =>
    rw [hc, List.cons_append, decodeUnreserved_cons_append_slash hc, ih, List.cons_append]
  | escape h l d rest he ih =>
    rw [List.cons_append, List.cons_append, List.cons_append, decodeUnreserved_escape he,
      decodeUnreserved_escape he, ih, List.cons_append]

theorem slash_mem_of_mem_decodeUnreserved {p : Str} (h : '/' ∈ decodeUnreserved p) : '/' ∈ p := by
  have hspells := spells_decodeUnreserved p
  generalize decodeUnreserved p = t at h hspells
  induction hspells with
  | nil => cases h
  | literal c _ ih =>
    rcases List.mem_cons.1 h with rfl | h
    · exact List.mem_cons_self
    · exact List.mem_cons_of_mem _ (ih h)
  | escape he _ ih =>
    rcases List.mem_cons.1 h with rfl | h
    · exact absurd (unreservedEscape_spec he).2.2 (by decide)
    · simp only [List.mem_cons]
      exact .inr (.inr (.inr (ih h)))

/-- Segments decode one by one. -/
theorem pieces_decodeUnreserved (p : Str) :
    pieces '/' (decodeUnreserved p) = (pieces '/' p).map decodeUnreserved := by
  induction hn : p.length using Nat.strong_induction_on generalizing p with
  | _ n ih =>
    by_cases hslash : '/' ∈ p
    · obtain ⟨x, y, rfl, hx⟩ := List.eq_append_cons_of_mem hslash
      have hx' : '/' ∉ decodeUnreserved x := fun h => hx (slash_mem_of_mem_decodeUnreserved h)
      simp only [List.length_append, List.length_cons] at hn
      rw [decodeUnreserved_append_slash, pieces_append_sep, pieces_append_sep, pieces_of_notMem hx,
        pieces_of_notMem hx', ih y.length (by omega) y rfl]
      rfl
    · rw [pieces_of_notMem hslash,
        pieces_of_notMem fun h => hslash (slash_mem_of_mem_decodeUnreserved h)]
      rfl

/-! ## Dot segments -/

/-- The output without its last segment and the slash before it. -/
def dropLastSegment (out : Str) : Str := (out.rdropWhile (· != '/')).dropLast

/-- The loop of RFC 3986, section 5.2.4: what is left of the input, and the output so far. -/
def removeDotsFrom : (input out : Str) → Str
  | '.' :: '.' :: '/' :: rest, out => removeDotsFrom rest out
  | '.' :: '/' :: rest, out => removeDotsFrom rest out
  | '/' :: '.' :: '/' :: rest, out => removeDotsFrom ('/' :: rest) out
  | ['/', '.'], out => removeDotsFrom ['/'] out
  | '/' :: '.' :: '.' :: '/' :: rest, out => removeDotsFrom ('/' :: rest) (dropLastSegment out)
  | ['/', '.', '.'], out => removeDotsFrom ['/'] (dropLastSegment out)
  | ['.'], out => out
  | ['.', '.'], out => out
  | [], out => out
  | c :: rest, out =>
    removeDotsFrom (rest.dropWhile (· != '/')) (out ++ c :: rest.takeWhile (· != '/'))
termination_by input => input.length
decreasing_by
  all_goals simp only [List.length_cons, List.length_nil]
  all_goals try omega
  have hle := (List.dropWhile_suffix (l := rest) (· != '/')).length_le
  omega

def removeDotSegments (path : Str) : Str := removeDotsFrom path []

/-- No segment is one dot or two. -/
def NoDotSegments (path : Str) : Prop := ∀ seg ∈ pieces '/' path, seg ≠ ['.'] ∧ seg ≠ ['.', '.']

theorem NoDotSegments.append_slash {x y : Str} :
    NoDotSegments (x ++ '/' :: y) ↔ NoDotSegments x ∧ NoDotSegments y := by
  simp only [NoDotSegments, pieces_append_sep, List.forall_mem_append]

theorem noDotSegments_nil : NoDotSegments [] := by
  simp [NoDotSegments, pieces]

/-- The rest of a path from its next slash on. -/
theorem NoDotSegments.dropWhile {c : Char} {rest : Str} (h : NoDotSegments (c :: rest)) :
    NoDotSegments (rest.dropWhile (· != '/')) := by
  have hrest := List.takeWhile_append_dropWhile (p := (· != '/')) (l := rest)
  cases hd : rest.dropWhile (· != '/') with
  | nil => exact noDotSegments_nil
  | cons x y =>
    have hx : x = '/' := by
      have hhead := List.head?_dropWhile_not (· != '/') rest
      rw [hd] at hhead
      simpa using hhead
    subst hx
    rw [hd] at hrest
    rw [← hrest, ← List.cons_append, NoDotSegments.append_slash] at h
    exact NoDotSegments.append_slash.2 ⟨noDotSegments_nil, h.2⟩

/-- The loop takes a path apart at its slashes and puts it together again. -/
theorem removeDotsFrom_eq_append (input out : Str) (h : NoDotSegments input) :
    removeDotsFrom input out = out ++ input := by
  fun_induction removeDotsFrom input out with
  -- the rules for dot segments do not apply
  | case1 => exact absurd rfl (h ['.', '.'] (by simp [pieces])).2
  | case2 => exact absurd rfl (h ['.'] (by simp [pieces])).1
  | case3 => exact absurd rfl (h ['.'] (by simp [pieces])).1
  | case4 => exact absurd rfl (h ['.'] (by simp [pieces])).1
  | case5 => exact absurd rfl (h ['.', '.'] (by simp [pieces])).2
  | case6 => exact absurd rfl (h ['.', '.'] (by simp [pieces])).2
  | case7 => exact absurd rfl (h ['.'] (by simp [pieces])).1
  | case8 => exact absurd rfl (h ['.', '.'] (by simp [pieces])).2
  | case9 => rw [List.append_nil]
  | case10 out c rest _ _ _ _ _ _ _ _ ih =>
    rw [ih h.dropWhile, List.append_assoc, List.cons_append, List.takeWhile_append_dropWhile]

theorem removeDotSegments_eq_self {path : Str} (h : NoDotSegments path) :
    removeDotSegments path = path :=
  removeDotsFrom_eq_append path [] h

/-! ## The normal form -/

def pathNormalForm (path : Str) : Str := removeDotSegments (decodeUnreserved path)

/-- A path none of whose segments spells a dot segment is equivalent to a text if it spells it. -/
theorem pathNormalForm_eq_iff {path t : Str} (ht : '%' ∉ t)
    (h : ∀ seg ∈ pieces '/' path, ¬ Spells seg ['.'] ∧ ¬ Spells seg ['.', '.']) :
    pathNormalForm path = t ↔ Spells path t := by
  have hdots : NoDotSegments (decodeUnreserved path) := by
    intro seg hseg
    rw [pieces_decodeUnreserved] at hseg
    obtain ⟨seg, hmem, rfl⟩ := List.mem_map.1 hseg
    rw [Ne, Ne, decodeUnreserved_eq_iff_spells (by decide),
      decodeUnreserved_eq_iff_spells (by decide)]
    exact h seg hmem
  rw [pathNormalForm, removeDotSegments_eq_self hdots, decodeUnreserved_eq_iff_spells ht]

end RustyDns.Lib.Uri
