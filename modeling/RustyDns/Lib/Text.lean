import Mathlib

/-!
# Text as lists of characters

The Rust `str` operations that a text-handling program rests on, over `List Char`: trimming,
stripping, splitting, lines, ASCII case and unsigned decimal parsing. Each definition follows the
standard library's documented behaviour and is structurally recursive, so it computes.

`Str` has no byte offsets. Byte lengths go through `byteLen`, and an index into a string is always
the index of a delimiter, so a slice is a `takeWhile`/`dropWhile` pair here.

Results:
* `trimEndMatches_toAsciiLowercase`: trailing dots and ASCII case can be removed in either order.
* `isAscii_trimEndMatches_dot`, `isAscii_toAsciiLowercase`: neither changes whether a text is ASCII.
* `splitOnce_eq_some_iff`, `rsplitOnce_eq_some_iff`: the first and the last occurrence.
* `containsStr_iff`: a string pattern is contained when the text has it as an infix.
* `trim_append`: a start that is not blank stays in place.
* `asBytes_inj`: a text is determined by its bytes.
* `stripEnd_eq_some_iff`, `eq_of_infix_of_byteLen`: the end of a text, and parts that are the whole.
-/

namespace RustyDns.Lib

/-- A test on the elements of a list looks at these only, also where the type is finite. -/
instance (priority := high) decidableForallMem {α : Type*} (p : α → Prop) [DecidablePred p]
    (l : List α) : Decidable (∀ x ∈ l, p x) := List.decidableBAll p l

instance (priority := high) decidableExistsMem {α : Type*} (p : α → Prop) [DecidablePred p]
    (l : List α) : Decidable (∃ x ∈ l, p x) := List.decidableBEx p l

/-- A Rust string as its characters. -/
abbrev Str := List Char

-- Named, so that every definition that looks for a text in a list decides it by the same term.
instance Str.lawfulBEq : LawfulBEq Str := inferInstance

namespace Str

/-! ## Characters -/

/-- `char::is_whitespace`: the Unicode `White_Space` property. -/
def isWhitespace (c : Char) : Bool :=
  let n := c.toNat
  (9 ≤ n && n ≤ 13) || n == 32 || n == 0x85 || n == 0xA0 || n == 0x1680 ||
    (0x2000 ≤ n && n ≤ 0x200A) || n == 0x2028 || n == 0x2029 || n == 0x202F || n == 0x205F ||
    n == 0x3000

/-- `char::is_ascii`. -/
def isAsciiChar (c : Char) : Bool := c.toNat < 128

/-- `u8::is_ascii_control` / `char::is_control` on ASCII. -/
def isAsciiControl (c : Char) : Bool := c.toNat < 32 || c.toNat == 127

/-- `str::is_ascii`. -/
def isAscii (s : Str) : Bool := s.all isAsciiChar

/-- `str::len`: the number of UTF-8 bytes. -/
def byteLen (s : Str) : Nat := (s.map Char.utf8Size).sum

/-- `str::as_bytes`. -/
def asBytes (s : Str) : List UInt8 := s.flatMap String.utf8EncodeChar

/-- `std::str::from_utf8`, with the shortcut for ASCII. -/
def fromUtf8 (b : List UInt8) : Option Str :=
  if b.all (· < 128) then some (b.map fun x => Char.ofNat x.toNat)
  else b.toByteArray.utf8Decode?.map Array.toList

/-! ## Trimming and stripping -/

/-- `str::trim`. -/
def trim (s : Str) : Str := (s.dropWhile isWhitespace).rdropWhile isWhitespace

/-- `str::trim_end_matches(c)` for a character pattern. -/
def trimEndMatches (c : Char) (s : Str) : Str := s.rdropWhile (· == c)

/-- `str::trim_start_matches(c)` for a character pattern. -/
def trimStartMatches (c : Char) (s : Str) : Str := s.dropWhile (· == c)

/-- What is left of `s` after the characters of `p`. -/
def dropStart : (p s : Str) → Option Str
  | [], s => some s
  | _ :: _, [] => none
  | p :: ps, c :: cs => if p = c then dropStart ps cs else none

/-- `s.strip_prefix(p)`. -/
def stripStart (s p : Str) : Option Str := dropStart p s

/-- `s.strip_suffix(p)`. -/
def stripEnd (s p : Str) : Option Str := (dropStart p.reverse s.reverse).map List.reverse

/-- `s.starts_with(p)`. -/
def startsWith (s p : Str) : Bool := (s.stripStart p).isSome

/-- `s.ends_with(p)`. -/
def endsWith (s p : Str) : Bool := (s.stripEnd p).isSome

/-- The loop of `trim_start_matches` for a string pattern, at most `fuel` times. -/
def trimStartFrom (p : Str) : Nat → Str → Str
  | 0, s => s
  | fuel + 1, s =>
    match s.stripStart p with
    | some rest => trimStartFrom p fuel rest
    | none => s

/-- `s.trim_start_matches(p)` for a string pattern. -/
def trimStartStr (s p : Str) : Str := trimStartFrom p s.length s

/-! ## Splitting -/

/-- `str::split_once(c)` for a character pattern: around the first occurrence. -/
def splitOnce (c : Char) : Str → Option (Str × Str)
  | [] => none
  | x :: xs => if x = c then some ([], xs) else (splitOnce c xs).map fun (a, b) => (x :: a, b)

/-- `s.split_once(p)` for a string pattern: around the first occurrence. -/
def splitOnceStr : (s p : Str) → Option (Str × Str)
  | [], p => if p = [] then some ([], []) else none
  | c :: cs, p =>
    match dropStart p (c :: cs) with
    | some rest => some ([], rest)
    | none => (splitOnceStr cs p).map fun (a, b) => (c :: a, b)

/-- `s.contains(p)` for a string pattern. -/
def containsStr (s p : Str) : Bool := (s.splitOnceStr p).isSome

/-- `str::rsplit_once(c)` for a character pattern: around the last occurrence. -/
def rsplitOnce (c : Char) (s : Str) : Option (Str × Str) :=
  (splitOnce c s.reverse).map fun (a, b) => (b.reverse, a.reverse)

/-- `str::split(p)`: the maximal pieces between separator characters, empty pieces included. -/
def splitBy (p : Char → Bool) : Str → List Str
  | [] => [[]]
  | x :: xs =>
    if p x then [] :: splitBy p xs
    else match splitBy p xs with
      | [] => [[x]]
      | l :: ls => (x :: l) :: ls

/-- `str::split_whitespace`. -/
def splitWhitespace (s : Str) : List Str := (splitBy isWhitespace s).filter (· ≠ [])

/-- `str::split_inclusive(c)`: each piece keeps its separator, no empty last piece. -/
def splitInclusive (c : Char) : Str → List Str
  | [] => []
  | x :: xs =>
    if x = c then [x] :: splitInclusive c xs
    else match splitInclusive c xs with
      | [] => [[x]]
      | l :: ls => (x :: l) :: ls

/-- One line without its terminator: `\n`, or `\r\n`. -/
def stripLineEnd (l : Str) : Str :=
  match l.stripEnd ['\n'] with
  | none => l
  | some l' => (l'.stripEnd ['\r']).getD l'

/-- `str::lines`. -/
def lines (s : Str) : List Str := (splitInclusive '\n' s).map stripLineEnd

/-! ## ASCII case -/

/-- `str::to_ascii_lowercase`. -/
def toAsciiLowercase (s : Str) : Str := s.map Char.toLower

/-- `str::to_ascii_uppercase`. -/
def toAsciiUppercase (s : Str) : Str := s.map Char.toUpper

/-! ## Numbers -/

/-- The value of a digit in a radix up to 16, as `char::to_digit`. -/
def toDigit (radix : Nat) (c : Char) : Option Nat :=
  let d :=
    if c.isDigit then some (c.toNat - '0'.toNat)
    else if 'a' ≤ c ∧ c ≤ 'f' then some (c.toNat - 'a'.toNat + 10)
    else if 'A' ≤ c ∧ c ≤ 'F' then some (c.toNat - 'A'.toNat + 10)
    else none
  d.bind fun n => if n < radix then some n else none

/-- The digits of `s` folded onto `acc`; `none` at the first character that is no digit. -/
def digitsFrom (acc : Nat) : Str → Option Nat
  | [] => some acc
  | c :: cs => (toDigit 10 c).bind fun d => digitsFrom (acc * 10 + d) cs

/-- `str::parse::<uN>()` with `bound = 2^N`: an optional `+`, at least one digit, in range. -/
def parseUnsigned (bound : Nat) (s : Str) : Option Nat :=
  let digits := match s with
    | '+' :: rest => rest
    | _ => s
  if digits = [] then none
  else (digitsFrom 0 digits).bind fun n => if n < bound then some n else none

/-! ## ASCII case and trailing dots -/

/-- What `to_ascii_lowercase` does to a character. -/
theorem toLower_cases (c : Char) :
    (c.isUpper = false ∧ c.toLower = c) ∨
    (c.isUpper = true ∧ 65 ≤ c.toNat ∧ c.toNat ≤ 90 ∧ c.toLower.toNat = c.toNat + 32) := by
  unfold Char.toLower Char.isUpper
  by_cases h : c.val ≥ 'A'.val ∧ c.val ≤ 'Z'.val
  · have hlow : 65 ≤ c.toNat := UInt32.le_iff_toNat_le.1 h.1
    have hhigh : c.toNat ≤ 90 := UInt32.le_iff_toNat_le.1 h.2
    refine .inr ⟨decide_eq_true h, hlow, hhigh, ?_⟩
    rw [dif_pos h]
    change (c.val + 32).toNat = c.val.toNat + 32
    rw [UInt32.toNat_add]
    have : c.val.toNat ≤ 90 := hhigh
    simp
    omega
  · exact .inl ⟨decide_eq_false h, dif_neg h⟩

theorem isAsciiChar_toLower (c : Char) : isAsciiChar c.toLower = isAsciiChar c := by
  rcases toLower_cases c with ⟨-, h⟩ | ⟨-, hlow, hhigh, h⟩
  · rw [h]
  · simp only [isAsciiChar, h, decide_eq_decide]
    omega

theorem toLower_eq_dot_iff {c : Char} : c.toLower = '.' ↔ c = '.' := by
  rcases toLower_cases c with ⟨-, h⟩ | ⟨-, hlow, hhigh, h⟩
  · rw [h]
  · constructor
    · intro hdot
      rw [hdot] at h
      have : '.'.toNat = 46 := rfl
      omega
    · rintro rfl
      exact absurd hlow (by decide)

@[simp] theorem dot_mem_toAsciiLowercase {s : Str} : '.' ∈ s.toAsciiLowercase ↔ '.' ∈ s := by
  simp only [toAsciiLowercase, List.mem_map, toLower_eq_dot_iff, exists_eq_right]

@[simp] theorem toAsciiLowercase_eq_nil_iff {s : Str} : s.toAsciiLowercase = [] ↔ s = [] :=
  List.map_eq_nil_iff

theorem no_upper_toAsciiLowercase (s : Str) :
    s.toAsciiLowercase.any Char.isUpper = false := by
  rw [List.any_eq_false]
  intro c hc hup
  obtain ⟨c', -, rfl⟩ := List.mem_map.1 hc
  rcases toLower_cases c' with ⟨h, heq⟩ | ⟨-, hlow, -, hcode⟩
  · rw [heq, h] at hup
    cases hup
  · rcases toLower_cases c'.toLower with ⟨h, -⟩ | ⟨-, -, hhigh, -⟩
    · rw [h] at hup
      cases hup
    · omega

theorem toAsciiLowercase_of_not_upper {s : Str} (h : s.any Char.isUpper = false) :
    s.toAsciiLowercase = s := by
  refine (List.map_congr_left fun c hc => ?_).trans (List.map_id s)
  rcases toLower_cases c with ⟨-, heq⟩ | ⟨hup, -⟩
  · exact heq
  · exact absurd hup (by simp [List.any_eq_false.1 h c hc])

@[simp] theorem toAsciiLowercase_idem (s : Str) :
    s.toAsciiLowercase.toAsciiLowercase = s.toAsciiLowercase := by
  simp [toAsciiLowercase]

@[simp] theorem isAscii_toAsciiLowercase (s : Str) : isAscii s.toAsciiLowercase = isAscii s := by
  simp [isAscii, toAsciiLowercase, Function.comp_def, isAsciiChar_toLower]

theorem trimEndMatches_toAsciiLowercase (s : Str) :
    s.toAsciiLowercase.trimEndMatches '.' = (s.trimEndMatches '.').toAsciiLowercase := by
  unfold trimEndMatches toAsciiLowercase List.rdropWhile
  rw [← List.map_reverse, List.dropWhile_map, List.map_reverse]
  have hdot : ((· == '.') ∘ Char.toLower) = (· == '.') := by
    funext c
    refine Bool.eq_iff_iff.2 ?_
    simp only [Function.comp_apply, beq_iff_eq, toLower_eq_dot_iff]
  rw [hdot]

theorem isWhitespace_toLower (c : Char) : isWhitespace c.toLower = isWhitespace c := by
  rcases toLower_cases c with ⟨-, h⟩ | ⟨-, hlow, hhigh, h⟩
  · rw [h]
  · simp only [isWhitespace, h]
    rw [Bool.eq_iff_iff]
    simp only [Bool.or_eq_true, Bool.and_eq_true, decide_eq_true_eq, beq_iff_eq]
    omega

theorem trim_toAsciiLowercase (s : Str) : s.toAsciiLowercase.trim = s.trim.toAsciiLowercase := by
  have hblank : isWhitespace ∘ Char.toLower = isWhitespace := funext isWhitespace_toLower
  unfold trim toAsciiLowercase List.rdropWhile
  rw [List.dropWhile_map, ← List.map_reverse, List.dropWhile_map, ← List.map_reverse, hblank]

@[simp] theorem trimEndMatches_concat (c : Char) (s : Str) :
    trimEndMatches c (s ++ [c]) = trimEndMatches c s :=
  List.rdropWhile_concat_pos _ _ _ (by simp)

/-- Trailing dots are ASCII, so they do not matter to whether a text is. -/
@[simp] theorem isAscii_trimEndMatches_dot (s : Str) :
    isAscii (s.trimEndMatches '.') = isAscii s := by
  induction s using List.reverseRecOn with
  | nil => rfl
  | append_singleton s c ih =>
    by_cases hc : c = '.'
    · subst hc
      have hdot : isAsciiChar '.' = true := by decide
      rw [trimEndMatches_concat, ih]
      simp [isAscii, hdot]
    · unfold trimEndMatches
      rw [List.rdropWhile_concat_neg _ _ _ (by simpa using hc)]

/-! ## Where a pattern stands -/

theorem dropStart_eq_some_iff {p s rest : Str} : dropStart p s = some rest ↔ s = p ++ rest := by
  induction p generalizing s with
  | nil => simp [dropStart, eq_comm]
  | cons c p ih =>
    cases s with
    | nil => simp [dropStart]
    | cons d s =>
      simp only [dropStart]
      split
      · simp_all
      · simp_all [eq_comm]

theorem stripStart_eq_some_iff {p s rest : Str} : s.stripStart p = some rest ↔ s = p ++ rest :=
  dropStart_eq_some_iff

theorem startsWith_iff {p s : Str} : s.startsWith p = true ↔ ∃ rest, s = p ++ rest := by
  simp only [startsWith, Option.isSome_iff_exists, stripStart_eq_some_iff]

theorem stripEnd_eq_some_iff {p s front : Str} : s.stripEnd p = some front ↔ s = front ++ p := by
  simp only [stripEnd, Option.map_eq_some_iff, dropStart_eq_some_iff]
  constructor
  · rintro ⟨r, hr, rfl⟩
    rw [← List.reverse_inj, List.reverse_append, List.reverse_reverse]
    exact hr
  · rintro rfl
    exact ⟨front.reverse, List.reverse_append, List.reverse_reverse _⟩

theorem endsWith_iff {p s : Str} : s.endsWith p = true ↔ ∃ front, s = front ++ p := by
  simp [endsWith, Option.isSome_iff_exists, stripEnd_eq_some_iff]

/-- A walk that tests what stands after each `c` finds exactly the texts after a `c`. -/
theorem walk_iff {c : Char} {walk test : Str → Bool} (hnil : walk [] = false)
    (hcons : ∀ x rest, walk (x :: rest) = (x == c && test rest || walk rest)) :
    ∀ {s : Str}, walk s = true ↔ ∃ front rest, test rest = true ∧ s = front ++ c :: rest
  | [] => by simp [hnil]
  | x :: s => by
    rw [hcons, Bool.or_eq_true, Bool.and_eq_true, beq_iff_eq, walk_iff hnil hcons]
    constructor
    · rintro (⟨rfl, htest⟩ | ⟨front, rest, htest, rfl⟩)
      · exact ⟨[], s, htest, rfl⟩
      · exact ⟨x :: front, rest, htest, rfl⟩
    · rintro ⟨front, rest, htest, heq⟩
      cases front with
      | nil =>
        obtain ⟨rfl, rfl⟩ := List.cons.inj heq
        exact .inl ⟨rfl, htest⟩
      | cons y front => exact .inr ⟨front, rest, htest, (List.cons.inj heq).2⟩

theorem splitOnce_eq_none_iff {c : Char} {s : Str} : s.splitOnce c = none ↔ c ∉ s := by
  induction s with
  | nil => simp [splitOnce]
  | cons x xs ih =>
    simp only [splitOnce]
    split
    · simp_all
    · rename_i hx
      rw [Option.map_eq_none_iff, ih, List.mem_cons, not_or]
      exact ⟨fun h => ⟨fun heq => hx heq.symm, h⟩, And.right⟩

theorem splitOnce_eq_some_iff {c : Char} {s a b : Str} :
    s.splitOnce c = some (a, b) ↔ s = a ++ c :: b ∧ c ∉ a := by
  induction s generalizing a with
  | nil => simp [splitOnce]
  | cons x xs ih =>
    simp only [splitOnce]
    split
    · rename_i hx
      cases a with
      | nil => simp [hx]
      | cons y ys => simp_all
    · rename_i hx
      cases a with
      | nil => simp [hx]
      | cons y ys =>
        rw [Option.map_eq_some_iff, List.cons_append, List.cons.injEq, List.mem_cons, not_or]
        constructor
        · intro hsplit
          obtain ⟨⟨a', b'⟩, hrec, heq⟩ := hsplit
          cases heq
          obtain ⟨hxs, hc⟩ := ih.1 hrec
          exact ⟨⟨rfl, hxs⟩, fun h => hx h.symm, hc⟩
        · intro hparts
          obtain ⟨⟨hy, hxs⟩, hcy, hc⟩ := hparts
          exact ⟨(ys, b), ih.2 ⟨hxs, hc⟩, by rw [hy]⟩

theorem rsplitOnce_eq_none_iff {c : Char} {s : Str} : s.rsplitOnce c = none ↔ c ∉ s := by
  rw [rsplitOnce, Option.map_eq_none_iff, splitOnce_eq_none_iff, List.mem_reverse]

theorem rsplitOnce_eq_some_iff {c : Char} {s a b : Str} :
    s.rsplitOnce c = some (a, b) ↔ s = a ++ c :: b ∧ c ∉ b := by
  simp only [rsplitOnce, Option.map_eq_some_iff, Prod.exists, Prod.mk.injEq, splitOnce_eq_some_iff]
  constructor
  · intro h
    obtain ⟨b', a', ⟨hs, hc⟩, ha, hb⟩ := h
    subst ha hb
    refine ⟨?_, by simpa using hc⟩
    rw [← List.reverse_reverse s, hs]
    simp
  · intro h
    obtain ⟨hs, hc⟩ := h
    refine ⟨b.reverse, a.reverse, ⟨?_, by simpa using hc⟩, by simp, by simp⟩
    rw [hs]
    simp

theorem splitOnceStr_eq_some {s p a b : Str} (h : s.splitOnceStr p = some (a, b)) :
    s = a ++ p ++ b := by
  induction s generalizing a with
  | nil =>
    unfold splitOnceStr at h
    split at h
    · cases h
      simp_all
    · cases h
  | cons c cs ih =>
    unfold splitOnceStr at h
    split at h
    · rename_i rest hrest
      cases h
      exact dropStart_eq_some_iff.1 hrest
    · obtain ⟨⟨a', b'⟩, hrec, heq⟩ := Option.map_eq_some_iff.1 h
      cases heq
      rw [List.cons_append, List.cons_append, ← ih hrec]

theorem containsStr_iff {s p : Str} : s.containsStr p = true ↔ p <:+: s := by
  unfold containsStr
  constructor
  · intro h
    obtain ⟨⟨a, b⟩, hab⟩ := Option.isSome_iff_exists.1 h
    exact ⟨a, b, (splitOnceStr_eq_some hab).symm⟩
  · intro h
    induction s with
    | nil => simp [splitOnceStr, List.infix_nil.1 h]
    | cons c cs ih =>
      unfold splitOnceStr
      cases hd : dropStart p (c :: cs) with
      | some rest => rfl
      | none =>
        rcases List.infix_cons_iff.1 h with hpre | hin
        · obtain ⟨rest, hrest⟩ := hpre
          rw [dropStart_eq_some_iff.2 hrest.symm] at hd
          cases hd
        · simpa using ih hin

theorem head_splitBy (p : Char → Bool) (s : Str) :
    ((s.splitBy p).head?).getD [] = s.takeWhile fun c => !p c := by
  induction s with
  | nil => rfl
  | cons c cs ih =>
    unfold splitBy
    by_cases hc : p c = true
    · simp [hc]
    · simp only [hc, List.takeWhile_cons]
      cases h : splitBy p cs with
      | nil => simp_all
      | cons l ls => simp_all

theorem eq_false_of_mem_splitBy {p : Char → Bool} {s l : Str} (hl : l ∈ s.splitBy p) :
    ∀ c ∈ l, p c = false := by
  induction s generalizing l with
  | nil =>
    rw [splitBy, List.mem_singleton] at hl
    simp [hl]
  | cons x xs ih =>
    unfold splitBy at hl
    split at hl
    · rcases List.mem_cons.1 hl with rfl | hl
      · simp
      · exact ih hl
    · rename_i hx
      rw [Bool.not_eq_true] at hx
      split at hl
      · rw [List.mem_singleton.1 hl]
        simpa using hx
      · rename_i l' ls hsplit
        rcases List.mem_cons.1 hl with rfl | hl
        · intro c hc
          rcases List.mem_cons.1 hc with rfl | hc
          · exact hx
          · exact ih (hsplit ▸ List.mem_cons_self) c hc
        · exact ih (hsplit ▸ List.mem_cons_of_mem _ hl)

/-- A word has no blanks. -/
theorem no_blank_of_mem_splitWhitespace {s w : Str} (h : w ∈ s.splitWhitespace) :
    ∀ c ∈ w, isWhitespace c = false :=
  eq_false_of_mem_splitBy (List.mem_of_mem_filter h)

/-! ## Blanks at the ends -/

theorem trim_infix (s : Str) : s.trim <:+: s := by
  unfold trim
  exact (List.rdropWhile_prefix _ _).isInfix.trans (List.dropWhile_suffix _).isInfix

/-- Only blanks are lost. -/
theorem mem_trim {s : Str} {c : Char} (h : c ∈ s) (hc : isWhitespace c = false) : c ∈ s.trim := by
  have hstart : c ∈ s.dropWhile isWhitespace := by
    rw [← List.takeWhile_append_dropWhile (p := isWhitespace) (l := s), List.mem_append] at h
    refine h.resolve_left fun hblank => ?_
    rw [List.mem_takeWhile_imp hblank] at hc
    cases hc
  rw [← List.rdropWhile_append_rtakeWhile (p := isWhitespace) (l := s.dropWhile isWhitespace),
    List.mem_append] at hstart
  refine hstart.resolve_right fun hblank => ?_
  rw [List.mem_rtakeWhile_imp hblank] at hc
  cases hc

/-- A start that neither begins nor ends with a blank stays in place. -/
theorem trim_append {p : Str} {c d : Char} (hc : isWhitespace c = false)
    (hd : isWhitespace d = false) (rest : Str) :
    ∃ rest', trim (c :: p ++ d :: rest) = c :: p ++ d :: rest' := by
  refine ⟨rest.rdropWhile isWhitespace, ?_⟩
  unfold trim
  rw [List.cons_append, List.dropWhile_cons_of_neg (by simp [hc])]
  induction rest using List.reverseRecOn with
  | nil => exact List.rdropWhile_concat_neg _ (c :: p) d (by simp [hd])
  | append_singleton rest e ih =>
    have happ : c :: (p ++ d :: (rest ++ [e])) = c :: (p ++ d :: rest) ++ [e] := by simp
    by_cases he : isWhitespace e = true
    · rw [happ, List.rdropWhile_concat_pos _ _ _ he, List.rdropWhile_concat_pos _ _ _ he]
      exact ih
    · rw [happ, List.rdropWhile_concat_neg _ _ _ he, List.rdropWhile_concat_neg _ _ _ he]
      simp

/-- A text that does not start with a blank is trimmed at its end only. -/
theorem trim_eq_rdropWhile {s : Str} (h : ∀ c ∈ s.head?, isWhitespace c = false) :
    s.trim = s.rdropWhile isWhitespace := by
  unfold trim
  cases s with
  | nil => rfl
  | cons c s => rw [List.dropWhile_cons_of_neg (by simp [h c rfl])]

theorem rdropWhile_append_all {p : Char → Bool} {b : Str} (s : Str) (hb : ∀ c ∈ b, p c = true) :
    (s ++ b).rdropWhile p = s.rdropWhile p := by
  induction b using List.reverseRecOn with
  | nil => rw [List.append_nil]
  | append_singleton b c ih =>
    rw [← List.append_assoc, List.rdropWhile_concat_pos _ _ _ (hb c (by simp))]
    exact ih fun c hc => hb c (List.mem_append_left _ hc)

theorem trim_of_no_blank {s : Str} (h : ∀ c ∈ s, isWhitespace c = false) : s.trim = s := by
  have hstart : s.dropWhile isWhitespace = s := by
    cases s with
    | nil => rfl
    | cons c s => exact List.dropWhile_cons_of_neg (by simp [h c List.mem_cons_self])
  unfold trim
  rw [hstart, List.rdropWhile_eq_self_iff]
  intro hne
  simp [h _ (List.getLast_mem hne)]

/-! ## Bytes -/

theorem asBytes_append (s t : Str) : (s ++ t).asBytes = s.asBytes ++ t.asBytes :=
  List.flatMap_append

theorem byteLen_append (s t : Str) : (s ++ t).byteLen = s.byteLen + t.byteLen := by
  simp [byteLen]

theorem byteLen_pos {s : Str} (h : s ≠ []) : 0 < s.byteLen := by
  cases s with
  | nil => exact absurd rfl h
  | cons c s =>
    have hc := Char.utf8Size_pos c
    simp only [byteLen, List.map_cons, List.sum_cons]
    omega

/-- A part of a text that is as long is the whole text. -/
theorem eq_of_infix_of_byteLen {s t : Str} (h : s <:+: t) (hlen : s.byteLen = t.byteLen) :
    s = t := by
  obtain ⟨a, b, rfl⟩ := h
  rw [byteLen_append, byteLen_append] at hlen
  have ha : a = [] := by
    by_contra hne
    have hpos := byteLen_pos hne
    omega
  have hb : b = [] := by
    by_contra hne
    have hpos := byteLen_pos hne
    omega
  simp [ha, hb]

theorem asBytes_inj {s t : Str} (h : s.asBytes = t.asBytes) : s = t := by
  have henc : List.utf8Encode s = List.utf8Encode t := by
    simp only [List.utf8Encode]
    exact congrArg List.toByteArray h
  have hdec := congrArg ByteArray.utf8Decode? henc
  rw [List.utf8Decode?_utf8Encode, List.utf8Decode?_utf8Encode] at hdec
  simpa using hdec

end Str

end RustyDns.Lib
