import RustyDns.Lib.Net
import RustyDns.Lib.Labels

/-!
# Written text, read back

What the readers of `Text` and `Net` return on text that a formatter wrote: decimal numbers, dotted
IPv4 addresses, lines, comma lists and UTF-8.

Results:
* `parseUnsigned_toDigits`, `parseIpv4Addr_display`: `Display` and `FromStr` of numbers and of IPv4
  addresses.
* `lines_spell`, `splitBy_intercalate`: lines and separated lists.
* `after_sep_iff`, `Dotted.canonical_eq`: what follows a separator, and dotted names.
* `fromUtf8_asBytes`: the bytes of a text are its UTF-8 form.
-/

namespace RustyDns.Lib

namespace Str

open RustyDns.Lib.Labels

/-! ## Numbers -/

theorem toDigit_ten_of_isDigit {c : Char} (h : c.isDigit = true) :
    toDigit 10 c = some (c.toNat - '0'.toNat) := by
  have hlt : c.toNat - '0'.toNat < 10 := by
    simp only [Char.isDigit, Bool.and_eq_true, decide_eq_true_eq] at h
    have hhigh : c.toNat ≤ 57 := UInt32.le_iff_toNat_le.1 h.2
    have hzero : '0'.toNat = 48 := rfl
    omega
  unfold toDigit
  simp only [h, if_true, Option.bind_some, if_pos hlt]

theorem digitsFrom_of_isDigit {s : Str} (h : ∀ c ∈ s, c.isDigit = true) (acc : Nat) :
    digitsFrom acc s = some (Nat.ofDigitChars 10 s acc) := by
  induction s generalizing acc with
  | nil => rfl
  | cons c s ih =>
    obtain ⟨hc, hs⟩ := List.forall_mem_cons.1 h
    rw [digitsFrom, toDigit_ten_of_isDigit hc, Option.bind_some, ih hs, Nat.mul_comm acc 10]
    rfl

theorem isDigit_toDigits {n : Nat} {c : Char} (h : c ∈ Nat.toDigits 10 n) : c.isDigit = true :=
  Nat.isDigit_of_mem_toDigits (by decide) (by decide) h

/-- `{n}` read by `parse`. -/
theorem parseUnsigned_toDigits {n bound : Nat} (h : n < bound) :
    parseUnsigned bound (Nat.toDigits 10 n) = some n := by
  unfold parseUnsigned
  split
  · -- no number starts with a plus
    rename_i rest heq
    have hplus := isDigit_toDigits (heq ▸ List.mem_cons_self : '+' ∈ Nat.toDigits 10 n)
    exact absurd hplus (by decide)
  · simp only [Nat.toDigits_ne_nil, if_false, digitsFrom_of_isDigit fun c => isDigit_toDigits,
      Nat.ofDigitChars_ten_toDigits, Option.bind_some, if_pos h]

/-! ## Blanks -/

theorem isWhitespace_of_isDigit {c : Char} (h : c.isDigit = true) : isWhitespace c = false := by
  simp only [Char.isDigit, Bool.and_eq_true, decide_eq_true_eq] at h
  have hlow : 48 ≤ c.toNat := UInt32.le_iff_toNat_le.1 h.1
  have hhigh : c.toNat ≤ 57 := UInt32.le_iff_toNat_le.1 h.2
  simp only [isWhitespace, Bool.or_eq_false_iff, Bool.and_eq_false_iff, decide_eq_false_iff_not,
    beq_eq_false_iff_ne]
  omega

/-- What `trim` leaves alone: no blank at either end. -/
theorem trim_eq_self_iff {s : Str} : s.trim = s ↔
    (∀ c ∈ s.head?, isWhitespace c = false) ∧ ∀ c ∈ s.getLast?, isWhitespace c = false := by
  unfold trim
  constructor
  · intro h
    have hsub : s.dropWhile isWhitespace = s := by
      have hlen := congrArg List.length h
      have h1 := (List.rdropWhile_prefix isWhitespace (s.dropWhile isWhitespace)).length_le
      exact (List.dropWhile_suffix isWhitespace).eq_of_length_le (by omega)
    rw [hsub, List.rdropWhile_eq_self_iff] at h
    constructor
    · intro c hc
      cases s with
      | nil => cases hc
      | cons x s =>
        cases hc
        by_contra hblank
        rw [List.dropWhile_cons_of_pos (by simpa using hblank)] at hsub
        have hle := (List.dropWhile_suffix (l := s) isWhitespace).length_le
        rw [hsub, List.length_cons] at hle
        omega
    · intro c hc
      obtain ⟨hne, rfl⟩ := List.mem_getLast?_eq_getLast hc
      simpa using h hne
  · rintro ⟨hhead, hlast⟩
    have hstart : s.dropWhile isWhitespace = s := by
      cases s with
      | nil => rfl
      | cons x s => exact List.dropWhile_cons_of_neg (by simp [hhead x rfl])
    rw [hstart, List.rdropWhile_eq_self_iff]
    intro hne
    simp [hlast _ (List.getLast_mem_getLast? hne)]

@[simp] theorem trim_trim (s : Str) : s.trim.trim = s.trim := by
  have hstart : s.trim.dropWhile isWhitespace = s.trim := by
    obtain ⟨rest, hrest⟩ := List.rdropWhile_prefix isWhitespace (s.dropWhile isWhitespace)
    change s.trim ++ rest = _ at hrest
    cases htrim : s.trim with
    | nil => rfl
    | cons c t =>
      have hhead := List.head?_dropWhile_not isWhitespace s
      rw [← hrest, htrim] at hhead
      exact List.dropWhile_cons_of_neg (by simpa using hhead)
  rw [trim, hstart, trim, List.rdropWhile_idempotent]

theorem trim_append_self {s t : Str} (hs : s.trim = s) (ht : t.trim = t) :
    (s ++ t).trim = s ++ t := by
  rw [trim_eq_self_iff] at *
  constructor
  · intro c hc
    rw [List.head?_append, Option.mem_def, Option.or_eq_some_iff] at hc
    rcases hc with hc | ⟨-, hc⟩
    · exact hs.1 c hc
    · exact ht.1 c hc
  · intro c hc
    rw [List.getLast?_append, Option.mem_def, Option.or_eq_some_iff] at hc
    rcases hc with hc | ⟨-, hc⟩
    · exact ht.2 c hc
    · exact hs.2 c hc

/-! ## Lines and lists -/

theorem splitInclusive_append {c : Char} {l : Str} (h : c ∉ l) (rest : Str) :
    splitInclusive c (l ++ c :: rest) = (l ++ [c]) :: splitInclusive c rest := by
  induction l with
  | nil => simp [splitInclusive]
  | cons x l ih =>
    rw [List.mem_cons, not_or] at h
    rw [List.cons_append, splitInclusive, if_neg (Ne.symm h.1), ih h.2]
    rfl

theorem splitInclusive_spell {c : Char} {ls : List Str} (h : Apart c ls) :
    splitInclusive c (spell c ls) = ls.map (· ++ [c]) := by
  induction ls with
  | nil => rfl
  | cons l ls ih =>
    obtain ⟨hl, hls⟩ := apart_cons.1 h
    rw [spell_cons, List.map_cons, ← ih hls]
    simpa using splitInclusive_append hl (spell c ls)

/-- Lines that end neither in a blank nor hold a line feed are read as they were written. -/
theorem lines_spell {ls : List Str} (h : Apart '\n' ls)
    (hcr : ∀ l ∈ ls, ∀ c ∈ l.getLast?, isWhitespace c = false) : lines (spell '\n' ls) = ls := by
  unfold lines
  rw [splitInclusive_spell h, List.map_map]
  refine (List.map_congr_left fun l hl => ?_).trans (List.map_id ls)
  have hnone : Str.stripEnd l ['\r'] = none := by
    rw [Option.eq_none_iff_forall_ne_some]
    intro front hfront
    rw [stripEnd_eq_some_iff] at hfront
    have := hcr l hl '\r' (by simp [hfront])
    exact absurd this (by decide)
  simp only [Function.comp_apply, stripLineEnd, stripEnd_eq_some_iff.2 rfl, hnone, Option.getD_none,
    id]

theorem splitBy_eq_pieces (c : Char) (s : Str) : splitBy (· == c) s = pieces c s := by
  induction s with
  | nil => rfl
  | cons x s ih =>
    simp only [splitBy, pieces, ih, beq_iff_eq]
    split
    · rfl
    · cases pieces c s <;> rfl

theorem intercalate_append_sep {c : Char} {ls : List Str} (h : ls ≠ []) :
    [c].intercalate ls ++ [c] = spell c ls := by
  induction ls with
  | nil => exact absurd rfl h
  | cons l ls ih =>
    cases ls with
    | nil => simp
    | cons m ls => simp [List.intercalate_cons_cons, ih (List.cons_ne_nil m ls)]

/-- A joined list, split again. -/
theorem splitBy_intercalate {c : Char} {ls : List Str} (h : Apart c ls) (hne : ls ≠ []) :
    splitBy (· == c) ([c].intercalate ls) = ls := by
  rw [splitBy_eq_pieces]
  apply spell_inj (apart_pieces _ _) h
  rw [spell_pieces, intercalate_append_sep hne]

/-- The text with given pieces is the joined pieces. -/
theorem pieces_eq_iff {c : Char} {s : Str} {ls : List Str} (h : Apart c ls) (hne : ls ≠ []) :
    pieces c s = ls ↔ s = [c].intercalate ls := by
  constructor
  · rintro rfl
    exact List.append_cancel_right ((spell_pieces c s).symm.trans (intercalate_append_sep hne).symm)
  · rintro rfl
    rw [← splitBy_eq_pieces, splitBy_intercalate h hne]

theorem intercalate_pieces (c : Char) (s : Str) : [c].intercalate (pieces c s) = s :=
  ((pieces_eq_iff (apart_pieces c s) (pieces_ne_nil c s)).1 rfl).symm

/-- What stands after a separator of a joined list is some of its last pieces, but not all. -/
theorem after_sep_iff {c : Char} {p : Str} {ls : List Str} (h : Apart c ls) (hne : ls ≠ []) :
    (∃ front, [c].intercalate ls = front ++ c :: p) ↔ pieces c p <:+ ls ∧ pieces c p ≠ ls := by
  constructor
  · rintro ⟨front, hfront⟩
    have hls : ls = pieces c front ++ pieces c p := by
      apply spell_inj h (apart_append.2 ⟨apart_pieces c front, apart_pieces c p⟩)
      rw [← intercalate_append_sep hne, hfront, spell_append, spell_pieces, spell_pieces]
      simp
    refine ⟨⟨_, hls.symm⟩, fun heq => pieces_ne_nil c front ?_⟩
    rw [heq] at hls
    exact List.self_eq_append_left.1 hls
  · rintro ⟨⟨pre, rfl⟩, hproper⟩
    have hpre : pre ≠ [] := by
      rintro rfl
      exact hproper rfl
    have hends : [c].intercalate (pre ++ pieces c p) ++ [c] =
        ([c].intercalate pre ++ c :: p) ++ [c] := by
      rw [intercalate_append_sep hne, spell_append, spell_pieces, ← intercalate_append_sep hpre]
      simp
    exact ⟨_, List.append_cancel_right hends⟩

/-! ## Dotted names -/

/-- `name` writes the lower-case labels `ls` in ASCII, in any letter case and with or without the
trailing dot. -/
structure Dotted (name : Str) (ls : List Str) : Prop where
  ascii : name.isAscii = true
  ne_nil : ls ≠ []
  labels : ∀ l ∈ ls, l ≠ [] ∧ '.' ∉ l
  text : name.toAsciiLowercase = ['.'].intercalate ls ∨ name.toAsciiLowercase = spell '.' ls

namespace Dotted

variable {name : Str} {ls : List Str}

theorem apart (h : Dotted name ls) : Apart '.' ls := fun l hl => (h.labels l hl).2

/-- The letter case does not count. -/
theorem toAsciiLowercase (h : Dotted name ls) : Dotted name.toAsciiLowercase ls where
  ascii := by simpa using h.ascii
  ne_nil := h.ne_nil
  labels := h.labels
  text := by simpa using h.text

theorem intercalate_ne_nil (h : Dotted name ls) : ['.'].intercalate ls ≠ [] := by
  intro hnil
  have hls : ls = [[]] := by
    rw [← (pieces_eq_iff h.apart h.ne_nil).2 hnil.symm]
    rfl
  exact (h.labels [] (by simp [hls])).1 rfl

/-- The first label has a first character, and that is not a dot. -/
theorem stripStart_dot (h : Dotted name ls) : name.stripStart ['.'] = none := by
  by_contra hsome
  obtain ⟨rest, hrest⟩ := Option.ne_none_iff_exists'.1 hsome
  have hlower : name.toAsciiLowercase = '.' :: rest.toAsciiLowercase := by
    rw [stripStart_eq_some_iff.1 hrest]
    rfl
  obtain ⟨back, hback⟩ : ∃ back, ['.'].intercalate ls = '.' :: back := by
    rcases h.text with htext | htext
    · exact ⟨_, htext.symm.trans hlower⟩
    · obtain ⟨c, back, hcons⟩ := List.exists_cons_of_ne_nil h.intercalate_ne_nil
      rw [hlower, ← intercalate_append_sep h.ne_nil, hcons, List.cons_append] at htext
      exact ⟨back, by rw [hcons, (List.cons.inj htext).1]⟩
  have hls : ls = [] :: pieces '.' back := by
    rw [← (pieces_eq_iff h.apart h.ne_nil).2 hback.symm]
    rfl
  exact (h.labels [] (by simp [hls])).1 rfl

/-- The last label has a last character, and that is not a dot. -/
theorem trimEndMatches_intercalate (h : Dotted name ls) :
    trimEndMatches '.' (['.'].intercalate ls) = ['.'].intercalate ls := by
  refine List.rdropWhile_eq_self_iff.2 fun hne => ?_
  rw [beq_iff_eq]
  intro hlast
  obtain ⟨front, hfront⟩ :=
    List.getLast?_eq_some_iff.1 ((List.getLast_eq_iff_getLast?_eq_some hne).1 hlast)
  have hsuffix := ((after_sep_iff h.apart h.ne_nil).1 ⟨front, hfront⟩).1
  exact (h.labels [] (hsuffix.subset (by simp [pieces]))).1 rfl

/-- The name in lower case, without its trailing dot. -/
theorem canonical_eq (h : Dotted name ls) :
    (name.trimEndMatches '.').toAsciiLowercase = ['.'].intercalate ls := by
  rw [← trimEndMatches_toAsciiLowercase]
  rcases h.text with htext | htext
  · rw [htext, h.trimEndMatches_intercalate]
  · rw [htext, ← intercalate_append_sep h.ne_nil, trimEndMatches_concat,
      h.trimEndMatches_intercalate]

/-- The name in lower case, with its trailing dot. -/
theorem qualified_eq (h : Dotted name ls) :
    (if name.toAsciiLowercase.endsWith ['.'] then name.toAsciiLowercase
      else name.toAsciiLowercase ++ ['.']) = spell '.' ls := by
  have hspell := intercalate_append_sep (c := '.') h.ne_nil
  rcases h.text with htext | htext
  · rw [htext, if_neg, hspell]
    intro hdot
    obtain ⟨front, hfront⟩ := endsWith_iff.1 hdot
    have htrim := h.trimEndMatches_intercalate
    rw [hfront, trimEndMatches_concat] at htrim
    have hle := (List.rdropWhile_prefix (· == '.') front).length_le
    have hlen := congrArg List.length htrim
    rw [List.length_append, List.length_singleton] at hlen
    unfold trimEndMatches at hlen
    omega
  · rw [htext, ← hspell, if_pos (endsWith_iff.2 ⟨_, rfl⟩)]

end Dotted

/-! ## Bytes -/

theorem utf8EncodeChar_of_isAsciiChar {c : Char} (h : isAsciiChar c = true) :
    String.utf8EncodeChar c = [UInt8.ofNat c.toNat] := by
  have hle : c.val.toNat ≤ 127 := Nat.le_of_lt_succ (of_decide_eq_true h)
  simp only [String.utf8EncodeChar, if_pos hle]
  rfl

/-- The first byte of any other character is not ASCII. -/
theorem exists_utf8EncodeChar {c : Char} (h : isAsciiChar c = false) :
    ∃ b ∈ String.utf8EncodeChar c, ¬b < 128 := by
  have hgt : ¬c.val.toNat ≤ 127 := fun hle => of_decide_eq_false h (Nat.lt_succ_of_le hle)
  simp only [String.utf8EncodeChar, if_neg hgt]
  split
  · refine ⟨_, List.mem_cons_self, ?_⟩
    rw [UInt8.lt_iff_toNat_lt, UInt8.toNat_ofNat']
    simp
    omega
  · split
    · refine ⟨_, List.mem_cons_self, ?_⟩
      rw [UInt8.lt_iff_toNat_lt, UInt8.toNat_ofNat']
      simp
      omega
    · refine ⟨_, List.mem_cons_self, ?_⟩
      rw [UInt8.lt_iff_toNat_lt, UInt8.toNat_ofNat']
      simp
      omega

theorem isAsciiChar_of_isDigit {c : Char} (h : c.isDigit = true) : isAsciiChar c = true := by
  simp only [Char.isDigit, Bool.and_eq_true, decide_eq_true_eq] at h
  have hhigh : c.toNat ≤ 57 := UInt32.le_iff_toNat_le.1 h.2
  exact decide_eq_true (by omega)

theorem byteLen_of_isAscii {s : Str} (h : isAscii s = true) : s.byteLen = s.length := by
  induction s with
  | nil => rfl
  | cons c s ih =>
    simp only [isAscii, List.all_cons, Bool.and_eq_true] at h
    have hc : c.utf8Size = 1 := by
      have hle : c.val.toNat ≤ 127 := Nat.le_of_lt_succ (of_decide_eq_true h.1)
      exact Char.utf8Size_eq_one_iff.2 (UInt32.le_iff_toNat_le.2 hle)
    rw [List.length_cons, ← ih h.2]
    simp only [byteLen, List.map_cons, List.sum_cons, hc]
    omega

theorem asBytes_of_isAscii {s : Str} (h : isAscii s = true) :
    s.asBytes = s.map fun c => UInt8.ofNat c.toNat := by
  induction s with
  | nil => rfl
  | cons c s ih =>
    simp only [isAscii, List.all_cons, Bool.and_eq_true] at h
    rw [asBytes, List.flatMap_cons, utf8EncodeChar_of_isAsciiChar h.1, List.map_cons, ← ih h.2]
    rfl

theorem isAscii_of_asBytes {s : Str} (h : s.asBytes.all (· < 128) = true) : isAscii s = true := by
  rw [isAscii, List.all_eq_true]
  intro c hc
  by_contra hno
  obtain ⟨b, hb, hge⟩ := exists_utf8EncodeChar (Bool.eq_false_iff.2 hno)
  have hlt := List.all_eq_true.1 h b (List.mem_flatMap.2 ⟨c, hc, hb⟩)
  exact hge (of_decide_eq_true hlt)

/-- The bytes of a text are its UTF-8 form. -/
theorem fromUtf8_asBytes (s : Str) : fromUtf8 s.asBytes = some s := by
  unfold fromUtf8
  split
  · rename_i hall
    have hascii := isAscii_of_asBytes hall
    rw [asBytes_of_isAscii hascii, List.map_map]
    refine congrArg some ((List.map_congr_left fun c hc => ?_).trans (List.map_id s))
    have hlt : c.toNat < 128 := of_decide_eq_true (List.all_eq_true.1 hascii c hc)
    have hmod : c.toNat % 2 ^ 8 = c.toNat := Nat.mod_eq_of_lt (by omega)
    rw [Function.comp_apply, UInt8.toNat_ofNat', hmod, Char.ofNat_toNat, id]
  · have henc : s.asBytes.toByteArray = List.utf8Encode s := rfl
    rw [henc, List.utf8Decode?_utf8Encode]
    rfl

end Str

namespace NetParser

/-! ## IPv4 addresses -/

theorem spanDigits_append {radix : Nat} {s rest : Str} {ds : List Nat}
    (h : spanDigits radix s = (ds, [])) (hrest : ∀ c ∈ rest.head?, Str.toDigit radix c = none) :
    spanDigits radix (s ++ rest) = (ds, rest) := by
  induction s generalizing ds with
  | nil =>
    cases h
    cases rest with
    | nil => rfl
    | cons c rest => simp [spanDigits, hrest c rfl]
  | cons c s ih =>
    rw [List.cons_append]
    unfold spanDigits at h ⊢
    cases hd : Str.toDigit radix c with
    | none => simp [hd] at h
    | some d =>
      simp only [hd, Prod.mk.injEq] at h ⊢
      obtain ⟨rfl, hnil⟩ := h
      have hs : spanDigits radix s = ((spanDigits radix s).1, []) := by rw [← hnil]
      simp [ih hs]

/-- The digits of an octet: no leading zero, and at most three. -/
theorem spanDigits_octet : ∀ n : Fin 256, ∃ ds : List Nat,
    spanDigits 10 (Nat.toDigits 10 n) = (ds, []) ∧
    ds.foldl (fun acc d => acc * 10 + d) 0 = n.val ∧ ds.length ≠ 0 ∧ ds.length ≤ 3 ∧
    ((Nat.toDigits 10 n).head? = some '0' → ds.length = 1) := by
  intro n
  refine ⟨(spanDigits 10 (Nat.toDigits 10 n)).1, ?_⟩
  revert n
  decide +kernel

/-- An octet is read back, whatever follows it. -/
theorem readOctet_toDigits {n : Nat} (hn : n < 256) {rest : Str}
    (hrest : ∀ c ∈ rest.head?, Str.toDigit 10 c = none) :
    readOctet (Nat.toDigits 10 n ++ rest) = some (n, rest) := by
  obtain ⟨ds, hspan, hvalue, hpos, hlen, hzero⟩ := spanDigits_octet ⟨n, hn⟩
  simp only at hspan hvalue hzero
  have hhead : (Nat.toDigits 10 n ++ rest).head? = (Nat.toDigits 10 n).head? := by
    cases h : Nat.toDigits 10 n with
    | nil => exact absurd h Nat.toDigits_ne_nil
    | cons c cs => rfl
  have hprefix : (!false && (Nat.toDigits 10 n ++ rest).head? == some '0' &&
      decide (1 < ds.length)) = false := by
    rw [hhead]
    by_cases h0 : (Nat.toDigits 10 n).head? = some '0'
    · simp [hzero h0]
    · simp [h0]
  have hthree : (some 3).any (fun m => decide (m < ds.length)) = false := by
    simpa using hlen
  unfold readOctet readNumber
  simp only [spanDigits_append hspan hrest, if_neg hpos, hthree, hprefix, hvalue, if_pos hn,
    Bool.false_eq_true, if_false]

end NetParser

theorem Ipv4Addr.ofOctets_octets (a : Ipv4Addr) :
    ofOctets (a.octet 3) (a.octet 2) (a.octet 1) (a.octet 0) = a := by
  unfold ofOctets octet
  apply BitVec.eq_of_toNat_eq
  have := a.isLt
  rw [BitVec.toNat_ofNat]
  omega

/-- The characters of a written address. -/
theorem Ipv4Addr.mem_display {a : Ipv4Addr} {c : Char} (h : c ∈ a.display) :
    c.isDigit = true ∨ c = '.' := by
  simp only [display, List.append_assoc, List.cons_append, List.mem_append, List.mem_cons] at h
  rcases h with h | h | h | h | h | h | h
  all_goals first
    | exact .inl (Str.isDigit_toDigits h)
    | exact .inr h

theorem Ipv4Addr.isAscii_display (a : Ipv4Addr) : a.display.isAscii = true := by
  rw [Str.isAscii, List.all_eq_true]
  intro c hc
  rcases mem_display hc with hdigit | rfl
  · exact Str.isAsciiChar_of_isDigit hdigit
  · decide

/-- `{ip}` read by `parse`. -/
theorem parseIpv4Addr_display (a : Ipv4Addr) : parseIpv4Addr a.display = some a := by
  have hoctet : ∀ i, a.octet i < 256 := fun i => Nat.mod_lt _ (by decide)
  have hdotted : ∀ i rest, NetParser.readOctet (Nat.toDigits 10 (a.octet i) ++ '.' :: rest) =
      some (a.octet i, '.' :: rest) := by
    intro i rest
    refine NetParser.readOctet_toDigits (hoctet i) ?_
    rintro c ⟨⟩
    decide
  have hlast : NetParser.readOctet (Nat.toDigits 10 (a.octet 0)) = some (a.octet 0, []) := by
    have hend : ∀ c ∈ ([] : Str).head?, Str.toDigit 10 c = none := by simp
    simpa using NetParser.readOctet_toDigits (hoctet 0) hend
  have hread : NetParser.readIpv4Addr a.display = some (a, []) := by
    unfold NetParser.readIpv4Addr Ipv4Addr.display
    simp [List.append_assoc, NetParser.readSeparator, NetParser.readGivenChar, hdotted, hlast,
      Ipv4Addr.ofOctets_octets]
  have hlen : a.display.byteLen ≤ 15 := by
    have hdigits : ∀ i, (Nat.toDigits 10 (a.octet i)).length ≤ 3 := fun i =>
      (Nat.length_toDigits_le_iff (by decide) (by decide)).2 (by have := hoctet i; omega)
    have h0 := hdigits 0
    have h1 := hdigits 1
    have h2 := hdigits 2
    have h3 := hdigits 3
    rw [Str.byteLen_of_isAscii a.isAscii_display]
    simp only [Ipv4Addr.display, List.append_assoc, List.cons_append, List.length_append,
      List.length_cons]
    omega
  rw [parseIpv4Addr, if_neg (by omega), NetParser.parseWith, hread]

end RustyDns.Lib
