import RustyDns.Lib.Written
import RustyDns.Lib.Quoted

/-!
# The text of an address determines it

`Display` of an IPv6 address leaves out the first longest run of zero segments. The run can be put
back: the pieces between colons are not empty, except where the run was.

Result: `Ipv6Addr.display_inj`.
-/

namespace RustyDns.Lib

open RustyDns.Lib.Labels

theorem Ipv4Addr.display_inj {a b : Ipv4Addr} (h : a.display = b.display) : a = b := by
  have hparse := parseIpv4Addr_display a
  rw [h, parseIpv4Addr_display] at hparse
  exact (Option.some.inj hparse).symm

namespace Ipv6Addr

/-! ## Segments -/

/-- A number is given by its digits. -/
theorem eq_of_digits {base : Nat} (k : Nat) {m n : Nat} (hm : m < base ^ k) (hn : n < base ^ k)
    (h : ∀ i < k, m / base ^ i % base = n / base ^ i % base) : m = n := by
  induction k generalizing m n with
  | zero =>
    rw [Nat.pow_zero, Nat.lt_one_iff] at hm hn
    rw [hm, hn]
  | succ k ih =>
    have hlow : m % base = n % base := by simpa using h 0 k.succ_pos
    have hhigh : m / base = n / base := by
      rw [Nat.pow_succ, Nat.mul_comm] at hm hn
      refine ih (Nat.div_lt_of_lt_mul hm) (Nat.div_lt_of_lt_mul hn) fun i hi => ?_
      have hdigit := h (i + 1) (Nat.succ_lt_succ hi)
      rwa [Nat.pow_succ, Nat.mul_comm, ← Nat.div_div_eq_div_mul, ← Nat.div_div_eq_div_mul] at hdigit
    rw [← Nat.div_add_mod m base, hhigh, hlow, Nat.div_add_mod]

theorem segments_inj {a b : Ipv6Addr} (h : a.segments = b.segments) : a = b := by
  have ha : a.toNat < 65536 ^ 8 := a.isLt
  have hb : b.toNat < 65536 ^ 8 := b.isLt
  refine BitVec.eq_of_toNat_eq (eq_of_digits 8 ha hb fun i hi => ?_)
  have hsegment := List.map_inj_left.1 h (7 - i) (List.mem_range.2 (by omega))
  have hplace : 7 - (7 - i) = i := by omega
  rwa [hplace] at hsegment

theorem length_segments (a : Ipv6Addr) : a.segments.length = 8 := by simp [segments]

/-- The span lies in the list and its elements are zero. -/
def ZeroSpan (l : List Nat) (s : Span) : Prop :=
  s.start + s.len ≤ l.length ∧ ∀ i, s.start ≤ i → i < s.start + s.len → l[i]? = some 0

theorem zeroSpan_empty (l : List Nat) : ZeroSpan l {} := ⟨by simp, fun i _ hi => by simp at hi⟩

theorem ZeroSpan.append {l : List Nat} {s : Span} (h : ZeroSpan l s) (l' : List Nat) :
    ZeroSpan (l ++ l') s := by
  refine ⟨by rw [List.length_append]; exact Nat.le_add_right_of_le h.1, fun i hlow hhigh => ?_⟩
  rw [List.getElem?_append_left (by have := h.1; omega)]
  exact h.2 i hlow hhigh

/-- One more zero lengthens a span that ends where it stands. -/
theorem ZeroSpan.concat_zero {l : List Nat} {s : Span} (h : ZeroSpan l s)
    (hend : s.start + s.len = l.length) : ZeroSpan (l ++ [0]) ⟨s.start, s.len + 1⟩ := by
  refine ⟨by simp only [List.length_append, List.length_singleton]; omega, fun i hlow hhigh => ?_⟩
  simp only at hlow hhigh
  by_cases hi : i = l.length
  · simp [hi]
  · exact (h.append [0]).2 i hlow (by omega)

/-- The loop keeps a span of zeros as the longest one, and one that ends at the turn it is in. -/
theorem zeroSpan_longestZeros {before rest : List Nat} {longest current : Span}
    (hlongest : ZeroSpan (before ++ rest) longest) (hcurrent : ZeroSpan before current)
    (hend : current.len ≠ 0 → current.start + current.len = before.length) :
    ZeroSpan (before ++ rest) (longestZeros longest current (rest.zipIdx before.length)) := by
  induction rest generalizing before longest current with
  | nil => exact hlongest
  | cons x rest ih =>
    have hturn : before ++ x :: rest = (before ++ [x]) ++ rest := by simp
    have hnext : before.length + 1 = (before ++ [x]).length := by simp
    rw [hturn] at hlongest ⊢
    rw [List.zipIdx_cons, hnext, longestZeros]
    split
    · rename_i hzero
      subst hzero
      generalize hstart : (if current.len = 0 then before.length else current.start) = start
      have hspanEnd : start + current.len = before.length := by
        rw [← hstart]
        split
        · omega
        · exact hend ‹_›
      have hspan : ZeroSpan before ⟨start, current.len⟩ := by
        refine ⟨hspanEnd.le, fun i hlow hhigh => ?_⟩
        simp only at hlow hhigh
        rw [if_neg (by omega)] at hstart
        exact hcurrent.2 i (by omega) (by omega)
      have hspan' := hspan.concat_zero hspanEnd
      refine ih ?_ hspan' fun _ => ?_
      · simp only
        split
        · exact hspan'.append rest
        · exact hlongest
      · simp only [List.length_append, List.length_singleton]
        omega
    · exact ih hlongest (zeroSpan_empty _) fun h => absurd rfl h

/-- The segments around the longest run of zeros, with the run put back. -/
theorem segments_eq (a : Ipv6Addr) :
    let zeros := longestZeros {} {} a.segments.zipIdx
    a.segments = a.segments.take zeros.start ++
      (List.replicate zeros.len 0 ++ a.segments.drop (zeros.start + zeros.len)) := by
  intro zeros
  have hspan : ZeroSpan ([] ++ a.segments) zeros :=
    zeroSpan_longestZeros (zeroSpan_empty _) (zeroSpan_empty []) fun h => absurd rfl h
  rw [List.nil_append] at hspan
  have hrun : (a.segments.drop zeros.start).take zeros.len = List.replicate zeros.len 0 := by
    refine List.eq_replicate_iff.2 ⟨?_, fun x hx => ?_⟩
    · have := hspan.1
      rw [List.length_take, List.length_drop]
      omega
    · obtain ⟨i, hi⟩ := List.mem_iff_getElem?.1 hx
      rw [List.getElem?_take, List.getElem?_drop] at hi
      split at hi
      · rw [hspan.2 _ (by omega) (by omega)] at hi
        exact (Option.some.inj hi).symm
      · cases hi
  rw [← hrun, ← List.drop_drop, List.take_append_drop, List.take_append_drop]

/-! ## Texts -/

/-- What stands between the colons of some segments: no segments are one empty piece. -/
def groups (segments : List Nat) : List Str :=
  if segments = [] then [[]] else segments.map (Nat.toDigits 16)

theorem hex_chars {n : Nat} {c : Char} (h : c ∈ Nat.toDigits 16 n) : c ≠ ':' ∧ c ≠ '.' := by
  obtain ⟨d, hd, rfl⟩ := mem_toDigits (by decide) n h
  have hclean : ∀ d < 16, Nat.digitChar d ≠ ':' ∧ Nat.digitChar d ≠ '.' := by decide
  exact hclean d hd

theorem pieces_fmtSubslice (segments : List Nat) :
    pieces ':' (fmtSubslice segments) = groups segments := by
  unfold groups
  split
  · rename_i hnil
    rw [hnil]
    rfl
  · rename_i hne
    refine (Str.pieces_eq_iff ?_ (by simpa using hne)).2 rfl
    intro t ht hcolon
    obtain ⟨n, -, rfl⟩ := List.mem_map.1 ht
    exact (hex_chars hcolon).1 rfl

theorem pieces_compressed (xs ys : List Nat) :
    pieces ':' (fmtSubslice xs ++ "::".toList ++ fmtSubslice ys) = groups xs ++ [] :: groups ys := by
  have htext : fmtSubslice xs ++ "::".toList ++ fmtSubslice ys =
      fmtSubslice xs ++ ':' :: ([] ++ ':' :: fmtSubslice ys) := by simp
  rw [htext, pieces_append_sep, pieces_append_sep, pieces_fmtSubslice, pieces_fmtSubslice]
  rfl

/-- The segments before the first empty piece. -/
theorem takeWhile_groups (xs : List Nat) (rest : List Str) :
    (groups xs ++ [] :: rest).takeWhile (!·.isEmpty) = xs.map (Nat.toDigits 16) := by
  unfold groups
  split
  · rename_i hnil
    simp [hnil]
  · rw [List.takeWhile_append_of_pos]
    · simp
    · intro t ht
      obtain ⟨n, -, rfl⟩ := List.mem_map.1 ht
      simp [Nat.toDigits_ne_nil]

theorem reverse_groups (xs : List Nat) : (groups xs).reverse = groups xs.reverse := by
  unfold groups
  by_cases hnil : xs = []
  · simp [hnil]
  · simp [hnil]

theorem map_hex_inj {xs ys : List Nat} (h : xs.map (Nat.toDigits 16) = ys.map (Nat.toDigits 16)) :
    xs = ys :=
  List.map_injective_iff.2 (fun n m => toDigits_inj (by decide) (by decide) n m) h

/-- Both sides of the run can be read off the text. -/
theorem compressed_inj {xs ys xs' ys' : List Nat}
    (h : fmtSubslice xs ++ "::".toList ++ fmtSubslice ys =
      fmtSubslice xs' ++ "::".toList ++ fmtSubslice ys') : xs = xs' ∧ ys = ys' := by
  have hpieces := congrArg (pieces ':') h
  rw [pieces_compressed, pieces_compressed] at hpieces
  constructor
  · apply map_hex_inj
    rw [← takeWhile_groups xs, hpieces, takeWhile_groups]
  · have hrev := congrArg List.reverse hpieces
    simp only [List.reverse_append, List.reverse_cons, reverse_groups, List.append_assoc,
      List.singleton_append] at hrev
    apply List.reverse_injective
    apply map_hex_inj
    rw [← takeWhile_groups ys.reverse, hrev, takeWhile_groups]

/-- Only a compressed text has an empty piece. -/
theorem fmtSubslice_ne_compressed {segments xs ys : List Nat} (hne : segments ≠ []) :
    fmtSubslice segments ≠ fmtSubslice xs ++ "::".toList ++ fmtSubslice ys := by
  intro h
  have hpieces := congrArg (pieces ':') h
  rw [pieces_compressed, pieces_fmtSubslice, groups, if_neg hne] at hpieces
  have hempty : [] ∈ segments.map (Nat.toDigits 16) := by simp [hpieces]
  obtain ⟨n, -, hn⟩ := List.mem_map.1 hempty
  exact Nat.toDigits_ne_nil hn

theorem dot_notMem_fmtSubslice (segments : List Nat) : '.' ∉ fmtSubslice segments := by
  rw [mem_iff_mem_pieces (by decide : '.' ≠ ':'), pieces_fmtSubslice]
  rintro ⟨t, ht, hdot⟩
  unfold groups at ht
  split at ht
  · rw [List.mem_singleton.1 ht] at hdot
    cases hdot
  · obtain ⟨n, -, rfl⟩ := List.mem_map.1 ht
    exact (hex_chars hdot).2 rfl

theorem toIpv4Mapped_inj {a b : Ipv6Addr} {v : Ipv4Addr} (ha : a.toIpv4Mapped = some v)
    (hb : b.toIpv4Mapped = some v) : a = b := by
  unfold toIpv4Mapped at ha hb
  rw [Option.ite_none_right_eq_some, Option.some.injEq] at ha hb
  obtain ⟨hhigh, rfl⟩ := ha
  obtain ⟨hhigh', hlow⟩ := hb
  have hhighNat := congrArg BitVec.toNat (hhigh.trans hhigh'.symm)
  have hlowNat := congrArg BitVec.toNat hlow
  simp only [BitVec.toNat_ushiftRight, BitVec.toNat_setWidth, Nat.shiftRight_eq_div_pow,
    Nat.reducePow] at hhighNat hlowNat
  apply BitVec.eq_of_toNat_eq
  omega

theorem toIpv4Mapped_toIpv6Mapped (a : Ipv4Addr) : a.toIpv6Mapped.toIpv4Mapped = some a := by
  have hnat : (0xffff#96 ++ a : Ipv6Addr).toNat = 0xffff * 2 ^ 32 + a.toNat := by
    rw [BitVec.toNat_append, ← Nat.shiftLeft_add_eq_or_of_lt a.isLt, Nat.shiftLeft_eq]
    rfl
  have ha := a.isLt
  have hhigh : (0xffff#96 ++ a : Ipv6Addr) >>> 32 = 0xffff#128 := by
    apply BitVec.eq_of_toNat_eq
    rw [BitVec.toNat_ushiftRight, hnat, Nat.shiftRight_eq_div_pow, BitVec.toNat_ofNat]
    omega
  have hlow : (0xffff#96 ++ a : Ipv6Addr).setWidth 32 = a := by
    apply BitVec.eq_of_toNat_eq
    rw [BitVec.toNat_setWidth, hnat]
    omega
  rw [Ipv4Addr.toIpv6Mapped, toIpv4Mapped, if_pos hhigh, hlow]

/-- The three forms of a text: an IPv4 address behind a fixed start, two sides of a run of zeros
without dots, or all eight segments. -/
theorem display_cases (a : Ipv6Addr) :
    (∃ v, a.toIpv4Mapped = some v ∧ a.display = "::ffff:".toList ++ v.display) ∨
    ('.' ∉ a.display ∧
      ((∃ xs ys, a.display = fmtSubslice xs ++ "::".toList ++ fmtSubslice ys ∧
          a.segments = xs ++ (List.replicate (8 - xs.length - ys.length) 0 ++ ys)) ∨
        a.display = fmtSubslice a.segments)) := by
  unfold display
  cases hmapped : a.toIpv4Mapped with
  | some v => exact .inl ⟨v, rfl, rfl⟩
  | none =>
    refine .inr ?_
    simp only
    split
    · generalize hzeros : longestZeros {} {} a.segments.zipIdx = zeros
      have hsegments := segments_eq a
      rw [hzeros] at hsegments
      refine ⟨by simp [dot_notMem_fmtSubslice], .inl ⟨_, _, rfl, ?_⟩⟩
      have hlen := congrArg List.length hsegments
      simp only [List.length_append, List.length_replicate, length_segments] at hlen
      have hrun : 8 - (a.segments.take zeros.start).length -
          (a.segments.drop (zeros.start + zeros.len)).length = zeros.len := by omega
      rw [hrun]
      exact hsegments
    · exact ⟨dot_notMem_fmtSubslice _, .inr rfl⟩

/-- **An IPv6 address can be read off its text.** -/
theorem display_inj {a b : Ipv6Addr} (h : a.display = b.display) : a = b := by
  have hdot : ∀ {x y : Ipv6Addr} {v : Ipv4Addr}, x.display = "::ffff:".toList ++ v.display →
      x.display = y.display → '.' ∉ y.display → False := by
    intro x y v hx hxy hnone
    rw [← hxy, hx] at hnone
    exact hnone (by simp [Ipv4Addr.display])
  have hne : ∀ x : Ipv6Addr, x.segments ≠ [] := by
    intro x hnil
    have hlen := length_segments x
    rw [hnil] at hlen
    cases hlen
  rcases display_cases a with ⟨v, hv, ha⟩ | ⟨hadot, ha⟩
  · rcases display_cases b with ⟨w, hw, hb⟩ | ⟨hbdot, -⟩
    · rw [ha, hb] at h
      rw [← Ipv4Addr.display_inj (List.append_cancel_left h)] at hw
      exact toIpv4Mapped_inj hv hw
    · exact (hdot ha h hbdot).elim
  · rcases display_cases b with ⟨w, hw, hb⟩ | ⟨-, hb⟩
    · exact (hdot hb h.symm hadot).elim
    · rcases ha with ⟨xs, ys, ha, hsegments⟩ | ha
      · rcases hb with ⟨xs', ys', hb, hsegments'⟩ | hb
        · rw [ha, hb] at h
          obtain ⟨rfl, rfl⟩ := compressed_inj h
          exact segments_inj (hsegments.trans hsegments'.symm)
        · rw [ha, hb] at h
          exact (fmtSubslice_ne_compressed (hne b) h.symm).elim
      · rcases hb with ⟨xs', ys', hb, -⟩ | hb
        · rw [ha, hb] at h
          exact (fmtSubslice_ne_compressed (hne a) h).elim
        · rw [ha, hb] at h
          have hpieces := congrArg (pieces ':') h
          rw [pieces_fmtSubslice, pieces_fmtSubslice, groups, groups, if_neg (hne a),
            if_neg (hne b)] at hpieces
          exact segments_inj (map_hex_inj hpieces)

end Ipv6Addr

end RustyDns.Lib
