import RustyDns.Lib.Text

/-!
# Cutting texts

Where the cuts of a text fall: at the first occurrence of a pattern, and at the first character of a
set. Each as an equation between the text and its parts, so that a text put together from such parts
is cut back into them.
-/

namespace RustyDns.Lib.Str

/-- Where two occurrences of a pattern cannot overlap, the first one is the one with none before. -/
theorem splitOnceStr_eq_some_iff {c : Char} {q : Str} (hc : c ∉ q) {s a b : Str} :
    s.splitOnceStr (c :: q) = some (a, b) ↔ s = a ++ c :: q ++ b ∧ ¬ c :: q <:+: a := by
  constructor
  · intro h
    refine ⟨splitOnceStr_eq_some h, ?_⟩
    induction s generalizing a with
    | nil => simp [splitOnceStr] at h
    | cons x xs ih =>
      unfold splitOnceStr at h
      split at h
      · cases h
        simp
      · rename_i hnot
        obtain ⟨⟨a', b'⟩, hrec, heq⟩ := Option.map_eq_some_iff.1 h
        cases heq
        intro hin
        rcases List.infix_cons_iff.1 hin with hpre | hin
        · obtain ⟨rest, hrest⟩ := hpre
          have hxs : x :: xs = c :: q ++ (rest ++ (c :: q ++ b)) := by
            rw [splitOnceStr_eq_some hrec, ← List.append_assoc (c :: q), hrest]
            simp
          rw [dropStart_eq_some_iff.2 hxs] at hnot
          cases hnot
        · exact ih hrec hin
  · intro h
    obtain ⟨rfl, hnot⟩ := h
    induction a with
    | nil =>
      have hhere : dropStart (c :: q) (c :: q ++ b) = some b := dropStart_eq_some_iff.2 rfl
      simp only [List.nil_append, List.cons_append] at hhere ⊢
      unfold splitOnceStr
      rw [hhere]
    | cons x a ih =>
      have hskip : dropStart (c :: q) (x :: (a ++ c :: q ++ b)) = none := by
        refine Option.eq_none_iff_forall_ne_some.2 fun rest hrest => hnot ?_
        have heq : x :: (a ++ (c :: q ++ b)) = c :: (q ++ rest) := by
          simpa using dropStart_eq_some_iff.1 hrest
        obtain ⟨rfl, htail⟩ := List.cons.inj heq
        -- `q` ends before the separator does: a longer one would hold its first character
        have hq : q <+: a := by
          rcases List.append_eq_append_iff.1 htail with ⟨z, hz, hsep⟩ | ⟨z, hz, -⟩
          · cases z with
            | nil => simp [hz]
            | cons d z =>
              obtain ⟨rfl, -⟩ := List.cons.inj hsep
              exact absurd (hz ▸ by simp) hc
          · exact ⟨z, hz.symm⟩
        obtain ⟨z, rfl⟩ := hq
        exact ⟨[], z, by simp⟩
      simp only [List.cons_append] at hskip ⊢
      unfold splitOnceStr
      rw [hskip, ih fun hin => hnot (hin.trans (List.suffix_cons x a).isInfix)]
      rfl

/-- A text is cut where its first part ends. -/
theorem cut_append {p : Char → Bool} {a b : Str} (ha : ∀ c ∈ a, p c = true)
    (hb : ∀ c ∈ b.head?, p c = false) :
    (a ++ b).takeWhile p = a ∧ (a ++ b).dropWhile p = b := by
  have hstop : b.takeWhile p = [] ∧ b.dropWhile p = b := by
    cases b with
    | nil => exact ⟨rfl, rfl⟩
    | cons c cs => simp [hb c rfl]
  rw [List.takeWhile_append_of_pos ha, List.dropWhile_append_of_pos ha, hstop.1, hstop.2]
  simp

/-- What a cut at the first character outside `p` leaves. -/
theorem head?_dropWhile {p : Char → Bool} {s : Str} {c : Char} (h : c ∈ (s.dropWhile p).head?) :
    p c = false := by
  have hne : s.dropWhile p ≠ [] := by
    intro hnil
    simp [hnil] at h
  have hhead := List.head_dropWhile_not p hne
  rw [List.head?_eq_some_head hne] at h
  rwa [← Option.some.inj h]

/-- A text is cut at the first occurrence of a character, or nowhere. -/
theorem exists_cut (c : Char) (s : Str) :
    ∃ a b, s = a ++ b ∧ c ∉ a ∧ ∀ d ∈ b.head?, d = c := by
  refine ⟨s.takeWhile (· != c), s.dropWhile (· != c), List.takeWhile_append_dropWhile.symm, ?_, ?_⟩
  · intro hc
    simpa using List.mem_takeWhile_imp hc
  · intro d hd
    simpa using head?_dropWhile hd

/-! ## What cutting keeps -/

/-- Cutting at the front keeps what starts with a character that is not cut. -/
theorem sublist_dropWhile {p : Char → Bool} {c : Char} {cs : Str} (hc : p c = false) :
    ∀ {s : Str}, (c :: cs).Sublist s → (c :: cs).Sublist (s.dropWhile p)
  | [], h => h
  | d :: s, h => by
    by_cases hd : p d = true
    · rw [List.dropWhile_cons_of_pos hd]
      cases h with
      | cons _ h => exact sublist_dropWhile hc h
      | cons_cons _ h => exact absurd hd (by simp [hc])
    · rwa [List.dropWhile_cons_of_neg hd]

/-- Cutting at the end keeps what ends with a character that is not cut. -/
theorem sublist_rdropWhile {p : Char → Bool} {c : Char} {cs s : Str} (hc : p c = false)
    (h : (cs ++ [c]).Sublist s) : (cs ++ [c]).Sublist (s.rdropWhile p) := by
  have hrev : (c :: cs.reverse).Sublist s.reverse := by simpa using h.reverse
  simpa [List.rdropWhile] using (sublist_dropWhile hc hrev).reverse

theorem trimStartFrom_suffix (p : Str) : ∀ (fuel : Nat) (s : Str), trimStartFrom p fuel s <:+ s
  | 0, s => List.suffix_refl s
  | fuel + 1, s => by
    unfold trimStartFrom
    split
    · rename_i rest hrest
      rw [stripStart_eq_some_iff.1 hrest]
      exact (trimStartFrom_suffix p fuel rest).trans (List.suffix_append p rest)
    · exact List.suffix_refl s

/-- A pattern at the front is cut off. -/
theorem trimStartStr_suffix {p rest : Str} (hp : p ≠ []) : (p ++ rest).trimStartStr p <:+ rest := by
  obtain ⟨fuel, hfuel⟩ := Nat.exists_eq_succ_of_ne_zero
    (by simp [hp] : (p ++ rest : Str).length ≠ 0)
  rw [trimStartStr, hfuel, trimStartFrom, stripStart_eq_some_iff.2 rfl]
  exact trimStartFrom_suffix p fuel rest

end RustyDns.Lib.Str
