import Mathlib

/-!
# Longest first

A list that is searched in the order of a stable sort by falling length, as a table of suffixes is.
Such a search finds the first of the longest entries that pass its test.

Results:
* `firstLongest_of_find?`: what the search finds, in terms of the unsorted list.
* `FirstLongest.of_filterMap`: the same over the list the entries were made from.
-/

namespace RustyDns.Lib.LongestFirst

variable {α β : Type}

/-- `x` passes the test and, of all entries that pass, is the first of the longest. -/
def FirstLongest (len : α → Nat) (p : α → Prop) (l : List α) (x : α) : Prop :=
  ∃ before after, l = before ++ x :: after ∧ p x ∧
    (∀ y ∈ before, p y → len y < len x) ∧ ∀ y ∈ after, p y → len y ≤ len x

/-- The list in the order it is searched. -/
abbrev longestFirst (len : α → Nat) (l : List α) : List α :=
  l.insertionSort fun a b => len b ≤ len a

variable {len : α → Nat} {p : α → Prop} {l : List α} {a x y : α}

theorem FirstLongest.passes (h : FirstLongest len p l x) : p x := by
  obtain ⟨_, _, -, hp, -⟩ := h
  exact hp

theorem FirstLongest.mem (h : FirstLongest len p l x) : x ∈ l := by
  obtain ⟨_, _, rfl, -⟩ := h
  simp

theorem FirstLongest.le (h : FirstLongest len p l x) (hy : y ∈ l) (hpass : p y) :
    len y ≤ len x := by
  obtain ⟨before, after, rfl, -, hbefore, hafter⟩ := h
  rw [List.mem_append, List.mem_cons] at hy
  rcases hy with hy | rfl | hy
  · exact (hbefore y hy hpass).le
  · exact le_rfl
  · exact hafter y hy hpass

theorem FirstLongest.head (hpass : p a) (h : ∀ y ∈ l, p y → len y ≤ len a) :
    FirstLongest len p (a :: l) a :=
  ⟨[], l, rfl, hpass, by simp, h⟩

theorem FirstLongest.cons (h : FirstLongest len p l x) (ha : p a → len a < len x) :
    FirstLongest len p (a :: l) x := by
  obtain ⟨before, after, rfl, hpass, hbefore, hafter⟩ := h
  exact ⟨a :: before, after, rfl, hpass, List.forall_mem_cons.2 ⟨ha, hbefore⟩, hafter⟩

theorem FirstLongest.unique (hx : FirstLongest len p l x) (hy : FirstLongest len p l y) :
    x = y := by
  obtain ⟨b, c, rfl, hpx, hb, hc⟩ := hx
  obtain ⟨b', c', hsplit, hpy, hb', hc'⟩ := hy
  rw [List.append_eq_append_iff] at hsplit
  -- where the two stand at different places, the earlier one is both shorter and not shorter
  obtain ⟨m, rfl, hm⟩ | ⟨m, rfl, hm⟩ := hsplit
  · cases m with
    | nil => exact (List.cons.inj hm).1
    | cons z m =>
      obtain ⟨rfl, rfl⟩ := List.cons.inj hm
      exact absurd (hb' x (by simp) hpx) (hc y (by simp) hpy).not_gt
  · cases m with
    | nil => exact (List.cons.inj hm).1.symm
    | cons z m =>
      obtain ⟨rfl, rfl⟩ := List.cons.inj hm
      exact absurd (hb y (by simp) hpy) (hc' x (by simp) hpx).not_gt

/-! ## The search -/

/-- One more entry in a sorted list: it is found when it passes and nothing longer does. -/
theorem find?_orderedInsert {test : α → Bool} {s : List α}
    (hs : s.Pairwise fun a b => len b ≤ len a) :
    (s.orderedInsert (fun a b => len b ≤ len a) a).find? test =
      if test a = true ∧ ∀ b, s.find? test = some b → len b ≤ len a then some a
      else s.find? test := by
  induction s with
  | nil => by_cases ha : test a = true <;> simp [ha]
  | cons c s ih =>
    rw [List.pairwise_cons] at hs
    rw [List.orderedInsert_cons]
    by_cases hc : len c ≤ len a
    · have hle : ∀ b, (c :: s).find? test = some b → len b ≤ len a := by
        intro b hb
        rcases List.mem_cons.1 (List.mem_of_find?_eq_some hb) with rfl | hb
        · exact hc
        · exact (hs.1 b hb).trans hc
      rw [if_pos hc, List.find?_cons]
      cases ha : test a with
      | true => rw [if_pos ⟨rfl, hle⟩]
      | false => simp
    · rw [if_neg hc, List.find?_cons, List.find?_cons]
      cases htest : test c with
      | true =>
        rw [if_neg]
        rintro ⟨-, h⟩
        exact hc (h c rfl)
      | false => exact ih hs.2

theorem pairwise_longestFirst (len : α → Nat) (l : List α) :
    (longestFirst len l).Pairwise fun a b => len b ≤ len a := by
  have : Std.Total fun a b : α => len b ≤ len a := ⟨fun a b => Nat.le_total _ _⟩
  have : IsTrans α fun a b => len b ≤ len a := ⟨fun _ _ _ hab hbc => hbc.trans hab⟩
  exact List.pairwise_insertionSort _ l

theorem firstLongest_of_find? {test : α → Bool}
    (h : (longestFirst len l).find? test = some x) :
    FirstLongest len (fun y => test y = true) l x := by
  induction l generalizing x with
  | nil => simp at h
  | cons a l ih =>
    rw [longestFirst, List.insertionSort_cons,
      find?_orderedInsert (pairwise_longestFirst len l)] at h
    split at h
    · rename_i hfound
      obtain ⟨ha, hle⟩ := hfound
      obtain rfl := Option.some.inj h
      refine .head ha fun y hy hpass => ?_
      cases hrest : (longestFirst len l).find? test with
      | none =>
        exact absurd hpass (List.find?_eq_none.1 hrest y ((List.mem_insertionSort _).2 hy))
      | some b => exact ((ih hrest).le hy hpass).trans (hle b hrest)
    · rename_i hnot
      refine (ih h).cons fun ha => ?_
      by_contra hlt
      refine hnot ⟨ha, fun b hb => ?_⟩
      obtain rfl := Option.some.inj (h.symm.trans hb)
      exact not_lt.1 hlt

theorem exists_firstLongest (h : ∃ x ∈ l, p x) : ∃ x, FirstLongest len p l x := by
  classical
  obtain ⟨x, hx, hpass⟩ := h
  cases hfind : (longestFirst len l).find? fun y => decide (p y) with
  | none =>
    exact absurd (decide_eq_true hpass)
      (List.find?_eq_none.1 hfind x ((List.mem_insertionSort _).2 hx))
  | some y => exact ⟨y, by simpa using firstLongest_of_find? hfind⟩

/-- The same over the list the entries were made from, with a length and a test of its own. -/
theorem FirstLongest.of_filterMap {g : β → Option α} {bs : List β} {len' : β → Nat} {p' : β → Prop}
    (hp : ∀ b ∈ bs, p' b ↔ ∃ a, g b = some a ∧ p a)
    (hlen : ∀ b c a d, g b = some a → g c = some d → p a → p d → (len' b ≤ len' c ↔ len a ≤ len d))
    (h : FirstLongest len p (bs.filterMap g) x) :
    ∃ b, g b = some x ∧ FirstLongest len' p' bs b := by
  obtain ⟨before, after, hsplit, hpass, hbefore, hafter⟩ := h
  obtain ⟨front, rest, rfl, rfl, hrest⟩ := List.filterMap_eq_append_iff.1 hsplit
  obtain ⟨skipped, b, back, rfl, hskipped, hb, rfl⟩ := List.filterMap_eq_cons_iff.1 hrest
  refine ⟨b, hb, front ++ skipped, back, by simp, (hp b (by simp)).2 ⟨x, hb, hpass⟩, ?_, ?_⟩
  · intro c hc hpc
    obtain ⟨d, hd, hpd⟩ := (hp c (by rcases List.mem_append.1 hc with h | h <;> simp [h])).1 hpc
    rcases List.mem_append.1 hc with hc | hc
    · have hlt := hbefore d (List.mem_filterMap.2 ⟨c, hc, hd⟩) hpd
      exact not_le.1 fun hle => hlt.not_ge ((hlen b c x d hb hd hpass hpd).1 hle)
    · rw [hskipped c hc] at hd
      cases hd
  · intro c hc hpc
    obtain ⟨d, hd, hpd⟩ := (hp c (by simp [hc])).1 hpc
    exact (hlen c b d x hd hb hpd hpass).2 (hafter d (List.mem_filterMap.2 ⟨c, hc, hd⟩) hpd)

end RustyDns.Lib.LongestFirst
