import Mathlib

/-!
# Text made of terminated pieces

`spell sep ls` writes every piece of `ls` followed by `sep`, the way a fully qualified name writes its
labels. For pieces without `sep` this loses nothing (`spell_inj`), and every text that ends in `sep`
is such a text (`spell_pieces`), so a test on the end of a text that also looks at the character
before it is a test on whole pieces (`spell_suffix_iff`).

When the labels of a name are themselves texts with separators in them, the pieces of the name are
those of its labels one after another (`spell_flatMap_pieces`); `suffix_flatMap` says where the
pieces at the end come from.
-/

namespace RustyDns.Lib.Labels

variable {α : Type*} {sep : α}

def spell (sep : α) (labels : List (List α)) : List α := labels.flatMap (· ++ [sep])

/-- No piece contains the separator. -/
def Apart (sep : α) (labels : List (List α)) : Prop := ∀ l ∈ labels, sep ∉ l

@[simp] theorem spell_nil : spell sep [] = [] := rfl

@[simp] theorem spell_cons (l : List α) (ls : List (List α)) :
    spell sep (l :: ls) = l ++ sep :: spell sep ls := by
  simp [spell]

@[simp] theorem spell_append (a b : List (List α)) :
    spell sep (a ++ b) = spell sep a ++ spell sep b := by
  simp [spell]

@[simp] theorem spell_eq_nil_iff {ls : List (List α)} : spell sep ls = [] ↔ ls = [] := by
  cases ls <;> simp

@[simp] theorem apart_cons {l : List α} {ls : List (List α)} :
    Apart sep (l :: ls) ↔ sep ∉ l ∧ Apart sep ls := by
  simp [Apart]

@[simp] theorem apart_append {a b : List (List α)} :
    Apart sep (a ++ b) ↔ Apart sep a ∧ Apart sep b := by
  simp [Apart, or_imp, forall_and]

/-- The first piece ends at the first separator. -/
theorem first_piece {l l' x y : List α} (hl : sep ∉ l) (hl' : sep ∉ l')
    (h : l ++ sep :: x = l' ++ sep :: y) : l = l' ∧ x = y := by
  rcases List.append_eq_append_iff.1 h with ⟨c, rfl, hc⟩ | ⟨c, rfl, hc⟩
  · cases c with
    | nil => exact ⟨by simp, (List.cons.inj hc).2⟩
    | cons d c =>
      obtain ⟨rfl, -⟩ := List.cons.inj hc
      exact absurd (by simp) hl'
  · cases c with
    | nil => exact ⟨by simp, (List.cons.inj hc).2.symm⟩
    | cons d c =>
      obtain ⟨rfl, -⟩ := List.cons.inj hc
      exact absurd (by simp) hl

theorem spell_inj {a b : List (List α)} (ha : Apart sep a) (hb : Apart sep b)
    (h : spell sep a = spell sep b) : a = b := by
  induction a generalizing b with
  | nil => exact (spell_eq_nil_iff.1 h.symm).symm
  | cons l ls ih =>
    cases b with
    | nil => exact absurd h (by simp)
    | cons l' ls' =>
      rw [apart_cons] at ha hb
      rw [spell_cons, spell_cons] at h
      obtain ⟨rfl, hrest⟩ := first_piece ha.1 hb.1 h
      rw [ih ha.2 hb.2 hrest]

/-- The text between separators, empty pieces included. -/
def pieces [DecidableEq α] (sep : α) : List α → List (List α)
  | [] => [[]]
  | x :: xs =>
    if x = sep then [] :: pieces sep xs
    else match pieces sep xs with
      | [] => [[x]]
      | l :: ls => (x :: l) :: ls

/-- A text that ends in the separator is a text of pieces. -/
theorem spell_pieces [DecidableEq α] (sep : α) (s : List α) :
    spell sep (pieces sep s) = s ++ [sep] := by
  induction s with
  | nil => rfl
  | cons x s ih =>
    unfold pieces
    by_cases hx : x = sep
    · rw [if_pos hx, spell_cons, ih, hx]
      rfl
    · rw [if_neg hx]
      cases hp : pieces sep s with
      | nil => simp [hp] at ih
      | cons l ls =>
        rw [hp, spell_cons] at ih
        simp [ih]

theorem pieces_ne_nil [DecidableEq α] (sep : α) (s : List α) : pieces sep s ≠ [] := by
  intro h
  have hspell := spell_pieces sep s
  simp [h] at hspell

theorem apart_pieces [DecidableEq α] (sep : α) (s : List α) : Apart sep (pieces sep s) := by
  induction s with
  | nil => simp [pieces, Apart]
  | cons x s ih =>
    unfold pieces
    by_cases hx : x = sep
    · simp [hx, ih]
    · rw [if_neg hx]
      cases hp : pieces sep s with
      | nil => simp [Apart, Ne.symm hx]
      | cons l ls =>
        rw [hp, apart_cons] at ih
        simp [Ne.symm hx, ih.1, ih.2]

/-- The text of pieces has their elements and the separator. -/
theorem mem_iff_mem_pieces [DecidableEq α] {sep x : α} {s : List α} (hx : x ≠ sep) :
    x ∈ s ↔ ∃ p ∈ pieces sep s, x ∈ p := by
  have hspell : x ∈ s ++ [sep] ↔ x ∈ spell sep (pieces sep s) := by rw [spell_pieces]
  simpa [spell, hx] using hspell

theorem pieces_of_notMem [DecidableEq α] {s : List α} (h : sep ∉ s) : pieces sep s = [s] :=
  spell_inj (apart_pieces sep s) (by simp [Apart, h]) (by simp [spell_pieces])

/-- The end of a text of pieces is whole pieces, if it starts the text or follows a separator. -/
theorem spell_suffix_iff [DecidableEq α] {a b : List (List α)} (ha : Apart sep a) (hb : Apart sep b) :
    (spell sep a = spell sep b ∨
      ∃ front, spell sep a = front ++ spell sep b ∧ front.getLast? = some sep) ↔ b <:+ a := by
  constructor
  · rintro (h | ⟨front, h, hlast⟩)
    · exact spell_inj ha hb h ▸ List.suffix_rfl
    · obtain ⟨s, rfl⟩ := List.getLast?_eq_some_iff.1 hlast
      rw [← spell_pieces, ← spell_append] at h
      exact ⟨_, (spell_inj ha (apart_append.2 ⟨apart_pieces sep s, hb⟩) h).symm⟩
  · rintro ⟨front, rfl⟩
    cases front using List.reverseRecOn with
    | nil => exact .inl rfl
    | append_singleton ls l =>
      refine .inr ⟨spell sep (ls ++ [l]), by simp, ?_⟩
      rw [spell_append, spell_cons, spell_nil]
      simp

/-! ## Labels that contain the separator -/

theorem pieces_append_sep [DecidableEq α] (sep : α) (x y : List α) :
    pieces sep (x ++ sep :: y) = pieces sep x ++ pieces sep y := by
  refine spell_inj (apart_pieces sep _) (apart_append.2 ⟨apart_pieces sep x, apart_pieces sep y⟩) ?_
  simp [spell_pieces]

/-- There are two pieces if there is a separator. -/
theorem two_le_length_pieces_iff [DecidableEq α] {s : List α} :
    2 ≤ (pieces sep s).length ↔ sep ∈ s := by
  constructor
  · intro h
    by_contra hs
    simp [pieces_of_notMem hs] at h
  · intro h
    obtain ⟨x, y, rfl⟩ := List.append_of_mem h
    have hx := List.length_pos_iff.2 (pieces_ne_nil sep x)
    have hy := List.length_pos_iff.2 (pieces_ne_nil sep y)
    rw [pieces_append_sep, List.length_append]
    omega

/-- Text without the separator joins the first piece after it. -/
theorem pieces_append_of_notMem [DecidableEq α] {u v l : List α} {ls : List (List α)}
    (hu : sep ∉ u) (hv : pieces sep v = l :: ls) : pieces sep (u ++ v) = (u ++ l) :: ls := by
  have happart := apart_pieces sep v
  rw [hv, apart_cons] at happart
  refine spell_inj (apart_pieces sep _) (apart_cons.2 ⟨by simp [hu, happart.1], happart.2⟩) ?_
  have hspell := spell_pieces sep v
  rw [hv, spell_cons] at hspell
  simp [spell_pieces, hspell]

theorem spell_flatMap_pieces [DecidableEq α] {β : Type*} (f : β → List α) (l : List β) :
    spell sep (l.flatMap fun x => pieces sep (f x)) = spell sep (l.map f) := by
  induction l with
  | nil => rfl
  | cons x l ih => simp [spell_pieces, ih]

section
variable {β γ : Type*} {f : β → List γ} {good : γ → Prop}

/-- Lists of which at most the last element is good, all good: one element each. -/
theorem flatMap_of_forall_good
    (hf : ∀ x, ∃ init p, f x = init ++ [p] ∧ ∀ q ∈ init, ¬ good q) :
    ∀ {l : List β}, (∀ m ∈ l.flatMap f, good m) →
      ∃ ps, l.map f = ps.map (fun q => [q]) ∧ l.flatMap f = ps
  | [], _ => ⟨[], rfl, rfl⟩
  | x :: l, h => by
    obtain ⟨init, p, hx, hinit⟩ := hf x
    obtain rfl : init = [] := by
      refine List.eq_nil_iff_forall_not_mem.2 fun q hq => hinit q hq (h q ?_)
      simp [hx, hq]
    obtain ⟨ps, hmap, hflat⟩ := flatMap_of_forall_good hf
      fun m hm => h m (List.mem_append_right _ hm)
    exact ⟨p :: ps, by simp [hx, hmap], by simp [hx, hflat]⟩

/-- Good elements at the end of the joined lists: the last of some list, and all of the lists after
it, which have one element each. -/
theorem suffix_flatMap
    (hf : ∀ x, ∃ init p, f x = init ++ [p] ∧ ∀ q ∈ init, ¬ good q) {ms : List γ} (hne : ms ≠ [])
    (hgood : ∀ m ∈ ms, good m) :
    ∀ {l : List β}, ms <:+ l.flatMap f →
      ∃ pre x rest p ps, l = pre ++ x :: rest ∧ (f x).getLast? = some p ∧
        rest.map f = ps.map (fun q => [q]) ∧ ms = p :: ps
  | [], h => absurd (List.suffix_nil.1 h) hne
  | x :: l, h => by
    have hrest : ms <:+ l.flatMap f → ∃ pre y rest p ps, x :: l = pre ++ y :: rest ∧
        (f y).getLast? = some p ∧ rest.map f = ps.map (fun q => [q]) ∧ ms = p :: ps := by
      intro hsuf
      obtain ⟨pre, y, rest, p, ps, rfl, hy⟩ := suffix_flatMap hf hne hgood hsuf
      exact ⟨x :: pre, y, rest, p, ps, rfl, hy⟩
    obtain ⟨front, hfront⟩ := h
    rw [List.flatMap_cons] at hfront
    rcases List.append_eq_append_iff.1 hfront with ⟨c, hx, hms⟩ | ⟨c, -, hms⟩
    · rcases List.eq_nil_or_concat c with rfl | ⟨c', p, rfl⟩
      · exact hrest ⟨[], by simpa using hms⟩
      · -- the good elements reach into the list of `x`: only its last element is one
        obtain ⟨init, p', hinit, hbad⟩ := hf x
        rw [List.concat_eq_append] at hx hms
        rw [hinit, ← List.append_assoc] at hx
        obtain ⟨rfl, hp⟩ := List.append_inj' hx rfl
        obtain rfl := (List.cons.inj hp).1
        obtain rfl : c' = [] := by
          refine List.eq_nil_iff_forall_not_mem.2 fun q hq => hbad q (by simp [hq]) (hgood q ?_)
          simp [hms, hq]
        obtain ⟨ps, hmap, hflat⟩ := flatMap_of_forall_good hf (l := l)
          fun m hm => hgood m (by simp [hms, hm])
        exact ⟨[], x, l, p', ps, rfl, by simp [hinit], hmap, by simp [hms, hflat]⟩
    · exact hrest ⟨c, hms.symm⟩

end

end RustyDns.Lib.Labels
