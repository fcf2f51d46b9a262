import Mathlib

/-!
# Loops that collect and loops that search

A `for` loop that only adds to its accumulator is a left fold whose step adds one element's share.
These rules read a property of the result off the step, so that a loop's invariant is stated once
for its body. A loop that returns what the first element gives is `findSome?`.
-/

namespace RustyDns.Lib.Fold

variable {α β : Type*} {f : β → α → β}

/-- If one step makes `P` true exactly when it was true or the element has `Q`, then the loop makes
`P` true exactly when it was true or some element has `Q`. -/
theorem foldl_iff {P : β → Prop} {Q : α → Prop} (hf : ∀ acc x, P (f acc x) ↔ P acc ∨ Q x) :
    ∀ (l : List α) (acc : β), P (l.foldl f acc) ↔ P acc ∨ ∃ x ∈ l, Q x
  | [], acc => by simp
  | x :: xs, acc => by
    rw [List.foldl_cons, foldl_iff hf xs, hf]
    simp only [List.mem_cons, exists_eq_or_imp, or_assoc]

/-- What no step changes, the loop does not change. -/
theorem foldl_const {γ : Type*} {g : β → γ} (hf : ∀ acc x, g (f acc x) = g acc) :
    ∀ (l : List α) (acc : β), g (l.foldl f acc) = g acc
  | [], _ => rfl
  | x :: xs, acc => (foldl_const hf xs (f acc x)).trans (hf acc x)

/-- What a loop over numbered elements makes of the elements alone. -/
theorem map_zipIdx_fst (g : α → β) (l : List α) : l.zipIdx.map (fun p => g p.1) = l.map g := by
  have hfst := congrArg (List.map g) (List.zipIdx_map_fst 0 l)
  rwa [List.map_map] at hfst

theorem findSome_cons (f : α → Option β) (a : α) (l : List α) :
    (a :: l).findSome? f = (f a).or (l.findSome? f) := by
  cases h : f a <;> simp [h]

/-- A search depends only on what its elements give. -/
theorem findSome_congr {f g : α → Option β} :
    ∀ {l : List α}, (∀ a ∈ l, f a = g a) → l.findSome? f = l.findSome? g
  | [], _ => rfl
  | a :: l, hl => by
    rw [findSome_cons, findSome_cons, hl a List.mem_cons_self,
      findSome_congr fun b hb => hl b (List.mem_cons_of_mem a hb)]

end RustyDns.Lib.Fold
