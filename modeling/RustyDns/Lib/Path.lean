import Mathlib

/-!
# Paths of a partial function

`next a = some (r, b)` says that `a` leads to `b` over the link `r`. A path lists the links it takes,
each with its source. Every source has one way on, so of two paths with one start the shorter one is
the start of the longer one (`Path.comparable`).
-/

namespace RustyDns.Lib

variable {α β : Type*} {next : α → Option (β × α)}

inductive Path (next : α → Option (β × α)) : α → List (α × β) → α → Prop where
  | nil (a : α) : Path next a [] a
  | cons {a b c : α} {r : β} {links : List (α × β)} :
      next a = some (r, b) → Path next b links c → Path next a ((a, r) :: links) c

namespace Path

variable {a b b' c : α} {links links' : List (α × β)} {r : β}

theorem snoc (h : Path next a links b) (hnext : next b = some (r, c)) :
    Path next a (links ++ [(b, r)]) c := by
  induction h with
  | nil a => exact .cons hnext (.nil c)
  | cons hfirst _ ih => exact .cons hfirst (ih hnext)

/-- The path goes on from every source on it. -/
theorem isSome_of_mem (h : Path next a links b) {s : α} (hs : s ∈ links.map Prod.fst) :
    (next s).isSome = true := by
  induction h with
  | nil a => cases hs
  | cons hfirst _ ih =>
    rcases List.mem_cons.1 hs with rfl | hs
    · simp [hfirst]
    · exact ih hs

/-- Two paths with one start are equal, or one ends at a source on the other. -/
theorem comparable (h : Path next a links b) (h' : Path next a links' b') :
    (links = links' ∧ b = b') ∨ (∃ r rest, links' = links ++ (b, r) :: rest) ∨
      ∃ r rest, links = links' ++ (b', r) :: rest := by
  induction h generalizing links' with
  | nil a =>
    cases h' with
    | nil => exact .inl ⟨rfl, rfl⟩
    | cons hfirst hrest => exact .inr (.inl ⟨_, _, rfl⟩)
  | cons hfirst hrest ih =>
    cases h' with
    | nil => exact .inr (.inr ⟨_, _, rfl⟩)
    | cons hfirst' hrest' =>
      -- the first links agree, since `next` is a function
      obtain ⟨rfl, rfl⟩ := Prod.mk.inj (Option.some.inj (hfirst.symm.trans hfirst'))
      rcases ih hrest' with ⟨rfl, rfl⟩ | ⟨r, rest, rfl⟩ | ⟨r, rest, rfl⟩
      · exact .inl ⟨rfl, rfl⟩
      · exact .inr (.inl ⟨r, rest, rfl⟩)
      · exact .inr (.inr ⟨r, rest, rfl⟩)

end Path

end RustyDns.Lib
