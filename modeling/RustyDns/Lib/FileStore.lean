import Mathlib

/-!
# Files under names

A directory in which names point at files. A handle is the number of a file, so it stays with its
file when the name is taken away or goes to another one. A file has at most one name.

A call returns `none` where the directory itself makes it fail; whether a call fails for reasons
outside is up to the program. Appends go through the buffer of an `Output`, of which any part may
have reached the file.

Results:
* `read_append`, `read_remove`, `read_rename`, `openAppend_of_read_none`: what every name reads after
  a call.
* `dir_remove`, `dir_rename`, `dir_openAppend`: which file it has.
* `Grows`: no call takes bytes from a file.
-/

namespace RustyDns.Lib.FileStore

variable {N β : Type}

structure Store (N β : Type) where
  dir : N → Option Nat
  data : Nat → List β
  /-- The number of the next file. -/
  next : Nat
  dir_lt : ∀ a i, dir a = some i → i < next
  dir_inj : ∀ a b i, dir a = some i → dir b = some i → a = b

namespace Store

section
variable (s : Store N β)

def read (a : N) : Option (List β) := (s.dir a).map s.data

/-- More at the end of a file. -/
def append (i : Nat) (bytes : List β) : Store N β :=
  { s with data := Function.update s.data i (s.data i ++ bytes) }

theorem read_eq_none_iff {a : N} : s.read a = none ↔ s.dir a = none := by
  rw [read, Option.map_eq_none_iff]

variable {s} {a b : N} {i : Nat}

/-- Only the name of the file sees what is appended. -/
theorem read_append (h : s.dir a = some i) (bytes : List β) :
    (s.append i bytes).read a = some (s.data i ++ bytes) ∧
    ∀ b ≠ a, (s.append i bytes).read b = s.read b := by
  refine ⟨by simp [read, append, h], fun b hb => ?_⟩
  cases hdir : s.dir b with
  | none => simp [read, append, hdir]
  | some j =>
    have hij : j ≠ i := by
      rintro rfl
      exact hb (s.dir_inj b a j hdir h)
    simp [read, append, hdir, hij]

end

section
variable [DecidableEq N] (s : Store N β)

/-- Fails if there is no such name. -/
def remove (a : N) : Option (Store N β) :=
  if s.dir a = none then none
  else some
    { s with
      dir := fun c => if c = a then none else s.dir c
      dir_lt := by
        intro c i h
        split at h
        · cases h
        · exact s.dir_lt c i h
      dir_inj := by
        intro c d i hc hd
        split at hc
        · cases hc
        · split at hd
          · cases hd
          · exact s.dir_inj c d i hc hd }

/-- The directory after the file of `a` got the name `b`. -/
def moved (a b c : N) : Option Nat :=
  if c = b then s.dir a else if c = a then none else s.dir c

/-- Where the file of a name was before. -/
theorem moved_eq_some {a b c : N} {i : Nat} (h : s.moved a b c = some i) :
    (c = b ∧ s.dir a = some i) ∨ (c ≠ b ∧ c ≠ a ∧ s.dir c = some i) := by
  unfold moved at h
  split at h
  · rename_i hc
    exact .inl ⟨hc, h⟩
  · rename_i hb
    split at h
    · cases h
    · rename_i ha
      exact .inr ⟨hb, ha, h⟩

/-- The file that had the name `b` loses it. Fails if there is no name `a`. -/
def rename (a b : N) : Option (Store N β) :=
  if s.dir a = none then none
  else some
    { s with
      dir := s.moved a b
      dir_lt := by
        intro c i h
        rcases s.moved_eq_some h with ⟨-, h⟩ | ⟨-, -, h⟩
        · exact s.dir_lt a i h
        · exact s.dir_lt c i h
      dir_inj := by
        intro c d i hc hd
        rcases s.moved_eq_some hc with ⟨hcb, hc'⟩ | ⟨-, hca, hc'⟩
        · rcases s.moved_eq_some hd with ⟨hdb, -⟩ | ⟨-, hda, hd'⟩
          · rw [hcb, hdb]
          · exact absurd (s.dir_inj d a i hd' hc') hda
        · rcases s.moved_eq_some hd with ⟨-, hd'⟩ | ⟨-, -, hd'⟩
          · exact absurd (s.dir_inj c a i hc' hd') hca
          · exact s.dir_inj c d i hc' hd' }

/-- The directory with a new file under the name `a`. -/
def created (a c : N) : Option Nat := if c = a then some s.next else s.dir c

/-- The file of a name, a new empty one if it has none. -/
def openAppend (a : N) : Store N β × Nat :=
  match s.dir a with
  | some i => (s, i)
  | none =>
    ({ dir := s.created a
       data := Function.update s.data s.next []
       next := s.next + 1
       dir_lt := by
         intro c i h
         unfold created at h
         split at h
         · cases h
           exact Nat.lt_succ_self _
         · exact (s.dir_lt c i h).trans (Nat.lt_succ_self _)
       dir_inj := by
         intro c d i hc hd
         unfold created at hc hd
         split at hc <;> split at hd
         · rename_i hca hda
           rw [hca, hda]
         · cases hc
           exact absurd (s.dir_lt d _ hd) (lt_irrefl _)
         · cases hd
           exact absurd (s.dir_lt c _ hc) (lt_irrefl _)
         · exact s.dir_inj c d i hc hd },
      s.next)

variable {s} {a b c : N}

theorem dir_remove (a c : N) :
    ((s.remove a).getD s).dir c = if c = a then none else s.dir c := by
  unfold remove
  by_cases hnone : s.dir a = none
  · rw [if_pos hnone, Option.getD_none]
    split
    · rename_i hc
      rw [hc, hnone]
    · rfl
  · rw [if_neg hnone, Option.getD_some]

theorem dir_rename (a b c : N) :
    ((s.rename a b).getD s).dir c = if s.dir a = none then s.dir c else s.moved a b c := by
  unfold rename
  split
  · rfl
  · rfl

/-- A name that had a file has it still. -/
theorem dir_openAppend {i : Nat} (h : s.dir c = some i) : (s.openAppend a).1.dir c = some i := by
  unfold openAppend
  split
  · exact h
  · rename_i hnone
    have hne : c ≠ a := by
      rintro rfl
      rw [h] at hnone
      cases hnone
    rw [← h]
    exact if_neg hne

/-- The files that come after `s` were not there before. -/
theorem dir_openAppend_old {i : Nat} (hi : i < s.next) (h : (s.openAppend a).1.dir c = some i) :
    s.dir c = some i := by
  unfold openAppend at h
  split at h
  · exact h
  · simp only [created] at h
    split at h
    · cases h
      exact absurd hi (lt_irrefl _)
    · exact h

/-- A name that is to go is gone, whether it was there or not. -/
theorem read_remove (a c : N) :
    ((s.remove a).getD s).read c = if c = a then none else s.read c := by
  unfold remove
  by_cases hnone : s.dir a = none
  · rw [if_pos hnone, Option.getD_none]
    split
    · rename_i hc
      rwa [hc, read_eq_none_iff]
    · rfl
  · rw [if_neg hnone, Option.getD_some]
    by_cases hc : c = a <;> simp [read, hc]

theorem rename_eq_none_iff : s.rename a b = none ↔ s.read a = none := by
  rw [rename, read_eq_none_iff]
  split <;> simp_all

theorem read_rename {s' : Store N β} (h : s.rename a b = some s') (c : N) :
    s'.read c = if c = b then s.read a else if c = a then none else s.read c := by
  unfold rename at h
  split at h
  · cases h
  · obtain rfl := Option.some.inj h
    simp only [read, moved]
    split
    · rfl
    · split <;> rfl

/-- To a free name, whether there is something to rename or not. -/
theorem read_rename_free (h : s.read b = none) (c : N) :
    ((s.rename a b).getD s).read c =
      if c = b then s.read a else if c = a then none else s.read c := by
  cases hrename : s.rename a b with
  | some s' => exact read_rename hrename c
  | none =>
    rw [rename_eq_none_iff] at hrename
    rw [Option.getD_none, hrename]
    split
    · rename_i hc
      rw [hc, h]
    · split
      · rename_i hc
        rw [hc, hrename]
      · rfl

/-- The file opened under a free name is empty, and the other names read the same. -/
theorem openAppend_of_read_none (h : s.read a = none) :
    (s.openAppend a).1.dir a = some (s.openAppend a).2 ∧
    (s.openAppend a).1.data (s.openAppend a).2 = [] ∧
    ∀ c ≠ a, (s.openAppend a).1.read c = s.read c := by
  rw [read_eq_none_iff] at h
  unfold openAppend
  split
  · rename_i i hi
    rw [h] at hi
    cases hi
  · refine ⟨by simp [created], by simp, fun c hc => ?_⟩
    cases hdir : s.dir c with
    | none => simp [read, created, hc, hdir]
    | some j =>
      have hj : j ≠ s.next := (s.dir_lt c j hdir).ne
      simp [read, created, hc, hdir, hj]

end

/-! ## Files only grow -/

/-- No file of `s` has lost bytes in `t`. -/
structure Grows (s t : Store N β) : Prop where
  next : s.next ≤ t.next
  data : ∀ i < s.next, s.data i <+: t.data i

theorem Grows.refl (s : Store N β) : Grows s s := ⟨le_rfl, fun _ _ => List.prefix_rfl⟩

theorem Grows.trans {s t u : Store N β} (h₁ : Grows s t) (h₂ : Grows t u) : Grows s u :=
  ⟨h₁.next.trans h₂.next,
    fun i hi => (h₁.data i hi).trans (h₂.data i (hi.trans_le h₁.next))⟩

theorem grows_append (s : Store N β) (i : Nat) (bytes : List β) : Grows s (s.append i bytes) := by
  refine ⟨le_rfl, fun j _ => ?_⟩
  by_cases hj : j = i
  · subst hj
    simp [append]
  · simp [append, hj]

section
variable [DecidableEq N] (s : Store N β)

theorem grows_remove (a : N) : Grows s ((s.remove a).getD s) := by
  unfold remove
  split
  · exact .refl s
  · exact ⟨le_rfl, fun _ _ => List.prefix_rfl⟩

theorem grows_rename (a b : N) : Grows s ((s.rename a b).getD s) := by
  unfold rename
  split
  · exact .refl s
  · exact ⟨le_rfl, fun _ _ => List.prefix_rfl⟩

theorem grows_openAppend (a : N) : Grows s (s.openAppend a).1 := by
  unfold openAppend
  split
  · exact .refl s
  · refine ⟨Nat.le_succ _, fun i hi => ?_⟩
    simp [Function.update_of_ne hi.ne]

end

end Store

/-- A file that is open for appending, with the bytes that wait for it. -/
structure Output (β : Type) where
  file : Nat
  buffer : List β

end RustyDns.Lib.FileStore
