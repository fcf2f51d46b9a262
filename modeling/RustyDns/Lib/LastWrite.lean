import Mathlib

/-!
# Last writes

A log of writes, oldest first, and the value each key was written last. A map that is updated along
the log holds exactly the last writes; an entry is not affected by later writes to other keys.

Results:
* `lastWrite_append_of_notMem`: writes to other keys do not matter.
* `Holds.insert`: one update of the map is one entry of the log.
-/

namespace RustyDns.Lib.LastWrite

variable {κ ν : Type} [DecidableEq κ]

/-- The value written last under `key`. -/
def lastWrite (log : List (κ × ν)) (key : κ) : Option ν := log.reverse.lookup key

/-- The map holds the last writes of the log. -/
def Holds (map : AList fun _ : κ => ν) (log : List (κ × ν)) : Prop :=
  ∀ key, map.lookup key = lastWrite log key

@[simp] theorem lastWrite_concat_self (log : List (κ × ν)) (key : κ) (v : ν) :
    lastWrite (log ++ [(key, v)]) key = some v := by
  simp [lastWrite]

theorem lastWrite_concat_of_ne {log : List (κ × ν)} {key key' : κ} {v : ν} (h : key ≠ key') :
    lastWrite (log ++ [(key', v)]) key = lastWrite log key := by
  have hne : (key == key') = false := by simpa using h
  unfold lastWrite
  rw [List.reverse_append, List.reverse_singleton, List.singleton_append, List.lookup, hne]

theorem lastWrite_append_of_notMem {log log' : List (κ × ν)} {key : κ}
    (h : key ∉ log'.map Prod.fst) : lastWrite (log ++ log') key = lastWrite log key := by
  induction log' using List.reverseRecOn with
  | nil => simp
  | append_singleton log' e ih =>
    rw [List.map_append, List.mem_append, not_or] at h
    rw [← List.append_assoc, lastWrite_concat_of_ne, ih h.1]
    intro heq
    exact h.2 (by simp [heq])

theorem Holds.empty : Holds (∅ : AList fun _ : κ => ν) [] := fun _ => AList.lookup_empty _

theorem Holds.insert {map : AList fun _ : κ => ν} {log : List (κ × ν)} (h : Holds map log) (key : κ)
    (v : ν) : Holds (map.insert key v) (log ++ [(key, v)]) := by
  intro k
  by_cases hk : k = key
  · subst hk
    rw [AList.lookup_insert, lastWrite_concat_self]
  · rw [AList.lookup_insert_ne hk, lastWrite_concat_of_ne hk, h k]

end RustyDns.Lib.LastWrite
