import Mathlib

/-!
# Tables

A hash map as an association list without double keys. The order of the list stands for the order in
which the map is iterated, which a hash map leaves open.
-/

namespace RustyDns.Lib.Table

variable {κ ν : Type} [DecidableEq κ]

/-- `HashMap::retain`. -/
def retain (p : κ → ν → Bool) (m : AList fun _ : κ => ν) : AList fun _ : κ => ν where
  entries := m.entries.filter fun e => p e.1 e.2
  nodupKeys := m.nodupKeys.sublist List.filter_sublist

theorem lookup_retain (p : κ → ν → Bool) (m : AList fun _ : κ => ν) (k : κ) :
    (retain p m).lookup k = (m.lookup k).filter (p k) := by
  apply Option.ext
  intro v
  rw [← Option.mem_def, AList.mem_lookup_iff, Option.filter_eq_some_iff, ← Option.mem_def,
    AList.mem_lookup_iff, retain, List.mem_filter]

/-- `iter().min_by_key(f)`, as the key of the first least entry. -/
def minByKey {β : Type} [LinearOrder β] (f : ν → β) (m : AList fun _ : κ => ν) : Option κ :=
  (m.entries.argmin fun e => f e.2).map Sigma.fst

end RustyDns.Lib.Table
