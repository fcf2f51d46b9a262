import Mathlib

/-!
# A log in a bounded number of bounded pieces

A stream of entries kept in pieces, the newest first. An entry that would make the newest piece too
large starts a new one, and of the pieces only the newest `keep` are kept. What is kept is an
unbroken end of the stream.

Results:
* `Keeps.write`: one entry more.
* `keeps_foldl`: the whole stream.
* `flatMap_numbered`: the pieces read back where they are kept under numbers.
-/

namespace RustyDns.Lib.RollingLog

variable {α : Type} (size : α → Nat) (cap keep : Nat)

def total (piece : List α) : Nat := (piece.map size).sum

/-- The pieces after a new one is started. -/
def roll (pieces : List (List α)) : List (List α) := ([] :: pieces).take keep

/-- One more entry in the newest piece. -/
def push (x : α) : List (List α) → List (List α)
  | [] => []
  | newest :: rest => (newest ++ [x]) :: rest

/-- An entry that does not fit behind others starts a new piece. -/
def write (pieces : List (List α)) (x : α) : List (List α) :=
  let newest := pieces.headD []
  push x (if cap < total size newest + size x ∧ 0 < total size newest then roll keep pieces
    else pieces)

/-- The newest piece has no room for the entry. -/
def Full (newest : List α) (x : α) : Prop :=
  cap < total size newest + size x ∧ 0 < total size newest

theorem write_of_full {newest : List α} {rest : List (List α)} {x : α}
    (h : Full size cap newest x) :
    write size cap keep (newest :: rest) x = push x (roll keep (newest :: rest)) :=
  congrArg (push x) (if_pos h)

theorem write_of_not_full {newest : List α} {rest : List (List α)} {x : α}
    (h : ¬ Full size cap newest x) :
    write size cap keep (newest :: rest) x = (newest ++ [x]) :: rest :=
  congrArg (push x) (if_neg h)

/-- What holds of the pieces that are kept of a stream. -/
structure Keeps (stream : List α) (pieces : List (List α)) : Prop where
  ne_nil : pieces ≠ []
  length_le : pieces.length ≤ keep
  suffix : pieces.reverse.flatten <:+ stream
  small : ∀ p ∈ pieces, total size p ≤ cap ∨ p.length ≤ 1

variable {size cap keep} {stream : List α} {pieces : List (List α)}

theorem keeps_start (hkeep : 1 ≤ keep) : Keeps size cap keep [] [[]] :=
  ⟨by simp, by simpa, by simp, by simp [total]⟩

theorem eq_nil_of_total_eq_zero (hpos : ∀ x, 0 < size x) {piece : List α}
    (h : total size piece = 0) : piece = [] := by
  cases piece with
  | nil => rfl
  | cons x piece =>
    have hx := hpos x
    simp only [total, List.map_cons, List.sum_cons] at h
    omega

/-- The pieces that are dropped are the oldest. -/
theorem Keeps.roll (h : Keeps size cap keep stream pieces) :
    Keeps size cap keep stream (roll keep pieces) := by
  obtain ⟨newest, rest, rfl⟩ := List.exists_cons_of_ne_nil h.ne_nil
  have hkeep : keep ≠ 0 := by
    have hle := h.length_le
    simp only [List.length_cons] at hle
    omega
  refine ⟨?_, List.length_take_le _ _, ?_, fun p hp => ?_⟩
  · simp [RollingLog.roll, hkeep]
  · have hsplit := congrArg (List.flatten ∘ List.reverse)
      (List.take_append_drop keep ([] :: newest :: rest))
    simp only [Function.comp_apply, List.reverse_append, List.flatten_append] at hsplit
    have hall : ([] :: newest :: rest).reverse.flatten = (newest :: rest).reverse.flatten := by simp
    rw [hall] at hsplit
    exact List.IsSuffix.trans ⟨_, hsplit⟩ h.suffix
  · rcases List.mem_cons.1 (List.mem_of_mem_take hp) with rfl | hp
    · exact .inr (Nat.zero_le _)
    · exact h.small p hp

/-- An entry that fits, or is the first of its piece. -/
theorem Keeps.push (h : Keeps size cap keep stream pieces) {x : α}
    (hfits : total size (pieces.headD []) + size x ≤ cap ∨ pieces.headD [] = []) :
    Keeps size cap keep (stream ++ [x]) (push x pieces) := by
  obtain ⟨newest, rest, rfl⟩ := List.exists_cons_of_ne_nil h.ne_nil
  refine ⟨by simp [RollingLog.push], h.length_le, ?_, fun p hp => ?_⟩
  · obtain ⟨front, hfront⟩ := h.suffix
    refine ⟨front, ?_⟩
    rw [← hfront]
    simp [RollingLog.push]
  · rcases List.mem_cons.1 hp with rfl | hp
    · rcases hfits with hfits | hnil
      · exact .inl (by simpa [total] using hfits)
      · simp only [List.headD_cons] at hnil
        exact .inr (by simp [hnil])
    · exact h.small p (List.mem_cons_of_mem _ hp)

theorem headD_roll (hkeep : 1 ≤ keep) : (roll keep pieces).headD [] = [] := by
  obtain ⟨k, rfl⟩ := Nat.exists_eq_add_of_le' hkeep
  rfl

theorem Keeps.write (hpos : ∀ x, 0 < size x) (h : Keeps size cap keep stream pieces) (x : α) :
    Keeps size cap keep (stream ++ [x]) (write size cap keep pieces x) := by
  have hkeep : 1 ≤ keep := (List.length_pos_iff.2 h.ne_nil).trans_le h.length_le
  unfold RollingLog.write
  simp only
  split
  · exact h.roll.push (.inr (headD_roll hkeep))
  · rename_i hnot
    refine h.push ?_
    by_cases hzero : total size (pieces.headD []) = 0
    · exact .inr (eq_nil_of_total_eq_zero hpos hzero)
    · exact .inl (by omega)

theorem keeps_foldl (hkeep : 1 ≤ keep) (hpos : ∀ x, 0 < size x) (stream : List α) :
    Keeps size cap keep stream (stream.foldl (write size cap keep) [[]]) := by
  induction stream using List.reverseRecOn with
  | nil => exact keeps_start hkeep
  | append_singleton stream x ih =>
    rw [List.foldl_append, List.foldl_cons, List.foldl_nil]
    exact ih.write hpos x

/-! ## Pieces under numbers -/

/-- The pieces of a list, numbered from 1 and read from the last number down. -/
theorem flatMap_numbered {β : Type} {f : Nat → List β} {g : α → List β} {l : List α} {k : Nat}
    (hlen : l.length ≤ k) (hf : ∀ n < k, f (n + 1) = ((l[n]?).map g).getD []) :
    (List.range' 1 k).reverse.flatMap f = l.reverse.flatMap g := by
  induction k generalizing l with
  | zero => simp [List.length_eq_zero_iff.1 (Nat.le_zero.1 hlen)]
  | succ k ih =>
    rw [List.range'_1_concat, List.reverse_append, List.reverse_singleton, List.singleton_append,
      List.flatMap_cons, Nat.add_comm 1 k, hf k (Nat.lt_succ_self k)]
    rcases List.eq_nil_or_concat' l with rfl | ⟨front, x, rfl⟩
    · rw [ih (by simp) fun n hn => hf n (Nat.lt_succ_of_lt hn)]
      rfl
    · rw [List.length_append, List.length_singleton] at hlen
      rcases Nat.lt_or_eq_of_le (Nat.le_of_succ_le_succ hlen) with hlt | rfl
      · rw [ih (by simpa using hlt) fun n hn => hf n (Nat.lt_succ_of_lt hn)]
        simp [hlt]
      · rw [ih le_rfl fun n hn => ?_]
        · simp
        · rw [hf n (Nat.lt_succ_of_lt hn), List.getElem?_append_left hn]

end RustyDns.Lib.RollingLog
