import RustyDns.Lib.Lts

/-!
# A log that only accepts newer entries

Entries carry a stamp from a linear order. The log accepts an entry when no entry it holds last is
stamped later; the stamp of its last entry is its watermark, `⊥` while it is empty. This is what a
register with rollback protection is for: what it shows is the newest entry it was ever given, and
its watermark never goes back.

Results:
* `sorted_of_reachable`: the log is sorted by stamp, so its last entry is the newest.
* `watermark_le_of_step`: no step lowers the watermark.
-/

namespace RustyDns.Lib.StampedLog

variable {α τ : Type*} (stamp : α → τ)

/-- The stamp of the last entry. -/
def watermark (log : List α) : WithBot τ :=
  match log.getLast? with
  | some v => (stamp v : WithBot τ)
  | none => ⊥

@[simp] theorem watermark_concat (log : List α) (v : α) :
    watermark stamp (log ++ [v]) = stamp v := by
  simp [watermark]

variable [LinearOrder τ]

/-- Entries in the order of their stamps. -/
def Sorted (log : List α) : Prop := log.Pairwise fun a b => stamp a ≤ stamp b

/-- Start with at most one entry; publish entries that are not older than the last. -/
def system : LTS (List α) α where
  init log := log.length ≤ 1
  step log v log' := watermark stamp log ≤ stamp v ∧ log' = log ++ [v]

theorem sorted_of_length_le_one {log : List α} (h : log.length ≤ 1) : Sorted stamp log := by
  match log, h with
  | [], _ => exact List.Pairwise.nil
  | [v], _ => exact List.pairwise_singleton _ v

variable {stamp}

theorem Sorted.le_watermark {log : List α} (h : Sorted stamp log) :
    ∀ v ∈ log, (stamp v : WithBot τ) ≤ watermark stamp log := by
  intro v hv
  obtain ⟨init, w, rfl⟩ := List.eq_nil_or_concat' log |>.resolve_left (List.ne_nil_of_mem hv)
  rw [watermark_concat, WithBot.coe_le_coe]
  rcases List.mem_append.1 hv with hv | hv
  · exact (List.pairwise_append.1 h).2.2 v hv w (by simp)
  · rw [List.mem_singleton.1 hv]

theorem Sorted.concat {log : List α} {v : α} (h : Sorted stamp log)
    (hv : watermark stamp log ≤ stamp v) : Sorted stamp (log ++ [v]) := by
  refine List.pairwise_append.2 ⟨h, List.pairwise_singleton _ v, fun a ha b hb => ?_⟩
  rw [List.mem_singleton.1 hb]
  exact WithBot.coe_le_coe.1 ((h.le_watermark a ha).trans hv)

theorem sorted_of_reachable {log : List α} (h : (system stamp).Reachable log) :
    Sorted stamp log := by
  refine h.invariant (fun log hlog => sorted_of_length_le_one stamp hlog) ?_
  rintro log v _ hs ⟨hv, rfl⟩
  exact hs.concat hv

theorem watermark_le_of_step {log log' : List α} {v : α} (h : (system stamp).step log v log') :
    watermark stamp log ≤ watermark stamp log' := by
  obtain ⟨hv, rfl⟩ := h
  rw [watermark_concat]
  exact hv

end RustyDns.Lib.StampedLog
