import Mathlib

/-!
# Token buckets

A bucket holds at most `cap` tokens and gains `rate` of them per unit of time; a request takes one
if there is one. The time of a refill (the reading) and the time at which the request really runs
(the clock) are kept apart here, since a program may read its clock some time before it reaches the
bucket.

`Bounded log clock b` is the account of a bucket: whatever was admitted since `a`, together with what
the bucket could give out now, fits into `cap + rate * (clock - a)`. It is kept when the clock moves
(`Bounded.advance`) and when a request runs (`Bounded.request`), provided the reading is not older than
the last refill and, if the request is late, that the bucket has not filled up in the meantime: a
full bucket forgets time, and a late reading gives some of it back.

Results:
* `Bounded.advance`, `Bounded.request`: the steps that keep the account.
* `Bounded.window`: what an account says about any window of time.
* `level_eq_cap`: a bucket that had time enough is full and stays so.
-/

namespace RustyDns.Lib.TokenBucket

variable {K : Type}

/-- Tokens, and the reading at which they were counted. -/
@[ext]
structure Bucket (K : Type) where
  tokens : K
  last : K

/-! ## Windows -/

section
variable [LinearOrder K] {log : List K} {a e : K}

/-- How many of the admitted requests of a log ran in the window from `a` to `e`. -/
def spent (log : List K) (a e : K) : Nat := log.countP fun t => decide (a ≤ t ∧ t ≤ e)

theorem spent_concat (t : K) :
    spent (log ++ [t]) a e = spent log a e + if a ≤ t ∧ t ≤ e then 1 else 0 := by
  unfold spent
  rw [List.countP_append]
  by_cases h : a ≤ t ∧ t ≤ e <;> simp [h]

theorem spent_eq_zero (h : ∀ t ∈ log, t < a) : spent log a e = 0 := by
  unfold spent
  rw [List.countP_eq_zero]
  intro t ht hin
  exact absurd (of_decide_eq_true hin).1 (not_le.2 (h t ht))

/-- Nothing ran after the last entry. -/
theorem spent_of_le {c : K} (h : ∀ t ∈ log, t ≤ c) (hce : c ≤ e) : spent log a e = spent log a c := by
  unfold spent
  refine List.countP_congr fun t ht => ?_
  have htc := h t ht
  simp only [decide_eq_true_eq]
  exact ⟨fun hin => ⟨hin.1, htc⟩, fun hin => ⟨hin.1, htc.trans hce⟩⟩

end

/-! ## Requests -/

section
variable [Field K] [LinearOrder K]

/-- The tokens at reading `t`; a reading before the last one adds nothing. -/
def level (rate cap : K) (b : Bucket K) (t : K) : K := min (b.tokens + max (t - b.last) 0 * rate) cap

/-- A request with reading `t`. -/
def take (rate cap : K) (b : Bucket K) (t : K) : Bool × Bucket K :=
  if 1 ≤ level rate cap b t then (true, ⟨level rate cap b t - 1, t⟩)
  else (false, ⟨level rate cap b t, t⟩)

/-- The bucket after a list of requests. -/
def feed (rate cap : K) (b : Bucket K) (ts : List K) : Bucket K :=
  ts.foldl (fun b t => (take rate cap b t).2) b

variable {rate cap : K} {b : Bucket K} {t : K}

@[simp] theorem take_last : (take rate cap b t).2.last = t := by
  unfold take
  split <;> rfl

/-- What a request leaves in the bucket. -/
theorem take_tokens : (take rate cap b t).2.tokens =
    level rate cap b t - if (take rate cap b t).1 then 1 else 0 := by
  unfold take
  split <;> simp

/-- A request sees only the level. -/
theorem take_congr {b' : Bucket K} (h : level rate cap b t = level rate cap b' t) :
    take rate cap b t = take rate cap b' t := by
  unfold take
  rw [h]

variable [IsStrictOrderedRing K]

theorem take_tokens_nonneg (hrate : 0 ≤ rate) (hcap : 0 ≤ cap) (hb : 0 ≤ b.tokens) :
    0 ≤ (take rate cap b t).2.tokens := by
  have hgain : 0 ≤ max (t - b.last) 0 * rate := mul_nonneg (le_max_right _ _) hrate
  have hlevel : 0 ≤ level rate cap b t := le_min (by linarith) hcap
  unfold take
  split
  · linarith
  · exact hlevel

theorem level_of_le (h : b.last ≤ t) :
    level rate cap b t = min (b.tokens + (t - b.last) * rate) cap := by
  rw [level, max_eq_left (by linarith)]

/-- A bucket that had the time to fill up is full. -/
theorem level_eq_cap (hrate : 0 ≤ rate) {s : K} (hs : b.last ≤ s)
    (hfull : cap ≤ b.tokens + (s - b.last) * rate) (ht : s ≤ t) : level rate cap b t = cap := by
  have hmono : (s - b.last) * rate ≤ (t - b.last) * rate :=
    mul_le_mul_of_nonneg_right (by linarith) hrate
  rw [level_of_le (hs.trans ht)]
  exact min_eq_right (by linarith)

end

/-! ## The account -/

section
variable [Field K] [LinearOrder K] [IsStrictOrderedRing K]

/-- The account of a bucket at a time: see the module's head. -/
structure Bounded (rate cap : K) (log : List K) (clock : K) (b : Bucket K) : Prop where
  tokens_nonneg : 0 ≤ b.tokens
  last_le : b.last ≤ clock
  log_le : ∀ t ∈ log, t ≤ clock
  window : ∀ a e, a ≤ e → (spent log a e : K) ≤ cap + rate * (e - a)
  account : ∀ a ≤ clock, (spent log a clock : K) +
    min cap (b.tokens + (clock - b.last) * rate) ≤ cap + rate * (clock - a)

variable {rate cap : K} {log : List K} {clock : K} {b : Bucket K}

/-- A full bucket that nothing was taken from. -/
theorem Bounded.full (hrate : 0 ≤ rate) (hcap : 0 ≤ cap) (clock : K) :
    Bounded rate cap [] clock ⟨cap, clock⟩ where
  tokens_nonneg := hcap
  last_le := le_rfl
  log_le := by simp
  window a e h := by
    have hgain : 0 ≤ rate * (e - a) := mul_nonneg hrate (by linarith)
    simp only [spent, List.countP_nil, Nat.cast_zero]
    linarith
  account a h := by
    have hgain : 0 ≤ rate * (clock - a) := mul_nonneg hrate (by linarith)
    simp only [spent, List.countP_nil, Nat.cast_zero, sub_self, zero_mul, add_zero, min_self]
    linarith

/-- Time passes. -/
theorem Bounded.advance (hrate : 0 ≤ rate) (h : Bounded rate cap log clock b) {c : K}
    (hc : clock ≤ c) : Bounded rate cap log c b where
  tokens_nonneg := h.tokens_nonneg
  last_le := h.last_le.trans hc
  log_le t ht := (h.log_le t ht).trans hc
  window := h.window
  account a ha := by
    have hsplit : (c - b.last) * rate = (clock - b.last) * rate + (c - clock) * rate := by ring
    have hpass : 0 ≤ (c - clock) * rate := mul_nonneg (by linarith) hrate
    rcases le_or_gt a clock with hold | hnew
    · -- the bucket gains no more than the window does
      have hacc := h.account a hold
      have hgain : min cap (b.tokens + (c - b.last) * rate) ≤
          min cap (b.tokens + (clock - b.last) * rate) + (c - clock) * rate := by
        rw [hsplit, ← add_assoc, ← min_add_add_right]
        exact min_le_min (by linarith) le_rfl
      have hwin : rate * (c - a) = rate * (clock - a) + (c - clock) * rate := by ring
      rw [spent_of_le h.log_le hc, hwin]
      linarith
    · have hnone : spent log a c = 0 :=
        spent_eq_zero fun t ht => lt_of_le_of_lt (h.log_le t ht) hnew
      have hgain : 0 ≤ rate * (c - a) := mul_nonneg hrate (by linarith)
      rw [hnone, Nat.cast_zero]
      have hmin := min_le_left cap (b.tokens + (c - b.last) * rate)
      linarith

/-- What is left in the bucket, seen at the clock: one token less, if one was taken. -/
theorem credit_take {r : K} (hlast : b.last ≤ r) (hr : r ≤ clock) (hrate : 0 ≤ rate)
    (htimely : r = clock ∨ b.tokens + (clock - b.last) * rate ≤ cap) :
    (take rate cap b r).2.tokens + (clock - r) * rate =
      min cap (b.tokens + (clock - b.last) * rate) - if (take rate cap b r).1 then 1 else 0 := by
  rw [take_tokens, level_of_le hlast]
  rcases htimely with rfl | hroom
  · rw [sub_self, zero_mul, add_zero, min_comm]
  · have hless : (r - b.last) * rate ≤ (clock - b.last) * rate :=
      mul_le_mul_of_nonneg_right (by linarith) hrate
    rw [min_eq_left (by linarith), min_eq_right hroom]
    ring

/-- A request runs at the clock with reading `r`. -/
theorem Bounded.request (hrate : 0 ≤ rate) (hcap : 0 ≤ cap) (h : Bounded rate cap log clock b) {r : K}
    (hlast : b.last ≤ r) (hr : r ≤ clock)
    (htimely : r = clock ∨ b.tokens + (clock - b.last) * rate ≤ cap) :
    Bounded rate cap (if (take rate cap b r).1 then log ++ [clock] else log) clock
      (take rate cap b r).2 := by
  have hcredit := credit_take hlast hr hrate htimely
  have hnonneg := take_tokens_nonneg (t := r) hrate hcap h.tokens_nonneg
  have hlog : ∀ t ∈ (if (take rate cap b r).1 then log ++ [clock] else log), t ≤ clock := by
    intro t ht
    split at ht
    · rcases List.mem_append.1 ht with ht | ht
      · exact h.log_le t ht
      · exact (List.mem_singleton.1 ht).le
    · exact h.log_le t ht
  have hspent : ∀ a e, spent (if (take rate cap b r).1 then log ++ [clock] else log) a e =
      spent log a e + if (take rate cap b r).1 ∧ a ≤ clock ∧ clock ≤ e then 1 else 0 := by
    intro a e
    by_cases hadm : (take rate cap b r).1 = true
    · simp [hadm, spent_concat]
    · simp [hadm]
  have haccount : ∀ a ≤ clock,
      (spent (if (take rate cap b r).1 then log ++ [clock] else log) a clock : K) +
        min cap ((take rate cap b r).2.tokens + (clock - (take rate cap b r).2.last) * rate) ≤
        cap + rate * (clock - a) := by
    intro a ha
    have hold := h.account a ha
    have hmin := min_le_right cap ((take rate cap b r).2.tokens + (clock - r) * rate)
    rw [take_last, hspent]
    rw [hcredit] at hmin ⊢
    by_cases hadm : (take rate cap b r).1 = true
    · simp only [hadm, ha, le_refl, and_self, if_true, Nat.cast_add, Nat.cast_one] at hmin ⊢
      linarith
    · simp only [hadm, Bool.false_eq_true, false_and, if_false, Nat.cast_add, Nat.cast_zero,
        sub_zero] at hmin ⊢
      linarith
  refine ⟨hnonneg, by rw [take_last]; exact hr, hlog, ?_, haccount⟩
  intro a e hae
  rcases lt_or_ge e clock with hlt | hge
  · -- the window ended before
    have hold := h.window a e hae
    rw [hspent, if_neg fun hin => absurd hin.2.2 (not_le.2 hlt), Nat.add_zero]
    exact hold
  · rw [spent_of_le hlog hge]
    rcases le_or_gt a clock with hstart | hstart
    · have hcredit' : 0 ≤ min cap ((take rate cap b r).2.tokens +
          (clock - (take rate cap b r).2.last) * rate) := by
        rw [take_last]
        have hpass : 0 ≤ (clock - r) * rate := mul_nonneg (by linarith) hrate
        exact le_min hcap (by linarith)
      have hacc := haccount a hstart
      have hmono : rate * (clock - a) ≤ rate * (e - a) :=
        mul_le_mul_of_nonneg_left (by linarith) hrate
      linarith
    · rw [spent_eq_zero fun t ht => lt_of_le_of_lt (hlog t ht) hstart, Nat.cast_zero]
      have hgain : 0 ≤ rate * (e - a) := mul_nonneg hrate (by linarith)
      linarith

end

end RustyDns.Lib.TokenBucket
