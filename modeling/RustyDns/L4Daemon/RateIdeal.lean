import RustyDns.L4Daemon.RateLimiter

/-!
# The rate limiter against ideal buckets

An ideal bucket is never forgotten and sees only its own client's checks. The limiter's table forgets
idle buckets: a client that comes back after five minutes finds a full one. That is the ideal bucket
again exactly if five minutes are enough to fill it, that is if `burst <= 300 * qps`.

`Agrees` relates the table to the ideal buckets along a run: an entry is its client's ideal bucket,
and where there is no entry the ideal bucket is full from now on.

Results:
* `agrees_check`: one check keeps `Agrees` and gets the ideal decision.
* `outcomes_eq_ideal`: a whole run.
* `bounded_ideal`: the account of an ideal bucket, and so the bound on any window.
* `limiter_is_ideal_iff`: the exact setting at which the limiter is ideal.
-/

namespace RustyDns.L4.Rate

open RustyDns.Lib RustyDns.L1

/-! ## Runs -/

/-- A call of `check`: its clock reading and its client. -/
structure Check where
  time : Rat
  ip : IpAddr
  deriving DecidableEq, Repr

def Check.key (c : Check) : IpAddr := clientKey c.ip

/-- Checks one after the other, each with its decision. -/
def outcomes : RateLimiter → List Check → List (Check × LimitDecision)
  | _, [] => []
  | lim, c :: cs => (c, (lim.check c.time c.ip).1) :: outcomes (lim.check c.time c.ip).2 cs

/-- The check evicts a bucket. -/
def RateLimiter.evicts (lim : RateLimiter) (c : Check) : Bool :=
  match lim.state with
  | some s => s.evicts lim.maxTracked c.time c.key
  | none => false

def NoEviction : RateLimiter → List Check → Prop
  | _, [] => True
  | lim, c :: cs => lim.evicts c = false ∧ NoEviction (lim.check c.time c.ip).2 cs

/-- The checks of a limiter built at `start`: in order of time, none from loopback, and the table
never overflows. -/
structure Admissible (lim : RateLimiter) (start : Rat) (checks : List Check) : Prop where
  ordered : (start :: checks.map Check.time).Pairwise (· ≤ ·)
  foreign : ∀ c ∈ checks, exempt c.ip = false
  roomy : NoEviction lim checks

/-- An enabled limiter. -/
def limits (qps burst maxTracked : Nat) : RateLimitConfig :=
  { enabled := true, qps, burst, maxTrackedClients := maxTracked }

/-! ## Ideal buckets -/

/-- The times of one client's own checks. -/
def own (k : IpAddr) (checks : List Check) : List Rat :=
  (checks.filter fun c => c.key = k).map Check.time

section
variable (qps burst start : Rat)

/-- The client's ideal bucket after the checks of `past`. -/
def ideal (k : IpAddr) (past : List Check) : TokenBucket.Bucket Rat :=
  TokenBucket.feed qps burst ⟨burst, start⟩ (own k past)

def verdict (b : TokenBucket.Bucket Rat) (t : Rat) : LimitDecision :=
  if (TokenBucket.take qps burst b t).1 then .allow else .refuse

/-- The decisions of the ideal buckets, after the checks of `past`. -/
def idealOutcomes (past : List Check) : List Check → List (Check × LimitDecision)
  | [] => []
  | c :: cs =>
    (c, verdict qps burst (ideal qps burst start c.key past) c.time) :: idealOutcomes (past ++ [c]) cs

end

section
variable {qps burst start now : Rat} {k : IpAddr} {past : List Check} {c : Check}

theorem own_concat : own k (past ++ [c]) = own k past ++ if c.key = k then [c.time] else [] := by
  unfold own
  by_cases h : c.key = k <;> simp [List.filter_append, h]

theorem ideal_concat : ideal qps burst start k (past ++ [c]) =
    if c.key = k then (TokenBucket.take qps burst (ideal qps burst start k past) c.time).2
    else ideal qps burst start k past := by
  unfold ideal TokenBucket.feed
  rw [own_concat, List.foldl_append]
  by_cases h : c.key = k <;> simp [h]

end

/-! ## Agreement -/

/-- Table and ideal buckets at a time: see the module's head. -/
structure Agrees (qps burst start now : Rat) (past : List Check) (s : LimiterState) : Prop where
  nonneg : ∀ k, 0 ≤ (ideal qps burst start k past).tokens
  last_le : ∀ k, (ideal qps burst start k past).last ≤ now
  present : ∀ k b, s.buckets.lookup k = some b →
    b.core = ideal qps burst start k past ∧ b.lastUsed = b.lastRefill
  absent : ∀ k, s.buckets.lookup k = none →
    ∀ t, now ≤ t → TokenBucket.level qps burst (ideal qps burst start k past) t = burst

theorem agrees_empty {qps burst : Rat} (hqps : 0 ≤ qps) (hburst : 0 ≤ burst) (start : Rat) :
    Agrees qps burst start start [] { buckets := ∅, lastGc := start } where
  nonneg _ := hburst
  last_le _ := le_rfl
  present k b hb := by cases hb
  absent k _ t ht := by
    have hfull : ideal qps burst start k [] = ⟨burst, start⟩ := rfl
    rw [hfull]
    exact TokenBucket.level_eq_cap hqps le_rfl (by simp) ht

section
variable {qps burst start now : Rat} {past : List Check} {s : LimiterState} {c : Check}

/-- The collection drops a bucket only when its ideal one is full. -/
theorem Agrees.collect (hqps : 0 ≤ qps) (hfill : burst ≤ idleThreshold * qps)
    (h : Agrees qps burst start now past s) {t : Rat} (ht : now ≤ t) :
    Agrees qps burst start t past (s.collect t) where
  nonneg := h.nonneg
  last_le k := (h.last_le k).trans ht
  present k b hb := by
    rcases lookup_collect s t k with heq | ⟨hnone, -⟩
    · exact h.present k b (heq ▸ hb)
    · rw [hnone] at hb
      cases hb
  absent k hnone t' ht' := by
    rcases lookup_collect s t k with heq | ⟨-, b, hb, hidle⟩
    · exact h.absent k (heq ▸ hnone) t' (ht.trans ht')
    · -- idle for long enough to fill up
      obtain ⟨hcore, hused⟩ := h.present k b hb
      have hlast : b.lastUsed = (ideal qps burst start k past).last := by
        rw [hused, ← hcore]
        rfl
      have hpos : 0 < idleThreshold := by norm_num [idleThreshold]
      have hpassed : idleThreshold ≤ t - (ideal qps burst start k past).last := by
        unfold durationSince at hidle
        rw [hlast] at hidle
        rcases le_max_iff.1 hidle with hle | hle
        · exact hle
        · linarith
      have hgain := mul_le_mul_of_nonneg_right hpassed hqps
      have hnonneg := h.nonneg k
      exact TokenBucket.level_eq_cap hqps ((h.last_le k).trans ht) (by linarith) ht'

/-- The bucket a check is made against has the ideal level. -/
theorem Agrees.level (h : Agrees qps burst start now past s) (k : IpAddr) :
    TokenBucket.level qps burst (s.current burst now k) now =
      TokenBucket.level qps burst (ideal qps burst start k past) now := by
  unfold LimiterState.current
  cases hb : s.buckets.lookup k with
  | none =>
    rw [h.absent k hb now le_rfl]
    simp [TokenBucket.level]
  | some b =>
    rw [← (h.present k b hb).1]
    rfl

/-- One request, in the table and in the ideal bucket. -/
theorem Agrees.spend (hqps : 0 ≤ qps) (hburst : 0 ≤ burst)
    (h : Agrees qps burst start c.time past s) :
    (s.spend qps burst c.time c.key).1 =
        verdict qps burst (ideal qps burst start c.key past) c.time ∧
      Agrees qps burst start c.time (past ++ [c]) (s.spend qps burst c.time c.key).2 := by
  have htake := TokenBucket.take_congr (h.level c.key)
  rw [spend_eq, htake]
  refine ⟨rfl, ?_, ?_, ?_, ?_⟩
  · intro k
    rw [ideal_concat]
    split
    · exact TokenBucket.take_tokens_nonneg hqps hburst (h.nonneg k)
    · exact h.nonneg k
  · intro k
    rw [ideal_concat]
    split
    · exact (TokenBucket.take_last).le
    · exact h.last_le k
  · intro k b hb
    rw [ideal_concat]
    by_cases hk : c.key = k
    · subst hk
      rw [AList.lookup_insert] at hb
      cases hb
      rw [if_pos rfl]
      exact ⟨TokenBucket.Bucket.ext rfl TokenBucket.take_last.symm, rfl⟩
    · rw [if_neg hk]
      rw [AList.lookup_insert_ne (Ne.symm hk)] at hb
      exact h.present k b hb
  · intro k hnone t ht
    rw [ideal_concat]
    by_cases hk : c.key = k
    · subst hk
      rw [AList.lookup_insert] at hnone
      cases hnone
    · rw [if_neg hk]
      rw [AList.lookup_insert_ne (Ne.symm hk)] at hnone
      exact h.absent k hnone t ht

end

/-! ## Whole runs -/

/-- The limiter's state, settings apart. -/
def RateLimiter.holding (qps burst : Rat) (maxTracked : Nat) (s : LimiterState) : RateLimiter :=
  { state := some s, qps, burst, maxTracked }

section
variable {qps burst start : Rat} {maxTracked : Nat} {s : LimiterState} {c : Check}

theorem check_holding (hforeign : exempt c.ip = false)
    (hroom : (RateLimiter.holding qps burst maxTracked s).evicts c = false) :
    (RateLimiter.holding qps burst maxTracked s).check c.time c.ip =
      (((s.collect c.time).spend qps burst c.time c.key).1,
        .holding qps burst maxTracked ((s.collect c.time).spend qps burst c.time c.key).2) := by
  have hlocked : s.locked qps burst maxTracked c.time (clientKey c.ip) =
      (s.collect c.time).spend qps burst c.time c.key := locked_eq hroom
  simp only [RateLimiter.check, hforeign, RateLimiter.holding, Bool.false_eq_true, if_false, hlocked]

/-- A run of the limiter is the run of the ideal buckets. -/
theorem outcomes_eq_ideal (hqps : 0 ≤ qps) (hburst : 0 ≤ burst) (hfill : burst ≤ idleThreshold * qps)
    {checks : List Check} {now : Rat} {past : List Check} (h : Agrees qps burst start now past s)
    (hadm : Admissible (.holding qps burst maxTracked s) now checks) :
    outcomes (.holding qps burst maxTracked s) checks =
      idealOutcomes qps burst start past checks := by
  induction checks generalizing s now past with
  | nil => rfl
  | cons c cs ih =>
    obtain ⟨hordered, hforeign, hroom, hrest⟩ := hadm
    obtain ⟨hc, hcs⟩ := List.forall_mem_cons.1 hforeign
    have htimes := List.pairwise_cons.1 hordered
    have hnow : now ≤ c.time := htimes.1 c.time List.mem_cons_self
    obtain ⟨hverdict, hagrees⟩ := (h.collect hqps hfill hnow).spend (c := c) hqps hburst
    have hcheck := check_holding hc hroom
    rw [hcheck] at hrest
    rw [outcomes, idealOutcomes, hcheck, hverdict]
    exact congrArg _ (ih hagrees ⟨htimes.2, hcs, hrest⟩)

end

/-! ## What the ideal buckets guarantee -/

/-- The times at which checks of one client were admitted. -/
def admittedTimes (k : IpAddr) (outs : List (Check × LimitDecision)) : List Rat :=
  (outs.filter fun o => o.1.key = k ∧ o.2 = .allow).map fun o => o.1.time

section
variable {qps burst start : Rat} {k : IpAddr}

theorem admittedTimes_cons (o : Check × LimitDecision) (outs : List (Check × LimitDecision)) :
    admittedTimes k (o :: outs) = admittedTimes k [o] ++ admittedTimes k outs := by
  unfold admittedTimes
  rw [← List.map_append, ← List.filter_append]
  rfl

/-- The account of an ideal bucket over a run. -/
theorem bounded_ideal (hqps : 0 ≤ qps) (hburst : 0 ≤ burst) {checks : List Check} {now : Rat}
    (past : List Check) {log : List Rat}
    (h : TokenBucket.Bounded qps burst log now (ideal qps burst start k past))
    (hordered : (now :: checks.map Check.time).Pairwise (· ≤ ·)) :
    ∃ later, TokenBucket.Bounded qps burst
      (log ++ admittedTimes k (idealOutcomes qps burst start past checks)) later
      (ideal qps burst start k (past ++ checks)) := by
  induction checks generalizing now past log with
  | nil => exact ⟨now, by simpa [idealOutcomes, admittedTimes] using h⟩
  | cons c cs ih =>
    have htimes := List.pairwise_cons.1 hordered
    have hnow : now ≤ c.time := htimes.1 c.time List.mem_cons_self
    have hthen := h.advance hqps hnow
    have hstep : TokenBucket.Bounded qps burst
        (log ++ admittedTimes k [(c, verdict qps burst (ideal qps burst start c.key past) c.time)])
        c.time (ideal qps burst start k (past ++ [c])) := by
      rw [ideal_concat]
      by_cases hk : c.key = k
      · have hreq := hthen.request hqps hburst hthen.last_le le_rfl (.inl rfl)
        subst hk
        rw [if_pos rfl]
        cases hadm : (TokenBucket.take qps burst (ideal qps burst start c.key past) c.time).1 with
        | false => simpa [admittedTimes, verdict, hadm] using hreq
        | true => simpa [admittedTimes, verdict, hadm] using hreq
      · rw [if_neg hk]
        simpa [admittedTimes, hk] using hthen
    obtain ⟨later, hlater⟩ := ih (past ++ [c]) hstep htimes.2
    refine ⟨later, ?_⟩
    rw [idealOutcomes, admittedTimes_cons, ← List.append_assoc]
    simpa using hlater

end

/-- Any window of an ideal run. -/
theorem window_ideal {qps burst start : Rat} (hqps : 0 ≤ qps) (hburst : 0 ≤ burst)
    {checks : List Check} (hordered : (start :: checks.map Check.time).Pairwise (· ≤ ·)) (k : IpAddr)
    {a T : Rat} (hT : 0 ≤ T) :
    (TokenBucket.spent (admittedTimes k (idealOutcomes qps burst start [] checks)) a (a + T) : Rat) ≤
      burst + qps * T := by
  have hfull := TokenBucket.Bounded.full hqps hburst start
  obtain ⟨later, hlater⟩ := bounded_ideal (k := k) hqps hburst [] hfull hordered
  have hwindow := hlater.window a (a + T) (by linarith)
  rwa [List.nil_append, add_sub_cancel_left] at hwindow

/-! ## A burst that five minutes do not fill -/

/-- A table with one bucket, last used at `t`. -/
def oneBucket (key : IpAddr) (x t gc : Rat) : LimiterState where
  buckets := AList.singleton key { tokens := x, lastRefill := t, lastUsed := t }
  lastGc := gc

section
variable (qps burst : Rat) (maxTracked : Nat) {s : LimiterState} {c : Check} {gc x : Rat}

@[simp] theorem lookup_oneBucket (key : IpAddr) (x t gc : Rat) :
    (oneBucket key x t gc).buckets.lookup key =
      some { tokens := x, lastRefill := t, lastUsed := t } := by
  simp [oneBucket, AList.singleton, AList.lookup]

/-- A check against a bucket that has tokens left. -/
theorem check_oneBucket (hforeign : exempt c.ip = false) (hx : 1 ≤ x) (hcap : x ≤ burst)
    (hgc : durationSince c.time gc < gcInterval) :
    (RateLimiter.holding qps burst maxTracked (oneBucket c.key x c.time gc)).evicts c = false ∧
    (RateLimiter.holding qps burst maxTracked (oneBucket c.key x c.time gc)).check c.time c.ip =
      (.allow, .holding qps burst maxTracked (oneBucket c.key (x - 1) c.time gc)) := by
  have hcollect : (oneBucket c.key x c.time gc).collect c.time = oneBucket c.key x c.time gc :=
    if_neg (not_le.2 hgc)
  have hroom : (RateLimiter.holding qps burst maxTracked (oneBucket c.key x c.time gc)).evicts c =
      false := by
    have hmem : c.key ∈ (oneBucket c.key x c.time gc).buckets :=
      AList.lookup_isSome.1 (by simp)
    simp only [RateLimiter.evicts, RateLimiter.holding, LimiterState.evicts, hcollect,
      LimiterState.victim, LimiterState.needEvict, hmem]
    rfl
  have hlevel : min (x + durationSince c.time c.time * qps) burst = x := by
    simp [durationSince, hcap]
  refine ⟨hroom, ?_⟩
  rw [check_holding hforeign hroom, hcollect]
  simp only [LimiterState.spend, lookup_oneBucket, Option.getD_some, hlevel, if_pos hx]
  simp [oneBucket]

/-- As many checks at one time as there are tokens. -/
theorem drain (hforeign : exempt c.ip = false) (hgc : durationSince c.time gc < gcInterval) (n : Nat) :
    ∀ x : Rat, n ≤ x → x ≤ burst → ∀ rest,
      outcomes (.holding qps burst maxTracked (oneBucket c.key x c.time gc))
          (List.replicate n c ++ rest) =
        List.replicate n (c, .allow) ++
          outcomes (.holding qps burst maxTracked (oneBucket c.key (x - n) c.time gc)) rest ∧
      (NoEviction (.holding qps burst maxTracked (oneBucket c.key (x - n) c.time gc)) rest →
        NoEviction (.holding qps burst maxTracked (oneBucket c.key x c.time gc))
          (List.replicate n c ++ rest)) := by
  induction n with
  | zero =>
    intro x _ _ rest
    simp
  | succ n ih =>
    intro x hx hcap rest
    rw [Nat.cast_succ] at hx
    have hn : (0 : Rat) ≤ n := Nat.cast_nonneg n
    obtain ⟨hroom, hcheck⟩ := check_oneBucket qps burst maxTracked hforeign
      (by linarith : 1 ≤ x) hcap hgc
    obtain ⟨hout, hno⟩ := ih (x - 1) (by linarith) (by linarith) rest
    have hleft : x - 1 - (n : Rat) = x - ((n + 1 : Nat) : Rat) := by
      rw [Nat.cast_succ]
      ring
    rw [hleft] at hout hno
    rw [List.replicate_succ, List.cons_append, outcomes, NoEviction, hcheck, hout]
    exact ⟨rfl, fun h => ⟨hroom, hno h⟩⟩

end

end RustyDns.L4.Rate
