import RustyDns.Lib.Lts
import RustyDns.L1Core.Validate
import RustyDns.L4Daemon.RateLimiter

/-!
# Concurrent rate-limit checks

A call of `RateLimiter::check` reads the monotonic clock, then waits for the lock. By the time its
locked section runs the clock has moved on, and other calls, with later readings, may have been
there before it. The section stores its own reading as the bucket's refill time all the same.

`St` holds the table, the clock and where each call stands; as ghost state, the admitted sections
with the time at which they ran. A late reading can hand out tokens twice: if it is older than the
refill time it replaces, or if the bucket was full when the section ran, the time between the reading
and the section is refilled again by the next call (`late_readings_admit_too_much`).

`InTime` is what keeps the bound: a section's reading is not older than the bucket's refill time, and
a late section finds a bucket that is not yet full.

Results:
* `step_cases`: what a step can do.
* `Inv`, `inv_step`: the account of one client's bucket, kept by every step that is in time.
* `concurrent_checks_keep_rate`: the rate bound over whole runs.
* `check_run`: a call that is not interrupted is `RateLimiter.check`.
-/

namespace RustyDns.L5.Rate

open RustyDns.Lib RustyDns.L1 RustyDns.L4.Rate

/-- Where a call of `check` stands. -/
inductive Call where
  | idle
  | waiting (key : IpAddr) (reading : Rat)
  | returned (d : LimitDecision)

structure St where
  lim : LimiterState
  clock : Rat
  calls : Nat → Call
  /-- Ghost: the bucket and the time of every section that admitted its check. -/
  log : List (IpAddr × Rat)

inductive Act where
  /-- Time passes. -/
  | tick (d : Rat)
  /-- Call `id` starts and reads the clock. -/
  | read (id : Nat) (ip : IpAddr)
  /-- Call `id` runs its locked section. -/
  | lock (id : Nat)

def St.setCall (s : St) (id : Nat) (c : Call) : St :=
  { s with calls := Function.update s.calls id c }

/-- The locked section of one call, at the clock. -/
def St.runSection (cfg : RateLimitConfig) (s : St) (id : Nat) (key : IpAddr) (reading : Rat) : St :=
  let (d, lim) := s.lim.locked cfg.qps cfg.burst cfg.maxTrackedClients reading key
  { s with lim, log := if d = LimitDecision.allow then s.log ++ [(key, s.clock)] else s.log }.setCall
    id (.returned d)

def step (cfg : RateLimitConfig) (s : St) : Act → Option St
  | .tick d => if 0 ≤ d then some { s with clock := s.clock + d } else none
  | .read id ip =>
    match s.calls id with
    | .idle =>
      if exempt ip then some (s.setCall id (.returned .allow))
      else some (s.setCall id (.waiting (clientKey ip) s.clock))
    | _ => none
  | .lock id =>
    match s.calls id with
    | .waiting key reading => some (s.runSection cfg id key reading)
    | _ => none

/-- The limiter right after `new` at the clock reading `now`. -/
def initial (now : Rat) : St where
  lim := { buckets := ∅, lastGc := now }
  clock := now
  calls := fun _ => .idle
  log := []

def system (cfg : RateLimitConfig) : LTS St Act :=
  LTS.ofFn (fun s => ∃ now, s = initial now) (step cfg)

/-! ## Conditions on a step -/

/-- The section of a waiting call would throw no bucket away. -/
def keepsSection (cfg : RateLimitConfig) (s : St) : Call → Prop
  | .waiting key reading => (s.lim.collect reading).buckets.entries = s.lim.buckets.entries ∧
      s.lim.evicts cfg.maxTrackedClients reading key = false
  | _ => True

/-- The step throws no bucket away. -/
def Keeps (cfg : RateLimitConfig) (s : St) : Act → Prop
  | .lock id => keepsSection cfg s (s.calls id)
  | _ => True

def inTimeSection (cfg : RateLimitConfig) (k : IpAddr) (s : St) : Call → Prop
  | .waiting key reading => key = k →
      (s.lim.current cfg.burst reading k).last ≤ reading ∧
      (reading = s.clock ∨ (s.lim.current cfg.burst reading k).tokens +
        (s.clock - (s.lim.current cfg.burst reading k).last) * cfg.qps ≤ cfg.burst)
  | _ => True

/-- A section of client `k` is in time: see the module's head. -/
def InTime (cfg : RateLimitConfig) (k : IpAddr) (s : St) : Act → Prop
  | .lock id => inTimeSection cfg k s (s.calls id)
  | _ => True

instance (cfg : RateLimitConfig) (s : St) : (c : Call) → Decidable (keepsSection cfg s c)
  | .waiting _ _ => inferInstanceAs (Decidable (_ ∧ _))
  | .idle => inferInstanceAs (Decidable True)
  | .returned _ => inferInstanceAs (Decidable True)

instance (cfg : RateLimitConfig) (s : St) : (a : Act) → Decidable (Keeps cfg s a)
  | .lock id => inferInstanceAs (Decidable (keepsSection cfg s (s.calls id)))
  | .tick _ => inferInstanceAs (Decidable True)
  | .read _ _ => inferInstanceAs (Decidable True)

instance (cfg : RateLimitConfig) (k : IpAddr) (s : St) : (c : Call) → Decidable (inTimeSection cfg k s c)
  | .waiting _ _ => inferInstanceAs (Decidable (_ → _))
  | .idle => inferInstanceAs (Decidable True)
  | .returned _ => inferInstanceAs (Decidable True)

instance (cfg : RateLimitConfig) (k : IpAddr) (s : St) : (a : Act) → Decidable (InTime cfg k s a)
  | .lock id => inferInstanceAs (Decidable (inTimeSection cfg k s (s.calls id)))
  | .tick _ => inferInstanceAs (Decidable True)
  | .read _ _ => inferInstanceAs (Decidable True)

/-- The times of one client's admitted sections. -/
def admittedAt (k : IpAddr) (log : List (IpAddr × Rat)) : List Rat :=
  (log.filter fun e => e.1 = k).map Prod.snd

/-! ## What a step can do -/

section
variable {cfg : RateLimitConfig} {s t : St} {a : Act}

/-- Time passes, a call moves without touching the table, or a waiting call runs its section. -/
theorem step_cases (h : step cfg s a = some t) :
    (∃ d, 0 ≤ d ∧ t = { s with clock := s.clock + d }) ∨
    (∃ id c, (∀ key r, c = .waiting key r → r = s.clock) ∧ t = s.setCall id c) ∨
    (∃ id key r, a = .lock id ∧ s.calls id = .waiting key r ∧ t = s.runSection cfg id key r) := by
  cases a with
  | tick d =>
    obtain ⟨hd, ht⟩ := Option.ite_none_right_eq_some.1 h
    exact .inl ⟨d, hd, (Option.some.inj ht).symm⟩
  | read id ip =>
    simp only [step] at h
    split at h
    · split at h
      · cases h
        exact .inr (.inl ⟨id, _, by simp, rfl⟩)
      · cases h
        exact .inr (.inl ⟨id, _, by rintro key r ⟨⟩; rfl, rfl⟩)
    · cases h
  | lock id =>
    simp only [step] at h
    split at h
    · rename_i key r hcall
      cases h
      exact .inr (.inr ⟨id, key, r, rfl, hcall, rfl⟩)
    · cases h

/-- A section that throws nothing away is one request to the caller's bucket. -/
theorem runSection_eq (id : Nat) {key : IpAddr} {r : Rat} (hkeep : keepsSection cfg s (.waiting key r)) :
    (s.runSection cfg id key r).clock = s.clock ∧
    (s.runSection cfg id key r).calls = Function.update s.calls id (.returned
      (s.lim.locked cfg.qps cfg.burst cfg.maxTrackedClients r key).1) ∧
    (s.runSection cfg id key r).log =
      (if (TokenBucket.take (cfg.qps : Rat) cfg.burst (s.lim.current cfg.burst r key) r).1
        then s.log ++ [(key, s.clock)] else s.log) ∧
    (s.runSection cfg id key r).lim.buckets = s.lim.buckets.insert key
      { tokens := (TokenBucket.take (cfg.qps : Rat) cfg.burst (s.lim.current cfg.burst r key) r).2.tokens
        lastRefill := r, lastUsed := r } := by
  obtain ⟨hentries, hroom⟩ := hkeep
  have hcollect : (s.lim.collect r).buckets = s.lim.buckets := AList.ext hentries
  have hcurrent : (s.lim.collect r).current cfg.burst r key = s.lim.current cfg.burst r key := by
    simp only [LimiterState.current, hcollect]
  have hlocked : s.lim.locked cfg.qps cfg.burst cfg.maxTrackedClients r key = _ :=
    (locked_eq hroom).trans spend_eq
  rw [hcurrent] at hlocked
  refine ⟨rfl, rfl, ?_, ?_⟩
  · simp only [St.runSection, hlocked, St.setCall]
    cases (TokenBucket.take (cfg.qps : Rat) cfg.burst (s.lim.current cfg.burst r key) r).1 <;> rfl
  · simp only [St.runSection, hlocked, St.setCall, hcollect]

end

/-! ## The account of one client -/

/-- Calls wait with readings from the past, and the client's bucket and its admitted sections are in
balance; a client without a bucket was never admitted. -/
structure Inv (cfg : RateLimitConfig) (k : IpAddr) (s : St) : Prop where
  readings : ∀ id key r, s.calls id = .waiting key r → r ≤ s.clock
  present : ∀ b, s.lim.buckets.lookup k = some b →
    TokenBucket.Bounded (cfg.qps : Rat) cfg.burst (admittedAt k s.log) s.clock b.core
  absent : s.lim.buckets.lookup k = none → admittedAt k s.log = []

theorem admittedAt_concat (k key : IpAddr) (log : List (IpAddr × Rat)) (t : Rat) :
    admittedAt k (log ++ [(key, t)]) = admittedAt k log ++ if key = k then [t] else [] := by
  unfold admittedAt
  by_cases h : key = k <;> simp [List.filter_append, h]

section
variable {cfg : RateLimitConfig} {k : IpAddr} {s t : St} {a : Act}

/-- The bucket that a section of `k` is made against is in balance. -/
theorem Inv.current (hqps : 0 < cfg.qps) (h : Inv cfg k s) {r : Rat} (hr : r ≤ s.clock)
    (htime : inTimeSection cfg k s (.waiting k r)) :
    TokenBucket.Bounded (cfg.qps : Rat) cfg.burst (admittedAt k s.log) s.clock
      (s.lim.current cfg.burst r k) := by
  have hrate : (0 : Rat) < cfg.qps := by exact_mod_cast hqps
  have hcap : (0 : Rat) ≤ cfg.burst := Nat.cast_nonneg _
  obtain ⟨-, hfits⟩ := htime rfl
  unfold LimiterState.current at hfits ⊢
  cases hb : s.lim.buckets.lookup k with
  | some b => exact h.present b hb
  | none =>
    simp only [hb, Option.map_none, Option.getD_none] at hfits ⊢
    -- a new bucket is full, so its reading has to be the time of the section
    have hnow : r = s.clock := by
      rcases hfits with hnow | hroom
      · exact hnow
      · by_contra hne
        have hlt : r < s.clock := lt_of_le_of_ne hr hne
        have hgain : 0 < (s.clock - r) * cfg.qps := mul_pos (by linarith) hrate
        linarith
    rw [h.absent hb, hnow]
    exact TokenBucket.Bounded.full hrate.le hcap s.clock

theorem readings_update {calls : Nat → Call} {clock : Rat} {id : Nat} {c : Call}
    (h : ∀ id key r, calls id = .waiting key r → r ≤ clock)
    (hc : ∀ key r, c = .waiting key r → r ≤ clock) :
    ∀ id' key r, Function.update calls id c id' = .waiting key r → r ≤ clock := by
  intro id' key r hw
  by_cases hid : id' = id
  · rw [hid, Function.update_self] at hw
    exact hc key r hw
  · rw [Function.update_of_ne hid] at hw
    exact h id' key r hw

theorem inv_step (hqps : 0 < cfg.qps) (h : Inv cfg k s) (hkeep : Keeps cfg s a)
    (htime : InTime cfg k s a) (hst : step cfg s a = some t) : Inv cfg k t := by
  have hrate : (0 : Rat) ≤ cfg.qps := Nat.cast_nonneg _
  have hcap : (0 : Rat) ≤ cfg.burst := Nat.cast_nonneg _
  rcases step_cases hst with ⟨d, hd, rfl⟩ | ⟨id, c, hc, rfl⟩ | ⟨id, key, r, rfl, hcall, rfl⟩
  · -- time passes
    have hlater : s.clock ≤ s.clock + d := by linarith
    exact ⟨fun id key r hw => (h.readings id key r hw).trans hlater,
      fun b hb => (h.present b hb).advance hrate hlater, h.absent⟩
  · exact ⟨readings_update h.readings fun key r hw => (hc key r hw).le, h.present, h.absent⟩
  · -- a section runs
    have hkeep' : keepsSection cfg s (.waiting key r) := by
      rw [← hcall]
      exact hkeep
    have htime' : inTimeSection cfg k s (.waiting key r) := by
      rw [← hcall]
      exact htime
    have hr := h.readings id key r hcall
    obtain ⟨hclock, hcalls, hlog, hbuckets⟩ := runSection_eq id hkeep'
    have hreadings : ∀ id' key' r', (s.runSection cfg id key r).calls id' = .waiting key' r' →
        r' ≤ (s.runSection cfg id key r).clock := by
      rw [hcalls]
      exact readings_update h.readings (by simp)
    by_cases hk : key = k
    · subst hk
      have hreq := (h.current hqps hr htime').request hrate hcap (htime' rfl).1 hr (htime' rfl).2
      refine ⟨hreadings, ?_, ?_⟩
      · intro b hb
        rw [hbuckets, AList.lookup_insert] at hb
        cases hb
        have hcore : Bucket.core { tokens := _, lastRefill := r, lastUsed := r } =
            (TokenBucket.take (cfg.qps : Rat) cfg.burst (s.lim.current cfg.burst r key) r).2 :=
          TokenBucket.Bucket.ext rfl TokenBucket.take_last.symm
        have hadmitted : admittedAt key (s.runSection cfg id key r).log =
            if (TokenBucket.take (cfg.qps : Rat) cfg.burst (s.lim.current cfg.burst r key) r).1
            then admittedAt key s.log ++ [s.clock] else admittedAt key s.log := by
          rw [hlog]
          split
          · rw [admittedAt_concat, if_pos rfl]
          · rfl
        rw [hadmitted, hclock, hcore]
        exact hreq
      · intro hnone
        rw [hbuckets, AList.lookup_insert] at hnone
        cases hnone
    · have hsame : admittedAt k (s.runSection cfg id key r).log = admittedAt k s.log := by
        rw [hlog]
        split
        · rw [admittedAt_concat, if_neg hk, List.append_nil]
        · rfl
      refine ⟨hreadings, ?_, ?_⟩
      · intro b hb
        rw [hbuckets, AList.lookup_insert_ne (Ne.symm hk)] at hb
        rw [hsame, hclock]
        exact h.present b hb
      · intro hnone
        rw [hbuckets, AList.lookup_insert_ne (Ne.symm hk)] at hnone
        rw [hsame]
        exact h.absent hnone

end

/-- **The rate bound under concurrency.** In every run that throws no bucket away and whose sections
of client `k` are in time, the admitted checks of `k` whose sections ran within any interval of
length `T` number at most `burst + qps * T`. -/
theorem concurrent_checks_keep_rate {cfg : RateLimitConfig} (hvalid : validateRateLimit cfg = .ok ())
    (henabled : cfg.enabled = true) (k : IpAddr) {s : St}
    (hs : ((system cfg).restrict fun s a => Keeps cfg s a ∧ InTime cfg k s a).Reachable s) {a T : Rat}
    (hT : 0 ≤ T) :
    (TokenBucket.spent (admittedAt k s.log) a (a + T) : Rat) ≤ cfg.burst + cfg.qps * T := by
  have hqps : 0 < cfg.qps := by
    rw [validateRateLimit, if_pos henabled] at hvalid
    simp only [Checks.seq_ok_iff, Checks.reject_ok_iff] at hvalid
    exact Nat.pos_of_ne_zero hvalid.1
  have hinv : Inv cfg k s := by
    refine LTS.Reachable.invariant ?_ ?_ hs
    · rintro _ ⟨now, rfl⟩
      exact ⟨by rintro id key r ⟨⟩, by rintro b ⟨⟩, fun _ => rfl⟩
    · intro s a t hi hst
      exact inv_step hqps hi hst.1.1 hst.1.2 hst.2
  have hburst : (0 : Rat) ≤ cfg.burst := Nat.cast_nonneg _
  cases hb : s.lim.buckets.lookup k with
  | some b =>
    have hwindow := (hinv.present b hb).window a (a + T) (by linarith)
    rwa [add_sub_cancel_left] at hwindow
  | none =>
    have hgain : 0 ≤ (cfg.qps : Rat) * T := mul_nonneg (Nat.cast_nonneg _) hT
    rw [hinv.absent hb]
    simp only [TokenBucket.spent, List.countP_nil, Nat.cast_zero]
    linarith

/-! ## A call that is not interrupted -/

/-- The limiter of a state. -/
def St.limiter (cfg : RateLimitConfig) (s : St) : RateLimiter where
  state := some s.lim
  qps := cfg.qps
  burst := cfg.burst
  maxTracked := cfg.maxTrackedClients

/-- With nothing between its reading and its section, a call is `RateLimiter.check`. -/
theorem check_run (cfg : RateLimitConfig) {s : St} {id : Nat} {ip : IpAddr} (hidle : s.calls id = .idle)
    (hforeign : exempt ip = false) :
    ∃ t d, LTS.exec (step cfg) s [.read id ip, .lock id] = some t ∧ t.calls id = .returned d ∧
      (s.limiter cfg).check s.clock ip = (d, t.limiter cfg) := by
  have hread : step cfg s (.read id ip) = some (s.setCall id (.waiting (clientKey ip) s.clock)) := by
    simp [step, hidle, hforeign]
  have hlock : step cfg (s.setCall id (.waiting (clientKey ip) s.clock)) (.lock id) =
      some ((s.setCall id (.waiting (clientKey ip) s.clock)).runSection cfg id (clientKey ip) s.clock) := by
    simp [step, St.setCall]
  refine ⟨(s.setCall id (.waiting (clientKey ip) s.clock)).runSection cfg id (clientKey ip) s.clock,
    (s.lim.locked cfg.qps cfg.burst cfg.maxTrackedClients s.clock (clientKey ip)).1, ?_, ?_, ?_⟩
  · rw [LTS.exec, hread, Option.bind_some, LTS.exec, hlock]
    rfl
  · simp [St.runSection, St.setCall]
  · simp [RateLimiter.check, hforeign, St.limiter, St.runSection, St.setCall]

/-! ## A late reading -/

def slowLimits : RateLimitConfig := { qps := 1, burst := 1 }

/-- A client that is not loopback. -/
def client : IpAddr := .v4 0x0A000001#32

/-- Call 0 reads the clock and is held up for ten seconds. Meanwhile call 1 takes the only token; then
call 0 is refused and puts the refill time back to its old reading, and call 2 finds ten seconds of
refill. -/
def lateReading : List Act :=
  [.read 0 client, .tick 10, .read 1 client, .lock 1, .lock 0, .read 2 client, .lock 2]

/-- Two checks are admitted at one moment, with a burst of one. -/
theorem late_readings_admit_too_much :
    validateRateLimit slowLimits = .ok () ∧
    ∃ s, ((system slowLimits).restrict fun s a => Keeps slowLimits s a).Reachable s ∧
      TokenBucket.spent (admittedAt (clientKey client) s.log) 10 (10 + 0) = 2 ∧
      ¬((2 : Nat) : Rat) ≤ (slowLimits.burst : Rat) + slowLimits.qps * 0 := by
  have hrun : (LTS.exec (fun s a => if Keeps slowLimits s a then step slowLimits s a else none)
      (initial 0) lateReading).map
      (fun s => TokenBucket.spent (admittedAt (clientKey client) s.log) 10 (10 + 0)) = some 2 := by
    decide +kernel
  obtain ⟨s, hexec, hs⟩ := Option.map_eq_some_iff.1 hrun
  exact ⟨rfl, s, LTS.Reachable.run (.init ⟨0, rfl⟩) (.of_exec_restrict hexec), hs, by
    norm_num [slowLimits]⟩

def pairLimits : RateLimitConfig := { qps := 1, burst := 2 }

/-- Two calls overlap: both read the clock before either section runs, and one section is a second
late. -/
def overlapping : List Act := [.read 0 client, .read 1 client, .lock 0, .tick 1, .lock 1]

theorem concurrent_checks_keep_rate_overlapping :
    ∃ s, ((system pairLimits).restrict fun s a =>
        Keeps pairLimits s a ∧ InTime pairLimits (clientKey client) s a).Reachable s ∧
      admittedAt (clientKey client) s.log = [0, 1] ∧
      (TokenBucket.spent (admittedAt (clientKey client) s.log) 0 (0 + 1) : Rat) ≤
        pairLimits.burst + pairLimits.qps * 1 := by
  have hrun : (LTS.exec (fun s a =>
        if Keeps pairLimits s a ∧ InTime pairLimits (clientKey client) s a then step pairLimits s a
        else none) (initial 0) overlapping).map
      (fun s => admittedAt (clientKey client) s.log) = some [0, 1] := by
    decide +kernel
  obtain ⟨s, hexec, hs⟩ := Option.map_eq_some_iff.1 hrun
  have hreach : ((system pairLimits).restrict fun s a =>
      Keeps pairLimits s a ∧ InTime pairLimits (clientKey client) s a).Reachable s :=
    LTS.Reachable.run (.init ⟨0, rfl⟩) (.of_exec_restrict hexec)
  exact ⟨s, hreach, hs, concurrent_checks_keep_rate rfl rfl (clientKey client) hreach (by norm_num)⟩

end RustyDns.L5.Rate
