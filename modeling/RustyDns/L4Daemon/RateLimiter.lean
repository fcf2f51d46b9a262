import RustyDns.L1Core.Config
import RustyDns.Lib.Table
import RustyDns.Lib.TokenBucket

/-!
# The per-client rate limiter

`rustydnsd/src/rate_limiter.rs`: one token bucket per IPv4 address or IPv6 /64, in a table that
drops idle buckets every now and then and evicts the least recently used one when it is full.

Tokens and times are exact rationals, in seconds; the clock reading is an argument. `check` reads the
clock before it takes the lock, so the locked section (`LimiterState.locked`) is a function of its
own that may run later than its reading. `Instant::duration_since` saturates at zero.

Results:
* `spend_eq`: the end of the locked section is one request to the caller's token bucket.
* `lookup_collect`: what the collection does to a bucket.
-/

namespace RustyDns.L4.Rate

open RustyDns.Lib RustyDns.L1

/-- `GC_INTERVAL`, in seconds. -/
def gcInterval : Rat := 30

/-- `IDLE_THRESHOLD`, in seconds. -/
def idleThreshold : Rat := 300

/-- `Instant::duration_since`. -/
def durationSince (now earlier : Rat) : Rat := max (now - earlier) 0

/-- mirrors crates/rustydnsd/src/rate_limiter.rs:69-81 -/
def bucketKey : IpAddr → IpAddr
  | .v4 a => .v4 a
  | .v6 a => .v6 (Ipv6Addr.ofSegments (a.segments.take 4 ++ [0, 0, 0, 0]))

/-- mirrors crates/rustydnsd/src/rate_limiter.rs:89-97 -/
def normaliseMapped : IpAddr → IpAddr
  | .v6 a =>
    match a.toIpv4Mapped with
    | some v4 => .v4 v4
    | none => .v6 a
  | .v4 a => .v4 a

/-- The bucket a client's checks go to. -/
def clientKey (ip : IpAddr) : IpAddr := bucketKey (normaliseMapped ip)

/-- Clients that the limiter exempts. -/
def exempt (ip : IpAddr) : Bool := (normaliseMapped ip).isLoopback

/-- mirrors crates/rustydnsd/src/rate_limiter.rs:101-108 -/
structure Bucket where
  tokens : Rat
  lastRefill : Rat
  lastUsed : Rat
  deriving DecidableEq, Repr

abbrev Buckets := AList fun _ : IpAddr => Bucket

/-- mirrors crates/rustydnsd/src/rate_limiter.rs:110-113 -/
structure LimiterState where
  buckets : Buckets
  lastGc : Rat

/-- mirrors crates/rustydnsd/src/rate_limiter.rs:120-126 -/
structure RateLimiter where
  state : Option LimiterState
  qps : Rat
  burst : Rat
  maxTracked : Nat

/-- mirrors crates/rustydnsd/src/rate_limiter.rs:130-135 -/
inductive LimitDecision where
  | allow
  | refuse
  deriving DecidableEq, Repr

/-- `new`, at the clock reading `now`.
mirrors crates/rustydnsd/src/rate_limiter.rs:139-154 -/
def RateLimiter.new (cfg : RateLimitConfig) (now : Rat) : RateLimiter where
  state := if cfg.enabled then some { buckets := ∅, lastGc := now } else none
  qps := cfg.qps
  burst := cfg.burst
  maxTracked := cfg.maxTrackedClients

namespace LimiterState

/-- The idle-bucket collection at the start of the locked section.
mirrors crates/rustydnsd/src/rate_limiter.rs:193-198 -/
def collect (now : Rat) (s : LimiterState) : LimiterState :=
  if gcInterval ≤ durationSince now s.lastGc then
    { buckets := Table.retain (fun _ b => durationSince now b.lastUsed < idleThreshold) s.buckets
      lastGc := now }
  else s

/-- `need_evict`. -/
def needEvict (maxTracked : Nat) (key : IpAddr) (s : LimiterState) : Bool :=
  key ∉ s.buckets && decide (maxTracked ≤ s.buckets.entries.length)

/-- The client that a full table gives up.
mirrors crates/rustydnsd/src/rate_limiter.rs:204-213 -/
def victim (maxTracked : Nat) (key : IpAddr) (s : LimiterState) : Option IpAddr :=
  if s.needEvict maxTracked key then Table.minByKey Bucket.lastUsed s.buckets else none

def evict (maxTracked : Nat) (key : IpAddr) (s : LimiterState) : LimiterState :=
  match s.victim maxTracked key with
  | some oldest => { s with buckets := s.buckets.erase oldest }
  | none => s

/-- Refill and take one token, in a new full bucket if the client has none.
mirrors crates/rustydnsd/src/rate_limiter.rs:217-235 -/
def spend (qps burst now : Rat) (key : IpAddr) (s : LimiterState) : LimitDecision × LimiterState :=
  let bucket := (s.buckets.lookup key).getD { tokens := burst, lastRefill := now, lastUsed := now }
  let tokens := min (bucket.tokens + durationSince now bucket.lastRefill * qps) burst
  if 1 ≤ tokens then
    (.allow, { s with buckets := s.buckets.insert key
                        { tokens := tokens - 1, lastRefill := now, lastUsed := now } })
  else
    (.refuse, { s with buckets := s.buckets.insert key { tokens, lastRefill := now, lastUsed := now } })

/-- The locked section of `check`, with the reading `now` from before the lock. -/
def locked (qps burst : Rat) (maxTracked : Nat) (now : Rat) (key : IpAddr) (s : LimiterState) :
    LimitDecision × LimiterState :=
  ((s.collect now).evict maxTracked key).spend qps burst now key

/-- The locked section throws a bucket out of the full table. -/
def evicts (maxTracked : Nat) (now : Rat) (key : IpAddr) (s : LimiterState) : Bool :=
  ((s.collect now).victim maxTracked key).isSome

end LimiterState

/-- `check` as a whole, with nothing between the reading and the lock.
mirrors crates/rustydnsd/src/rate_limiter.rs:164-236 -/
def RateLimiter.check (lim : RateLimiter) (now : Rat) (ip : IpAddr) : LimitDecision × RateLimiter :=
  if exempt ip then (.allow, lim)
  else match lim.state with
    | none => (.allow, lim)
    | some s =>
      let (decision, s) := s.locked lim.qps lim.burst lim.maxTracked now (clientKey ip)
      (decision, { lim with state := some s })

/-! ## The buckets of the table -/

/-- The token bucket of a table entry. -/
def Bucket.core (b : Bucket) : TokenBucket.Bucket Rat := ⟨b.tokens, b.lastRefill⟩

section
variable {qps burst now : Rat} {maxTracked : Nat} {key : IpAddr} {s : LimiterState}

theorem evict_of_not_evicts (h : s.evicts maxTracked now key = false) :
    (s.collect now).evict maxTracked key = s.collect now := by
  unfold LimiterState.evicts at h
  unfold LimiterState.evict
  rw [Option.isSome_eq_false_iff, Option.isNone_iff_eq_none] at h
  rw [h]

/-- The bucket a check is made against: the client's own, or a full one. -/
def LimiterState.current (burst now : Rat) (key : IpAddr) (s : LimiterState) :
    TokenBucket.Bucket Rat :=
  ((s.buckets.lookup key).map Bucket.core).getD ⟨burst, now⟩

/-- The last step is one request to the token bucket. -/
theorem spend_eq : s.spend qps burst now key =
    let (admitted, left) := TokenBucket.take qps burst (s.current burst now key) now
    (if admitted then .allow else .refuse,
      { s with buckets := s.buckets.insert key
                 { tokens := left.tokens, lastRefill := now, lastUsed := now } }) := by
  have hlevel : min (((s.buckets.lookup key).getD
        { tokens := burst, lastRefill := now, lastUsed := now }).tokens +
        durationSince now ((s.buckets.lookup key).getD
          { tokens := burst, lastRefill := now, lastUsed := now }).lastRefill * qps) burst =
      TokenBucket.level qps burst (s.current burst now key) now := by
    unfold LimiterState.current TokenBucket.level durationSince
    cases s.buckets.lookup key <;> rfl
  unfold LimiterState.spend TokenBucket.take
  simp only [hlevel]
  by_cases h : 1 ≤ TokenBucket.level qps burst (s.current burst now key) now
  · simp only [if_pos h, if_true]
  · simp only [if_neg h, Bool.false_eq_true, if_false]

/-- What the collection leaves of a bucket: all of it, unless it is idle. -/
theorem lookup_collect (s : LimiterState) (now : Rat) (k : IpAddr) :
    (s.collect now).buckets.lookup k = s.buckets.lookup k ∨
    ((s.collect now).buckets.lookup k = none ∧
      ∃ b, s.buckets.lookup k = some b ∧ idleThreshold ≤ durationSince now b.lastUsed) := by
  unfold LimiterState.collect
  split
  · rw [Table.lookup_retain]
    cases h : s.buckets.lookup k with
    | none => exact .inl rfl
    | some b =>
      by_cases hidle : durationSince now b.lastUsed < idleThreshold
      · exact .inl (by simp [Option.filter, hidle])
      · exact .inr ⟨by simp [Option.filter, hidle], b, rfl, not_lt.1 hidle⟩
  · exact .inl rfl

/-- With nothing evicted, the locked section is the collection and one request. -/
theorem locked_eq (h : s.evicts maxTracked now key = false) :
    s.locked qps burst maxTracked now key = (s.collect now).spend qps burst now key := by
  rw [LimiterState.locked, evict_of_not_evicts h]

end

end RustyDns.L4.Rate
