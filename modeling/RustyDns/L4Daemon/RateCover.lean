import RustyDns.L4Daemon.Pipeline
import RustyDns.L4Daemon.RateIdeal

/-!
# What the rate limiter covers

`handle_request` asks the limiter first, but only once it has found the question of a message. A
message that has not exactly one question is answered with FORMERR before that, and costs no token.
A request is one step here: its reply counts at the clock reading of the request.

Results:
* `answeredTimes_sublist`: over messages with one question, only what the limiter admitted gets a
  reply other than REFUSED.
* `rate_limit_covers_iff`: the bound on replies holds for a class of messages exactly if all of them
  have one question.
-/

namespace RustyDns.L4.Pipeline

open RustyDns.Lib RustyDns.L1 RustyDns.L3
open RustyDns.L4.Rate

namespace DnsHandler

variable {H : Hickory} (S : HickoryServer H) (T : UnicodeTables) (h : DnsHandler H)

/-- Requests handled one after another. -/
def serve (packets : List (Clock × Request H)) : StateM World (List (Response H)) :=
  packets.mapM fun p => h.handleRequest S T p.1 p.2

/-- The times of the messages that got a reply other than REFUSED. -/
def answeredTimes (packets : List (Clock × Request H)) (w : World) : List Rat :=
  ((packets.zip (h.serve S T packets w).1).filter fun p =>
    p.2.metadata.responseCode ≠ .refused).map fun p => p.1.1.instant

/-- The checks of the limiter that messages ask for. -/
def checksOf (packets : List (Clock × Request H)) : List Check :=
  (packets.filter fun p => p.2.info.isSome).map fun p => ⟨p.1.instant, p.2.src⟩

/-- Messages of the class `P` from one client that is not loopback, in order of time from `start`
on, and the table of the limiter never overflows. -/
structure Traffic (P : Request H → Prop) (k : IpAddr) (limiter : RateLimiter) (start : Rat)
    (packets : List (Clock × Request H)) : Prop where
  shape : ∀ p ∈ packets, P p.2
  client : ∀ p ∈ packets, clientKey p.2.src = k ∧ exempt p.2.src = false
  ordered : (start :: packets.map fun p => p.1.instant).Pairwise (· ≤ ·)
  roomy : NoEviction limiter (checksOf packets)

/-! ## One message -/

section
variable {S T h} {clock : Clock} {request : Request H}

/-- A message with one question is checked once. -/
theorem limiter_handleRequest {query : Query H} (hinfo : request.info = some query) (w : World) :
    (h.handleRequest S T clock request w).2.limiter =
      (w.limiter.check clock.instant request.src).2 := by
  simp only [handleRequest_eq (Request.info_eq_some_iff.1 hinfo)]
  split <;> rfl

/-- If the limiter does not admit it, the reply is REFUSED. -/
theorem admitted_of_code {query : Query H} (hinfo : request.info = some query) {w : World}
    (hcode : (h.handleRequest S T clock request w).1.metadata.responseCode ≠ .refused) :
    (w.limiter.check clock.instant request.src).1 = .allow := by
  cases hcheck : (w.limiter.check clock.instant request.src).1 with
  | allow => rfl
  | refuse =>
    refine absurd ?_ hcode
    have hfirst : Gate.order.findSome? (h.verdict T clock request
        (h.queryCtx S clock request query) w.limiter) = some (reject .refused) := by
      have hsrc : (h.queryCtx S clock request query).srcIp = request.src := rfl
      rw [Gate.order, Gate.upToAuthority, List.cons_append, Fold.findSome_cons]
      simp only [verdict, hsrc, hcheck, if_true, Option.some_or]
    simp only [handleRequest_eq (Request.info_eq_some_iff.1 hinfo), hfirst, finish_responseCode]
    rfl

end

/-! ## Runs -/

theorem serve_cons (p : Clock × Request H) (ps : List (Clock × Request H)) (w : World) :
    (h.serve S T (p :: ps) w).1 =
      (h.handleRequest S T p.1 p.2 w).1 ::
        (h.serve S T ps (h.handleRequest S T p.1 p.2 w).2).1 := by
  unfold serve
  rw [List.mapM_cons]
  rfl

theorem answeredTimes_cons (p : Clock × Request H) (ps : List (Clock × Request H)) (w : World) :
    h.answeredTimes S T (p :: ps) w =
      (if (h.handleRequest S T p.1 p.2 w).1.metadata.responseCode ≠ .refused then [p.1.instant]
        else []) ++ h.answeredTimes S T ps (h.handleRequest S T p.1 p.2 w).2 := by
  unfold answeredTimes
  rw [serve_cons, List.zip_cons_cons, List.filter_cons]
  split <;> simp_all

section
variable {S T h} {k : IpAddr}

theorem checksOf_cons_of_some {p : Clock × Request H} {query : Query H}
    (hinfo : p.2.info = some query) (ps : List (Clock × Request H)) :
    checksOf (p :: ps) = ⟨p.1.instant, p.2.src⟩ :: checksOf ps := by
  simp [checksOf, hinfo]

/-- Over messages with one question, what gets a reply other than REFUSED was admitted. -/
theorem answeredTimes_sublist {packets : List (Clock × Request H)}
    (hone : ∀ p ∈ packets, ∃ query, p.2.info = some query)
    (hclient : ∀ p ∈ packets, clientKey p.2.src = k) (w : World) :
    (h.answeredTimes S T packets w).Sublist
      (admittedTimes k (outcomes w.limiter (checksOf packets))) := by
  induction packets generalizing w with
  | nil => exact .slnil
  | cons p ps ih =>
    obtain ⟨⟨query, hquery⟩, hps⟩ := List.forall_mem_cons.1 hone
    obtain ⟨hk, hclients⟩ := List.forall_mem_cons.1 hclient
    have hlimiter : (h.handleRequest S T p.1 p.2 w).2.limiter =
        (w.limiter.check p.1.instant p.2.src).2 := limiter_handleRequest hquery w
    rw [answeredTimes_cons, checksOf_cons_of_some hquery, outcomes, admittedTimes_cons, ← hlimiter]
    refine List.Sublist.append ?_ (ih hps hclients _)
    split
    · rename_i hcode
      have hadmitted := admitted_of_code hquery hcode
      simp [admittedTimes, Check.key, hk, hadmitted]
    · exact List.nil_sublist _

/-- A message without one question is answered, whatever came before. -/
theorem answeredTimes_replicate {request : Request H} (hinfo : request.info = none) (clock : Clock)
    (n : Nat) (w : World) :
    h.answeredTimes S T (List.replicate n (clock, request)) w = List.replicate n clock.instant := by
  induction n with
  | zero => rfl
  | succ n ih =>
    have hcode : (respond S request .formErr false []).metadata.responseCode ≠ .refused := by
      have hform : (respond S request .formErr false []).metadata.responseCode = .formErr :=
        finish_responseCode S request (reject .formErr)
      rw [hform]
      decide
    rw [List.replicate_succ, answeredTimes_cons, handleRequest_of_none hinfo, if_pos hcode, ih]
    rfl

theorem checksOf_of_one {packets : List (Clock × Request H)}
    (hone : ∀ p ∈ packets, ∃ query, p.2.info = some query) :
    checksOf packets = packets.map fun p => ⟨p.1.instant, p.2.src⟩ := by
  unfold checksOf
  rw [List.filter_eq_self.2]
  intro p hp
  obtain ⟨query, hquery⟩ := hone p hp
  rw [hquery]
  rfl

/-- Traffic of messages with one question is a run the limiter is built for. -/
theorem Traffic.admissible {P : Request H → Prop} {limiter : RateLimiter} {start : Rat}
    {packets : List (Clock × Request H)} (htraffic : Traffic P k limiter start packets)
    (hone : ∀ p ∈ packets, ∃ query, p.2.info = some query) :
    Admissible limiter start (checksOf packets) := by
  refine ⟨?_, ?_, htraffic.roomy⟩
  · rw [checksOf_of_one hone, List.map_map]
    exact htraffic.ordered
  · intro c hc
    rw [checksOf_of_one hone] at hc
    obtain ⟨p, hp, rfl⟩ := List.mem_map.1 hc
    exact (htraffic.client p hp).2

/-- One message sent over and over is traffic, if it is not checked. -/
theorem traffic_replicate {P : Request H → Prop} {request : Request H} (hP : P request)
    (hforeign : exempt request.src = false) (hinfo : request.info = none) (limiter : RateLimiter)
    (start : Rat) (n : Nat) :
    Traffic P (clientKey request.src) limiter start (List.replicate n (⟨start, 0⟩, request)) where
  shape := by
    intro p hp
    rwa [List.eq_of_mem_replicate hp]
  client := by
    intro p hp
    rw [List.eq_of_mem_replicate hp]
    exact ⟨rfl, hforeign⟩
  ordered := by
    rw [List.map_replicate, ← List.replicate_succ]
    exact List.pairwise_replicate_of_refl
  roomy := by
    have hnone : checksOf (List.replicate n ((⟨start, 0⟩ : Clock), request)) = [] := by
      simp [checksOf, hinfo]
    rw [hnone]
    trivial

end

end DnsHandler

open RustyDns.L4.Pipeline.DnsHandler in
/-- **The limiter covers exactly the messages with one question.** For every class of messages: no
window of `T` seconds has more than `burst + qps * T` replies other than REFUSED, over all traffic of
the class from one client, exactly if every message of the class from that client has one question. -/
theorem rate_limit_covers_iff {H : Hickory} (S : HickoryServer H) (T : UnicodeTables)
    (h : DnsHandler H) (P : Request H → Prop) (k : IpAddr) {qps burst : Nat} (maxTracked : Nat)
    (hfill : burst ≤ 300 * qps) (start : Rat) (resolved : List (Str × Str)) :
    (∀ packets,
      Traffic P k (RateLimiter.new (limits qps burst maxTracked) start) start packets →
      ∀ a d, 0 ≤ d →
        (TokenBucket.spent (h.answeredTimes S T packets
          { limiter := RateLimiter.new (limits qps burst maxTracked) start, resolved }) a (a + d) :
            Rat) ≤ burst + qps * d) ↔
      ∀ request, P request → clientKey request.src = k → exempt request.src = false →
        request.queries.length = 1 := by
  constructor
  · rintro hbound request hP rfl hforeign
    rw [← Request.exists_info_iff]
    cases hinfo : request.info with
    | some query => exact ⟨query, rfl⟩
    | none =>
      -- one more than the burst, all at once
      have hwindow := hbound _ (traffic_replicate hP hforeign hinfo _ start (burst + 1)) start 0 le_rfl
      rw [answeredTimes_replicate hinfo, TokenBucket.spent, List.countP_replicate,
        if_pos (by simp), mul_zero, add_zero] at hwindow
      have hle : burst + 1 ≤ burst := by exact_mod_cast hwindow
      omega
  · intro hone packets htraffic a d hd
    have hinfo : ∀ p ∈ packets, ∃ query, p.2.info = some query := by
      intro p hp
      obtain ⟨hk, hforeign⟩ := htraffic.client p hp
      exact Request.exists_info_iff.2 (hone p.2 (htraffic.shape p hp) hk hforeign)
    have hqps : (0 : Rat) ≤ qps := Nat.cast_nonneg qps
    have hburst : (0 : Rat) ≤ burst := Nat.cast_nonneg burst
    have hidle : (burst : Rat) ≤ idleThreshold * qps := by
      unfold idleThreshold
      exact_mod_cast hfill
    have hadm := htraffic.admissible hinfo
    have hideal : outcomes (RateLimiter.new (limits qps burst maxTracked) start) (checksOf packets) =
        idealOutcomes qps burst start [] (checksOf packets) :=
      outcomes_eq_ideal hqps hburst hidle (agrees_empty hqps hburst start) hadm
    have hsub : (h.answeredTimes S T packets
        { limiter := RateLimiter.new (limits qps burst maxTracked) start, resolved }).Sublist
          (admittedTimes k (idealOutcomes qps burst start [] (checksOf packets))) := by
      rw [← hideal]
      exact answeredTimes_sublist hinfo (fun p hp => (htraffic.client p hp).1) _
    have hcount : (TokenBucket.spent (h.answeredTimes S T packets
        { limiter := RateLimiter.new (limits qps burst maxTracked) start, resolved }) a (a + d) :
          Rat) ≤ TokenBucket.spent
            (admittedTimes k (idealOutcomes qps burst start [] (checksOf packets))) a (a + d) := by
      exact_mod_cast hsub.countP_le
    exact hcount.trans (window_ideal hqps hburst hadm.ordered k hd)

/-- A message with two questions. -/
def doubleRequest : Request textNames :=
  { plainRequest none with queries := (plainRequest none).queries ++ (plainRequest none).queries }

open RustyDns.L4.Pipeline.DnsHandler in
/-- Four of them are answered at one moment, with a burst of two. -/
theorem double_questions_unlimited :
    let limiter := RateLimiter.new (limits 1 2 10) 0
    let packets := List.replicate 4 ((⟨0, 0⟩ : Clock), doubleRequest)
    Traffic (fun _ => True) (clientKey doubleRequest.src) limiter 0 packets ∧
      TokenBucket.spent (openHandler.answeredTimes plainServer .asciiOnly packets
        { limiter, resolved := [] }) 0 (0 + 0) = 4 ∧
      ¬((4 : Nat) : Rat) ≤ (2 : Nat) + (1 : Nat) * 0 := by
  intro limiter packets
  refine ⟨traffic_replicate trivial (by decide) rfl limiter 0 4, ?_, by norm_num⟩
  rw [answeredTimes_replicate rfl, TokenBucket.spent, List.countP_replicate, if_pos (by simp)]

open RustyDns.L4.Pipeline.DnsHandler in
/-- The same with one question: at most two of the four are answered. -/
theorem rate_limit_covers_iff_plain :
    let limiter := RateLimiter.new (limits 1 2 10) 0
    let packets := List.replicate 4 ((⟨0, 0⟩ : Clock), plainRequest none)
    Traffic (fun request => request = plainRequest none) (clientKey (plainRequest none).src) limiter 0
        packets ∧
      (TokenBucket.spent (openHandler.answeredTimes plainServer .asciiOnly packets
        { limiter, resolved := [] }) 0 (0 + 0) : Rat) ≤ (2 : Nat) + (1 : Nat) * 0 := by
  intro limiter packets
  have hroomy : NoEviction limiter (checksOf packets) := by
    refine ⟨?_, ?_, ?_, ?_, trivial⟩ <;> decide +kernel
  have htraffic : Traffic (fun request => request = plainRequest none)
      (clientKey (plainRequest none).src) limiter 0 packets := by
    refine ⟨?_, ?_, ?_, hroomy⟩
    · intro p hp
      rw [List.eq_of_mem_replicate hp]
    · intro p hp
      rw [List.eq_of_mem_replicate hp]
      exact ⟨rfl, by decide⟩
    · exact List.pairwise_replicate_of_refl (n := 5)
  have hbound := (rate_limit_covers_iff plainServer .asciiOnly openHandler
    (fun request => request = plainRequest none) (clientKey (plainRequest none).src) 10
    (by decide : 2 ≤ 300 * 1) 0 []).2 (by rintro request rfl - -; rfl)
  exact ⟨htraffic, hbound packets htraffic 0 0 le_rfl⟩

end RustyDns.L4.Pipeline
