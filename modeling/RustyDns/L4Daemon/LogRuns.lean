import Mathlib.Data.List.DropRight
import RustyDns.L4Daemon.QueryLog

/-!
# The query log over a run

What `rustydnsd/src/query_log.rs` holds after any run of requests, and what the `/queries` page of
`rustydnsd/src/metrics.rs` shows of it. The entry of a request is made of the reply that is sent, so
the page is about the responses.

Results:
* `push_inner`: the buffer is the last entries of what went in.
* `queries_page_of_run`: the page after a run.
-/

namespace RustyDns.L4.Pipeline

open RustyDns.Lib RustyDns.L1 RustyDns.L3

/-! ## The page -/

namespace QueryLog

/-- Newest first.
mirrors crates/rustydnsd/src/query_log.rs:302-305 -/
def snapshot (log : QueryLog) : List QueryLogEntry := log.inner.reverse

end QueryLog

/-- `MAX_QUERIES_RENDERED`. -/
def maxQueriesRendered : Nat := 1000

/-- A page with these numbers and entries. -/
def queriesPage (capacity count : Nat) (shown : List QueryLogEntry) : Str :=
  "\x7b\"capacity\":".toList ++ Nat.toDigits 10 capacity ++
  ",\"count\":".toList ++ Nat.toDigits 10 count ++
  ",\"returned\":".toList ++ Nat.toDigits 10 shown.length ++
  ",\"entries\":[".toList ++
  List.intercalate [','] (shown.map QueryLogEntry.toJson) ++ "]\x7d".toList

/-- The body of `/queries`.
mirrors crates/rustydnsd/src/metrics.rs:559-587 -/
def queriesHandler (log : QueryLog) : Str :=
  let entries := log.snapshot
  let rendered := min entries.length maxQueriesRendered
  queriesPage log.capacity entries.length (entries.take rendered)

/-! ## Entries of a run -/

namespace DnsHandler

variable {H : Hickory} (S : HickoryServer H) (T : UnicodeTables) (hashQname : Str → UInt64)
  (h : DnsHandler H)

/-- The entry of a request, in the state of the limiter that it meets. -/
def entryOf (clock : Clock) (request : Request H) (limiter : Rate.RateLimiter) : QueryLogEntry :=
  match request.info with
  | none =>
    { timestampUnix := clock.nowUnix
      clientAnonymised := .fromClient (.fromIp request.src)
      qnameHash := hashQname []
      qtype := "?".toList
      rcode := lowCode .formErr
      servedBy := .rejected }
  | some query =>
    let ctx := h.queryCtx S clock request query
    let reply := h.settle T clock request ctx limiter
    { timestampUnix := clock.nowUnix
      clientAnonymised := .fromClient (.fromIp ctx.srcIp)
      qnameHash := hashQname ctx.qnameCanon
      qtype := ctx.qtypeLabel
      rcode := lowCode reply.code
      servedBy := reply.servedBy }

/-- The entries of a run, each in the world that its request meets. -/
def entriesOf : World → List (Clock × Request H) → List QueryLogEntry
  | _, [] => []
  | world, packet :: packets =>
    h.entryOf S T hashQname packet.1 packet.2 world.limiter ::
      entriesOf (h.handleRequest S T packet.1 packet.2 world).2 packets

end DnsHandler

/-! ## The buffer -/

theorem rtake_of_length_le {α : Type} {l : List α} {n : Nat} (h : l.length ≤ n) :
    l.rtake n = l := by
  rw [List.rtake, Nat.sub_eq_zero_of_le h, List.drop_zero]

/-- What is taken from the end stays the same if more than that is dropped from the front. -/
theorem rtake_append_rtake {α : Type} (l l' : List α) (n : Nat) :
    (l.rtake n ++ l').rtake n = (l ++ l').rtake n := by
  simp only [List.rtake_eq_reverse_take_reverse, List.reverse_append, List.reverse_reverse]
  congr 1
  rw [List.take_append, List.take_append, List.take_take,
    Nat.min_eq_left (Nat.sub_le n _)]

namespace QueryLog

@[simp] theorem push_capacity (log : QueryLog) (entry : QueryLogEntry) :
    (log.push entry).capacity = log.capacity := by
  unfold push
  split <;> rfl

/-- The buffer is the last entries of what went in. -/
theorem push_inner (log : QueryLog) (entry : QueryLogEntry) :
    (log.push entry).inner = (log.inner ++ [entry]).rtake log.capacity := by
  have hbound := log.bounded
  unfold push
  split
  · rename_i hzero
    rw [hzero, Nat.le_zero, List.length_eq_zero_iff] at hbound
    rw [hzero, List.rtake_zero, hbound]
  · rename_i hpos
    obtain ⟨n, hn⟩ := Nat.exists_eq_succ_of_ne_zero hpos
    simp only [pushEntry]
    rw [hn, Nat.succ_eq_add_one, List.rtake_concat_succ]
    congr 1
    split
    · rename_i hfull
      rw [List.rtake, hfull, Nat.add_sub_cancel_left, List.drop_one]
    · rw [rtake_of_length_le (by omega)]

theorem record_inner (hashQname : Str → UInt64) (log : QueryLog) (now : Nat) (client : ClientId)
    (qname qtype : Str) (rcode : UInt8) (servedBy : ServedBy) :
    (log.record hashQname now client qname qtype rcode servedBy).capacity = log.capacity ∧
      (log.record hashQname now client qname qtype rcode servedBy).inner =
        (log.inner ++ [QueryLogEntry.mk now (.fromClient client) (hashQname qname) qtype rcode
          servedBy]).rtake log.capacity := by
  unfold record
  split
  · rename_i hoff
    have hbound := log.bounded
    rw [hoff.1, Nat.le_zero, List.length_eq_zero_iff] at hbound
    rw [hoff.1, List.rtake_zero, hbound]
    exact ⟨rfl, rfl⟩
  · exact ⟨push_capacity _ _, push_inner _ _⟩

end QueryLog

namespace DnsHandler

variable {H : Hickory} (S : HickoryServer H) (T : UnicodeTables) (hashQname : Str → UInt64)
  (h : DnsHandler H)

/-- One request adds its entry. -/
theorem logRequest_inner (clock : Clock) (request : Request H) (limiter : Rate.RateLimiter)
    (journal : Journal) :
    (h.logRequest S T hashQname clock request limiter journal).queries.capacity =
        journal.queries.capacity ∧
      (h.logRequest S T hashQname clock request limiter journal).queries.inner =
        (journal.queries.inner ++ [h.entryOf S T hashQname clock request limiter]).rtake
          journal.queries.capacity := by
  unfold logRequest entryOf
  cases request.info with
  | none => exact QueryLog.record_inner ..
  | some query => exact QueryLog.record_inner ..

/-- The code of the entry is the low part of the code that is sent. -/
theorem entryOf_rcode (clock : Clock) (request : Request H) (world : World) :
    (h.entryOf S T hashQname clock request world.limiter).rcode =
      lowCode (h.handleRequest S T clock request world).1.metadata.responseCode := by
  cases hinfo : request.info with
  | none =>
    simp only [entryOf, handleRequest, hinfo]
    have hcode := finish_responseCode S request
      { code := .formErr, authoritative := false, answers := [], servedBy := .rejected }
    exact (congrArg lowCode hcode).symm
  | some query =>
    rw [handleRequest_settle S T (Request.info_eq_some_iff.1 hinfo), finish_responseCode]
    simp only [entryOf, hinfo]

theorem serveLogged_cons (packet : Clock × Request H) (packets : List (Clock × Request H))
    (state : World × Journal) :
    h.serveLogged S T hashQname (packet :: packets) state =
      ((h.handleLogged S T hashQname packet.1 packet.2 state).1 ::
        (h.serveLogged S T hashQname packets
          (h.handleLogged S T hashQname packet.1 packet.2 state).2).1,
        (h.serveLogged S T hashQname packets
          (h.handleLogged S T hashQname packet.1 packet.2 state).2).2) := by
  rw [serveLogged, List.mapM_cons]
  rfl

@[simp] theorem length_entriesOf (world : World) (packets : List (Clock × Request H)) :
    (h.entriesOf S T hashQname world packets).length = packets.length := by
  induction packets generalizing world with
  | nil => rfl
  | cons packet packets ih => exact congrArg (· + 1) (ih _)

/-- After a run the buffer holds the last entries, and the entries tell the responses. -/
theorem serveLogged_inner (packets : List (Clock × Request H)) (world : World)
    (journal : Journal) :
    (h.serveLogged S T hashQname packets (world, journal)).2.2.queries.capacity =
        journal.queries.capacity ∧
      (h.serveLogged S T hashQname packets (world, journal)).2.2.queries.inner =
        (journal.queries.inner ++ h.entriesOf S T hashQname world packets).rtake
          journal.queries.capacity ∧
      List.Forall₂ (fun response entry => entry.rcode = lowCode response.metadata.responseCode)
        (h.serveLogged S T hashQname packets (world, journal)).1
        (h.entriesOf S T hashQname world packets) := by
  induction packets generalizing world journal with
  | nil =>
    refine ⟨rfl, ?_, .nil⟩
    rw [entriesOf, List.append_nil, rtake_of_length_le journal.queries.bounded]
    rfl
  | cons packet packets ih =>
    obtain ⟨hcap, hinner⟩ :=
      h.logRequest_inner S T hashQname packet.1 packet.2 world.limiter journal
    obtain ⟨hcap', hinner', hcodes⟩ := ih (h.handleRequest S T packet.1 packet.2 world).2
      (h.logRequest S T hashQname packet.1 packet.2 world.limiter journal)
    rw [serveLogged_cons]
    refine ⟨hcap'.trans hcap, ?_, .cons (h.entryOf_rcode S T hashQname _ _ world) hcodes⟩
    refine hinner'.trans ?_
    rw [hcap, hinner, rtake_append_rtake, List.append_assoc]
    rfl

end DnsHandler

/-- **The queries page.** After any run of requests the page shows the newest entries first, one for
each response that was sent, with its code: as many as the buffer holds, at most a thousand, and the
count is that of the buffer. -/
theorem queries_page_of_run (H : Hickory) (S : HickoryServer H) (T : UnicodeTables)
    (hashQname : Str → UInt64) (h : DnsHandler H) (packets : List (Clock × Request H))
    (world : World) (journal : Journal) :
    ∃ entries, List.Forall₂
        (fun response entry => entry.rcode = lowCode response.metadata.responseCode)
        (h.serveLogged S T hashQname packets (world, journal)).1 entries ∧
      queriesHandler (h.serveLogged S T hashQname packets (world, journal)).2.2.queries =
        queriesPage journal.queries.capacity
          (min (journal.queries.inner.length + packets.length) journal.queries.capacity)
          ((journal.queries.inner ++ entries).reverse.take
            (min journal.queries.capacity maxQueriesRendered)) := by
  obtain ⟨hcap, hinner, hcodes⟩ := h.serveLogged_inner S T hashQname packets world journal
  have hshown : (h.serveLogged S T hashQname packets (world, journal)).2.2.queries.snapshot =
      (journal.queries.inner ++ h.entriesOf S T hashQname world packets).reverse.take
        journal.queries.capacity := by
    rw [QueryLog.snapshot, hinner, List.rtake_eq_reverse_take_reverse, List.reverse_reverse]
  refine ⟨_, hcodes, ?_⟩
  simp only [queriesHandler, hcap, hshown, List.take_take, List.length_take, List.length_reverse,
    List.length_append, DnsHandler.length_entriesOf]
  congr 1
  · omega
  · rw [List.take_eq_take_iff, List.length_reverse, List.length_append,
      DnsHandler.length_entriesOf]
    omega

end RustyDns.L4.Pipeline
