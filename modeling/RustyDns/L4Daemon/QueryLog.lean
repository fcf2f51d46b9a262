import RustyDns.L1Core.Client
import RustyDns.L4Daemon.Pipeline

/-!
# The query log

`rustydnsd/src/query_log.rs` and `log_query` of `rustydnsd/src/handler.rs`: what a request leaves in
the logs. Every reply is recorded once, in a bounded buffer and, if there is one, in the channel of
the disk writer; for a client with `log_all_queries` it is also written to the service log. The keyed
hash of names is a parameter.

Results:
* `handleRequest_settle`: the response is made of the reply that is logged.
-/

namespace RustyDns.L4.Pipeline

open RustyDns.Lib RustyDns.L1 RustyDns.L3

/-! ## Entries -/

/-- The stored text of a client, at most 48 bytes.
mirrors crates/rustydnsd/src/query_log.rs:119-122 -/
structure AnonymisedClient where
  bytes : List UInt8
  length_le : bytes.length ≤ 48
  deriving DecidableEq

/-- mirrors crates/rustydnsd/src/query_log.rs:126-140 -/
def AnonymisedClient.fromClient (client : ClientId) : AnonymisedClient where
  bytes := client.anonymized.display.asBytes.take 48
  length_le := List.length_take_le 48 _

/-- mirrors crates/rustydnsd/src/query_log.rs:88-112 -/
structure QueryLogEntry where
  timestampUnix : Nat
  clientAnonymised : AnonymisedClient
  qnameHash : UInt64
  qtype : Str
  rcode : UInt8
  servedBy : ServedBy
  deriving DecidableEq

/-- mirrors crates/rustydnsd/src/query_log.rs:66-75 -/
def servedByText : ServedBy → Str
  | .authority => "authority".toList
  | .rewrite => "rewrite".toList
  | .blocklist => "blocklist".toList
  | .resolver => "resolver".toList
  | .serverFailure => "servfail".toList
  | .rejected => "rejected".toList

/-- mirrors crates/rustydnsd/src/query_log.rs:145-147 -/
def AnonymisedClient.asStr (client : AnonymisedClient) : Str :=
  (Str.fromUtf8 client.bytes).getD ['?']

/-- mirrors crates/rustydnsd/src/query_log.rs:177-179 -/
def jsonEscape (s : Str) : Str :=
  let slashed := s.flatMap fun c => if c = '\\' then ['\\', '\\'] else [c]
  slashed.flatMap fun c => if c = '"' then ['\\', '"'] else [c]

/-- mirrors crates/rustydnsd/src/query_log.rs:160-170 -/
def QueryLogEntry.toJson (entry : QueryLogEntry) : Str :=
  "\x7b\"ts\":".toList ++ Nat.toDigits 10 entry.timestampUnix ++
  ",\"client\":\"".toList ++ jsonEscape entry.clientAnonymised.asStr ++
  "\",\"qname_hash\":\"".toList ++ (Nat.toDigits 16 entry.qnameHash.toNat).leftpad 16 '0' ++
  "\",\"qtype\":\"".toList ++ entry.qtype ++
  "\",\"rcode\":".toList ++ Nat.toDigits 10 entry.rcode.toNat ++
  ",\"served_by\":\"".toList ++ servedByText entry.servedBy ++ "\"\x7d".toList

/-- `ResponseCode::low`: the code without the bits that EDNS adds. -/
def lowCode : ResponseCode → UInt8
  | .noError => 0
  | .formErr => 1
  | .servFail => 2
  | .nxDomain => 3
  | .notImp => 4
  | .refused => 5
  | .badVers => 0
  | .other code => .ofNat (code % 16)

/-- The channel to the disk writer: how many more entries it takes, none once it is closed. -/
structure DiskSink where
  room : Nat
  sent : List QueryLogEntry
  dropped : Nat
  deriving DecidableEq

def DiskSink.trySend (sink : DiskSink) (entry : QueryLogEntry) : DiskSink :=
  if 0 < sink.room then { sink with room := sink.room - 1, sent := sink.sent ++ [entry] }
  else { sink with dropped := sink.dropped + 1 }

/-- The buffer of the last entries, oldest first.
mirrors crates/rustydnsd/src/query_log.rs:190-204 -/
structure QueryLog where
  capacity : Nat
  inner : List QueryLogEntry
  bounded : inner.length ≤ capacity
  disk : Option DiskSink
  deriving DecidableEq

/-- A full buffer gives up its oldest entry. -/
def pushEntry (capacity : Nat) (inner : List QueryLogEntry) (entry : QueryLogEntry) :
    List QueryLogEntry :=
  (if inner.length = capacity then inner.tail else inner) ++ [entry]

theorem length_pushEntry {capacity : Nat} {inner : List QueryLogEntry}
    (h : inner.length ≤ capacity) (hpos : capacity ≠ 0) (entry : QueryLogEntry) :
    (pushEntry capacity inner entry).length ≤ capacity := by
  rw [pushEntry, List.length_append, List.length_singleton]
  split
  · rw [List.length_tail]
    omega
  · omega

def QueryLog.push (log : QueryLog) (entry : QueryLogEntry) : QueryLog :=
  if hpos : log.capacity = 0 then log
  else { log with
    inner := pushEntry log.capacity log.inner entry
    bounded := length_pushEntry log.bounded hpos entry }

/-- `record`, at the Unix time `now`.
mirrors crates/rustydnsd/src/query_log.rs:254-296 -/
def QueryLog.record (hashQname : Str → UInt64) (log : QueryLog) (now : Nat) (client : ClientId)
    (qnameLower qtype : Str) (rcode : UInt8) (servedBy : ServedBy) : QueryLog :=
  if log.capacity = 0 ∧ log.disk.isNone then log
  else
    let entry : QueryLogEntry :=
      { timestampUnix := now
        clientAnonymised := .fromClient client
        qnameHash := hashQname qnameLower
        qtype := qtype
        rcode := rcode
        servedBy := servedBy }
    QueryLog.push { log with disk := log.disk.map fun sink => sink.trySend entry } entry

/-! ## What a request logs -/

/-- A line of the service log for a client whose queries are all logged. -/
structure AuditLine where
  client : Str
  qnameHash : UInt64
  qtype : Str
  rcode : UInt8
  servedBy : ServedBy
  deriving DecidableEq

structure Journal where
  queries : QueryLog
  audit : List AuditLine
  deriving DecidableEq

/-- mirrors crates/rustydnsd/src/handler.rs:301-334 -/
def logQuery (hashQname : Str → UInt64) (now : Nat) (policy : PolicyDecision) (client : ClientId)
    (qnameCanon qtype : Str) (code : ResponseCode) (servedBy : ServedBy) (journal : Journal) :
    Journal where
  queries := journal.queries.record hashQname now client qnameCanon qtype (lowCode code) servedBy
  audit :=
    if policy.logAllQueries then
      journal.audit ++ [{ client := client.anonymized.display
                          qnameHash := hashQname qnameCanon
                          qtype := qtype
                          rcode := lowCode code
                          servedBy := servedBy }]
    else journal.audit

namespace DnsHandler

variable {H : Hickory} (S : HickoryServer H) (T : UnicodeTables) (hashQname : Str → UInt64)
  (h : DnsHandler H)

/-- The reply that the pipeline settles on. -/
def settle (clock : Clock) (request : Request H) (ctx : QueryCtx) (limiter : Rate.RateLimiter) :
    Reply H :=
  (Gate.order.findSome? (h.verdict T clock request ctx limiter)).getD
    (h.toDnsHandler.stageResolve T ctx.filtering)

/-- The call of `log_query` that a request makes: `finish`, or the branch for a message that has not
exactly one question.
mirrors crates/rustydnsd/src/handler.rs:952-979 -/
def logRequest (clock : Clock) (request : Request H) (limiter : Rate.RateLimiter)
    (journal : Journal) : Journal :=
  match request.info with
  | none =>
    logQuery hashQname clock.nowUnix (resolvePolicy h.policyByIp clock.nowUnix request.src)
      (.fromIp request.src) [] "?".toList .formErr .rejected journal
  | some query =>
    let ctx := h.queryCtx S clock request query
    let reply := h.settle T clock request ctx limiter
    logQuery hashQname clock.nowUnix ctx.policy (.fromIp ctx.srcIp) ctx.qnameCanon ctx.qtypeLabel
      reply.code reply.servedBy journal

/-- `handle_request` with its logs. -/
def handleLogged (clock : Clock) (request : Request H) : StateM (World × Journal) (Response H) := do
  let (world, journal) ← get
  let (response, next) := h.handleRequest S T clock request world
  set (next, h.logRequest S T hashQname clock request world.limiter journal)
  pure response

/-- Requests handled one after another. -/
def serveLogged (packets : List (Clock × Request H)) :
    StateM (World × Journal) (List (Response H)) :=
  packets.mapM fun p => h.handleLogged S T hashQname p.1 p.2

/-- The response is made of the reply that is logged. -/
theorem handleRequest_settle {h : DnsHandler H} {clock : Clock} {request : Request H}
    {query : Query H} (hone : request.queries = [query]) (w : World) :
    (h.handleRequest S T clock request w).1 =
      finish S request
        (h.settle T clock request (h.queryCtx S clock request query) w.limiter) := by
  simp only [handleRequest_eq hone, settle]
  cases Gate.order.findSome?
      (h.verdict T clock request (h.queryCtx S clock request query) w.limiter) <;> rfl

end DnsHandler

end RustyDns.L4.Pipeline
