import RustyDns.L4Daemon.LogRuns

/-!
# Counters

The counters that `rustydnsd/src/handler.rs` increments on the way of a request, over the pipeline of
`Pipeline`. A counter is the number of its increments; a counter with labels is one for each label.

Results:
* `replyCounted_marks`: what one query adds to the counters, by who answers it; the reply stays.
* `counters_match_query_log`: the counters after a run, from the log entries and the responses.
-/

namespace RustyDns.L4.Pipeline

open RustyDns.Lib RustyDns.L1 RustyDns.L3

/-- mirrors crates/rustydnsd/src/metrics.rs:287-428 -/
inductive Counter where
  | queries
  | queryQtype (label : Str)
  | responseRcode (label : Str)
  | authorityHits
  | rewriteHits
  | blocklistHits
  | blocklistCnameCloakingBlocked
  | blocklistResponseIpBlocked
  | resolverQueries
  | resolverFailures
  | policyBlocklistBypass
  | policyZoneDenied
  | policyScheduleBlocked
  | policyRateLimited
  | policyRefusedAny
  | privateRdataDropped
  deriving DecidableEq, Repr

/-- The increments so far. -/
abbrev Counting := StateM (List Counter)

def inc (c : Counter) : Counting Unit := modify (· ++ [c])

def incBy (c : Counter) (n : Nat) : Counting Unit := modify (· ++ List.replicate n c)

/-- mirrors crates/rustydnsd/src/handler.rs:1057-1069 -/
def rcodeMetricLabel : ResponseCode → Str
  | .noError => "NOERROR".toList
  | .formErr => "FORMERR".toList
  | .servFail => "SERVFAIL".toList
  | .nxDomain => "NXDOMAIN".toList
  | .notImp => "NOTIMP".toList
  | .refused => "REFUSED".toList
  | .badVers => "BADVERS".toList
  | .other _ => "other".toList

/-! ## The pipeline with its counters -/

section
variable {H : Hickory}

/-- `or_else`: the second gate runs only if the first lets the query pass. -/
def orElse (x y : Counting (Option (Reply H))) : Counting (Option (Reply H)) := do
  match ← x with
  | some reply => pure (some reply)
  | none => y

/-- A gate that counts the queries it answers. -/
def counting (c : Counter) (verdict : Option (Reply H)) : Counting (Option (Reply H)) := do
  if verdict.isSome then inc c
  pure verdict

/-- ANY has a counter, zone transfers have none. -/
def countAnyQtype (ctx : QueryCtx) : Counting (Option (Reply H)) := do
  if ctx.qtype = .any then inc .policyRefusedAny
  pure (gateAnyQtype ctx)

namespace DnsHandler

variable (S : HickoryServer H) (T : UnicodeTables) (h : DnsHandler H)

/-- A bypass is counted when it lets a blocked name pass. -/
def countBlocklist (ctx : QueryCtx) : Counting (Option (Reply H)) := do
  if ctx.policy.blocklistBypass &&
      h.blocklist.isBlockedForGroup T ctx.qnameCanon ctx.policy.blocklistGroup then
    inc .policyBlocklistBypass
  counting .blocklistHits (h.toDnsHandler.gateBlocklist T ctx.filtering)

def countResolve (ctx : QueryCtx) : Counting (Reply H) := do
  inc .resolverQueries
  match h.resolver.resolve T ctx.qname ctx.qtypeLabel with
  | .ok out =>
    incBy .privateRdataDropped out.privateRdataDropped
    if h.blocklist.config.blockCnameCloaking && !ctx.policy.blocklistBypass &&
        h.toDnsHandler.cnameChainBlocked T out.records ctx.policy.blocklistGroup then
      inc .blocklistHits
      inc .blocklistCnameCloakingBlocked
      pure (h.toDnsHandler.blockReply ctx.filtering)
    else if !h.blocklist.responseIpDenylist.isEmpty && !ctx.policy.blocklistBypass &&
        h.toDnsHandler.responseIpBlocked out.records then
      inc .blocklistHits
      inc .blocklistResponseIpBlocked
      pure (h.toDnsHandler.blockReply ctx.filtering)
    else
      let answers := dnsRecordsToRrs H out.records
      pure
        { code := if out.nxdomain && answers.isEmpty then .nxDomain else .noError
          authoritative := false
          answers := answers
          servedBy := .resolver }
  | .error _ =>
    inc .resolverFailures
    pure { code := .servFail, authoritative := false, answers := [], servedBy := .serverFailure }

/-- The gates before a query is logged as received, in the state of the limiter that it meets. -/
def earlyGates (clock : Clock) (request : Request H) (ctx : QueryCtx)
    (limiter : Rate.RateLimiter) : Counting (Option (Reply H)) :=
  orElse (counting .policyRateLimited (h.verdict T clock request ctx limiter .rateLimit))
    (orElse (pure (gateOpcode request)) (orElse (pure (gateEdnsVersion request))
      (orElse (countAnyQtype ctx) (pure (gateClass ctx)))))

def lateGates (ctx : QueryCtx) : Counting (Option (Reply H)) :=
  orElse (counting .policyScheduleBlocked (gateSchedule ctx))
    (orElse (counting .policyZoneDenied (gateZones ctx))
      (orElse (counting .authorityHits (h.gateAuthority ctx))
        (orElse (counting .rewriteHits (h.gateRewrite T ctx)) (h.countBlocklist T ctx))))

def replyCounted (clock : Clock) (request : Request H) (ctx : QueryCtx)
    (limiter : Rate.RateLimiter) : Counting (Reply H) := do
  match ← h.earlyGates T clock request ctx limiter with
  | some reply => pure reply
  | none =>
    match ← h.lateGates T ctx with
    | some reply => pure reply
    | none => h.countResolve T ctx

/-- The counters of a request: those of its query, and the code in `respond`.
mirrors crates/rustydnsd/src/handler.rs:944-1045 -/
def countRequest (clock : Clock) (request : Request H) (limiter : Rate.RateLimiter) :
    Counting Unit := do
  match request.info with
  | none => inc (.responseRcode (rcodeMetricLabel .formErr))
  | some query =>
    let ctx := h.queryCtx S clock request query
    inc .queries
    inc (.queryQtype ctx.qtypeLabel)
    let reply ← h.replyCounted T clock request ctx limiter
    inc (.responseRcode (rcodeMetricLabel reply.code))

/-- The increments of a run, each request in the world that it meets. -/
def countRun : World → List (Clock × Request H) → Counting Unit
  | _, [] => pure ()
  | world, packet :: packets => do
    h.countRequest S T packet.1 packet.2 world.limiter
    countRun (h.handleRequest S T packet.1 packet.2 world).2 packets

end DnsHandler

end

/-! ## What a gate adds -/

/-- A step that settles on a value and adds these increments, whatever was counted before. -/
def Adds {α : Type} (x : Counting α) (a : α) (marks : List Counter) : Prop :=
  ∀ ticks, x ticks = (a, ticks ++ marks)

theorem Adds.bind {α β : Type} {x : Counting α} {f : α → Counting β} {a : α} {b : β}
    {marks marks' : List Counter} (hx : Adds x a marks) (hf : Adds (f a) b marks') :
    Adds (x >>= f) b (marks ++ marks') := by
  intro ticks
  change f (x ticks).1 (x ticks).2 = _
  rw [hx ticks, hf, List.append_assoc]

theorem Adds.pure {α : Type} (a : α) : Adds (pure a : Counting α) a [] := by
  intro ticks
  rw [List.append_nil]
  rfl

theorem adds_inc (c : Counter) : Adds (inc c) () [c] := fun _ => rfl

theorem adds_incBy (c : Counter) (n : Nat) : Adds (incBy c n) () (List.replicate n c) := fun _ => rfl

/-- One if the query was answered from there. -/
def hit (answered : Option ServedBy) (source : ServedBy) : Nat :=
  if answered = some source then 1 else 0

@[simp] theorem hit_none (source : ServedBy) : hit none source = 0 := rfl

@[simp] theorem hit_some (s source : ServedBy) :
    hit (some s) source = if s = source then 1 else 0 := by
  simp [hit]

/-- The increments of stages that answered a query, or passed it on. -/
structure Marks (answered : Option ServedBy) (marks : List Counter) : Prop where
  queries : marks.count .queries = 0
  qtypes : ∀ label, marks.count (.queryQtype label) = 0
  rcodes : ∀ label, marks.count (.responseRcode label) = 0
  authority : marks.count .authorityHits = hit answered .authority
  rewrite : marks.count .rewriteHits = hit answered .rewrite
  blocklist : marks.count .blocklistHits = hit answered .blocklist
  failures : marks.count .resolverFailures = hit answered .serverFailure
  resolver : marks.count .resolverQueries = hit answered .resolver + hit answered .serverFailure +
    (marks.count .blocklistCnameCloakingBlocked + marks.count .blocklistResponseIpBlocked)
  filtered : marks.count .blocklistCnameCloakingBlocked +
    marks.count .blocklistResponseIpBlocked ≤ hit answered .blocklist
  rejected : marks.count .policyRateLimited + marks.count .policyScheduleBlocked +
    marks.count .policyZoneDenied + marks.count .policyRefusedAny ≤ hit answered .rejected

/-- Stages that pass a query on add nothing to these counters. -/
theorem Marks.append {answered : Option ServedBy} {marks marks' : List Counter}
    (h : Marks none marks) (h' : Marks answered marks') : Marks answered (marks ++ marks') where
  queries := by simp [h.queries, h'.queries]
  qtypes := by simp [h.qtypes, h'.qtypes]
  rcodes := by simp [h.rcodes, h'.rcodes]
  authority := by simp [h.authority, h'.authority]
  rewrite := by simp [h.rewrite, h'.rewrite]
  blocklist := by simp [h.blocklist, h'.blocklist]
  failures := by simp [h.failures, h'.failures]
  resolver := by
    have := h.resolver
    have := h'.resolver
    simp only [hit_none, List.count_append] at *
    omega
  filtered := by
    have := h.filtered
    have := h'.filtered
    simp only [hit_none, List.count_append] at *
    omega
  rejected := by
    have := h.rejected
    have := h'.rejected
    simp only [hit_none, List.count_append] at *
    omega

/-- A gate with its verdict: it does not ask the resolver. -/
def IsGate {H : Hickory} (x : Counting (Option (Reply H))) (verdict : Option (Reply H)) : Prop :=
  ∃ marks, Adds x verdict marks ∧ Marks (verdict.map Reply.servedBy) marks ∧
    marks.count .resolverQueries = 0

section
variable {H : Hickory} {x y : Counting (Option (Reply H))} {v w : Option (Reply H)}

theorem IsGate.orElse (hx : IsGate x v) (hy : IsGate y w) : IsGate (orElse x y) (v.or w) := by
  obtain ⟨marks, hadds, hmarks, hresolver⟩ := hx
  cases v with
  | some reply =>
    refine ⟨marks ++ [], hadds.bind (Adds.pure _), ?_, ?_⟩
    · rw [List.append_nil]
      exact hmarks
    · rw [List.append_nil, hresolver]
  | none =>
    obtain ⟨marks', hadds', hmarks', hresolver'⟩ := hy
    refine ⟨marks ++ marks', hadds.bind hadds', ?_, ?_⟩
    · rw [Option.none_or]
      exact hmarks.append hmarks'
    · rw [List.count_append, hresolver, hresolver']

theorem marks_nil_none : Marks none [] := by
  constructor <;> simp

theorem marks_nil_rejected : Marks (some .rejected) [] := by
  constructor <;> simp

/-- A gate without a counter. -/
theorem isGate_pure (hv : ∀ reply, v = some reply → reply.servedBy = .rejected) :
    IsGate (pure v) v := by
  refine ⟨[], Adds.pure v, ?_, rfl⟩
  cases v with
  | none => exact marks_nil_none
  | some reply =>
    rw [Option.map_some, hv reply rfl]
    exact marks_nil_rejected

theorem adds_counting (c : Counter) (v : Option (Reply H)) :
    Adds (counting c v) v (if v.isSome then [c] else []) := by
  cases v with
  | none => exact Adds.pure none
  | some reply => exact (adds_inc c).bind (Adds.pure (some reply))

/-- A gate with a counter of its own. -/
theorem isGate_counting {c : Counter} {source : ServedBy}
    (hv : ∀ reply, v = some reply → reply.servedBy = source)
    (hc : Marks (some source) [c]) (hresolver : c ≠ .resolverQueries) :
    IsGate (counting c v) v := by
  refine ⟨_, adds_counting c v, ?_, ?_⟩
  · cases v with
    | none => exact marks_nil_none
    | some reply =>
      rw [Option.map_some, hv reply rfl]
      exact hc
  · cases v with
    | none => rfl
    | some reply => exact List.count_eq_zero.2 (by simpa using hresolver.symm)

theorem reject_servedBy {code : ResponseCode} {reply : Reply H}
    (h : some (reject code) = some reply) : reply.servedBy = .rejected := by
  cases h
  rfl

theorem isGate_anyQtype {ctx : QueryCtx}
    (hv : ∀ reply : Reply H, gateAnyQtype ctx = some reply → reply.servedBy = .rejected) :
    IsGate (countAnyQtype ctx) (gateAnyQtype ctx : Option (Reply H)) := by
  by_cases hany : ctx.qtype = .any
  · refine ⟨[.policyRefusedAny], ?_, ?_, rfl⟩
    · have hcount : countAnyQtype (H := H) ctx =
          (do inc .policyRefusedAny; pure (gateAnyQtype ctx)) := by
        simp [countAnyQtype, hany]
      rw [hcount]
      exact (adds_inc _).bind (Adds.pure _)
    · have hreject : (gateAnyQtype ctx : Option (Reply H)) = some (reject .refused) := by
        simp [gateAnyQtype, hany]
      rw [hreject]
      constructor <;> simp [reject]
  · have hcount : countAnyQtype (H := H) ctx = pure (gateAnyQtype ctx) := by
      simp [countAnyQtype, hany]
    rw [hcount]
    exact isGate_pure hv

/-- Who an answer of the gate comes from. -/
def Gate.source : Gate → ServedBy
  | .authority => .authority
  | .rewrite => .rewrite
  | .blocklist => .blocklist
  | _ => .rejected

namespace DnsHandler

variable {T : UnicodeTables} {h : DnsHandler H}

theorem verdict_source {clock : Clock} {request : Request H} {ctx : QueryCtx}
    {limiter : Rate.RateLimiter} (g : Gate) (reply : Reply H)
    (hv : h.verdict T clock request ctx limiter g = some reply) : reply.servedBy = g.source := by
  cases g with
  | authority =>
    simp only [verdict, gateAuthority, Option.bind_eq_bind, Option.bind_eq_some_iff] at hv
    obtain ⟨records, -, hreply⟩ := hv
    cases hreply
    rfl
  | rewrite =>
    simp only [verdict, gateRewrite, Option.bind_eq_bind, Option.bind_eq_some_iff] at hv
    obtain ⟨decision, -, hreply⟩ := hv
    cases hreply
    rfl
  | blocklist =>
    simp only [verdict, L4.DnsHandler.gateBlocklist] at hv
    split at hv
    · cases hv
      rfl
    · cases hv
  | rateLimit | opcode | ednsVersion | anyQtype | qclass | schedule | zones =>
    -- these only refuse
    simp only [verdict, gateOpcode, gateEdnsVersion, gateAnyQtype, gateClass, gateSchedule,
      gateZones] at hv
    repeat' split at hv
    all_goals first | exact reject_servedBy hv | cases hv

theorem isGate_blocklist {ctx : QueryCtx} (hv : ∀ reply : Reply H,
      h.toDnsHandler.gateBlocklist T ctx.filtering = some reply → reply.servedBy = .blocklist) :
    IsGate (h.countBlocklist T ctx) (h.toDnsHandler.gateBlocklist T ctx.filtering) := by
  obtain ⟨marks, hadds, hmarks, hresolver⟩ :=
    isGate_counting (c := .blocklistHits) hv (by constructor <;> simp) (by simp)
  unfold countBlocklist
  split
  · refine ⟨[.policyBlocklistBypass] ++ marks, (adds_inc _).bind hadds, ?_, ?_⟩
    · refine Marks.append ?_ hmarks
      constructor <;> simp
    · rw [List.count_append, hresolver]
      rfl
  · exact ⟨marks, hadds, hmarks, hresolver⟩

/-- The last stage: one query of the resolver, and what became of it. -/
theorem countResolve_marks (ctx : QueryCtx) :
    ∃ marks, Adds (h.countResolve T ctx) (h.toDnsHandler.stageResolve T ctx.filtering) marks ∧
      Marks (some (h.toDnsHandler.stageResolve T ctx.filtering).servedBy) marks ∧
      marks.count .resolverQueries = 1 := by
  have hask := adds_inc .resolverQueries
  unfold countResolve L4.DnsHandler.stageResolve
  simp only [QueryCtx.filtering]
  cases h.resolver.resolve T ctx.qname ctx.qtypeLabel with
  | error e =>
    refine ⟨_, hask.bind ((adds_inc .resolverFailures).bind (Adds.pure _)), ?_, ?_⟩
    · constructor <;> simp
    · simp
  | ok out =>
    have hdropped := adds_incBy .privateRdataDropped out.privateRdataDropped
    cases hcloak : (h.blocklist.config.blockCnameCloaking && !ctx.policy.blocklistBypass &&
        h.toDnsHandler.cnameChainBlocked T out.records ctx.policy.blocklistGroup) with
    | true =>
      simp only [hcloak, if_true]
      refine ⟨_, hask.bind (hdropped.bind ((adds_inc .blocklistHits).bind
        ((adds_inc .blocklistCnameCloakingBlocked).bind (Adds.pure _)))), ?_, ?_⟩
      · constructor <;> simp [L4.DnsHandler.blockReply, List.count_replicate]
      · simp [List.count_replicate]
    | false =>
      cases hip : (!h.blocklist.responseIpDenylist.isEmpty && !ctx.policy.blocklistBypass &&
          h.toDnsHandler.responseIpBlocked out.records) with
      | true =>
        simp only [hcloak, hip, Bool.false_eq_true, if_true, if_false]
        refine ⟨_, hask.bind (hdropped.bind ((adds_inc .blocklistHits).bind
          ((adds_inc .blocklistResponseIpBlocked).bind (Adds.pure _)))), ?_, ?_⟩
        · constructor <;> simp [L4.DnsHandler.blockReply, List.count_replicate]
        · simp [List.count_replicate]
      | false =>
        simp only [hcloak, hip, Bool.false_eq_true, if_false]
        refine ⟨_, hask.bind (hdropped.bind (Adds.pure _)), ?_, ?_⟩
        · constructor <;> simp [List.count_replicate]
        · simp [List.count_replicate]

section
variable (T : UnicodeTables) (h : DnsHandler H)

theorem isGate_early (clock : Clock) (request : Request H) (ctx : QueryCtx)
    (limiter : Rate.RateLimiter) :
    let v := h.verdict T clock request ctx limiter
    IsGate (h.earlyGates T clock request ctx limiter)
      ((v .rateLimit).or ((v .opcode).or ((v .ednsVersion).or ((v .anyQtype).or (v .qclass))))) := by
  intro v
  have hv : ∀ g reply, v g = some reply → reply.servedBy = g.source := verdict_source
  refine IsGate.orElse ?_ (.orElse ?_ (.orElse ?_ (.orElse ?_ ?_)))
  · exact isGate_counting (hv .rateLimit) (by constructor <;> simp [Gate.source]) (by simp)
  · exact isGate_pure (hv .opcode)
  · exact isGate_pure (hv .ednsVersion)
  · exact isGate_anyQtype (hv .anyQtype)
  · exact isGate_pure (hv .qclass)

theorem isGate_late (clock : Clock) (request : Request H) (ctx : QueryCtx)
    (limiter : Rate.RateLimiter) :
    let v := h.verdict T clock request ctx limiter
    IsGate (h.lateGates T ctx)
      ((v .schedule).or ((v .zones).or ((v .authority).or ((v .rewrite).or (v .blocklist))))) := by
  intro v
  have hv : ∀ g reply, v g = some reply → reply.servedBy = g.source := verdict_source
  refine IsGate.orElse ?_ (.orElse ?_ (.orElse ?_ (.orElse ?_ ?_)))
  · exact isGate_counting (hv .schedule) (by constructor <;> simp [Gate.source]) (by simp)
  · exact isGate_counting (hv .zones) (by constructor <;> simp [Gate.source]) (by simp)
  · exact isGate_counting (hv .authority) (by constructor <;> simp [Gate.source]) (by simp)
  · exact isGate_counting (hv .rewrite) (by constructor <;> simp [Gate.source]) (by simp)
  · exact isGate_blocklist (hv .blocklist)

/-- What a query adds to the counters, by who answers it; counting does not change the reply. -/
theorem replyCounted_marks (clock : Clock) (request : Request H) (ctx : QueryCtx)
    (limiter : Rate.RateLimiter) :
    ∃ marks, Adds (h.replyCounted T clock request ctx limiter)
        (h.settle T clock request ctx limiter) marks ∧
      Marks (some (h.settle T clock request ctx limiter).servedBy) marks ∧
      marks.count .resolverQueries =
        if (Gate.order.findSome? (h.verdict T clock request ctx limiter)).isSome then 0 else 1 := by
  obtain ⟨early, hearly, hearlyMarks, hearlyAsks⟩ := h.isGate_early T clock request ctx limiter
  obtain ⟨late, hlate, hlateMarks, hlateAsks⟩ := h.isGate_late T clock request ctx limiter
  obtain ⟨last, hlast, hlastMarks, hlastAsks⟩ := countResolve_marks (h := h) (T := T) ctx
  unfold settle
  generalize h.verdict T clock request ctx limiter = v at *
  have horder : Gate.order.findSome? v =
      ((v .rateLimit).or ((v .opcode).or ((v .ednsVersion).or ((v .anyQtype).or (v .qclass))))).or
      ((v .schedule).or ((v .zones).or ((v .authority).or ((v .rewrite).or (v .blocklist))))) := by
    rw [findSome_order]
    simp only [Option.or_assoc]
  rw [horder]
  generalize (v .rateLimit).or ((v .opcode).or ((v .ednsVersion).or
    ((v .anyQtype).or (v .qclass)))) = first at *
  generalize (v .schedule).or ((v .zones).or ((v .authority).or
    ((v .rewrite).or (v .blocklist)))) = second at *
  cases first with
  | some reply =>
    refine ⟨early ++ [], hearly.bind (Adds.pure _), ?_, ?_⟩
    · rw [List.append_nil]
      exact hearlyMarks
    · rw [List.append_nil]
      exact hearlyAsks
  | none =>
    cases second with
    | some reply =>
      refine ⟨early ++ (late ++ []), hearly.bind (hlate.bind (Adds.pure _)), ?_, ?_⟩
      · rw [List.append_nil]
        exact hearlyMarks.append hlateMarks
      · rw [List.append_nil, List.count_append, hearlyAsks, hlateAsks]
        rfl
    | none =>
      refine ⟨early ++ (late ++ last), hearly.bind (hlate.bind hlast),
        hearlyMarks.append (hlateMarks.append hlastMarks), ?_⟩
      rw [List.count_append, List.count_append, hearlyAsks, hlateAsks, hlastAsks]
      rfl

end

end DnsHandler

end

/-! ## Runs -/

/-- The counters `ticks` tell what the requests, their responses, their log entries and the calls of
the resolver are. -/
structure Agrees {H : Hickory} (packets : List (Clock × Request H)) (responses : List (Response H))
    (entries : List QueryLogEntry) (calls : Nat) (ticks : List Counter) : Prop where
  queries : ticks.count .queries = packets.countP fun p => p.2.info.isSome
  qtypes : ∀ label, ticks.count (.queryQtype label) =
    packets.countP fun p => p.2.info.any fun q => H.typeLabel q.queryType == label
  rcodes : ∀ label, ticks.count (.responseRcode label) =
    responses.countP fun r => rcodeMetricLabel r.metadata.responseCode == label
  authority : ticks.count .authorityHits = entries.countP fun e => e.servedBy == .authority
  rewrite : ticks.count .rewriteHits = entries.countP fun e => e.servedBy == .rewrite
  blocklist : ticks.count .blocklistHits = entries.countP fun e => e.servedBy == .blocklist
  failures : ticks.count .resolverFailures = entries.countP fun e => e.servedBy == .serverFailure
  calls : ticks.count .resolverQueries = calls
  resolver : ticks.count .resolverQueries =
    (entries.countP fun e => e.servedBy == .resolver) +
    (entries.countP fun e => e.servedBy == .serverFailure) +
    (ticks.count .blocklistCnameCloakingBlocked + ticks.count .blocklistResponseIpBlocked)
  filtered : ticks.count .blocklistCnameCloakingBlocked + ticks.count .blocklistResponseIpBlocked ≤
    entries.countP fun e => e.servedBy == .blocklist
  rejected : ticks.count .policyRateLimited + ticks.count .policyScheduleBlocked +
      ticks.count .policyZoneDenied + ticks.count .policyRefusedAny ≤
    entries.countP fun e => e.servedBy == .rejected

section
variable {H : Hickory}

theorem agrees_nil : Agrees (H := H) [] [] [] 0 [] := by
  constructor <;> simp

theorem Agrees.append {packets packets' : List (Clock × Request H)}
    {responses responses' : List (Response H)} {entries entries' : List QueryLogEntry}
    {calls calls' : Nat} {ticks ticks' : List Counter}
    (h : Agrees packets responses entries calls ticks)
    (h' : Agrees packets' responses' entries' calls' ticks') :
    Agrees (packets ++ packets') (responses ++ responses') (entries ++ entries') (calls + calls')
      (ticks ++ ticks') where
  queries := by simp [h.queries, h'.queries]
  qtypes := by simp [h.qtypes, h'.qtypes]
  rcodes := by simp [h.rcodes, h'.rcodes]
  authority := by simp [h.authority, h'.authority]
  rewrite := by simp [h.rewrite, h'.rewrite]
  blocklist := by simp [h.blocklist, h'.blocklist]
  failures := by simp [h.failures, h'.failures]
  calls := by simp [h.calls, h'.calls]
  resolver := by
    have := h.resolver
    have := h'.resolver
    simp only [List.count_append, List.countP_append]
    omega
  filtered := by
    have := h.filtered
    have := h'.filtered
    simp only [List.count_append, List.countP_append]
    omega
  rejected := by
    have := h.rejected
    have := h'.rejected
    simp only [List.count_append, List.countP_append]
    omega

/-- The increments around those of the pipeline are those of the query and of the response. -/
theorem Marks.agrees {clock : Clock} {request : Request H} {query : Query H}
    {response : Response H} {entry : QueryLogEntry} {calls : Nat} {marks : List Counter}
    (h : Marks (some entry.servedBy) marks) (hinfo : request.info = some query)
    (hcalls : marks.count .resolverQueries = calls) :
    Agrees [(clock, request)] [response] [entry] calls
      ([.queries] ++ ([.queryQtype (H.typeLabel query.queryType)] ++ (marks ++
        [.responseRcode (rcodeMetricLabel response.metadata.responseCode)]))) where
  queries := by simp [hinfo, h.queries]
  qtypes := by
    intro label
    simp [hinfo, h.qtypes, List.count_cons, List.countP_cons]
  rcodes := by
    intro label
    simp [h.rcodes, List.count_cons, List.countP_cons]
  authority := by simp [h.authority, List.countP_cons]
  rewrite := by simp [h.rewrite, List.countP_cons]
  blocklist := by simp [h.blocklist, List.countP_cons]
  failures := by simp [h.failures, List.countP_cons]
  calls := by simp [hcalls]
  resolver := by simpa [List.countP_cons] using h.resolver
  filtered := by simpa [List.countP_cons] using h.filtered
  rejected := by simpa [List.countP_cons] using h.rejected

namespace DnsHandler

variable (S : HickoryServer H) (T : UnicodeTables) (hashQname : Str → UInt64) (h : DnsHandler H)

/-- The calls of the resolver that a request makes. -/
def callsOf (clock : Clock) (request : Request H) (limiter : Rate.RateLimiter) : Nat :=
  match request.info with
  | none => 0
  | some query =>
    if (Gate.order.findSome?
      (h.verdict T clock request (h.queryCtx S clock request query) limiter)).isSome then 0 else 1

theorem handleRequest_resolved (clock : Clock) (request : Request H) (world : World) :
    (h.handleRequest S T clock request world).2.resolved.length =
      world.resolved.length + h.callsOf S T clock request world.limiter := by
  cases hinfo : request.info with
  | none =>
    simp only [handleRequest, callsOf, hinfo]
    rfl
  | some query =>
    rw [handleRequest_eq (Request.info_eq_some_iff.1 hinfo)]
    simp only [callsOf, hinfo]
    cases Gate.order.findSome?
        (h.verdict T clock request (h.queryCtx S clock request query) world.limiter) with
    | none => simp [after]
    | some reply => simp [after]

/-- One request. -/
theorem countRequest_agrees (clock : Clock) (request : Request H) (world : World) :
    ∃ ticks, Adds (h.countRequest S T clock request world.limiter) () ticks ∧
      Agrees [(clock, request)] [(h.handleRequest S T clock request world).1]
        [h.entryOf S T hashQname clock request world.limiter]
        (h.callsOf S T clock request world.limiter) ticks := by
  cases hinfo : request.info with
  | none =>
    refine ⟨[.responseRcode (rcodeMetricLabel .formErr)], ?_, ?_⟩
    · simp only [countRequest, hinfo]
      exact adds_inc _
    · have hcode : (h.handleRequest S T clock request world).1.metadata.responseCode =
          .formErr := by
        simp only [handleRequest, hinfo]
        exact finish_responseCode S request
          { code := .formErr, authoritative := false, answers := [], servedBy := .rejected }
      constructor <;> simp [hinfo, hcode, entryOf, callsOf, List.countP_cons, List.count_cons]
  | some query =>
    obtain ⟨marks, hadds, hmarks, hasks⟩ := h.replyCounted_marks T clock request
      (h.queryCtx S clock request query) world.limiter
    have hcode : (h.handleRequest S T clock request world).1.metadata.responseCode =
        (h.settle T clock request (h.queryCtx S clock request query) world.limiter).code := by
      rw [handleRequest_settle S T (Request.info_eq_some_iff.1 hinfo), finish_responseCode]
    have hentry : (h.entryOf S T hashQname clock request world.limiter).servedBy =
        (h.settle T clock request (h.queryCtx S clock request query) world.limiter).servedBy := by
      simp only [entryOf, hinfo]
    have hcalls : marks.count .resolverQueries = h.callsOf S T clock request world.limiter := by
      simp only [callsOf, hinfo]
      exact hasks
    rw [← hentry] at hmarks
    refine ⟨_, ?_, hmarks.agrees hinfo hcalls⟩
    simp only [countRequest, hinfo, hcode]
    exact (adds_inc _).bind ((adds_inc _).bind (hadds.bind (adds_inc _)))

/-- A run. -/
theorem countRun_agrees (packets : List (Clock × Request H)) (world : World) (journal : Journal) :
    ∃ ticks calls, Adds (h.countRun S T world packets) () ticks ∧
      Agrees packets (h.serveLogged S T hashQname packets (world, journal)).1
        (h.entriesOf S T hashQname world packets) calls ticks ∧
      (h.serveLogged S T hashQname packets (world, journal)).2.1.resolved.length =
        world.resolved.length + calls := by
  induction packets generalizing world journal with
  | nil => exact ⟨[], 0, Adds.pure (), agrees_nil, rfl⟩
  | cons packet packets ih =>
    obtain ⟨first, hfirst, hone⟩ :=
      h.countRequest_agrees S T hashQname packet.1 packet.2 world
    obtain ⟨rest, calls, hrest, hrun, hresolved⟩ :=
      ih (h.handleRequest S T packet.1 packet.2 world).2
        (h.logRequest S T hashQname packet.1 packet.2 world.limiter journal)
    rw [serveLogged_cons]
    refine ⟨first ++ rest, _, hfirst.bind hrest, hone.append hrun, hresolved.trans ?_⟩
    rw [handleRequest_resolved, Nat.add_assoc]

end DnsHandler

end

/-- **The counters tell what the query log and the responses tell.** Over any run of requests, from
any state: each query is counted once and under its type, each response once under the label of its
code, and the hits of authority, rewrites and blocklist and the failures of the resolver are the log
entries served so. The resolver is asked as often as its counter says, which is once for each entry
served by it, for each failure, and for each answer that was filtered after it arrived. -/
theorem counters_match_query_log (H : Hickory) (S : HickoryServer H) (T : UnicodeTables)
    (hashQname : Str → UInt64) (h : DnsHandler H) (packets : List (Clock × Request H))
    (world : World) (journal : Journal) :
    Agrees packets (h.serveLogged S T hashQname packets (world, journal)).1
      (h.entriesOf S T hashQname world packets)
      ((h.serveLogged S T hashQname packets (world, journal)).2.1.resolved.length -
        world.resolved.length)
      (h.countRun S T world packets []).2 := by
  obtain ⟨ticks, calls, hadds, hagrees, hresolved⟩ :=
    h.countRun_agrees S T hashQname packets world journal
  rw [hadds [], List.nil_append, hresolved, Nat.add_sub_cancel_left]
  exact hagrees

end RustyDns.L4.Pipeline
