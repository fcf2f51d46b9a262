import RustyDns.L4Daemon.Pipeline

/-!
# What every response keeps to

`handle_request` has twelve places a reply can come from, and `respond` sends it. Whatever the
request, the state of the limiter, the upstream answer and the blocklists are, the response echoes
the question, carries one of seven codes, and holds answers only with the code NOERROR. Answers that
came from an upstream with any TTL leave with one between two seconds and a day. The authoritative
flag is set for names of the authority only.

A message that is not one ordinary question (one question, a standard query, EDNS version 0, class
IN, not ANY, AXFR or IXFR) gets no answers, and nothing is asked upstream for it.

Results:
* `every_response_keeps_contract`: all of this, for every request and every state.
-/

namespace RustyDns.L4.Pipeline

open RustyDns.Lib RustyDns.L1 RustyDns.L3 RustyDns.L2.Auth

/-! ## Replies -/

/-- The codes the daemon sends. -/
def sentCodes : List ResponseCode :=
  [.noError, .formErr, .servFail, .nxDomain, .notImp, .refused, .badVers]

/-- The TTLs a client sees. -/
def TtlWindow {H : Hickory} (answers : List (Record H.Name)) : Prop :=
  ∀ rr ∈ answers, minPositiveCacheTtlSecs ≤ rr.ttl ∧ rr.ttl ≤ maxPositiveCacheTtlSecs

/-- What every reply keeps to; `auth` says whether its name is one of the authority. -/
structure SoundReply {H : Hickory} (auth : Prop) (reply : Reply H) : Prop where
  code : reply.code ∈ sentCodes
  empty : reply.code ≠ .noError → reply.answers = []
  ttl : TtlWindow reply.answers
  authoritative : reply.authoritative = true → auth

section
variable {H : Hickory} {auth : Prop}

theorem ttlWindow_nil : TtlWindow ([] : List (Record H.Name)) := by
  simp [TtlWindow]

theorem ttlWindow_dnsRecordsToRrs (records : List DnsRecord) :
    TtlWindow (dnsRecordsToRrs H records) := by
  intro rr hrr
  obtain ⟨rec, -, hrec⟩ := List.mem_filterMap.1 hrr
  unfold dnsRecordToRr at hrec
  simp only [Option.bind_eq_bind, Option.bind_eq_some_iff, Option.pure_def,
    Option.some.injEq] at hrec
  obtain ⟨name, -, data, -, rfl⟩ := hrec
  unfold minPositiveCacheTtlSecs maxPositiveCacheTtlSecs
  dsimp only
  omega

theorem ttlWindow_sinkholeAnswers (h : L4.DnsHandler H) (qname : Str) (qtype : RecordType) :
    TtlWindow (h.sinkholeAnswers qname qtype) := by
  unfold L4.DnsHandler.sinkholeAnswers
  split
  · split <;> simp [TtlWindow, L4.DnsHandler.sinkholeTtlSecs, minPositiveCacheTtlSecs,
      maxPositiveCacheTtlSecs]
  · exact ttlWindow_nil

theorem SoundReply.bare {code : ResponseCode} (h : code ∈ sentCodes) (servedBy : ServedBy) :
    SoundReply auth (⟨code, false, [], servedBy⟩ : Reply H) :=
  ⟨h, fun _ => rfl, ttlWindow_nil, by simp⟩

theorem SoundReply.answered {authoritative : Bool} {answers : List (Record H.Name)}
    (httl : TtlWindow answers) (hauth : authoritative = true → auth) (servedBy : ServedBy) :
    SoundReply auth (⟨.noError, authoritative, answers, servedBy⟩ : Reply H) :=
  ⟨by simp [sentCodes], fun hcode => absurd rfl hcode, httl, hauth⟩

theorem soundReply_blockReply (h : L4.DnsHandler H) (ctx : L4.QueryCtx) :
    SoundReply auth (h.blockReply ctx) := by
  unfold L4.DnsHandler.blockReply L4.DnsHandler.buildBlockResponse
  cases h.blocklist.config.blockResponse with
  | nxdomain => exact .bare (by decide) _
  | refused => exact .bare (by decide) _
  | sinkhole =>
    dsimp only
    split
    · exact .bare (by simp [sentCodes]) _
    · exact .answered (ttlWindow_sinkholeAnswers h _ _) (by simp) _

theorem soundReply_stageResolve (T : UnicodeTables) (h : L4.DnsHandler H) (ctx : L4.QueryCtx) :
    SoundReply auth (h.stageResolve T ctx) := by
  unfold L4.DnsHandler.stageResolve
  split
  · split
    · exact soundReply_blockReply h ctx
    split
    · exact soundReply_blockReply h ctx
    · -- NXDOMAIN stands only beside an empty list
      dsimp only
      split
      · rename_i hnx
        rw [Bool.and_eq_true, List.isEmpty_iff] at hnx
        rw [hnx.2]
        exact .bare (by decide) _
      · exact .answered (ttlWindow_dnsRecordsToRrs _) (by simp) _
  · exact .bare (by decide) _

end

/-! ## Gates -/

/-- One question that the daemon looks at as such. -/
structure Ordinary {H : Hickory} (request : Request H) (query : Query H) : Prop where
  one : request.queries = [query]
  opCode : request.metadata.opCode = .query
  messageType : request.metadata.messageType = .query
  edns : ∀ e, request.edns = some e → e.version = 0
  qclass : query.queryClass = .internet
  qtype : query.queryType ≠ .any ∧ query.queryType ≠ .axfr ∧ query.queryType ≠ .ixfr

namespace DnsHandler

section
variable {H : Hickory} {S : HickoryServer H} {T : UnicodeTables} {h : DnsHandler H} {clock : Clock}
  {request : Request H} {ctx : QueryCtx} {limiter : Rate.RateLimiter}

theorem soundReply_gateRewrite {auth : Prop} {reply : Reply H}
    (hreply : h.gateRewrite T ctx = some reply) : SoundReply auth reply := by
  unfold gateRewrite at hreply
  obtain ⟨decision, -, hsome⟩ := Option.bind_eq_some_iff.1 hreply
  cases hsome
  cases decision with
  | nxdomain => exact .bare (by simp [sentCodes]) _
  | noData => exact .bare (by simp [sentCodes]) _
  | answer records => exact .answered (ttlWindow_dnsRecordsToRrs _) (by simp) _

theorem soundReply_gateAuthority {reply : Reply H} (hreply : h.gateAuthority ctx = some reply) :
    SoundReply (h.authority.isAuthoritativeFor ctx.qnameCanon = true) reply := by
  unfold gateAuthority at hreply
  obtain ⟨records, hrecords, hsome⟩ := Option.bind_eq_some_iff.1 hreply
  cases hsome
  refine .answered (ttlWindow_dnsRecordsToRrs _) (fun _ => ?_) _
  have hfound : (h.authority.lookup ctx.qnameCanon ctx.qtypeLabel).isSome = true := by
    rw [hrecords, Option.isSome_some]
  rwa [lookup_isSome] at hfound

/-- The gates that see to it that a message is an ordinary question. -/
def screening : List Gate := [.rateLimit, .opcode, .ednsVersion, .anyQtype, .qclass]

/-- The gates that only reject. -/
def rejecting : List Gate := screening ++ [.schedule, .zones]

theorem verdict_reject {g : Gate} (hg : g ∈ rejecting) {reply : Reply H}
    (hreply : h.verdict T clock request ctx limiter g = some reply) :
    ∃ code ∈ sentCodes, reply = reject code := by
  have hite : ∀ {c : Prop} [Decidable c] {code : ResponseCode}, code ∈ sentCodes →
      (if c then some (reject code : Reply H) else none) = some reply →
      ∃ code ∈ sentCodes, reply = reject code := by
    intro c _ code hcode heq
    split at heq
    · cases heq
      exact ⟨code, hcode, rfl⟩
    · cases heq
  cases g with
  | rateLimit => exact hite (by decide) hreply
  | opcode =>
    simp only [verdict, gateOpcode] at hreply
    split at hreply
    · cases hreply
      exact ⟨.notImp, by decide, rfl⟩
    · exact hite (by decide) hreply
  | ednsVersion =>
    simp only [verdict, gateEdnsVersion] at hreply
    split at hreply
    · cases hreply
    · exact hite (by decide) hreply
  | anyQtype =>
    simp only [verdict, gateAnyQtype] at hreply
    split at hreply <;> cases hreply
    all_goals exact ⟨.refused, by decide, rfl⟩
  | qclass => exact hite (by decide) hreply
  | schedule => exact hite (by decide) hreply
  | zones => exact hite (by decide) hreply
  | authority => simp [rejecting, screening] at hg
  | rewrite => simp [rejecting, screening] at hg
  | blocklist => simp [rejecting, screening] at hg

theorem soundReply_verdict {g : Gate} {reply : Reply H}
    (hreply : h.verdict T clock request ctx limiter g = some reply) :
    SoundReply (h.authority.isAuthoritativeFor ctx.qnameCanon = true) reply := by
  by_cases hg : g ∈ rejecting
  · obtain ⟨code, hcode, rfl⟩ := verdict_reject hg hreply
    exact .bare hcode _
  cases g with
  | authority => exact soundReply_gateAuthority hreply
  | rewrite => exact soundReply_gateRewrite hreply
  | blocklist =>
    simp only [verdict, L4.DnsHandler.gateBlocklist] at hreply
    split at hreply
    · cases hreply
      exact soundReply_blockReply _ _
    · cases hreply
  | _ => simp [rejecting, screening] at hg

theorem ordinary_of_screening {query : Query H} (hone : request.queries = [query])
    (hpass : screening.findSome?
      (h.verdict T clock request (h.queryCtx S clock request query) limiter) = none) :
    Ordinary request query := by
  simp only [screening, List.findSome?_eq_none_iff, List.forall_mem_cons] at hpass
  obtain ⟨-, hopcode, hedns, hqtype, hclass, -⟩ := hpass
  have hop : request.metadata.opCode = .query := by
    by_contra hne
    simp [verdict, gateOpcode, hne] at hopcode
  refine ⟨hone, hop, ?_, fun e he => ?_, ?_, ?_⟩
  · by_contra hne
    simp [verdict, gateOpcode, hop, hne] at hopcode
  · by_contra hne
    have hpos : 0 < e.version := UInt8.pos_iff_ne_zero.2 hne
    simp [verdict, gateEdnsVersion, he, hpos] at hedns
  · by_contra hne
    simp [verdict, gateClass, queryCtx, hne] at hclass
  · refine ⟨fun htype => ?_, fun htype => ?_, fun htype => ?_⟩
    all_goals simp [verdict, gateAnyQtype, queryCtx, htype] at hqtype

end

/-! ## Responses -/

section
variable {H : Hickory} (S : HickoryServer H) (h : DnsHandler H) (request : Request H)

/-- What every response keeps to. Its metadata are what hickory derives from the request, but for
the code, the authoritative flag, the truncation flag, and that recursion is available. -/
structure Contract (response : Response H) : Prop where
  question : response.queries = request.queries
  edns : response.edns = request.edns.map normalizedEdns
  metadata : ∃ truncation, response.metadata =
    { responseMetadata S request response.metadata.responseCode response.metadata.authoritative with
      truncation }
  code : response.metadata.responseCode ∈ sentCodes
  empty : response.metadata.responseCode ≠ .noError → response.answers = []
  ttl : TtlWindow response.answers
  authoritative : response.metadata.authoritative = true →
    ∃ query, request.queries = [query] ∧
      h.authority.isAuthoritativeFor (S.display query.name) = true

variable {S h request}

theorem shed_prefix {α : Type} (fits : List α → Bool) (answers : List α) :
    shed fits answers <+: answers := by
  rcases longestFitting_shed fits answers with ⟨hshed, -⟩ | ⟨hnil, -⟩
  · exact hshed
  · rw [hnil]
    exact List.nil_prefix

theorem respond_contract {reply : Reply H} {auth : Prop} (hsound : SoundReply auth reply)
    (hauth : auth → ∃ query, request.queries = [query] ∧
      h.authority.isAuthoritativeFor (S.display query.name) = true) :
    Contract S h request (respond S request reply.code reply.authoritative reply.answers) := by
  unfold respond
  dsimp only
  split
  · have hshed := shed_prefix (fitsCap S request
      (responseMetadata S request reply.code reply.authoritative) true) reply.answers
    refine ⟨rfl, rfl, ⟨true, rfl⟩, hsound.code, fun hcode => ?_, fun rr hrr => ?_,
      fun haa => hauth (hsound.authoritative haa)⟩
    · exact List.prefix_nil.1 (hsound.empty hcode ▸ hshed)
    · exact hsound.ttl rr (hshed.subset hrr)
  · exact ⟨rfl, rfl, ⟨_, rfl⟩, hsound.code, hsound.empty, hsound.ttl,
      fun haa => hauth (hsound.authoritative haa)⟩

theorem finish_contract {query : Query H} (hone : request.queries = [query]) (clock : Clock)
    {reply : Reply H} (hsound : SoundReply
      (h.authority.isAuthoritativeFor (h.queryCtx S clock request query).qnameCanon = true) reply) :
    Contract S h request (finish S request reply) := by
  refine respond_contract hsound fun hauth => ⟨query, hone, ?_⟩
  rwa [queryCtx, isAuthoritativeFor_canonicalQname] at hauth

theorem respond_nil_answers (code : ResponseCode) (authoritative : Bool) :
    (respond S request code authoritative []).answers = [] := by
  unfold respond
  dsimp only
  split <;> rfl

theorem respond_not_authoritative (code : ResponseCode) (answers : List (Record H.Name)) :
    (respond S request code false answers).metadata.authoritative = false := by
  unfold respond
  dsimp only
  split <;> rfl

/-- The first five gates stop every message that is not an ordinary question. -/
theorem screening_rejects (T : UnicodeTables) (clock : Clock) (limiter : Rate.RateLimiter)
    {query : Query H} (hone : request.queries = [query]) (hnot : ¬ Ordinary request query) :
    ∃ code, Gate.order.findSome?
      (h.verdict T clock request (h.queryCtx S clock request query) limiter) =
        some (reject code) := by
  cases hscreen : screening.findSome?
      (h.verdict T clock request (h.queryCtx S clock request query) limiter) with
  | none => exact absurd (ordinary_of_screening hone hscreen) hnot
  | some reply =>
    obtain ⟨g, hg, hreply⟩ := List.exists_of_findSome?_eq_some hscreen
    obtain ⟨code, -, rfl⟩ := verdict_reject (List.mem_append_left _ hg) hreply
    -- no later gate is asked
    have horder : Gate.order =
      screening ++ [.schedule, .zones, .authority, .rewrite, .blocklist] := rfl
    exact ⟨code, by rw [horder, List.findSome?_append, hscreen, Option.some_or]⟩

end

section
variable {H : Hickory} (S : HickoryServer H) (T : UnicodeTables) (h : DnsHandler H) (clock : Clock)
  (request : Request H) (w : World)

theorem handleRequest_contract : Contract S h request (h.handleRequest S T clock request w).1 := by
  cases hinfo : request.info with
  | none =>
    have hsound : SoundReply False (reject .formErr : Reply H) := .bare (by decide) _
    rw [handleRequest_of_none hinfo]
    exact respond_contract hsound False.elim
  | some query =>
    have hone : request.queries = [query] := Request.info_eq_some_iff.1 hinfo
    rw [handleRequest_eq hone]
    dsimp only
    cases hfirst : Gate.order.findSome?
        (h.verdict T clock request (h.queryCtx S clock request query) w.limiter) with
    | some reply =>
      obtain ⟨g, -, hreply⟩ := List.exists_of_findSome?_eq_some hfirst
      exact finish_contract hone clock (soundReply_verdict hreply)
    | none => exact finish_contract hone clock (soundReply_stageResolve T _ _)

theorem handleRequest_not_ordinary (hnot : ∀ query, ¬ Ordinary request query) :
    (h.handleRequest S T clock request w).1.answers = [] ∧
      (h.handleRequest S T clock request w).1.metadata.authoritative = false ∧
      (h.handleRequest S T clock request w).2.resolved = w.resolved := by
  cases hinfo : request.info with
  | none =>
    rw [handleRequest_of_none hinfo]
    exact ⟨respond_nil_answers _ _, respond_not_authoritative _ _, rfl⟩
  | some query =>
    have hone : request.queries = [query] := Request.info_eq_some_iff.1 hinfo
    obtain ⟨code, hreject⟩ :=
      screening_rejects (S := S) (h := h) T clock w.limiter hone (hnot query)
    rw [handleRequest_eq hone]
    dsimp only
    rw [hreject]
    exact ⟨respond_nil_answers _ _, respond_not_authoritative _ _, by simp [after]⟩

/-- Every response keeps to the contract, and a message that is not an ordinary question gets
nothing but a code, with nothing asked upstream. -/
theorem every_response_keeps_contract :
    Contract S h request (h.handleRequest S T clock request w).1 ∧
      ((∀ query, ¬ Ordinary request query) →
        (h.handleRequest S T clock request w).1.answers = [] ∧
          (h.handleRequest S T clock request w).1.metadata.authoritative = false ∧
          (h.handleRequest S T clock request w).2.resolved = w.resolved) :=
  ⟨handleRequest_contract S T h clock request w,
    handleRequest_not_ordinary S T h clock request w⟩

end

/-- `a.b.` is a name of the handler's authority. Asked for its addresses it speaks with authority,
asked for ANY it does not. -/
theorem every_response_keeps_contract_any :
    let answer (qtype : RecordType) :=
      openHandler.handleRequest plainServer .asciiOnly ⟨0, 1700000000⟩
        { plainRequest none with
          queries := [{ name := "a.b.".toList, queryType := qtype, queryClass := .internet }] }
        idleWorld
    (answer .a).1.metadata.authoritative = true ∧
    (answer .any).1.metadata.authoritative = false ∧ (answer .any).1.answers = [] := by
  intro answer
  obtain ⟨hanswers, hauth, -⟩ := (every_response_keeps_contract plainServer .asciiOnly openHandler
    ⟨0, 1700000000⟩ { plainRequest none with
      queries := [{ name := "a.b.".toList, queryType := .any, queryClass := .internet }] }
    idleWorld).2 fun query hordinary => by
      cases hordinary.one
      exact hordinary.qtype.1 rfl
  exact ⟨by decide +kernel, hauth, hanswers⟩

end DnsHandler

end RustyDns.L4.Pipeline
