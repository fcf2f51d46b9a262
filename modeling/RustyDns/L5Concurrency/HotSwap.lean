import RustyDns.Lib.Lts
import RustyDns.L4Daemon.Metrics

/-!
# Requests while parts of the handler are replaced

`handle_request` of `rustydnsd/src/handler.rs` against the swaps of a SIGHUP, of the blocklist loader
and of the mesh poll. Each gate loads its component once, when its turn comes; the resolver is loaded
once and kept while it is asked; after its answer the blocklist is loaded anew for each CNAME. Between
any two loads a component may be replaced, so a request can meet parts that were never current
together.

A job carries, as ghost data, the handlers that were current while it was under way (`seen`) and the
limiter that its rate-limit gate asked (`met`). What the engine is configured with is fixed at
startup, so a swap changes the loaded lists only. A message without exactly one question asks no
component and is left out.

Results:
* `inv_step`: each gate that a job passed passed it under a handler it has seen.
* `undisturbed_request_is_sequential`: a request that meets no swap gets the response of
  `handleRequest` under the limiter it met, whatever the requests beside it do.
* `swaps_do_not_leak`: what the gates say of a query that goes upstream and of an answer from there.
* `request_can_finish`: each request under way can run to its end.
-/

namespace RustyDns.L5.HotSwap

open RustyDns.Lib RustyDns.L1 RustyDns.L3 RustyDns.L4 RustyDns.L4.Pipeline
open RustyDns.L2.Auth RustyDns.L2.Blocklist

variable {H : Hickory}

/-! ## States and steps -/

/-- Where a request is: before its next gate, before the resolver is asked, with its answer, before
the next record of the answer, or at its end. -/
inductive Phase (H : Hickory) where
  | gates (rest : List Gate)
  | asking
  | answered (result : Except RustyDnsError ResolveOutcome)
  | cnames (out : ResolveOutcome) (rest : List DnsRecord)
  | done (reply : Reply H)

structure Job (H : Hickory) where
  clock : Clock
  request : Request H
  query : Query H
  ctx : Pipeline.QueryCtx
  phase : Phase H
  /-- ghost: the handlers that were current so far -/
  seen : List (Pipeline.DnsHandler H)
  /-- ghost: the limiter as it was when its gate asked it -/
  met : Option Rate.RateLimiter

structure St (H : Hickory) where
  handler : Pipeline.DnsHandler H
  limiter : Rate.RateLimiter
  jobs : Nat → Option (Job H)
  /-- ghost: each job that asked the resolver, as it was then -/
  calls : List (Job H)

/-- A store into one of the swapped components.
mirrors crates/rustydnsd/src/handler.rs:239-259 -/
inductive Swap (H : Hickory) where
  | resolver (resolver : Resolver H)
  | rateLimiter (limiter : Rate.RateLimiter)
  | policies (policies : List NodePolicy)
  | rewrites (map : Rewrite.RewriteMap)
  | snapshot (snapshot : Snapshot)
  | blocklist (state : BlocklistState)
  | group (name : Str) (state : BlocklistState)

inductive Act (H : Hickory) where
  | arrive (id : Nat) (clock : Clock) (request : Request H)
  | advance (id : Nat)
  | swap (swap : Swap H)

/-- The handler after a swap. -/
def Swap.apply (h : Pipeline.DnsHandler H) : Swap H → Pipeline.DnsHandler H
  | .resolver new => { h with resolver := new }
  | .rateLimiter _ => h
  | .policies new => { h with policyByIp := buildPolicyMap new }
  | .rewrites new => { h with rewrites := new }
  | .snapshot new => { h with authority := { h.authority with snapshot := new } }
  | .blocklist new => { h with blocklist := { h.blocklist with state := new } }
  | .group name new =>
    { h with blocklist := { h.blocklist with groups := h.blocklist.groups.replace name new } }

def Swap.limiter (limiter : Rate.RateLimiter) : Swap H → Rate.RateLimiter
  | .rateLimiter new => new
  | _ => limiter

def Job.finished (job : Job H) : Bool :=
  match job.phase with
  | .done _ => true
  | _ => false

/-- A job under way sees a handler that becomes current. -/
def Job.see (h : Pipeline.DnsHandler H) (job : Job H) : Job H :=
  if job.finished then job else { job with seen := job.seen ++ [h] }

namespace St

variable (s : St H)

def put (id : Nat) (job : Job H) : St H :=
  { s with jobs := Function.update s.jobs id (some job) }

def swap (swap : Swap H) : St H where
  handler := swap.apply s.handler
  limiter := swap.limiter s.limiter
  jobs := fun id => (s.jobs id).map (Job.see (swap.apply s.handler))
  calls := s.calls

end St

section
variable (S : HickoryServer H) (T : UnicodeTables)

/-- The CNAME of a record is blocked for the client. -/
def cnameBlocked (h : Pipeline.DnsHandler H) (group : Option Str) (rec : DnsRecord) : Bool :=
  match rec.data with
  | .cname target => h.blocklist.isBlockedForGroup T target group
  | _ => false

/-- The end of `stage_resolve`: the addresses of the answer, and the reply. -/
def resolved (h : Pipeline.DnsHandler H) (ctx : Pipeline.QueryCtx) (out : ResolveOutcome) : Reply H :=
  if !h.blocklist.responseIpDenylist.isEmpty && !ctx.policy.blocklistBypass &&
      h.toDnsHandler.responseIpBlocked out.records then
    h.toDnsHandler.blockReply ctx.filtering
  else
    let answers := dnsRecordsToRrs H out.records
    { code := if out.nxdomain && answers.isEmpty then .nxDomain else .noError
      authoritative := false
      answers := answers
      servedBy := .resolver }

/-- The next phase of a job, with the handler and the limiter as they are. -/
def next (h : Pipeline.DnsHandler H) (limiter : Rate.RateLimiter) (job : Job H) : Option (Phase H) :=
  match job.phase with
  | .gates [] => some .asking
  | .gates (g :: rest) =>
    match h.verdict T job.clock job.request job.ctx limiter g with
    | some reply => some (.done reply)
    | none => some (.gates rest)
  | .asking => some (.answered (h.resolver.resolve T job.ctx.qname job.ctx.qtypeLabel))
  | .answered (.error _) =>
    some (.done
      { code := .servFail, authoritative := false, answers := [], servedBy := .serverFailure })
  | .answered (.ok out) =>
    if h.blocklist.config.blockCnameCloaking && !job.ctx.policy.blocklistBypass then
      some (.cnames out out.records)
    else some (.done (resolved h job.ctx out))
  | .cnames out [] => some (.done (resolved h job.ctx out))
  | .cnames out (rec :: rest) =>
    if cnameBlocked T h job.ctx.policy.blocklistGroup rec then
      some (.done (h.toDnsHandler.blockReply job.ctx.filtering))
    else some (.cnames out rest)
  | .done _ => none

/-- The limiter is asked at its gate and nowhere else. -/
def limiterAfter (limiter : Rate.RateLimiter) (job : Job H) : Rate.RateLimiter :=
  match job.phase with
  | .gates (.rateLimit :: _) => (limiter.check job.clock.instant job.ctx.srcIp).2
  | _ => limiter

/-- The job in its next phase, with the limiter it has met. -/
def Job.advance (limiter : Rate.RateLimiter) (job : Job H) (phase : Phase H) : Job H :=
  { job with
    phase
    met :=
      match job.phase with
      | .gates (.rateLimit :: _) => some limiter
      | _ => job.met }

def callsAfter (calls : List (Job H)) (job : Job H) : List (Job H) :=
  match job.phase with
  | .asking => calls ++ [job]
  | _ => calls

/-- mirrors crates/rustydnsd/src/handler.rs:944-1045 -/
def step (s : St H) : Act H → Option (St H)
  | .arrive id clock request =>
    match s.jobs id, request.info with
    | none, some query =>
      some (s.put id
        { clock := clock
          request := request
          query := query
          ctx := s.handler.queryCtx S clock request query
          phase := .gates Gate.order
          seen := [s.handler]
          met := none })
    | _, _ => none
  | .advance id =>
    match s.jobs id with
    | none => none
    | some job =>
      (next T s.handler s.limiter job).map fun phase =>
        { s with
          limiter := limiterAfter s.limiter job
          calls := callsAfter s.calls job }.put id (job.advance s.limiter phase)
  | .swap swap => some (s.swap swap)

/-- From a handler with nothing under way. -/
def system : LTS (St H) (Act H) :=
  .ofFn (fun s => s.jobs = (fun _ => none) ∧ s.calls = []) (step S T)

end

/-! ## What a job has passed -/

section
variable {S : HickoryServer H} {T : UnicodeTables} {s t : St H} {job : Job H} {act : Act H}

/-- Only its own gate asks the limiter. -/
theorem verdict_limiter (h : Pipeline.DnsHandler H) (clock : Clock) (request : Request H)
    (ctx : Pipeline.QueryCtx) (limiter limiter' : Rate.RateLimiter) {g : Gate}
    (hg : g ≠ .rateLimit) :
    h.verdict T clock request ctx limiter g = h.verdict T clock request ctx limiter' g := by
  cases g with
  | rateLimit => exact absurd rfl hg
  | _ => rfl

/-- The gate passed the job under a handler that was current while it was under way. -/
def Cleared (T : UnicodeTables) (job : Job H) (g : Gate) : Prop :=
  ∃ h ∈ job.seen, ∃ limiter, h.verdict T job.clock job.request job.ctx limiter g = none

/-- The record names nothing that was blocked all the while. -/
def Unblocked (T : UnicodeTables) (job : Job H) (rec : DnsRecord) : Prop :=
  ∃ h ∈ job.seen, cnameBlocked T h job.ctx.policy.blocklistGroup rec = false

/-- What is known in each phase; `cloaking` is whether answers are searched for blocked names. -/
def PhaseOk (T : UnicodeTables) (cloaking : Bool) (job : Job H) : Phase H → Prop
  | .gates rest => ∃ passed, Gate.order = passed ++ rest ∧ ∀ g ∈ passed, Cleared T job g
  | .asking => ∀ g ∈ Gate.order, Cleared T job g
  | .answered _ => ∀ g ∈ Gate.order, Cleared T job g
  | .cnames out rest => (∀ g ∈ Gate.order, Cleared T job g) ∧
      ∃ checked, out.records = checked ++ rest ∧ ∀ rec ∈ checked, Unblocked T job rec
  | .done reply => reply.servedBy = .resolver → (∀ g ∈ Gate.order, Cleared T job g) ∧
      ∃ out : ResolveOutcome, reply.answers = dnsRecordsToRrs H out.records ∧
        ((cloaking && !job.ctx.policy.blocklistBypass) = true →
          ∀ rec ∈ out.records, Unblocked T job rec)

/-- The reply to what the resolver gives, if no swap comes. -/
def afterAnswer (T : UnicodeTables) (h : Pipeline.DnsHandler H) (ctx : Pipeline.QueryCtx) :
    Except RustyDnsError ResolveOutcome → Reply H
  | .error _ =>
    { code := .servFail, authoritative := false, answers := [], servedBy := .serverFailure }
  | .ok out =>
    if h.blocklist.config.blockCnameCloaking && !ctx.policy.blocklistBypass &&
        out.records.any (cnameBlocked T h ctx.policy.blocklistGroup) then
      h.toDnsHandler.blockReply ctx.filtering
    else resolved h ctx out

/-- The reply that a job is on its way to, if no swap comes. -/
def remaining (T : UnicodeTables) (h : Pipeline.DnsHandler H) (limiter : Rate.RateLimiter)
    (job : Job H) : Reply H :=
  match job.phase with
  | .gates rest =>
    (rest.findSome? (h.verdict T job.clock job.request job.ctx limiter)).getD
      (h.toDnsHandler.stageResolve T job.ctx.filtering)
  | .asking => h.toDnsHandler.stageResolve T job.ctx.filtering
  | .answered result => afterAnswer T h job.ctx result
  | .cnames out rest =>
    if rest.any (cnameBlocked T h job.ctx.policy.blocklistGroup) then
      h.toDnsHandler.blockReply job.ctx.filtering
    else resolved h job.ctx out
  | .done reply => reply

/-- The limiter has answered. -/
def PastLimiter (job : Job H) : Prop := ∀ rest, job.phase = .gates rest → Gate.rateLimit ∉ rest

/-- A job that has seen one handler is at its start, or on its way to what the pipeline settles on
with the limiter it met. -/
def Undisturbed (T : UnicodeTables) (job : Job H) : Prop :=
  ∀ h, job.seen = [h] → job.phase = .gates Gate.order ∨
    PastLimiter job ∧ ∃ limiter, job.met = some limiter ∧
      remaining T h limiter job = h.settle T job.clock job.request job.ctx limiter

structure JobOk (S : HickoryServer H) (T : UnicodeTables) (h : Pipeline.DnsHandler H)
    (job : Job H) : Prop where
  current : job.finished = false → h ∈ job.seen
  ctx : ∃ h' ∈ job.seen, job.ctx = h'.queryCtx S job.clock job.request job.query
  phase : PhaseOk T h.blocklist.config.blockCnameCloaking job job.phase
  asks : job.request.info = some job.query
  undisturbed : Undisturbed T job

/-- The answer of a gate is not one of the resolver. -/
theorem verdict_servedBy {h : Pipeline.DnsHandler H} {clock : Clock} {request : Request H}
    {ctx : Pipeline.QueryCtx} {limiter : Rate.RateLimiter} {g : Gate} {reply : Reply H}
    (hv : h.verdict T clock request ctx limiter g = some reply) : reply.servedBy ≠ .resolver := by
  rw [DnsHandler.verdict_source g reply hv]
  cases g <;> simp [Gate.source]

/-- Whatever a job has passed it keeps, with every handler it sees. -/
theorem PhaseOk.mono {cloaking : Bool} {job' : Job H} {phase : Phase H}
    (hseen : job.seen ⊆ job'.seen) (hclock : job'.clock = job.clock)
    (hrequest : job'.request = job.request) (hctx : job'.ctx = job.ctx)
    (h : PhaseOk T cloaking job phase) : PhaseOk T cloaking job' phase := by
  have hcleared : ∀ g, Cleared T job g → Cleared T job' g := by
    rintro g ⟨h, hmem, limiter, hv⟩
    refine ⟨h, hseen hmem, limiter, ?_⟩
    rw [hclock, hrequest, hctx]
    exact hv
  have hunblocked : ∀ rec, Unblocked T job rec → Unblocked T job' rec := by
    rintro rec ⟨h, hmem, hv⟩
    refine ⟨h, hseen hmem, ?_⟩
    rw [hctx]
    exact hv
  cases phase with
  | gates rest =>
    obtain ⟨passed, horder, hpassed⟩ := h
    exact ⟨passed, horder, fun g hg => hcleared g (hpassed g hg)⟩
  | asking => exact fun g hg => hcleared g (h g hg)
  | answered result => exact fun g hg => hcleared g (h g hg)
  | cnames out rest =>
    obtain ⟨hall, checked, hrecords, hchecked⟩ := h
    exact ⟨fun g hg => hcleared g (hall g hg), checked, hrecords,
      fun rec hrec => hunblocked rec (hchecked rec hrec)⟩
  | done reply =>
    intro hserved
    obtain ⟨hall, out, hanswers, hclean⟩ := h hserved
    refine ⟨fun g hg => hcleared g (hall g hg), out, hanswers, ?_⟩
    intro hcloaking rec hrec
    rw [hctx] at hcloaking
    exact hunblocked rec (hclean hcloaking rec hrec)

theorem apply_config (h : Pipeline.DnsHandler H) (swap : Swap H) :
    (swap.apply h).blocklist.config = h.blocklist.config := by
  cases swap <;> rfl

theorem resolved_servedBy {h : Pipeline.DnsHandler H} {ctx : Pipeline.QueryCtx}
    {out : ResolveOutcome} (hserved : (resolved h ctx out).servedBy = .resolver) :
    (resolved h ctx out).answers = dnsRecordsToRrs H out.records := by
  unfold resolved at hserved ⊢
  split at hserved
  · cases hserved
  · rename_i hip
    rw [if_neg hip]

theorem Job.finished_iff : job.finished = true ↔ ∃ reply, job.phase = .done reply := by
  unfold Job.finished
  cases job.phase <;> simp

theorem finished_of_next {h : Pipeline.DnsHandler H} {limiter : Rate.RateLimiter} {phase : Phase H}
    (hnext : next T h limiter job = some phase) : job.finished = false := by
  by_contra hfinished
  obtain ⟨reply, hdone⟩ := Job.finished_iff.1 (Bool.of_not_eq_false hfinished)
  rw [next, hdone] at hnext
  cases hnext

/-- One step of a job, with the handler it finds. -/
theorem next_phaseOk {h : Pipeline.DnsHandler H} {limiter : Rate.RateLimiter} {phase : Phase H}
    (hnow : h ∈ job.seen)
    (hphase : PhaseOk T h.blocklist.config.blockCnameCloaking job job.phase)
    (hnext : next T h limiter job = some phase) :
    PhaseOk T h.blocklist.config.blockCnameCloaking job phase := by
  unfold next at hnext
  split at hnext
  · rename_i hgates
    cases hnext
    rw [hgates] at hphase
    obtain ⟨passed, horder, hpassed⟩ := hphase
    rw [List.append_nil] at horder
    intro g hg
    rw [horder] at hg
    exact hpassed g hg
  · rename_i g rest hgates
    rw [hgates] at hphase
    obtain ⟨passed, horder, hpassed⟩ := hphase
    split at hnext
    · rename_i reply hv
      cases hnext
      intro hserved
      exact absurd hserved (verdict_servedBy hv)
    · rename_i hv
      cases hnext
      refine ⟨passed ++ [g], by simp [horder], ?_⟩
      intro g' hg'
      rw [List.mem_append, List.mem_singleton] at hg'
      rcases hg' with hg' | rfl
      · exact hpassed g' hg'
      · exact ⟨h, hnow, limiter, hv⟩
  · rename_i hasking
    cases hnext
    rw [hasking] at hphase
    exact hphase
  · cases hnext
    intro hserved
    cases hserved
  · rename_i out hanswered
    rw [hanswered] at hphase
    split at hnext
    · cases hnext
      exact ⟨hphase, [], rfl, by simp⟩
    · rename_i hcloak
      cases hnext
      intro hserved
      exact ⟨hphase, out, resolved_servedBy hserved, fun hon => absurd hon hcloak⟩
  · rename_i out hcnames
    cases hnext
    rw [hcnames] at hphase
    obtain ⟨hall, checked, hrecords, hchecked⟩ := hphase
    intro hserved
    refine ⟨hall, out, resolved_servedBy hserved, ?_⟩
    intro _ rec hrec
    rw [hrecords, List.append_nil] at hrec
    exact hchecked rec hrec
  · rename_i out rec rest hcnames
    rw [hcnames] at hphase
    obtain ⟨hall, checked, hrecords, hchecked⟩ := hphase
    split at hnext
    · cases hnext
      intro hserved
      cases hserved
    · rename_i hblocked
      cases hnext
      refine ⟨hall, checked ++ [rec], by simp [hrecords], ?_⟩
      intro rec' hrec'
      rw [List.mem_append, List.mem_singleton] at hrec'
      rcases hrec' with hrec' | rfl
      · exact hchecked rec' hrec'
      · exact ⟨h, hnow, by simpa using hblocked⟩
  · cases hnext

/-! ## Jobs that meet no swap -/

theorem stageResolve_eq_afterAnswer (h : Pipeline.DnsHandler H) (ctx : Pipeline.QueryCtx) :
    h.toDnsHandler.stageResolve T ctx.filtering =
      afterAnswer T h ctx (h.resolver.resolve T ctx.qname ctx.qtypeLabel) := by
  unfold L4.DnsHandler.stageResolve
  simp only [Pipeline.QueryCtx.filtering]
  cases h.resolver.resolve T ctx.qname ctx.qtypeLabel <;> rfl

theorem findSome_limiter (h : Pipeline.DnsHandler H) (clock : Clock) (request : Request H)
    (ctx : Pipeline.QueryCtx) (limiter limiter' : Rate.RateLimiter) {rest : List Gate}
    (hrest : Gate.rateLimit ∉ rest) :
    rest.findSome? (h.verdict T clock request ctx limiter) =
      rest.findSome? (h.verdict T clock request ctx limiter') := by
  refine Fold.findSome_congr fun g hg => verdict_limiter h clock request ctx limiter limiter' ?_
  rintro rfl
  exact hrest hg

/-- Past its gate the limiter does not matter. -/
theorem remaining_limiter (h : Pipeline.DnsHandler H) (limiter limiter' : Rate.RateLimiter)
    (hpast : PastLimiter job) : remaining T h limiter job = remaining T h limiter' job := by
  unfold remaining
  split
  · rename_i rest hgates
    rw [findSome_limiter h job.clock job.request job.ctx limiter limiter' (hpast rest hgates)]
  · rfl
  · rfl
  · rfl
  · rfl

/-- A step of a job leaves it on its way. -/
theorem remaining_next {h : Pipeline.DnsHandler H} {limiter limiter' : Rate.RateLimiter}
    {phase : Phase H} (hnext : next T h limiter job = some phase)
    (hpast : PastLimiter (job.advance limiter phase)) :
    remaining T h limiter' (job.advance limiter phase) = remaining T h limiter job := by
  rw [remaining_limiter h limiter' limiter hpast]
  unfold next at hnext
  split at hnext
  · rename_i hgates
    cases hnext
    simp [remaining, Job.advance, hgates]
  · rename_i g rest hgates
    split at hnext
    · rename_i reply hv
      cases hnext
      simp [remaining, Job.advance, hgates, hv]
    · rename_i hv
      cases hnext
      simp [remaining, Job.advance, hgates, hv]
  · rename_i hasking
    cases hnext
    simp [remaining, Job.advance, hasking, stageResolve_eq_afterAnswer]
  · rename_i hanswered
    cases hnext
    simp [remaining, Job.advance, hanswered, afterAnswer]
  · rename_i out hanswered
    split at hnext
    · rename_i hcloak
      cases hnext
      simp only [remaining, Job.advance, hanswered, afterAnswer, hcloak, Bool.true_and]
    · rename_i hcloak
      cases hnext
      simp only [remaining, Job.advance, hanswered, afterAnswer, hcloak, Bool.false_and,
        Bool.false_eq_true, if_false]
  · rename_i out hcnames
    cases hnext
    simp [remaining, Job.advance, hcnames]
  · rename_i out rec rest hcnames
    split at hnext
    · rename_i hblocked
      cases hnext
      simp [remaining, Job.advance, hcnames, hblocked]
    · rename_i hblocked
      cases hnext
      simp [remaining, Job.advance, hcnames, hblocked]
  · cases hnext

theorem next_gates {h : Pipeline.DnsHandler H} {limiter : Rate.RateLimiter} {rest : List Gate}
    (hnext : next T h limiter job = some (.gates rest)) : ∃ g, job.phase = .gates (g :: rest) := by
  unfold next at hnext
  split at hnext <;> try cases hnext
  · rename_i g rest' hgates
    split at hnext <;> cases hnext
    exact ⟨g, hgates⟩
  all_goals split at hnext <;> cases hnext

theorem next_undisturbed {h : Pipeline.DnsHandler H} {limiter : Rate.RateLimiter} {phase : Phase H}
    (hnow : h ∈ job.seen) (hund : Undisturbed T job) (hnext : next T h limiter job = some phase) :
    Undisturbed T (job.advance limiter phase) := by
  intro h' hseen
  obtain rfl : h = h' := by
    rw [show job.seen = [h'] from hseen] at hnow
    exact List.mem_singleton.1 hnow
  refine .inr ?_
  rcases hund h hseen with hstart | ⟨hpast, limiter₀, hmet, hsettle⟩
  · have hpast : PastLimiter (job.advance limiter phase) := by
      rintro rest rfl
      obtain ⟨g, hgates⟩ := next_gates hnext
      rw [hstart] at hgates
      cases hgates
      decide
    refine ⟨hpast, limiter, ?_, ?_⟩
    · rw [Job.advance, hstart]
      rfl
    · rw [remaining_next hnext hpast, remaining, hstart]
      rfl
  · have hpast' : PastLimiter (job.advance limiter phase) := by
      rintro rest rfl
      obtain ⟨g, hgates⟩ := next_gates hnext
      exact fun hmem => hpast _ hgates (List.mem_cons_of_mem _ hmem)
    refine ⟨hpast', limiter₀, ?_, ?_⟩
    · rw [← hmet]
      unfold Job.advance
      split
      · rename_i hgates
        exact absurd List.mem_cons_self (hpast _ hgates)
      · rfl
    · rw [remaining_next hnext hpast', remaining_limiter h limiter limiter₀ hpast]
      exact hsettle

theorem next_ok {h : Pipeline.DnsHandler H} {limiter : Rate.RateLimiter} {phase : Phase H}
    (hok : JobOk S T h job) (hnext : next T h limiter job = some phase) :
    JobOk S T h (job.advance limiter phase) := by
  have hnow : h ∈ job.seen := hok.current (finished_of_next hnext)
  have hphase := next_phaseOk hnow hok.phase hnext
  exact ⟨fun _ => hnow, hok.ctx, hphase.mono (List.Subset.refl _) rfl rfl rfl, hok.asks,
    next_undisturbed hnow hok.undisturbed hnext⟩

/-- A swap is seen by the jobs under way. -/
theorem see_ok {h : Pipeline.DnsHandler H} (hok : JobOk S T h job) (swap : Swap H) :
    JobOk S T (swap.apply h) (job.see (swap.apply h)) := by
  have hphase := hok.phase
  rw [← apply_config h swap] at hphase
  unfold Job.see
  split
  · rename_i hfinished
    refine ⟨?_, hok.ctx, hphase, hok.asks, hok.undisturbed⟩
    intro hnot
    rw [hfinished] at hnot
    cases hnot
  · obtain ⟨h', hmem, hctx⟩ := hok.ctx
    refine ⟨fun _ => by simp, ⟨h', List.mem_append_left _ hmem, hctx⟩,
      hphase.mono (List.subset_append_left _ _) rfl rfl rfl, hok.asks, ?_⟩
    -- with the new handler it has seen two
    intro h'' hseen
    have hlen := congrArg List.length hseen
    have hpos := List.length_pos_of_mem hmem
    simp only [List.length_append, List.length_singleton] at hlen
    omega

/-! ## Runs -/

/-- What holds in every reachable state. -/
structure Inv (S : HickoryServer H) (T : UnicodeTables) (s : St H) : Prop where
  jobs : ∀ id job, s.jobs id = some job → JobOk S T s.handler job
  calls : ∀ job ∈ s.calls, (∃ h ∈ job.seen, job.ctx = h.queryCtx S job.clock job.request job.query) ∧
    ∀ g ∈ Gate.order, Cleared T job g

theorem inv_step (hinv : Inv S T s) (h : step S T s act = some t) : Inv S T t := by
  cases act with
  | arrive id clock request =>
    simp only [step] at h
    split at h
    · rename_i query hjob hinfo
      cases h
      refine ⟨?_, hinv.calls⟩
      intro id' job hjob'
      by_cases hid : id' = id
      · subst hid
        simp only [St.put, Function.update_self, Option.some.injEq] at hjob'
        subst hjob'
        exact ⟨fun _ => List.mem_singleton_self _, ⟨s.handler, List.mem_singleton_self _, rfl⟩,
          ⟨[], rfl, by simp⟩, hinfo, fun _ _ => .inl rfl⟩
      · simp only [St.put, Function.update_of_ne hid] at hjob'
        exact hinv.jobs id' job hjob'
    · cases h
  | swap swap =>
    cases h
    refine ⟨?_, hinv.calls⟩
    intro id job hjob
    simp only [St.swap, Option.map_eq_some_iff] at hjob
    obtain ⟨before, hbefore, rfl⟩ := hjob
    exact see_ok (hinv.jobs id before hbefore) swap
  | advance id =>
    simp only [step] at h
    split at h
    · cases h
    · rename_i job hjob
      rw [Option.map_eq_some_iff] at h
      obtain ⟨phase, hnext, rfl⟩ := h
      have hok := hinv.jobs id job hjob
      refine ⟨?_, ?_⟩
      · intro id' job' hjob'
        by_cases hid : id' = id
        · subst hid
          simp only [St.put, Function.update_self, Option.some.injEq] at hjob'
          subst hjob'
          exact next_ok hok hnext
        · simp only [St.put, Function.update_of_ne hid] at hjob'
          exact hinv.jobs id' job' hjob'
      · intro job' hjob'
        simp only [St.put, callsAfter] at hjob'
        split at hjob'
        · rename_i hasking
          rw [List.mem_append, List.mem_singleton] at hjob'
          rcases hjob' with hjob' | rfl
          · exact hinv.calls job' hjob'
          · have hphase := hok.phase
            rw [hasking] at hphase
            exact ⟨hok.ctx, hphase⟩
        · exact hinv.calls job' hjob'

theorem inv_reachable (hs : (system S T).Reachable s) : Inv S T s := by
  refine hs.invariant ?_ fun _ _ _ hinv hstep => inv_step hinv hstep
  rintro s ⟨hjobs, hcalls⟩
  refine ⟨?_, ?_⟩
  · intro id job hjob
    rw [hjobs] at hjob
    cases hjob
  · intro job hjob
    rw [hcalls] at hjob
    cases hjob

/-! ## Running to the end -/

/-- The steps of a job alone bring it to its end. -/
def Finishes (S : HickoryServer H) (T : UnicodeTables) (id : Nat) (s : St H) : Prop :=
  ∃ n t job reply, LTS.exec (step S T) s (List.replicate n (.advance id)) = some t ∧
    t.jobs id = some job ∧ job.phase = .done reply

/-- What is left of a request: first the stage, then what the stage has left. -/
def Phase.left : Phase H → Nat × Nat
  | .gates rest => (4, rest.length)
  | .asking => (3, 0)
  | .answered _ => (2, 0)
  | .cnames _ rest => (1, rest.length)
  | .done _ => (0, 0)

theorem next_left {h : Pipeline.DnsHandler H} {limiter : Rate.RateLimiter} {phase : Phase H}
    (hnext : next T h limiter job = some phase) :
    Prod.Lex (· < ·) (· < ·) phase.left job.phase.left := by
  unfold next at hnext
  rw [Prod.lex_def]
  split at hnext
  · rename_i hgates
    cases hnext
    simp [hgates, Phase.left]
  · rename_i hgates
    rw [hgates]
    split at hnext <;> cases hnext <;> simp [Phase.left]
  · rename_i hasking
    cases hnext
    simp [hasking, Phase.left]
  · rename_i hanswered
    cases hnext
    simp [hanswered, Phase.left]
  · rename_i hanswered
    rw [hanswered]
    split at hnext <;> cases hnext <;> simp [Phase.left]
  · rename_i hcnames
    cases hnext
    simp [hcnames, Phase.left]
  · rename_i hcnames
    rw [hcnames]
    split at hnext <;> cases hnext <;> simp [Phase.left]
  · cases hnext

theorem done_of_next {h : Pipeline.DnsHandler H} {limiter : Rate.RateLimiter}
    (hnext : next T h limiter job = none) : ∃ reply, job.phase = .done reply := by
  unfold next at hnext
  split at hnext <;> try cases hnext
  · split at hnext <;> cases hnext
  · split at hnext <;> cases hnext
  · split at hnext <;> cases hnext
  · rename_i reply hdone
    exact ⟨reply, hdone⟩

/-- Each request under way can run to its end. -/
theorem request_can_finish (id : Nat) (s : St H) (job : Job H) (hjob : s.jobs id = some job) :
    Finishes S T id s := by
  cases hnext : next T s.handler s.limiter job with
  | none =>
    obtain ⟨reply, hdone⟩ := done_of_next hnext
    exact ⟨0, s, job, reply, rfl, hjob, hdone⟩
  | some phase =>
    obtain ⟨t, hstep, ht⟩ : ∃ t, step S T s (.advance id) = some t ∧
        t.jobs id = some (job.advance s.limiter phase) := by
      simp only [step, hjob, hnext, Option.map_some]
      exact ⟨_, rfl, Function.update_self id _ s.jobs⟩
    obtain ⟨n, u, job', reply, hexec, hdone⟩ :=
      request_can_finish id t (job.advance s.limiter phase) ht
    refine ⟨n + 1, u, job', reply, ?_, hdone⟩
    rw [List.replicate_succ, LTS.exec, hstep]
    exact hexec
termination_by job.phase.left
decreasing_by exact next_left hnext

end

/-- **Requests beside each other.** A request that has ended and met no swap was given the response
that `handle_request` gives to it alone, in any world whose limiter is the one that its rate-limit
gate met: as the requests before left it. -/
theorem undisturbed_request_is_sequential (S : HickoryServer H) (T : UnicodeTables) (s : St H)
    (hs : (system S T).Reachable s) :
    ∀ id job reply h, s.jobs id = some job → job.phase = .done reply → job.seen = [h] →
      ∃ limiter, job.met = some limiter ∧ ∀ w : World, w.limiter = limiter →
        DnsHandler.finish S job.request reply = (h.handleRequest S T job.clock job.request w).1 := by
  intro id job reply h hjob hdone hseen
  have hok := (inv_reachable hs).jobs id job hjob
  obtain ⟨h', hmem, hctx⟩ := hok.ctx
  rw [hseen, List.mem_singleton] at hmem
  subst hmem
  rcases hok.undisturbed h' hseen with hstart | ⟨-, limiter, hmet, hsettle⟩
  · rw [hdone] at hstart
    cases hstart
  · simp only [remaining, hdone] at hsettle
    refine ⟨limiter, hmet, ?_⟩
    rintro w rfl
    rw [DnsHandler.handleRequest_settle S T (Request.info_eq_some_iff.1 hok.asks), ← hctx, hsettle]

/-- A state with nothing under way. -/
def idle (h : Pipeline.DnsHandler H) : St H where
  handler := h
  limiter := Rate.RateLimiter.new {} 0
  jobs := fun _ => none
  calls := []

theorem reachable_of_idle {S : HickoryServer H} {T : UnicodeTables} {h : Pipeline.DnsHandler H}
    {acts : List (Act H)} {t : St H} (hexec : LTS.exec (step S T) (idle h) acts = some t) :
    (system S T).Reachable t :=
  .run (.init ⟨rfl, rfl⟩) (.of_exec hexec)

/-- A request for `a.b.`. -/
def arrival (id : Nat) : Act textNames := .arrive id ⟨0, 1700000000⟩ (plainRequest none)

/-- Two requests in turn, up to the authority of the first. -/
def twoRequests : List (Act textNames) :=
  [arrival 0, arrival 1] ++ (List.replicate 8 [.advance 1, .advance 0]).flatten

theorem undisturbed_request_is_sequential_two :
    ∃ t job reply h limiter,
      LTS.exec (step plainServer .asciiOnly) (idle openHandler) twoRequests = some t ∧
      t.jobs 0 = some job ∧ job.phase = .done reply ∧ job.seen = [h] ∧ job.met = some limiter ∧
      ∀ w : World, w.limiter = limiter → DnsHandler.finish plainServer job.request reply =
        (h.handleRequest plainServer .asciiOnly job.clock job.request w).1 := by
  have hrun : ((LTS.exec (step plainServer .asciiOnly) (idle openHandler) twoRequests).bind
      fun t => (t.jobs 0).map fun job => (job.finished, job.seen.length)) = some (true, 1) := by
    decide +kernel
  obtain ⟨t, ht, hjobs⟩ := Option.bind_eq_some_iff.1 hrun
  obtain ⟨job, hjob, hends⟩ := Option.map_eq_some_iff.1 hjobs
  obtain ⟨hfinished, hlen⟩ := Prod.mk.inj hends
  obtain ⟨reply, hdone⟩ := Job.finished_iff.1 hfinished
  obtain ⟨h, hseen⟩ := List.length_eq_one_iff.1 hlen
  obtain ⟨limiter, hmet, hw⟩ := undisturbed_request_is_sequential plainServer .asciiOnly t
    (reachable_of_idle ht) 0 job reply h hjob hdone hseen
  exact ⟨t, job, reply, h, limiter, ht, hjob, hdone, hseen, hmet, hw⟩

/-- **Swaps do not leak.** However the stores of reloads fall between the steps of the requests: a
query that goes upstream was, at some point while its request was under way, outside the zones of the
authority, not rewritten, and not blocked or exempt, each by the component that was current then; and
a reply served from the resolver has, with the search for cloaked names on, no CNAME target that was
blocked for the client all the while. -/
theorem swaps_do_not_leak (S : HickoryServer H) (T : UnicodeTables) (s : St H)
    (hs : (system S T).Reachable s) :
    (∀ job ∈ s.calls,
      job.ctx.qname = S.display job.query.name ∧
      (∃ h ∈ job.seen, h.authority.isAuthoritativeFor job.ctx.qname = false) ∧
      (∃ h ∈ job.seen, h.gateRewrite T job.ctx = none) ∧
      (∃ h ∈ job.seen, job.ctx.policy.blocklistBypass = true ∨
        h.blocklist.isBlockedForGroup T job.ctx.qnameCanon job.ctx.policy.blocklistGroup = false) ∧
      ∃ h ∈ job.seen, job.ctx.policy = resolvePolicy h.policyByIp job.clock.nowUnix job.request.src) ∧
    (∀ id job reply, s.jobs id = some job → job.phase = .done reply →
      reply.servedBy = .resolver → ∃ out : ResolveOutcome,
        reply.answers = dnsRecordsToRrs H out.records ∧
        (s.handler.blocklist.config.blockCnameCloaking = true →
          job.ctx.policy.blocklistBypass = false → ∀ rec ∈ out.records, ∀ target,
            rec.data = .cname target → ∃ h ∈ job.seen,
              h.blocklist.isBlockedForGroup T target job.ctx.policy.blocklistGroup = false)) := by
  have hinv := inv_reachable hs
  constructor
  · intro job hjob
    obtain ⟨⟨h₀, hmem₀, hctx⟩, hall⟩ := hinv.calls job hjob
    obtain ⟨h₁, hmem₁, l₁, hauthority⟩ := hall .authority (by decide)
    obtain ⟨h₂, hmem₂, l₂, hrewrite⟩ := hall .rewrite (by decide)
    obtain ⟨h₃, hmem₃, l₃, hblocklist⟩ := hall .blocklist (by decide)
    have hname : job.ctx.qname = S.display job.query.name := by
      rw [hctx]
      rfl
    have hcanon : job.ctx.qnameCanon = canonicalQname job.ctx.qname := by
      rw [hctx]
      rfl
    refine ⟨hname, ⟨h₁, hmem₁, ?_⟩, ⟨h₂, hmem₂, hrewrite⟩, ⟨h₃, hmem₃, ?_⟩, ⟨h₀, hmem₀, ?_⟩⟩
    · by_contra hauth
      rw [Bool.not_eq_false, ← DnsHandler.isAuthoritativeFor_canonicalQname, ← hcanon] at hauth
      have hsome := DnsHandler.gateAuthority_isSome (h := h₁) hauth
      rw [show h₁.gateAuthority job.ctx = none from hauthority] at hsome
      cases hsome
    · exact gateBlocklist_eq_none_iff.1 hblocklist
    · rw [hctx]
      rfl
  · intro id job reply hjob hdone hserved
    have hphase := (hinv.jobs id job hjob).phase
    rw [hdone] at hphase
    obtain ⟨-, out, hanswers, hclean⟩ := hphase hserved
    refine ⟨out, hanswers, ?_⟩
    intro hcloaking hbypass rec hrec target hdata
    obtain ⟨h, hmem, hunblocked⟩ := hclean (by rw [hcloaking, hbypass]; rfl) rec hrec
    refine ⟨h, hmem, ?_⟩
    simp only [cnameBlocked, hdata] at hunblocked
    exact hunblocked

/-- A handler that blocks `a.b`, with an authority for other names. -/
def blockingHandler : Pipeline.DnsHandler textNames :=
  { openHandler with
    blocklist := strictHandler.blocklist
    authority := { emptyAuthority with meshZone := "z.".toList } }

/-- Between the turn of the authority and that of the blocklist, the authority takes `b.` over and the
blocklist gives `a.b` up. -/
def movedName : List (Act textNames) :=
  [arrival 0] ++ List.replicate 8 (.advance 0) ++
    [.swap (.snapshot { zones := ["b.".toList], records := ∅ }),
      .swap (.blocklist openHandler.blocklist.state)] ++
    List.replicate 4 (.advance 0)

theorem swaps_do_not_leak_moved :
    ∃ t, LTS.exec (step plainServer .asciiOnly) (idle blockingHandler) movedName = some t ∧
      t.calls.length = 1 ∧
      ∀ job ∈ t.calls, ∃ h ∈ job.seen, h.authority.isAuthoritativeFor job.ctx.qname = false := by
  have hrun : ((LTS.exec (step plainServer .asciiOnly) (idle blockingHandler) movedName).map
      fun t => t.calls.length) = some 1 := by
    decide +kernel
  obtain ⟨t, ht, hlen⟩ := Option.map_eq_some_iff.1 hrun
  refine ⟨t, ht, hlen, ?_⟩
  intro job hjob
  exact ((swaps_do_not_leak plainServer .asciiOnly t (reachable_of_idle ht)).1 job hjob).2.1

-- the query goes upstream though each of the three handlers that it saw would have answered it
example : ((LTS.exec (step plainServer .asciiOnly) (idle blockingHandler) movedName).map
      fun s => s.calls.map fun job => (job.seen.length, job.seen.all fun h =>
        (Gate.order.findSome? (h.verdict .asciiOnly job.clock job.request job.ctx
          s.limiter)).isSome)) = some [(3, true)] := by
  decide +kernel

end RustyDns.L5.HotSwap
