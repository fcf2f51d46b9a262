import RustyDns.L3Resolver.Construction
import RustyDns.L4Daemon.Daemon
import RustyDns.L4Daemon.RouteChoice

/-!
# A daemon across its SIGHUPs

A SIGHUP carries a config that may be invalid, and the resolver of a valid one may not come up. What
is then served is pieced together from several configs: the settings of the lists, the authority and
the query log stay those of the start, policies and rewrites are those of the last valid config, and
the resolver is that of the last valid config it could be built from.

`RouteChoice` says which arm a query takes and `Construction` what an arm was built from, so the
servers of a query are those of the URLs that this last config has for its zone. Other upstreams
never see it.

The fetch rounds of SIGHUPs keep a distance; the periodic reloads are not counted.

Results:
* `each_part_serves_its_config`: after any run, which config each part of the daemon serves.
* `sighup_fetches_are_spaced`: over any run, how far the fetch rounds are apart and that no SIGHUP
  goes without one.
-/

namespace RustyDns.L4.SighupRuns

open RustyDns.Lib RustyDns.Lib.Traced RustyDns.L1 RustyDns.L3 RustyDns.L3.Construction
open RustyDns.L2.Auth RustyDns.L2.Mesh RustyDns.L2.Zone RustyDns.L4.Pipeline RustyDns.L4.Rewrite
open RustyDns.L4.Rate (durationSince)

/-! ## Where a query goes -/

section
variable {H : Hickory} (T : UnicodeTables) (res : Resolver H) (name qtype : Str)

/-- A query answered by one hickory arm, the default one or that of a route. -/
def viaArm (arm : ResolverArm H) (onDefault : Bool) : Except RustyDnsError ResolveOutcome := do
  let recordType ← parseRecordType H qtype
  res.resolveViaHickory T arm name recordType onDefault

def viaOdoh (arm : OdohArm H) : Except RustyDnsError ResolveOutcome := do
  let recordType ← parseRecordType H qtype
  res.resolveViaOdoh T arm name recordType

variable {T res name qtype}

theorem resolve_of_route {route : RouteArm H} (h : res.matchRoute name = some route) :
    res.resolve T name qtype = viaArm T res name qtype route.arm false := by
  unfold Resolver.resolve viaArm
  rw [h]

theorem resolve_of_hickory {arm : ResolverArm H} (h : res.matchRoute name = none)
    (hdefault : res.default = .hickory arm) :
    res.resolve T name qtype = viaArm T res name qtype arm true := by
  unfold Resolver.resolve viaArm
  rw [h, hdefault]

theorem resolve_of_odoh {arm : OdohArm H} (h : res.matchRoute name = none)
    (hdefault : res.default = .odoh arm) :
    res.resolve T name qtype = viaOdoh T res name qtype arm := by
  unfold Resolver.resolve viaOdoh
  rw [h, hdefault]

/-- Of the configured routes whose zone covers the name, the one with the longest zone. -/
structure LongestRoute (routes : List UpstreamRoute) (name : Str) (r : UpstreamRoute) : Prop where
  mem : r ∈ routes
  covers : Covers r.zone name
  le : ∀ r' ∈ routes, Covers r'.zone name →
    (labelsOf r'.zone).length ≤ (labelsOf r.zone).length

theorem LongestRoute.of_longest {routes : List (UpstreamRoute × ResolverArm H)}
    {r : UpstreamRoute × ResolverArm H} (h : Longest routes name r) :
    LongestRoute (routes.map Prod.fst) name r.1 := by
  refine ⟨List.mem_map_of_mem h.mem, h.covers, fun r' hr' => ?_⟩
  obtain ⟨p, hp, rfl⟩ := List.mem_map.1 hr'
  exact h.le p hp

end

/-- Queries go where the config says. `made` is what the OS resolver was asked when the resolver was
built; `Built` names the URLs that the servers of an arm come from. -/
structure Routed {H : Hickory} (T : UnicodeTables) (B : Builders H) (cfg : DnsConfig)
    (made : List Call) (res : Resolver H) : Prop where
  /-- Within a zone of some route: the servers of the longest such zone. -/
  route : ∀ name qtype, (∃ r ∈ cfg.upstream.routes, Covers r.zone name) →
    ∃ r arm, LongestRoute cfg.upstream.routes name r ∧
      Built B cfg made r.resolvers r.protocol arm ∧
      res.resolve T name qtype = viaArm T res name qtype arm false
  /-- Elsewhere: the global servers. -/
  hickory : cfg.upstream.protocol ≠ .odoh → ∀ name qtype,
    (∀ r ∈ cfg.upstream.routes, ¬ Covers r.zone name) →
    ∃ arm, Built B cfg made cfg.upstream.resolvers cfg.upstream.protocol arm ∧
      res.resolve T name qtype = viaArm T res name qtype arm true
  odoh : cfg.upstream.protocol = .odoh → ∀ name qtype,
    (∀ r ∈ cfg.upstream.routes, ¬ Covers r.zone name) →
    ∃ arm, odohArmNew B cfg = .ok arm ∧
      res.resolve T name qtype = viaOdoh T res name qtype arm

section
variable {H : Hickory} {T : UnicodeTables} {build : RegexBuild} {B : Builders H} {cfg : DnsConfig}
  {made : List Call} {res : Resolver H}

theorem routed_of_newBuilt (hvalid : validateConfig build cfg = .ok ())
    (h : NewBuilt B cfg made res) : Routed T B cfg made res := by
  obtain ⟨arms, hres, hroutes, harms⟩ := h.routes
  have hpassed : Passed arms := .of_validateConfig hvalid hroutes
  have hnone : ∀ name, (∀ r ∈ cfg.upstream.routes, ¬ Covers r.zone name) →
      res.matchRoute name = none := by
    intro name hfree
    refine (matchRoute_eq_none_iff hpassed hres).2 fun p hp => hfree p.1 ?_
    rw [← hroutes]
    exact List.mem_map_of_mem hp
  have hdefault := h.default
  refine ⟨fun name qtype hcovered => ?_, fun hhickory name qtype hfree => ?_,
    fun hodoh name qtype hfree => ?_⟩
  · obtain ⟨r, hr, hcovers⟩ := hcovered
    rw [← hroutes] at hr
    obtain ⟨p, hp, rfl⟩ := List.mem_map.1 hr
    obtain ⟨longest, hlongest⟩ := exists_longest ⟨p, hp, hcovers⟩
    exact ⟨longest.1, longest.2, hroutes ▸ .of_longest hlongest, harms longest hlongest.mem,
      resolve_of_route (matchRoute_of_longest hpassed hres hlongest)⟩
  · cases harm : res.default with
    | hickory arm =>
      rw [harm] at hdefault
      exact ⟨arm, hdefault.2, resolve_of_hickory (hnone name hfree) harm⟩
    | odoh arm =>
      rw [harm] at hdefault
      exact absurd hdefault.1 hhickory
  · cases harm : res.default with
    | hickory arm =>
      rw [harm] at hdefault
      exact absurd hodoh hdefault.1
    | odoh arm =>
      rw [harm] at hdefault
      exact ⟨arm, hdefault.2, resolve_of_odoh (hnone name hfree) harm⟩

end

/-! ## Which config is served -/

section
variable {H : Hickory} (S : HickoryServer H) (E : Ed25519) (T : UnicodeTables) (build : RegexBuild)
  (B : Builders H)

/-- What some construction from the config gave, with some OS resolver. -/
def FromNew (cfg : DnsConfig) (result : Except RustyDnsError (Resolver H)) : Prop :=
  ∃ (O : Os) (w : World O.State Call), result = ((new O B cfg).run w).1

variable {B} in
theorem FromNew.run {cfg : DnsConfig} (O : Os) (w : World O.State Call) :
    FromNew B cfg ((new O B cfg).run w).1 :=
  ⟨O, w, rfl⟩

/-- The config of the policies and the rewrites, after one more event. -/
def nextValid (c : DnsConfig) : Event H → DnsConfig
  | .sighup hup => if (validateConfig build hup.cfg).isOk then hup.cfg else c
  | _ => c

/-- The config of the resolver, after one more event. -/
def nextBuilt (c : DnsConfig) : Event H → DnsConfig
  | .sighup hup => if (validateConfig build hup.cfg).isOk && hup.resolver.isOk then hup.cfg else c
  | _ => c

def lastValid (cfg : DnsConfig) (events : List (Event H)) : DnsConfig :=
  events.foldl (nextValid build) cfg

def lastBuilt (cfg : DnsConfig) (events : List (Event H)) : DnsConfig :=
  events.foldl (nextBuilt build) cfg

/-- The resolver was built from this config, which is a valid one. -/
def Provided (c : DnsConfig) (res : Resolver H) : Prop :=
  validateConfig build c = .ok () ∧ FromNew B c (.ok res)

/-- The daemon serves `valid` and resolves with `built`. -/
structure Serving (valid built : DnsConfig) (d : Daemon H) : Prop where
  policies : d.policyByIp = buildPolicyMap valid.policy
  rewrites : d.rewrites = .fromRules (combinedRewriteRules valid)
  resolver : Provided build B built d.resolver

variable {S E T build B} {d : Daemon H} {cfg : DnsConfig} {inp : StartInputs H}

theorem serving_start (hfirst : FromNew B cfg inp.resolver)
    (h : Daemon.start E T build inp cfg = .ok d) : Serving build B cfg cfg d := by
  simp only [Daemon.start, Checks.bind_ok_iff, Checks.mapError_ok_iff, Checks.pure_ok_iff] at h
  obtain ⟨_, hvalid, authority, -, resolver, hresolver, sinkhole, -, listeners, -, rfl⟩ := h
  rw [hresolver] at hfirst
  exact ⟨rfl, rfl, hvalid, hfirst⟩

theorem serving_fetchRound {valid built : DnsConfig} (hup : HupInputs H)
    (h : Serving build B valid built d) : Serving build B valid built (d.fetchRound T hup) := by
  unfold Daemon.fetchRound
  split
  · exact ⟨h.policies, h.rewrites, h.resolver⟩
  · exact h

theorem serving_handleSighup {valid built : DnsConfig} {hup : HupInputs H}
    (hnew : FromNew B hup.cfg hup.resolver) (h : Serving build B valid built d) :
    Serving build B (nextValid build valid (.sighup hup)) (nextBuilt build built (.sighup hup))
      (d.handleSighup E T build hup).1 := by
  have hfetched : Serving build B valid built (d.fetchRound T hup) := serving_fetchRound hup h
  simp only [Daemon.handleSighup, nextValid, nextBuilt]
  cases hvalid : validateConfig build hup.cfg with
  | error e => exact ⟨hfetched.policies, hfetched.rewrites, hfetched.resolver⟩
  | ok u =>
    refine ⟨rfl, rfl, ?_⟩
    cases hresolver : hup.resolver with
    | error e =>
      simp only [Daemon.applyHotSwaps, hresolver]
      exact hfetched.resolver
    | ok res =>
      simp only [Daemon.applyHotSwaps, hresolver]
      rw [hresolver] at hnew
      exact ⟨hvalid, hnew⟩

theorem serving_step {valid built : DnsConfig} {e : Event H}
    (he : ∀ hup, e = .sighup hup → FromNew B hup.cfg hup.resolver)
    (h : Serving build B valid built d) :
    Serving build B (nextValid build valid e) (nextBuilt build built e) (d.step S E T build e) := by
  cases e with
  | request clock request => exact ⟨h.policies, h.rewrites, h.resolver⟩
  | blocklistTick round => exact ⟨h.policies, h.rewrites, h.resolver⟩
  | meshTick files => exact ⟨h.policies, h.rewrites, h.resolver⟩
  | sighup hup => exact serving_handleSighup (he hup rfl) h

theorem serving_run {valid built : DnsConfig} {events : List (Event H)}
    (hgenuine : ∀ hup, .sighup hup ∈ events → FromNew B hup.cfg hup.resolver)
    (h : Serving build B valid built d) :
    Serving build B (lastValid build valid events) (lastBuilt build built events)
      (events.foldl (Daemon.step S E T build) d) := by
  induction events generalizing valid built d with
  | nil => exact h
  | cons e events ih =>
    refine ih (fun hup hmem => hgenuine hup (List.mem_cons_of_mem _ hmem)) (serving_step ?_ h)
    rintro hup rfl
    exact hgenuine hup List.mem_cons_self

end

/-- **Which config each part of the daemon serves.** Start a daemon on `cfg` and take any run of
requests, reloads and SIGHUPs, whose resolvers are built by `Resolver::new` with any OS resolver. The
settings of lists, authority and query log are then those of `cfg`, policies and rewrites those of the
last config that was valid, and every query goes to the upstreams of the last valid config that a
resolver could be built from. -/
theorem each_part_serves_its_config {H : Hickory} {S : HickoryServer H} {E : Ed25519}
    {T : UnicodeTables} {build : RegexBuild} {B : Builders H} {cfg : DnsConfig} {inp : StartInputs H}
    {d : Daemon H} (hfirst : FromNew B cfg inp.resolver)
    (hstart : Daemon.start E T build inp cfg = .ok d) {events : List (Event H)}
    (hgenuine : ∀ hup, .sighup hup ∈ events → FromNew B hup.cfg hup.resolver) :
    (events.foldl (Daemon.step S E T build) d).held = Held.of inp.spawns cfg ∧
    (events.foldl (Daemon.step S E T build) d).policyByIp =
      buildPolicyMap (lastValid build cfg events).policy ∧
    (events.foldl (Daemon.step S E T build) d).rewrites =
      .fromRules (combinedRewriteRules (lastValid build cfg events)) ∧
    ∃ (O : Os) (w : World O.State Call) (made : List Call),
      ((new O B (lastBuilt build cfg events)).run w).2.calls = w.calls ++ made ∧
      Routed T B (lastBuilt build cfg events) made
        (events.foldl (Daemon.step S E T build) d).resolver := by
  have hserving : Serving build B (lastValid build cfg events) (lastBuilt build cfg events)
      (events.foldl (Daemon.step S E T build) d) :=
    serving_run hgenuine (serving_start hfirst hstart)
  have hheld : (events.foldl (Daemon.step S E T build) d).held = Held.of inp.spawns cfg := by
    rw [Fold.foldl_const (g := Daemon.held) (fun d e => (held_step d e).1)]
    exact (held_start hstart).1
  refine ⟨hheld, hserving.policies, hserving.rewrites, ?_⟩
  obtain ⟨hvalid, O, w, hnew⟩ := hserving.resolver
  obtain ⟨made, hcalls, houtcome⟩ := new_ensures O B (lastBuilt build cfg events) w
  exact ⟨O, w, made, hcalls, routed_of_newBuilt hvalid (houtcome.built _ hnew.symm)⟩

/-- An OS resolver that gives every host one address. -/
def steadyOs : Os where
  State := Unit
  lookupHost _ s := (.ok [.v4 (.ofOctets 9 9 9 9)], s)
  sleep _ s := s

/-- An OS resolver that is down. -/
def downOs : Os where
  State := Unit
  lookupHost _ s := (.error "down", s)
  sleep _ s := s

def plainBuilders : Builders textNames where
  build _ _ _ := .ok { lookup := fun _ _ => .ok [] }
  parseTarget _ := .error .noConfig
  client _ _ := .error .noConfig
  debug _ := ""

/-- A start on a config with one plain route. -/
def routedInputs : StartInputs textNames where
  files := noFiles
  round := failedRound
  resolver := ((new steadyOs plainBuilders (routedConfig "Corp.internal.".toList)).run ⟨(), []⟩).1
  spawns := false
  outcomes := {}
  now := 0

theorem routedInputs_start : ∃ d, Daemon.start noKeys .asciiOnly noRules routedInputs
    (routedConfig "Corp.internal.".toList) = .ok d := by
  have hok : (Daemon.start noKeys .asciiOnly noRules routedInputs
      (routedConfig "Corp.internal.".toList)).isOk = true := by decide +kernel
  cases hrun : Daemon.start noKeys .asciiOnly noRules routedInputs
      (routedConfig "Corp.internal.".toList) with
  | ok d => exact ⟨d, rfl⟩
  | error e =>
    rw [hrun] at hok
    cases hok

/-- A SIGHUP with a valid config whose upstreams cannot be looked up. -/
def failedHup (now : Rat) : HupInputs textNames where
  cfg := quietConfig
  now := now
  round := failedRound
  files := noFiles
  resolver := ((new downOs plainBuilders quietConfig).run ⟨(), []⟩).1

theorem each_part_serves_its_config_failed :
    let cfg := routedConfig "Corp.internal.".toList
    ∃ d made, Daemon.start noKeys .asciiOnly noRules routedInputs cfg = .ok d ∧
      (d.step plainServer noKeys .asciiOnly noRules (.sighup (failedHup 0))).policyByIp =
        buildPolicyMap quietConfig.policy ∧
      Routed .asciiOnly plainBuilders cfg made
        (d.step plainServer noKeys .asciiOnly noRules (.sighup (failedHup 0))).resolver := by
  intro cfg
  obtain ⟨d, hstart⟩ := routedInputs_start
  have hvalid : (validateConfig noRules quietConfig).isOk = true := by decide +kernel
  have hfailed : (failedHup 0).resolver.isOk = false := by decide +kernel
  have hlast : lastValid noRules cfg [.sighup (failedHup 0)] = quietConfig := by
    simp only [lastValid, List.foldl_cons, List.foldl_nil, nextValid, failedHup, hvalid, if_true]
  have hbuilt : lastBuilt noRules cfg [.sighup (failedHup 0)] = cfg := by
    simp only [lastBuilt, List.foldl_cons, List.foldl_nil, nextBuilt, hfailed, Bool.and_false,
      Bool.false_eq_true, if_false]
  have hfirst : FromNew plainBuilders cfg routedInputs.resolver := by
    dsimp only [routedInputs]
    exact .run steadyOs _
  have hhups : ∀ hup, Event.sighup hup ∈ [Event.sighup (failedHup 0)] →
      FromNew plainBuilders hup.cfg hup.resolver := by
    intro hup hmem
    cases List.mem_singleton.1 hmem
    dsimp only [failedHup]
    exact .run downOs _
  obtain ⟨-, hpolicies, -, O, w, made, -, hrouted⟩ :=
    each_part_serves_its_config (S := plainServer) hfirst hstart hhups
  rw [hlast] at hpolicies
  rw [hbuilt] at hrouted
  exact ⟨d, made, hstart, hpolicies, hrouted⟩

/-! ## How often SIGHUPs fetch -/

section
variable {H : Hickory} (S : HickoryServer H) (E : Ed25519) (T : UnicodeTables) (build : RegexBuild)

/-- Whether a SIGHUP fetches the sources. -/
def fetches (d : Daemon H) (hup : HupInputs H) : Bool :=
  fetchSpacingOk (d.lastFetchRound.map fun t => durationSince hup.now t) minSighupFetchSpacing

/-- When the SIGHUPs of a run came. -/
def sighupTimes (events : List (Event H)) : List Rat :=
  events.filterMap fun e =>
    match e with
    | .sighup hup => some hup.now
    | _ => none

/-- When the SIGHUPs of a run fetched the sources. -/
def fetchTimes (d : Daemon H) : List (Event H) → List Rat
  | [] => []
  | .sighup hup :: events =>
    if fetches d hup then hup.now :: fetchTimes (d.step S E T build (.sighup hup)) events
    else fetchTimes (d.step S E T build (.sighup hup)) events
  | e :: events => fetchTimes (d.step S E T build e) events

variable {S E T build} {d : Daemon H}

theorem fetches_iff {hup : HupInputs H} :
    fetches d hup = true ↔ ∀ t, d.lastFetchRound = some t → t + 60 ≤ hup.now := by
  cases hlast : d.lastFetchRound with
  | none => simp [fetches, hlast, fetchSpacingOk]
  | some t =>
    have hspacing : (60 : Rat) ≤ max (hup.now - t) 0 ↔ t + 60 ≤ hup.now := by
      constructor
      · intro h
        rcases le_max_iff.1 h with h | h
        · linarith
        · norm_num at h
      · intro h
        exact le_max_of_le_left (by linarith)
    simpa [fetches, hlast, fetchSpacingOk, durationSince, minSighupFetchSpacing] using hspacing

theorem lastFetchRound_sighup (hup : HupInputs H) :
    (d.step S E T build (.sighup hup)).lastFetchRound =
      if fetches d hup then some hup.now else d.lastFetchRound := by
  have hfetch : (d.fetchRound T hup).lastFetchRound =
      if fetches d hup then some hup.now else d.lastFetchRound := by
    unfold Daemon.fetchRound fetches
    split <;> rfl
  rw [← hfetch]
  simp only [Daemon.step, Daemon.handleSighup]
  split <;> rfl

/-- The fetch rounds of a run that starts with the last one at `last`. -/
structure Spaced (last : Option Rat) (times fetched : List Rat) : Prop where
  after : ∀ t, last = some t → ∀ f ∈ fetched, t + 60 ≤ f
  apart : fetched.Pairwise fun a b => a + 60 ≤ b
  covered : ∀ t ∈ times, ∃ f, (last = some f ∨ f ∈ fetched) ∧ f ≤ t ∧ t < f + 60

theorem Spaced.nil (last : Option Rat) : Spaced last [] [] :=
  ⟨by simp, .nil, by simp⟩

/-- A SIGHUP that fetches. -/
theorem Spaced.fetch {last : Option Rat} {now : Rat} {times fetched : List Rat}
    (hspacing : ∀ t, last = some t → t + 60 ≤ now) (h : Spaced (some now) times fetched) :
    Spaced last (now :: times) (now :: fetched) where
  after t ht := by
    refine List.forall_mem_cons.2 ⟨hspacing t ht, fun f hf => ?_⟩
    have hnow := hspacing t ht
    have hf' := h.after now rfl f hf
    linarith
  apart := List.pairwise_cons.2 ⟨h.after now rfl, h.apart⟩
  covered := by
    refine List.forall_mem_cons.2 ⟨⟨now, .inr List.mem_cons_self, le_rfl, by linarith⟩, ?_⟩
    intro t ht
    obtain ⟨f, hf, hle, hlt⟩ := h.covered t ht
    refine ⟨f, .inr ?_, hle, hlt⟩
    rcases hf with hlast | hf
    · cases hlast
      exact List.mem_cons_self
    · exact List.mem_cons_of_mem _ hf

/-- A SIGHUP that comes too early. -/
theorem Spaced.skip {last now : Rat} {times fetched : List Rat} (hle : last ≤ now)
    (hlt : now < last + 60) (h : Spaced (some last) times fetched) :
    Spaced (some last) (now :: times) fetched :=
  ⟨h.after, h.apart, List.forall_mem_cons.2 ⟨⟨last, .inl rfl, hle, hlt⟩, h.covered⟩⟩

theorem spaced_fetchTimes {events : List (Event H)} (hsorted : (sighupTimes events).Pairwise (· ≤ ·))
    (hlater : ∀ t, d.lastFetchRound = some t → ∀ now ∈ sighupTimes events, t ≤ now) :
    Spaced d.lastFetchRound (sighupTimes events) (fetchTimes S E T build d events) := by
  induction events generalizing d with
  | nil => exact .nil _
  | cons e events ih =>
    cases e with
    | request clock request =>
      exact ih (d := d.step S E T build (.request clock request)) hsorted hlater
    | blocklistTick round => exact ih (d := d.step S E T build (.blocklistTick round)) hsorted hlater
    | meshTick files => exact ih (d := d.step S E T build (.meshTick files)) hsorted hlater
    | sighup hup =>
      obtain ⟨hfirst, hrest⟩ := List.pairwise_cons.1 hsorted
      have hlast : (d.step S E T build (.sighup hup)).lastFetchRound =
          if fetches d hup then some hup.now else d.lastFetchRound := lastFetchRound_sighup hup
      by_cases hfetches : fetches d hup = true
      · rw [if_pos hfetches] at hlast
        have hih := ih (d := d.step S E T build (.sighup hup)) hrest (by
          rw [hlast]
          rintro t ht now hnow
          cases ht
          exact hfirst now hnow)
        rw [hlast] at hih
        simp only [fetchTimes, if_pos hfetches]
        exact hih.fetch (fetches_iff.1 hfetches)
      · rw [if_neg hfetches] at hlast
        have hih := ih (d := d.step S E T build (.sighup hup)) hrest (by
          rw [hlast]
          exact fun t ht now hnow => hlater t ht now (List.mem_cons_of_mem _ hnow))
        rw [hlast] at hih
        simp only [fetchTimes, if_neg hfetches]
        rw [fetches_iff] at hfetches
        push Not at hfetches
        obtain ⟨t, ht, hearly⟩ := hfetches
        rw [ht] at hih ⊢
        exact hih.skip (hlater t ht hup.now List.mem_cons_self) hearly

end

/-- **SIGHUPs fetch at a distance, and none goes without.** Over any run of a daemon from its start, in
which the clock of the SIGHUPs does not go back: two fetch rounds of SIGHUPs are at least 60
seconds apart, and every SIGHUP fetches or comes less than 60 seconds after one that did. -/
theorem sighup_fetches_are_spaced {H : Hickory} {S : HickoryServer H} {E : Ed25519}
    {T : UnicodeTables} {build : RegexBuild} {cfg : DnsConfig} {inp : StartInputs H} {d : Daemon H}
    (hstart : Daemon.start E T build inp cfg = .ok d) {events : List (Event H)}
    (hsorted : (sighupTimes events).Pairwise (· ≤ ·)) :
    (fetchTimes S E T build d events).Pairwise (fun a b => a + 60 ≤ b) ∧
    ∀ t ∈ sighupTimes events, ∃ f ∈ fetchTimes S E T build d events, f ≤ t ∧ t < f + 60 := by
  have hfresh : d.lastFetchRound = none := by
    simp only [Daemon.start, Checks.bind_ok_iff, Checks.mapError_ok_iff, Checks.pure_ok_iff] at hstart
    obtain ⟨_, -, _, -, _, -, _, -, _, -, rfl⟩ := hstart
    rfl
  have hspaced : Spaced d.lastFetchRound (sighupTimes events) (fetchTimes S E T build d events) :=
    spaced_fetchTimes hsorted (by simp [hfresh])
  refine ⟨hspaced.apart, fun t ht => ?_⟩
  obtain ⟨f, hf, hle, hlt⟩ := hspaced.covered t ht
  rw [hfresh] at hf
  exact ⟨f, hf.resolve_left (by simp), hle, hlt⟩

theorem sighup_fetches_are_spaced_three :
    let events := [0, 30, 60].map fun now => Event.sighup (failedHup now)
    ∃ d, Daemon.start noKeys .asciiOnly noRules routedInputs
        (routedConfig "Corp.internal.".toList) = .ok d ∧
      (fetchTimes plainServer noKeys .asciiOnly noRules d events).Pairwise (fun a b => a + 60 ≤ b) ∧
      ∀ t ∈ ([0, 30, 60] : List Rat),
        ∃ f ∈ fetchTimes plainServer noKeys .asciiOnly noRules d events, f ≤ t ∧ t < f + 60 := by
  intro events
  obtain ⟨d, hstart⟩ := routedInputs_start
  have htimes : sighupTimes events = [0, 30, 60] := rfl
  have hsorted : (sighupTimes events).Pairwise (· ≤ ·) := by
    rw [htimes]
    decide
  obtain ⟨hapart, hcovered⟩ := sighup_fetches_are_spaced (S := plainServer) hstart hsorted
  exact ⟨d, hstart, hapart, htimes ▸ hcovered⟩

end RustyDns.L4.SighupRuns
