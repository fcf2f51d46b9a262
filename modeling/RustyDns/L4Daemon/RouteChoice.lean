import RustyDns.Lib.LongestFirst
import RustyDns.L1Core.Validate
import RustyDns.L4Daemon.ZoneTests

/-!
# The choice of a route

Conditional forwarding: validation wants the zones of the routes to end in a dot and to differ, the
constructor sorts the arms by the length of their zones, and a query takes the first arm whose zone
it is within. The zones a name is within are ends of one another, so the longest text is the one
with the most labels and no two zones tie.

Results:
* `matchRoute_picks_longest`: a query takes the route with the longest zone it is within, whatever
  the order of the routes.
* `route_live_iff`: an accepted route can be reached by a name with non-empty labels just when its
  zone has no empty label.
-/

namespace RustyDns.L4.Pipeline

open RustyDns.Lib RustyDns.Lib.Labels RustyDns.Lib.LongestFirst RustyDns.L1 RustyDns.L3
open RustyDns.L2.Auth RustyDns.L2.Zone

/-! ## The zones of accepted routes -/

theorem validateRoutes_dot {seen : List Str} {routes : List (UpstreamRoute × Nat)}
    (h : validateRoutes seen routes = .ok ()) : ∀ p ∈ routes, p.1.zone.endsWith ['.'] = true := by
  induction routes generalizing seen with
  | nil => simp
  | cons p rest ih =>
    simp only [validateRoutes, Checks.seq_ok_iff, Checks.reject_ok_iff] at h
    obtain ⟨-, hdot, -, -, -, -, hrest⟩ := h
    exact List.forall_mem_cons.2 ⟨by simpa using hdot, ih hrest⟩

theorem validateRoutes_zones {seen : List Str} {routes : List (UpstreamRoute × Nat)}
    (h : validateRoutes seen routes = .ok ()) :
    (routes.map (·.1.zone.trim.toAsciiLowercase)).Nodup := by
  refine (Checks.nodup_of_seen (P := fun seen l => validateRoutes seen l = .ok ())
    (fun seen p rest hpass => ?_) h).1
  simp only [validateRoutes, Checks.seq_ok_iff, Checks.reject_ok_iff] at hpass
  obtain ⟨-, -, -, hnew, -, -, hrest⟩ := hpass
  exact ⟨hnew, hrest⟩

/-- A text that ends in a dot still does when it is trimmed and in lower case. -/
theorem normalised_zone_eq_spell {zone : Str} (h : zone.endsWith ['.'] = true) :
    zone.trim.toAsciiLowercase = spell '.' (labelsOf zone) := by
  obtain ⟨front, rfl⟩ := Str.endsWith_iff.1 h
  have hdot : (Str.trim (front ++ ['.'])).toAsciiLowercase.endsWith ['.'] = true := by
    rw [trim_concat_dot, endsWith_dot_toAsciiLowercase]
    exact Str.endsWith_iff.2 ⟨_, rfl⟩
  unfold labelsOf
  rw [← qualified_eq_spell, if_pos hdot]

section
variable {H : Hickory} {routes : List (UpstreamRoute × ResolverArm H)} {name : Str}
  {r r' : UpstreamRoute × ResolverArm H}

/-- The routes of a config, each with the arm built for it, pass the checks. -/
structure Passed (routes : List (UpstreamRoute × ResolverArm H)) : Prop where
  dot : ∀ r ∈ routes, r.1.zone.endsWith ['.'] = true
  nodup : (routes.map fun r => r.1.zone.trim.toAsciiLowercase).Nodup

theorem passed_of_validateRoutes
    (h : validateRoutes [] (routes.map Prod.fst).zipIdx = .ok ()) : Passed routes := by
  have hdot := validateRoutes_dot h
  have hnodup := validateRoutes_zones h
  refine ⟨fun r hr => ?_, ?_⟩
  · obtain ⟨idx, hidx⟩ := List.mem_iff_getElem?.1 (List.mem_map_of_mem hr)
    exact hdot (r.1, idx) (List.mem_zipIdx_iff_getElem?.2 hidx)
  · rwa [Fold.map_zipIdx_fst fun route : UpstreamRoute => route.zone.trim.toAsciiLowercase,
      List.map_map] at hnodup

theorem Passed.eq_of_labelsOf (h : Passed routes) (hr : r ∈ routes) (hr' : r' ∈ routes)
    (heq : labelsOf r.1.zone = labelsOf r'.1.zone) : r = r' := by
  refine List.inj_on_of_nodup_map h.nodup hr hr' ?_
  rw [normalised_zone_eq_spell (h.dot r hr), normalised_zone_eq_spell (h.dot r' hr'), heq]

/-! ## The longest zone -/

/-- The zone is the name or an ancestor of it. -/
def Covers (zone name : Str) : Prop := labelsOf zone <:+ queryLabels name

/-- Of the routes whose zone covers the name, the one with the longest zone. -/
structure Longest (routes : List (UpstreamRoute × ResolverArm H)) (name : Str)
    (r : UpstreamRoute × ResolverArm H) : Prop where
  mem : r ∈ routes
  covers : Covers r.1.zone name
  le : ∀ r' ∈ routes, Covers r'.1.zone name →
    (labelsOf r'.1.zone).length ≤ (labelsOf r.1.zone).length

theorem Longest.perm {order : List (UpstreamRoute × ResolverArm H)} (h : Longest order name r)
    (hperm : order.Perm routes) : Longest routes name r :=
  ⟨hperm.mem_iff.1 h.mem, h.covers, fun r' hr' => h.le r' (hperm.mem_iff.2 hr')⟩

theorem Longest.unique (hpassed : Passed routes) (h : Longest routes name r)
    (h' : Longest routes name r') : r = r' := by
  refine hpassed.eq_of_labelsOf h.mem h'.mem ?_
  have hle := h.le r' h'.mem h'.covers
  have hle' := h'.le r h.mem h.covers
  exact (List.suffix_of_suffix_length_le h.covers h'.covers hle').eq_of_length (by omega)

/-- Of two ends of one name, the longer text has the more labels. -/
theorem length_le_of_byteLen_le {a b ls : List Str} (ha : a <:+ ls) (hb : b <:+ ls)
    (hle : Str.byteLen (spell '.' a) ≤ Str.byteLen (spell '.' b)) : a.length ≤ b.length := by
  rcases List.suffix_or_suffix_of_suffix ha hb with h | ⟨front, rfl⟩
  · exact h.length_le
  · rw [spell_append, Str.byteLen_append] at hle
    have hempty : spell '.' front = [] := by
      by_contra hne
      have hpos := Str.byteLen_pos hne
      omega
    rw [spell_eq_nil_iff.1 hempty, List.nil_append]

variable {res : Resolver H}

/-- The test of an accepted route. -/
theorem Passed.test_iff (hpassed : Passed routes) (hr : r ∈ routes) :
    nameWithinZone (spell '.' (queryLabels name)) (RouteArm.ofZone r.1.zone r.2).zoneWithDot = true
      ↔ Covers r.1.zone name := by
  simp only [RouteArm.ofZone, normalised_zone_eq_spell (hpassed.dot r hr)]
  exact nameWithinZone_iff (apart_queryLabels name) (apart_labelsOf _)

theorem longest_of_matchRoute (hpassed : Passed routes) (hres : res.routes = routeArms routes)
    {a : RouteArm H} (h : res.matchRoute name = some a) :
    ∃ r, Longest routes name r ∧ a = RouteArm.ofZone r.1.zone r.2 := by
  rw [matchRoute_eq_find? hres] at h
  have hfirst : FirstLongest (fun a : RouteArm H => a.zoneWithDot.byteLen) _ _ _ :=
    firstLongest_of_find? h
  obtain ⟨r, hr, rfl⟩ := List.mem_map.1 hfirst.mem
  have hcovers := (hpassed.test_iff hr).1 hfirst.passes
  refine ⟨r, ⟨hr, hcovers, fun r' hr' hcovers' => ?_⟩, rfl⟩
  have hle := hfirst.le (List.mem_map_of_mem hr') ((hpassed.test_iff hr').2 hcovers')
  simp only [RouteArm.ofZone, normalised_zone_eq_spell (hpassed.dot r hr),
    normalised_zone_eq_spell (hpassed.dot r' hr')] at hle
  exact length_le_of_byteLen_le hcovers' hcovers hle

theorem matchRoute_eq_none_iff (hpassed : Passed routes) (hres : res.routes = routeArms routes) :
    res.matchRoute name = none ↔ ∀ r ∈ routes, ¬ Covers r.1.zone name := by
  rw [matchRoute_eq_find? hres, List.find?_eq_none]
  simp only [routeArms, List.mem_insertionSort, List.mem_map, forall_exists_index, and_imp,
    forall_apply_eq_imp_iff₂]
  exact forall₂_congr fun r hr => not_congr (hpassed.test_iff hr)

/-- The scan returns the longest route. -/
theorem matchRoute_of_longest (hpassed : Passed routes) (hres : res.routes = routeArms routes)
    (h : Longest routes name r) : res.matchRoute name = some (RouteArm.ofZone r.1.zone r.2) := by
  cases hmatch : res.matchRoute name with
  | none => exact absurd h.covers ((matchRoute_eq_none_iff hpassed hres).1 hmatch r h.mem)
  | some a =>
    obtain ⟨r', hr', rfl⟩ := longest_of_matchRoute hpassed hres hmatch
    rw [hr'.unique hpassed h]

theorem exists_longest (h : ∃ r ∈ routes, Covers r.1.zone name) : ∃ r, Longest routes name r := by
  obtain ⟨r, hr⟩ : ∃ r, FirstLongest (fun r => (labelsOf r.1.zone).length) _ routes r :=
    exists_firstLongest h
  exact ⟨r, hr.mem, hr.passes, fun _ => hr.le⟩

theorem Passed.perm {order : List (UpstreamRoute × ResolverArm H)} (h : Passed routes)
    (hperm : order.Perm routes) : Passed order :=
  ⟨fun r hr => h.dot r (hperm.mem_iff.1 hr), (hperm.map _).nodup_iff.2 h.nodup⟩

end

/-- **Conditional forwarding picks the longest matching zone.** For accepted routes in any order and
every query name, in any letter case: if the zone of some route is the name or an ancestor of it,
there is one route with the longest such zone and the resolver returns it; otherwise it returns
none. -/
theorem matchRoute_picks_longest {H : Hickory} {routes : List (UpstreamRoute × ResolverArm H)}
    (hvalid : validateRoutes [] (routes.map Prod.fst).zipIdx = .ok ()) (name : Str) :
    ((∃ r ∈ routes, Covers r.1.zone name) → ∃! r, Longest routes name r) ∧
    ∀ (res : Resolver H) (order : List (UpstreamRoute × ResolverArm H)), order.Perm routes →
      res.routes = routeArms order →
      (∀ r, Longest routes name r →
        res.matchRoute name = some (RouteArm.ofZone r.1.zone r.2)) ∧
      ((∀ r ∈ routes, ¬ Covers r.1.zone name) → res.matchRoute name = none) := by
  have hpassed := passed_of_validateRoutes hvalid
  refine ⟨?_, fun res order hperm hres => ⟨fun r hr => ?_, fun hnone => ?_⟩⟩
  · intro hcovers
    obtain ⟨r, hr⟩ := exists_longest hcovers
    exact ⟨r, hr, fun r' hr' => hr'.unique hpassed hr⟩
  · exact matchRoute_of_longest (hpassed.perm hperm) hres (hr.perm hperm.symm)
  · exact (matchRoute_eq_none_iff (hpassed.perm hperm) hres).2
      fun r hr => hnone r (hperm.mem_iff.1 hr)

theorem matchRoute_picks_longest_corp :
    let arm : ResolverArm textNames := { lookup := fun _ _ => .ok [] }
    let routes : List (UpstreamRoute × ResolverArm textNames) :=
      [(⟨"internal.".toList, ["10.0.0.1".toList], .plain⟩, arm),
        (⟨" Corp.Internal.".toList, ["10.0.0.2".toList], .plain⟩, arm)]
    let res : Resolver textNames :=
      { config := {}
        default := .hickory arm
        routes := routeArms routes.reverse }
    validateRoutes [] (routes.map Prod.fst).zipIdx = .ok () ∧
    res.matchRoute "Git.CORP.internal".toList =
      some (RouteArm.ofZone " Corp.Internal.".toList arm) ∧
    res.matchRoute "example.com.".toList = none := by
  intro arm routes res
  have hvalid : validateRoutes [] (routes.map Prod.fst).zipIdx = .ok () := by decide +kernel
  have hperm : routes.reverse.Perm routes := List.reverse_perm routes
  refine ⟨hvalid, ?_, ?_⟩
  · refine ((matchRoute_picks_longest hvalid _).2 res _ hperm rfl).1
      (⟨" Corp.Internal.".toList, ["10.0.0.2".toList], .plain⟩, arm) ⟨by simp [routes], ?_, ?_⟩
    · unfold Covers
      decide
    · simp only [routes, List.forall_mem_cons]
      exact ⟨fun _ => by decide, fun _ => le_rfl, by simp⟩
  · refine ((matchRoute_picks_longest hvalid _).2 res _ hperm rfl).2 ?_
    simp only [routes, List.forall_mem_cons]
    unfold Covers
    exact ⟨by decide, by decide, by simp⟩

/-! ## Routes that are never taken -/

/-- Every label between the dots of the name has a character. -/
def NonEmptyLabels (name : Str) : Prop := ∀ l ∈ queryLabels name, l ≠ []

section
variable {H : Hickory} {routes : List (UpstreamRoute × ResolverArm H)}
  {r : UpstreamRoute × ResolverArm H} {name zone : Str}

theorem labels_ne_nil_of_covers (h : Covers zone name) (hname : NonEmptyLabels name) :
    ∀ l ∈ labelsOf zone, l ≠ [] :=
  fun l hl => hname l (h.subset hl)

/-- The text of a zone is a name of its own. -/
theorem queryLabels_zone (zone : Str) :
    queryLabels zone.trim.toAsciiLowercase = labelsOf zone := by
  unfold queryLabels labelsOf
  rw [Str.toAsciiLowercase_idem]

/-- No zone is longer than one that covers its own text. -/
theorem longest_own_zone (hr : r ∈ routes) : Longest routes r.1.zone.trim.toAsciiLowercase r := by
  refine ⟨hr, ?_, fun r' _ hcovers => ?_⟩
  · rw [Covers, queryLabels_zone]
  · rw [Covers, queryLabels_zone] at hcovers
    exact hcovers.length_le

theorem Passed.of_validateConfig {build : RegexBuild} {cfg : DnsConfig}
    (hvalid : validateConfig build cfg = .ok ())
    (hcfg : routes.map Prod.fst = cfg.upstream.routes) : Passed routes := by
  have hupstream := (validateConfig_ok_iff.1 hvalid).2.1
  simp only [validateUpstream, Checks.seq_ok_iff] at hupstream
  obtain ⟨-, -, -, -, -, hroutes⟩ := hupstream
  exact passed_of_validateRoutes (hcfg ▸ hroutes)

end

/-- **When an accepted route is live.** For every accepted config and every route of it: some query
name of non-empty labels takes the route if and only if the labels of its zone are non-empty. -/
theorem route_live_iff {H : Hickory} {build : RegexBuild} {cfg : DnsConfig} {res : Resolver H}
    {routes : List (UpstreamRoute × ResolverArm H)} {r : UpstreamRoute × ResolverArm H}
    (hvalid : validateConfig build cfg = .ok ())
    (hcfg : routes.map Prod.fst = cfg.upstream.routes) (hres : res.routes = routeArms routes)
    (hr : r ∈ routes) :
    (∃ name, NonEmptyLabels name ∧
      res.matchRoute name = some (RouteArm.ofZone r.1.zone r.2)) ↔
    ∀ l ∈ labelsOf r.1.zone, l ≠ [] := by
  have hpassed : Passed routes := .of_validateConfig hvalid hcfg
  constructor
  · rintro ⟨name, hname, hmatch⟩
    obtain ⟨r', hlongest, hzone⟩ := longest_of_matchRoute hpassed hres hmatch
    have hsame : r.1.zone.trim.toAsciiLowercase = r'.1.zone.trim.toAsciiLowercase :=
      congrArg RouteArm.zoneWithDot hzone
    rw [List.inj_on_of_nodup_map hpassed.nodup hr hlongest.mem hsame]
    exact labels_ne_nil_of_covers hlongest.covers hname
  · intro hlabels
    refine ⟨r.1.zone.trim.toAsciiLowercase, ?_,
      matchRoute_of_longest hpassed hres (longest_own_zone hr)⟩
    rwa [NonEmptyLabels, queryLabels_zone]

/-- A config with one route, and the resolver built from it. -/
def routedConfig (zone : Str) : DnsConfig where
  upstream := { routes := [⟨zone, ["10.0.0.1:53".toList], .plain⟩] }

def routedArms (zone : Str) : List (UpstreamRoute × ResolverArm textNames) :=
  [(⟨zone, ["10.0.0.1:53".toList], .plain⟩, { lookup := fun _ _ => .ok [] })]

def routedResolver (zone : Str) : Resolver textNames where
  config := routedConfig zone
  default := .hickory { lookup := fun _ _ => .ok [] }
  routes := routeArms (routedArms zone)

/-- A dot too many in the zone: the config is accepted, and no name takes the route. -/
theorem route_two_dots_never_taken :
    validateConfig (fun _ => .ok fun _ => false) (routedConfig "corp..internal.".toList) = .ok () ∧
    ∀ name, NonEmptyLabels name →
      (routedResolver "corp..internal.".toList).matchRoute name = none := by
  have hvalid : validateConfig (fun _ => .ok fun _ => false)
      (routedConfig "corp..internal.".toList) = .ok () := by
    decide +kernel
  refine ⟨hvalid, fun name hname => ?_⟩
  have hpassed : Passed (routedArms "corp..internal.".toList) := .of_validateConfig hvalid rfl
  refine (matchRoute_eq_none_iff hpassed rfl).2 fun r hr hcovers => ?_
  obtain rfl := List.mem_singleton.1 hr
  exact labels_ne_nil_of_covers hcovers hname [] (by decide) rfl

theorem route_corp_internal_live :
    validateConfig (fun _ => .ok fun _ => false) (routedConfig "Corp.internal.".toList) = .ok () ∧
    ∃ name, NonEmptyLabels name ∧
      (routedResolver "Corp.internal.".toList).matchRoute name =
        some (RouteArm.ofZone "Corp.internal.".toList { lookup := fun _ _ => .ok [] }) := by
  have hvalid : validateConfig (fun _ => .ok fun _ => false)
      (routedConfig "Corp.internal.".toList) = .ok () := by
    decide +kernel
  have hmem : (⟨"Corp.internal.".toList, ["10.0.0.1:53".toList], .plain⟩,
      { lookup := fun _ _ => .ok [] }) ∈ routedArms "Corp.internal.".toList :=
    List.mem_singleton_self _
  exact ⟨hvalid, (route_live_iff hvalid rfl rfl hmem).2 (by decide)⟩

end RustyDns.L4.Pipeline
