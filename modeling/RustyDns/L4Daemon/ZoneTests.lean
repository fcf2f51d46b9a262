import RustyDns.L4Daemon.Pipeline
import RustyDns.Lib.Written

/-!
# Three zone tests

Whether a name is in a zone is tested in three places: the authority compares names that end in a
dot, the policy gate compares names without it, and the resolver's routes compare with the zone and
with the zone after a dot. Each is `nameWithinZone` on names that end in a dot, and so a test on
whole labels.

Blanks at the ends of a name are no part of it: a zone of the config is trimmed wherever it is read,
and hickory escapes a blank in a label.
-/

namespace RustyDns.L4.Pipeline

open RustyDns.Lib RustyDns.Lib.Labels RustyDns.L1 RustyDns.L3
open RustyDns.L2.Auth RustyDns.L2.Zone

theorem labelsOf_of_dotted {name : Str} {ls : List Str} (h : Str.Dotted name ls)
    (htrim : name.trim = name) : labelsOf name = ls := by
  apply spell_inj (apart_labelsOf name) h.apart
  unfold labelsOf
  rw [← qualified_eq_spell, htrim, h.qualified_eq]

/-- A dot after both changes nothing. -/
theorem nameWithinZone_concat_dot (name zone : Str) :
    nameWithinZone (name ++ ['.']) (zone ++ ['.']) = nameWithinZone name zone := by
  rw [Bool.eq_iff_iff, nameWithinZone_eq_true_iff, nameWithinZone_eq_true_iff]
  simp only [← List.append_assoc, List.append_left_inj]

/-- The test of a route. -/
theorem route_test_eq {name zone : Str} :
    (name == zone || name.endsWith ('.' :: zone)) = nameWithinZone name zone := by
  rw [Bool.eq_iff_iff, nameWithinZone_eq_true_iff, Bool.or_eq_true, beq_iff_eq, Str.endsWith_iff]
  refine or_congr_right ⟨?_, ?_⟩
  · rintro ⟨front, rfl⟩
    exact ⟨front ++ ['.'], by simp, by simp⟩
  · rintro ⟨front, rfl, hlast⟩
    obtain ⟨front, rfl⟩ := List.getLast?_eq_some_iff.1 hlast
    exact ⟨front, by simp⟩

/-- The labels of a query name, in lower case and without the empty one behind a trailing dot. -/
def queryLabels (name : Str) : List Str :=
  let lower := name.toAsciiLowercase
  pieces '.' ((lower.stripEnd ['.']).getD lower)

example : queryLabels "Git.CORP..internal.".toList =
    ["git".toList, "corp".toList, [], "internal".toList] := by decide

theorem apart_queryLabels (name : Str) : Apart '.' (queryLabels name) := apart_pieces _ _

theorem queryLabels_of_dotted {name : Str} {ns : List Str} (h : Str.Dotted name ns) :
    queryLabels name = ns := by
  apply spell_inj (apart_queryLabels name) h.apart
  unfold queryLabels
  rw [← qualified_eq_spell, h.qualified_eq]

theorem dottedSuffix_of_mem {H : Hickory} {routes : List (UpstreamRoute × ResolverArm H)}
    {a : RouteArm H} (h : a ∈ routeArms routes) : a.dottedSuffix = '.' :: a.zoneWithDot := by
  rw [routeArms, List.mem_insertionSort, List.mem_map] at h
  obtain ⟨r, -, rfl⟩ := h
  rfl

/-- The scan over the routes, as the zone test of the authority. -/
theorem matchRoute_eq_find? {H : Hickory} {res : Resolver H}
    {routes : List (UpstreamRoute × ResolverArm H)} (hres : res.routes = routeArms routes)
    (name : Str) : res.matchRoute name = (routeArms routes).find? fun a =>
      nameWithinZone (spell '.' (queryLabels name)) a.zoneWithDot := by
  have hscan : ∀ a ∈ routeArms routes,
      (spell '.' (queryLabels name) == a.zoneWithDot ||
        Str.endsWith (spell '.' (queryLabels name)) a.dottedSuffix) =
      nameWithinZone (spell '.' (queryLabels name)) a.zoneWithDot := by
    intro a ha
    rw [dottedSuffix_of_mem ha, route_test_eq]
  rw [← List.find?_congr hscan]
  simp only [Resolver.matchRoute, hres, qualified_eq_spell]
  split
  · rename_i hnil
    rw [List.isEmpty_iff.1 hnil, List.find?_nil]
  · rfl

section
variable {name zone : Str} {ns zs : List Str}

theorem nameInAnyZone_singleton_iff (hname : Str.Dotted name ns) (hzone : Str.Dotted zone zs)
    (htrim : zone.trim = zone) : nameInAnyZone name [zone] = true ↔ zs <:+ ns := by
  have hne : (['.'].intercalate zs).isEmpty = false := by
    rw [List.isEmpty_eq_false_iff]
    exact hzone.intercalate_ne_nil
  have htest := nameWithinZone_concat_dot (['.'].intercalate ns) (['.'].intercalate zs)
  rw [Str.intercalate_append_sep hname.ne_nil, Str.intercalate_append_sep hzone.ne_nil] at htest
  simp only [nameInAnyZone, List.any_cons, List.any_nil, Bool.or_false, htrim, hname.canonical_eq,
    hzone.canonical_eq, hne, Bool.not_false, Bool.true_and]
  rw [← htest, nameWithinZone_iff hname.apart hzone.apart]

/-- Some route is found when the zone of one of them is within reach of the name. -/
theorem matchRoute_isSome_iff {H : Hickory} {res : Resolver H}
    {routes : List (UpstreamRoute × ResolverArm H)} (hres : res.routes = routeArms routes)
    (hname : Str.Dotted name ns) :
    (res.matchRoute name).isSome = true ↔
      ∃ r ∈ routes, nameWithinZone (spell '.' ns) r.1.zone.trim.toAsciiLowercase = true := by
  rw [matchRoute_eq_find? hres, List.find?_isSome, queryLabels_of_dotted hname]
  simp only [routeArms, List.mem_insertionSort, List.mem_map]
  constructor
  · rintro ⟨_, ⟨r, hr, rfl⟩, htest⟩
    exact ⟨r, hr, htest⟩
  · rintro ⟨r, hr, htest⟩
    exact ⟨_, ⟨r, hr, rfl⟩, htest⟩

/-- The text of a zone with its trailing dot, as the zone of a route has to be written. -/
def withDot (zone : Str) : Str := if zone.endsWith ['.'] then zone else zone ++ ['.']

theorem withDot_toAsciiLowercase (h : Str.Dotted zone zs) (htrim : zone.trim = zone) :
    (withDot zone).trim.toAsciiLowercase = spell '.' zs := by
  have htrimmed : (withDot zone).trim = withDot zone := by
    unfold withDot
    split
    · exact htrim
    · exact Str.trim_append_self htrim (by decide)
  rw [htrimmed, ← h.qualified_eq, endsWith_dot_toAsciiLowercase, withDot]
  split
  · rfl
  · simp [Str.toAsciiLowercase]

end

/-- **Zone membership tests agree.** For a name and a zone written with non-empty labels, in any
letter case and with or without a trailing dot, the authority, the policy gate and a resolver with a
route to the zone give one answer: whether the zone's labels end the name. -/
theorem zone_tests_agree {H : Hickory} (res : Resolver H) (resolvers : List Str)
    (protocol : UpstreamProtocol) (arm : ResolverArm H) {name zone : Str} {ns zs : List Str}
    (hname : Str.Dotted name ns) (hzone : Str.Dotted zone zs)
    (hnameTrim : name.trim = name) (hzoneTrim : zone.trim = zone)
    (hroutes : res.routes = routeArms [(⟨withDot zone, resolvers, protocol⟩, arm)]) :
    (nameWithinZone (normaliseName (canonicalQname name)) (normaliseName zone) = true ↔
      zs <:+ ns) ∧
    (nameInAnyZone (canonicalQname name) [zone] = true ↔ zs <:+ ns) ∧
    ((res.matchRoute name).isSome = true ↔ zs <:+ ns) := by
  refine ⟨?_, ?_, ?_⟩
  · rw [normaliseName_eq_spell, normaliseName_eq_spell,
      DnsHandler.labelsOf_canonicalQname, labelsOf_of_dotted hname hnameTrim,
      labelsOf_of_dotted hzone hzoneTrim,
      nameWithinZone_iff hname.apart hzone.apart]
  · have hcanon : Str.Dotted (canonicalQname name) ns := by
      rw [canonicalQname_eq]
      exact hname.toAsciiLowercase
    exact nameInAnyZone_singleton_iff hcanon hzone hzoneTrim
  · rw [matchRoute_isSome_iff hroutes hname]
    simp only [List.mem_singleton, exists_eq_left, withDot_toAsciiLowercase hzone hzoneTrim]
    exact nameWithinZone_iff hname.apart hzone.apart

theorem zone_tests_agree_corp :
    let arm : ResolverArm textNames := { lookup := fun _ _ => .ok [] }
    let res : Resolver textNames :=
      { config := {}
        default := .hickory arm
        routes := routeArms [(⟨"Corp.internal.".toList, [], .plain⟩, arm)] }
    nameWithinZone (normaliseName (canonicalQname "Git.CORP.internal.".toList))
        (normaliseName "Corp.internal".toList) = true ∧
      nameInAnyZone (canonicalQname "Git.CORP.internal.".toList) ["Corp.internal".toList] = true ∧
      (res.matchRoute "Git.CORP.internal.".toList).isSome = true := by
  intro arm res
  have hname : Str.Dotted "Git.CORP.internal.".toList
      ["git".toList, "corp".toList, "internal".toList] :=
    ⟨by decide, by decide, by decide, .inr (by decide)⟩
  have hzone : Str.Dotted "Corp.internal".toList ["corp".toList, "internal".toList] :=
    ⟨by decide, by decide, by decide, .inl (by decide)⟩
  have hsuffix : ["corp".toList, "internal".toList] <:+
      ["git".toList, "corp".toList, "internal".toList] := by decide
  obtain ⟨hauthority, hpolicy, hroute⟩ :=
    zone_tests_agree res [] .plain arm hname hzone (by decide) (by decide) rfl
  exact ⟨hauthority.2 hsuffix, hpolicy.2 hsuffix, hroute.2 hsuffix⟩

end RustyDns.L4.Pipeline
