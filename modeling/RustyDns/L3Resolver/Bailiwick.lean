import RustyDns.L3Resolver.Answer

/-!
# The bailiwick filter

`filter_out_of_bailiwick` of `rustydns-resolver/src/lib.rs` rescans the answer until a pass allows
no new owner. `bailiwickLoop` is that loop without a bound on its passes, `chain` what it is for:
the least set of names with the query name in it that follows every CNAME of the answer.

Result: `bailiwick_is_reachability`, for every answer and query name. The counts are natural
numbers; one message has no room for the 2^32 records at which the `u32` of the code would wrap.
-/

namespace RustyDns.L3

open RustyDns.Lib RustyDns.L1

/-- The whole function with its loop, `none` while it is still running after `fuel` passes.
mirrors crates/rustydns-resolver/src/lib.rs:1130-1177 -/
def bailiwickLoop (fuel : Nat) (records : List DnsRecord) (qname : Str) :
    Option (List DnsRecord × Nat) :=
  (Closure.loop (cnameLinks records) fuel {canonical qname}).map fun allowed =>
    retain (fun r => canonical r.name ∈ allowed) records

/-! ## The abstract set -/

/-- A set of names that holds the query name and the target of each CNAME whose owner it holds. -/
structure FollowsChain (records : List DnsRecord) (qname : Str) (S : Set Str) : Prop where
  qname : canonical qname ∈ S
  target : ∀ r ∈ records, ∀ target, r.data = .cname target → canonical r.name ∈ S →
    canonical target ∈ S

/-- The least such set. -/
def chain (records : List DnsRecord) (qname : Str) : Set Str :=
  ⋂₀ {S | FollowsChain records qname S}

section
variable {records records' : List DnsRecord} {qname : Str}

theorem chain_isLeast (records : List DnsRecord) (qname : Str) :
    IsLeast {S | FollowsChain records qname S} (chain records qname) := by
  refine ⟨⟨?_, ?_⟩, fun S hS => Set.sInter_subset_of_mem hS⟩
  · intro S hS
    exact hS.qname
  · intro r hr target hdata howner S hS
    exact hS.target r hr target hdata (howner S hS)

theorem followsChain_congr (hmem : ∀ r, r ∈ records' ↔ r ∈ records) (S : Set Str) :
    FollowsChain records' qname S ↔ FollowsChain records qname S :=
  ⟨fun h => ⟨h.qname, fun r hr => h.target r ((hmem r).2 hr)⟩,
    fun h => ⟨h.qname, fun r hr => h.target r ((hmem r).1 hr)⟩⟩

/-- Only which records the answer holds matters, not their order. -/
theorem chain_congr (hmem : ∀ r, r ∈ records' ↔ r ∈ records) :
    chain records' qname = chain records qname := by
  unfold chain
  simp only [followsChain_congr hmem]

theorem mem_allowedOwners_iff_mem_chain {a : Str} :
    a ∈ allowedOwners records qname ↔ a ∈ chain records qname := by
  rw [mem_allowedOwners_iff, Closure.linked_iff_forall_closed]
  refine ⟨fun h S hS => h S ?_ ?_, fun h S hstart hclosed => h S ⟨?_, ?_⟩⟩
  · intro b hb
    rw [Finset.mem_singleton.1 hb]
    exact hS.qname
  · intro l hl hsrc
    obtain ⟨r, hr, hsome⟩ := List.mem_filterMap.1 hl
    obtain ⟨target, hdata, howner, htarget⟩ := cnameLink_eq_some_iff.1 hsome
    rw [← htarget]
    exact hS.target r hr target hdata (by rwa [howner])
  · exact hstart _ (Finset.mem_singleton_self _)
  · intro r hr target hdata howner
    have hlink : cnameLink r = some (canonical r.name, canonical target) :=
      cnameLink_eq_some_iff.2 ⟨target, hdata, rfl, rfl⟩
    exact hclosed _ (List.mem_filterMap.2 ⟨r, hr, hlink⟩) howner

/-! ## The filter -/

theorem allowedOwners_eq_of_loop {fuel : Nat} (hfuel : records.length < fuel) :
    Closure.loop (cnameLinks records) fuel {canonical qname} =
      some (allowedOwners records qname) := by
  have hlinks : (cnameLinks records).length ≤ records.length := List.length_filterMap_le _ _
  rw [Closure.loop_eq_some (hlinks.trans_lt hfuel)]
  refine congrArg some (Finset.ext fun a => ?_)
  rw [mem_allowedOwners_iff, Closure.mem_saturate_iff (Nat.lt_succ_self _)]

open Classical in
theorem kept_eq_filter_chain (records : List DnsRecord) (qname : Str) :
    (filterOutOfBailiwick records qname).1 =
      records.filter fun r => canonical r.name ∈ chain records qname := by
  refine List.filter_congr fun r _ => ?_
  simp only [mem_allowedOwners_iff_mem_chain]

open Classical in
theorem kept_perm (h : records'.Perm records) :
    (filterOutOfBailiwick records' qname).1.Perm (filterOutOfBailiwick records qname).1 := by
  rw [kept_eq_filter_chain, kept_eq_filter_chain, chain_congr fun r => h.mem_iff]
  exact h.filter _

open Classical in
theorem dropped_eq (records : List DnsRecord) (qname : Str) :
    (filterOutOfBailiwick records qname).2 =
      records.countP fun r => canonical r.name ∉ chain records qname := by
  have hsplit := List.length_eq_countP_add_countP
    (fun r : DnsRecord => decide (canonical r.name ∈ chain records qname)) (l := records)
  have hkept := congrArg List.length (kept_eq_filter_chain records qname)
  rw [← List.countP_eq_length_filter] at hkept
  have hdropped : (filterOutOfBailiwick records qname).2 =
      records.length - (filterOutOfBailiwick records qname).1.length := rfl
  rw [hdropped, hkept, hsplit, Nat.add_sub_cancel_left]
  simp

end

open Classical in
/-- **The bailiwick filter is exact reachability.** The rescanning loop stops within one pass more
than there are records, also on cycles and reversed chains. It keeps, in their order, the records
whose owner is in the least set that holds the query name and follows the CNAMEs of the answer; it
keeps the same records of a reordered answer; and its count is the number of the others. -/
theorem bailiwick_is_reachability (records : List DnsRecord) (qname : Str) :
    (∀ fuel, records.length < fuel →
      bailiwickLoop fuel records qname = some (filterOutOfBailiwick records qname)) ∧
    IsLeast {S | FollowsChain records qname S} (chain records qname) ∧
    (filterOutOfBailiwick records qname).1 =
      records.filter (fun r => canonical r.name ∈ chain records qname) ∧
    (∀ records', records'.Perm records →
      (filterOutOfBailiwick records' qname).1.Perm (filterOutOfBailiwick records qname).1) ∧
    (filterOutOfBailiwick records qname).2 =
      records.countP (fun r => canonical r.name ∉ chain records qname) := by
  refine ⟨fun fuel hfuel => ?_, chain_isLeast records qname, kept_eq_filter_chain records qname,
    fun records' h => kept_perm h, dropped_eq records qname⟩
  unfold bailiwickLoop
  rw [allowedOwners_eq_of_loop hfuel]
  rfl

end RustyDns.L3
