import RustyDns.L2Authority.Lookup
import RustyDns.Lib.Path

/-!
# The CNAME chase

What `lookup` returns, stated without its loop. The first CNAME of a name leads to its target; the
answer is a path of such links and then the records at its end (`Chase`, `Ending`). There is one
path that meets the description (`Chase.unique`), so the description says what is returned and not
only what it looks like.

Result: `lookup_eq_reference_chase`.
-/

namespace RustyDns.L2.Auth

open RustyDns.Lib RustyDns.L1
open RustyDns.L2.Zone

/-- All records at a name. -/
def recordsAt (snap : Snapshot) (name : Str) : List DnsRecord := (snap.records.lookup name).getD []

/-- The records of a type at a name. -/
def typedAt (snap : Snapshot) (rtype name : Str) : List DnsRecord :=
  (recordsAt snap name).filter (·.typeName == rtype)

/-- The first CNAME at a name, with its target. -/
def cnameAt (snap : Snapshot) (name : Str) : Option (DnsRecord × Str) :=
  firstCname (recordsAt snap name)

/-- The name is in the mesh zone or in another zone of the snapshot. -/
def InZones (auth : Authority) (snap : Snapshot) (name : Str) : Prop :=
  nameWithinZone name auth.meshZone = true ∨ ∃ zone ∈ snap.zones, nameWithinZone name zone = true

theorem isAuthoritativeForNormalised_iff {auth : Authority} {snap : Snapshot} {name : Str} :
    auth.isAuthoritativeForNormalised name snap = true ↔ InZones auth snap name := by
  simp [Authority.isAuthoritativeForNormalised, InZones, List.any_eq_true]

/-- What follows a chain of CNAMEs that ends at `last`. -/
inductive Ending (auth : Authority) (snap : Snapshot) (rtype : Str) (links : List (Str × DnsRecord))
    (last : Str) : List DnsRecord → Prop where
  /-- The target has records of the type, and was reached in time. -/
  | answered : typedAt snap rtype last ≠ [] → InZones auth snap last →
      last ∉ links.map Prod.fst → links.length ≤ maxCnameDepth →
      Ending auth snap rtype links last (typedAt snap rtype last)
  | leavesZones : ¬ InZones auth snap last → Ending auth snap rtype links last []
  | revisits : last ∈ links.map Prod.fst → Ending auth snap rtype links last []
  /-- Neither a record of the type nor a CNAME. -/
  | noData : typedAt snap rtype last = [] → cnameAt snap last = none →
      Ending auth snap rtype links last []
  | limit : links.length = maxCnameDepth + 1 → Ending auth snap rtype links last []

/-- A chain of first CNAMEs, each at the target of the one before it. -/
structure Chain (auth : Authority) (snap : Snapshot) (rtype start : Str)
    (links : List (Str × DnsRecord)) (last : Str) : Prop where
  path : Path (cnameAt snap) start links last
  nodup : (links.map Prod.fst).Nodup
  inZones : ∀ owner ∈ links.map Prod.fst, InZones auth snap owner
  untyped : ∀ owner ∈ links.map Prod.fst, typedAt snap rtype owner = []
  length_le : links.length ≤ maxCnameDepth + 1

/-- A chain of CNAMEs and what follows it. -/
def Chased (auth : Authority) (snap : Snapshot) (rtype start : Str) (out : List DnsRecord) : Prop :=
  ∃ links last ending, Chain auth snap rtype start links last ∧
    Ending auth snap rtype links last ending ∧ out = links.map Prod.snd ++ ending

section
variable {auth : Authority} {snap : Snapshot} {rtype start last last' : Str}
  {links links' : List (Str × DnsRecord)} {ending ending' : List DnsRecord}

/-! ## One description, one answer -/

/-- A chain that has an ending does not go on. -/
theorem Ending.not_extended (h : Ending auth snap rtype links last ending) {r : DnsRecord}
    {rest : List (Str × DnsRecord)}
    (hlong : Chain auth snap rtype start (links ++ (last, r) :: rest) last') : False := by
  have howner : last ∈ (links ++ (last, r) :: rest).map Prod.fst := by simp
  cases h with
  | answered htyped _ _ _ => exact htyped (hlong.untyped last howner)
  | leavesZones hzones => exact hzones (hlong.inZones last howner)
  | revisits hmem =>
    have hnodup := hlong.nodup
    rw [List.map_append, List.map_cons] at hnodup
    exact (List.disjoint_of_nodup_append hnodup) hmem List.mem_cons_self
  | noData _ hnone =>
    have hsome := hlong.path.isSome_of_mem howner
    rw [hnone] at hsome
    cases hsome
  | limit hlength =>
    have hle := hlong.length_le
    rw [List.length_append, List.length_cons] at hle
    omega

/-- Nothing follows exactly when the last target has no records to answer with. -/
theorem Ending.eq_nil_iff (h : Ending auth snap rtype links last ending) :
    ending = [] ↔ ¬ (typedAt snap rtype last ≠ [] ∧ InZones auth snap last ∧
      last ∉ links.map Prod.fst ∧ links.length ≤ maxCnameDepth) := by
  cases h with
  | answered htyped hzones hnew hlength => simp [htyped, hzones, hnew, hlength]
  | leavesZones hzones => simp [hzones]
  | revisits hmem => simp [hmem]
  | noData htyped _ => simp [htyped]
  | limit hlength => simp [hlength]

theorem Ending.eq_typedAt (h : Ending auth snap rtype links last ending) (hne : ending ≠ []) :
    ending = typedAt snap rtype last := by
  cases h with
  | answered => rfl
  | _ => exact absurd rfl hne

theorem Ending.unique (h : Ending auth snap rtype links last ending)
    (h' : Ending auth snap rtype links last ending') : ending = ending' := by
  by_cases hnil : ending = []
  · rw [hnil, h'.eq_nil_iff.2 (h.eq_nil_iff.1 hnil)]
  · have hnil' : ending' ≠ [] := fun heq => hnil (h.eq_nil_iff.2 (h'.eq_nil_iff.1 heq))
    rw [h.eq_typedAt hnil, h'.eq_typedAt hnil']

theorem Chased.unique {out out' : List DnsRecord} (h : Chased auth snap rtype start out)
    (h' : Chased auth snap rtype start out') : out = out' := by
  obtain ⟨links, last, ending, hchain, hending, rfl⟩ := h
  obtain ⟨links', last', ending', hchain', hending', rfl⟩ := h'
  rcases hchain.path.comparable hchain'.path with ⟨rfl, rfl⟩ | ⟨r, rest, rfl⟩ | ⟨r, rest, rfl⟩
  · rw [hending.unique hending']
  · exact (hending.not_extended hchain').elim
  · exact (hending'.not_extended hchain).elim

/-! ## The loop -/

/-- One turn of the loop. -/
theorem chase_succ (auth : Authority) (snap : Snapshot) (rtype : Str) (hops : Nat)
    (visited : List Str) (next : Str) (out : List DnsRecord) :
    auth.chase snap rtype (hops + 1) visited next out =
      if next ∈ visited then out
      else if !auth.isAuthoritativeForNormalised next snap then out
      else if !(typedAt snap rtype next).isEmpty then out ++ typedAt snap rtype next
      else
        match cnameAt snap next with
        | some (hop, target) => auth.chase snap rtype hops (next :: visited) target (out ++ [hop])
        | none => out := by
  rw [Authority.chase]
  unfold typedAt cnameAt recordsAt
  cases snap.records.lookup next with
  | none => simp [firstCname]
  | some recs => rfl

/-- What the loop has when it turns to `next`. -/
structure Underway (auth : Authority) (snap : Snapshot) (rtype start : Str) (hops : Nat)
    (visited : List Str) (next : Str) (out : List DnsRecord) (links : List (Str × DnsRecord)) :
    Prop where
  chain : Chain auth snap rtype start links next
  visited_iff : ∀ n, n ∈ visited ↔ n ∈ links.map Prod.fst
  out_eq : out = links.map Prod.snd
  hops_left : hops + links.length = maxCnameDepth + 1

/-- One turn: the CNAME at `next` is added. -/
theorem Underway.step {hops : Nat} {visited : List Str} {next target : Str} {hop : DnsRecord}
    {out : List DnsRecord}
    (h : Underway auth snap rtype start (hops + 1) visited next out links)
    (hnew : next ∉ visited) (hzones : InZones auth snap next)
    (htyped : typedAt snap rtype next = []) (hcname : cnameAt snap next = some (hop, target)) :
    Underway auth snap rtype start hops (next :: visited) target (out ++ [hop])
      (links ++ [(next, hop)]) where
  chain :=
    { path := h.chain.path.snoc hcname
      nodup := by
        rw [List.map_append, List.map_singleton, List.nodup_append]
        rw [h.visited_iff] at hnew
        refine ⟨h.chain.nodup, List.nodup_singleton _, ?_⟩
        intro owner howner other hother
        rw [List.mem_singleton.1 hother]
        rintro rfl
        exact hnew howner
      inZones := by
        intro owner howner
        rw [List.map_append, List.mem_append] at howner
        rcases howner with howner | howner
        · exact h.chain.inZones owner howner
        · rw [List.mem_singleton.1 howner]
          exact hzones
      untyped := by
        intro owner howner
        rw [List.map_append, List.mem_append] at howner
        rcases howner with howner | howner
        · exact h.chain.untyped owner howner
        · rw [List.mem_singleton.1 howner]
          exact htyped
      length_le := by
        have := h.hops_left
        rw [List.length_append, List.length_singleton]
        omega }
  visited_iff n := by
    rw [List.mem_cons, h.visited_iff, List.map_append, List.mem_append, List.map_singleton,
      List.mem_singleton, or_comm]
  out_eq := by simp [h.out_eq]
  hops_left := by
    have := h.hops_left
    rw [List.length_append, List.length_singleton]
    omega

theorem chased_chase {hops : Nat} {visited : List Str} {next : Str} {out : List DnsRecord}
    (h : Underway auth snap rtype start hops visited next out links) :
    Chased auth snap rtype start (auth.chase snap rtype hops visited next out) := by
  induction hops generalizing visited next out links with
  | zero =>
    refine ⟨links, next, [], h.chain, .limit ?_, by simp [Authority.chase, h.out_eq]⟩
    have := h.hops_left
    omega
  | succ hops ih =>
    have hstop : ∀ ending, Ending auth snap rtype links next ending →
        Chased auth snap rtype start (out ++ ending) := by
      intro ending hending
      exact ⟨links, next, ending, h.chain, hending, by rw [h.out_eq]⟩
    have hempty : Ending auth snap rtype links next [] → Chased auth snap rtype start out := by
      intro hending
      simpa using hstop [] hending
    rw [chase_succ]
    split
    · rename_i hmem
      exact hempty (.revisits ((h.visited_iff next).1 hmem))
    · rename_i hnew
      split
      · rename_i hout
        refine hempty (.leavesZones ?_)
        simpa [← isAuthoritativeForNormalised_iff] using hout
      · rename_i hzones
        replace hzones : InZones auth snap next := by
          simpa [← isAuthoritativeForNormalised_iff] using hzones
        split
        · rename_i htyped
          replace htyped : typedAt snap rtype next ≠ [] := by simpa using htyped
          refine hstop _ (.answered htyped hzones (mt (h.visited_iff next).2 hnew) ?_)
          have := h.hops_left
          omega
        · rename_i htyped
          replace htyped : typedAt snap rtype next = [] := by simpa using htyped
          split
          · rename_i hop target hcname
            exact ih (h.step hnew hzones htyped hcname)
          · rename_i hnone
            exact hempty (.noData htyped hnone)

/-- The chase that starts at a name without records of the type. -/
theorem chased_collect (hANY : rtype ≠ "ANY".toList) (hCNAME : rtype ≠ "CNAME".toList)
    (htyped : typedAt snap rtype start = []) (hzones : InZones auth snap start) :
    Chased auth snap rtype start (auth.collectWithCnameChain snap rtype start) := by
  have hbefore : Underway auth snap rtype start (maxCnameDepth + 1) [] start [] [] :=
    { chain :=
        { path := .nil start
          nodup := List.nodup_nil
          inZones := by simp
          untyped := by simp
          length_le := by simp }
      visited_iff := by simp
      out_eq := rfl
      hops_left := rfl }
  have heq : auth.collectWithCnameChain snap rtype start =
      match cnameAt snap start with
      | some (hop, target) => auth.chase snap rtype maxCnameDepth [start] target [hop]
      | none => [] := by
    have hdirect : ((snap.records.lookup start).getD []).filter (·.typeName == rtype) = [] := htyped
    unfold Authority.collectWithCnameChain cnameAt recordsAt
    simp only [hANY, hCNAME, hdirect, if_false, false_or, ne_eq, not_true_eq_false]
    cases firstCname ((snap.records.lookup start).getD []) <;> rfl
  rw [heq]
  cases hcname : cnameAt snap start with
  | none => exact ⟨[], start, [], hbefore.chain, .noData htyped hcname, rfl⟩
  | some link => exact chased_chase (hbefore.step (by simp) hzones htyped hcname)

end

/-- The reference answer for a name in the zones. -/
def ReferenceAnswer (auth : Authority) (snap : Snapshot) (rtype name : Str) (out : List DnsRecord) :
    Prop :=
  if rtype = "ANY".toList then out = recordsAt snap name
  else if rtype = "CNAME".toList ∨ typedAt snap rtype name ≠ [] then out = typedAt snap rtype name
  else Chased auth snap rtype name out

theorem ReferenceAnswer.unique {auth : Authority} {snap : Snapshot} {rtype name : Str}
    {out out' : List DnsRecord} (h : ReferenceAnswer auth snap rtype name out)
    (h' : ReferenceAnswer auth snap rtype name out') : out = out' := by
  unfold ReferenceAnswer at h h'
  split at h
  · rename_i hany
    rw [if_pos hany] at h'
    rw [h, h']
  · rename_i hany
    rw [if_neg hany] at h'
    split at h
    · rename_i hdirect
      rw [if_pos hdirect] at h'
      rw [h, h']
    · rename_i hdirect
      rw [if_neg hdirect] at h'
      exact h.unique h'

theorem referenceAnswer_collect {auth : Authority} {snap : Snapshot} {rtype name : Str}
    (hzones : InZones auth snap name) :
    ReferenceAnswer auth snap rtype name (auth.collectWithCnameChain snap rtype name) := by
  unfold ReferenceAnswer
  split
  · rename_i hany
    simp [Authority.collectWithCnameChain, hany, recordsAt]
  · rename_i hany
    split
    · rename_i hdirect
      unfold Authority.collectWithCnameChain
      simp only [if_neg hany]
      rw [if_pos (hdirect.imp_right .inr)]
      rfl
    · rename_i hdirect
      rw [not_or, not_not] at hdirect
      exact chased_collect hany hdirect.1 hdirect.2 hzones

theorem lookup_eq_some_iff {auth : Authority} {name recordType : Str} {out : List DnsRecord} :
    auth.lookup name recordType = some out ↔
      InZones auth auth.snapshot (normaliseName name) ∧
        ReferenceAnswer auth auth.snapshot recordType.trim.toAsciiUppercase (normaliseName name)
          out := by
  unfold Authority.lookup
  simp only [Bool.not_eq_true', ← isAuthoritativeForNormalised_iff]
  cases hzones : auth.isAuthoritativeForNormalised (normaliseName name) auth.snapshot with
  | false => simp
  | true =>
    have hanswer : ReferenceAnswer auth auth.snapshot recordType.trim.toAsciiUppercase
        (normaliseName name) _ := referenceAnswer_collect (isAuthoritativeForNormalised_iff.1 hzones)
    simp only [Bool.true_eq_false, if_false, Option.some.injEq, true_and]
    constructor
    · rintro rfl
      exact hanswer
    · intro hout
      exact hanswer.unique hout

end RustyDns.L2.Auth
