import RustyDns.L5Concurrency.LoaderSteps

/-!
# Concurrent blocklist reloads

A call of `reload` that read a source early can remember and install what it read after another call
has done so with something newer. `Exclusive` is the condition on single steps that rules this out:
no call takes up a source that some call has in hand.

Results:
* `step_effect`: what a step can do to the contents in hand and to what the calls share.
* `inv_reachable`: what holds while every step is `Exclusive`.
* `reloads_never_go_back`: such runs never go back in time; `slow_reload_goes_back` is a run of two
  calls that does.
-/

namespace RustyDns.L5.Loader

open RustyDns.Lib RustyDns.L1 RustyDns.L2.Blocklist RustyDns.L4

section
variable (config : BlocklistConfig)

/-! ## Taking up a source -/

def Outcome.content (o : Outcome) : Option (Str × Content) :=
  o.res.map fun content => (o.source.key, content)

/-- The contents a call has that it has not installed yet. -/
def Call.inHand (c : Call) : List (Str × Content) :=
  c.fetched.filterMap (·.outcome.content) ++ c.pending.filterMap (·.content) ++
    c.held.map fun h => (h.1.key, h.2)

/-- The source whose content a step puts into a call's hands: one that is read, or one that failed
and for which the call falls back on what is remembered. -/
def takesUp (s : St) : Act → Option Str
  | .readLocal p (some _) => do
    let c ← s.calls[p]?
    c.locals.head?
  | .fetch p idx (some _) => do
    let c ← s.calls[p]?
    let job ← c.jobs.head?
    let source ← (job.remote config)[idx]?
    some source.key
  | .take p => do
    let c ← s.calls[p]?
    let o ← c.pending.head?
    if o.res = none ∧ o.source.key ∈ s.lastGood then some o.source.key else none
  | _ => none

/-- No call has content in hand of the source that the step takes up. -/
def Exclusive (s : St) (a : Act) : Prop :=
  ∀ key ∈ takesUp config s a, ∀ c ∈ s.calls, key ∉ c.inHand.map Prod.fst

instance (s : St) (a : Act) : Decidable (Exclusive config s a) := by
  unfold Exclusive
  infer_instance

/-- What a call has installed of a source, whether it has returned or not, is not newer than what is
remembered of that source, nor than what a global state that was stored since was built from. -/
def UpToDate (s : St) : Prop :=
  ∀ c ∈ s.calls, ∀ i ∈ c.installed,
    (∀ content, s.lastGood.lookup i.key = some content → i.fetchedAt ≤ content.fetchedAt) ∧
    (i.storedAt < s.globalAt → ∀ u, (i.key, u) ∈ s.globalFrom → i.fetchedAt ≤ u)

end

variable {T : UnicodeTables} {config : BlocklistConfig} {build : RegexBuild} {s t : St} {a : Act}

/-! ## What a step can do -/

/-- A call goes from `c` to `c'` and touches nothing shared; `new` is what it read. -/
structure Moves (config : BlocklistConfig) (s : St) (a : Act) (c c' : Call)
    (new : Option (Str × Content)) : Prop where
  inHand : ∀ x, x ∈ c'.inHand ↔ x ∈ c.inHand ∨ new = some x
  held : c'.held = c.held
  installed : c'.installed = c.installed
  fresh : ∀ key x, new = some (key, x) → x.fetchedAt = s.now ∧ takesUp config s a = some key

inductive Effect (T : UnicodeTables) (config : BlocklistConfig) (s : St) (a : Act) : St → Prop where
  | start : Effect T config s a
      { s with now := s.now + 1, calls := s.calls ++ [.gathering config (jobs config) []] }
  | move {p : Nat} {c c' : Call} (new : Option (Str × Content)) (hc : c ∈ s.calls)
      (hmove : Moves config s a c c' new) : Effect T config s a (s.setCall p c')
  | take {p : Nat} {c : Call} {o : Outcome} {rest : List Outcome} (hc : c ∈ s.calls)
      (hpending : c.pending = o :: rest)
      (hup : o.res = none → o.source.key ∈ s.lastGood → takesUp config s a = some o.source.key) :
      Effect T config s a (St.setCall { s with lastGood := (takeOutcome s.lastGood c.held o).1 } p
        { c with pending := rest, held := (takeOutcome s.lastGood c.held o).2 })
  | install {p : Nat} {c : Call} {job : Job} {rest : List Job} (hc : c ∈ s.calls) :
      Effect T config s a ((s.store T config job c.held).setCall p (c.next config rest s.now))

theorem mem_inHand {c : Call} {x : Str × Content} :
    x ∈ c.inHand ↔ (∃ f ∈ c.fetched, f.outcome.content = some x) ∨
      (∃ o ∈ c.pending, o.content = some x) ∨ ∃ h ∈ c.held, (h.1.key, h.2) = x := by
  simp only [Call.inHand, List.mem_append, List.mem_filterMap, List.mem_map, or_assoc]

/-- The read of one more source. -/
theorem Moves.read {c c' : Call} (source : Source) (res : Option Str)
    (hin : ∀ x, x ∈ c'.inHand ↔ x ∈ c.inHand ∨ (Outcome.mk source (s.stamp res)).content = some x)
    (hheld : c'.held = c.held) (hinstalled : c'.installed = c.installed)
    (hup : res.isSome → takesUp config s a = some source.key) :
    Moves config s a c c' (Outcome.mk source (s.stamp res)).content := by
  refine ⟨hin, hheld, hinstalled, ?_⟩
  intro key x hx
  cases res with
  | none => cases hx
  | some text =>
    cases hx
    exact ⟨rfl, hup rfl⟩

theorem step_effect (h : step T config s a = some t) : Effect T config s a t := by
  cases step_cases h with
  | start => exact .start
  | @readLocal p c path rest res hc hpending hlocals =>
    refine .move _ (List.mem_of_getElem? hc) (Moves.read ⟨path, .trusted⟩ res ?_ rfl rfl ?_)
    · intro x
      simp only [mem_inHand, hpending, List.mem_singleton, exists_eq_left, List.not_mem_nil,
        false_and, exists_false, false_or, or_left_comm, or_comm]
    · intro hres
      obtain ⟨text, rfl⟩ := Option.isSome_iff_exists.1 hres
      simp [takesUp, hc, hlocals]
  | @fetch p idx c job rest source res hc hjob hsource hfetching hnew =>
    refine .move _ (List.mem_of_getElem? hc) (Moves.read source res ?_ rfl rfl ?_)
    · intro x
      simp only [mem_inHand, List.mem_append, List.mem_singleton, or_and_right, exists_or,
        exists_eq_left, or_assoc, or_comm]
    · intro hres
      obtain ⟨text, rfl⟩ := Option.isSome_iff_exists.1 hres
      simp [takesUp, hc, hjob, hsource]
  | collect hc hjob hfetching =>
    refine .move none (List.mem_of_getElem? hc) ⟨?_, rfl, rfl, by simp⟩
    intro x
    simp [mem_inHand, hfetching.2.1]
  | take hc hpending =>
    refine .take (List.mem_of_getElem? hc) hpending ?_
    intro hres hmem
    simp [takesUp, hc, hpending, hres, hmem]
  | install hc => exact .install (List.mem_of_getElem? hc)

/-! ## The invariant -/

/-- Some call has `x` in hand. -/
def InHand (calls : List Call) (x : Str × Content) : Prop := ∃ c ∈ calls, x ∈ c.inHand

/-- What holds of each call. -/
structure CallInv (s : St) (c : Call) : Prop where
  /-- What is in hand is not older than what is remembered, -/
  newest : ∀ key x, (key, x) ∈ c.inHand →
    ∀ r, s.lastGood.lookup key = some r → r.fetchedAt ≤ x.fetchedAt
  past : ∀ key x, (key, x) ∈ c.inHand → x.fetchedAt ≤ s.now
  /-- and once taken it is what is remembered. -/
  taken : ∀ h ∈ c.held, s.lastGood.lookup h.1.key = some h.2
  installed : ∀ i ∈ c.installed,
    ∃ r, s.lastGood.lookup i.key = some r ∧ i.fetchedAt ≤ r.fetchedAt
  upToDate : ∀ i ∈ c.installed, i.storedAt < s.globalAt →
    ∀ u, (i.key, u) ∈ s.globalFrom → i.fetchedAt ≤ u

structure Inv (s : St) : Prop where
  calls : ∀ c ∈ s.calls, CallInv s c
  /-- Of a source, all calls together have one content in hand. -/
  unique : ∀ key x y, InHand s.calls (key, x) → InHand s.calls (key, y) → x = y
  past : ∀ key r, s.lastGood.lookup key = some r → r.fetchedAt ≤ s.now
  globalPast : s.globalAt ≤ s.now

theorem inv_initial : Inv (initial T config build) where
  calls := by simp [initial]
  unique := by simp [initial, InHand]
  past := by simp [initial]
  globalPast := Nat.le_refl _

theorem mem_inHand_of_held {c : Call} {h : Source × Content} (hh : h ∈ c.held) :
    (h.1.key, h.2) ∈ c.inHand :=
  List.mem_append_right _ (List.mem_map_of_mem hh)

theorem inHand_set {calls : List Call} {p : Nat} {c c' : Call} {new : Option (Str × Content)}
    (hc : c ∈ calls) (hin : ∀ x ∈ c'.inHand, x ∈ c.inHand ∨ new = some x) {x : Str × Content}
    (h : InHand (calls.set p c') x) : InHand calls x ∨ new = some x := by
  obtain ⟨d, hd, hx⟩ := h
  rcases List.mem_or_eq_of_mem_set hd with hd | rfl
  · exact .inl ⟨d, hd, hx⟩
  · exact (hin x hx).imp (fun hx => ⟨c, hc, hx⟩) id

/-- Taking up a source that nobody has in hand keeps the contents in hand unique. -/
theorem unique_set {calls : List Call} {p : Nat} {c c' : Call} (new : Option (Str × Content))
    (hunique : ∀ key x y, InHand calls (key, x) → InHand calls (key, y) → x = y)
    (hc : c ∈ calls) (hin : ∀ x ∈ c'.inHand, x ∈ c.inHand ∨ new = some x)
    (hfree : ∀ key x, new = some (key, x) → ∀ d ∈ calls, key ∉ d.inHand.map Prod.fst) :
    ∀ key x y, InHand (calls.set p c') (key, x) → InHand (calls.set p c') (key, y) → x = y := by
  have hnot : ∀ key x y, new = some (key, x) → ¬ InHand calls (key, y) := by
    intro key x y hnew h
    obtain ⟨d, hd, hy⟩ := h
    exact hfree key x hnew d hd (List.mem_map_of_mem hy)
  intro key x y hx hy
  rcases inHand_set hc hin hx with hx | hx
  · rcases inHand_set hc hin hy with hy | hy
    · exact hunique key x y hx hy
    · exact absurd hx (hnot key y x hy)
  · rcases inHand_set hc hin hy with hy | hy
    · exact absurd hy (hnot key x y hx)
    · rw [hx] at hy
      cases hy
      rfl

/-- The same is remembered, later. -/
theorem CallInv.later {c : Call} (hi : CallInv s c) (hlast : t.lastGood = s.lastGood)
    (hnow : s.now ≤ t.now)
    (hup : ∀ i ∈ c.installed, i.storedAt < t.globalAt →
      ∀ u, (i.key, u) ∈ t.globalFrom → i.fetchedAt ≤ u) :
    CallInv t c where
  newest := by
    rw [hlast]
    exact hi.newest
  past key x hx := (hi.past key x hx).trans hnow
  taken := by
    rw [hlast]
    exact hi.taken
  installed := by
    rw [hlast]
    exact hi.installed
  upToDate := hup

/-- A call with nothing in hand. -/
theorem CallInv.of_inHand_nil {c : Call} (h : c.inHand = [])
    (hinstalled : ∀ i ∈ c.installed,
      ∃ r, s.lastGood.lookup i.key = some r ∧ i.fetchedAt ≤ r.fetchedAt)
    (hup : ∀ i ∈ c.installed, i.storedAt < s.globalAt →
      ∀ u, (i.key, u) ∈ s.globalFrom → i.fetchedAt ≤ u) : CallInv s c where
  newest := by simp [h]
  past := by simp [h]
  taken x hx := by
    have hmem := mem_inHand_of_held hx
    simp [h] at hmem
  installed := hinstalled
  upToDate := hup

/-- A call that goes on and takes up `new`. -/
theorem CallInv.extend {c c' : Call} {new : Option (Str × Content)} (hi : CallInv s c)
    (hin : ∀ x ∈ c'.inHand, x ∈ c.inHand ∨ new = some x)
    (hnew : ∀ key x, new = some (key, x) → x.fetchedAt ≤ s.now ∧
      ∀ r, s.lastGood.lookup key = some r → r.fetchedAt ≤ x.fetchedAt)
    (hheld : ∀ h ∈ c'.held, h ∈ c.held ∨ s.lastGood.lookup h.1.key = some h.2)
    (hinstalled : c'.installed = c.installed) : CallInv s c' where
  newest key x hx := by
    rcases hin _ hx with hx | hx
    · exact hi.newest key x hx
    · exact (hnew key x hx).2
  past key x hx := by
    rcases hin _ hx with hx | hx
    · exact hi.past key x hx
    · exact (hnew key x hx).1
  taken h hh := by
    rcases hheld h hh with hh | hh
    · exact hi.taken h hh
    · exact hh
  installed := by
    rw [hinstalled]
    exact hi.installed
  upToDate := by
    rw [hinstalled]
    exact hi.upToDate

/-! ### One lemma per kind of step -/

theorem Inv.start (hi : Inv s) : Inv { s with
    now := s.now + 1, calls := s.calls ++ [.gathering config (jobs config) []] } := by
  have hhand : ∀ x, InHand (s.calls ++ [.gathering config (jobs config) []]) x →
      InHand s.calls x := by
    intro x h
    obtain ⟨c, hc, hx⟩ := h
    rcases List.mem_append.1 hc with hc | hc
    · exact ⟨c, hc, hx⟩
    · rw [List.mem_singleton.1 hc] at hx
      cases hx
  refine ⟨?_, fun key x y hx hy => hi.unique key x y (hhand _ hx) (hhand _ hy),
    fun key r hr => (hi.past key r hr).trans (Nat.le_succ _), hi.globalPast.trans (Nat.le_succ _)⟩
  intro c hc
  rcases List.mem_append.1 hc with hc | hc
  · exact (hi.calls c hc).later rfl (Nat.le_succ _) (hi.calls c hc).upToDate
  · rw [List.mem_singleton.1 hc]
    exact .of_inHand_nil rfl (by simp [Call.gathering]) (by simp [Call.gathering])

theorem Inv.move {p : Nat} {c c' : Call} {new : Option (Str × Content)} (hi : Inv s)
    (hex : Exclusive config s a) (hc : c ∈ s.calls) (hmove : Moves config s a c c' new) :
    Inv (s.setCall p c') := by
  have hin : ∀ x ∈ c'.inHand, x ∈ c.inHand ∨ new = some x := fun x => (hmove.inHand x).1
  refine ⟨?_, ?_, fun key r hr => (hi.past key r hr).trans (Nat.le_succ _),
    hi.globalPast.trans (Nat.le_succ _)⟩
  · have hlater : ∀ d ∈ s.calls, CallInv (s.setCall p c') d := fun d hd =>
      (hi.calls d hd).later rfl (Nat.le_succ _) (hi.calls d hd).upToDate
    intro d hd
    rcases List.mem_or_eq_of_mem_set hd with hd | rfl
    · exact hlater d hd
    · refine (hlater c hc).extend hin ?_ (fun h hh => .inl (hmove.held ▸ hh)) hmove.installed
      -- what is read now is not older than anything
      intro key x hx
      obtain ⟨hnow, -⟩ := hmove.fresh key x hx
      rw [hnow]
      exact ⟨Nat.le_succ _, fun r hr => hi.past key r hr⟩
  · refine unique_set _ hi.unique hc hin fun key x hx => ?_
    exact hex key (hmove.fresh key x hx).2

/-- What `take` falls back on. -/
def fallback (lastGood : Retained) (o : Outcome) : Option (Str × Content) :=
  match o.res with
  | some _ => none
  | none => (lastGood.lookup o.source.key).map fun last => (o.source.key, last)

theorem fallback_eq_some_iff {lastGood : Retained} {o : Outcome} {key : Str} {x : Content} :
    fallback lastGood o = some (key, x) ↔
      o.res = none ∧ o.source.key = key ∧ lastGood.lookup key = some x := by
  unfold fallback
  cases o.res with
  | some content => simp
  | none =>
    simp only [Option.map_eq_some_iff, Prod.mk.injEq, true_and]
    constructor
    · rintro ⟨last, hlast, rfl, rfl⟩
      exact ⟨rfl, hlast⟩
    · rintro ⟨rfl, hlast⟩
      exact ⟨x, hlast, rfl, rfl⟩

/-- Remembering what is in hand only changes what is remembered of that source, to what is in hand. -/
theorem lookup_takeOutcome (lastGood : Retained) (held : List (Source × Content)) (o : Outcome)
    (key : Str) : (takeOutcome lastGood held o).1.lookup key = lastGood.lookup key ∨
      ∃ x, o.content = some (key, x) ∧ (takeOutcome lastGood held o).1.lookup key = some x := by
  unfold takeOutcome Outcome.content
  cases o.res with
  | none =>
    left
    cases lastGood.lookup o.source.key <;> rfl
  | some content =>
    by_cases hkey : key = o.source.key
    · subst hkey
      exact .inr ⟨content, rfl, AList.lookup_insert _⟩
    · exact .inl (AList.lookup_insert_ne hkey)

theorem mem_takeOutcome {lastGood : Retained} {held : List (Source × Content)} {o : Outcome}
    {h : Source × Content} (hh : h ∈ (takeOutcome lastGood held o).2) :
    h ∈ held ∨ ((o.content = some (h.1.key, h.2) ∨ fallback lastGood o = some (h.1.key, h.2)) ∧
      (takeOutcome lastGood held o).1.lookup h.1.key = some h.2) := by
  unfold takeOutcome Outcome.content fallback at *
  cases hres : o.res with
  | some content =>
    simp only [hres, List.mem_append, List.mem_singleton] at hh
    rcases hh with hh | rfl
    · exact .inl hh
    · exact .inr ⟨.inl rfl, AList.lookup_insert _⟩
  | none =>
    simp only [hres] at hh
    cases hlast : lastGood.lookup o.source.key with
    | none =>
      simp only [hlast] at hh
      exact .inl hh
    | some last =>
      simp only [hlast, List.mem_append, List.mem_singleton] at hh
      rcases hh with hh | rfl
      · exact .inl hh
      · exact .inr ⟨.inr rfl, hlast⟩

/-- A call that remembers what it has in hand disturbs no call. -/
theorem CallInv.take {p : Nat} {c c' d : Call} {o : Outcome} (hi : Inv s) (hc : c ∈ s.calls)
    (ho : o ∈ c.pending) (hd : d ∈ s.calls) :
    CallInv (St.setCall { s with lastGood := (takeOutcome s.lastGood c.held o).1 } p c') d := by
  obtain ⟨hnewest, hpast, htaken, hinstalled, hup⟩ := hi.calls d hd
  have hhand : ∀ x, o.content = some x → x ∈ c.inHand := fun x hx =>
    mem_inHand.2 (.inr (.inl ⟨o, ho, hx⟩))
  refine ⟨?_, fun key x hx => (hpast key x hx).trans (Nat.le_succ _), ?_, ?_, hup⟩
  · intro key x hx r hr
    rcases lookup_takeOutcome s.lastGood c.held o key with hsame | ⟨y, hy, hlook⟩
    · exact hnewest key x hx r (hsame ▸ hr)
    · rw [hi.unique key x y ⟨d, hd, hx⟩ ⟨c, hc, hhand _ hy⟩]
      exact Nat.le_of_eq (congrArg Content.fetchedAt (Option.some.inj (hr.symm.trans hlook)))
  · intro h hh
    rcases lookup_takeOutcome s.lastGood c.held o h.1.key with hsame | ⟨y, hy, hlook⟩
    · exact hsame.trans (htaken h hh)
    · rw [hi.unique _ h.2 y ⟨d, hd, mem_inHand_of_held hh⟩ ⟨c, hc, hhand _ hy⟩]
      exact hlook
  · intro i hin
    obtain ⟨r, hr, hle⟩ := hinstalled i hin
    rcases lookup_takeOutcome s.lastGood c.held o i.key with hsame | ⟨y, hy, hlook⟩
    · exact ⟨r, hsame.trans hr, hle⟩
    · exact ⟨y, hlook, hle.trans ((hi.calls c hc).newest i.key y (hhand _ hy) r hr)⟩

theorem Inv.take {p : Nat} {c : Call} {o : Outcome} {rest : List Outcome} (hi : Inv s)
    (hex : Exclusive config s a) (hc : c ∈ s.calls) (hpending : c.pending = o :: rest)
    (hup : o.res = none → o.source.key ∈ s.lastGood → takesUp config s a = some o.source.key) :
    Inv (St.setCall { s with lastGood := (takeOutcome s.lastGood c.held o).1 } p
      { c with pending := rest, held := (takeOutcome s.lastGood c.held o).2 }) := by
  have ho : o ∈ c.pending := hpending ▸ List.mem_cons_self
  have hin : ∀ x ∈ ({ c with pending := rest, held := (takeOutcome s.lastGood c.held o).2 } :
      Call).inHand, x ∈ c.inHand ∨ fallback s.lastGood o = some x := by
    intro x hx
    rcases mem_inHand.1 hx with hx | ⟨o', ho', hx⟩ | ⟨h, hh, rfl⟩
    · exact .inl (mem_inHand.2 (.inl hx))
    · exact .inl (mem_inHand.2 (.inr (.inl ⟨o', hpending ▸ List.mem_cons_of_mem o ho', hx⟩)))
    · rcases mem_takeOutcome hh with hh | ⟨hx | hx, -⟩
      · exact .inl (mem_inHand_of_held hh)
      · exact .inl (mem_inHand.2 (.inr (.inl ⟨o, ho, hx⟩)))
      · exact .inr hx
  refine ⟨?_, ?_, ?_, hi.globalPast.trans (Nat.le_succ _)⟩
  · intro d hd
    rcases List.mem_or_eq_of_mem_set hd with hd | rfl
    · exact .take hi hc ho hd
    · refine CallInv.extend (.take hi hc ho hc) hin ?_ ?_ rfl
      · intro key x hx
        obtain ⟨hres, rfl, hlook⟩ := fallback_eq_some_iff.1 hx
        refine ⟨(hi.past _ x hlook).trans (Nat.le_succ _), fun r hr => ?_⟩
        rcases lookup_takeOutcome s.lastGood c.held o o.source.key with hsame | ⟨y, hy, -⟩
        · rw [Option.some.inj ((hsame.symm.trans hr).symm.trans hlook)]
        · simp [Outcome.content, hres] at hy
      · exact fun h hh => (mem_takeOutcome hh).imp id And.right
  · refine unique_set _ hi.unique hc hin fun key x hx => ?_
    obtain ⟨hres, rfl, hlook⟩ := fallback_eq_some_iff.1 hx
    exact hex _ (hup hres (AList.lookup_isSome.1 (by rw [hlook]; rfl)))
  · intro key r hr
    rcases lookup_takeOutcome s.lastGood c.held o key with hsame | ⟨y, hy, hlook⟩
    · exact (hi.past key r (hsame ▸ hr)).trans (Nat.le_succ _)
    · obtain rfl : y = r := Option.some.inj (hlook.symm.trans hr)
      exact ((hi.calls c hc).past key y (mem_inHand.2 (.inr (.inl ⟨o, ho, hy⟩)))).trans (Nat.le_succ _)

theorem global_store (T : UnicodeTables) (config : BlocklistConfig) (s : St) (job : Job)
    (held : List (Source × Content)) :
    ((s.store T config job held).globalFrom = s.globalFrom ∧
      (s.store T config job held).globalAt = s.globalAt) ∨
    ((s.store T config job held).globalFrom = stamps held ∧
      (s.store T config job held).globalAt = s.now) := by
  unfold St.store
  split
  · exact .inl ⟨rfl, rfl⟩
  · cases job with
    | global => exact .inr ⟨rfl, rfl⟩
    | group g => exact .inl ⟨rfl, rfl⟩

/-- What a call has taken is at least as new as what any call has installed. -/
theorem Inv.installed_le_taken {c d : Call} (hi : Inv s) (hc : c ∈ s.calls) (hd : d ∈ s.calls)
    {i : Install} (hin : i ∈ d.installed) {u : Nat} (hu : (i.key, u) ∈ stamps c.held) :
    i.fetchedAt ≤ u := by
  obtain ⟨h, hh, heq⟩ := List.mem_map.1 hu
  obtain ⟨hkey, rfl⟩ := Prod.mk.injEq .. ▸ heq
  obtain ⟨r, hr, hle⟩ := (hi.calls d hd).installed i hin
  rw [← hkey, (hi.calls c hc).taken h hh] at hr
  cases hr
  exact hle

/-- So a call that stores what it has taken leaves nothing older than what was installed before. -/
theorem Inv.upToDate_store {c d : Call} (hi : Inv s) (hc : c ∈ s.calls) (hd : d ∈ s.calls)
    (job : Job) {i : Install} (hin : i ∈ d.installed)
    (hlt : i.storedAt < (s.store T config job c.held).globalAt) {u : Nat}
    (hu : (i.key, u) ∈ (s.store T config job c.held).globalFrom) : i.fetchedAt ≤ u := by
  rcases global_store T config s job c.held with ⟨hfrom, hsame⟩ | ⟨hfrom, -⟩
  · rw [hfrom] at hu
    rw [hsame] at hlt
    exact (hi.calls d hd).upToDate i hin hlt u hu
  · rw [hfrom] at hu
    exact hi.installed_le_taken hc hd hin hu

@[simp] theorem inHand_next (c : Call) (rest : List Job) (now : Nat) :
    (c.next config rest now).inHand = [] := by
  unfold Call.next
  split <;> rfl

@[simp] theorem installed_next (c : Call) (rest : List Job) (now : Nat) :
    (c.next config rest now).installed = c.installed ++ installs c.held now := by
  unfold Call.next
  split <;> rfl

theorem Inv.install {p : Nat} {c : Call} {job : Job} {rest : List Job} (hi : Inv s)
    (hc : c ∈ s.calls) :
    Inv ((s.store T config job c.held).setCall p (c.next config rest s.now)) := by
  have hat : (s.store T config job c.held).globalAt ≤ s.now := by
    rcases global_store T config s job c.held with ⟨-, h⟩ | ⟨-, h⟩
    · exact h ▸ hi.globalPast
    · exact h.le
  refine ⟨?_, ?_, ?_, ?_⟩
  · intro d hd
    rcases List.mem_or_eq_of_mem_set hd with hd | rfl
    · rw [calls_store] at hd
      exact (hi.calls d hd).later (lastGood_store _ _) (by simp [St.setCall])
        fun i hin hlt u hu => hi.upToDate_store hc hd job hin hlt hu
    · refine .of_inHand_nil (inHand_next _ _ _) ?_ ?_
      · intro i hin
        simp only [St.setCall, lastGood_store]
        rw [installed_next, List.mem_append] at hin
        rcases hin with hin | hin
        · exact (hi.calls c hc).installed i hin
        · obtain ⟨h, hh, rfl⟩ := List.mem_map.1 hin
          exact ⟨h.2, (hi.calls c hc).taken h hh, Nat.le_refl _⟩
      · intro i hin hlt u hu
        rw [installed_next, List.mem_append] at hin
        rcases hin with hin | hin
        · exact hi.upToDate_store hc hc job hin hlt hu
        · -- what is installed now was not there before any store
          obtain ⟨h, hh, rfl⟩ := List.mem_map.1 hin
          exact absurd hlt (Nat.not_lt.2 hat)
  · simp only [St.setCall, calls_store]
    exact unique_set none hi.unique hc (by simp) (by simp)
  · intro key r hr
    simp only [St.setCall, lastGood_store, now_store] at hr ⊢
    exact (hi.past key r hr).trans (Nat.le_succ _)
  · simp only [St.setCall, now_store]
    exact hat.trans (Nat.le_succ _)

theorem inv_step (hi : Inv s) (hex : Exclusive config s a) (h : step T config s a = some t) :
    Inv t := by
  cases step_effect h with
  | start => exact hi.start
  | move new hc hmove => exact hi.move hex hc hmove
  | take hc hpending hup => exact hi.take hex hc hpending hup
  | install hc => exact hi.install hc

theorem inv_reachable
    (h : ((system T config build).restrict (Exclusive config)).Reachable s) : Inv s := by
  refine h.invariant ?_ ?_
  · intro s hs
    rw [hs]
    exact inv_initial
  · intro s a t hi hstep
    obtain ⟨hex, hst⟩ := hstep
    exact inv_step hi hex hst

theorem Inv.upToDate (hi : Inv s) : UpToDate s := by
  intro c hc i hin
  refine ⟨?_, (hi.calls c hc).upToDate i hin⟩
  intro content hcontent
  obtain ⟨r, hr, hle⟩ := (hi.calls c hc).installed i hin
  rw [hr] at hcontent
  cases hcontent
  exact hle

/-- **Reloads never go back in time**, in every interleaving in which no call takes up a source,
by reading it or by falling back, while some call has content of it in hand. -/
theorem reloads_never_go_back (T : UnicodeTables) (config : BlocklistConfig) (build : RegexBuild)
    {s : St} (hs : ((system T config build).restrict (Exclusive config)).Reachable s) :
    UpToDate s :=
  (inv_reachable hs).upToDate

/-- One remote source and no groups. -/
def raceConfig : BlocklistConfig where
  sources := ["u".toList]

/-- Call 0 fetches `a.io` and is slow; call 1 then fetches `b.io`, installs it and returns; then call
0 remembers and installs `a.io`. -/
def slowReload : List Act :=
  [.start, .start, .fetch 0 0 (some "a.io".toList), .fetch 1 0 (some "b.io".toList),
    .collect 1, .take 1, .install 1, .collect 0, .take 0, .install 0]

theorem slow_reload_goes_back :
    ∃ s, (system .asciiOnly raceConfig literalRegex).Reachable s ∧ ¬ UpToDate s ∧
      (∃ c ∈ s.calls, c.finishedAt = some 6 ∧ c.installed = [⟨"u".toList, 3, 6⟩]) ∧
      (s.lastGood.lookup "u".toList).map Content.fetchedAt = some 2 ∧
      s.globalAt = 9 ∧ s.globalFrom = [("u".toList, 2)] ∧
      s.engine.isBlockedForGroup .asciiOnly "b.io".toList none = false := by
  have hcalls : (LTS.exec (step .asciiOnly raceConfig) (initial .asciiOnly raceConfig literalRegex)
      slowReload).map (fun s => s.calls.map fun c => (c.finishedAt, c.installed)) =
      some [(some 9, [⟨"u".toList, 2, 9⟩]), (some 6, [⟨"u".toList, 3, 6⟩])] := by decide +kernel
  have hshared : (LTS.exec (step .asciiOnly raceConfig) (initial .asciiOnly raceConfig literalRegex)
      slowReload).map (fun s => ((s.lastGood.lookup "u".toList).map Content.fetchedAt, s.globalAt,
        s.engine.isBlockedForGroup .asciiOnly "b.io".toList none)) =
      some (some 2, 9, false) := by decide +kernel
  have hglobal : (LTS.exec (step .asciiOnly raceConfig) (initial .asciiOnly raceConfig literalRegex)
      slowReload).map St.globalFrom = some [("u".toList, 2)] := by decide +kernel
  obtain ⟨s, hexec, hs⟩ := Option.map_eq_some_iff.1 hcalls
  have hreach : (system .asciiOnly raceConfig literalRegex).Reachable s :=
    LTS.Reachable.run (.init rfl) (.of_exec hexec)
  simp only [hexec, Option.map_some, Option.some.injEq, Prod.mk.injEq] at hshared hglobal
  obtain ⟨hlast, hat, hblocked⟩ := hshared
  have hfast : (some 6, [⟨"u".toList, 3, 6⟩]) ∈ s.calls.map fun c => (c.finishedAt, c.installed) := by
    rw [hs]
    exact List.mem_cons_of_mem _ (List.mem_singleton_self _)
  obtain ⟨c, hc, heq⟩ := List.mem_map.1 hfast
  obtain ⟨hfin, hinst⟩ := Prod.mk.injEq .. ▸ heq
  refine ⟨s, hreach, ?_, ⟨c, hc, hfin, hinst⟩, hlast, hat, hglobal, hblocked⟩
  intro hup
  obtain ⟨content, hcontent, htime⟩ := Option.map_eq_some_iff.1 hlast
  have hle := (hup c hc ⟨"u".toList, 3, 6⟩ (hinst ▸ List.mem_singleton_self _)).1 content hcontent
  dsimp only at hle
  omega

/-- Two calls that overlap, the second one fetching after the first has installed. -/
theorem reloads_never_go_back_overlapping :
    ∃ s, ((system .asciiOnly raceConfig literalRegex).restrict (Exclusive raceConfig)).Reachable s ∧
      s.calls.map Call.finishedAt = [some 5, some 9] ∧ UpToDate s := by
  have hrun : ((LTS.exec
      (fun s a => if Exclusive raceConfig s a then step .asciiOnly raceConfig s a else none)
      (initial .asciiOnly raceConfig literalRegex)
      [.start, .start, .fetch 0 0 (some "a.io".toList), .collect 0, .take 0, .install 0,
        .fetch 1 0 (some "b.io".toList), .collect 1, .take 1, .install 1]).map fun s =>
      s.calls.map Call.finishedAt) = some [some 5, some 9] := by
    decide +kernel
  obtain ⟨s, hexec, hs⟩ := Option.map_eq_some_iff.1 hrun
  have hreach : ((system .asciiOnly raceConfig literalRegex).restrict
      (Exclusive raceConfig)).Reachable s :=
    LTS.Reachable.run (.init rfl) (.of_exec_restrict hexec)
  exact ⟨s, hreach, hs, reloads_never_go_back _ _ _ hreach⟩

end RustyDns.L5.Loader
