import RustyDns.L4Daemon.LastGood
import RustyDns.L5Concurrency.LoaderRace

/-!
# Serialised blocklist reloads

Reloads that run one at a time, as they would under a lock, meet the condition of `LoaderRace`, so
they never go back in time (`serialised_up_to_date`). The sets of the config need different keys: with
one source listed twice, one call has its content in hand twice.
-/

namespace RustyDns.L5.Loader

open RustyDns.Lib RustyDns.L1 RustyDns.L2.Blocklist RustyDns.L4

/-- A call starts only after all others have returned. -/
def Alone (s : St) (a : Act) : Prop :=
  match a with
  | .start => ∀ c ∈ s.calls, c.finishedAt.isSome = true
  | _ => True

/-- The keys of the sources a call has started on, and of its local files. -/
def Call.keys (c : Call) : List Str :=
  c.held.map (·.1.key) ++ c.pending.map (·.source.key) ++ c.locals ++
    c.fetched.map (·.outcome.source.key)

/-- A call has different keys, and those of fetches still to complete are different from them. -/
structure KeysApart (config : BlocklistConfig) (c : Call) : Prop where
  jobs : ∀ job ∈ c.jobs, DistinctKeys (job.set config)
  nodup : c.keys.Nodup
  ahead : c.collected = false → ∀ job rest, c.jobs = job :: rest → ∀ (idx : Nat) source,
    (job.remote config)[idx]? = some source → idx ∉ c.fetched.map Fetch.idx → source.key ∉ c.keys

/-- A call that has returned has nothing left to do. -/
def Settled (c : Call) : Prop :=
  c.finishedAt.isSome = true → c.jobs = [] ∧ c.locals = [] ∧ c.pending = [] ∧ c.inHand = []

section
variable {T : UnicodeTables} {config : BlocklistConfig} {build : RegexBuild} {s t : St} {a : Act}
  {c c' : Call}

/-! ## Keys of one call -/

theorem distinctKeys_split {job : Job} (h : DistinctKeys (job.set config)) :
    (job.set config).localFiles.Nodup ∧ ((job.remote config).map Source.key).Nodup ∧
      ∀ path ∈ (job.set config).localFiles, path ∉ (job.remote config).map Source.key := by
  have hlocal : ((job.set config).localFiles.map fun path => (⟨path, .trusted⟩ : Source)).map
      Source.key = (job.set config).localFiles := by
    rw [List.map_map]
    exact List.map_id _
  unfold DistinctKeys SourceSet.sources at h
  rw [List.map_append, List.nodup_append, hlocal] at h
  obtain ⟨hnodup, hremote, hapart⟩ := h
  exact ⟨hnodup, hremote, fun path hpath hmem => hapart path hpath path hmem rfl⟩

theorem keysApart_gathering {todo : List Job} (installed : List Install)
    (hd : ∀ job ∈ todo, DistinctKeys (job.set config)) :
    KeysApart config (.gathering config todo installed) := by
  cases todo with
  | nil => exact ⟨hd, by simp [Call.keys, Call.gathering], by simp [Call.gathering]⟩
  | cons job rest =>
    obtain ⟨hnodup, -, hapart⟩ := distinctKeys_split (hd job List.mem_cons_self)
    have hkeys : (Call.gathering config (job :: rest) installed).keys =
        (job.set config).localFiles := by
      simp [Call.keys, Call.gathering]
    refine ⟨hd, hkeys ▸ hnodup, ?_⟩
    intro _ job' rest' hjob idx source hsource _ hmem
    cases hjob
    rw [hkeys] at hmem
    exact hapart _ hmem (List.mem_map_of_mem (List.mem_of_getElem? hsource))

theorem KeysApart.of_sublist (h : KeysApart config c) (hkeys : c'.keys.Sublist c.keys)
    (hjobs : c'.jobs = c.jobs) (hcollected : c'.collected = c.collected)
    (hfetched : c'.fetched = c.fetched) : KeysApart config c' where
  jobs := hjobs ▸ h.jobs
  nodup := h.nodup.sublist hkeys
  ahead hcol job rest hjob idx source hsource hidx hmem :=
    h.ahead (hcollected ▸ hcol) job rest (hjobs ▸ hjob) idx source hsource (hfetched ▸ hidx)
      (hkeys.subset hmem)

theorem KeysApart.fetch {job : Job} {rest : List Job} {idx : Nat} {source : Source}
    {res : Option Content} (h : KeysApart config c) (hjob : c.jobs = job :: rest)
    (hsource : (job.remote config)[idx]? = some source) (hcollected : c.collected = false)
    (hnew : idx ∉ c.fetched.map Fetch.idx) :
    KeysApart config { c with fetched := c.fetched ++ [⟨idx, ⟨source, res⟩⟩] } := by
  have hkeys : ({ c with fetched := c.fetched ++ [⟨idx, ⟨source, res⟩⟩] } : Call).keys =
      c.keys ++ [source.key] := by
    simp [Call.keys]
  have hfree := h.ahead hcollected job rest hjob idx source hsource hnew
  refine ⟨h.jobs, ?_, ?_⟩
  · rw [hkeys, List.nodup_append]
    refine ⟨h.nodup, List.nodup_singleton _, ?_⟩
    intro k hk k' hk' heq
    rw [List.mem_singleton.1 hk'] at heq
    exact hfree (heq ▸ hk)
  · intro _ job' rest' hjob' idx' source' hsource' hidx'
    obtain ⟨rfl, rfl⟩ : job' = job ∧ rest' = rest := by
      have heq := hjob'.symm.trans hjob
      simpa using heq
    simp only [List.map_append, List.map_cons, List.map_nil, List.mem_append, List.mem_singleton,
      not_or] at hidx'
    rw [hkeys, List.mem_append, List.mem_singleton, not_or]
    refine ⟨h.ahead hcollected job' rest' hjob idx' source' hsource' hidx'.1, ?_⟩
    -- two positions of the source list have different keys
    intro heq
    obtain ⟨-, hremote, -⟩ := distinctKeys_split (h.jobs job' (hjob ▸ List.mem_cons_self))
    have hlt : idx' < ((job'.remote config).map Source.key).length := by
      rw [List.length_map]
      exact (List.getElem?_eq_some_iff.1 hsource').1
    refine hidx'.2 ((List.getElem?_inj hlt hremote).1 ?_)
    rw [List.getElem?_map, List.getElem?_map, hsource, hsource']
    simp [heq]

theorem KeysApart.collect (h : KeysApart config c) (hfetching : c.fetching) :
    KeysApart config { c with
      fetched := []
      collected := true
      pending := (c.fetched.insertionSort (·.idx ≤ ·.idx)).map Fetch.outcome } := by
  refine ⟨h.jobs, ?_, fun hcol => by cases hcol⟩
  have hperm : ((c.fetched.insertionSort (·.idx ≤ ·.idx)).map (·.outcome.source.key)).Perm
      (c.fetched.map (·.outcome.source.key)) := (List.perm_insertionSort _ _).map _
  have hnodup := h.nodup
  simp only [Call.keys, hfetching.1, hfetching.2.1, List.map_nil, List.append_nil] at hnodup
  simp only [Call.keys, hfetching.1, List.map_nil, List.append_nil, List.map_map]
  exact ((List.Perm.append_left _ hperm).nodup_iff).2 hnodup

theorem KeysApart.take {lastGood : Retained} {o : Outcome} {rest : List Outcome}
    (h : KeysApart config c) (hpending : c.pending = o :: rest) :
    KeysApart config { c with pending := rest, held := (takeOutcome lastGood c.held o).2 } := by
  refine h.of_sublist ?_ rfl rfl rfl
  have hheld : ((takeOutcome lastGood c.held o).2.map (·.1.key)).Sublist
      (c.held.map (·.1.key) ++ [o.source.key]) := by
    unfold takeOutcome
    cases o.res with
    | some content => simp
    | none =>
      cases lastGood.lookup o.source.key with
      | some last => simp
      | none => simp
  simp only [Call.keys, hpending, List.map_cons]
  rw [List.append_cons]
  exact ((hheld.append (.refl _)).append (.refl _)).append (.refl _)

theorem KeysApart.readLocal {path : Str} {rest : List Str} {res : Option Content}
    (h : KeysApart config c) (hpending : c.pending = []) (hlocals : c.locals = path :: rest) :
    KeysApart config { c with locals := rest, pending := [⟨⟨path, .trusted⟩, res⟩] } := by
  refine h.of_sublist ?_ rfl rfl rfl
  simp [Call.keys, hpending, hlocals]

theorem KeysApart.next {job : Job} {rest : List Job} (h : KeysApart config c)
    (hjob : c.jobs = job :: rest) (now : Nat) : KeysApart config (c.next config rest now) := by
  have hgather := keysApart_gathering (c.installed ++ installs c.held now)
    fun job' hmem => h.jobs job' (hjob ▸ List.mem_cons_of_mem job hmem)
  unfold Call.next
  split
  · exact ⟨hgather.jobs, hgather.nodup, hgather.ahead⟩
  · exact hgather

theorem key_of_mem_inHand {key : Str} (h : key ∈ c.inHand.map Prod.fst) :
    key ∈ c.held.map (·.1.key) ∨ (∃ o ∈ c.pending, o.res ≠ none ∧ o.source.key = key) ∨
      key ∈ c.fetched.map (·.outcome.source.key) := by
  obtain ⟨x, hx, rfl⟩ := List.mem_map.1 h
  rcases mem_inHand.1 hx with ⟨f, hf, hcontent⟩ | ⟨o, ho, hcontent⟩ | ⟨held, hheld, rfl⟩
  · obtain ⟨content, -, rfl⟩ := Option.map_eq_some_iff.1 hcontent
    exact .inr (.inr (List.mem_map_of_mem hf))
  · obtain ⟨content, hres, rfl⟩ := Option.map_eq_some_iff.1 hcontent
    exact .inr (.inl ⟨o, ho, by simp [hres], rfl⟩)
  · exact .inl (List.mem_map_of_mem hheld)

/-- The key between what is held and what comes after is in neither. -/
theorem KeysApart.not_mem (h : KeysApart config c) (key : Str) (after : List Str)
    (hkeys : c.keys = c.held.map (·.1.key) ++ key :: after) :
    key ∉ c.held.map (·.1.key) ∧ key ∉ after := by
  have hnodup := h.nodup
  rw [hkeys, List.nodup_middle, List.nodup_cons, List.mem_append, not_or] at hnodup
  exact hnodup.1

/-- A call does not take up a source that it has in hand itself. -/
theorem takesUp_own {key : Str} (h : step T config s a = some t)
    (hup : takesUp config s a = some key) : ∃ (p : Nat) (c : Call), s.calls[p]? = some c ∧
      (c.jobs ≠ [] ∨ c.locals ≠ [] ∨ c.pending ≠ []) ∧
      (KeysApart config c → key ∉ c.inHand.map Prod.fst) := by
  cases step_cases h with
  | start => cases hup
  | @readLocal p c path rest res hc hpending hlocals =>
    refine ⟨p, c, hc, .inr (.inl (by simp [hlocals])), fun hk hmem => ?_⟩
    obtain rfl : path = key := by
      cases res with
      | none => cases hup
      | some text => simpa [takesUp, hc, hlocals] using hup
    obtain ⟨hheld, hafter⟩ := hk.not_mem path
      (rest ++ c.fetched.map (·.outcome.source.key))
      (by simp [Call.keys, hpending, hlocals])
    rcases key_of_mem_inHand hmem with hmem | ⟨o, ho, -⟩ | hmem
    · exact hheld hmem
    · simp [hpending] at ho
    · exact hafter (List.mem_append_right _ hmem)
  | @fetch p idx c job rest source res hc hjob hsource hfetching hnew =>
    refine ⟨p, c, hc, .inl (by simp [hjob]), fun hk hmem => ?_⟩
    obtain rfl : source.key = key := by
      cases res with
      | none => cases hup
      | some text => simpa [takesUp, hc, hjob, hsource] using hup
    refine hk.ahead hfetching.2.2 job rest hjob idx source hsource hnew ?_
    unfold Call.keys
    rcases key_of_mem_inHand hmem with hmem | ⟨o, ho, -⟩ | hmem
    · simp only [List.mem_append, hmem, true_or]
    · simp [hfetching.2.1] at ho
    · exact List.mem_append_right _ hmem
  | collect => cases hup
  | @take p c o rest hc hpending =>
    refine ⟨p, c, hc, .inr (.inr (by simp [hpending])), fun hk hmem => ?_⟩
    obtain ⟨hres, rfl⟩ : o.res = none ∧ o.source.key = key := by
      simp only [takesUp, hc, hpending, Option.bind_eq_bind, Option.bind_some, List.head?_cons] at hup
      obtain ⟨hcond, heq⟩ := Option.ite_none_right_eq_some.1 hup
      exact ⟨hcond.1, Option.some.inj heq⟩
    obtain ⟨hheld, hafter⟩ := hk.not_mem o.source.key
      (rest.map (·.source.key) ++ c.locals ++ c.fetched.map (·.outcome.source.key))
      (by simp [Call.keys, hpending])
    rcases key_of_mem_inHand hmem with hmem | ⟨o', ho', hsome, heq⟩ | hmem
    · exact hheld hmem
    · rw [hpending, List.mem_cons] at ho'
      rcases ho' with rfl | ho'
      · exact hsome hres
      · rw [← heq] at hafter
        simp only [List.mem_append, not_or] at hafter
        exact hafter.1.1 (List.mem_map_of_mem ho')
    · exact hafter (List.mem_append_right _ hmem)
  | install => cases hup

/-! ## One call at a time -/

theorem Settled.under_way (h : Settled c) (hc : c.jobs ≠ [] ∨ c.locals ≠ [] ∨ c.pending ≠ []) :
    c.finishedAt = none := by
  cases hf : c.finishedAt with
  | none => rfl
  | some f =>
    obtain ⟨hjobs, hlocals, hpending, -⟩ := h (by rw [hf]; rfl)
    simp [hjobs, hlocals, hpending] at hc

theorem settled_of_under_way (h : c.finishedAt = none) : Settled c := by
  intro hsome
  simp [h] at hsome

theorem settled_next (c : Call) (rest : List Job) (now : Nat) :
    Settled (c.next config rest now) := by
  cases rest with
  | nil => exact fun _ => ⟨rfl, rfl, rfl, rfl⟩
  | cons job rest => exact settled_of_under_way rfl

/-- What a step does to the calls. -/
theorem step_calls (h : step T config s a = some t) :
    (a = .start ∧ t.calls = s.calls ++ [.gathering config (jobs config) []]) ∨
    ∃ (p : Nat) (c c' : Call), s.calls[p]? = some c ∧ t.calls = s.calls.set p c' ∧
      (c.jobs ≠ [] ∨ c.locals ≠ [] ∨ c.pending ≠ []) ∧ (c.finishedAt = none → Settled c') ∧
      (KeysApart config c → KeysApart config c') := by
  cases step_cases h with
  | start => exact .inl ⟨rfl, rfl⟩
  | @readLocal p c path rest res hc hpending hlocals =>
    exact .inr ⟨p, c, _, hc, rfl, .inr (.inl (by simp [hlocals])), fun hn => settled_of_under_way hn,
      fun hk => hk.readLocal hpending hlocals⟩
  | @fetch p idx c job rest source res hc hjob hsource hfetching hnew =>
    exact .inr ⟨p, c, _, hc, rfl, .inl (by simp [hjob]), fun hn => settled_of_under_way hn,
      fun hk => hk.fetch hjob hsource hfetching.2.2 hnew⟩
  | @collect p c job rest hc hjob hfetching =>
    exact .inr ⟨p, c, _, hc, rfl, .inl (by simp [hjob]), fun hn => settled_of_under_way hn,
      fun hk => hk.collect hfetching⟩
  | @take p c o rest hc hpending =>
    exact .inr ⟨p, c, _, hc, rfl, .inr (.inr (by simp [hpending])), fun hn => settled_of_under_way hn,
      fun hk => hk.take hpending⟩
  | @install p c job rest hc hjob hpending hcollected =>
    refine .inr ⟨p, c, c.next config rest s.now, hc, ?_, .inl (by simp [hjob]),
      fun _ => settled_next _ _ _, fun hk => hk.next hjob s.now⟩
    simp only [St.setCall, calls_store]

/-- At most one call is under way. -/
structure Serial (config : BlocklistConfig) (s : St) : Prop where
  apart : ∀ c ∈ s.calls, KeysApart config c
  settled : ∀ c ∈ s.calls, Settled c
  single : ∀ (p q : Nat) (c d : Call), s.calls[p]? = some c → s.calls[q]? = some d →
    c.finishedAt = none → d.finishedAt = none → p = q

theorem serial_start (hd : ∀ job ∈ jobs config, DistinctKeys (job.set config)) (hi : Serial config s)
    (halone : Alone s .start) (hcalls : t.calls = s.calls ++ [.gathering config (jobs config) []]) :
    Serial config t := by
  have hnew : ∀ d ∈ t.calls, d ∈ s.calls ∨ d = .gathering config (jobs config) [] := by
    intro d hdm
    rw [hcalls, List.mem_append, List.mem_singleton] at hdm
    exact hdm
  -- the calls before have returned, so the new one is the only one under way
  have hlast : ∀ (p : Nat) (c : Call), t.calls[p]? = some c → c.finishedAt = none →
      p = s.calls.length := by
    intro p c hc hnone
    rw [hcalls] at hc
    by_cases hlt : p < s.calls.length
    · rw [List.getElem?_append_left hlt] at hc
      have hfin := halone c (List.mem_of_getElem? hc)
      simp [hnone] at hfin
    · have hbound := (List.getElem?_eq_some_iff.1 hc).1
      simp only [List.length_append, List.length_singleton] at hbound
      omega
  refine ⟨?_, ?_, ?_⟩
  · intro d hdm
    rcases hnew d hdm with hdm | rfl
    · exact hi.apart d hdm
    · exact keysApart_gathering [] hd
  · intro d hdm
    rcases hnew d hdm with hdm | rfl
    · exact hi.settled d hdm
    · exact settled_of_under_way rfl
  · intro p q c d hc hd' hcn hdn
    rw [hlast p c hc hcn, hlast q d hd' hdn]

theorem serial_step (hd : ∀ job ∈ jobs config, DistinctKeys (job.set config)) (hi : Serial config s)
    (halone : Alone s a) (h : step T config s a = some t) : Serial config t := by
  rcases step_calls h with ⟨rfl, hcalls⟩ | ⟨p, c, c', hc, hcalls, hbusy, hset, hkeys⟩
  · exact serial_start hd hi halone hcalls
  · have hmem := List.mem_of_getElem? hc
    have hnone := (hi.settled c hmem).under_way hbusy
    have hnew : ∀ d ∈ t.calls, d ∈ s.calls ∨ d = c' := fun d hdm =>
      List.mem_or_eq_of_mem_set (hcalls ▸ hdm)
    have hat : ∀ (q : Nat) (d : Call), t.calls[q]? = some d → d.finishedAt = none → q = p := by
      intro q d hq hdn
      by_contra hne
      rw [hcalls, List.getElem?_set_ne (Ne.symm hne)] at hq
      exact hne (hi.single q p d c hq hc hdn hnone)
    refine ⟨?_, ?_, ?_⟩
    · intro d hdm
      rcases hnew d hdm with hdm | rfl
      · exact hi.apart d hdm
      · exact hkeys (hi.apart c hmem)
    · intro d hdm
      rcases hnew d hdm with hdm | rfl
      · exact hi.settled d hdm
      · exact hset hnone
    · intro q q' d d' hq hq' hdn hdn'
      rw [hat q d hq hdn, hat q' d' hq' hdn']

/-- The call that takes a step is the only one with anything in hand. -/
theorem Serial.exclusive (hi : Serial config s) (h : step T config s a = some t) :
    Exclusive config s a := by
  intro key hup d hdm
  obtain ⟨p, c, hc, hbusy, hown⟩ := takesUp_own h hup
  have hmem := List.mem_of_getElem? hc
  have hnone := (hi.settled c hmem).under_way hbusy
  cases hf : d.finishedAt with
  | some f =>
    obtain ⟨-, -, -, hhand⟩ := hi.settled d hdm (by rw [hf]; rfl)
    simp [hhand]
  | none =>
    obtain ⟨q, hq⟩ := List.getElem?_of_mem hdm
    obtain rfl := hi.single q p d c hq hc hf hnone
    obtain rfl : d = c := Option.some.inj (hq.symm.trans hc)
    exact hown (hi.apart d hdm)

theorem serial_reachable (hd : ∀ job ∈ jobs config, DistinctKeys (job.set config))
    (h : ((system T config build).restrict Alone).Reachable s) : Serial config s := by
  refine h.invariant ?_ ?_
  · intro s hs
    rw [hs]
    exact ⟨by simp [initial], by simp [initial], by simp [initial]⟩
  · intro s a t hi hstep
    obtain ⟨halone, hst⟩ := hstep
    exact serial_step hd hi halone hst

theorem exclusive_reachable (hd : ∀ job ∈ jobs config, DistinctKeys (job.set config))
    (h : ((system T config build).restrict Alone).Reachable s) :
    ((system T config build).restrict (Exclusive config)).Reachable s := by
  induction h with
  | init hs => exact .init hs
  | step hs hst ih => exact .step ih ⟨(serial_reachable hd hs).exclusive hst.2, hst.2⟩

/-- Reloads that run one at a time never go back in time. -/
theorem serialised_up_to_date (hd : ∀ job ∈ jobs config, DistinctKeys (job.set config))
    (h : ((system T config build).restrict Alone).Reachable s) : UpToDate s :=
  (inv_reachable (exclusive_reachable hd h)).upToDate

end

end RustyDns.L5.Loader
