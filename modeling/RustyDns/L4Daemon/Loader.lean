import RustyDns.L2Blocklist.Engine

/-!
# Blocklist loader

`rustydnsd/src/blocklist_loader.rs`: a reload gathers the sources of the global set and of each
group, and hands what it got to the engine. A source that fails falls back to its last good content.

What the files and servers give in one gather is its `SetReads`: for each source its content or a
failure (the error text is only logged), and the order in which the concurrent fetches complete. A
`Round` has one for the global set and one for each group, so a source listed twice may answer
differently.

Results:
* `gather_eq`: the completion order does not matter; a gather takes the sources one by one in
  configured order.
* `allowlisted_unblocked_iff`: when a globally allowlisted name is safe in every group.
-/

namespace RustyDns.L4

open RustyDns.Lib RustyDns.L1 RustyDns.L2.Blocklist

/-- The arguments of a `gather`. -/
structure SourceSet where
  localFiles : List Str
  remote : List Str
  trustedRpz : List Str

def globalSet (config : BlocklistConfig) : SourceSet :=
  ⟨config.localFiles, config.sources, config.trustedRpzSources⟩

def groupSet (group : BlocklistGroup) : SourceSet :=
  ⟨group.localFiles, group.sources, group.trustedRpzSources⟩

/-- A source by the key its content is remembered under, with its trust. -/
structure Source where
  key : Str
  trust : BlocklistSource
  deriving DecidableEq, Repr

def trustOf (trustedRpz : List Str) (url : Str) : BlocklistSource :=
  if url ∈ trustedRpz then .trusted else .untrusted

/-- The sources of a set in configured order, local files first. -/
def SourceSet.sources (set : SourceSet) : List Source :=
  set.localFiles.map (⟨·, .trusted⟩) ++ set.remote.map fun url => ⟨url, trustOf set.trustedRpz url⟩

/-- What a fetch task returns. -/
structure FetchResult where
  idx : Nat
  source : Source
  res : Option Str
  deriving DecidableEq, Repr

/-- What one gather reads, by position, and how the fetches complete. -/
structure SetReads where
  readLocal : Nat → Option Str
  fetchRemote : Nat → Option Str
  complete : List FetchResult → List FetchResult := id
  complete_perm : ∀ l, (complete l).Perm l := by exact List.Perm.refl

/-- `last_good`. -/
abbrev LastGood := AList (fun _ : Str => Str)

/-- The variables of `gather`. -/
structure Gathered where
  lastGood : LastGood
  sources : List (Str × BlocklistSource) := []
  failed : Nat := 0

/-- What is done with the outcome of one source: remember it, or fall back on what is remembered. -/
def Gathered.take (g : Gathered) (source : Source) (res : Option Str) : Gathered :=
  match res with
  | some content =>
    { g with
      lastGood := g.lastGood.insert source.key content
      sources := g.sources ++ [(content, source.trust)] }
  | none =>
    match g.lastGood.lookup source.key with
    | some last => { g with sources := g.sources ++ [(last, source.trust)] }
    | none => { g with failed := g.failed + 1 }

/-- The fetch tasks of a set with their outcomes. -/
def fetches (set : SourceSet) (reads : SetReads) : List FetchResult :=
  set.remote.zipIdx.map fun (url, idx) =>
    ⟨idx, ⟨url, trustOf set.trustedRpz url⟩, reads.fetchRemote idx⟩

/-- How many of them run at a time. The sorted results do not depend on it. -/
def maxConcurrentFetches : Nat := 4

/-- mirrors crates/rustydnsd/src/blocklist_loader.rs:159-257 -/
def gather (lastGood : LastGood) (set : SourceSet) (reads : SetReads) : Gathered :=
  let g := set.localFiles.zipIdx.foldl
    (fun g (path, i) => g.take ⟨path, .trusted⟩ (reads.readLocal i)) { lastGood }
  let results := (reads.complete (fetches set reads)).insertionSort (·.idx ≤ ·.idx)
  results.foldl (fun g r => g.take r.source r.res) g

/-! ## Reload -/

/-- mirrors crates/rustydnsd/src/blocklist_loader.rs:18-25 -/
structure LoadSummary where
  totalSources : Nat
  loadedSources : Nat
  failedSources : Nat
  deriving DecidableEq, Repr

/-- The loader's retained content and the engine it loads. -/
structure Blocklists where
  config : BlocklistConfig
  lastGood : LastGood
  engine : BlocklistEngine

structure Round where
  global : SetReads
  group : Nat → SetReads

namespace Blocklists

variable (T : UnicodeTables)

/-- A new loader and a new engine. -/
def start (build : RegexBuild) (config : BlocklistConfig) : Blocklists :=
  ⟨config, ∅, BlocklistEngine.new T build config⟩

def reloadGlobal (b : Blocklists) (reads : SetReads) : Blocklists × LoadSummary :=
  let g := gather b.lastGood (globalSet b.config) reads
  let summary : LoadSummary :=
    ⟨g.sources.length + g.failed, g.sources.length, g.failed⟩
  let engine := if g.sources.isEmpty then b.engine else b.engine.loadManyWithTrust T g.sources
  ({ b with lastGood := g.lastGood, engine }, summary)

def reloadGroup (b : Blocklists) (group : BlocklistGroup) (reads : SetReads) : Blocklists :=
  let g := gather b.lastGood (groupSet group) reads
  let engine :=
    if g.sources.isEmpty then b.engine
    else b.engine.loadGroup T group.name g.sources (b.config.allowlist ++ group.allowlist)
  { b with lastGood := g.lastGood, engine }

/-- mirrors crates/rustydnsd/src/blocklist_loader.rs:87-155 -/
def reload (b : Blocklists) (round : Round) : Blocklists × LoadSummary :=
  let (b, summary) := b.reloadGlobal T round.global
  (b.config.groups.zipIdx.foldl (fun b (g, i) => b.reloadGroup T g (round.group i)) b, summary)

/-- Reloads one after another. -/
def reloads (b : Blocklists) (rounds : List Round) : Blocklists :=
  rounds.foldl (fun b round => (b.reload T round).1) b

end Blocklists

/-- A reload keeps the configuration of the loader and of the engine. -/
theorem Blocklists.reload_configs (T : UnicodeTables) (b : Blocklists) (round : Round) :
    (b.reload T round).1.config = b.config ∧
      (b.reload T round).1.engine.config = b.engine.config := by
  let configs (b : Blocklists) := (b.config, b.engine.config)
  have hglobal : configs (b.reloadGlobal T round.global).1 = configs b := by
    unfold Blocklists.reloadGlobal
    dsimp only [configs]
    split <;> rfl
  have hgroup : ∀ (b : Blocklists) (g : BlocklistGroup × Nat),
      configs (b.reloadGroup T g.1 (round.group g.2)) = configs b := by
    intro b g
    unfold Blocklists.reloadGroup
    dsimp only [configs]
    split
    · rfl
    · unfold BlocklistEngine.loadGroup
      split <;> rfl
  have hall := (Fold.foldl_const hgroup (b.reloadGlobal T round.global).1.config.groups.zipIdx
    (b.reloadGlobal T round.global).1).trans hglobal
  exact Prod.mk.inj hall

/-! ## Completion order -/

/-- The sources of a set with their outcomes, in configured order. -/
def attempts (set : SourceSet) (reads : SetReads) : List (Source × Option Str) :=
  (set.localFiles.zipIdx.map fun (path, i) => (⟨path, .trusted⟩, reads.readLocal i)) ++
    (fetches set reads).map fun r => (r.source, r.res)

theorem fetches_sorted (set : SourceSet) (reads : SetReads) :
    (fetches set reads).Pairwise (·.idx < ·.idx) := by
  have hidx : (set.remote.zipIdx.map Prod.snd).Pairwise (· < ·) := by
    rw [List.zipIdx_map_snd]
    exact List.pairwise_lt_range'
  unfold fetches
  rw [List.pairwise_map]
  exact List.pairwise_map.1 hidx

theorem sort_fetches (set : SourceSet) (reads : SetReads) :
    (reads.complete (fetches set reads)).insertionSort (·.idx ≤ ·.idx) = fetches set reads := by
  have hperm : ((reads.complete (fetches set reads)).insertionSort (·.idx ≤ ·.idx)).Perm
      (fetches set reads) :=
    (List.perm_insertionSort _ _).trans (reads.complete_perm _)
  have hsorted := fetches_sorted set reads
  have hnodup : ((fetches set reads).map FetchResult.idx).Nodup :=
    List.pairwise_map.2 (hsorted.imp Nat.ne_of_lt)
  refine hperm.eq_of_pairwise ?_ (List.pairwise_insertionSort _ _) (hsorted.imp Nat.le_of_lt)
  intro a b ha hb hab hba
  exact List.inj_on_of_nodup_map hnodup (hperm.subset ha) hb (Nat.le_antisymm hab hba)

theorem gather_eq (lastGood : LastGood) (set : SourceSet) (reads : SetReads) :
    gather lastGood set reads =
      (attempts set reads).foldl (fun g a => g.take a.1 a.2) { lastGood } := by
  unfold gather attempts
  simp only [sort_fetches, List.foldl_append, List.foldl_map]

/-! ## Global allow entries -/

/-- The entry of a group's name that the engine uses: the last one. -/
def Effective (config : BlocklistConfig) (g : BlocklistGroup) : Prop :=
  config.groups.reverse.find? (·.name == g.name) = some g

section
variable {T : UnicodeTables} {build : RegexBuild} {config : BlocklistConfig}

theorem lookup_initialGroups {rules : RegexRules} {name : Str} (groups : List BlocklistGroup) :
    (groups.foldl (fun m g => m.insert g.name (BlocklistEngine.initialGroup T rules g))
        (∅ : AList fun _ : Str => BlocklistState)).lookup name =
      (groups.reverse.find? (·.name == name)).map (BlocklistEngine.initialGroup T rules) := by
  induction groups using List.reverseRecOn with
  | nil => rfl
  | append_singleton groups last ih =>
    rw [List.foldl_append, List.foldl_cons, List.foldl_nil, List.reverse_append]
    by_cases hname : last.name = name
    · subst hname
      simp
    · rw [AList.lookup_insert_ne (Ne.symm hname), ih]
      simp [hname]

theorem lookup_new_iff {name : Str} {st : BlocklistState} :
    (BlocklistEngine.new T build config).groups.lookup name = some st ↔
      ∃ g, Effective config g ∧ g.name = name ∧
        st = BlocklistEngine.initialGroup T (BlocklistEngine.compiledRules build config) g := by
  unfold BlocklistEngine.new
  simp only
  rw [lookup_initialGroups, Option.map_eq_some_iff]
  constructor
  · rintro ⟨g, hfind, rfl⟩
    obtain rfl : g.name = name := by simpa using List.find?_some hfind
    exact ⟨g, hfind, rfl, rfl⟩
  · rintro ⟨g, heff, rfl, rfl⟩
    exact ⟨g, heff, rfl⟩

/-- A name on the allowlist of a state is not blocked by it. -/
theorem not_blocked_of_allowed {st : BlocklistState} {name : Str}
    (h : st.allowlist.isAllowed (BlocklistState.lookupForm T name) = true) :
    st.isBlocked T name = false := by
  unfold BlocklistState.isBlocked
  split
  · rfl
  · simp [h]

/-- A group that never loaded blocks what the regex rules match and its own allowlist does not. -/
theorem initialGroup_isBlocked {rules : RegexRules} {g : BlocklistGroup} {name : Str}
    (hne : name.trimEndMatches '.' ≠ []) :
    (BlocklistEngine.initialGroup T rules g).isBlocked T name =
      (!(Allowlist.fromEntries T g.allowlist).isAllowed (BlocklistState.lookupForm T name) &&
        rules.isMatch (BlocklistState.lookupForm T name)) := by
  have hwalk : ∀ s : Str, BlocklistState.parentWalk ∅ s = false := by
    intro s
    induction s with
    | nil => rfl
    | cons c s ih => simp [BlocklistState.parentWalk, ih]
  unfold BlocklistState.isBlocked
  rw [if_neg hne]
  simp only [BlocklistEngine.initialGroup, BlocklistState.newEmpty, BlocklistState.matchesBlock,
    hwalk]
  cases (Allowlist.fromEntries T g.allowlist).isAllowed (BlocklistState.lookupForm T name) <;> simp

/-- What reloads preserve: every state has the global allow entries, or is a group's first state. -/
structure GlobalAllow (T : UnicodeTables) (build : RegexBuild) (config : BlocklistConfig)
    (b : Blocklists) : Prop where
  loader : b.config = config
  engine : b.engine.config = config
  global : (Allowlist.fromEntries T config.allowlist).Sub b.engine.state.allowlist
  groups : ∀ name st, b.engine.groups.lookup name = some st →
    (Allowlist.fromEntries T config.allowlist).Sub st.allowlist ∨
    ∃ g, Effective config g ∧ g.name = name ∧
      st = BlocklistEngine.initialGroup T (BlocklistEngine.compiledRules build config) g

theorem globalAllow_start : GlobalAllow T build config (Blocklists.start T build config) where
  loader := rfl
  engine := rfl
  global := .refl _
  groups _ _ h := .inr (lookup_new_iff.1 h)

theorem GlobalAllow.reloadGlobal {b : Blocklists} (h : GlobalAllow T build config b)
    (reads : SetReads) : GlobalAllow T build config (b.reloadGlobal T reads).1 := by
  unfold Blocklists.reloadGlobal
  simp only
  split
  · exact ⟨h.loader, h.engine, h.global, h.groups⟩
  · refine ⟨h.loader, h.engine, ?_, h.groups⟩
    rw [← h.engine]
    exact fromEntries_sub_buildState

theorem GlobalAllow.reloadGroup {b : Blocklists} (h : GlobalAllow T build config b)
    (group : BlocklistGroup) (reads : SetReads) :
    GlobalAllow T build config (b.reloadGroup T group reads) := by
  unfold Blocklists.reloadGroup BlocklistEngine.loadGroup
  simp only
  split
  · exact ⟨h.loader, h.engine, h.global, h.groups⟩
  · split
    · refine ⟨h.loader, h.engine, h.global, fun name st hst => ?_⟩
      simp only at hst
      by_cases hname : name = group.name
      · subst hname
        rw [AList.lookup_insert] at hst
        obtain rfl := Option.some.inj hst
        rw [h.loader]
        exact .inl ((Allowlist.fromEntries_sub_append T _ _).trans fromEntries_sub_buildState)
      · rw [AList.lookup_insert_ne hname] at hst
        exact h.groups name st hst
    · exact ⟨h.loader, h.engine, h.global, h.groups⟩

theorem GlobalAllow.reload {b : Blocklists} (h : GlobalAllow T build config b) (round : Round) :
    GlobalAllow T build config (b.reload T round).1 := by
  unfold Blocklists.reload
  simp only
  generalize (b.reloadGlobal T round.global).1.config.groups.zipIdx = groups
  have hglobal := h.reloadGlobal round.global
  generalize (b.reloadGlobal T round.global).1 = b' at hglobal
  induction groups generalizing b' with
  | nil => exact hglobal
  | cons g groups ih => exact ih _ (hglobal.reloadGroup g.1 (round.group g.2))

theorem globalAllow_reloads (rounds : List Round) :
    GlobalAllow T build config ((Blocklists.start T build config).reloads T rounds) := by
  induction rounds using List.reverseRecOn with
  | nil => exact globalAllow_start
  | append_singleton rounds round ih =>
    unfold Blocklists.reloads at ih ⊢
    rw [List.foldl_append]
    exact ih.reload round

end

/-- **When a globally allowlisted name is never blocked**: for every configuration, a name matched by
the global allowlist is unblocked for every group after every sequence of reloads, if and only if no
regex rule matches it or the own allowlist of every group matches it too. A group that has not loaded
yet has the regex rules but only its own allow entries. -/
theorem allowlisted_unblocked_iff (T : UnicodeTables) (build : RegexBuild)
    (config : BlocklistConfig) (name : Str)
    (hallow : (Allowlist.fromEntries T config.allowlist).isAllowed
      (BlocklistState.lookupForm T name) = true) :
    (∀ rounds group, ((Blocklists.start T build config).reloads T rounds).engine.isBlockedForGroup T
        name group = false) ↔
      ∀ g, Effective config g →
        (BlocklistEngine.compiledRules build config).isMatch (BlocklistState.lookupForm T name) =
          true →
        (Allowlist.fromEntries T g.allowlist).isAllowed (BlocklistState.lookupForm T name) =
          true := by
  have hne : name.trimEndMatches '.' ≠ [] := by
    intro hnil
    have hform : BlocklistState.lookupForm T name = [] := by simp [BlocklistState.lookupForm, hnil]
    rw [hform] at hallow
    cases hallow
  constructor
  · intro hall g heff hmatch
    have hlookup : (BlocklistEngine.new T build config).groups.lookup g.name = some _ :=
      lookup_new_iff.2 ⟨g, heff, rfl, rfl⟩
    have hfirst := hall [] (some g.name)
    simp only [BlocklistEngine.isBlockedForGroup, BlocklistEngine.stateFor, Blocklists.reloads,
      Blocklists.start, List.foldl_nil, Option.bind_some, hlookup, Option.getD_some] at hfirst
    rw [initialGroup_isBlocked hne, hmatch] at hfirst
    simpa using hfirst
  · intro hcond rounds group
    have hinv : GlobalAllow T build config ((Blocklists.start T build config).reloads T rounds) :=
      globalAllow_reloads rounds
    unfold BlocklistEngine.isBlockedForGroup BlocklistEngine.stateFor
    cases hst : group.bind ((Blocklists.start T build config).reloads T
        rounds).engine.groups.lookup with
    | none => exact not_blocked_of_allowed (Allowlist.isAllowed_mono hinv.global hallow)
    | some st =>
      obtain ⟨gname, -, hlookup⟩ := Option.bind_eq_some_iff.1 hst
      rcases hinv.groups gname st hlookup with hsub | ⟨g, heff, -, rfl⟩
      · exact not_blocked_of_allowed (Allowlist.isAllowed_mono hsub hallow)
      · rw [Option.getD_some, initialGroup_isBlocked hne]
        cases hmatch : (BlocklistEngine.compiledRules build config).isMatch
            (BlocklistState.lookupForm T name) with
        | false => simp
        | true => simp [hcond g heff hmatch]

/-- A regex crate for patterns without special characters: the name contains the pattern. -/
def literalRegex : RegexBuild := fun patterns =>
  .ok fun name => patterns.any fun p => decide (p <:+: name)

/-- `ok.io` is allowed globally and matched by a regex rule; `kids` has the given allow entries. -/
def kidsConfig (allow : List Str) : BlocklistConfig where
  sources := []
  allowlist := ["ok.io".toList]
  regexRules := ["ok".toList]
  groups := [{ name := "kids".toList, sources := ["u".toList], allowlist := allow }]

/-- Every source fails. -/
def failedRound : Round where
  global := { readLocal := fun _ => none, fetchRemote := fun _ => none }
  group _ := { readLocal := fun _ => none, fetchRemote := fun _ => none }

/-- **Counterexample**: right after start, and after a round in which every fetch fails, the globally
allowlisted `ok.io` is blocked for the group. -/
theorem allowlisted_blocked_in_unloaded_group :
    (Allowlist.fromEntries .asciiOnly (kidsConfig []).allowlist).isAllowed
      (BlocklistState.lookupForm .asciiOnly "ok.io".toList) = true ∧
    ((Blocklists.start .asciiOnly literalRegex (kidsConfig [])).reloads .asciiOnly
      []).engine.isBlockedForGroup .asciiOnly "ok.io".toList (some "kids".toList) = true ∧
    ((Blocklists.start .asciiOnly literalRegex (kidsConfig [])).reloads .asciiOnly
      [failedRound]).engine.isBlockedForGroup .asciiOnly "ok.io".toList (some "kids".toList) =
        true := by
  decide +kernel

theorem allowlisted_unblocked_kids :
    (BlocklistEngine.compiledRules literalRegex (kidsConfig ["*.io".toList])).isMatch
      "ok.io".toList = true ∧
    ∀ rounds group, ((Blocklists.start .asciiOnly literalRegex
      (kidsConfig ["*.io".toList])).reloads .asciiOnly rounds).engine.isBlockedForGroup .asciiOnly
        "ok.io".toList group = false := by
  refine ⟨by decide +kernel, (allowlisted_unblocked_iff .asciiOnly literalRegex
    (kidsConfig ["*.io".toList]) "ok.io".toList (by decide +kernel)).2 ?_⟩
  intro g heff _
  have hmem : g ∈ (kidsConfig ["*.io".toList]).groups :=
    List.mem_reverse.1 (List.mem_of_find?_eq_some heff)
  obtain rfl := List.mem_singleton.1 hmem
  decide +kernel

end RustyDns.L4
