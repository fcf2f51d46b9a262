import RustyDns.L1Core.Validate
import RustyDns.L4Daemon.Loader
import RustyDns.Lib.LastWrite

/-!
# Per-source retention

What the loader's `last_good` map is for, over any sequence of reload rounds: a set is always built
from the newest content ever read of each of its sources. The abstract side is the log of successful
reads (`history`), in which one map of retained content serves the global set and all groups.

Results:
* `gather_current`: a gather returns the newest content of each source and records what it read.
* `reload_uses_newest_content`: after every round each state is built from the newest content, and
  the order in which fetches complete does not matter.
-/

namespace RustyDns.L4

open RustyDns.Lib RustyDns.Lib.LastWrite RustyDns.L1 RustyDns.L2.Blocklist

/-! ## The log of reads -/

/-- The successful reads among a list of attempts: key and content. -/
def successes (as : List (Source × Option Str)) : List (Str × Str) :=
  as.filterMap fun (source, res) => res.map (source.key, ·)

/-- The successful reads of one gather, in configured order. -/
def readsOf (set : SourceSet) (reads : SetReads) : List (Str × Str) := successes (attempts set reads)

/-- The successful reads of some groups of a round. -/
def groupReads (round : Round) (groups : List (BlocklistGroup × Nat)) : List (Str × Str) :=
  groups.flatMap fun (g, i) => readsOf (groupSet g) (round.group i)

/-- The successful reads of a round, of the global set and the first `n` groups. -/
def readsBefore (config : BlocklistConfig) (round : Round) (n : Nat) : List (Str × Str) :=
  readsOf (globalSet config) round.global ++ groupReads round (config.groups.zipIdx.take n)

/-- The successful reads of all rounds. -/
def history (config : BlocklistConfig) (rounds : List Round) : List (Str × Str) :=
  rounds.flatMap fun round => readsBefore config round config.groups.length

/-- The newest content of each source of a set that was ever read, with its trust. -/
def current (log : List (Str × Str)) (set : SourceSet) : List (Str × BlocklistSource) :=
  set.sources.filterMap fun source => (lastWrite log source.key).map (·, source.trust)

/-- The sources of a set have different keys. -/
def DistinctKeys (set : SourceSet) : Prop := (set.sources.map Source.key).Nodup

/-! ## One gather -/

theorem attempts_sources (set : SourceSet) (reads : SetReads) :
    (attempts set reads).map Prod.fst = set.sources := by
  simp only [attempts, fetches, SourceSet.sources, List.map_append, List.map_map]
  congr 1
  · exact Fold.map_zipIdx_fst (fun path => (⟨path, .trusted⟩ : Source)) _
  · exact Fold.map_zipIdx_fst (fun url => (⟨url, trustOf set.trustedRpz url⟩ : Source)) _

theorem mem_keys_of_mem_successes {as : List (Source × Option Str)} {key : Str}
    (h : key ∈ (successes as).map Prod.fst) : key ∈ as.map (·.1.key) := by
  obtain ⟨⟨k, content⟩, hmem, rfl⟩ := List.mem_map.1 h
  obtain ⟨⟨source, res⟩, ha, heq⟩ := List.mem_filterMap.1 hmem
  obtain ⟨c, -, hc⟩ := Option.map_eq_some_iff.1 heq
  cases hc
  exact List.mem_map.2 ⟨_, ha, rfl⟩

/-- One source is taken: the map records a success, and the newest content is what is used. -/
theorem take_current {g : Gathered} {log : List (Str × Str)} (hg : Holds g.lastGood log)
    (source : Source) (res : Option Str) :
    Holds (g.take source res).lastGood (log ++ successes [(source, res)]) ∧
      (g.take source res).sources = g.sources ++
        ((lastWrite (log ++ successes [(source, res)]) source.key).map (·, source.trust)).toList := by
  unfold Gathered.take
  cases res with
  | some content =>
    have hone : successes [(source, some content)] = [(source.key, content)] := rfl
    rw [hone, lastWrite_concat_self]
    exact ⟨hg.insert source.key content, rfl⟩
  | none =>
    have hnone : successes [(source, none)] = [] := rfl
    rw [hnone, List.append_nil, ← hg source.key]
    cases hlast : g.lastGood.lookup source.key with
    | some last =>
      simp only
      exact ⟨hg, rfl⟩
    | none =>
      simp only
      exact ⟨hg, (List.append_nil _).symm⟩

theorem foldl_take_current {as : List (Source × Option Str)} {g : Gathered}
    {log : List (Str × Str)} (hg : Holds g.lastGood log) (hkeys : (as.map (·.1.key)).Nodup) :
    Holds (as.foldl (fun g a => g.take a.1 a.2) g).lastGood (log ++ successes as) ∧
      (as.foldl (fun g a => g.take a.1 a.2) g).sources = g.sources ++
        as.filterMap fun a => (lastWrite (log ++ successes as) a.1.key).map (·, a.1.trust) := by
  induction as generalizing g log with
  | nil => exact ⟨by simpa [successes] using hg, by simp⟩
  | cons a as ih =>
    obtain ⟨source, res⟩ := a
    rw [List.map_cons, List.nodup_cons] at hkeys
    obtain ⟨hholds, hsources⟩ := take_current hg source res
    obtain ⟨ihholds, ihsources⟩ := ih hholds hkeys.2
    have hlog : log ++ successes ((source, res) :: as) =
        log ++ successes [(source, res)] ++ successes as := by
      rw [List.append_assoc, successes, successes, successes, ← List.filterMap_append]
      rfl
    -- later sources of the set have other keys, so they do not overwrite this one
    have hown : lastWrite (log ++ successes ((source, res) :: as)) source.key =
        lastWrite (log ++ successes [(source, res)]) source.key := by
      rw [hlog]
      exact lastWrite_append_of_notMem fun h => hkeys.1 (mem_keys_of_mem_successes h)
    rw [List.foldl_cons, ihsources, hsources, List.filterMap_cons, hown, ← hlog]
    refine ⟨by rw [hlog]; exact ihholds, ?_⟩
    cases lastWrite (log ++ successes [(source, res)]) source.key with
    | none => simp
    | some content => simp

/-- A gather uses the newest content of each source of the set and records what it read. -/
theorem gather_current {lastGood : LastGood} {log : List (Str × Str)} (h : Holds lastGood log)
    (set : SourceSet) (reads : SetReads) (hkeys : DistinctKeys set) :
    Holds (gather lastGood set reads).lastGood (log ++ readsOf set reads) ∧
      (gather lastGood set reads).sources = current (log ++ readsOf set reads) set := by
  have hnodup : ((attempts set reads).map (·.1.key)).Nodup := by
    have heq : (attempts set reads).map (·.1.key) = set.sources.map Source.key := by
      rw [← attempts_sources set reads, List.map_map]
      rfl
    rw [heq]
    exact hkeys
  obtain ⟨hholds, hsources⟩ := foldl_take_current (g := { lastGood }) h hnodup
  rw [gather_eq]
  refine ⟨hholds, hsources.trans ?_⟩
  rw [List.nil_append, current, ← attempts_sources set reads, List.filterMap_map]
  rfl

/-! ## One round -/

section
variable {T : UnicodeTables} {build : RegexBuild} {config : BlocklistConfig}

/-- What holds between gathers: the map holds the log, and the engine has the config's groups and
rules. -/
structure Retains (build : RegexBuild) (config : BlocklistConfig) (b : Blocklists)
    (log : List (Str × Str)) : Prop where
  holds : Holds b.lastGood log
  loader : b.config = config
  engine : b.engine.config = config
  rules : b.engine.regexRules = BlocklistEngine.compiledRules build config
  groups : ∀ g ∈ config.groups, g.name ∈ b.engine.groups

/-- The state built from the content of a set. -/
def builtFrom (T : UnicodeTables) (build : RegexBuild) (config : BlocklistConfig)
    (allow : List Str) (sources : List (Str × BlocklistSource)) : BlocklistState :=
  buildState T (BlocklistEngine.compiledRules build config) sources allow

theorem retains_start : Retains build config (Blocklists.start T build config) [] where
  holds := .empty
  loader := rfl
  engine := rfl
  rules := rfl
  groups g hg := by
    have hfind : (config.groups.reverse.find? (·.name == g.name)).isSome = true :=
      List.find?_isSome.2 ⟨g, List.mem_reverse.2 hg, by simp⟩
    rw [← AList.lookup_isSome]
    simpa [Blocklists.start, BlocklistEngine.new, lookup_initialGroups] using hfind

theorem Retains.reloadGlobal {b : Blocklists} {log : List (Str × Str)}
    (h : Retains build config b log) (reads : SetReads) (hkeys : DistinctKeys (globalSet config)) :
    Retains build config (b.reloadGlobal T reads).1 (log ++ readsOf (globalSet config) reads) ∧
      (b.reloadGlobal T reads).1.engine.groups = b.engine.groups ∧
      (b.reloadGlobal T reads).1.engine.state =
        if current (log ++ readsOf (globalSet config) reads) (globalSet config) = []
        then b.engine.state
        else builtFrom T build config config.allowlist
          (current (log ++ readsOf (globalSet config) reads) (globalSet config)) := by
  obtain ⟨hholds, hsources⟩ := gather_current h.holds (globalSet config) reads hkeys
  unfold Blocklists.reloadGlobal
  simp only [h.loader, hsources, List.isEmpty_iff]
  split
  · exact ⟨⟨hholds, rfl, h.engine, h.rules, h.groups⟩, rfl, rfl⟩
  · refine ⟨⟨hholds, rfl, h.engine, h.rules, h.groups⟩, rfl, ?_⟩
    simp only [BlocklistEngine.loadManyWithTrust, builtFrom, h.rules, h.engine]

theorem Retains.reloadGroup {b : Blocklists} {log : List (Str × Str)}
    (h : Retains build config b log) {group : BlocklistGroup} (hmem : group ∈ config.groups)
    (reads : SetReads) (hkeys : DistinctKeys (groupSet group)) :
    Retains build config (b.reloadGroup T group reads) (log ++ readsOf (groupSet group) reads) ∧
      (b.reloadGroup T group reads).engine.state = b.engine.state ∧
      (∀ name, name ≠ group.name →
        (b.reloadGroup T group reads).engine.groups.lookup name = b.engine.groups.lookup name) ∧
      (b.reloadGroup T group reads).engine.groups.lookup group.name =
        if current (log ++ readsOf (groupSet group) reads) (groupSet group) = []
        then b.engine.groups.lookup group.name
        else some (builtFrom T build config (config.allowlist ++ group.allowlist)
          (current (log ++ readsOf (groupSet group) reads) (groupSet group))) := by
  obtain ⟨hholds, hsources⟩ := gather_current h.holds (groupSet group) reads hkeys
  unfold Blocklists.reloadGroup BlocklistEngine.loadGroup
  simp only [h.loader, hsources, List.isEmpty_iff, h.groups group hmem, if_true]
  split
  · exact ⟨⟨hholds, rfl, h.engine, h.rules, h.groups⟩, rfl, fun _ _ => rfl, rfl⟩
  · refine ⟨⟨hholds, rfl, h.engine, h.rules, fun g hg => ?_⟩, rfl, fun name hname => ?_, ?_⟩
    · exact (AList.mem_insert _).2 (.inr (h.groups g hg))
    · exact AList.lookup_insert_ne hname
    · rw [AList.lookup_insert, h.rules]
      rfl

/-- The group loop of a round. Each group is built from the reads up to its own gather. -/
theorem Retains.reloadGroups {b : Blocklists} {log : List (Str × Str)}
    {gs : List (BlocklistGroup × Nat)} (h : Retains build config b log) (round : Round)
    (hmem : ∀ p ∈ gs, p.1 ∈ config.groups) (hkeys : ∀ g ∈ config.groups, DistinctKeys (groupSet g))
    (hnames : (gs.map (·.1.name)).Nodup) :
    Retains build config (gs.foldl (fun b p => b.reloadGroup T p.1 (round.group p.2)) b)
        (log ++ groupReads round gs) ∧
      (gs.foldl (fun b p => b.reloadGroup T p.1 (round.group p.2)) b).engine.state =
        b.engine.state ∧
      (∀ name, name ∉ gs.map (·.1.name) →
        (gs.foldl (fun b p => b.reloadGroup T p.1 (round.group p.2)) b).engine.groups.lookup name =
          b.engine.groups.lookup name) ∧
      ∀ pre p post, gs = pre ++ p :: post →
        (gs.foldl (fun b p => b.reloadGroup T p.1 (round.group p.2)) b).engine.groups.lookup
            p.1.name =
          if current (log ++ groupReads round (pre ++ [p])) (groupSet p.1) = []
          then b.engine.groups.lookup p.1.name
          else some (builtFrom T build config (config.allowlist ++ p.1.allowlist)
            (current (log ++ groupReads round (pre ++ [p])) (groupSet p.1))) := by
  induction gs generalizing b log with
  | nil => exact ⟨by simpa [groupReads] using h, rfl, fun _ _ => rfl, by simp⟩
  | cons q gs ih =>
    rw [List.map_cons, List.nodup_cons] at hnames
    rw [List.forall_mem_cons] at hmem
    obtain ⟨hq, hqstate, hqother, hqown⟩ :=
      h.reloadGroup (T := T) hmem.1 (round.group q.2) (hkeys q.1 hmem.1)
    obtain ⟨hret, hstate, hother, hown⟩ := ih hq hmem.2 hnames.2
    have hlog : ∀ gs', log ++ groupReads round (q :: gs') =
        log ++ readsOf (groupSet q.1) (round.group q.2) ++ groupReads round gs' := by
      intro gs'
      rw [List.append_assoc]
      rfl
    refine ⟨by rw [hlog]; exact hret, hstate.trans hqstate, fun name hname => ?_,
      fun pre p post hgs => ?_⟩
    · rw [List.map_cons, List.mem_cons, not_or] at hname
      exact (hother name hname.2).trans (hqother name hname.1)
    · cases pre with
      | nil =>
        obtain ⟨rfl, rfl⟩ := List.cons.inj hgs
        rw [List.nil_append, hlog, show groupReads round [] = [] from rfl, List.append_nil]
        exact (hother q.1.name hnames.1).trans hqown
      | cons q' pre =>
        obtain ⟨rfl, htail⟩ := List.cons.inj hgs
        have hne : p.1.name ≠ q.1.name := by
          intro heq
          apply hnames.1
          rw [← heq, htail]
          simp
        rw [List.cons_append, hlog, ← hqother p.1.name hne]
        exact hown pre p post htail

end

/-! ## Whole runs -/

/-- Different keys in each set, and different group names. -/
structure DistinctSources (config : BlocklistConfig) : Prop where
  global : DistinctKeys (globalSet config)
  groups : ∀ g ∈ config.groups, DistinctKeys (groupSet g)
  names : (config.groups.map (·.name)).Nodup

section
variable {T : UnicodeTables} {build : RegexBuild} {config : BlocklistConfig}

/-- The group names of a validated config are different. -/
theorem DistinctSources.of_validated {cfg : DnsConfig} (h : validateBlocklist build cfg = .ok ())
    (hglobal : DistinctKeys (globalSet cfg.blocklist))
    (hgroups : ∀ g ∈ cfg.blocklist.groups, DistinctKeys (groupSet g)) :
    DistinctSources cfg.blocklist :=
  ⟨hglobal, hgroups, validateBlocklist_names h⟩

theorem DistinctSources.names_zipIdx (hc : DistinctSources config) :
    (config.groups.zipIdx.map (·.1.name)).Nodup := by
  rw [Fold.map_zipIdx_fst]
  exact hc.names

theorem mem_groups_of_mem_zipIdx {p : BlocklistGroup × Nat} (h : p ∈ config.groups.zipIdx) :
    p.1 ∈ config.groups := (List.mem_zipIdx' h).2 ▸ List.getElem_mem _

theorem reload_fst (b : Blocklists) (round : Round) :
    (b.reload T round).1 = (b.reloadGlobal T round.global).1.config.groups.zipIdx.foldl
      (fun b p => b.reloadGroup T p.1 (round.group p.2)) (b.reloadGlobal T round.global).1 := rfl

theorem Retains.reload {b : Blocklists} {log : List (Str × Str)} (h : Retains build config b log)
    (hc : DistinctSources config) (round : Round) :
    Retains build config (b.reload T round).1
      (log ++ readsBefore config round config.groups.length) := by
  obtain ⟨hret, -, -⟩ := h.reloadGlobal (T := T) round.global hc.global
  rw [reload_fst, hret.loader, readsBefore, List.take_of_length_le (by simp), ← List.append_assoc]
  exact (hret.reloadGroups round (fun p hp => mem_groups_of_mem_zipIdx hp) hc.groups hc.names_zipIdx).1

theorem retains_reloads (hc : DistinctSources config) (rounds : List Round) :
    Retains build config ((Blocklists.start T build config).reloads T rounds)
      (history config rounds) := by
  induction rounds using List.reverseRecOn with
  | nil => exact retains_start
  | append_singleton rounds round ih =>
    unfold Blocklists.reloads history at ih ⊢
    rw [List.foldl_append, List.flatMap_append]
    have hnext := ih.reload hc round (T := T)
    simpa using hnext

end

/-! ## Completion order -/

/-- The same reads with the fetches completing in order. -/
def SetReads.inOrder (reads : SetReads) : SetReads where
  readLocal := reads.readLocal
  fetchRemote := reads.fetchRemote

def Round.inOrder (round : Round) : Round where
  global := round.global.inOrder
  group i := (round.group i).inOrder

theorem gather_inOrder (lastGood : LastGood) (set : SourceSet) (reads : SetReads) :
    gather lastGood set reads.inOrder = gather lastGood set reads := by
  rw [gather_eq, gather_eq]
  rfl

theorem reload_inOrder (T : UnicodeTables) (b : Blocklists) (round : Round) :
    b.reload T round.inOrder = b.reload T round := by
  have hglobal : b.reloadGlobal T round.inOrder.global = b.reloadGlobal T round.global := by
    unfold Blocklists.reloadGlobal
    rw [show round.inOrder.global = round.global.inOrder from rfl, gather_inOrder]
  have hgroup : ∀ (b : Blocklists) g i,
      b.reloadGroup T g (round.inOrder.group i) = b.reloadGroup T g (round.group i) := by
    intro b g i
    unfold Blocklists.reloadGroup
    rw [show round.inOrder.group i = (round.group i).inOrder from rfl, gather_inOrder]
  unfold Blocklists.reload
  rw [hglobal]
  simp only [hgroup]

theorem reloads_inOrder (T : UnicodeTables) (b : Blocklists) (rounds : List Round) :
    b.reloads T (rounds.map Round.inOrder) = b.reloads T rounds := by
  unfold Blocklists.reloads
  rw [List.foldl_map]
  simp only [reload_inOrder]

/-- After every round the global state is built from the newest content read so far of each source
of the global set, in configured order and with its trust, and the same holds of every group with
the reads up to its own gather; a set none of whose sources was ever read is left as it was. The
order in which fetches complete makes no difference. -/
theorem reload_uses_newest_content (T : UnicodeTables) (build : RegexBuild)
    (config : BlocklistConfig) (hc : DistinctSources config) (rounds : List Round) (round : Round) :
    let before := (Blocklists.start T build config).reloads T rounds
    let after := (Blocklists.start T build config).reloads T (rounds ++ [round])
    let globalLog := history config rounds ++ readsOf (globalSet config) round.global
    (after.engine.state = if current globalLog (globalSet config) = [] then before.engine.state
      else builtFrom T build config config.allowlist (current globalLog (globalSet config))) ∧
    (∀ i g, config.groups[i]? = some g →
      let groupLog := history config rounds ++ readsBefore config round (i + 1)
      after.engine.groups.lookup g.name =
        if current groupLog (groupSet g) = [] then before.engine.groups.lookup g.name
        else some (builtFrom T build config (config.allowlist ++ g.allowlist)
          (current groupLog (groupSet g)))) ∧
    (Blocklists.start T build config).reloads T ((rounds ++ [round]).map Round.inOrder) = after := by
  intro before after globalLog
  have hret : Retains build config before (history config rounds) := retains_reloads hc rounds
  have hafter : after = (before.reload T round).1 := by
    simp only [after, before, Blocklists.reloads, List.foldl_append, List.foldl_cons,
      List.foldl_nil]
  obtain ⟨hglobal, hgroups, hstate⟩ := hret.reloadGlobal (T := T) round.global hc.global
  obtain ⟨-, hsame, -, hown⟩ := hglobal.reloadGroups (T := T) round
    (fun p hp => mem_groups_of_mem_zipIdx hp) hc.groups hc.names_zipIdx
  have hfold : after = config.groups.zipIdx.foldl
      (fun b p => b.reloadGroup T p.1 (round.group p.2)) (before.reloadGlobal T round.global).1 := by
    rw [hafter, reload_fst, hglobal.loader]
  refine ⟨?_, fun i g hg => ?_, reloads_inOrder T _ _⟩
  · rw [hfold, hsame, hstate]
  · have hi : config.groups.zipIdx[i]? = some (g, i) := by
      rw [List.getElem?_zipIdx, hg]
      simp
    obtain ⟨hlt, hget⟩ := List.getElem?_eq_some_iff.1 hi
    have hsplit : config.groups.zipIdx = config.groups.zipIdx.take i ++
        (g, i) :: config.groups.zipIdx.drop (i + 1) := by
      rw [← hget, List.getElem_cons_drop, List.take_append_drop]
    have htake : config.groups.zipIdx.take i ++ [(g, i)] = config.groups.zipIdx.take (i + 1) := by
      rw [← hget, List.take_append_getElem]
    have hlookup := hown _ _ _ hsplit
    rw [htake, List.append_assoc, ← readsBefore, hgroups] at hlookup
    rw [hfold]
    exact hlookup

/-- One remote source, listed globally and for a group. -/
def outageConfig : DnsConfig where
  blocklist :=
    { sources := ["u".toList]
      groups := [{ name := "kids".toList, sources := ["u".toList] }] }

/-- Every source answers `a.io`. -/
def answeredRound : Round where
  global := { readLocal := fun _ => none, fetchRemote := fun _ => some "a.io".toList }
  group _ := { readLocal := fun _ => none, fetchRemote := fun _ => some "a.io".toList }

/-- A source that answered once and then fails keeps its content. -/
theorem reload_uses_newest_content_outage :
    DistinctSources outageConfig.blocklist ∧
      ((Blocklists.start .asciiOnly literalRegex outageConfig.blocklist).reloads .asciiOnly
        [answeredRound, failedRound]).engine.state =
      builtFrom .asciiOnly literalRegex outageConfig.blocklist [] [("a.io".toList, .untrusted)] := by
  have hvalid : validateBlocklist literalRegex outageConfig = .ok () := by rfl
  have hkeys : ∀ g ∈ outageConfig.blocklist.groups, DistinctKeys (groupSet g) := by
    intro g hg
    obtain rfl := List.mem_singleton.1 hg
    unfold DistinctKeys
    decide
  have hc : DistinctSources outageConfig.blocklist :=
    .of_validated hvalid (by unfold DistinctKeys; decide) hkeys
  have hglobal := (reload_uses_newest_content .asciiOnly literalRegex outageConfig.blocklist hc
    [answeredRound] failedRound).1
  have hcurrent : current (history outageConfig.blocklist [answeredRound] ++
      readsOf (globalSet outageConfig.blocklist) failedRound.global)
      (globalSet outageConfig.blocklist) = [("a.io".toList, .untrusted)] := by decide +kernel
  rw [hcurrent] at hglobal
  exact ⟨hc, hglobal⟩

end RustyDns.L4
