import RustyDns.Lib.Lts
import RustyDns.L4Daemon.Loader

/-!
# Steps of a blocklist reload

The periodic loop (`main.rs:705-741`) and SIGHUP (`main.rs:1240-1286`) both call
`BlocklistLoader::reload` on one loader and one engine, and the lock of `last_good` is held for single
lookups and inserts only. So a call is modelled in steps here: an action is what a call does between
two points where others can run, that is one read, the end of one fetch, sorting the results, the
update of `last_good` for one source, storing one state in the engine.

`St` holds what the calls share and the variables of each call. Every content carries the time it was
read at.

Results:
* `step_cases`: each action with its guard and its effect.
* `reload_run`: a call that is not interrupted is `Blocklists.reload`.
-/

namespace RustyDns.L5.Loader

open RustyDns.Lib RustyDns.L1 RustyDns.L2.Blocklist RustyDns.L4

/-- What a source gave, with the time it was read at. -/
structure Content where
  text : Str
  fetchedAt : Nat
  deriving DecidableEq, Repr

/-- `last_good`. -/
abbrev Retained := AList (fun _ : Str => Content)

/-- The outcome of reading a source; `none` is a failure. -/
structure Outcome where
  source : Source
  res : Option Content
  deriving DecidableEq, Repr

/-- The result of a fetch task, with its position in the source list. -/
structure Fetch where
  idx : Nat
  outcome : Outcome
  deriving DecidableEq, Repr

/-- One round of `reload`: gather a set, then install it. -/
inductive Job where
  | global
  | group (g : BlocklistGroup)

/-- A content that a call put into the engine. -/
structure Install where
  key : Str
  fetchedAt : Nat
  /-- When the call put it there. -/
  storedAt : Nat
  deriving DecidableEq, Repr

/-- The variables of a call of `reload`. -/
structure Call where
  /-- The set being gathered, and those after it. -/
  jobs : List Job
  /-- The local files of the set that are not read yet. -/
  locals : List Str
  /-- The fetch tasks that have completed. -/
  fetched : List Fetch := []
  /-- All fetch tasks have completed and are sorted. -/
  collected : Bool := false
  /-- The outcomes still to be remembered or replaced, in order. -/
  pending : List Outcome := []
  /-- `sources`, each with its key. -/
  held : List (Source × Content) := []
  /-- Ghost: what the call installed so far. -/
  installed : List Install := []
  /-- Ghost: when the call returned. -/
  finishedAt : Option Nat := none

structure St where
  now : Nat
  lastGood : Retained
  engine : BlocklistEngine
  calls : List Call
  /-- Ghost: keys and read times of what the global state was built from. -/
  globalFrom : List (Str × Nat)
  /-- Ghost: when the global state was stored. -/
  globalAt : Nat

inductive Act where
  /-- One more call begins; calls are numbered in that order. -/
  | start
  /-- Call `p` reads the next local file. -/
  | readLocal (p : Nat) (res : Option Str)
  /-- Fetch task `idx` of call `p` completes. -/
  | fetch (p idx : Nat) (res : Option Str)
  /-- Call `p` has all results and sorts them. -/
  | collect (p : Nat)
  /-- Call `p` remembers the next outcome, or falls back. -/
  | take (p : Nat)
  /-- Call `p` loads the engine with what it gathered. -/
  | install (p : Nat)

def St.stamp (s : St) (res : Option Str) : Option Content := res.map (⟨·, s.now⟩)

/-- Every step takes time. -/
def St.setCall (s : St) (p : Nat) (c : Call) : St :=
  { s with now := s.now + 1, calls := s.calls.set p c }

/-- mirrors crates/rustydnsd/src/blocklist_loader.rs:169-188 and 226-254, one source -/
def takeOutcome (lastGood : Retained) (held : List (Source × Content)) (o : Outcome) :
    Retained × List (Source × Content) :=
  match o.res with
  | some content => (lastGood.insert o.source.key content, held ++ [(o.source, content)])
  | none =>
    match lastGood.lookup o.source.key with
    | some last => (lastGood, held ++ [(o.source, last)])
    | none => (lastGood, held)

/-- What `held` is as the argument of the engine. -/
def texts (held : List (Source × Content)) : List (Str × BlocklistSource) :=
  held.map fun (source, content) => (content.text, source.trust)

def stamps (held : List (Source × Content)) : List (Str × Nat) :=
  held.map fun (source, content) => (source.key, content.fetchedAt)

def installs (held : List (Source × Content)) (now : Nat) : List Install :=
  held.map fun (source, content) => ⟨source.key, content.fetchedAt, now⟩

section
variable (T : UnicodeTables) (config : BlocklistConfig)

def jobs : List Job := .global :: config.groups.map .group

def Job.set : Job → SourceSet
  | .global => globalSet config
  | .group g => groupSet g

def Job.remote (job : Job) : List Source :=
  (job.set config).remote.map fun url => ⟨url, trustOf (job.set config).trustedRpz url⟩

/-- A call about to gather the first of `jobs`. -/
def Call.gathering (jobs : List Job) (installed : List Install) : Call where
  jobs := jobs
  locals := match jobs with
    | [] => []
    | job :: _ => (job.set config).localFiles
  installed := installed

/-- Nothing left to read or to take before the fetches. -/
def Call.fetching (c : Call) : Prop := c.locals = [] ∧ c.pending = [] ∧ c.collected = false

instance (c : Call) : Decidable c.fetching := inferInstanceAs (Decidable (_ ∧ _ ∧ _))

/-- The end of a round: an empty set keeps the state that is there. -/
def St.store (s : St) (job : Job) (held : List (Source × Content)) : St :=
  if held.isEmpty then s
  else match job with
    | .global =>
      { s with
        engine := s.engine.loadManyWithTrust T (texts held)
        globalFrom := stamps held
        globalAt := s.now }
    | .group g =>
      { s with
        engine := s.engine.loadGroup T g.name (texts held) (config.allowlist ++ g.allowlist) }

/-- The call after a round, with `rest` to do. -/
def Call.next (c : Call) (rest : List Job) (now : Nat) : Call :=
  let c' := Call.gathering config rest (c.installed ++ installs c.held now)
  if rest.isEmpty then { c' with finishedAt := some now } else c'

/-- mirrors crates/rustydnsd/src/blocklist_loader.rs:87-257 -/
def step (s : St) : Act → Option St
  | .start =>
    some { s with now := s.now + 1, calls := s.calls ++ [.gathering config (jobs config) []] }
  | .readLocal p res => do
    let c ← s.calls[p]?
    match c.pending, c.locals with
    | [], path :: rest =>
      some (s.setCall p
        { c with locals := rest, pending := [⟨⟨path, .trusted⟩, s.stamp res⟩] })
    | _, _ => none
  | .fetch p idx res => do
    let c ← s.calls[p]?
    let job ← c.jobs.head?
    let source ← (job.remote config)[idx]?
    -- tasks start in order, at most four at a time
    if c.fetching ∧ idx ∉ c.fetched.map Fetch.idx ∧ idx < c.fetched.length + maxConcurrentFetches then
      some (s.setCall p { c with fetched := c.fetched ++ [⟨idx, ⟨source, s.stamp res⟩⟩] })
    else none
  | .collect p => do
    let c ← s.calls[p]?
    let job ← c.jobs.head?
    if c.fetching ∧ c.fetched.length = (job.remote config).length then
      some (s.setCall p
        { c with
          fetched := []
          collected := true
          pending := (c.fetched.insertionSort (·.idx ≤ ·.idx)).map Fetch.outcome })
    else none
  | .take p => do
    let c ← s.calls[p]?
    match c.pending with
    | [] => none
    | o :: rest =>
      let r := takeOutcome s.lastGood c.held o
      some (St.setCall { s with lastGood := r.1 } p { c with pending := rest, held := r.2 })
  | .install p => do
    let c ← s.calls[p]?
    match c.jobs, c.pending, c.collected with
    | job :: rest, [], true => some ((s.store T config job c.held).setCall p (c.next config rest s.now))
    | _, _, _ => none

/-- A new loader and a new engine, and no call yet. -/
def initial (build : RegexBuild) : St where
  now := 0
  lastGood := ∅
  engine := BlocklistEngine.new T build config
  calls := []
  globalFrom := []
  globalAt := 0

def system (build : RegexBuild) : LTS St Act :=
  LTS.ofFn (· = initial T config build) (step T config)

end

variable {T : UnicodeTables} {config : BlocklistConfig} {build : RegexBuild} {s t u : St}

/-! ## What a step can do -/

/-- Each action with its guard and its effect. -/
inductive Steps (T : UnicodeTables) (config : BlocklistConfig) (s : St) : Act → St → Prop where
  | start : Steps T config s .start
      { s with now := s.now + 1, calls := s.calls ++ [.gathering config (jobs config) []] }
  | readLocal {p : Nat} {c : Call} {path : Str} {rest : List Str} {res : Option Str}
      (hc : s.calls[p]? = some c) (hpending : c.pending = []) (hlocals : c.locals = path :: rest) :
      Steps T config s (.readLocal p res) (s.setCall p
        { c with locals := rest, pending := [⟨⟨path, .trusted⟩, s.stamp res⟩] })
  | fetch {p idx : Nat} {c : Call} {job : Job} {rest : List Job} {source : Source} {res : Option Str}
      (hc : s.calls[p]? = some c) (hjob : c.jobs = job :: rest)
      (hsource : (job.remote config)[idx]? = some source) (hfetching : c.fetching)
      (hnew : idx ∉ c.fetched.map Fetch.idx) :
      Steps T config s (.fetch p idx res) (s.setCall p
        { c with fetched := c.fetched ++ [⟨idx, ⟨source, s.stamp res⟩⟩] })
  | collect {p : Nat} {c : Call} {job : Job} {rest : List Job} (hc : s.calls[p]? = some c)
      (hjob : c.jobs = job :: rest) (hfetching : c.fetching) :
      Steps T config s (.collect p) (s.setCall p
        { c with
          fetched := []
          collected := true
          pending := (c.fetched.insertionSort (·.idx ≤ ·.idx)).map Fetch.outcome })
  | take {p : Nat} {c : Call} {o : Outcome} {rest : List Outcome} (hc : s.calls[p]? = some c)
      (hpending : c.pending = o :: rest) :
      Steps T config s (.take p) (St.setCall
        { s with lastGood := (takeOutcome s.lastGood c.held o).1 } p
        { c with pending := rest, held := (takeOutcome s.lastGood c.held o).2 })
  | install {p : Nat} {c : Call} {job : Job} {rest : List Job} (hc : s.calls[p]? = some c)
      (hjob : c.jobs = job :: rest) (hpending : c.pending = []) (hcollected : c.collected = true) :
      Steps T config s (.install p)
        ((s.store T config job c.held).setCall p (c.next config rest s.now))

theorem step_cases {a : Act} (h : step T config s a = some t) : Steps T config s a t := by
  cases a with
  | start =>
    cases h
    exact .start
  | readLocal p res =>
    obtain ⟨c, hc, h⟩ := Option.bind_eq_some_iff.1 h
    split at h
    · rename_i path rest hpending hlocals
      cases h
      exact .readLocal hc hpending hlocals
    · cases h
  | fetch p idx res =>
    obtain ⟨c, hc, h⟩ := Option.bind_eq_some_iff.1 h
    obtain ⟨job, hjob, h⟩ := Option.bind_eq_some_iff.1 h
    obtain ⟨source, hsource, h⟩ := Option.bind_eq_some_iff.1 h
    obtain ⟨rest, hrest⟩ := List.head?_eq_some_iff.1 hjob
    split at h
    · rename_i hguard
      cases h
      exact .fetch hc hrest hsource hguard.1 hguard.2.1
    · cases h
  | collect p =>
    obtain ⟨c, hc, h⟩ := Option.bind_eq_some_iff.1 h
    obtain ⟨job, hjob, h⟩ := Option.bind_eq_some_iff.1 h
    obtain ⟨rest, hrest⟩ := List.head?_eq_some_iff.1 hjob
    split at h
    · rename_i hguard
      cases h
      exact .collect hc hrest hguard.1
    · cases h
  | take p =>
    obtain ⟨c, hc, h⟩ := Option.bind_eq_some_iff.1 h
    split at h
    · cases h
    · rename_i o rest hpending
      cases h
      exact .take hc hpending
  | install p =>
    obtain ⟨c, hc, h⟩ := Option.bind_eq_some_iff.1 h
    split at h
    · rename_i job rest hjob hpending hcollected
      cases h
      exact .install hc hjob hpending hcollected
    · cases h

/-! ## A call on its own -/

@[simp] theorem lastGood_store (job : Job) (held : List (Source × Content)) :
    (s.store T config job held).lastGood = s.lastGood := by
  unfold St.store
  cases job <;> split <;> rfl

@[simp] theorem now_store (job : Job) (held : List (Source × Content)) :
    (s.store T config job held).now = s.now := by
  unfold St.store
  cases job <;> split <;> rfl

@[simp] theorem calls_store (job : Job) (held : List (Source × Content)) :
    (s.store T config job held).calls = s.calls := by
  unfold St.store
  cases job <;> split <;> rfl

/-- `g` is what is remembered and held, without the times. -/
structure Erases (lastGood : Retained) (held : List (Source × Content)) (g : Gathered) : Prop where
  lastGood : ∀ key, g.lastGood.lookup key = (lastGood.lookup key).map Content.text
  sources : g.sources = texts held

theorem Erases.take {lastGood : Retained} {held : List (Source × Content)} {g : Gathered}
    (h : Erases lastGood held g) (o : Outcome) :
    Erases (takeOutcome lastGood held o).1 (takeOutcome lastGood held o).2
      (g.take o.source (o.res.map Content.text)) := by
  unfold takeOutcome Gathered.take
  cases o.res with
  | some content =>
    refine ⟨fun key => ?_, by simp [h.sources, texts]⟩
    by_cases hkey : key = o.source.key
    · subst hkey
      simp
    · simp [AList.lookup_insert_ne hkey, h.lastGood]
  | none =>
    simp only [Option.map_none, h.lastGood]
    cases lastGood.lookup o.source.key with
    | none => exact ⟨h.lastGood, h.sources⟩
    | some last => exact ⟨h.lastGood, by simp [h.sources, texts]⟩

/-- Call `p` is at `c`, up to what it holds, which is `g`. -/
def At (p : Nat) (c : Call) (g : Gathered) (engine : BlocklistEngine) (s : St) : Prop :=
  ∃ held, s.calls[p]? = some { c with held } ∧ s.engine = engine ∧ Erases s.lastGood held g

/-- There is a run from `s` to a state with `P`. -/
def CanReach (T : UnicodeTables) (config : BlocklistConfig) (s : St) (P : St → Prop) : Prop :=
  ∃ as t, LTS.exec (step T config) s as = some t ∧ P t

section
variable {p : Nat} {c : Call} {g : Gathered} {engine : BlocklistEngine} {P Q : St → Prop}

theorem CanReach.here (h : P s) : CanReach T config s P := ⟨[], s, rfl, h⟩

theorem CanReach.step {a : Act} (h : step T config s a = some t) (ht : CanReach T config t P) :
    CanReach T config s P := by
  obtain ⟨as, u, hu, hP⟩ := ht
  exact ⟨a :: as, u, by simp [LTS.exec, h, hu], hP⟩

theorem CanReach.trans (h : CanReach T config s P)
    (hPQ : ∀ t, P t → CanReach T config t Q) : CanReach T config s Q := by
  obtain ⟨as, t, hexec, hP⟩ := h
  induction as generalizing s with
  | nil =>
    cases hexec
    exact hPQ _ hP
  | cons a as ih =>
    obtain ⟨u, hu, hexec⟩ := Option.bind_eq_some_iff.1 hexec
    exact .step hu (ih hexec)

theorem getElem?_setCall (h : s.calls[p]? = some c) (c' : Call) :
    (s.setCall p c').calls[p]? = some c' := by
  obtain ⟨hlt, -⟩ := List.getElem?_eq_some_iff.1 h
  exact List.getElem?_set_self hlt

theorem step_take {o : Outcome} {rest : List Outcome} (hc : s.calls[p]? = some c)
    (hpending : c.pending = o :: rest) : step T config s (.take p) =
      some (St.setCall { s with lastGood := (takeOutcome s.lastGood c.held o).1 } p
        { c with pending := rest, held := (takeOutcome s.lastGood c.held o).2 }) := by
  simp [step, hc, hpending]

theorem At.take {o : Outcome} {rest : List Outcome}
    (h : At p { c with pending := o :: rest } g engine s) :
    ∃ t, step T config s (.take p) = some t ∧
      At p { c with pending := rest } (g.take o.source (o.res.map Content.text)) engine t := by
  obtain ⟨held, hc, hengine, her⟩ := h
  refine ⟨_, step_take hc rfl, (takeOutcome s.lastGood held o).2, ?_, hengine, her.take o⟩
  exact List.getElem?_set_self (List.getElem?_eq_some_iff.1 hc).1

/-- The outcomes of a set are taken in order. -/
theorem At.takes {os : List Outcome} (h : At p { c with pending := os } g engine s) :
    CanReach T config s (At p { c with pending := [] }
      (os.foldl (fun g o => g.take o.source (o.res.map Content.text)) g) engine) := by
  induction os generalizing s g with
  | nil => exact .here h
  | cons o os ih =>
    obtain ⟨t, hst, ht⟩ := h.take
    exact .step hst (ih ht)

theorem text_stamp (s : St) (res : Option Str) : (s.stamp res).map Content.text = res := by
  cases res <;> rfl

/-- Local files are read and taken one by one. -/
theorem At.readLocals {as : List (Str × Option Str)}
    (h : At p { c with locals := as.map Prod.fst, pending := [] } g engine s) :
    CanReach T config s (At p { c with locals := [], pending := [] }
      (as.foldl (fun g a => g.take ⟨a.1, .trusted⟩ a.2) g) engine) := by
  induction as generalizing s g with
  | nil => exact .here h
  | cons a as ih =>
    obtain ⟨held, hc, hengine, her⟩ := h
    have hread : At p { c with locals := as.map Prod.fst, pending := [⟨⟨a.1, .trusted⟩, s.stamp a.2⟩] }
        g engine (s.setCall p { c with
          locals := as.map Prod.fst, pending := [⟨⟨a.1, .trusted⟩, s.stamp a.2⟩], held }) :=
      ⟨held, getElem?_setCall hc _, hengine, her⟩
    obtain ⟨t, hst, ht⟩ := At.take (c := { c with locals := as.map Prod.fst }) hread
    simp only [text_stamp] at ht
    refine .step (a := .readLocal p a.2) ?_ (.step hst (ih ht))
    simp [step, hc]

/-- A completed fetch without its time. -/
def Fetch.erase (f : Fetch) : (Source × Option Str) × Nat :=
  ((f.outcome.source, f.outcome.res.map Content.text), f.idx)

theorem idx_of_erase {fs : List Fetch} {done : List (Source × Option Str)}
    (h : fs.map Fetch.erase = done.zipIdx) : fs.map Fetch.idx = List.range done.length := by
  have hidx := congrArg (List.map Prod.snd) h
  rwa [List.map_map, List.zipIdx_map_snd, ← List.range_eq_range'] at hidx

/-- `c` while the fetches for `job` are under way. -/
def Call.during (c : Call) (job : Job) (rest : List Job) (fetched : List Fetch) : Call :=
  { c with jobs := job :: rest, locals := [], pending := [], collected := false, fetched }

theorem At.fetch {job : Job} {rest : List Job} {fs : List Fetch} {source : Source} {idx : Nat}
    (h : At p (c.during job rest fs) g engine s) (res : Option Str)
    (hsource : (job.remote config)[idx]? = some source) (hnew : idx ∉ fs.map Fetch.idx)
    (hidx : idx < fs.length + maxConcurrentFetches) :
    ∃ t, step T config s (.fetch p idx res) = some t ∧
      At p (c.during job rest (fs ++ [⟨idx, ⟨source, s.stamp res⟩⟩])) g engine t := by
  obtain ⟨held, hc, hengine, her⟩ := h
  refine ⟨s.setCall p { c.during job rest (fs ++ [⟨idx, ⟨source, s.stamp res⟩⟩]) with held }, ?_,
    held, getElem?_setCall hc _, hengine, her⟩
  simp only [step, hc, Call.during, List.head?_cons, hsource, Option.bind_eq_bind, Option.bind_some]
  exact if_pos ⟨⟨rfl, rfl, rfl⟩, hnew, hidx⟩

/-- The fetch tasks complete in order. -/
theorem At.fetches {job : Job} {rest : List Job} {todo : List (Source × Option Str)}
    (done : List (Source × Option Str)) (fs : List Fetch) (hremote : job.remote config = (done ++ todo).map Prod.fst)
    (hfs : fs.map Fetch.erase = done.zipIdx) (h : At p (c.during job rest fs) g engine s) :
    CanReach T config s fun t => ∃ fs', fs'.map Fetch.erase = (done ++ todo).zipIdx ∧
      At p (c.during job rest fs') g engine t := by
  induction todo generalizing s done fs with
  | nil =>
    rw [List.append_nil]
    exact .here ⟨fs, hfs, h⟩
  | cons a todo ih =>
    have hidx := idx_of_erase hfs
    have hlen : fs.length = done.length := by
      have hlen := congrArg List.length hidx
      simpa using hlen
    have hsource : (job.remote config)[done.length]? = some a.1 := by
      rw [hremote]
      simp
    have hnew : done.length ∉ fs.map Fetch.idx := by
      rw [hidx]
      simp
    have hroom : done.length < fs.length + maxConcurrentFetches := by
      rw [hlen]
      exact Nat.lt_add_of_pos_right (by decide)
    obtain ⟨t, hst, ht⟩ := h.fetch (T := T) a.2 hsource hnew hroom
    have herase : (fs ++ [(⟨done.length, ⟨a.1, s.stamp a.2⟩⟩ : Fetch)]).map Fetch.erase =
        (done ++ [a]).zipIdx := by
      simp [hfs, Fetch.erase, text_stamp, List.zipIdx_append]
    rw [List.append_cons] at hremote ⊢
    exact .step hst (ih _ _ hremote herase ht)

/-- When all fetches have completed, the results are taken in the order of the source list. -/
theorem At.collect {job : Job} {rest : List Job} {as : List (Source × Option Str)} {fs : List Fetch}
    (hremote : job.remote config = as.map Prod.fst) (hfs : fs.map Fetch.erase = as.zipIdx)
    (h : At p (c.during job rest fs) g engine s) :
    CanReach T config s (At p { c.during job rest [] with collected := true }
      (as.foldl (fun g a => g.take a.1 a.2) g) engine) := by
  obtain ⟨held, hc, hengine, her⟩ := h
  have hidx := idx_of_erase hfs
  have hsorted : fs.insertionSort (·.idx ≤ ·.idx) = fs := by
    have hle : (fs.map Fetch.idx).Pairwise (· ≤ ·) := by
      rw [hidx]
      exact List.pairwise_le_range
    exact (List.pairwise_map.1 hle).insertionSort_eq
  have hlen : fs.length = (job.remote config).length := by
    have hlen := congrArg List.length hidx
    rw [hremote]
    simpa using hlen
  have hst : step T config s (.collect p) = some (s.setCall p
      { c.during job rest [] with collected := true, pending := fs.map Fetch.outcome, held }) := by
    simp only [step, hc, Call.during, List.head?_cons, Option.bind_eq_bind, Option.bind_some, hsorted]
    exact if_pos ⟨⟨rfl, rfl, rfl⟩, hlen⟩
  have hfold : (fs.map Fetch.outcome).foldl (fun g o => g.take o.source (o.res.map Content.text)) g =
      as.foldl (fun g a => g.take a.1 a.2) g := by
    have hfst := congrArg (List.map Prod.fst) hfs
    rw [List.zipIdx_map_fst, List.map_map] at hfst
    rw [← hfst, List.foldl_map, List.foldl_map]
    rfl
  rw [← hfold]
  exact .step hst (At.takes (c := { c.during job rest [] with collected := true })
    ⟨held, getElem?_setCall hc _, hengine, her⟩)

/-- `b` is the shared part of `s`, without the times. -/
structure Views (config : BlocklistConfig) (s : St) (b : Blocklists) : Prop where
  config : b.config = config
  engine : b.engine = s.engine
  lastGood : ∀ key, b.lastGood.lookup key = (s.lastGood.lookup key).map Content.text

variable {b : Blocklists} {job : Job} {rest : List Job}

theorem gather_run {installed : List Install} (hv : Views config s b)
    (hc : s.calls[p]? = some (.gathering config (job :: rest) installed)) (reads : SetReads) :
    CanReach T config s (At p
      { (Call.gathering config (job :: rest) installed).during job rest [] with collected := true }
      (gather b.lastGood (job.set config) reads) b.engine) := by
  let locals : List (Str × Option Str) :=
    (job.set config).localFiles.zipIdx.map fun x => (x.1, reads.readLocal x.2)
  let remote : List (Source × Option Str) :=
    (fetches (job.set config) reads).map fun r => (r.source, r.res)
  have hlocals : locals.map Prod.fst = (job.set config).localFiles := by
    rw [List.map_map]
    exact List.zipIdx_map_fst 0 _
  have hremote : job.remote config = remote.map Prod.fst := by
    simp only [remote, fetches, List.map_map]
    exact (Fold.map_zipIdx_fst (fun url => (⟨url, trustOf _ url⟩ : Source)) _).symm
  have hgather : gather b.lastGood (job.set config) reads =
      remote.foldl (fun g a => g.take a.1 a.2)
        (locals.foldl (fun g a => g.take ⟨a.1, .trusted⟩ a.2) { lastGood := b.lastGood }) := by
    rw [gather_eq]
    simp only [attempts, locals, remote, List.foldl_append, List.foldl_map]
  have hstart : At p { Call.gathering config (job :: rest) installed with
      locals := locals.map Prod.fst, pending := [] } { lastGood := b.lastGood } b.engine s := by
    refine ⟨[], ?_, hv.engine.symm, hv.lastGood, rfl⟩
    rw [hlocals]
    exact hc
  rw [hgather]
  refine hstart.readLocals.trans fun t ht => ?_
  refine (At.fetches (c := Call.gathering config (job :: rest) installed) [] []
    hremote rfl ht).trans fun u hfetched => ?_
  obtain ⟨fs, hfs, hu⟩ := hfetched
  exact hu.collect hremote hfs

/-- One round of `Blocklists.reload`. -/
def reloadJob (T : UnicodeTables) (b : Blocklists) (job : Job) (reads : SetReads) : Blocklists :=
  match job with
  | .global => (b.reloadGlobal T reads).1
  | .group g => b.reloadGroup T g reads

theorem views_store {held : List (Source × Content)} {reads : SetReads} (hconfig : b.config = config)
    (hengine : s.engine = b.engine)
    (her : Erases s.lastGood held (gather b.lastGood (job.set config) reads)) :
    Views config (s.store T config job held) (reloadJob T b job reads) := by
  subst hconfig
  have hempty : (texts held).isEmpty = held.isEmpty := List.isEmpty_map
  cases job with
  | global =>
    simp only [Job.set] at her
    refine ⟨rfl, ?_, fun key => by rw [lastGood_store]; exact her.lastGood key⟩
    simp only [reloadJob, Blocklists.reloadGlobal, St.store, her.sources, hempty, ← hengine]
    cases held.isEmpty <;> rfl
  | group g =>
    simp only [Job.set] at her
    refine ⟨rfl, ?_, fun key => by rw [lastGood_store]; exact her.lastGood key⟩
    simp only [reloadJob, Blocklists.reloadGroup, St.store, her.sources, hempty, ← hengine]
    cases held.isEmpty <;> rfl

/-- One round of a call that is not interrupted. -/
theorem round_run {installed : List Install} (hv : Views config s b)
    (hc : s.calls[p]? = some (.gathering config (job :: rest) installed)) (reads : SetReads) :
    CanReach T config s fun t => Views config t (reloadJob T b job reads) ∧
      ∃ (d : Call) (now : Nat), t.calls[p]? = some (d.next config rest now) := by
  refine (gather_run hv hc reads).trans fun t hat => ?_
  obtain ⟨held, hcall, hengine, her⟩ := hat
  have hst : step T config t (.install p) = some ((t.store T config job held).setCall p
      (Call.next config { (Call.gathering config (job :: rest) installed).during job rest [] with
        collected := true, held } rest t.now)) := by
    simp only [step, hcall, Call.during, Option.bind_eq_bind, Option.bind_some]
  have hstored : (t.store T config job held).calls[p]? = some { (Call.gathering config (job :: rest)
      installed).during job rest [] with collected := true, held } := by
    rw [calls_store]
    exact hcall
  refine .step hst (.here ⟨?_, _, t.now, getElem?_setCall hstored _⟩)
  obtain ⟨hconfig, hengine, hlast⟩ := views_store (T := T) hv.config hengine her
  exact ⟨hconfig, hengine, hlast⟩

/-- All rounds of a call that is not interrupted. -/
theorem rounds_run {installed : List Install} {rounds : List (Job × SetReads)}
    (hne : rounds ≠ []) (hv : Views config s b)
    (hc : s.calls[p]? = some (.gathering config (rounds.map Prod.fst) installed)) :
    CanReach T config s fun t =>
      Views config t (rounds.foldl (fun b r => reloadJob T b r.1 r.2) b) ∧
        ∃ d, t.calls[p]? = some d ∧ d.finishedAt.isSome := by
  induction rounds generalizing s b installed with
  | nil => exact absurd rfl hne
  | cons r rounds ih =>
    refine (round_run hv hc r.2).trans fun t hround => ?_
    obtain ⟨hvt, d, now, hd⟩ := hround
    cases rounds with
    | nil => exact .here ⟨hvt, _, hd, rfl⟩
    | cons r' rounds => exact ih (List.cons_ne_nil _ _) hvt hd

end

/-- A call that is not interrupted is `Blocklists.reload`. -/
theorem reload_run {b : Blocklists} (hv : Views config s b) (round : Round) :
    ∃ as t, (system T config build).Run s as t ∧ Views config t (b.reload T round).1 ∧
      ∃ d, t.calls[s.calls.length]? = some d ∧ d.finishedAt.isSome := by
  let rounds : List (Job × SetReads) := (.global, round.global) ::
    config.groups.zipIdx.map fun x => (.group x.1, round.group x.2)
  have hjobs : rounds.map Prod.fst = jobs config := by
    simp only [rounds, jobs, List.map_cons, List.map_map]
    exact congrArg _ (Fold.map_zipIdx_fst Job.group _)
  have hreload : (b.reload T round).1 = rounds.foldl (fun b r => reloadJob T b r.1 r.2) b := by
    simp only [rounds, List.foldl_cons, List.foldl_map, ← hv.config]
    rfl
  have hcall : (s.calls ++ [Call.gathering config (rounds.map Prod.fst) []])[s.calls.length]? =
      some (.gathering config (rounds.map Prod.fst) []) := by simp
  have hst : step T config s .start = some { s with
      now := s.now + 1, calls := s.calls ++ [.gathering config (rounds.map Prod.fst) []] } := by
    rw [hjobs]
    rfl
  obtain ⟨as, t, hexec, hvt, hd⟩ := CanReach.step hst
    (rounds_run (List.cons_ne_nil _ _) ⟨hv.config, hv.engine, hv.lastGood⟩ hcall)
  rw [hreload]
  exact ⟨as, t, .of_exec hexec, hvt, hd⟩

end RustyDns.L5.Loader
