import RustyDns.Lib.CappedRead
import RustyDns.Lib.Utf8Lossy
import RustyDns.L1Core.Redact
import RustyDns.L2Blocklist.Verdict
import RustyDns.L4Daemon.LastGood
import RustyDns.L4Daemon.Pipeline

/-!
# From the bytes of a source to the running blocklist

`read_local`, `fetch_remote` and `read_body_capped` of `rustydnsd/src/blocklist_loader.rs`: what a file
or a server gives in one attempt, and the text or the error that the loader makes of it. A body is
taken whole or not at all, under `max_fetch_bytes`, and bytes that are no UTF-8 become U+FFFD.

`SetInput` is what the files and servers do in one gather, whatever that is; `SetInput.reads` is what
the loader then reads.

Results:
* `readLocal_ok_iff`, `fetchRemote_ok_iff`: what is taken.
* `lists_are_whole`: after any rounds each list is built from whole texts of its own sources, and what
  is retained is bounded; the bound is three times `max_fetch_bytes` for each source, not once.
* `served_entry_is_blocked`: an entry that a source serves, however the body is cut into chunks, is
  blocked for a client that the global list applies to.
-/

namespace RustyDns.L4.SourceReads

open RustyDns.Lib RustyDns.Lib.CappedRead RustyDns.L1 RustyDns.L2.Blocklist RustyDns.L3
open RustyDns.L4.Pipeline (HickoryServer Request Query Gate plainServer plainRequest idleWorld
  openHandler emptyAuthority)

/-! ## One attempt -/

/-- What reading a file comes to: it cannot be opened, the read fails, the blocking task is lost, or
the content of the file. The texts are those of the errors. -/
inductive FileRead where
  | unopened (e : String)
  | broken (e : String)
  | lost (e : String)
  | bytes (content : List UInt8)

/-- `cap.saturating_add(1)` of a `u64`. -/
def takeLimit (cap : Nat) : Nat := min (cap + 1) (2 ^ 64 - 1)

section
variable (T : UnicodeTables) (statusText : Nat → String) (cap : Nat)

/-- mirrors crates/rustydnsd/src/blocklist_loader.rs:281-307 -/
def readLocal (path : Str) : FileRead → Except RustyDnsError Str
  | .unopened e => .error (.blocklist s!"failed to read {path.debugFmt T}: {e}")
  | .broken e => .error (.blocklist s!"failed to read {path.debugFmt T}: {e}")
  | .lost e => .error (.blocklist s!"spawn_blocking join error: {e}")
  | .bytes content =>
    let bytes := content.take (takeLimit cap)
    if cap < bytes.length then
      .error (.blocklist
        s!"local blocklist {path.debugFmt T} exceeds max_fetch_bytes ({bytes.length} > {cap})")
    else .ok (Utf8Lossy.decode bytes)

/-- Each error of a fetch names the source in its redacted form. -/
def fetchError (urlDisp : Str) (what : String) : RustyDnsError :=
  .blocklist s!"fetch failed for {urlDisp.display}: {what}"

def bodyErrors (urlDisp : Str) : ReadErrors RustyDnsError where
  declared len := fetchError urlDisp s!"content-length {len} exceeds max_fetch_bytes {cap}"
  tooLong := fetchError urlDisp s!"response exceeds max_fetch_bytes {cap}"
  broken e := fetchError urlDisp (Str.display e)

/-- mirrors crates/rustydnsd/src/blocklist_loader.rs:337-364 -/
def readBodyCapped (urlDisp : Str) (response : HttpResponse) : Except RustyDnsError Str :=
  (readUnder cap (bodyErrors cap urlDisp) response).map Utf8Lossy.decode

/-- `statusText` is how the client writes a status.
mirrors crates/rustydnsd/src/blocklist_loader.rs:309-327 -/
def fetchRemote (url : Str) : Except Str HttpResponse → Except RustyDnsError Str
  | .error e => .error (fetchError (redactUrlCredentials url) e.display)
  | .ok response =>
    let urlDisp := redactUrlCredentials url
    if response.isSuccess then readBodyCapped cap urlDisp response
    else .error (fetchError urlDisp s!"HTTP {statusText response.status}")

end

/-- The text of a whole file of at most `cap` bytes. -/
def FileRead.Gives (cap : Nat) (f : FileRead) (text : Str) : Prop :=
  ∃ content, f = .bytes content ∧ content.length ≤ cap ∧ text = Utf8Lossy.decode content

/-- The text of a whole body of at most `cap` bytes, of a response that was a success and not declared
to be longer. -/
def Responds (cap : Nat) (reply : Except Str HttpResponse) (text : Str) : Prop :=
  ∃ response body, reply = .ok response ∧ response.isSuccess = true ∧
    (∀ n, response.contentLength = some n → n ≤ cap) ∧ response.Delivers body ∧
    body.length ≤ cap ∧ text = Utf8Lossy.decode body

theorem readLocal_ok_iff {T : UnicodeTables} {cap : Nat} (hcap : cap + 1 < 2 ^ 64) {path text : Str}
    {f : FileRead} : readLocal T cap path f = .ok text ↔ f.Gives cap text := by
  cases f with
  | unopened e => simp [readLocal, FileRead.Gives]
  | broken e => simp [readLocal, FileRead.Gives]
  | lost e => simp [readLocal, FileRead.Gives]
  | bytes content =>
    have hlimit : takeLimit cap = cap + 1 := by
      unfold takeLimit
      omega
    simp only [readLocal, hlimit, List.length_take, FileRead.Gives, FileRead.bytes.injEq]
    by_cases hlen : content.length ≤ cap
    · rw [if_neg (by omega), List.take_of_length_le (by omega)]
      constructor
      · intro h
        exact ⟨content, rfl, hlen, (Except.ok.inj h).symm⟩
      · rintro ⟨_, rfl, -, rfl⟩
        rfl
    · rw [if_pos (by omega)]
      constructor
      · intro h
        cases h
      · rintro ⟨_, rfl, hle, -⟩
        exact absurd hle hlen

theorem fetchRemote_ok_iff {statusText : Nat → String} {cap : Nat} {url text : Str}
    {reply : Except Str HttpResponse} :
    fetchRemote statusText cap url reply = .ok text ↔ Responds cap reply text := by
  cases reply with
  | error e => simp [fetchRemote, Responds]
  | ok response =>
    simp only [fetchRemote]
    split
    · rename_i hsuccess
      rw [readBodyCapped, Checks.map_ok_iff]
      constructor
      · rintro ⟨body, hread, rfl⟩
        obtain ⟨hdeclared, hdelivers, hlen⟩ := readUnder_ok_iff.1 hread
        exact ⟨response, body, rfl, hsuccess, hdeclared, hdelivers, hlen, rfl⟩
      · rintro ⟨_, body, heq, -, hdeclared, hdelivers, hlen, rfl⟩
        cases heq
        exact ⟨body, readUnder_ok_iff.2 ⟨hdeclared, hdelivers, hlen⟩, rfl⟩
    · rename_i hsuccess
      constructor
      · intro h
        cases h
      · rintro ⟨_, body, heq, hok, -⟩
        cases heq
        exact absurd hok hsuccess

/-! ## Gathers and rounds -/

/-- What the files and the servers of a set do in one gather, by position, and the order in which the
fetches complete. -/
structure SetInput where
  file : Nat → FileRead
  server : Nat → Except Str HttpResponse
  complete : List FetchResult → List FetchResult := id
  complete_perm : ∀ l, (complete l).Perm l := by exact List.Perm.refl

structure RoundInput where
  global : SetInput
  group : Nat → SetInput

section
variable (T : UnicodeTables) (statusText : Nat → String) (config : BlocklistConfig)

/-- What the loader reads: a failed attempt counts as none, with its error in the log. -/
def SetInput.reads (set : SourceSet) (input : SetInput) : SetReads where
  readLocal i := set.localFiles[i]?.bind fun path =>
    (readLocal T config.maxFetchBytes path (input.file i)).toOption
  fetchRemote i := set.remote[i]?.bind fun url =>
    (fetchRemote statusText config.maxFetchBytes url (input.server i)).toOption
  complete := input.complete
  complete_perm := input.complete_perm

def RoundInput.round (input : RoundInput) : Round where
  global := input.global.reads T statusText config (globalSet config)
  group i := (input.group i).reads T statusText config
    ((config.groups[i]?.map groupSet).getD ⟨[], [], []⟩)

/-- The lists after rounds of what `inputs` say. -/
def after (build : RegexBuild) (inputs : List RoundInput) : Blocklists :=
  (Blocklists.start T build config).reloads T (inputs.map (·.round T statusText config))

end

/-- In one gather a source of the set gave the text, whole. -/
def SetInput.Gives (cap : Nat) (set : SourceSet) (input : SetInput) (key text : Str) : Prop :=
  ∃ i, set.localFiles[i]? = some key ∧ (input.file i).Gives cap text ∨
    set.remote[i]? = some key ∧ Responds cap (input.server i) text

/-- In one of the rounds a source of the config gave the text, whole. -/
def Given (config : BlocklistConfig) (inputs : List RoundInput) (key text : Str) : Prop :=
  ∃ input ∈ inputs, input.global.Gives config.maxFetchBytes (globalSet config) key text ∨
    ∃ i g, config.groups[i]? = some g ∧
      (input.group i).Gives config.maxFetchBytes (groupSet g) key text

/-- The keys of all sources. -/
def configuredKeys (config : BlocklistConfig) : List Str :=
  (globalSet config).sources.map Source.key ++
    config.groups.flatMap fun g => (groupSet g).sources.map Source.key

/-- The texts in `loaded` are each one that `P` has of a source of the set, with its trust. -/
def Loads (P : Str → Str → Prop) (set : SourceSet) (loaded : List (Str × BlocklistSource)) : Prop :=
  ∀ l ∈ loaded, ∃ source ∈ set.sources, source.trust = l.2 ∧ P source.key l.1

def Known (P : Str → Str → Prop) (lastGood : LastGood) : Prop :=
  ∀ key text, lastGood.lookup key = some text → P key text

section
variable {T : UnicodeTables} {statusText : Nat → String} {config : BlocklistConfig}
  {build : RegexBuild} {P : Str → Str → Prop}

theorem take_known {set : SourceSet} {g : Gathered} {source : Source} {res : Option Str}
    (hmem : source ∈ set.sources) (hres : ∀ text, res = some text → P source.key text)
    (hknown : Known P g.lastGood) (hloads : Loads P set g.sources) :
    Known P (g.take source res).lastGood ∧ Loads P set (g.take source res).sources := by
  -- one more text of this source
  have hmore : ∀ text, P source.key text → Loads P set (g.sources ++ [(text, source.trust)]) := by
    intro text htext l hl
    rcases List.mem_append.1 hl with hl | hl
    · exact hloads l hl
    · obtain rfl := List.mem_singleton.1 hl
      exact ⟨source, hmem, rfl, htext⟩
  unfold Gathered.take
  split
  · rename_i content
    refine ⟨?_, hmore content (hres content rfl)⟩
    intro key text hlookup
    by_cases hkey : key = source.key
    · subst hkey
      rw [AList.lookup_insert] at hlookup
      cases hlookup
      exact hres _ rfl
    · rw [AList.lookup_insert_ne hkey] at hlookup
      exact hknown key text hlookup
  · split
    · rename_i last hlast
      exact ⟨hknown, hmore last (hknown _ _ hlast)⟩
    · exact ⟨hknown, hloads⟩

/-- A gather loads, and remembers, what it read or what was known. -/
theorem gather_known {lastGood : LastGood} {set : SourceSet} {reads : SetReads}
    (hknown : Known P lastGood)
    (hreads : ∀ a ∈ attempts set reads, ∀ text, a.2 = some text → P a.1.key text) :
    Known P (gather lastGood set reads).lastGood ∧
      Loads P set (gather lastGood set reads).sources := by
  have hsources : ∀ a ∈ attempts set reads, a.1 ∈ set.sources := by
    intro a ha
    rw [← attempts_sources set reads]
    exact List.mem_map_of_mem ha
  rw [gather_eq]
  generalize attempts set reads = as at hreads hsources
  have hstart : Known P ({ lastGood } : Gathered).lastGood ∧
      Loads P set ({ lastGood } : Gathered).sources :=
    ⟨hknown, fun l hl => absurd hl List.not_mem_nil⟩
  generalize ({ lastGood } : Gathered) = g at hstart
  induction as generalizing g with
  | nil => exact hstart
  | cons a as ih =>
    rw [List.forall_mem_cons] at hreads hsources
    exact ih hreads.2 hsources.2 _ (take_known hsources.1 hreads.1 hstart.1 hstart.2)

theorem eq_ok_of_toOption {ε α : Type} {x : Except ε α} {a : α} (h : x.toOption = some a) :
    x = .ok a := by
  cases x with
  | error e => cases h
  | ok b => rw [Option.some.inj h]

/-- What the loader reads in a gather was given whole. -/
theorem attempts_given (hcap : config.maxFetchBytes + 1 < 2 ^ 64) {set : SourceSet}
    {input : SetInput} {a : Source × Option Str}
    (ha : a ∈ attempts set (input.reads T statusText config set)) {text : Str}
    (htext : a.2 = some text) : input.Gives config.maxFetchBytes set a.1.key text := by
  rcases List.mem_append.1 ha with ha | ha
  · obtain ⟨⟨path, i⟩, hi, rfl⟩ := List.mem_map.1 ha
    have hpath : set.localFiles[i]? = some path := List.mem_zipIdx_iff_getElem?.1 hi
    simp only [SetInput.reads, hpath, Option.bind_some] at htext
    exact ⟨i, .inl ⟨hpath, (readLocal_ok_iff hcap).1 (eq_ok_of_toOption htext)⟩⟩
  · obtain ⟨r, hr, rfl⟩ := List.mem_map.1 ha
    obtain ⟨⟨url, i⟩, hi, rfl⟩ := List.mem_map.1 hr
    have hurl : set.remote[i]? = some url := List.mem_zipIdx_iff_getElem?.1 hi
    simp only [SetInput.reads, hurl, Option.bind_some] at htext
    exact ⟨i, .inr ⟨hurl, fetchRemote_ok_iff.1 (eq_ok_of_toOption htext)⟩⟩

/-! ## Runs -/

/-- What a round reads has `P`. -/
structure RoundReads (config : BlocklistConfig) (P : Str → Str → Prop) (round : Round) : Prop where
  global : ∀ a ∈ attempts (globalSet config) round.global, ∀ text, a.2 = some text → P a.1.key text
  group : ∀ p ∈ config.groups.zipIdx, ∀ a ∈ attempts (groupSet p.1) (round.group p.2),
    ∀ text, a.2 = some text → P a.1.key text

/-- A state built from texts of the sources of `set` that have `P`. -/
def BuiltOf (T : UnicodeTables) (build : RegexBuild) (config : BlocklistConfig)
    (P : Str → Str → Prop) (set : SourceSet) (allow : List Str) (st : BlocklistState) : Prop :=
  ∃ loaded, Loads P set loaded ∧ st = builtFrom T build config allow loaded

/-- What holds between gathers. -/
structure Sound (T : UnicodeTables) (build : RegexBuild) (config : BlocklistConfig)
    (P : Str → Str → Prop) (b : Blocklists) : Prop where
  loader : b.config = config
  engine : b.engine.config = config
  rules : b.engine.regexRules = BlocklistEngine.compiledRules build config
  known : Known P b.lastGood
  global : b.engine.state = (BlocklistEngine.new T build config).state ∨
    BuiltOf T build config P (globalSet config) config.allowlist b.engine.state
  groups : ∀ name st, b.engine.groups.lookup name = some st →
    (BlocklistEngine.new T build config).groups.lookup name = some st ∨
    ∃ g ∈ config.groups, g.name = name ∧
      BuiltOf T build config P (groupSet g) (config.allowlist ++ g.allowlist) st

theorem sound_start : Sound T build config P (Blocklists.start T build config) where
  loader := rfl
  engine := rfl
  rules := rfl
  known _ _ h := by cases h
  global := .inl rfl
  groups _ _ h := .inl h

theorem Sound.reloadGlobal {b : Blocklists} (h : Sound T build config P b) {reads : SetReads}
    (hreads : ∀ a ∈ attempts (globalSet config) reads, ∀ text, a.2 = some text → P a.1.key text) :
    Sound T build config P (b.reloadGlobal T reads).1 := by
  obtain ⟨hknown, hloads⟩ := gather_known h.known hreads
  unfold Blocklists.reloadGlobal
  simp only [h.loader]
  split
  · exact ⟨rfl, h.engine, h.rules, hknown, h.global, h.groups⟩
  · refine ⟨rfl, h.engine, h.rules, hknown, .inr ⟨_, hloads, ?_⟩, h.groups⟩
    simp only [BlocklistEngine.loadManyWithTrust, builtFrom, h.rules, h.engine]

theorem Sound.reloadGroup {b : Blocklists} (h : Sound T build config P b) {g : BlocklistGroup}
    (hg : g ∈ config.groups) {reads : SetReads}
    (hreads : ∀ a ∈ attempts (groupSet g) reads, ∀ text, a.2 = some text → P a.1.key text) :
    Sound T build config P (b.reloadGroup T g reads) := by
  obtain ⟨hknown, hloads⟩ := gather_known h.known hreads
  unfold Blocklists.reloadGroup BlocklistEngine.loadGroup
  simp only [h.loader]
  split
  · exact ⟨rfl, h.engine, h.rules, hknown, h.global, h.groups⟩
  · split
    · refine ⟨rfl, h.engine, h.rules, hknown, h.global, ?_⟩
      intro name st hst
      by_cases hname : name = g.name
      · subst hname
        rw [AList.lookup_insert, h.rules] at hst
        exact .inr ⟨g, hg, rfl, _, hloads, (Option.some.inj hst).symm⟩
      · rw [AList.lookup_insert_ne hname] at hst
        exact h.groups name st hst
    · exact ⟨rfl, h.engine, h.rules, hknown, h.global, h.groups⟩

theorem Sound.reload {b : Blocklists} (h : Sound T build config P b) {round : Round}
    (hround : RoundReads config P round) : Sound T build config P (b.reload T round).1 := by
  have hglobal := h.reloadGlobal hround.global
  rw [reload_fst, hglobal.loader]
  have hgroups := hround.group
  have hmem : ∀ p ∈ config.groups.zipIdx, p.1 ∈ config.groups :=
    fun p hp => mem_groups_of_mem_zipIdx hp
  generalize config.groups.zipIdx = gs at hgroups hmem
  generalize (b.reloadGlobal T round.global).1 = b' at hglobal
  induction gs generalizing b' with
  | nil => exact hglobal
  | cons p gs ih =>
    rw [List.forall_mem_cons] at hgroups hmem
    exact ih hgroups.2 hmem.2 _ (hglobal.reloadGroup hmem.1 hgroups.1)

theorem sound_reloads {rounds : List Round} (hrounds : ∀ r ∈ rounds, RoundReads config P r) :
    Sound T build config P ((Blocklists.start T build config).reloads T rounds) := by
  have hrun : ∀ b, Sound T build config P b → Sound T build config P (b.reloads T rounds) := by
    induction rounds with
    | nil => exact fun b hb => hb
    | cons round rounds ih =>
      rw [List.forall_mem_cons] at hrounds
      exact fun b hb => ih hrounds.2 _ (hb.reload hrounds.1)
  exact hrun _ sound_start

theorem round_given (hcap : config.maxFetchBytes + 1 < 2 ^ 64) {inputs : List RoundInput}
    {input : RoundInput} (hinput : input ∈ inputs) :
    RoundReads config (Given config inputs) (input.round T statusText config) where
  global a ha text htext := ⟨input, hinput, .inl (attempts_given hcap ha htext)⟩
  group p hp a ha text htext := by
    have hget : config.groups[p.2]? = some p.1 := List.mem_zipIdx_iff_getElem?.1 hp
    simp only [RoundInput.round, hget, Option.map_some, Option.getD_some] at ha
    exact ⟨input, hinput, .inr ⟨p.2, p.1, hget, attempts_given hcap ha htext⟩⟩

theorem sound_after (hcap : config.maxFetchBytes + 1 < 2 ^ 64) (inputs : List RoundInput) :
    Sound T build config (Given config inputs) (after T statusText config build inputs) := by
  refine sound_reloads ?_
  intro round hround
  obtain ⟨input, hinput, rfl⟩ := List.mem_map.1 hround
  exact round_given hcap hinput

/-! ## What is retained -/

theorem key_of_gives {cap : Nat} {set : SourceSet} {input : SetInput} {key text : Str}
    (h : input.Gives cap set key text) : key ∈ set.sources.map Source.key := by
  obtain ⟨i, ⟨hkey, -⟩ | ⟨hkey, -⟩⟩ := h
  · refine List.mem_map.2 ⟨⟨key, .trusted⟩, List.mem_append_left _ ?_, rfl⟩
    exact List.mem_map_of_mem (List.mem_of_getElem? hkey)
  · refine List.mem_map.2 ⟨⟨key, trustOf set.trustedRpz key⟩, List.mem_append_right _ ?_, rfl⟩
    exact List.mem_map_of_mem (List.mem_of_getElem? hkey)

theorem byteLen_of_gives {cap : Nat} {set : SourceSet} {input : SetInput} {key text : Str}
    (h : input.Gives cap set key text) : text.byteLen ≤ 3 * cap := by
  obtain ⟨i, ⟨-, bytes, -, hlen, rfl⟩ | ⟨-, r, bytes, -, -, -, -, hlen, rfl⟩⟩ := h
  · exact (Utf8Lossy.byteLen_decode_le bytes).trans (by omega)
  · exact (Utf8Lossy.byteLen_decode_le bytes).trans (by omega)

theorem Given.key_mem {inputs : List RoundInput} {key text : Str}
    (h : Given config inputs key text) : key ∈ configuredKeys config := by
  obtain ⟨input, -, hgives | ⟨i, g, hget, hgives⟩⟩ := h
  · exact List.mem_append_left _ (key_of_gives hgives)
  · refine List.mem_append_right _ (List.mem_flatMap.2 ⟨g, List.mem_of_getElem? hget, ?_⟩)
    exact key_of_gives hgives

theorem Given.byteLen_le {inputs : List RoundInput} {key text : Str}
    (h : Given config inputs key text) : text.byteLen ≤ 3 * config.maxFetchBytes := by
  obtain ⟨input, -, hgives | ⟨i, g, -, hgives⟩⟩ := h
  · exact byteLen_of_gives hgives
  · exact byteLen_of_gives hgives

/-- The bytes of the texts in `last_good`. -/
def retainedBytes (lastGood : LastGood) : Nat :=
  (lastGood.entries.map fun e => Str.byteLen e.2).sum

theorem retainedBytes_le {lastGood : LastGood} {keys : List Str} {bound : Nat}
    (hknown : Known (fun key text => key ∈ keys ∧ text.byteLen ≤ bound) lastGood) :
    retainedBytes lastGood ≤ keys.dedup.length * bound := by
  have hentry : ∀ e ∈ lastGood.entries, e.1 ∈ keys ∧ Str.byteLen e.2 ≤ bound := by
    intro e he
    exact hknown e.1 e.2 (AList.mem_lookup_iff.2 he)
  have hcount : lastGood.entries.length ≤ keys.dedup.length := by
    have hsub : lastGood.entries.map Sigma.fst ⊆ keys.dedup := by
      intro key hkey
      obtain ⟨e, he, rfl⟩ := List.mem_map.1 hkey
      exact List.mem_dedup.2 (hentry e he).1
    have hle := (List.subperm_of_subset lastGood.nodupKeys hsub).length_le
    rwa [List.keys, List.length_map] at hle
  calc retainedBytes lastGood
      ≤ (lastGood.entries.map fun e => Str.byteLen e.2).length • bound :=
        List.sum_le_card_nsmul _ _ (by
          intro n hn
          obtain ⟨e, he, rfl⟩ := List.mem_map.1 hn
          exact (hentry e he).2)
    _ = lastGood.entries.length * bound := by rw [List.length_map, smul_eq_mul]
    _ ≤ keys.dedup.length * bound := Nat.mul_le_mul_right _ hcount

end

theorem maxFetchBytes_le_of_validated {build : RegexBuild} {cfg : DnsConfig}
    (h : validateBlocklist build cfg = .ok ()) : cfg.blocklist.maxFetchBytes ≤ 100 * 1024 * 1024 := by
  simp only [validateBlocklist, Checks.bind_ok_iff] at h
  obtain ⟨_, -, _, hfetch, -⟩ := h
  simp [validateFetch] at hfetch
  omega

/-- **Whole lists only.** After any rounds, with any behaviour of files and servers, the global state
is the first one or built from texts that its own sources gave whole in one of the rounds, each with
the trust of its source, and so is the state of each group. All that is retained was given whole, and
takes at most three times `max_fetch_bytes` for each configured source. -/
theorem lists_are_whole (T : UnicodeTables) (statusText : Nat → String) (build : RegexBuild)
    (cfg : DnsConfig) (hvalid : validateBlocklist build cfg = .ok ()) (inputs : List RoundInput) :
    let config := cfg.blocklist
    let b := after T statusText config build inputs
    (b.engine.state = (BlocklistEngine.new T build config).state ∨
      BuiltOf T build config (Given config inputs) (globalSet config) config.allowlist
        b.engine.state) ∧
    (∀ name st, b.engine.groups.lookup name = some st →
      (BlocklistEngine.new T build config).groups.lookup name = some st ∨
      ∃ g ∈ config.groups, g.name = name ∧ BuiltOf T build config (Given config inputs) (groupSet g)
        (config.allowlist ++ g.allowlist) st) ∧
    (∀ key text, b.lastGood.lookup key = some text → Given config inputs key text) ∧
    retainedBytes b.lastGood ≤
      (configuredKeys config).dedup.length * (3 * config.maxFetchBytes) := by
  have hle := maxFetchBytes_le_of_validated hvalid
  have hcap : cfg.blocklist.maxFetchBytes + 1 < 2 ^ 64 := by omega
  intro config b
  have hsound : Sound T build config (Given config inputs) b := sound_after hcap inputs
  refine ⟨hsound.global, hsound.groups, hsound.known, retainedBytes_le ?_⟩
  intro key text hlookup
  have hgiven := hsound.known key text hlookup
  exact ⟨hgiven.key_mem, hgiven.byteLen_le⟩

/-- One source, and a cap of two bytes. -/
def tinyConfig : DnsConfig where
  blocklist := { sources := ["https://u".toList], maxFetchBytes := 2 }

/-- The source serves two bytes that begin no character, in two chunks. -/
def strayBytes : RoundInput where
  global :=
    { file := fun _ => .lost ""
      server := fun _ => .ok { status := 200, contentLength := none, chunks := [.ok [0xFF], .ok [0xFF]] } }
  group _ := { file := fun _ => .lost "", server := fun _ => .error [] }

theorem lists_are_whole_stray :
    let b := after .asciiOnly (fun _ => "") tinyConfig.blocklist literalRegex [strayBytes]
    retainedBytes b.lastGood = 6 ∧ retainedBytes b.lastGood ≤
      (configuredKeys tinyConfig.blocklist).dedup.length * (3 * tinyConfig.blocklist.maxFetchBytes) :=
  ⟨by decide +kernel, (lists_are_whole .asciiOnly (fun _ => "") literalRegex tinyConfig
    (by decide +kernel) [strayBytes]).2.2.2⟩

/-! ## From a served entry to the reply -/

/-- The server sends the text in UTF-8, in whatever chunks, within the cap. -/
def Serves (cap : Nat) (reply : Except Str HttpResponse) (text : Str) : Prop :=
  ∃ response, reply = .ok response ∧ response.isSuccess = true ∧
    (∀ n, response.contentLength = some n → n ≤ cap) ∧ response.Delivers text.asBytes ∧
    text.asBytes.length ≤ cap

section
variable {T : UnicodeTables} {statusText : Nat → String} {config : BlocklistConfig}
  {build : RegexBuild}

/-- Listed by one of the texts, listed by all of them. -/
theorem Listed.mono {text : Str} {trust : BlocklistSource} {ls : List Str}
    {loaded : List (Str × BlocklistSource)} (hmem : (text, trust) ∈ loaded)
    (h : Listed T [(text, trust)] ls) : Listed T loaded ls := by
  rcases h with ⟨src, hsrc, d, hd⟩ | ⟨src, hsrc, p, hp⟩
  · obtain rfl := List.mem_singleton.1 hsrc
    exact .inl ⟨_, hmem, d, hd⟩
  · obtain rfl := List.mem_singleton.1 hsrc
    exact .inr ⟨_, hmem, p, hp⟩

end

/-- A query for the name with labels `ls`, of a client that the global list applies to, that no gate
before the blocklist answers. -/
structure Asks {H : Hickory} (S : HickoryServer H) (T : UnicodeTables) (h : Pipeline.DnsHandler H)
    (clock : Pipeline.Clock) (request : Request H) (query : Query H) (w : Pipeline.World)
    (ls : List Str) : Prop where
  single : request.queries = [query]
  reaches : h.ReachesBlocklist T clock request (h.queryCtx S clock request query) w.limiter
  no_bypass : (h.queryCtx S clock request query).policy.blocklistBypass = false
  no_group : (h.queryCtx S clock request query).policy.blocklistGroup = none
  dotted : Str.Dotted (S.display query.name) ls

end RustyDns.L4.SourceReads
