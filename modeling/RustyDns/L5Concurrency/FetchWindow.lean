import RustyDns.Lib.TaskPool
import RustyDns.L4Daemon.SourceReads

/-!
# The fetches of a gather beside each other

The remote half of `gather` in `rustydnsd/src/blocklist_loader.rs`: `buffer_unordered(4)` over the
fetches of a set, each of them `fetch_remote` with its waits. A fetch waits for the head of the
response and then for chunk after chunk; between any two of these the others go on. The results are
collected as they come and then sorted by position.

Results:
* `fetch_ends`: the chunks one by one come to what `fetchRemote` makes of the whole response.
* `fetch_window`: at most four bodies are in flight, of at most the cap each; and with all fetches
  done the rest of `gather` does what `Loader.gather` does, for an input of these responses.
* `window_can_finish`: a gather can always come to its end.
-/

namespace RustyDns.L5.FetchWindow

open RustyDns.Lib RustyDns.Lib.CappedRead RustyDns.L1 RustyDns.L4 RustyDns.L4.SourceReads
open RustyDns.L2.Blocklist

/-! ## One fetch -/

/-- A fetch that waits for the response, or for more of its body. -/
inductive Fetch where
  | sent
  /-- `seen` is ghost: the response so far -/
  | streaming (body : List UInt8) (seen : HttpResponse)

def Fetch.buffered : Fetch → Nat
  | .sent => 0
  | .streaming body _ => body.length

inductive Event where
  | failed (e : Str)
  | head (status : Nat) (contentLength : Option Nat)
  | chunk (bytes : List UInt8)
  | broken (e : Str)
  | finished

/-- The end of a fetch. -/
structure Fetched where
  result : Except RustyDnsError Str
  /-- ghost: the response as it came, up to where the fetch ended -/
  reply : Except Str HttpResponse

/-- The response with one more chunk, or the failure of one. -/
def more (seen : HttpResponse) (c : Except (List Char) (List UInt8)) : HttpResponse :=
  { seen with chunks := seen.chunks ++ [c] }

section
variable (statusText : Nat → String) (cap : Nat)

/-- The head of a response: its status, then the declared length. -/
def onHead (urlDisp : Str) (seen : HttpResponse) : Fetch ⊕ Fetched :=
  if seen.isSuccess then
    match seen.contentLength.filter (cap < ·) with
    | some n => .inr ⟨.error ((bodyErrors cap urlDisp).declared n), .ok seen⟩
    | none => .inl (.streaming [] seen)
  else .inr ⟨.error (fetchError urlDisp s!"HTTP {statusText seen.status}"), .ok seen⟩

/-- What a fetch does between two waits, `none` for an event it does not wait for.
mirrors crates/rustydnsd/src/blocklist_loader.rs:309-364 -/
def fetch (job : Str × Nat) : Fetch → Event → Option (Fetch ⊕ Fetched)
  | .sent, .failed e =>
    some (.inr ⟨.error (fetchError (redactUrlCredentials job.1) e.display), .error e⟩)
  | .sent, .head status contentLength =>
    some (onHead statusText cap (redactUrlCredentials job.1) ⟨status, contentLength, []⟩)
  | .streaming body seen, .chunk bytes =>
    if cap < body.length + bytes.length then
      some (.inr ⟨.error (bodyErrors cap (redactUrlCredentials job.1)).tooLong,
        .ok (more seen (.ok bytes))⟩)
    else some (.inl (.streaming (body ++ bytes) (more seen (.ok bytes))))
  | .streaming _ seen, .broken e =>
    some (.inr ⟨.error ((bodyErrors cap (redactUrlCredentials job.1)).broken e),
      .ok (more seen (.error e))⟩)
  | .streaming body seen, .finished => some (.inr ⟨.ok (Utf8Lossy.decode body), .ok seen⟩)
  | _, _ => none

/-! ## The window -/

abbrev Window := TaskPool.Pool (Str × Nat) Fetch Fetched

def step : Window → TaskPool.Act Event → Option Window :=
  TaskPool.step maxConcurrentFetches (fun _ => .sent) (fetch statusText cap)

/-- The fetches of a set, each with its position. -/
def system (set : SourceSet) : LTS Window (TaskPool.Act Event) :=
  TaskPool.system maxConcurrentFetches (fun _ => .sent) (fetch statusText cap) set.remote.zipIdx

/-- The results as they came. -/
def collected (set : SourceSet) (s : Window) : List FetchResult :=
  s.done.map fun p => ⟨p.1.2, ⟨p.1.1, trustOf set.trustedRpz p.1.1⟩, p.2.result.toOption⟩

/-- `gather` once the results are there.
mirrors crates/rustydnsd/src/blocklist_loader.rs:165-257 -/
def gatherFrom (T : UnicodeTables) (config : BlocklistConfig) (lastGood : LastGood)
    (set : SourceSet) (file : Nat → FileRead) (results : List FetchResult) : Gathered :=
  let g := set.localFiles.zipIdx.foldl
    (fun g (path, i) =>
      g.take ⟨path, .trusted⟩ (readLocal T config.maxFetchBytes path (file i)).toOption) { lastGood }
  (results.insertionSort (·.idx ≤ ·.idx)).foldl (fun g r => g.take r.source r.res) g

/-- The bytes of bodies in flight. -/
def inFlight (s : Window) : Nat := (s.running.map fun p => p.2.buffered).sum

end

/-! ## What a fetch keeps -/

section
variable {statusText : Nat → String} {cap : Nat}

/-- A body in flight is that of the chunks so far, of a response whose head was accepted. -/
def Streams (cap : Nat) : Fetch → Prop
  | .sent => True
  | .streaming body seen => body.length ≤ cap ∧ seen.isSuccess = true ∧
      seen.contentLength.filter (cap < ·) = none ∧
      ∃ parts, seen.chunks = parts.map .ok ∧ body = List.flatten parts

/-- The result is what `fetch_remote` makes of the response. -/
def Faithful (statusText : Nat → String) (cap : Nat) (job : Str × Nat) (f : Fetched) : Prop :=
  f.result = fetchRemote statusText cap job.1 f.reply

/-- The loop at the end of the chunks so far, with `rest` still to come. -/
theorem fetchRemote_of_streams {url : Str} {body : List UInt8} {seen : HttpResponse}
    (h : Streams cap (.streaming body seen)) (rest : List (Except (List Char) (List UInt8))) :
    fetchRemote statusText cap url (.ok { seen with chunks := seen.chunks ++ rest }) =
      (drain cap (bodyErrors cap (redactUrlCredentials url)).tooLong body
        (rest.map fun c => c.mapError (bodyErrors cap (redactUrlCredentials url)).broken)).map
          Utf8Lossy.decode := by
  obtain ⟨hlen, hsuccess, hdeclared, parts, hparts, rfl⟩ := h
  have hok : ({ seen with chunks := seen.chunks ++ rest } : HttpResponse).isSuccess = true := hsuccess
  simp only [fetchRemote]
  rw [if_pos hok, readBodyCapped, hparts, readUnder_parts hdeclared hlen]

theorem streams_next {job : Str × Nat} {x y : Fetch} {e : Event} (hx : Streams cap x)
    (h : fetch statusText cap job x e = some (.inl y)) : Streams cap y := by
  unfold fetch at h
  split at h
  · cases h
  · simp only [onHead, Option.some.injEq] at h
    split at h
    · rename_i hsuccess
      split at h
      · cases h
      · rename_i hdeclared
        cases h
        exact ⟨Nat.zero_le _, hsuccess, hdeclared, [], rfl, rfl⟩
    · cases h
  · rename_i body seen bytes
    split at h
    · cases h
    · rename_i hfits
      cases h
      obtain ⟨-, hsuccess, hdeclared, parts, hparts, rfl⟩ := hx
      refine ⟨by rw [List.length_append]; omega, hsuccess, hdeclared, parts ++ [bytes], ?_, ?_⟩
      · rw [more, hparts, List.map_append, List.map_singleton]
      · rw [List.flatten_append, List.flatten_singleton]
  · cases h
  · cases h
  · cases h

theorem fetch_ends {job : Str × Nat} {x : Fetch} {e : Event} {f : Fetched}
    (hx : Streams cap x) (h : fetch statusText cap job x e = some (.inr f)) :
    Faithful statusText cap job f := by
  unfold fetch at h
  split at h
  · cases h
    rfl
  · simp only [onHead, Option.some.injEq] at h
    split at h
    · rename_i hsuccess
      split at h
      · rename_i n hdeclared
        cases h
        simp only [Faithful, fetchRemote, hsuccess, if_true, readBodyCapped, readUnder, hdeclared]
        rfl
      · cases h
    · rename_i hsuccess
      cases h
      simp only [Faithful, fetchRemote, hsuccess, Bool.false_eq_true, if_false]
  · rename_i body seen bytes
    split at h
    · rename_i hover
      cases h
      rw [Faithful, more, fetchRemote_of_streams hx]
      simp only [List.map_cons, List.map_nil, Except.mapError, drain, if_pos hover]
      rfl
    · cases h
  · cases h
    rw [Faithful, more, fetchRemote_of_streams hx]
    rfl
  · rename_i body seen
    cases h
    have hseen : fetchRemote statusText cap job.1 (.ok { seen with chunks := seen.chunks ++ [] }) =
        .ok (Utf8Lossy.decode body) := fetchRemote_of_streams hx []
    rw [List.append_nil] at hseen
    exact hseen.symm
  · cases h

theorem fetch_contract : TaskPool.Contract (fun _ => .sent) (fetch statusText cap)
    (fun _ x => Streams cap x) (Faithful statusText cap) where
  starts _ := trivial
  goes _ _ _ _ hx h := streams_next hx h
  ends _ _ _ _ hx h := fetch_ends hx h

/-! ## Runs -/

variable {set : SourceSet} {s : Window}

theorem inv_reachable (hs : (system statusText cap set).Reachable s) :
    TaskPool.Inv maxConcurrentFetches (fun _ x => Streams cap x) (Faithful statusText cap)
      set.remote.zipIdx s :=
  TaskPool.inv_reachable fetch_contract hs

theorem buffered_le {x : Fetch} (h : Streams cap x) : x.buffered ≤ cap := by
  cases x with
  | sent => exact Nat.zero_le _
  | streaming body seen => exact h.1

theorem inFlight_le (hs : (system statusText cap set).Reachable s) : inFlight s ≤ 4 * cap := by
  have hinv := inv_reachable hs
  calc inFlight s
      ≤ (s.running.map fun p => p.2.buffered).length • cap :=
        List.sum_le_card_nsmul _ _ (by
          intro n hn
          obtain ⟨p, hp, rfl⟩ := List.mem_map.1 hn
          exact buffered_le (hinv.running p hp))
    _ = s.running.length * cap := by rw [List.length_map, smul_eq_mul]
    _ ≤ 4 * cap := Nat.mul_le_mul_right _ hinv.room

/-- The response to the request at each position. -/
theorem exists_replies (hs : (system statusText cap set).Reachable s)
    (hend : TaskPool.Finished s) : ∃ server : Nat → Except Str HttpResponse,
      (∀ p ∈ s.done, p.2.reply = server p.1.2) ∧
      (collected set s).Perm (set.remote.zipIdx.map fun p =>
        ⟨p.2, ⟨p.1, trustOf set.trustedRpz p.1⟩,
          (fetchRemote statusText cap p.1 (server p.2)).toOption⟩) := by
  have hnodup : set.remote.zipIdx.Nodup := by
    have hidx : (set.remote.zipIdx.map Prod.snd).Nodup := by
      rw [List.zipIdx_map_snd]
      exact List.nodup_range'
    exact List.Nodup.of_map _ hidx
  have : Nonempty Fetched := ⟨⟨.ok [], .error []⟩⟩
  obtain ⟨res, hperm, hres⟩ := TaskPool.exists_results (inv_reachable hs) hend hnodup
  -- a position has one URL
  have hurl : ∀ p ∈ set.remote.zipIdx, ((set.remote[p.2]?).getD [], p.2) = p := by
    intro p hp
    rw [List.mem_zipIdx_iff_getElem?.1 hp]
    rfl
  refine ⟨fun i => (res ((set.remote[i]?).getD [], i)).reply, ?_, ?_⟩
  · intro p hp
    obtain ⟨job, hjob, rfl⟩ := List.mem_map.1 (hperm.mem_iff.1 hp)
    simp only [hurl job hjob]
  · refine (hperm.map _).trans (List.Perm.of_eq ?_)
    rw [List.map_map]
    refine List.map_congr_left fun p hp => ?_
    simp only [Function.comp_apply, hurl p hp]
    rw [hres p hp]

end

/-- What the files and servers did, with the fetches completing as they did in the window. -/
def SetInput.ofWindow (set : SourceSet) (file : Nat → FileRead)
    (server : Nat → Except Str HttpResponse) (s : Window) : SetInput where
  file := file
  server := server
  complete l := if (collected set s).Perm l then collected set s else l
  complete_perm l := by
    split
    · assumption
    · exact .refl l

theorem gatherFrom_eq_gather {T : UnicodeTables} {statusText : Nat → String}
    {config : BlocklistConfig} {set : SourceSet} {s : Window}
    {server : Nat → Except Str HttpResponse}
    (hperm : (collected set s).Perm (set.remote.zipIdx.map fun p =>
      ⟨p.2, ⟨p.1, trustOf set.trustedRpz p.1⟩,
        (fetchRemote statusText config.maxFetchBytes p.1 (server p.2)).toOption⟩))
    (lastGood : LastGood) (file : Nat → FileRead) :
    gatherFrom T config lastGood set file (collected set s) =
      gather lastGood set
        ((SetInput.ofWindow set file server s).reads T statusText config set) := by
  have hfetches : fetches set ((SetInput.ofWindow set file server s).reads T statusText config set) =
      set.remote.zipIdx.map fun p => ⟨p.2, ⟨p.1, trustOf set.trustedRpz p.1⟩,
        (fetchRemote statusText config.maxFetchBytes p.1 (server p.2)).toOption⟩ := by
    refine List.map_congr_left fun p hp => ?_
    have hurl : set.remote[p.2]? = some p.1 := List.mem_zipIdx_iff_getElem?.1 hp
    simp only [SetInput.reads, SetInput.ofWindow, hurl, Option.bind_some]
  have hresults : (SetInput.ofWindow set file server s).complete (set.remote.zipIdx.map fun p =>
      ⟨p.2, ⟨p.1, trustOf set.trustedRpz p.1⟩,
        (fetchRemote statusText config.maxFetchBytes p.1 (server p.2)).toOption⟩) =
      collected set s :=
    if_pos hperm
  have hlocal : ∀ g : Gathered, set.localFiles.zipIdx.foldl (fun g p =>
        g.take ⟨p.1, .trusted⟩ (readLocal T config.maxFetchBytes p.1 (file p.2)).toOption) g =
      set.localFiles.zipIdx.foldl (fun g p => g.take ⟨p.1, .trusted⟩
        (((SetInput.ofWindow set file server s).reads T statusText config set).readLocal p.2)) g := by
    refine fun g => List.foldl_ext _ _ _ fun g p hp => ?_
    have hpath : set.localFiles[p.2]? = some p.1 := List.mem_zipIdx_iff_getElem?.1 hp
    simp only [SetInput.reads, SetInput.ofWindow, hpath, Option.bind_some]
  unfold gather
  rw [hfetches]
  have hcomplete : ((SetInput.ofWindow set file server s).reads T statusText config set).complete =
      (SetInput.ofWindow set file server s).complete := rfl
  rw [hcomplete, hresults]
  unfold gatherFrom
  rw [hlocal]

/-- **The window of a gather.** At every point of every interleaving at most four fetches are in
flight, with at most the cap in each of their bodies, and each result is what `fetch_remote` makes of
the response to its own request. With all of them done, sorting and taking the results is the gather of
an input with these responses: one attempt for each source, in configured order. -/
theorem fetch_window (T : UnicodeTables) (statusText : Nat → String) (config : BlocklistConfig)
    (set : SourceSet) (s : Window)
    (hs : (system statusText config.maxFetchBytes set).Reachable s) :
    s.running.length ≤ 4 ∧ (∀ p ∈ s.running, p.2.buffered ≤ config.maxFetchBytes) ∧
    inFlight s ≤ 4 * config.maxFetchBytes ∧
    (∀ p ∈ s.done, p.2.result = fetchRemote statusText config.maxFetchBytes p.1.1 p.2.reply) ∧
    (TaskPool.Finished s → ∀ (lastGood : LastGood) (file : Nat → FileRead), ∃ input : SetInput,
      input.file = file ∧ (∀ p ∈ s.done, p.2.reply = input.server p.1.2) ∧
      gatherFrom T config lastGood set file (collected set s) =
        gather lastGood set (input.reads T statusText config set)) := by
  have hinv := inv_reachable hs
  refine ⟨hinv.room, fun p hp => buffered_le (hinv.running p hp), inFlight_le hs, hinv.done, ?_⟩
  intro hend lastGood file
  obtain ⟨server, hserver, hperm⟩ := exists_replies hs hend
  exact ⟨SetInput.ofWindow set file server s, rfl, hserver, gatherFrom_eq_gather hperm lastGood file⟩

/-- Two sources, of which the second is done first. -/
def twoSources : SourceSet := ⟨[], ["u".toList, "v".toList], []⟩

def secondFirst : List (TaskPool.Act Event) :=
  [.start, .start, .event 1 (.head 200 none), .event 0 (.head 200 (some 3)),
    .event 1 (.chunk [97, 46]), .event 1 (.chunk [98]), .event 1 .finished, .event 0 (.broken [])]

theorem fetch_window_second_first :
    ∃ s, LTS.exec (step (fun _ => "") ({} : BlocklistConfig).maxFetchBytes)
        ⟨twoSources.remote.zipIdx, [], []⟩ secondFirst = some s ∧
      s.done.map (·.1.2) = [1, 0] ∧ s.running.length ≤ 4 ∧
      ∃ input : SetInput, gatherFrom .asciiOnly {} ∅ twoSources (fun _ => .lost "")
          (collected twoSources s) =
        gather ∅ twoSources (input.reads .asciiOnly (fun _ => "") {} twoSources) := by
  have hrun : ((LTS.exec (step (fun _ => "") ({} : BlocklistConfig).maxFetchBytes)
      ⟨twoSources.remote.zipIdx, [], []⟩ secondFirst).map fun s =>
        (s.done.map (·.1.2), s.waiting.length, s.running.length)) = some ([1, 0], 0, 0) := by
    decide +kernel
  obtain ⟨s, hs, hends⟩ := Option.map_eq_some_iff.1 hrun
  simp only [Prod.mk.injEq, List.length_eq_zero_iff] at hends
  obtain ⟨hdone, hwaiting, hrunning⟩ := hends
  obtain ⟨hroom, -, -, -, hgather⟩ := fetch_window .asciiOnly (fun _ => "") {} twoSources s
    (.run (.init rfl) (.of_exec hs))
  obtain ⟨input, -, -, hinput⟩ := hgather ⟨hwaiting, hrunning⟩ ∅ (fun _ => .lost "")
  exact ⟨s, hs, hdone, hroom, input, hinput⟩

/-- From any point the fetches can come to their end. -/
theorem window_can_finish (statusText : Nat → String) (cap : Nat) (s : Window) :
    ∃ acts t, LTS.exec (step statusText cap) s acts = some t ∧ TaskPool.Finished t := by
  refine TaskPool.can_finish (by decide) ?_ s
  intro job x
  cases x with
  | sent => exact ⟨.failed [], _, rfl⟩
  | streaming body seen => exact ⟨.finished, _, rfl⟩

end RustyDns.L5.FetchWindow
