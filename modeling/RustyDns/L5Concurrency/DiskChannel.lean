import RustyDns.Lib.Lts
import RustyDns.L4Daemon.DiskLog

/-!
# Requests and the disk writer

`record` of `rustydnsd/src/query_log.rs` and `Writer::run` of `rustydnsd/src/query_log_disk.rs`, with
the bounded channel between them: requests try to send while the writer receives, writes and flushes,
and a shutdown or the end of all senders may come at any point. `select!` may take either branch that
is ready. Each step is one that no other task can see half done.

The writer looks at the channel for the last time before its last flushes, and drops its end after
them. What is accepted in between is not written and not counted.

Results:
* `view_record`: to a request the channel is a `DiskSink`.
* `inv_step`: what one step keeps.
* `disk_log_follows_requests`: accounts and files in every reachable state.
* `writer_can_catch_up`: the writer alone empties the channel from any state.
-/

namespace RustyDns.L5.DiskChannel

open RustyDns.Lib RustyDns.L4.Pipeline RustyDns.L4.DiskLog

/-! ## States and steps -/

/-- Where `run` is: in `select!`, draining after a first entry, about to flush, draining after the
shutdown, before its last flushes, or gone. -/
inductive Phase where
  | waiting
  | batch
  | flushing
  | last
  | closing (flushes : Nat)
  | done
  deriving DecidableEq, Repr

/-- The writer has had its last look at the channel. -/
def Phase.ended : Phase → Bool
  | .closing _ => true
  | .done => true
  | _ => false

structure St where
  channel : List QueryLogEntry := []
  senders : Bool := true
  cancelled : Bool := false
  phase : Phase := .waiting
  /-- what the writer did so far -/
  events : List Writer.Event := []
  dropped : Nat := 0
  /-- ghost: every entry recorded, and whether the channel took it -/
  recorded : List (QueryLogEntry × Bool) := []
  /-- ghost: what the channel took after the writer's last look -/
  late : List QueryLogEntry := []

inductive Act where
  | record (entry : QueryLogEntry)
  | hangUp
  | cancel
  | receive (calls : Calls)
  | more (calls : Calls)
  | empty
  | flush (result : Option Cut)
  | sendersGone
  | stop

namespace St

/-- The channel takes an entry unless it is full or its receiver is gone. -/
def takes (capacity : Nat) (s : St) : Bool :=
  s.phase ≠ .done && s.channel.length < capacity

/-- mirrors crates/rustydnsd/src/query_log.rs:254-296 -/
def record (capacity : Nat) (s : St) (entry : QueryLogEntry) : St :=
  if s.takes capacity then
    { s with
      channel := s.channel ++ [entry]
      recorded := s.recorded ++ [(entry, true)]
      late := if s.phase.ended then s.late ++ [entry] else s.late }
  else { s with dropped := s.dropped + 1, recorded := s.recorded ++ [(entry, false)] }

/-- The oldest entry of the channel is written. -/
def write (s : St) (calls : Calls) (next : Phase) : Option St :=
  match s.channel with
  | [] => none
  | entry :: rest =>
    some { s with channel := rest, events := s.events ++ [.write entry calls], phase := next }

def flush (s : St) (result : Option Cut) (next : Phase) : St :=
  { s with events := s.events ++ [.flush result], phase := next }

end St

/-- mirrors crates/rustydnsd/src/query_log_disk.rs:186-215 -/
def step (capacity : Nat) (s : St) : Act → Option St
  | .record entry => if s.senders then some (s.record capacity entry) else none
  | .hangUp => some { s with senders := false }
  | .cancel => some { s with cancelled := true }
  | .receive calls => if s.phase = .waiting then s.write calls .batch else none
  | .more calls => if s.phase = .batch ∨ s.phase = .last then s.write calls s.phase else none
  | .empty =>
    if s.channel = [] then
      match s.phase with
      | .batch => some { s with phase := .flushing }
      | .last => some { s with phase := .closing 2 }
      | _ => none
    else none
  | .flush result =>
    match s.phase with
    | .flushing => some (s.flush result .waiting)
    | .closing (n + 1) => some (s.flush result (if n = 0 then .done else .closing n))
    | _ => none
  | .sendersGone =>
    if s.phase = .waiting ∧ s.channel = [] ∧ s.senders = false then
      some { s with phase := .closing 1 }
    else none
  | .stop =>
    if s.phase = .waiting ∧ s.cancelled = true then some { s with phase := .last } else none

def system (capacity : Nat) : LTS St Act := .ofFn (· = {}) (step capacity)

namespace St

variable (s : St)

/-- The entries that were recorded. -/
def entries : List QueryLogEntry := s.recorded.map Prod.fst

/-- Those that the channel took. -/
def accepted : List QueryLogEntry := (s.recorded.filter Prod.snd).map Prod.fst

/-- Those that were written. -/
def written : List QueryLogEntry := s.events.filterMap Writer.Event.entry

/-- The writer on its files. -/
def writer (start : Writer) : Writer := start.run s.events

/-- The channel as a request sees it. -/
def view (capacity : Nat) : DiskSink where
  room := if s.phase = .done then 0 else capacity - s.channel.length
  sent := s.accepted
  dropped := s.dropped

end St

/-- To a request the channel is a `DiskSink`. -/
theorem view_record (capacity : Nat) (s : St) (entry : QueryLogEntry) :
    (s.record capacity entry).view capacity = (s.view capacity).trySend entry := by
  unfold St.record St.takes DiskSink.trySend
  by_cases hdone : s.phase = .done
  · simp [St.view, St.accepted, hdone]
  · by_cases hroom : s.channel.length < capacity
    · have hpos : 0 < capacity - s.channel.length := by omega
      simp [St.view, St.accepted, hdone, hroom]
      omega
    · simp [St.view, St.accepted, hdone, hroom]

/-! ## What a step does -/

/-- The phases in which the writer takes an entry, and the one after it. -/
inductive Takes : Phase → Phase → Prop
  | first : Takes .waiting .batch
  | more : Takes .batch .batch
  | last : Takes .last .last

/-- The phases in which it flushes, and the one after it. -/
inductive Flushes : Phase → Phase → Prop
  | batch : Flushes .flushing .waiting
  | closing (n : Nat) : Flushes (.closing (n + 2)) (.closing (n + 1))
  | final : Flushes (.closing 1) .done

/-- The turns it takes without touching the files; those that end a look at the channel find it
empty. -/
inductive Turns (s : St) : Phase → Prop
  | none : Turns s s.phase
  | batch (hphase : s.phase = .batch) (hempty : s.channel = []) : Turns s .flushing
  | last (hphase : s.phase = .last) (hempty : s.channel = []) : Turns s (.closing 2)
  | gone (hphase : s.phase = .waiting) (hempty : s.channel = []) : Turns s (.closing 1)
  | stop (hphase : s.phase = .waiting) : Turns s .last

inductive Moves (capacity : Nat) (s : St) : Act → St → Prop
  | record (entry : QueryLogEntry) : Moves capacity s (.record entry) (s.record capacity entry)
  | write {act : Act} {calls : Calls} {entry : QueryLogEntry} {rest : List QueryLogEntry}
      {next : Phase} (hact : act = .receive calls ∨ act = .more calls)
      (hchannel : s.channel = entry :: rest) (htakes : Takes s.phase next) :
      Moves capacity s act
        { s with channel := rest, events := s.events ++ [.write entry calls], phase := next }
  | flush {result : Option Cut} {next : Phase} (hflushes : Flushes s.phase next) :
      Moves capacity s (.flush result) (s.flush result next)
  | turn {act : Act} {senders cancelled : Bool} {next : Phase} (hturns : Turns s next) :
      Moves capacity s act { s with senders, cancelled, phase := next }

variable {capacity : Nat} {s t : St} {act : Act}

theorem moves_of_write {calls : Calls} {next : Phase} (htakes : Takes s.phase next)
    (hact : act = .receive calls ∨ act = .more calls) (h : s.write calls next = some t) :
    Moves capacity s act t := by
  unfold St.write at h
  split at h
  · cases h
  · rename_i entry rest hchannel
    cases h
    exact .write hact hchannel htakes

theorem moves_of_step (h : step capacity s act = some t) : Moves capacity s act t := by
  cases act with
  | record entry =>
    simp only [step] at h
    split at h
    · cases h
      exact .record entry
    · cases h
  | hangUp =>
    cases h
    exact .turn .none
  | cancel =>
    cases h
    exact .turn .none
  | receive calls =>
    simp only [step] at h
    split at h
    · rename_i hphase
      exact moves_of_write (hphase ▸ .first) (.inl rfl) h
    · cases h
  | more calls =>
    simp only [step] at h
    split at h
    · rename_i hphase
      refine moves_of_write ?_ (.inr rfl) h
      rcases hphase with hphase | hphase
      · rw [hphase]
        exact .more
      · rw [hphase]
        exact .last
    · cases h
  | empty =>
    simp only [step] at h
    split at h
    · rename_i hempty
      split at h
      · rename_i hphase
        cases h
        exact .turn (.batch hphase hempty)
      · rename_i hphase
        cases h
        exact .turn (.last hphase hempty)
      · cases h
    · cases h
  | flush result =>
    simp only [step] at h
    split at h
    · rename_i hphase
      cases h
      exact .flush (hphase ▸ .batch)
    · rename_i n hphase
      cases h
      refine .flush ?_
      rw [hphase]
      cases n with
      | zero => exact .final
      | succ n => exact .closing n
    · cases h
  | sendersGone =>
    simp only [step] at h
    split at h
    · rename_i hgone
      cases h
      exact .turn (.gone hgone.1 hgone.2.1)
    · cases h
  | stop =>
    simp only [step] at h
    split at h
    · rename_i hstop
      cases h
      exact .turn (.stop hstop.1)
    · cases h

/-! ## Accounts -/

/-- What holds in every reachable state. -/
structure Inv (capacity : Nat) (s : St) : Prop where
  fifo : s.accepted = s.written ++ s.channel
  counted : s.recorded.countP (fun r => !r.2) = s.dropped
  bounded : s.channel.length ≤ capacity
  early : s.phase.ended = false → s.late = []
  final : s.phase.ended = true → s.channel = s.late

theorem inv_init : Inv capacity {} where
  fifo := rfl
  counted := rfl
  bounded := Nat.zero_le _
  early _ := rfl
  final h := by cases h

theorem inv_record (hinv : Inv capacity s) (entry : QueryLogEntry) :
    Inv capacity (s.record capacity entry) := by
  have hfifo := hinv.fifo
  simp only [St.accepted, St.written] at hfifo
  unfold St.record
  split
  · rename_i htakes
    simp only [St.takes, Bool.and_eq_true, decide_eq_true_eq, ne_eq] at htakes
    refine ⟨?_, ?_, ?_, ?_, ?_⟩
    · simp [St.accepted, St.written, hfifo]
    · simp [hinv.counted]
    · simp only [List.length_append, List.length_singleton]
      omega
    · intro hended
      simp only [hended, Bool.false_eq_true, if_false]
      exact hinv.early hended
    · intro hended
      simp only [hended, if_true, hinv.final hended]
  · refine ⟨?_, ?_, hinv.bounded, hinv.early, hinv.final⟩
    · simp [St.accepted, St.written, hfifo]
    · simp [hinv.counted]

theorem Takes.not_ended {phase next : Phase} (h : Takes phase next) :
    phase.ended = false ∧ next.ended = false := by
  cases h <;> exact ⟨rfl, rfl⟩

theorem Takes.busy {phase next : Phase} (h : Takes phase next) :
    ¬ (next = .waiting ∨ next = .done) := by
  cases h <;> simp

theorem Flushes.ended_eq {phase next : Phase} (h : Flushes phase next) :
    next.ended = phase.ended := by
  cases h <;> rfl

/-- One step keeps the accounts. -/
theorem inv_step (hinv : Inv capacity s) (h : Moves capacity s act t) : Inv capacity t := by
  have hfifo := hinv.fifo
  simp only [St.accepted, St.written] at hfifo
  cases h with
  | record entry => exact inv_record hinv entry
  | @write _ calls entry rest next hact hchannel htakes =>
    obtain ⟨hbefore, hafter⟩ := htakes.not_ended
    have hbounded := hinv.bounded
    rw [hchannel, List.length_cons] at hbounded
    refine ⟨?_, hinv.counted, by simp only; omega, fun _ => hinv.early hbefore, ?_⟩
    · simp [St.accepted, St.written, hfifo, hchannel, Writer.Event.entry]
    · intro hended
      simp only [hafter, Bool.false_eq_true] at hended
  | @flush result next hflushes =>
    have hended := hflushes.ended_eq
    refine ⟨?_, hinv.counted, hinv.bounded, ?_, ?_⟩
    · simp [St.accepted, St.written, St.flush, hfifo, Writer.Event.entry]
    · exact fun h => hinv.early (hended ▸ h)
    · exact fun h => hinv.final (hended ▸ h)
  | @turn _ senders cancelled next hturns =>
    -- a last look finds the channel empty, and nothing was late before it
    refine ⟨hinv.fifo, hinv.counted, hinv.bounded, ?_, ?_⟩
    · intro hended
      cases hturns with
      | none => exact hinv.early hended
      | batch hphase => exact hinv.early (by rw [hphase]; rfl)
      | last => cases hended
      | gone => cases hended
      | stop hphase => exact hinv.early (by rw [hphase]; rfl)
    · intro hended
      cases hturns with
      | none => exact hinv.final hended
      | batch => cases hended
      | last hphase hempty => exact hempty.trans (hinv.early (by rw [hphase]; rfl)).symm
      | gone hphase hempty => exact hempty.trans (hinv.early (by rw [hphase]; rfl)).symm
      | stop => cases hended

/-! ## Files -/

/-- After a flush without failure nothing waits in the buffer. -/
theorem flush_buffer (w : Writer) : (w.flush none).out.buffer = [] := by
  simp [Writer.flush, Writer.drain]

theorem flush_of_buffer_nil {w : Writer} (h : w.out.buffer = []) : w.flush none = w := by
  obtain ⟨path, maxFileBytes, maxFiles, curSize, ⟨file, buffer⟩, disk⟩ := w
  simp only at h
  subst h
  simp [Writer.flush, Writer.drain, FileStore.Store.append]

/-- If no call has failed, nothing waits in the writer's buffer while it is idle or gone. -/
def Flushed (start : Writer) (s : St) : Prop :=
  (∀ e ∈ s.events, e.Succeeds) → s.phase = .waiting ∨ s.phase = .done →
    (s.writer start).out.buffer = []

theorem run_append (w : Writer) (events : List Writer.Event) (event : Writer.Event) :
    w.run (events ++ [event]) = (w.run events).step event := by
  simp [Writer.run]

theorem flushed_step {start : Writer} (hfiles : Flushed start s) (h : Moves capacity s act t) :
    Flushed start t := by
  cases h with
  | record entry =>
    unfold St.record
    split
    · exact hfiles
    · exact hfiles
  | write hcalls hchannel htakes => exact fun _ hphase => absurd hphase htakes.busy
  | @flush result next hflushes =>
    intro hok _
    have hnone : result = none := hok (.flush result) (by simp [St.flush])
    subst hnone
    simp only [St.writer, St.flush, run_append]
    exact flush_buffer _
  | @turn _ senders cancelled next hturns =>
    intro hok hphase
    cases hturns with
    | none => exact hfiles hok hphase
    | batch => simp at hphase
    | last => simp at hphase
    | gone => simp at hphase
    | stop => simp at hphase

/-- A run without failures leaves an unbroken tail of its lines, once it is flushed. -/
theorem retained_tail {disk : FileStore.Store Str UInt8} {path : Str} (maxFileBytes : Nat)
    {maxFiles : Nat} (hfiles : 1 ≤ maxFiles) (hnone : ∀ a, LogFile path a → disk.read a = none)
    {events : List Writer.Event} (hok : ∀ e ∈ events, e.Succeeds) :
    ∃ k, (((Writer.start disk path maxFileBytes maxFiles).run events).flush none).retained =
      (((events.filterMap Writer.Event.entry).map line).drop k).flatten := by
  obtain ⟨newest, old, hholds, hpieces⟩ :=
    holds_run hfiles (holds_start hnone maxFileBytes maxFiles) events hok
  have hkeeps : RollingLog.Keeps lineSize maxFileBytes maxFiles
      (events.filterMap Writer.Event.entry) (newest :: old) := by
    rw [← hpieces]
    exact RollingLog.keeps_foldl hfiles line_length_pos _
  have hconfig := config_run (.start disk path maxFileBytes maxFiles) events
  simp only [Writer.config, Writer.start, Prod.mk.injEq] at hconfig
  obtain ⟨-, hbytes, hcount⟩ := hconfig
  refine (hholds.keeps_tail ?_).1
  rw [Writer.start, hbytes, hcount]
  exact hkeeps

theorem inv_reachable (hs : (system capacity).Reachable s) : Inv capacity s := by
  refine hs.invariant (P := Inv capacity) ?_ fun _ _ _ hs hstep => inv_step hs (moves_of_step hstep)
  intro s hinit
  have hempty : s = {} := hinit
  rw [hempty]
  exact inv_init

theorem flushed_reachable {start : Writer} (hstart : start.out.buffer = [])
    (hs : (system capacity).Reachable s) : Flushed start s := by
  refine hs.invariant (P := Flushed start) ?_ fun _ _ _ hs hstep =>
    flushed_step hs (moves_of_step hstep)
  intro s hinit
  have hempty : s = {} := hinit
  rw [hempty]
  exact fun _ _ => hstart

/-- **The files follow the requests.** However requests, shutdown and writer interleave, and whichever
calls of the writer fail: what the channel took is what was handed to the writer and then what waits,
in the order of the requests; what it did not take is counted; at most `capacity` entries wait; and
when the writer is gone, what was not handed to it is what the channel took after its last look. If
there were no log files at the start and no call of the writer has failed, then whenever it is idle or
gone the log files hold an unbroken tail of what was handed to it, to its end. -/
theorem disk_log_follows_requests (capacity : Nat) (s : St) (hs : (system capacity).Reachable s) :
    s.accepted = s.written ++ s.channel ∧ s.accepted.Sublist s.entries ∧
    s.entries.length = s.accepted.length + s.dropped ∧ s.channel.length ≤ capacity ∧
    (s.phase = .done → s.accepted = s.written ++ s.late) ∧
    ∀ (disk : FileStore.Store Str UInt8) (path : Str) (maxFileBytes maxFiles : Nat),
      1 ≤ maxFiles → (∀ a, LogFile path a → disk.read a = none) →
      (∀ e ∈ s.events, e.Succeeds) → s.phase = .waiting ∨ s.phase = .done →
      ∃ k, (s.writer (.start disk path maxFileBytes maxFiles)).retained =
        ((s.written.map line).drop k).flatten := by
  have hinv := inv_reachable hs
  refine ⟨hinv.fifo, List.filter_sublist.map _, ?_, hinv.bounded, ?_, ?_⟩
  · rw [St.entries, St.accepted, List.length_map, List.length_map, ← hinv.counted,
      ← List.countP_eq_length_filter, List.length_eq_countP_add_countP Prod.snd]
    simp
  · intro hdone
    rw [hinv.fifo, hinv.final (by rw [hdone]; rfl)]
  · intro disk path maxFileBytes maxFiles hfiles hnone hok hidle
    have hflushed : Flushed (.start disk path maxFileBytes maxFiles) s := flushed_reachable rfl hs
    obtain ⟨k, hk⟩ := retained_tail maxFileBytes hfiles hnone hok
    refine ⟨k, ?_⟩
    rw [← flush_of_buffer_nil (hflushed hok hidle)]
    exact hk

/-- Calls that all succeed. -/
def fineCalls : Calls := ⟨none, fun _ => false, .ok 0⟩

theorem fineCalls_succeeds (entry : QueryLogEntry) :
    (Writer.Event.write entry fineCalls).Succeeds := ⟨rfl, fun _ => rfl, 0, rfl⟩

/-- The state after one entry went its way to the file. -/
def oneWritten : St where
  events := [.write (sampleEntry 1) fineCalls, .flush none]
  recorded := [(sampleEntry 1, true)]

theorem oneWritten_reachable : (system 1).Reachable oneWritten := by
  have hinit : (system 1).Reachable {} := .init rfl
  have hrecord := hinit.step (a := Act.record (sampleEntry 1)) rfl
  have hreceive := hrecord.step (a := Act.receive fineCalls) rfl
  have hempty := hreceive.step (a := Act.empty) rfl
  exact hempty.step (a := Act.flush none) rfl

theorem disk_log_follows_requests_one :
    oneWritten.accepted = oneWritten.written ∧ ∃ k,
      (oneWritten.writer (.start emptyDisk ['q'] 100 2)).retained =
        ((oneWritten.written.map line).drop k).flatten := by
  have hok : ∀ e ∈ oneWritten.events, e.Succeeds := by
    intro e he
    simp only [oneWritten, List.mem_cons, List.not_mem_nil, or_false] at he
    rcases he with rfl | rfl
    · exact fineCalls_succeeds _
    · exact rfl
  obtain ⟨hfifo, -, -, -, -, hfiles⟩ :=
    disk_log_follows_requests 1 oneWritten oneWritten_reachable
  exact ⟨hfifo, hfiles emptyDisk ['q'] 100 2 (by decide) (fun _ _ => rfl) hok (.inl rfl)⟩

-- an entry that comes after the last look: taken, never written, not counted
example : (LTS.exec (step 8192) {} [.cancel, .stop, .empty, .record (sampleEntry 1), .flush none,
    .flush none]).map (fun s => (s.phase, s.accepted.length, s.written.length, s.dropped)) =
    some (.done, 1, 0, 0) := rfl

/-! ## Catching up -/

/-- The steps of the writer. -/
def Act.ofWriter : Act → Bool
  | .record _ => false
  | .hangUp => false
  | .cancel => false
  | _ => true

/-- The writer alone gets from one state to another. -/
def Leads (capacity : Nat) (s t : St) : Prop :=
  ∃ acts, (∀ act ∈ acts, act.ofWriter = true) ∧ LTS.exec (step capacity) s acts = some t

theorem Leads.refl (capacity : Nat) (s : St) : Leads capacity s s := ⟨[], by simp, rfl⟩

theorem Leads.cons {u : St} (act : Act) (hact : act.ofWriter = true) (hstep : step capacity s act = some t)
    (h : Leads capacity t u) : Leads capacity s u := by
  obtain ⟨acts, hacts, hexec⟩ := h
  refine ⟨act :: acts, ?_, ?_⟩
  · intro a ha
    rw [List.mem_cons] at ha
    rcases ha with rfl | ha
    · exact hact
    · exact hacts a ha
  · rw [LTS.exec, hstep]
    exact hexec

/-- Everything that waited is written. -/
structure CaughtUp (s t : St) : Prop where
  channel : t.channel = []
  written : t.written = s.written ++ s.channel
  recorded : t.recorded = s.recorded
  phase : t.phase = .waiting ∨ t.phase = .done

/-- The loop of `try_recv`, to its end. -/
theorem drain_leads (capacity : Nat) (channel : List QueryLogEntry) :
    ∀ s : St, s.channel = channel → (s.phase = .batch ∨ s.phase = .last) →
      ∃ t, Leads capacity s t ∧ CaughtUp s t := by
  induction channel with
  | nil =>
    intro s hchannel hphase
    rcases hphase with hphase | hphase
    · refine ⟨{ s with events := s.events ++ [.flush none], phase := .waiting }, ?_, ?_⟩
      · refine Leads.cons .empty rfl (t := { s with phase := .flushing }) ?_
          (Leads.cons (.flush none) rfl rfl (.refl _ _))
        simp [step, hchannel, hphase]
      · exact ⟨hchannel, by simp [St.written, hchannel, Writer.Event.entry], rfl, .inl rfl⟩
    · refine ⟨{ s with events := s.events ++ [.flush none] ++ [.flush none], phase := .done }, ?_, ?_⟩
      · refine Leads.cons .empty rfl (t := { s with phase := .closing 2 }) ?_
          (Leads.cons (.flush none) rfl rfl
            (Leads.cons (.flush none) rfl rfl (.refl _ _)))
        simp [step, hchannel, hphase]
      · exact ⟨hchannel, by simp [St.written, hchannel, Writer.Event.entry], rfl, .inr rfl⟩
  | cons entry rest ih =>
    intro s hchannel hphase
    obtain ⟨t, hleads, hcaught⟩ := ih
      { s with channel := rest, events := s.events ++ [.write entry fineCalls] } rfl hphase
    refine ⟨t, hleads.cons (.more fineCalls) rfl ?_, hcaught.channel, ?_, hcaught.recorded,
      hcaught.phase⟩
    · simp [step, hphase, St.write, hchannel]
    · rw [hcaught.written, hchannel]
      simp [St.written, Writer.Event.entry]

/-- Unless it has had its last look, the writer alone can write all that waits. -/
theorem writer_can_catch_up (capacity : Nat) (s : St) (hlook : s.phase.ended = false) :
    ∃ t, Leads capacity s t ∧ CaughtUp s t := by
  -- from the wait: the first entry of a batch
  have hwaiting : ∀ s : St, s.phase = .waiting → ∃ t, Leads capacity s t ∧ CaughtUp s t := by
    intro s hphase
    cases hchannel : s.channel with
    | nil => exact ⟨s, .refl _ _, hchannel, by simp [hchannel], rfl, .inl hphase⟩
    | cons entry rest =>
      obtain ⟨t, hleads, hcaught⟩ := drain_leads capacity rest
        { s with
          channel := rest
          events := s.events ++ [.write entry fineCalls]
          phase := .batch } rfl (.inl rfl)
      refine ⟨t, hleads.cons (.receive fineCalls) rfl ?_, hcaught.channel, ?_,
        hcaught.recorded, hcaught.phase⟩
      · simp [step, hphase, St.write, hchannel]
      · rw [hcaught.written, hchannel]
        simp [St.written, Writer.Event.entry]
  cases hphase : s.phase with
  | waiting => exact hwaiting s hphase
  | batch => exact drain_leads capacity _ s rfl (.inl hphase)
  | last => exact drain_leads capacity _ s rfl (.inr hphase)
  | flushing =>
    obtain ⟨t, hleads, hcaught⟩ := hwaiting (s.flush none .waiting) rfl
    refine ⟨t, hleads.cons (.flush none) rfl ?_, hcaught.channel, ?_, hcaught.recorded,
      hcaught.phase⟩
    · simp [step, hphase]
    · rw [hcaught.written]
      simp [St.written, St.flush, Writer.Event.entry]
  | closing n =>
    rw [hphase] at hlook
    cases hlook
  | done =>
    rw [hphase] at hlook
    cases hlook

end RustyDns.L5.DiskChannel
