import RustyDns.Lib.FileStore
import RustyDns.Lib.Quoted
import RustyDns.Lib.RollingLog
import RustyDns.Lib.Written
import RustyDns.L4Daemon.QueryLog

/-!
# The query log on disk

`Writer` of `rustydnsd/src/query_log_disk.rs`, with the directory it writes to. How its calls go is an
input: each may fail, and a write may leave any part of what waits in the buffer behind. The modes of
the files, the metrics and the warnings are left out. Sizes are natural numbers: the 64-bit sum of
`write_entry` cannot wrap, as no file is that long.

In runs without a failed call the writer is a log in pieces (`RollingLog`), the active file the newest
of them and `.n` the one `n` rotations old.

Results:
* `shifted_read`: the cascade of renames moves every backup up by one.
* `Holds.rotate`, `Holds.writeEntry`: one rotation and one write on the files are one on the pieces.
* `rotation_keeps_tail`: what the files hold after any run.
-/

namespace RustyDns.L4.DiskLog

open RustyDns.Lib RustyDns.Lib.FileStore RustyDns.L4.Pipeline

/-! ## The writer -/

/-- What a failed write to the file did with the bytes that waited: some reached the file, and of the
rest some are lost. -/
structure Cut where
  reached : Nat
  lost : Nat

/-- `write_all` into the buffer: on success any part of what waits may reach the file, on failure
some of the new bytes may have been taken. -/
inductive WriteResult where
  | ok (reached : Nat)
  | error (taken : Nat) (cut : Cut)

/-- The calls on the directory, by what they are for. -/
inductive DirCall where
  | removeOldest
  | shift (n : Nat)
  | moveActive
  | reopen
  deriving DecidableEq

/-- How the calls of one `write_entry` go. -/
structure Calls where
  flush : Option Cut
  fails : DirCall → Bool
  write : WriteResult

/-- mirrors crates/rustydnsd/src/query_log_disk.rs:171-183 -/
structure Writer where
  path : Str
  maxFileBytes : Nat
  maxFiles : Nat
  curSize : Nat
  out : Output UInt8
  disk : Store Str UInt8

/-- mirrors crates/rustydnsd/src/query_log_disk.rs:307-311 -/
def numbered (path : Str) (n : Nat) : Str := path ++ '.' :: Nat.toDigits 10 n

/-- The bytes of an entry's line. -/
def line (entry : QueryLogEntry) : List UInt8 := Str.asBytes (entry.toJson ++ ['\n'])

/-- The renames of the backups `.k` … `.1` to the next number, from the top.
mirrors crates/rustydnsd/src/query_log_disk.rs:272-280 -/
def shifted (path : Str) (fails : DirCall → Bool) (k : Nat) (disk : Store Str UInt8) :
    Store Str UInt8 :=
  (List.range' 1 k).reverse.foldl (fun disk n =>
    if fails (.shift n) then disk
    else (disk.rename (numbered path n) (numbered path (n + 1))).getD disk) disk

namespace Writer

/-- The writer on a directory whose target could be opened.
mirrors crates/rustydnsd/src/query_log_disk.rs:95-126 -/
def start (disk : Store Str UInt8) (path : Str) (maxFileBytes maxFiles : Nat) : Writer :=
  let opened := disk.openAppend path
  { path := path
    maxFileBytes := maxFileBytes
    maxFiles := maxFiles
    curSize := (opened.1.data opened.2).length
    out := ⟨opened.2, []⟩
    disk := opened.1 }

variable (w : Writer)

/-- Bytes go from the buffer to the file. -/
def drain (cut : Cut) : Writer :=
  { w with
    disk := w.disk.append w.out.file (w.out.buffer.take cut.reached)
    out := { w.out with buffer := w.out.buffer.drop (cut.reached + cut.lost) } }

/-- mirrors crates/rustydnsd/src/query_log_disk.rs:251-256 -/
def flush (result : Option Cut) : Writer :=
  w.drain (result.getD ⟨w.out.buffer.length, 0⟩)

/-- The active file under another name or, without backups, under none; `none` ends the rotation.
mirrors crates/rustydnsd/src/query_log_disk.rs:282-291 -/
def moveActive (fails : Bool) (disk : Store Str UInt8) : Option (Store Str UInt8) :=
  if 2 ≤ w.maxFiles then
    if fails then none else disk.rename w.path (numbered w.path 1)
  else some (if fails then disk else (disk.remove w.path).getD disk)

/-- mirrors crates/rustydnsd/src/query_log_disk.rs:293-303 -/
def reopen (fails : Bool) (disk : Store Str UInt8) : Writer :=
  if fails then { w with disk := disk }
  else
    let opened := disk.openAppend w.path
    { w with disk := opened.1, out := ⟨opened.2, []⟩, curSize := 0 }

/-- mirrors crates/rustydnsd/src/query_log_disk.rs:261-304 -/
def rotate (calls : Calls) : Writer :=
  let w := w.flush calls.flush
  if calls.flush.isSome then w
  else
    let oldest := numbered w.path (w.maxFiles - 1)
    let disk := if calls.fails .removeOldest then w.disk else (w.disk.remove oldest).getD w.disk
    let disk := shifted w.path calls.fails (w.maxFiles - 1 - 1) disk
    match w.moveActive (calls.fails .moveActive) disk with
    | none => { w with disk := disk }
    | some disk => w.reopen (calls.fails .reopen) disk

def writeAll (bytes : List UInt8) : WriteResult → Writer
  | .ok reached =>
    { w with
      out := { w.out with buffer := w.out.buffer ++ bytes }
      curSize := w.curSize + bytes.length }.drain ⟨reached, 0⟩
  | .error taken cut =>
    { w with out := { w.out with buffer := w.out.buffer ++ bytes.take taken } }.drain cut

/-- mirrors crates/rustydnsd/src/query_log_disk.rs:217-249 -/
def writeEntry (entry : QueryLogEntry) (calls : Calls) : Writer :=
  let bytes := line entry
  let w := if w.maxFileBytes < w.curSize + bytes.length ∧ 0 < w.curSize then w.rotate calls else w
  w.writeAll bytes calls.write

/-- What `run` does with the writer, in the order the channel and the shutdown make it.
mirrors crates/rustydnsd/src/query_log_disk.rs:186-215 -/
inductive Event where
  | write (entry : QueryLogEntry) (calls : Calls)
  | flush (result : Option Cut)

def step : Event → Writer
  | .write entry calls => w.writeEntry entry calls
  | .flush result => w.flush result

def run (events : List Event) : Writer := events.foldl step w

/-- The entries a run writes. -/
def Event.entry : Event → Option QueryLogEntry
  | .write entry _ => some entry
  | .flush _ => none

/-- No call of the event fails. -/
def Event.Succeeds : Event → Prop
  | .write _ calls =>
    calls.flush = none ∧ (∀ call, calls.fails call = false) ∧ ∃ reached, calls.write = .ok reached
  | .flush result => result = none

/-- The names of the log files, oldest first. -/
def logNames : List Str :=
  (List.range' 1 (w.maxFiles - 1)).reverse.map (numbered w.path) ++ [w.path]

/-- What the log files hold, oldest first. -/
def retained : List UInt8 := w.logNames.flatMap fun a => (w.disk.read a).getD []

end Writer

/-! ## Names -/

/-- The active file or a numbered one. -/
def LogFile (path a : Str) : Prop := a = path ∨ ∃ n, a = numbered path n

section
variable {path : Str} {m n : Nat}

theorem numbered_ne (path : Str) (n : Nat) : numbered path n ≠ path := by
  simp [numbered]

theorem numbered_inj : numbered path m = numbered path n ↔ m = n := by
  refine ⟨fun h => ?_, fun h => by rw [h]⟩
  rw [numbered, numbered, List.append_cancel_left_eq] at h
  exact toDigits_inj (by decide) (by decide) _ _ (List.cons.inj h).2

theorem numbered_ne_numbered (h : m ≠ n) : numbered path m ≠ numbered path n :=
  fun heq => h (numbered_inj.1 heq)

theorem line_length_pos (entry : QueryLogEntry) : 0 < (line entry).length := by
  have hfeed : Str.asBytes ['\n'] = [10] := by decide
  rw [line, Str.asBytes_append, hfeed, List.length_append]
  exact Nat.lt_add_left _ (by decide)

/-! ## The cascade of renames -/

/-- Backup `n` is now backup `n + 1`, `.1` is free, and no other file moved. -/
structure ShiftedUp (path : Str) (k : Nat) (disk disk' : Store Str UInt8) : Prop where
  first : disk'.read (numbered path 1) = none
  up : ∀ n, 1 ≤ n → n ≤ k → disk'.read (numbered path (n + 1)) = disk.read (numbered path n)
  other : ∀ a, (∀ n, 1 ≤ n → n ≤ k + 1 → a ≠ numbered path n) → disk'.read a = disk.read a

theorem shifted_succ (path : Str) (fails : DirCall → Bool) (k : Nat) (disk : Store Str UInt8) :
    shifted path fails (k + 1) disk = shifted path fails k
      (if fails (.shift (k + 1)) then disk
        else (disk.rename (numbered path (k + 1)) (numbered path (k + 2))).getD disk) := by
  rw [shifted, List.range'_1_concat, List.reverse_append, List.reverse_singleton,
    List.singleton_append, List.foldl_cons, Nat.add_comm 1 k]
  rfl

/-- From the top down every rename finds its target free. -/
theorem shifted_read {fails : DirCall → Bool} (hfails : ∀ n, fails (.shift n) = false) {k : Nat}
    {disk : Store Str UInt8} (hfree : disk.read (numbered path (k + 1)) = none) :
    ShiftedUp path k disk (shifted path fails k disk) := by
  induction k generalizing disk with
  | zero => exact ⟨hfree, fun n h1 h0 => by omega, fun _ _ => rfl⟩
  | succ k ih =>
    rw [shifted_succ, hfails, if_neg Bool.false_ne_true]
    have hread := Store.read_rename_free (a := numbered path (k + 1)) hfree
    have hrest := ih (by rw [hread]; simp [numbered_inj])
    refine ⟨hrest.first, fun n h1 hn => ?_, fun a ha => ?_⟩
    · rcases Nat.lt_or_eq_of_le hn with hlt | rfl
      · rw [hrest.up n h1 (by omega), hread, if_neg (numbered_ne_numbered (by omega)),
          if_neg (numbered_ne_numbered (by omega))]
      · -- the topmost backup is not touched again
        rw [hrest.other _ fun n _ hle => numbered_ne_numbered (by omega), hread, if_pos rfl]
    · rw [hrest.other a fun n h1 hle => ha n h1 (by omega), hread, if_neg (ha _ (by omega) le_rfl),
        if_neg (ha _ (by omega) (by omega))]

end

/-! ## The files as pieces -/

/-- The text of a piece. -/
def text (piece : List QueryLogEntry) : List UInt8 := piece.flatMap line

theorem text_flatten (pieces : List (List QueryLogEntry)) :
    text pieces.flatten = pieces.flatMap text := by
  simp only [text, List.flatMap_def, List.map_flatten, List.flatten_flatten, List.map_map]
  rfl

def lineSize (entry : QueryLogEntry) : Nat := (line entry).length

theorem length_text (piece : List QueryLogEntry) :
    (text piece).length = RollingLog.total lineSize piece := by
  simp only [text, RollingLog.total, List.length_flatMap]
  rfl

/-- The files hold the pieces: `.n` the one `n` rotations old, and the active file the newest, of
which a part may wait in the buffer. -/
structure Holds (w : Writer) (newest : List QueryLogEntry) (old : List (List QueryLogEntry)) :
    Prop where
  active : w.disk.dir w.path = some w.out.file
  newest_eq : w.disk.data w.out.file ++ w.out.buffer = text newest
  size : w.curSize = (text newest).length
  backup : ∀ n, w.disk.read (numbered w.path (n + 1)) = (old[n]?).map text
  unused : w.disk.read (numbered w.path 0) = none

section
variable {w : Writer} {newest : List QueryLogEntry} {old : List (List QueryLogEntry)}

/-- Nothing is lost on the way from the buffer to the file. -/
theorem Holds.drain (h : Holds w newest old) (reached : Nat) :
    Holds (w.drain ⟨reached, 0⟩) newest old := by
  obtain ⟨-, hother⟩ := Store.read_append h.active (w.out.buffer.take reached)
  refine ⟨h.active, ?_, h.size, fun n => ?_, ?_⟩
  · simp only [Writer.drain, Store.append, Function.update_self, Nat.add_zero]
    rw [List.append_assoc, List.take_append_drop, h.newest_eq]
  · exact (hother _ (numbered_ne _ _)).trans (h.backup n)
  · exact (hother _ (numbered_ne _ _)).trans h.unused

theorem Holds.flush (h : Holds w newest old) : Holds (w.flush none) newest old := h.drain _

/-- After a flush the active file has all of its piece. -/
theorem Holds.read_active_flush (h : Holds w newest old) :
    (w.flush none).disk.read w.path = some (text newest) := by
  refine (Store.read_append h.active (w.out.buffer.take w.out.buffer.length)).1.trans ?_
  rw [List.take_length, h.newest_eq]

/-! ### One rotation -/

/-- The directory before the active file moves: the oldest backup is gone and the others are up. -/
theorem Holds.read_shifted (h : Holds w newest old) (hkeep : 1 ≤ w.maxFiles)
    (hold : old.length ≤ w.maxFiles - 1) {fails : DirCall → Bool}
    (hfails : ∀ call, fails call = false) {disk : Store Str UInt8}
    (hdisk : shifted w.path fails (w.maxFiles - 1 - 1)
      ((w.disk.remove (numbered w.path (w.maxFiles - 1))).getD w.disk) = disk) :
    disk.read w.path = w.disk.read w.path ∧ disk.read (numbered w.path 0) = none ∧
    disk.read (numbered w.path 1) = none ∧
    ∀ n, disk.read (numbered w.path (n + 2)) =
      if n + 2 < w.maxFiles then (old[n]?).map text else none := by
  have hremove := Store.read_remove (s := w.disk) (numbered w.path (w.maxFiles - 1))
  have hfree : ((w.disk.remove (numbered w.path (w.maxFiles - 1))).getD w.disk).read
      (numbered w.path (w.maxFiles - 1 - 1 + 1)) = none := by
    rw [hremove]
    split
    · rfl
    · -- a single file: there is no backup
      rename_i hne
      rw [numbered_inj] at hne
      rw [h.backup, List.getElem?_eq_none (by omega), Option.map_none]
  have hshift := shifted_read (fun n => hfails (.shift n)) hfree
  rw [hdisk] at hshift
  refine ⟨?_, ?_, hshift.first, fun n => ?_⟩
  · rw [hshift.other _ fun n _ _ => (numbered_ne _ n).symm, hremove,
      if_neg (numbered_ne _ _).symm]
  · rw [hshift.other _ fun n hn _ => numbered_ne_numbered (by omega), hremove, h.unused, ite_self]
  · split
    · rename_i hn
      have hne : n + 1 ≠ w.maxFiles - 1 := by omega
      rw [hshift.up (n + 1) (by omega) (by omega), hremove, if_neg (numbered_ne_numbered hne),
        h.backup]
    · rename_i hn
      have hnone : w.disk.read (numbered w.path (n + 2)) = none := by
        rw [h.backup, List.getElem?_eq_none (by omega), Option.map_none]
      rw [hshift.other, hremove, hnone, ite_self]
      exact fun m _ hm => numbered_ne_numbered (by omega)

/-- The active file becomes `.1`, or is dropped if there are no backups. -/
theorem moveActive_spec (hkeep : 1 ≤ w.maxFiles) {disk : Store Str UInt8}
    (hactive : disk.read w.path = some (text newest))
    (hzero : disk.read (numbered w.path 0) = none) (hone : disk.read (numbered w.path 1) = none)
    (hup : ∀ n, disk.read (numbered w.path (n + 2)) =
      if n + 2 < w.maxFiles then (old[n]?).map text else none) :
    ∃ disk', w.moveActive false disk = some disk' ∧ disk'.read w.path = none ∧
      disk'.read (numbered w.path 0) = none ∧
      ∀ n, disk'.read (numbered w.path (n + 1)) =
        (((newest :: old).take (w.maxFiles - 1))[n]?).map text := by
  have hne := numbered_ne w.path
  by_cases htwo : 2 ≤ w.maxFiles
  · obtain ⟨k, hk⟩ := Nat.exists_eq_add_of_le' htwo
    have hsome : disk.rename w.path (numbered w.path 1) ≠ none := by
      rw [Ne, Store.rename_eq_none_iff, hactive]
      exact Option.some_ne_none _
    obtain ⟨disk', hrename⟩ := Option.ne_none_iff_exists'.1 hsome
    have hread := Store.read_rename hrename
    refine ⟨disk', by rw [Writer.moveActive, if_pos htwo, if_neg Bool.false_ne_true, hrename], ?_,
      ?_, fun n => ?_⟩
    · rw [hread, if_neg (hne 1).symm, if_pos rfl]
    · rw [hread, if_neg (numbered_ne_numbered (by omega)), if_neg (hne 0), hzero]
    · cases n with
      | zero => simp [hread, hactive, hk]
      | succ n =>
        rw [hread, if_neg (numbered_ne_numbered (by omega)), if_neg (hne _), hup, hk]
        simp only [Nat.add_succ_sub_one, List.take_succ_cons, List.getElem?_cons_succ,
          List.getElem?_take, Nat.add_lt_add_iff_right]
        split <;> simp
  · have hread := Store.read_remove (s := disk) w.path
    refine ⟨(disk.remove w.path).getD disk, by simp [Writer.moveActive, htwo], ?_, ?_, fun n => ?_⟩
    · rw [hread, if_pos rfl]
    · rw [hread, if_neg (hne 0), hzero]
    · have hlast : w.maxFiles - 1 = 0 := by omega
      rw [hread, if_neg (hne _), hlast]
      cases n with
      | zero => simpa using hone
      | succ n => rw [hup, if_neg (by omega)]; simp

theorem Holds.rotate (h : Holds w newest old) (hkeep : 1 ≤ w.maxFiles)
    (hold : old.length ≤ w.maxFiles - 1) {calls : Calls} (hflush : calls.flush = none)
    (hfails : ∀ call, calls.fails call = false) :
    Holds (w.rotate calls) [] ((newest :: old).take (w.maxFiles - 1)) := by
  have hactive := h.read_active_flush
  obtain ⟨hpath, hzero, hone, hup⟩ := h.flush.read_shifted hkeep hold hfails rfl
  obtain ⟨disk, hmove, hfree, hzero, hbackup⟩ :=
    moveActive_spec (w := w.flush none) hkeep (hpath.trans hactive) hzero hone hup
  obtain ⟨hdir, hempty, hother⟩ := Store.openAppend_of_read_none hfree
  have hrotate : w.rotate calls = (w.flush none).reopen false disk := by
    simp only [Writer.rotate, hflush, hfails, Option.isSome_none, Bool.false_eq_true, if_false]
    rw [hmove]
  rw [hrotate]
  refine ⟨hdir, (List.append_nil _).trans hempty, rfl, fun n => ?_, ?_⟩
  · exact (hother _ (numbered_ne _ _)).trans (hbackup n)
  · exact (hother _ (numbered_ne _ _)).trans hzero

/-! ### One write -/

theorem Holds.writeAll (h : Holds w newest old) (entry : QueryLogEntry) (reached : Nat) :
    Holds (w.writeAll (line entry) (.ok reached)) (newest ++ [entry]) old := by
  have hbuffered : Holds
      { w with
        out := { w.out with buffer := w.out.buffer ++ line entry }
        curSize := w.curSize + (line entry).length } (newest ++ [entry]) old := by
    refine ⟨h.active, ?_, ?_, h.backup, h.unused⟩
    · simp only [← List.append_assoc, h.newest_eq]
      simp [text]
    · simp [text, h.size]
  exact hbuffered.drain reached

/-- One write to the files is one write to the pieces. -/
theorem Holds.writeEntry (h : Holds w newest old) (hlen : (newest :: old).length ≤ w.maxFiles)
    (entry : QueryLogEntry) {calls : Calls} (hok : (Writer.Event.write entry calls).Succeeds) :
    ∃ newest' old', Holds (w.writeEntry entry calls) newest' old' ∧
      RollingLog.write lineSize w.maxFileBytes w.maxFiles (newest :: old) entry =
        newest' :: old' := by
  obtain ⟨hflush, hfails, reached, hwrite⟩ := hok
  rw [List.length_cons] at hlen
  have hfull : RollingLog.Full lineSize w.maxFileBytes newest entry ↔
      w.maxFileBytes < w.curSize + (line entry).length ∧ 0 < w.curSize := by
    rw [h.size, length_text]
    rfl
  unfold Writer.writeEntry
  simp only [hwrite]
  split
  · rename_i hroom
    obtain ⟨k, hk⟩ := Nat.exists_eq_add_of_le' (Nat.one_le_of_lt hlen)
    have hrotate := h.rotate (Nat.one_le_of_lt hlen) (by omega) hflush hfails
    refine ⟨_, _, hrotate.writeAll entry reached, ?_⟩
    rw [RollingLog.write_of_full _ _ _ (hfull.2 hroom), RollingLog.roll, hk]
    rfl
  · rename_i hroom
    refine ⟨_, _, h.writeAll entry reached, ?_⟩
    rw [RollingLog.write_of_not_full _ _ _ (mt hfull.1 hroom)]

end

/-! ## Runs -/

section
variable {w : Writer} {newest : List QueryLogEntry} {old : List (List QueryLogEntry)}

/-- What no step changes. -/
def Writer.config (w : Writer) : Str × Nat × Nat := (w.path, w.maxFileBytes, w.maxFiles)

theorem config_rotate (w : Writer) (calls : Calls) : (w.rotate calls).config = w.config := by
  unfold Writer.rotate Writer.reopen
  simp only
  split
  · rfl
  · split
    · rfl
    · split <;> rfl

theorem config_step (w : Writer) (event : Writer.Event) : (w.step event).config = w.config := by
  cases event with
  | flush result => rfl
  | write entry calls =>
    have hwrite : ∀ v : Writer, (v.writeAll (line entry) calls.write).config = v.config := by
      intro v
      unfold Writer.writeAll
      split <;> rfl
    simp only [Writer.step, Writer.writeEntry, hwrite]
    split
    · exact config_rotate w calls
    · rfl

theorem config_run (w : Writer) (events : List Writer.Event) : (w.run events).config = w.config := by
  induction events using List.reverseRecOn with
  | nil => rfl
  | append_singleton events event ih =>
    rw [Writer.run, List.foldl_append, List.foldl_cons, List.foldl_nil, config_step]
    exact ih

theorem holds_start {disk : Store Str UInt8} {path : Str}
    (hnone : ∀ a, LogFile path a → disk.read a = none) (maxFileBytes maxFiles : Nat) :
    Holds (.start disk path maxFileBytes maxFiles) [] [] := by
  obtain ⟨hdir, hempty, hother⟩ := Store.openAppend_of_read_none (hnone path (.inl rfl))
  refine ⟨hdir, (List.append_nil _).trans hempty, ?_, fun n => ?_, ?_⟩
  · exact congrArg List.length hempty
  · exact (hother _ (numbered_ne _ _)).trans (hnone _ (.inr ⟨_, rfl⟩))
  · exact (hother _ (numbered_ne _ _)).trans (hnone _ (.inr ⟨_, rfl⟩))

/-- A run without failures writes its entries to the pieces. -/
theorem holds_run {w : Writer} (hkeep : 1 ≤ w.maxFiles) (hstart : Holds w [] [])
    (events : List Writer.Event) (hok : ∀ e ∈ events, e.Succeeds) :
    ∃ newest old, Holds (w.run events) newest old ∧
      (events.filterMap Writer.Event.entry).foldl
        (RollingLog.write lineSize w.maxFileBytes w.maxFiles) [[]] = newest :: old := by
  induction events using List.reverseRecOn with
  | nil => exact ⟨[], [], hstart, rfl⟩
  | append_singleton events event ih =>
    obtain ⟨newest, old, hholds, hpieces⟩ := ih fun e he => hok e (List.mem_append_left _ he)
    have hevent := hok event (by simp)
    have hconfig := config_run w events
    simp only [Writer.config, Prod.mk.injEq] at hconfig
    obtain ⟨-, hbytes, hfiles⟩ := hconfig
    have hrun : w.run (events ++ [event]) = (w.run events).step event := by
      simp [Writer.run]
    rw [hrun, List.filterMap_append, List.foldl_append, hpieces]
    cases event with
    | flush result =>
      obtain rfl : result = none := hevent
      exact ⟨newest, old, hholds.flush, rfl⟩
    | write entry calls =>
      have hkeeps : RollingLog.Keeps lineSize w.maxFileBytes w.maxFiles
          (events.filterMap Writer.Event.entry) _ :=
        RollingLog.keeps_foldl hkeep line_length_pos _
      have hlen : (newest :: old).length ≤ (w.run events).maxFiles := by
        rw [hfiles, ← hpieces]
        exact hkeeps.length_le
      obtain ⟨newest', old', hholds', hwrite⟩ := hholds.writeEntry hlen entry hevent
      rw [hbytes, hfiles] at hwrite
      have hentry : [Writer.Event.write entry calls].filterMap Writer.Event.entry = [entry] := rfl
      rw [hentry, List.foldl_cons, List.foldl_nil]
      exact ⟨newest', old', hholds', hwrite⟩

/-! ## What the files hold -/

/-- The files read oldest first, after a flush. -/
theorem Holds.retained_flush (h : Holds w newest old) (hold : old.length ≤ w.maxFiles - 1) :
    (w.flush none).retained = text (newest :: old).reverse.flatten := by
  have hbackups : ((List.range' 1 (w.maxFiles - 1)).reverse.flatMap fun n =>
      ((w.flush none).disk.read (numbered w.path n)).getD []) = old.reverse.flatMap text :=
    RollingLog.flatMap_numbered hold fun n _ => congrArg (·.getD []) (h.flush.backup n)
  have hnames : (w.flush none).logNames =
    (List.range' 1 (w.maxFiles - 1)).reverse.map (numbered w.path) ++ [w.path] := rfl
  rw [Writer.retained, hnames, List.flatMap_append, List.flatMap_map, hbackups,
    List.flatMap_singleton, h.read_active_flush, Option.getD_some]
  rw [text_flatten, List.reverse_cons, List.flatMap_append, List.flatMap_singleton]

/-- The log files that are there are the active one and as many backups as there are old pieces. -/
theorem Holds.mem_logNames (h : Holds w newest old) (hold : old.length ≤ w.maxFiles - 1) {a : Str}
    (ha : LogFile w.path a) (hread : w.disk.read a ≠ none) : a ∈ w.logNames := by
  rw [Writer.logNames, List.mem_append, List.mem_singleton]
  rcases ha with rfl | ⟨n, rfl⟩
  · exact .inr rfl
  · cases n with
    | zero => exact absurd h.unused hread
    | succ n =>
      have hn : n < old.length := by
        by_contra hge
        rw [h.backup, List.getElem?_eq_none (by omega), Option.map_none] at hread
        exact hread rfl
      refine .inl (List.mem_map.2 ⟨n + 1, ?_, rfl⟩)
      rw [List.mem_reverse, List.mem_range'_1]
      omega

theorem Holds.encard_le (h : Holds w newest old) (hlen : (newest :: old).length ≤ w.maxFiles) :
    {a | LogFile w.path a ∧ w.disk.read a ≠ none}.encard ≤ w.maxFiles := by
  rw [List.length_cons] at hlen
  have hsub : {a | LogFile w.path a ∧ w.disk.read a ≠ none} ⊆ (w.logNames.toFinset : Set Str) := by
    rintro a ⟨ha, hread⟩
    exact List.mem_toFinset.2 (h.mem_logNames (by omega) ha hread)
  have hcount : w.logNames.length = w.maxFiles := by
    simp [Writer.logNames]
    omega
  refine (Set.encard_le_encard hsub).trans ?_
  rw [Set.encard_coe_eq_coe_finsetCard, Nat.cast_le, ← hcount]
  exact w.logNames.toFinset_card_le

/-- A log file holds one of the pieces, of the newest perhaps only the front. -/
theorem Holds.exists_piece (h : Holds w newest old) {a : Str} (ha : LogFile w.path a)
    {content : List UInt8} (hread : w.disk.read a = some content) :
    ∃ p ∈ newest :: old, (w.flush none).disk.read a = some (text p) ∧ content <+: text p := by
  rcases ha with rfl | ⟨n, rfl⟩
  · refine ⟨newest, List.mem_cons_self, h.read_active_flush, w.out.buffer, ?_⟩
    rw [Store.read, h.active, Option.map_some] at hread
    rw [← Option.some.inj hread, h.newest_eq]
  · cases n with
    | zero =>
      rw [h.unused] at hread
      cases hread
    | succ n =>
      have hbackup := h.backup n
      rw [hread] at hbackup
      obtain ⟨p, hp, hcontent⟩ := Option.map_eq_some_iff.1 hbackup.symm
      refine ⟨p, List.mem_cons_of_mem _ (List.mem_of_getElem? hp), ?_, by rw [hcontent]⟩
      exact (h.flush.backup n).trans (by rw [hp, Option.map_some])

/-- The text of a piece that is small enough or has a single entry. -/
theorem length_text_le_or_mem {cap : Nat} {stream p : List QueryLogEntry}
    (hsmall : RollingLog.total lineSize p ≤ cap ∨ p.length ≤ 1) (hsub : p ⊆ stream) :
    (text p).length ≤ cap ∨ text p ∈ stream.map line := by
  rcases hsmall with hsmall | hone
  · exact .inl ((length_text p).trans_le hsmall)
  · cases p with
    | nil => exact .inl (Nat.zero_le _)
    | cons entry rest =>
      obtain rfl : rest = [] := List.length_eq_zero_iff.1 (by simpa using hone)
      refine .inr (List.mem_map.2 ⟨entry, hsub (List.mem_singleton_self _), ?_⟩)
      rw [text, List.flatMap_singleton]

/-- What the files hold while the pieces are those kept of a stream. -/
theorem Holds.keeps_tail {stream : List QueryLogEntry} (h : Holds w newest old)
    (hkeeps : RollingLog.Keeps lineSize w.maxFileBytes w.maxFiles stream (newest :: old)) :
    (∃ k, (w.flush none).retained = ((stream.map line).drop k).flatten) ∧
    {a | LogFile w.path a ∧ w.disk.read a ≠ none}.encard ≤ w.maxFiles ∧
    ∀ a content, LogFile w.path a → w.disk.read a = some content →
      ∃ full, (w.flush none).disk.read a = some full ∧ content <+: full ∧
        (full.length ≤ w.maxFileBytes ∨ full ∈ stream.map line) := by
  refine ⟨?_, h.encard_le hkeeps.length_le, fun a content ha hread => ?_⟩
  · obtain ⟨front, hfront⟩ := hkeeps.suffix
    have hlen := hkeeps.length_le
    rw [List.length_cons] at hlen
    refine ⟨front.length, ?_⟩
    rw [h.retained_flush (by omega), ← hfront, List.map_append,
      List.drop_left' (List.length_map _), text, List.flatMap_def]
  · obtain ⟨p, hp, hflushed, hprefix⟩ := h.exists_piece ha hread
    have hsub : p ⊆ (newest :: old).reverse.flatten :=
      fun e he => List.mem_flatten.2 ⟨p, List.mem_reverse.2 hp, he⟩
    exact ⟨text p, hflushed, hprefix,
      length_text_le_or_mem (hkeeps.small p hp) (List.Subset.trans hsub hkeeps.suffix.subset)⟩

end

/-- **Log rotation keeps an unbroken tail.** After any run of writes and flushes without a failed
call, from a directory without log files: the log files, oldest first and after a flush, hold the
lines of the stream from some line on; there are at most `maxFiles` of them; and each is, or is the
front of, a text of at most `maxFileBytes` bytes or of a single line. -/
theorem rotation_keeps_tail {disk : Store Str UInt8} {path : Str} (maxFileBytes : Nat)
    {maxFiles : Nat} (hfiles : 1 ≤ maxFiles) (hnone : ∀ a, LogFile path a → disk.read a = none)
    (events : List Writer.Event) (hok : ∀ e ∈ events, e.Succeeds) :
    let w := (Writer.start disk path maxFileBytes maxFiles).run events
    let lines := (events.filterMap Writer.Event.entry).map line
    (∃ k, (w.flush none).retained = (lines.drop k).flatten) ∧
    {a | LogFile path a ∧ w.disk.read a ≠ none}.encard ≤ maxFiles ∧
    ∀ a content, LogFile path a → w.disk.read a = some content →
      ∃ full, (w.flush none).disk.read a = some full ∧ content <+: full ∧
        (full.length ≤ maxFileBytes ∨ full ∈ lines) := by
  obtain ⟨newest, old, hholds, hpieces⟩ :=
    holds_run hfiles (holds_start hnone maxFileBytes maxFiles) events hok
  have hkeeps : RollingLog.Keeps lineSize maxFileBytes maxFiles
      (events.filterMap Writer.Event.entry) (newest :: old) := by
    rw [← hpieces]
    exact RollingLog.keeps_foldl hfiles line_length_pos _
  have hconfig := config_run (.start disk path maxFileBytes maxFiles) events
  simp only
  generalize (Writer.start disk path maxFileBytes maxFiles).run events = w at hholds hconfig ⊢
  simp only [Writer.config, Writer.start, Prod.mk.injEq] at hconfig
  obtain ⟨rfl, rfl, rfl⟩ := hconfig
  exact hholds.keeps_tail hkeeps

/-- A directory without files. -/
def emptyDisk : Store Str UInt8 where
  dir _ := none
  data _ := []
  next := 0
  dir_lt _ _ h := by cases h
  dir_inj _ _ _ h := by cases h

def sampleEntry (timestamp : Nat) : QueryLogEntry where
  timestampUnix := timestamp
  clientAnonymised := ⟨[], by decide⟩
  qnameHash := 0
  qtype := ['A']
  rcode := 0
  servedBy := .resolver

/-- Three lines of which no two fit into a file, and room for two files. -/
def threeWrites : List Writer.Event :=
  [1, 2, 3].map fun t => .write (sampleEntry t) ⟨none, fun _ => false, .ok 0⟩

theorem rotation_keeps_tail_three :
    let w := (Writer.start emptyDisk ['q'] 100 2).run threeWrites
    let lines := (threeWrites.filterMap Writer.Event.entry).map line
    (∃ k, (w.flush none).retained = (lines.drop k).flatten) ∧
    {a | LogFile ['q'] a ∧ w.disk.read a ≠ none}.encard ≤ 2 := by
  have hok : ∀ e ∈ threeWrites, e.Succeeds := by
    intro e he
    obtain ⟨t, -, rfl⟩ := List.mem_map.1 he
    exact ⟨rfl, fun _ => rfl, 0, rfl⟩
  have hnone : ∀ a, LogFile ['q'] a → emptyDisk.read a = none := fun _ _ => rfl
  obtain ⟨htail, hcount, -⟩ := rotation_keeps_tail 100 (by decide : 1 ≤ 2) hnone threeWrites hok
  exact ⟨htail, hcount⟩

end RustyDns.L4.DiskLog
