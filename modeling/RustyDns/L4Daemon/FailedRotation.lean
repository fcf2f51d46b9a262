import RustyDns.L4Daemon.DiskLog
import RustyDns.Lib.Lts

/-!
# Rotations that fail half way

`rotate` of `rustydnsd/src/query_log_disk.rs` removes the oldest backup and shifts the others before
it renames the active file. If that rename or the following open fails, the backups have moved all
the same, and as the size of the active file is not reset the next write tries again. Each attempt
takes one more backup away.

**One rotation.** Its renames go from the top down, so each backup either moves to the next number
or stays, and one that stays is overwritten if the file below it moves. Whether the rotation ends
with a fresh active file makes no difference to that.

**Runs.** A run keeps what the log files held at its start exactly if each rotation on the way does.

Results:
* `dir_shifted`, `dir_renamed_eq_some_iff`: the cascade of renames, any of which may fail.
* `mem_files_rotate_iff`: which log files lose their name in a rotation.
* `rotation_keeps_history_iff`: when a rotation, and a run, keeps what the log files held.
-/

namespace RustyDns.L4.DiskLog

open RustyDns.Lib RustyDns.Lib.FileStore RustyDns.L4.Pipeline

/-! ## Slots -/

/-- The names of the log files by age: the active file, then the backups. -/
def slot (path : Str) : Nat → Str
  | 0 => path
  | n + 1 => numbered path (n + 1)

/-- The rename of a slot's file to the next slot. -/
def renameCall : Nat → DirCall
  | 0 => .moveActive
  | n + 1 => .shift (n + 1)

namespace Writer

variable (w : Writer)

/-- The files that have the name of a log file. -/
def files : Set Nat := {i | ∃ a ∈ w.logNames, w.disk.dir a = some i}

/-- The log files that hold something. -/
def held : Set Nat := {i | i ∈ w.files ∧ w.disk.data i ≠ []}

/-- What the log files of `w` hold is still in log files of `v`. -/
def Keeps (v : Writer) : Prop := ∀ i ∈ w.held, i ∈ v.files ∧ w.disk.data i <+: v.disk.data i

/-- The file of the slot is there, is renamed to the next slot, and that goes through. -/
def Moves (fails : DirCall → Bool) (m : Nat) : Prop :=
  m + 1 < w.maxFiles ∧ w.disk.dir (slot w.path m) ≠ none ∧ fails (renameCall m) = false

/-- The file of the slot is the oldest backup and removed, or it stays and another one is renamed to
its slot. -/
def Loses (fails : DirCall → Bool) : Nat → Prop
  | 0 => False
  | m + 1 => (m + 2 = w.maxFiles ∧ fails .removeOldest = false) ∨
      (¬ w.Moves fails (m + 1) ∧ w.Moves fails m)

/-- A rotation that ends at its flush, or in which no file of `kept` loses its name. -/
def Spares (kept : Set Nat) (calls : Calls) : Prop :=
  calls.flush.isSome = true ∨
    ∀ m i, i ∈ kept → w.disk.dir (slot w.path m) = some i → m < w.maxFiles →
      ¬ w.Loses calls.fails m

/-- The write of the entry starts with a rotation. -/
def RotationDue (entry : QueryLogEntry) : Prop :=
  w.maxFileBytes < w.curSize + (line entry).length ∧ 0 < w.curSize

/-- If the step has a rotation, it spares the files. -/
def StepSpares (kept : Set Nat) : Event → Prop
  | .write entry calls => w.RotationDue entry → w.Spares kept calls
  | .flush _ => True

end Writer

section
variable {path : Str} {m n : Nat}

theorem slot_succ (path : Str) (n : Nat) : slot path (n + 1) = numbered path (n + 1) := rfl

theorem slot_inj : slot path m = slot path n ↔ m = n := by
  cases m with
  | zero =>
    cases n with
    | zero => simp
    | succ n => simpa [slot] using (numbered_ne path (n + 1)).symm
  | succ m =>
    cases n with
    | zero => simpa [slot] using numbered_ne path (m + 1)
    | succ n => simp only [slot, numbered_inj]

theorem mem_logNames_iff {w : Writer} (hfiles : 1 ≤ w.maxFiles) {a : Str} :
    a ∈ w.logNames ↔ ∃ m < w.maxFiles, a = slot w.path m := by
  simp only [Writer.logNames, List.mem_append, List.mem_map, List.mem_reverse, List.mem_range'_1,
    List.mem_singleton]
  constructor
  · rintro (⟨n, ⟨hpos, hlt⟩, rfl⟩ | rfl)
    · obtain ⟨k, rfl⟩ := Nat.exists_eq_add_of_le' hpos
      exact ⟨k + 1, by omega, rfl⟩
    · exact ⟨0, hfiles, rfl⟩
  · rintro ⟨m, hm, rfl⟩
    cases m with
    | zero => exact .inr rfl
    | succ m => exact .inl ⟨m + 1, ⟨by omega, by omega⟩, rfl⟩

/-! ## The cascade with failing renames -/

/-- Backup `n` is there and its rename goes through. -/
def shifts (path : Str) (fails : DirCall → Bool) (disk : Store Str UInt8) (n : Nat) : Bool :=
  (disk.dir (numbered path n)).isSome && !fails (.shift n)

variable {fails : DirCall → Bool} {disk : Store Str UInt8}

/-- One rename of the cascade. -/
theorem dir_shift (n : Nat) (a : Str) :
    (if fails (.shift n) then disk
      else (disk.rename (numbered path n) (numbered path (n + 1))).getD disk).dir a =
    if shifts path fails disk n then disk.moved (numbered path n) (numbered path (n + 1)) a
    else disk.dir a := by
  unfold shifts
  split
  · rename_i hfails
    simp [hfails]
  · rename_i hfails
    rw [Store.dir_rename]
    cases hdir : disk.dir (numbered path n) with
    | none => simp
    | some i => simp [hfails]

/-- From the top down each backup is where it was when its turn comes. Backup `n` goes to `n + 1` or
stays, and leaves its number to the one below. -/
structure Cascade (path : Str) (fails : DirCall → Bool) (k : Nat) (disk disk' : Store Str UInt8) :
    Prop where
  backup : ∀ n, 1 ≤ n → n ≤ k + 1 → disk'.dir (numbered path n) =
    if 2 ≤ n ∧ shifts path fails disk (n - 1) then disk.dir (numbered path (n - 1))
    else if n ≤ k ∧ shifts path fails disk n then none
    else disk.dir (numbered path n)
  other : ∀ a, (∀ n, 1 ≤ n → n ≤ k + 1 → a ≠ numbered path n) → disk'.dir a = disk.dir a

theorem dir_shifted (path : Str) (fails : DirCall → Bool) (k : Nat) (disk : Store Str UInt8) :
    Cascade path fails k disk (shifted path fails k disk) := by
  induction k generalizing disk with
  | zero =>
    refine ⟨fun n h1 hn => ?_, fun _ _ => rfl⟩
    rw [if_neg (by omega), if_neg (by omega)]
    rfl
  | succ k ih =>
    rw [shifted_succ]
    generalize hdisk : (if fails (.shift (k + 1)) then disk
      else (disk.rename (numbered path (k + 1)) (numbered path (k + 2))).getD disk) = top
    have htop : ∀ a, top.dir a = _ := fun a => by rw [← hdisk, dir_shift]
    have hbelow : ∀ n ≤ k, top.dir (numbered path n) = disk.dir (numbered path n) := by
      intro n hn
      rw [htop, Store.moved, if_neg (numbered_ne_numbered (by omega)),
        if_neg (numbered_ne_numbered (by omega)), ite_self]
    have hshifts : ∀ n ≤ k, shifts path fails top n = shifts path fails disk n := by
      intro n hn
      rw [shifts, shifts, hbelow n hn]
    have hrest := ih top
    refine ⟨fun n h1 hn => ?_, fun a ha => ?_⟩
    · rcases Nat.lt_or_eq_of_le hn with hlt | rfl
      · rw [hrest.backup n h1 (by omega)]
        rcases Nat.lt_or_eq_of_le (Nat.le_of_lt_succ hlt) with hle | rfl
        · rw [hshifts (n - 1) (by omega), hshifts n (by omega), hbelow (n - 1) (by omega),
            hbelow n (by omega)]
          simp only [show n ≤ k by omega, show n ≤ k + 1 by omega, true_and]
        · -- the topmost backup has moved, if it did, before the one below it
          rw [hshifts (k + 1 - 1) (by omega), hbelow (k + 1 - 1) (by omega),
            htop (numbered path (k + 1)), Store.moved, if_neg (numbered_ne_numbered (by omega)), if_pos rfl]
          simp
      · -- the slot above it is not touched again
        rw [hrest.other _ fun n _ hle => numbered_ne_numbered (by omega), htop, Store.moved,
          if_pos rfl]
        simp
    · rw [hrest.other a fun n h1 hle => ha n h1 (by omega), htop, Store.moved,
        if_neg (ha _ (by omega) le_rfl), if_neg (ha _ (by omega) (by omega)), ite_self]

end

/-! ## One rotation -/

namespace Writer

variable (w : Writer) (fails : DirCall → Bool)

/-- The directory after the removal of the oldest backup. -/
def oldestRemoved : Store Str UInt8 :=
  if fails .removeOldest then w.disk
  else (w.disk.remove (numbered w.path (w.maxFiles - 1))).getD w.disk

/-- The directory after the renames of the backups. -/
def backupsShifted : Store Str UInt8 :=
  shifted w.path fails (w.maxFiles - 1 - 1) (w.oldestRemoved fails)

/-- The directory after all renames. -/
def renamed : Store Str UInt8 :=
  if fails .moveActive then w.backupsShifted fails
  else ((w.backupsShifted fails).rename w.path (numbered w.path 1)).getD (w.backupsShifted fails)

end Writer

section
variable {w : Writer} {fails : DirCall → Bool} {m i : Nat}

theorem dir_oldestRemoved (w : Writer) (fails : DirCall → Bool) (a : Str) :
    (w.oldestRemoved fails).dir a =
      if a = numbered w.path (w.maxFiles - 1) ∧ fails .removeOldest = false then none
      else w.disk.dir a := by
  unfold Writer.oldestRemoved
  cases fails .removeOldest with
  | true => simp
  | false => simp [Store.dir_remove]

/-- The backups that are shifted are below the oldest one. -/
theorem moves_succ_iff {n : Nat} : w.Moves fails (n + 1) ↔
    n + 1 ≤ w.maxFiles - 1 - 1 ∧ shifts w.path fails (w.oldestRemoved fails) (n + 1) = true := by
  unfold Writer.Moves
  constructor
  · rintro ⟨hlt, hdir, hfails⟩
    have hne : numbered w.path (n + 1) ≠ numbered w.path (w.maxFiles - 1) :=
      numbered_ne_numbered (by omega)
    refine ⟨by omega, ?_⟩
    rw [shifts, dir_oldestRemoved, if_neg fun h => hne h.1, Bool.and_eq_true]
    exact ⟨Option.isSome_iff_ne_none.2 hdir, by simpa [renameCall] using hfails⟩
  · rintro ⟨hle, hshifts⟩
    have hne : numbered w.path (n + 1) ≠ numbered w.path (w.maxFiles - 1) :=
      numbered_ne_numbered (by omega)
    rw [shifts, dir_oldestRemoved, if_neg fun h => hne h.1, Bool.and_eq_true] at hshifts
    exact ⟨by omega, Option.isSome_iff_ne_none.1 hshifts.1, by simpa [renameCall] using hshifts.2⟩

theorem cascade_backupsShifted (w : Writer) (fails : DirCall → Bool) :
    Cascade w.path fails (w.maxFiles - 1 - 1) (w.oldestRemoved fails) (w.backupsShifted fails) :=
  dir_shifted _ _ _ _

theorem dir_backupsShifted_active : (w.backupsShifted fails).dir w.path = w.disk.dir w.path := by
  rw [(cascade_backupsShifted w fails).other _ fun n _ _ => (numbered_ne _ n).symm,
    dir_oldestRemoved, if_neg fun h => (numbered_ne _ _).symm h.1]

/-- The last rename, of the active file, goes through. -/
theorem dir_renamed_of_moves (hmoves : w.Moves fails 0) (a : Str) :
    (w.renamed fails).dir a = (w.backupsShifted fails).moved w.path (numbered w.path 1) a := by
  obtain ⟨-, hdir, hfails⟩ := hmoves
  change w.disk.dir w.path ≠ none at hdir
  change fails .moveActive = false at hfails
  rw [Writer.renamed, hfails, if_neg Bool.false_ne_true, Store.dir_rename, dir_backupsShifted_active,
    if_neg hdir]

/-- The last rename fails or finds no active file. -/
theorem dir_renamed_of_stays (htwo : 2 ≤ w.maxFiles) (hmoves : ¬ w.Moves fails 0) (a : Str) :
    (w.renamed fails).dir a = (w.backupsShifted fails).dir a := by
  unfold Writer.renamed
  split
  · rfl
  · rename_i hfails
    rw [Store.dir_rename, dir_backupsShifted_active]
    refine if_pos ?_
    by_contra hdir
    exact hmoves ⟨by omega, hdir, Bool.eq_false_iff.2 hfails⟩

theorem dir_oldestRemoved_eq_some_iff {n : Nat} :
    (w.oldestRemoved fails).dir (numbered w.path (n + 1)) = some i ↔
      w.disk.dir (numbered w.path (n + 1)) = some i ∧
        ¬ (n + 2 = w.maxFiles ∧ fails .removeOldest = false) := by
  have holdest : numbered w.path (n + 1) = numbered w.path (w.maxFiles - 1) ↔
      n + 2 = w.maxFiles := by
    rw [numbered_inj]
    omega
  rw [dir_oldestRemoved, ← holdest]
  split
  · rename_i hremoved
    simp [hremoved]
  · rename_i hstays
    simp [hstays]

/-- A backup's number after the shift, before the active file moves. -/
theorem dir_backupsShifted_eq_some_iff {n : Nat} (hn : n + 1 < w.maxFiles) :
    (w.backupsShifted fails).dir (numbered w.path (n + 1)) = some i ↔
      (n ≠ 0 ∧ w.Moves fails n ∧ w.disk.dir (numbered w.path n) = some i) ∨
      (¬ (n ≠ 0 ∧ w.Moves fails n) ∧ ¬ w.Moves fails (n + 1) ∧
        w.disk.dir (numbered w.path (n + 1)) = some i ∧
        ¬ (n + 2 = w.maxFiles ∧ fails .removeOldest = false)) := by
  have hslot := (cascade_backupsShifted w fails).backup (n + 1) (by omega) (by omega)
  have hbelow : (2 ≤ n + 1 ∧ shifts w.path fails (w.oldestRemoved fails) (n + 1 - 1) = true) ↔
      n ≠ 0 ∧ w.Moves fails n := by
    cases n with
    | zero => simp
    | succ n =>
      rw [moves_succ_iff]
      simp
      omega
  rw [hslot]
  by_cases hmoves : n ≠ 0 ∧ w.Moves fails n
  · have hkept : (w.oldestRemoved fails).dir (numbered w.path n) =
        w.disk.dir (numbered w.path n) := by
      rw [dir_oldestRemoved, if_neg fun h => numbered_ne_numbered (by omega) h.1]
    rw [if_pos (hbelow.2 hmoves), Nat.add_sub_cancel, hkept]
    exact ⟨fun h => .inl ⟨hmoves.1, hmoves.2, h⟩,
      fun h => (h.resolve_right fun h => h.1 hmoves).2.2⟩
  · rw [if_neg (mt hbelow.1 hmoves)]
    by_cases hup : w.Moves fails (n + 1)
    · rw [if_pos (moves_succ_iff.1 hup)]
      simp only [reduceCtorEq, false_iff, hup, not_true_eq_false, false_and, and_false, or_false]
      exact fun h => hmoves ⟨h.1, h.2.1⟩
    · rw [if_neg (mt moves_succ_iff.2 hup), dir_oldestRemoved_eq_some_iff]
      simp only [hmoves, hup, not_false_eq_true, true_and]
      exact ⟨.inr, fun h => h.resolve_left fun h => hmoves ⟨h.1, h.2.1⟩⟩

/-- A slot has the file of the slot below, if that moved, or the one it had, if that was neither
moved nor lost. -/
theorem dir_renamed_eq_some_iff (htwo : 2 ≤ w.maxFiles) (hm : m < w.maxFiles) :
    (w.renamed fails).dir (slot w.path m) = some i ↔
      (∃ k, m = k + 1 ∧ w.Moves fails k ∧ w.disk.dir (slot w.path k) = some i) ∨
      (w.disk.dir (slot w.path m) = some i ∧ ¬ w.Moves fails m ∧ ¬ w.Loses fails m) := by
  cases m with
  | zero =>
    by_cases hmoves : w.Moves fails 0
    · rw [dir_renamed_of_moves hmoves, Store.moved, slot, if_neg (numbered_ne _ _).symm, if_pos rfl]
      simp [hmoves]
    · rw [dir_renamed_of_stays htwo hmoves, slot, dir_backupsShifted_active]
      simp [hmoves, Writer.Loses]
  | succ n =>
    have hrenamed : (w.renamed fails).dir (slot w.path (n + 1)) = some i ↔
        (w.Moves fails n ∧ w.disk.dir (slot w.path n) = some i) ∨
        (¬ w.Moves fails n ∧ ¬ w.Moves fails (n + 1) ∧
          w.disk.dir (numbered w.path (n + 1)) = some i ∧
          ¬ (n + 2 = w.maxFiles ∧ fails .removeOldest = false)) := by
      have hshifted : (w.backupsShifted fails).dir (numbered w.path (n + 1)) = some i ↔ _ :=
        dir_backupsShifted_eq_some_iff hm
      rw [slot_succ]
      cases n with
      | zero =>
        by_cases hmoves : w.Moves fails 0
        · rw [dir_renamed_of_moves hmoves, Store.moved, if_pos rfl, dir_backupsShifted_active]
          simp [hmoves, slot]
        · rw [dir_renamed_of_stays htwo hmoves, hshifted]
          simp [hmoves]
      | succ n =>
        -- out of reach of the active file
        have hdir : (w.renamed fails).dir (numbered w.path (n + 2)) =
            (w.backupsShifted fails).dir (numbered w.path (n + 2)) := by
          by_cases hmoves : w.Moves fails 0
          · rw [dir_renamed_of_moves hmoves, Store.moved, if_neg (numbered_ne_numbered (by omega)),
              if_neg (numbered_ne _ _)]
          · exact dir_renamed_of_stays htwo hmoves _
        rw [hdir, hshifted]
        simp [slot]
    rw [hrenamed]
    constructor
    · rintro (⟨hmoves, hdir⟩ | ⟨hbelow, hmoves, hdir, hlast⟩)
      · exact .inl ⟨n, rfl, hmoves, hdir⟩
      · refine .inr ⟨hdir, hmoves, ?_⟩
        rintro (hloses | ⟨-, hloses⟩)
        · exact hlast hloses
        · exact hbelow hloses
    · rintro (⟨k, hk, hmoves, hdir⟩ | ⟨hdir, hmoves, hkeeps⟩)
      · cases hk
        exact .inl ⟨hmoves, hdir⟩
      · exact .inr ⟨fun hbelow => hkeeps (.inr ⟨hmoves, hbelow⟩), hmoves, hdir,
          fun hlast => hkeeps (.inl hlast)⟩

/-- A failed flush ends the rotation. -/
theorem rotate_of_flush_error {calls : Calls} {cut : Cut} (hflush : calls.flush = some cut) :
    w.rotate calls = w.flush (some cut) := by
  simp [Writer.rotate, hflush]

/-- Behind the flush a rotation renames, and may open a new active file. -/
theorem rotate_disk (htwo : 2 ≤ w.maxFiles) {calls : Calls} (hflush : calls.flush = none) :
    (w.rotate calls).disk = (w.flush none).renamed calls.fails ∨
    (w.rotate calls).disk = (((w.flush none).renamed calls.fails).openAppend w.path).1 := by
  have htwo' : 2 ≤ (w.flush none).maxFiles := htwo
  have hrenamed : (w.flush none).renamed calls.fails =
      ((w.flush none).moveActive (calls.fails .moveActive)
        ((w.flush none).backupsShifted calls.fails)).getD
          ((w.flush none).backupsShifted calls.fails) := by
    unfold Writer.renamed Writer.moveActive
    rw [if_pos htwo']
    split
    · rfl
    · rfl
  rw [hrenamed]
  cases hmove : (w.flush none).moveActive (calls.fails .moveActive)
      ((w.flush none).backupsShifted calls.fails) with
  | none =>
    have hrotate : (w.rotate calls).disk = (w.flush none).backupsShifted calls.fails := by
      simp only [Writer.backupsShifted, Writer.oldestRemoved] at hmove ⊢
      simp only [Writer.rotate, hflush, Option.isSome_none, Bool.false_eq_true, if_false, hmove]
    exact .inl hrotate
  | some disk =>
    have hrotate : w.rotate calls = (w.flush none).reopen (calls.fails .reopen) disk := by
      simp only [Writer.backupsShifted, Writer.oldestRemoved] at hmove
      simp only [Writer.rotate, hflush, Option.isSome_none, Bool.false_eq_true, if_false, hmove]
    rw [hrotate, Writer.reopen]
    split
    · exact .inl rfl
    · exact .inr rfl

/-- A shift of any length takes nothing from the files. -/
theorem grows_shifted (path : Str) (fails : DirCall → Bool) (k : Nat) (disk : Store Str UInt8) :
    disk.Grows (shifted path fails k disk) := by
  induction k generalizing disk with
  | zero => exact .refl disk
  | succ k ih =>
    rw [shifted_succ]
    refine .trans ?_ (ih _)
    split
    · exact .refl disk
    · exact disk.grows_rename _ _

theorem grows_renamed (w : Writer) (fails : DirCall → Bool) : w.disk.Grows (w.renamed fails) := by
  have hremoved : w.disk.Grows (w.oldestRemoved fails) := by
    unfold Writer.oldestRemoved
    split
    · exact .refl _
    · exact w.disk.grows_remove _
  have hshifted := hremoved.trans (grows_shifted w.path fails (w.maxFiles - 1 - 1) _)
  unfold Writer.renamed
  split
  · exact hshifted
  · exact hshifted.trans (Store.grows_rename _ _ _)

theorem grows_drain (w : Writer) (cut : Cut) : w.disk.Grows (w.drain cut).disk :=
  w.disk.grows_append _ _

theorem grows_rotate (htwo : 2 ≤ w.maxFiles) (calls : Calls) :
    w.disk.Grows (w.rotate calls).disk := by
  cases hflush : calls.flush with
  | some cut =>
    rw [rotate_of_flush_error hflush]
    exact grows_drain w _
  | none =>
    have hrenamed : w.disk.Grows ((w.flush none).renamed calls.fails) :=
      (grows_drain w _).trans (grows_renamed _ _)
    rcases rotate_disk htwo hflush with hdisk | hdisk
    · rw [hdisk]
      exact hrenamed
    · rw [hdisk]
      exact hrenamed.trans (Store.grows_openAppend _ _)

/-- **What a rotation does to one log file.** It keeps a name unless its slot is lost. -/
theorem mem_files_rotate_iff (htwo : 2 ≤ w.maxFiles) {calls : Calls} (hflush : calls.flush = none)
    (hm : m < w.maxFiles) (hdir : w.disk.dir (slot w.path m) = some i) :
    i ∈ (w.rotate calls).files ↔ ¬ w.Loses calls.fails m := by
  have hconfig := config_rotate w calls
  simp only [Writer.config, Prod.mk.injEq] at hconfig
  obtain ⟨hpath, -, hfiles⟩ := hconfig
  have hold : i < ((w.flush none).renamed calls.fails).next :=
    (w.disk.dir_lt _ _ hdir).trans_le (grows_renamed (w.flush none) calls.fails).next
  have hname : ∀ a, (w.rotate calls).disk.dir a = some i ↔
      ((w.flush none).renamed calls.fails).dir a = some i := by
    intro a
    rcases rotate_disk htwo hflush with hdisk | hdisk
    · rw [hdisk]
    · rw [hdisk]
      exact ⟨Store.dir_openAppend_old hold, Store.dir_openAppend⟩
  have hslot : ∀ k < w.maxFiles,
      ((w.flush none).renamed calls.fails).dir (slot w.path k) = some i ↔ _ :=
    fun k hk => dir_renamed_eq_some_iff (w := w.flush none) htwo hk
  -- the file was in no other slot
  have honly : ∀ k, w.disk.dir (slot w.path k) = some i → k = m :=
    fun k hk => slot_inj.1 (w.disk.dir_inj _ _ i hk hdir)
  have hmoved : w.Moves calls.fails m → ¬ w.Loses calls.fails m := by
    intro hmoves hloses
    cases m with
    | zero => exact hloses
    | succ m =>
      rcases hloses with ⟨hlast, -⟩ | ⟨hstays, -⟩
      · exact absurd hmoves.1 (by omega)
      · exact hstays hmoves
  constructor
  · rintro ⟨a, ha, hdir'⟩
    rw [mem_logNames_iff (by omega), hpath, hfiles] at ha
    obtain ⟨k, hk, rfl⟩ := ha
    rcases (hslot k hk).1 ((hname _).1 hdir') with ⟨j, rfl, hmoves, hj⟩ | ⟨hk', -, hkeeps⟩
    · rw [honly j hj] at hmoves
      exact hmoved hmoves
    · rw [honly k hk'] at hkeeps
      exact hkeeps
  · intro hkeeps
    by_cases hmoves : w.Moves calls.fails m
    · refine ⟨slot w.path (m + 1), ?_,
        (hname _).2 ((hslot _ hmoves.1).2 (.inl ⟨m, rfl, hmoves, hdir⟩))⟩
      rw [mem_logNames_iff (by omega), hpath, hfiles]
      exact ⟨m + 1, hmoves.1, rfl⟩
    · refine ⟨slot w.path m, ?_, (hname _).2 ((hslot m hm).2 (.inr ⟨hdir, hmoves, hkeeps⟩))⟩
      rw [mem_logNames_iff (by omega), hpath, hfiles]
      exact ⟨m, hm, rfl⟩

theorem subset_files_rotate_iff (htwo : 2 ≤ w.maxFiles) {kept : Set Nat} (hkept : kept ⊆ w.files)
    (calls : Calls) : kept ⊆ (w.rotate calls).files ↔ w.Spares kept calls := by
  cases hflush : calls.flush with
  | some cut =>
    rw [rotate_of_flush_error hflush]
    exact iff_of_true hkept (.inl (by rw [hflush]; rfl))
  | none =>
    unfold Writer.Spares
    rw [hflush, Option.isSome_none, or_iff_right Bool.false_ne_true]
    constructor
    · intro h m i hi hdir hm
      exact (mem_files_rotate_iff htwo hflush hm hdir).1 (h hi)
    · intro h i hi
      obtain ⟨a, ha, hdir⟩ := hkept hi
      obtain ⟨m, hm, rfl⟩ := (mem_logNames_iff (by omega)).1 ha
      exact (mem_files_rotate_iff htwo hflush hm hdir).2 (h m i hi hdir hm)

/-! ## Runs -/

theorem files_writeAll (w : Writer) (bytes : List UInt8) (result : WriteResult) :
    (w.writeAll bytes result).files = w.files := by
  cases result <;> rfl

theorem grows_writeAll (w : Writer) (bytes : List UInt8) (result : WriteResult) :
    w.disk.Grows (w.writeAll bytes result).disk := by
  cases result <;> exact w.disk.grows_append _ _

theorem subset_files_step_iff (htwo : 2 ≤ w.maxFiles) {kept : Set Nat} (hkept : kept ⊆ w.files)
    (event : Writer.Event) : kept ⊆ (w.step event).files ↔ w.StepSpares kept event := by
  cases event with
  | flush result => exact iff_of_true hkept trivial
  | write entry calls =>
    simp only [Writer.step, Writer.writeEntry, files_writeAll]
    by_cases hdue : w.maxFileBytes < w.curSize + (line entry).length ∧ 0 < w.curSize
    · rw [if_pos hdue, subset_files_rotate_iff htwo hkept]
      exact ⟨fun h _ => h, fun h => h hdue⟩
    · rw [if_neg hdue]
      exact iff_of_true hkept fun h => absurd h hdue

theorem grows_step (htwo : 2 ≤ w.maxFiles) (event : Writer.Event) :
    w.disk.Grows (w.step event).disk := by
  cases event with
  | flush result => exact grows_drain w _
  | write entry calls =>
    simp only [Writer.step, Writer.writeEntry]
    refine .trans ?_ (grows_writeAll _ _ _)
    split
    · exact grows_rotate htwo calls
    · exact .refl _

/-- The bytes of a file are never lost, so what counts is its name. -/
theorem keeps_iff {v : Writer} (hgrows : w.disk.Grows v.disk) : w.Keeps v ↔ w.held ⊆ v.files := by
  constructor
  · intro h i hi
    exact (h i hi).1
  · intro h i hi
    obtain ⟨a, -, hdir⟩ := hi.1
    exact ⟨h hi, hgrows.data i (w.disk.dir_lt a i hdir)⟩

/-- What holds along every run: the configuration stays and the files grow. -/
structure Follows (w v : Writer) : Prop where
  config : v.config = w.config
  grows : w.disk.Grows v.disk

theorem Follows.maxFiles {v : Writer} (h : Follows w v) : v.maxFiles = w.maxFiles := by
  have hconfig := h.config
  simp only [Writer.config, Prod.mk.injEq] at hconfig
  exact hconfig.2.2

theorem Follows.step (htwo : 2 ≤ w.maxFiles) {v : Writer} (event : Writer.Event)
    (h : Follows w v) : Follows w (v.step event) where
  config := (config_step v event).trans h.config
  grows := h.grows.trans (grows_step (by rw [h.maxFiles]; exact htwo) event)

/-- A run keeps the names of the files as long as every rotation spares them. -/
theorem keeps_trace_iff (htwo : 2 ≤ w.maxFiles) (events : List Writer.Event) :
    (∀ v ∈ trace Writer.step w events, w.Keeps v) ↔
      AllSteps Writer.step (fun v => v.StepSpares w.held) w events := by
  have hfollows : ∀ v ∈ trace Writer.step w events, Follows w v :=
    forall_trace (fun v event h => h.step htwo event) ⟨rfl, .refl _⟩
  have hstep : ∀ (v : Writer) (event : Writer.Event), Follows w v ∧ w.held ⊆ v.files →
      (Follows w (v.step event) ∧ w.held ⊆ (v.step event).files ↔
        v.StepSpares w.held event) := by
    rintro v event ⟨hv, hheld⟩
    rw [and_iff_right (hv.step htwo event)]
    exact subset_files_step_iff (by rw [hv.maxFiles]; exact htwo) hheld event
  rw [← forall_trace_iff hstep ⟨⟨rfl, .refl _⟩, fun i hi => hi.1⟩]
  refine forall₂_congr fun v hv => ?_
  rw [keeps_iff (hfollows v hv).grows, and_iff_right (hfollows v hv)]

end

/-- **When rotations keep what the log files held.** A rotation, whether or not it ends with a fresh
active file, keeps what every log file held exactly if it ends at its flush or no such file is the
oldest backup that is removed, nor stays in a slot that the file below is renamed to. A run of
writes and flushes keeps what the log files held at its start exactly if each rotation on the way
does. -/
theorem rotation_keeps_history_iff (w : Writer) (htwo : 2 ≤ w.maxFiles) :
    (∀ calls, w.Keeps (w.rotate calls) ↔ w.Spares w.held calls) ∧
    ∀ events, (∀ v ∈ trace Writer.step w events, w.Keeps v) ↔
      AllSteps Writer.step (fun v => v.StepSpares w.held) w events := by
  refine ⟨fun calls => ?_, fun events => keeps_trace_iff htwo events⟩
  rw [keeps_iff (grows_rotate htwo calls)]
  exact subset_files_rotate_iff htwo (fun i hi => hi.1) calls

/-- The rename of the active file fails and nothing else. -/
def stuck : Calls := ⟨none, (· == .moveActive), .ok 0⟩

/-- The writer after three lines, each in a file of its own, of which it keeps so many. -/
def afterThree (maxFiles : Nat) : Writer :=
  (Writer.start emptyDisk ['q'] 100 maxFiles).run (threeWrites ++ [.flush none])

/-- The text of the lines with these times. -/
def linesAt (times : List Nat) : List UInt8 := times.flatMap fun t => line (sampleEntry t)

theorem maxFiles_afterThree (maxFiles : Nat) : (afterThree maxFiles).maxFiles = maxFiles := by
  have hconfig := config_run (.start emptyDisk ['q'] 100 maxFiles) (threeWrites ++ [.flush none])
  simp only [Writer.config, Prod.mk.injEq] at hconfig
  exact hconfig.2.2

/-- With three lines in four slots there is room for one failed rotation. -/
theorem rotation_keeps_history_iff_room :
    2 ≤ (afterThree 4).maxFiles ∧ (afterThree 4).Keeps ((afterThree 4).rotate stuck) := by
  have hfiles : (afterThree 4).maxFiles = 4 := maxFiles_afterThree 4
  have htwo : 2 ≤ (afterThree 4).maxFiles := by rw [hfiles]; decide
  refine ⟨htwo, ((rotation_keeps_history_iff (afterThree 4) htwo).1 stuck).2 (.inr ?_)⟩
  intro m i _ hdir hm hloses
  have hlast : (afterThree 4).disk.dir (slot (afterThree 4).path 3) = none := by decide +kernel
  have hsecond : (afterThree 4).Moves stuck.fails 2 :=
    ⟨by rw [hfiles]; decide, by decide +kernel, rfl⟩
  rw [hfiles] at hm
  interval_cases m
  · exact hloses
  · rcases hloses with ⟨holdest, -⟩ | ⟨-, -, -, hactive⟩
    · rw [hfiles] at holdest
      cases holdest
    · cases hactive
  · rcases hloses with ⟨holdest, -⟩ | ⟨hstays, -⟩
    · rw [hfiles] at holdest
      cases holdest
    · exact hstays hsecond
  · rw [hlast] at hdir
    cases hdir

/-- With three lines in three slots a rotation that does not end with a fresh active file takes the
first line, and two writes with such rotations take the first two. -/
theorem failed_rotations_drop_backups :
    (¬ ∃ i, ((afterThree 3).rotate stuck).disk.dir (afterThree 3).path = some i ∧
      (afterThree 3).disk.next ≤ i) ∧
    (afterThree 3).retained = linesAt [1, 2, 3] ∧
    ((afterThree 3).rotate stuck).retained = linesAt [2, 3] ∧
    ((afterThree 3).run [.write (sampleEntry 4) stuck, .write (sampleEntry 5) stuck,
      .flush none]).retained = linesAt [3, 4, 5] := by
  refine ⟨?_, by decide +kernel, by decide +kernel, by decide +kernel⟩
  rintro ⟨i, hi, hnew⟩
  have hsame : ((afterThree 3).rotate stuck).disk.dir (afterThree 3).path =
      (afterThree 3).disk.dir (afterThree 3).path := by decide +kernel
  rw [hsame] at hi
  exact absurd ((afterThree 3).disk.dir_lt _ i hi) (not_lt.2 hnew)

end RustyDns.L4.DiskLog
