import RustyDns.L1Core.Schedule

/-!
# Block windows in civil time

What a window of the config blocks, in the words a person would use: a weekday, a time of day, an
offset from UTC. `Weekday.ofDay` counts from the first of January 1970, a Thursday; `IsTime` reads
`HH:MM`. The daemon computes the same from bit masks and 64-bit seconds.

Results:
* `windowMatches_iff`: a compiled window matches the instants its config blocks.
* `checkedMatches_eq`: below `horizon` no step of that computation leaves its machine type.
* `compiled_schedule_in_civil_time`: whole schedules, with their week and the two halves of a day.
-/

namespace RustyDns.L1.BlockSchedule

open RustyDns.Lib

/-! ## Civil time -/

inductive Weekday where
  | monday | tuesday | wednesday | thursday | friday | saturday | sunday
  deriving DecidableEq, Repr

namespace Weekday

def next : Weekday → Weekday
  | monday => tuesday
  | tuesday => wednesday
  | wednesday => thursday
  | thursday => friday
  | friday => saturday
  | saturday => sunday
  | sunday => monday

/-- The weekday of a day, counted from 1970-01-01. -/
def ofDay (day : Int) : Weekday := next^[(day % 7).toNat] thursday

/-- How a window may write the day. -/
def names : Weekday → List Str
  | monday => ["mon".toList, "monday".toList]
  | tuesday => ["tue".toList, "tuesday".toList]
  | wednesday => ["wed".toList, "wednesday".toList]
  | thursday => ["thu".toList, "thursday".toList]
  | friday => ["fri".toList, "friday".toList]
  | saturday => ["sat".toList, "saturday".toList]
  | sunday => ["sun".toList, "sunday".toList]

/-- The bit of the day in a mask. -/
def bit : Weekday → Nat
  | monday => 0
  | tuesday => 1
  | wednesday => 2
  | thursday => 3
  | friday => 4
  | saturday => 5
  | sunday => 6

theorem ofDay_zero : ofDay 0 = thursday := rfl

theorem ofDay_succ (day : Int) : ofDay (day + 1) = (ofDay day).next := by
  have hlt := Int.emod_lt_of_pos day (by decide : (0 : Int) < 7)
  have hnn := Int.emod_nonneg day (by decide : (7 : Int) ≠ 0)
  unfold ofDay
  rw [← Function.iterate_succ_apply' next]
  by_cases h : day % 7 = 6
  · rw [h, show (day + 1) % 7 = 0 by omega]
    rfl
  · rw [show ((day + 1) % 7).toNat = (day % 7).toNat.succ by omega]

theorem bit_ofDay (day : Int) : (ofDay day).bit = ((day + 3) % 7).toNat := by
  have hlt := Int.emod_lt_of_pos day (by decide : (0 : Int) < 7)
  have hnn := Int.emod_nonneg day (by decide : (7 : Int) ≠ 0)
  have hsum : (day + 3) % 7 = (day % 7 + 3) % 7 := by omega
  rw [ofDay, hsum]
  generalize day % 7 = r at hlt hnn
  interval_cases r <;> rfl

end Weekday

/-- Seconds since the epoch on a clock that is `offset` minutes ahead. -/
def localTime (unixSecs : Nat) (offset : Int) : Int := unixSecs + offset * 60

def localDay (unixSecs : Nat) (offset : Int) : Int := localTime unixSecs offset / 86400

def localMinute (unixSecs : Nat) (offset : Int) : Int := localTime unixSecs offset % 86400 / 60

/-- `HH:MM`, as minutes of the day. -/
def IsTime (s : Str) (minutes : Nat) : Prop :=
  ∃ (h m : Str) (hour minute : Nat), s.trim = h ++ ':' :: m ∧ ':' ∉ h ∧ h.parseUnsigned 65536 = some hour ∧
    m.parseUnsigned 65536 = some minute ∧ hour ≤ 23 ∧ minute ≤ 59 ∧ minutes = hour * 60 + minute

/-- The end of a window may also be `24:00`. -/
def IsEnd (s : Str) (minutes : Nat) : Prop :=
  (s.trim = "24:00".toList ∧ minutes = 1440) ∨ (s.trim ≠ "24:00".toList ∧ IsTime s minutes)

/-- The window names the day; one without names is for every day. -/
def ListsDay (w : BlockWindow) (day : Weekday) : Prop :=
  w.days = [] ∨ ∃ d ∈ w.days, d.trim.toAsciiLowercase ∈ day.names

/-- The minute is in a span of the day; a span that ends before it starts leaves out what is between. -/
def InSpan (start stop : Nat) (minute : Int) : Prop :=
  if start < stop then start ≤ minute ∧ minute < stop else ¬ (stop ≤ minute ∧ minute < start)

/-- What a window of the config blocks. -/
def Blocks (w : BlockWindow) (unixSecs : Nat) : Prop :=
  ListsDay w (.ofDay (localDay unixSecs w.utcOffsetMinutes)) ∧
    ((w.start = none ∧ w.end = none) ∨
      ∃ s e start stop, w.start = some s ∧ w.end = some e ∧ IsTime s start ∧ IsEnd e stop ∧
        InSpan start stop (localMinute unixSecs w.utcOffsetMinutes))

/-! ## Compiled windows -/

theorem parseHhmm_ok_iff {s : Str} {n : Nat} : parseHhmm s = .ok n ↔ IsTime s n := by
  simp only [parseHhmm, IsTime, Checks.bind_ok_iff, Checks.okOr_ok_iff, Checks.reject_ok_iff,
    Checks.pure_ok_iff, Prod.exists, Str.splitOnce_eq_some_iff, not_lt]
  constructor
  · rintro ⟨h, m, ⟨hs, hcolon⟩, hour, hhour, minute, hminute, -, hh, -, hm, rfl⟩
    exact ⟨h, m, hour, minute, hs, hcolon, hhour, hminute, hh, hm, rfl⟩
  · rintro ⟨h, m, hour, minute, hs, hcolon, hhour, hminute, hh, hm, rfl⟩
    exact ⟨h, m, ⟨hs, hcolon⟩, hour, hhour, minute, hminute, (), hh, (), hm, rfl⟩

theorem Weekday.bit_inj {day day' : Weekday} (h : day.bit = day'.bit) : day = day' := by
  cases day <;> cases day' <;> first | rfl | cases h

/-- A name that is read is the name of the day with the bit. -/
theorem exists_day_of_dayBit {name : Str} {k : Nat} (h : dayBit name = some k) :
    ∃ day : Weekday, day.bit = k ∧ name ∈ day.names := by
  unfold dayBit at h
  split_ifs at h with hmon htue hwed hthu hfri hsat hsun
  · exact ⟨.monday, Option.some.inj h, hmon⟩
  · exact ⟨.tuesday, Option.some.inj h, htue⟩
  · exact ⟨.wednesday, Option.some.inj h, hwed⟩
  · exact ⟨.thursday, Option.some.inj h, hthu⟩
  · exact ⟨.friday, Option.some.inj h, hfri⟩
  · exact ⟨.saturday, Option.some.inj h, hsat⟩
  · exact ⟨.sunday, Option.some.inj h, hsun⟩

theorem dayBit_eq_iff {name : Str} {day : Weekday} :
    dayBit name = some day.bit ↔ name ∈ day.names := by
  constructor
  · intro h
    obtain ⟨day', hbit, hname⟩ := exists_day_of_dayBit h
    rwa [← Weekday.bit_inj hbit]
  · intro h
    cases day <;> simp only [Weekday.names, List.mem_cons, List.not_mem_nil, or_false] at h <;>
      rcases h with rfl | rfl <;> rfl

theorem getLsbD_one_shiftLeft {i k : Nat} (hi : i < 8) :
    (1#8 <<< k).getLsbD i = true ↔ i = k := by
  simp only [BitVec.getLsbD_shiftLeft, BitVec.getLsbD_one, Bool.and_eq_true, Bool.not_eq_true',
    decide_eq_true_eq, decide_eq_false_iff_not]
  omega

theorem Weekday.bit_lt (day : Weekday) : day.bit < 8 := by cases day <;> decide

/-- A bit of the mask is set by a name of its day. -/
theorem getLsbD_parseDays {days : List Str} {mask : BitVec 8} (h : parseDays days = .ok mask)
    (day : Weekday) :
    mask.getLsbD day.bit = true ↔
      days = [] ∨ ∃ d ∈ days, d.trim.toAsciiLowercase ∈ day.names := by
  unfold parseDays at h
  split at h
  · rename_i hnil
    obtain rfl := Except.ok.inj h
    exact iff_of_true (by cases day <;> rfl) (.inl hnil)
  · rename_i hne
    rw [Checks.foldlM_ok_iff (P := fun mask : BitVec 8 => mask.getLsbD day.bit = true)
      (Q := fun d : Str => d.trim.toAsciiLowercase ∈ day.names) (fun mask d mask' hmask => ?_) h,
      or_iff_right hne, or_iff_right (by simp)]
    simp only [Checks.bind_ok_iff, Checks.okOr_ok_iff, Checks.pure_ok_iff] at hmask
    obtain ⟨k, hk, rfl⟩ := hmask
    rw [BitVec.getLsbD_or, Bool.or_eq_true, getLsbD_one_shiftLeft day.bit_lt, ← dayBit_eq_iff, hk,
      Option.some.injEq, eq_comm (a := k)]

theorem and_one_shiftLeft_eq_zero_iff {mask : BitVec 8} {k : Nat} (hk : k < 8) :
    mask &&& 1#8 <<< k = 0#8 ↔ mask.getLsbD k = false := by
  constructor
  · intro h
    have hbit := congrArg (·.getLsbD k) h
    simpa [(getLsbD_one_shiftLeft hk).2 rfl] using hbit
  · intro h
    refine BitVec.eq_of_getLsbD_eq fun i hi => ?_
    rw [BitVec.getLsbD_and, BitVec.getLsbD_zero]
    by_cases hik : i = k
    · rw [hik, h, Bool.false_and]
    · have hoff : (1#8 <<< k).getLsbD i = false :=
        Bool.not_eq_true _ ▸ mt (getLsbD_one_shiftLeft hi).1 hik
      rw [hoff, Bool.and_false]

/-! ## Machine integers -/

/-- The first second whose sum with an offset might leave an `i64`. -/
def horizon : Nat := 2 ^ 63 - 86400

theorem asI64_eq {n : Int} (hlow : -2 ^ 63 ≤ n) (hhigh : n < 2 ^ 63) : asI64 n = n := by
  unfold asI64 Int.bmod
  simp only
  split <;> omega

def toI64 (n : Int) : Option Int := if -2 ^ 63 ≤ n ∧ n < 2 ^ 63 then some n else none

def toUnsigned (bits : Nat) (n : Int) : Option Nat :=
  if 0 ≤ n ∧ n < 2 ^ bits then some n.toNat else none

/-- `windowMatches` with overflow checks on every step: `none` where a sum, product or cast would not
fit its type, or a shift would reach the width. -/
def checkedMatches (w : CompiledWindow) (unixSecs : Nat) : Option Bool := do
  let secs ← toI64 unixSecs
  let offset ← toI64 (w.offsetMin * 60)
  let localSecs ← toI64 (secs + offset)
  let shifted ← toI64 (localSecs / 86400 + 3)
  let weekday ← toUnsigned 8 (shifted % 7)
  guard (weekday < 8)
  if w.daysMask &&& 1#8 <<< weekday == 0#8 then some false
  else
    match w.span with
    | none => some true
    | some (start, stop) => do
      let todMin ← toUnsigned 16 (localSecs % 86400 / 60)
      if start < stop then some (decide (start ≤ todMin) && decide (todMin < stop))
      else some (decide (start ≤ todMin) || decide (todMin < stop))

theorem localTime_bounds {unixSecs : Nat} {offset : Int} (ht : unixSecs < horizon)
    (hlow : -1440 ≤ offset) (hhigh : offset ≤ 1440) :
    -86400 ≤ localTime unixSecs offset ∧ localTime unixSecs offset < 2 ^ 63 := by
  unfold localTime
  unfold horizon at ht
  omega

/-- The seconds the code works with are those of the local clock. -/
theorem localSecs_eq {unixSecs : Nat} {offset : Int} (ht : unixSecs < horizon)
    (hlow : -1440 ≤ offset) (hhigh : offset ≤ 1440) :
    asI64 (asI64 unixSecs + offset * 60) = localTime unixSecs offset := by
  obtain ⟨hge, hlt⟩ := localTime_bounds ht hlow hhigh
  have hsecs : asI64 unixSecs = unixSecs := by
    unfold horizon at ht
    exact asI64_eq (by omega) (by omega)
  rw [hsecs]
  exact asI64_eq (by unfold localTime at hge; omega) hlt

theorem checkedMatches_eq {w : CompiledWindow} {unixSecs : Nat} (ht : unixSecs < horizon)
    (hlow : -1440 ≤ w.offsetMin) (hhigh : w.offsetMin ≤ 1440) :
    checkedMatches w unixSecs = some (windowMatches w unixSecs) := by
  obtain ⟨hge, hlt⟩ := localTime_bounds ht hlow hhigh
  have hsecs : toI64 unixSecs = some (unixSecs : Int) :=
    if_pos (by unfold horizon at ht; omega)
  have hoffset : toI64 (w.offsetMin * 60) = some (w.offsetMin * 60) := if_pos (by omega)
  have hlocal : toI64 (unixSecs + w.offsetMin * 60) = some (localTime unixSecs w.offsetMin) :=
    if_pos (by unfold localTime at hge hlt; omega)
  generalize hn : localTime unixSecs w.offsetMin = n at *
  have hshifted : toI64 (n / 86400 + 3) = some (n / 86400 + 3) := if_pos (by omega)
  have hday : toUnsigned 8 ((n / 86400 + 3) % 7) = some ((n / 86400 + 3) % 7).toNat :=
    if_pos (by omega)
  have htod : toUnsigned 16 (n % 86400 / 60) = some (n % 86400 / 60).toNat := if_pos (by omega)
  have hshift : ((n / 86400 + 3) % 7).toNat < 8 := by omega
  simp only [checkedMatches, windowMatches, localSecs_eq ht hlow hhigh, hn, hsecs, hoffset, hlocal,
    hshifted, hday, htod, hshift, guard_true, Option.bind_eq_bind, Option.bind_some, Option.pure_def]
  split
  · rfl
  · cases w.span with
    | none => rfl
    | some p => simp only [apply_ite some]

/-! ## Verdicts -/

/-- The span part of a match. -/
def spanHolds (span : Option (Nat × Nat)) (minute : Nat) : Bool :=
  match span with
  | none => true
  | some (start, stop) =>
    if start < stop then decide (start ≤ minute) && decide (minute < stop)
    else decide (start ≤ minute) || decide (minute < stop)

theorem windowMatches_eq (c : CompiledWindow) (unixSecs : Nat) :
    windowMatches c unixSecs =
      (c.daysMask.getLsbD (Weekday.ofDay
        (asI64 (asI64 unixSecs + c.offsetMin * 60) / 86400)).bit &&
        spanHolds c.span (asI64 (asI64 unixSecs + c.offsetMin * 60) % 86400 / 60).toNat) := by
  generalize hn : asI64 (asI64 unixSecs + c.offsetMin * 60) = n
  have hbit := (Weekday.ofDay (n / 86400)).bit_lt
  rw [Weekday.bit_ofDay] at hbit ⊢
  simp only [windowMatches, hn, beq_iff_eq, and_one_shiftLeft_eq_zero_iff hbit]
  cases c.daysMask.getLsbD ((n / 86400 + 3) % 7).toNat <;> rfl

theorem spanHolds_some {start stop n : Nat} :
    spanHolds (some (start, stop)) n = true ↔ InSpan start stop n := by
  unfold spanHolds InSpan
  simp only
  split
  · simp
  · simp only [Bool.or_eq_true, decide_eq_true_eq, not_and, not_lt]
    omega

theorem IsTime.unique {s : Str} {m n : Nat} (hm : IsTime s m) (hn : IsTime s n) : m = n :=
  Except.ok.inj ((parseHhmm_ok_iff.2 hm).symm.trans (parseHhmm_ok_iff.2 hn))

/-- `24:00` is no time of the day, only an end. -/
theorem IsTime.trim_ne {s : Str} {n : Nat} (h : IsTime s n) : s.trim ≠ "24:00".toList := by
  intro htrim
  obtain ⟨hh, mm, hour, minute, hs, hcolon, hhour, -, hle, -⟩ := h
  have hcut := Str.splitOnce_eq_some_iff.2 ⟨htrim ▸ hs, hcolon⟩
  rw [show Str.splitOnce ':' "24:00".toList = some ("24".toList, "00".toList) from rfl] at hcut
  obtain ⟨rfl, -⟩ := Prod.mk.inj (Option.some.inj hcut)
  rw [show Str.parseUnsigned 65536 "24".toList = some 24 from rfl] at hhour
  obtain rfl := Option.some.inj hhour
  omega

theorem IsEnd.unique {s : Str} {m n : Nat} (hm : IsEnd s m) (hn : IsEnd s n) : m = n := by
  rcases hm with ⟨htrim, rfl⟩ | ⟨htrim, hm⟩ <;> rcases hn with ⟨htrim', rfl⟩ | ⟨htrim', hn⟩
  · rfl
  · exact absurd htrim htrim'
  · exact absurd htrim' htrim
  · exact hm.unique hn

theorem compileSpan_times_iff {i : Nat} {w : BlockWindow} {s e : Str} {span : Option (Nat × Nat)}
    (hs : w.start = some s) (he : w.end = some e) :
    compileSpan i w = .ok span ↔
      ∃ start stop, IsTime s start ∧ IsEnd e stop ∧ start ≠ stop ∧ span = some (start, stop) := by
  by_cases htrim : e.trim = "24:00".toList
  · simp only [compileSpan, hs, he, htrim, if_true, Checks.bind_ok_iff, Checks.mapError_ok_iff,
      parseHhmm_ok_iff, Checks.reject_ok_iff, Checks.pure_ok_iff, Except.ok.injEq, IsEnd, true_and,
      ne_eq, not_true_eq_false, false_and, or_false]
    constructor
    · rintro ⟨start, hstart, stop, rfl, -, hne, rfl⟩
      exact ⟨start, 1440, hstart, rfl, hne, rfl⟩
    · rintro ⟨start, stop, hstart, rfl, hne, rfl⟩
      exact ⟨start, hstart, 1440, rfl, (), hne, rfl⟩
  · simp only [compileSpan, hs, he, htrim, if_false, Checks.bind_ok_iff, Checks.mapError_ok_iff,
      parseHhmm_ok_iff, Checks.reject_ok_iff, Checks.pure_ok_iff, IsEnd, ne_eq, false_and,
      not_false_eq_true, true_and, false_or]
    constructor
    · rintro ⟨start, hstart, stop, hstop, -, hne, rfl⟩
      exact ⟨start, stop, hstart, hstop, hne, rfl⟩
    · rintro ⟨start, stop, hstart, hstop, hne, rfl⟩
      exact ⟨start, hstart, stop, hstop, (), hne, rfl⟩

theorem IsTime.lt {s : Str} {n : Nat} (h : IsTime s n) : n < 1440 := by
  obtain ⟨-, -, hour, minute, -, -, -, -, hhour, hminute, rfl⟩ := h
  omega

theorem IsEnd.le {s : Str} {n : Nat} (h : IsEnd s n) : n ≤ 1440 := by
  rcases h with ⟨-, rfl⟩ | ⟨-, h⟩
  · exact le_refl _
  · exact h.lt.le

/-- The minutes of a compiled span fit a `u16`. -/
theorem compileSpan_bounds {i : Nat} {w : BlockWindow} {span : Option (Nat × Nat)}
    (h : compileSpan i w = .ok span) : ∀ p ∈ span, p.1 < 1440 ∧ p.2 ≤ 1440 := by
  intro p hp
  obtain rfl : span = some p := hp
  cases hs : w.start with
  | none => cases he : w.end <;> simp [compileSpan, hs, he] at h
  | some s =>
    cases he : w.end with
    | none => simp [compileSpan, hs, he] at h
    | some e =>
      obtain ⟨start, stop, hstart, hstop, -, heq⟩ := (compileSpan_times_iff hs he).1 h
      obtain rfl := Option.some.inj heq
      exact ⟨hstart.lt, hstop.le⟩

/-- A compiled span, against the texts of its window. -/
theorem spanHolds_iff {i : Nat} {w : BlockWindow} {span : Option (Nat × Nat)}
    (h : compileSpan i w = .ok span) {minute : Nat} :
    spanHolds span minute = true ↔
      (w.start = none ∧ w.end = none) ∨
        ∃ s e start stop, w.start = some s ∧ w.end = some e ∧ IsTime s start ∧ IsEnd e stop ∧
          InSpan start stop minute := by
  cases hs : w.start with
  | none =>
    cases he : w.end with
    | none =>
      simp only [compileSpan, hs, he] at h
      obtain rfl := Except.ok.inj h
      simp [spanHolds]
    | some e => simp [compileSpan, hs, he] at h
  | some s =>
    cases he : w.end with
    | none => simp [compileSpan, hs, he] at h
    | some e =>
      obtain ⟨start, stop, hstart, hstop, -, rfl⟩ := (compileSpan_times_iff hs he).1 h
      simp only [spanHolds_some, reduceCtorEq, false_and, false_or, Option.some.injEq]
      constructor
      · intro hin
        exact ⟨s, e, start, stop, rfl, rfl, hstart, hstop, hin⟩
      · rintro ⟨_, _, start', stop', rfl, rfl, hstart', hstop', hin⟩
        rwa [hstart.unique hstart', hstop.unique hstop']

theorem windowMatches_iff {i : Nat} {w : BlockWindow} {c : CompiledWindow}
    (h : compileWindow i w = .ok c) {unixSecs : Nat} (ht : unixSecs < horizon) :
    windowMatches c unixSecs = true ↔ Blocks w unixSecs := by
  simp only [compileWindow, Checks.bind_ok_iff, Checks.mapError_ok_iff, Checks.reject_ok_iff,
    Checks.pure_ok_iff, not_or, not_lt] at h
  obtain ⟨mask, hmask, span, hspan, -, ⟨hlow, hhigh⟩, rfl⟩ := h
  have hminute : ((localTime unixSecs w.utcOffsetMinutes % 86400 / 60).toNat : Int) =
      localMinute unixSecs w.utcOffsetMinutes := by
    unfold localMinute
    omega
  rw [windowMatches_eq, localSecs_eq ht hlow hhigh, Bool.and_eq_true, getLsbD_parseDays hmask,
    spanHolds_iff hspan, hminute]
  rfl

theorem isBlockedAt_iff {windows : List BlockWindow} {compiled : List CompiledWindow}
    (h : compile windows = .ok compiled) {unixSecs : Nat} (ht : unixSecs < horizon) :
    isBlockedAt compiled unixSecs = true ↔ ∃ w ∈ windows, Blocks w unixSecs := by
  have hpairs := Checks.forall₂_of_mapM h
  have hzip : ∀ {ws : List (BlockWindow × Nat)} {cs : List CompiledWindow},
      List.Forall₂ (fun w c => compileWindow w.2 w.1 = .ok c) ws cs →
      (isBlockedAt cs unixSecs = true ↔ ∃ w ∈ ws.map Prod.fst, Blocks w unixSecs) := by
    intro ws cs hws
    induction hws with
    | nil => simp [isBlockedAt]
    | cons hw _ ih =>
      rw [List.map_cons, List.exists_mem_cons_iff, ← ih, ← windowMatches_iff hw ht]
      simp [isBlockedAt]
  rw [hzip hpairs, List.zipIdx_map_fst]

/-! ## Weeks and halves of a day -/

def week : Nat := 604800

theorem blocks_add_week (w : BlockWindow) (unixSecs : Nat) :
    Blocks w (unixSecs + week) ↔ Blocks w unixSecs := by
  have hday : Weekday.ofDay (localDay (unixSecs + week) w.utcOffsetMinutes) =
      .ofDay (localDay unixSecs w.utcOffsetMinutes) := by
    unfold Weekday.ofDay localDay localTime week
    congr 2
    omega
  have hminute : localMinute (unixSecs + week) w.utcOffsetMinutes =
      localMinute unixSecs w.utcOffsetMinutes := by
    unfold localMinute localTime week
    omega
  unfold Blocks
  rw [hday, hminute]

/-- A window for every day, between two times. -/
def daily (s e : Str) (offset : Int) : BlockWindow :=
  { start := some s, «end» := some e, utcOffsetMinutes := offset }

theorem blocks_daily_iff {s e : Str} {start stop : Nat} (hs : IsTime s start) (he : IsTime e stop)
    {offset : Int} {unixSecs : Nat} :
    Blocks (daily s e offset) unixSecs ↔ InSpan start stop (localMinute unixSecs offset) := by
  constructor
  · rintro ⟨-, ⟨hnone, -⟩ | ⟨s', e', start', stop', hs', he', hstart, hstop, hin⟩⟩
    · cases hnone
    · obtain rfl := Option.some.inj hs'
      obtain rfl := Option.some.inj he'
      rwa [hs.unique hstart, IsEnd.unique (.inr ⟨he.trim_ne, he⟩) hstop]
  · intro hin
    exact ⟨.inl rfl, .inr ⟨s, e, start, stop, rfl, rfl, hs, .inr ⟨he.trim_ne, he⟩, hin⟩⟩

theorem compile_daily {s e : Str} {start stop : Nat} (hs : IsTime s start) (he : IsTime e stop)
    (hne : start ≠ stop) {offset : Int} (hlow : -1440 ≤ offset) (hhigh : offset ≤ 1440) :
    ∃ compiled, compile [daily s e offset] = .ok compiled := by
  refine Checks.exists_mapM_ok_iff.2 fun p hp => ?_
  obtain rfl := List.mem_singleton.1 hp
  have hspan := (compileSpan_times_iff (i := 0) (w := daily s e offset) rfl rfl).2
    ⟨start, stop, hs, .inr ⟨he.trim_ne, he⟩, hne, rfl⟩
  simp only [compileWindow, Checks.bind_ok_iff, Checks.mapError_ok_iff, Checks.reject_ok_iff,
    Checks.pure_ok_iff, not_or, not_lt]
  exact ⟨_, _, rfl, _, hspan, (), ⟨hlow, hhigh⟩, rfl⟩

theorem inSpan_swap {start stop : Nat} (hne : start ≠ stop) {minute : Int} :
    InSpan start stop minute ↔ ¬ InSpan stop start minute := by
  unfold InSpan
  rcases Nat.lt_or_gt_of_ne hne with h | h
  · simp [h, Nat.lt_asymm h]
  · simp [h, Nat.lt_asymm h]

/-- Block schedules follow civil time. -/
theorem compiled_schedule_in_civil_time {windows : List BlockWindow} {compiled : List CompiledWindow}
    (h : compile windows = .ok compiled) :
    (∀ unixSecs < horizon,
      (isBlockedAt compiled unixSecs = true ↔ ∃ w ∈ windows, Blocks w unixSecs) ∧
      ∀ c ∈ compiled, checkedMatches c unixSecs = some (windowMatches c unixSecs)) ∧
    (∀ c ∈ compiled, ∀ p ∈ c.span, p.1 < 1440 ∧ p.2 ≤ 1440) ∧
    (∀ unixSecs, unixSecs + week < horizon →
      isBlockedAt compiled (unixSecs + week) = isBlockedAt compiled unixSecs) ∧
    ∀ s e start stop offset, IsTime s start → IsTime e stop → start ≠ stop → -1440 ≤ offset →
      offset ≤ 1440 → ∃ forth back, compile [daily s e offset] = .ok forth ∧
        compile [daily e s offset] = .ok back ∧
        ∀ unixSecs < horizon, isBlockedAt forth unixSecs = !isBlockedAt back unixSecs := by
  have hcompiled : ∀ c ∈ compiled, -1440 ≤ c.offsetMin ∧ c.offsetMin ≤ 1440 ∧
      ∀ p ∈ c.span, p.1 < 1440 ∧ p.2 ≤ 1440 := by
    intro c hc
    obtain ⟨⟨w, i⟩, -, hw⟩ := Checks.exists_of_mem_mapM h c hc
    simp only [compileWindow, Checks.bind_ok_iff, Checks.mapError_ok_iff, Checks.reject_ok_iff,
      Checks.pure_ok_iff, not_or, not_lt] at hw
    obtain ⟨mask, -, span, hspan, -, ⟨hlow, hhigh⟩, rfl⟩ := hw
    exact ⟨hlow, hhigh, compileSpan_bounds hspan⟩
  refine ⟨fun unixSecs ht => ⟨isBlockedAt_iff h ht, fun c hc => ?_⟩,
    fun c hc => (hcompiled c hc).2.2, ?_, ?_⟩
  · exact checkedMatches_eq ht (hcompiled c hc).1 (hcompiled c hc).2.1
  · intro unixSecs ht
    rw [Bool.eq_iff_iff, isBlockedAt_iff h ht, isBlockedAt_iff h (by omega)]
    simp only [blocks_add_week]
  · intro s e start stop offset hs he hne hlow hhigh
    obtain ⟨forth, hforth⟩ := compile_daily hs he hne hlow hhigh
    obtain ⟨back, hback⟩ := compile_daily he hs hne.symm hlow hhigh
    refine ⟨forth, back, hforth, hback, fun unixSecs ht => ?_⟩
    rw [Bool.eq_iff_iff, Bool.not_eq_true', ← Bool.not_eq_true, isBlockedAt_iff hforth ht,
      isBlockedAt_iff hback ht]
    simp only [List.mem_singleton, exists_eq_left, blocks_daily_iff hs he, blocks_daily_iff he hs]
    exact inSpan_swap hne

/-- Friday nights, on a clock two hours ahead. -/
def fridayNights : BlockWindow :=
  { days := ["Fri".toList], start := some "22:00".toList, «end» := some "06:00".toList,
    utcOffsetMinutes := 120 }

/-- The window is compiled, and 2021-01-01, a Friday, 20:30 UTC is in it. -/
theorem fridayNights_in_civil_time :
    let compiled := [⟨0b00010000#8, some (1320, 360), 120⟩]
    compile [fridayNights] = .ok compiled ∧
    isBlockedAt compiled 1609533000 = true ∧ Blocks fridayNights 1609533000 :=
  have h : compile [fridayNights] = .ok [⟨0b00010000#8, some (1320, 360), 120⟩] := by decide +kernel
  have hblocked : isBlockedAt [⟨0b00010000#8, some (1320, 360), 120⟩] 1609533000 = true := by
    decide +kernel
  ⟨h, hblocked, by
    simpa using (((compiled_schedule_in_civil_time h).1 1609533000 (by decide)).1).1 hblocked⟩

end RustyDns.L1.BlockSchedule
