import RustyDns.Lib.Checks
import RustyDns.L1Core.Config

/-!
# Block windows

`rustydns-core/src/schedule.rs`: weekday names to a bit mask, `HH:MM` to minutes, every refusal with
its message, and the verdict of compiled windows on a time. The warning about a window that wraps
past midnight is log output.
-/

namespace RustyDns.L1

open RustyDns.Lib
open RustyDns.Lib.Checks (reject okOr)

/-- mirrors crates/rustydns-core/src/schedule.rs:41-49 -/
structure CompiledWindow where
  daysMask : BitVec 8
  span : Option (Nat × Nat)
  offsetMin : Int
  deriving DecidableEq, Repr

namespace BlockSchedule

def allDays : BitVec 8 := 0b01111111#8

/-- The bit of a weekday name. -/
def dayBit (day : Str) : Option Nat :=
  if day ∈ ["mon".toList, "monday".toList] then some 0
  else if day ∈ ["tue".toList, "tuesday".toList] then some 1
  else if day ∈ ["wed".toList, "wednesday".toList] then some 2
  else if day ∈ ["thu".toList, "thursday".toList] then some 3
  else if day ∈ ["fri".toList, "friday".toList] then some 4
  else if day ∈ ["sat".toList, "saturday".toList] then some 5
  else if day ∈ ["sun".toList, "sunday".toList] then some 6
  else none

/-- mirrors crates/rustydns-core/src/schedule.rs:189-212 -/
def parseDays (days : List Str) : Except String (BitVec 8) :=
  if days = [] then .ok allDays
  else
    days.foldlM (fun mask d => do
      let day := d.trim.toAsciiLowercase
      let bit ← okOr (dayBit day)
        s!"`{day.display}` is not a weekday (use mon/tue/wed/thu/fri/sat/sun)"
      pure (mask ||| 1#8 <<< bit)) 0#8

/-- mirrors crates/rustydns-core/src/schedule.rs:215-231 -/
def parseHhmm (s : Str) : Except String Nat := do
  let (h, m) ← okOr (s.trim.splitOnce ':') "expected HH:MM"
  let h ← okOr (h.parseUnsigned 65536) "hour is not a number"
  let m ← okOr (m.parseUnsigned 65536) "minute is not a number"
  reject (23 < h) "hour must be 0..=23"
  reject (59 < m) "minute must be 0..=59"
  pure (h * 60 + m)

/-- The span of window `i`; `24:00` is accepted as an end. -/
def compileSpan (i : Nat) (w : BlockWindow) : Except String (Option (Nat × Nat)) :=
  match w.start, w.end with
  | none, none => .ok none
  | some s, some e => do
    let start ← (parseHhmm s).mapError fun err => s!"block_windows[{i}].start `{s.display}`: {err}"
    let stop ←
      if e.trim = "24:00".toList then .ok 1440
      else (parseHhmm e).mapError fun err => s!"block_windows[{i}].end `{e.display}`: {err}"
    reject (start = stop) (s!"block_windows[{i}]: start and end are equal (`{s.display}`); use " ++
      "both-omitted for an all-day window, or pick distinct times")
    pure (some (start, stop))
  | _, _ =>
    .error (s!"block_windows[{i}]: set both `start` and `end` (a timed window) or " ++
      "neither (an all-day window)")

/-- One turn of the loop of `compile`. -/
def compileWindow (i : Nat) (w : BlockWindow) : Except String CompiledWindow := do
  let daysMask ← (parseDays w.days).mapError fun e => s!"block_windows[{i}]: {e}"
  let span ← compileSpan i w
  reject (w.utcOffsetMinutes < -1440 ∨ 1440 < w.utcOffsetMinutes)
    (s!"block_windows[{i}].utc_offset_minutes = {w.utcOffsetMinutes} is out of range " ++
      "(-1440..=1440)")
  pure ⟨daysMask, span, w.utcOffsetMinutes⟩

/-- mirrors crates/rustydns-core/src/schedule.rs:60-136 -/
def compile (windows : List BlockWindow) : Except String (List CompiledWindow) :=
  windows.zipIdx.mapM fun (w, i) => compileWindow i w

/-! ## Verdicts -/

/-- `MIN_TRUSTED_UNIX_SECS`: 2020-01-01. -/
def minTrustedUnixSecs : Nat := 1577836800

/-- mirrors crates/rustydns-core/src/schedule.rs:35-37 -/
def unixSecsIsTrusted (unixSecs : Nat) : Bool := minTrustedUnixSecs ≤ unixSecs

/-- What an `i64` holds of `n`. -/
def asI64 (n : Int) : Int := n.bmod (2 ^ 64)

/-- mirrors crates/rustydns-core/src/schedule.rs:161-186 -/
def windowMatches (w : CompiledWindow) (unixSecs : Nat) : Bool :=
  let localSecs := asI64 (asI64 unixSecs + w.offsetMin * 60)
  let days := localSecs / 86400
  let weekday := ((days + 3) % 7).toNat
  if w.daysMask &&& 1#8 <<< weekday == 0#8 then false
  else
    match w.span with
    | none => true
    | some (start, stop) =>
      let todMin := (localSecs % 86400 / 60).toNat
      if start < stop then decide (start ≤ todMin) && decide (todMin < stop)
      -- the window wraps past midnight
      else decide (start ≤ todMin) || decide (todMin < stop)

/-- mirrors crates/rustydns-core/src/schedule.rs:139-141 -/
def isBlockedAt (windows : List CompiledWindow) (unixSecs : Nat) : Bool :=
  windows.any fun w => windowMatches w unixSecs

/-- mirrors crates/rustydns-core/src/schedule.rs:148-153 -/
def isBlockedAtConservative (windows : List CompiledWindow) (unixSecs : Nat) : Bool :=
  if !unixSecsIsTrusted unixSecs then !windows.isEmpty else isBlockedAt windows unixSecs

end BlockSchedule

end RustyDns.L1
