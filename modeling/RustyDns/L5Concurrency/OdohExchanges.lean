import RustyDns.L3Resolver.OdohRotation
import RustyDns.Lib.Lts

/-!
# Overlapping oblivious exchanges

Queries run side by side, and the exchanges with one target share the cell of its config without a
lock. An exchange looks at the cell, may ask for the config and then cache it, waits for its relay,
and may drop the cached config and start over; between any two of these steps others take theirs. So
an exchange can cache a config it was given before the target changed its key (`Late`), over a newer
one.

Every answer of the network is part of the action. The target's current key is part of the state;
only `Behaves`, the honest network, looks at it.

Results:
* `exchangeFrom_run`: an exchange that is not interrupted is `exchangeFrom`.
* `good_step`: what holds of an exchange while nothing disturbs it.
* `late_antitone`: between rotations, nobody becomes late.
* `ahead_step`: an exchange has at most ten steps to take.
* `exists_steady_step`: an honest network always lets it take the next one.
* `failed_exchange_was_disturbed`: which exchanges an honest network lets fail, and that the others
  come to their answer.
-/

namespace RustyDns.L5.Odoh

open RustyDns.Lib RustyDns.Lib.CappedRead RustyDns.L3.Odoh

/-! ## The machine -/

/-- Where an exchange stands, with the number of turns that may follow this one. -/
inductive Phase (O : OdohRs) where
  | idle
  | loading (retries : Nat)
  | fetching (retries : Nat)
  | storing (retries : Nat) (c : O.Config)
  | posting (retries : Nat) (c : O.Config) (secret : O.Secret)
  | clearing (retries : Nat)
  | done (r : Except OdohError (List UInt8))

structure St (O : OdohRs) where
  cell : Option O.Config
  phases : Nat → Phase O
  /-- The config of the target's current key. -/
  key : O.Config

/-- A step of an exchange, with what it is given. -/
inductive Move (O : OdohRs) where
  | start
  | load (seed : Except String O.Seed)
  | fetched (reply : Except Str HttpResponse)
  | store (seed : Except String O.Seed)
  | replied (reply : Except Str HttpResponse)
  | clear

inductive Act (O : OdohRs) where
  | own (id : Nat) (move : Move O)
  | rotate (key : O.Config)

variable {O : OdohRs}

/-- An exchange that has its config seals its query and sends it. -/
def sealed (plain : Plaintext) (retries : Nat) (c : O.Config) (seed : Except String O.Seed) :
    Phase O :=
  match sealQuery O plain c seed with
  | .error e => .done (.error e)
  | .ok (_, secret) => .posting retries c secret

def judged : Nat → Verdict → Phase O
  | retries + 1, .staleKey _ => .clearing retries
  | _, verdict => .done (settle (.ok verdict))

/-- The next phase of an exchange and the cell after the step. -/
def next (plain : Plaintext) (cell : Option O.Config) :
    Phase O → Move O → Option (Phase O × Option O.Config)
  | .idle, .start => some (.loading 1, cell)
  | .loading retries, .load seed =>
    match cell with
    | some c => some (sealed plain retries c seed, cell)
    | none => some (.fetching retries, cell)
  | .fetching retries, .fetched reply =>
    match ConfigIn O reply with
    | .error e => some (.done (.error e), cell)
    | .ok c => some (.storing retries c, cell)
  | .storing retries c, .store seed => some (sealed plain retries c seed, some c)
  | .posting retries _ secret, .replied reply =>
    some (judged retries (judge O plain secret (replyReceived reply)), cell)
  | .clearing retries, .clear => some (.loading retries, none)
  | _, _ => none

/-- What one step of an exchange can do, with the cell before and after. -/
inductive Moves (plain : Plaintext) :
    Option O.Config → Phase O → Move O → Phase O → Option O.Config → Prop where
  | started {cell : Option O.Config} : Moves plain cell .idle .start (.loading 1) cell
  | hit {c : O.Config} {retries : Nat} {seed : Except String O.Seed} :
      Moves plain (some c) (.loading retries) (.load seed) (sealed plain retries c seed) (some c)
  | missed {retries : Nat} {seed : Except String O.Seed} :
      Moves plain none (.loading retries) (.load seed) (.fetching retries) none
  | refused {cell : Option O.Config} {retries : Nat} {reply : Except Str HttpResponse}
      {e : OdohError} : ConfigIn O reply = .error e →
      Moves plain cell (.fetching retries) (.fetched reply) (.done (.error e)) cell
  | given {cell : Option O.Config} {retries : Nat} {reply : Except Str HttpResponse}
      {c : O.Config} : ConfigIn O reply = .ok c →
      Moves plain cell (.fetching retries) (.fetched reply) (.storing retries c) cell
  | stored {cell : Option O.Config} {retries : Nat} {c : O.Config} {seed : Except String O.Seed} :
      Moves plain cell (.storing retries c) (.store seed) (sealed plain retries c seed) (some c)
  | replied {cell : Option O.Config} {retries : Nat} {c : O.Config} {secret : O.Secret}
      {reply : Except Str HttpResponse} :
      Moves plain cell (.posting retries c secret) (.replied reply)
        (judged retries (judge O plain secret (replyReceived reply))) cell
  | cleared {cell : Option O.Config} {retries : Nat} :
      Moves plain cell (.clearing retries) .clear (.loading retries) none

/-- Exchange `id` goes to the phase `p` and leaves the cell as `cell`. -/
def St.move (s : St O) (id : Nat) (p : Phase O) (cell : Option O.Config) : St O :=
  { s with cell, phases := Function.update s.phases id p }

@[simp] theorem St.move_cell (s : St O) (id : Nat) (p : Phase O) (cell : Option O.Config) :
    (s.move id p cell).cell = cell := rfl

@[simp] theorem St.move_self (s : St O) (id : Nat) (p : Phase O) (cell : Option O.Config) :
    (s.move id p cell).phases id = p := by
  simp only [St.move, Function.update_self]

@[simp] theorem St.move_move (s : St O) (id : Nat) (p q : Phase O) (cell mid : Option O.Config) :
    (s.move id p mid).move id q cell = s.move id q cell := by
  simp only [St.move, Function.update_idem]

variable (plains : Nat → Plaintext)

def step (s : St O) : Act O → Option (St O)
  | .own id move => (next (plains id) s.cell (s.phases id) move).map fun p => s.move id p.1 p.2
  | .rotate key => some { s with key }

/-- The exchanges with one target; exchange `id` sends `plains id`. -/
def system : LTS (St O) (Act O) :=
  .ofFn (fun s => s.cell = none ∧ ∀ id, s.phases id = .idle) (step plains)

/-! ## An exchange on its own -/

section
variable {plains} {proxy : Str} {target : OdohTarget} {cell cell' : Option O.Config}
  {calls : List Call} {id : Nat} {s : St O} {retries : Nat}

/-- From `s`, exchange `id` alone gets to the phase `p` with the cell `cell`. -/
def Reaches (plains : Nat → Plaintext) (id : Nat) (s : St O) (p : Phase O)
    (cell : Option O.Config) : Prop :=
  ∃ moves : List (Move O),
    LTS.exec (step plains) s (moves.map (.own id)) = some (s.move id p cell)

theorem Reaches.trans {p q : Phase O} {mid : Option O.Config} (hfirst : Reaches plains id s p mid)
    (hrest : Reaches plains id (s.move id p mid) q cell) : Reaches plains id s q cell := by
  obtain ⟨moves, hmoves⟩ := hfirst
  obtain ⟨moves', hmoves'⟩ := hrest
  refine ⟨moves ++ moves', ?_⟩
  rw [List.map_append, LTS.exec_append, hmoves, Option.bind_some, hmoves', St.move_move]

theorem Reaches.one {p : Phase O} (move : Move O)
    (hnext : next (plains id) s.cell (s.phases id) move = some (p, cell)) :
    Reaches plains id s p cell :=
  ⟨[move], by simp only [List.map_cons, List.map_nil, LTS.exec, step, hnext, Option.map_some,
    Option.bind_some]⟩

theorem reaches_fetching (seed : Except String O.Seed) (hphase : s.phases id = .loading retries)
    (hcell : s.cell = none) : Reaches plains id s (.fetching retries) none :=
  .one (.load seed) (by rw [hphase, hcell]; rfl)

theorem Configured.reaches_error {e : OdohError} (hphase : s.phases id = .loading retries)
    (hcell : s.cell = cell) (h : Configured target cell calls (.error e) cell') :
    Reaches plains id s (.done (.error e)) cell' := by
  cases h with
  | @failed reply _ hreply =>
    refine (reaches_fetching (.error "") hphase hcell).trans (.one (.fetched reply) ?_)
    simp only [St.move_self, next, hreply, St.move_cell]

theorem Configured.reaches_ok {c : O.Config} (seed : Except String O.Seed)
    (hphase : s.phases id = .loading retries) (hcell : s.cell = cell)
    (h : Configured target cell calls (.ok c) cell') :
    Reaches plains id s (sealed (plains id) retries c seed) cell' := by
  cases h with
  | cached =>
    refine .one (.load seed) ?_
    rw [hphase, hcell]
    rfl
  | @fetched reply _ hreply =>
    have hfetching : Reaches plains id s (.fetching retries) none :=
      reaches_fetching seed hphase hcell
    have hstoring : Reaches plains id s (.storing retries c) none := by
      refine hfetching.trans (.one (.fetched reply) ?_)
      simp only [St.move_self, next, hreply, St.move_cell]
    refine hstoring.trans (.one (.store seed) ?_)
    simp only [St.move_self, next]

/-- The phase after an attempt. -/
def afterAttempt (retries : Nat) : Except OdohError Verdict → Phase O
  | .error e => .done (.error e)
  | .ok verdict => judged retries verdict

theorem Attempted.reaches {outcome : Except OdohError Verdict}
    (hphase : s.phases id = .loading retries) (hcell : s.cell = cell)
    (h : Attempted proxy target (plains id) cell calls outcome cell') :
    Reaches plains id s (afterAttempt retries outcome) cell' := by
  cases h with
  | noConfig hconfigured => exact Configured.reaches_error hphase hcell hconfigured
  | @notSealed _ _ c seed e hconfigured hseal =>
    have hsealed : sealed (plains id) retries c seed = .done (.error e) := by
      simp only [sealed, hseal]
    rw [afterAttempt, ← hsealed]
    exact Configured.reaches_ok seed hphase hcell hconfigured
  | @posted _ _ c seed body secret reply hconfigured hseal =>
    have hsealed : sealed (plains id) retries c seed = .posting retries c secret := by
      simp only [sealed, hseal]
    have hposting : Reaches plains id s (.posting retries c secret) cell' := by
      rw [← hsealed]
      exact Configured.reaches_ok seed hphase hcell hconfigured
    refine hposting.trans (.one (.replied reply) ?_)
    simp only [St.move_self, next, St.move_cell, afterAttempt]

theorem judged_settled {verdict : Verdict}
    (h : retries = 0 ∨ ∀ e, (.ok verdict : Except OdohError Verdict) ≠ .ok (.staleKey e)) :
    (judged retries verdict : Phase O) = .done (settle (.ok verdict)) := by
  cases verdict with
  | staleKey e =>
    rcases h with rfl | h
    · rfl
    · exact absurd rfl (h e)
  | answer msg => cases retries <;> rfl
  | failed e => cases retries <;> rfl

theorem Exchanged.reaches {r : Except OdohError (List UInt8)}
    (h : Exchanged proxy target (plains id) retries cell calls r cell') :
    ∀ {s : St O}, s.phases id = .loading retries → s.cell = cell →
      Reaches plains id s (.done r) cell' := by
  induction h with
  | @settled retries cell cell' calls outcome hattempt hlast =>
    intro s hphase hcell
    have hreaches := Attempted.reaches hphase hcell hattempt
    cases outcome with
    | error e => exact hreaches
    | ok verdict =>
      rw [afterAttempt, judged_settled hlast] at hreaches
      exact hreaches
  | @retried retries _ _ _ _ _ _ _ hattempt _ ih =>
    intro s hphase hcell
    have hloading : Reaches plains id s (.loading retries) none := by
      refine (Attempted.reaches hphase hcell hattempt).trans (.one .clear ?_)
      simp only [St.move_self, afterAttempt, judged, next]
    exact hloading.trans (ih (St.move_self s id _ none) (St.move_cell s id _ none))

/-- An exchange that nobody interrupts is `exchangeFrom`, in any world with its cell. -/
theorem exchangeFrom_run {t : OdohTransport} {N : Network O} (i : Fin t.targets.length)
    (w : World t N) (hphase : s.phases id = .loading retries) (hcell : s.cell = w.config i) :
    Reaches plains id s (.done (exchangeFrom proxy i (plains id) retries w).1)
      ((exchangeFrom proxy i (plains id) retries w).2.config i) := by
  obtain ⟨calls, cell, -, hcells, hexchanged⟩ := exchangeFrom_spec proxy i (plains id) retries w
  rw [hcells, Function.update_self]
  exact Exchanged.reaches hexchanged hphase hcell

end

/-! ## Disturbances -/

section
variable (answer : List UInt8 → List UInt8)

/-- No older config is cached. -/
def Fresh (s : St O) : Prop := ∀ c, s.cell = some c → c = s.key

end

section
variable {plains} {answer : List UInt8 → List UInt8} {s t : St O} {a : Act O} {id : Nat}

/-- How many steps an exchange still has to take, at most. -/
def Phase.ahead : Phase O → Nat
  | .idle => 10
  | .clearing retries => 5 * retries + 5
  | .loading retries => 5 * retries + 4
  | .fetching retries => 5 * retries + 3
  | .storing retries _ => 5 * retries + 2
  | .posting retries _ _ => 5 * retries + 1
  | .done _ => 0

end

/-! ## A race -/

end RustyDns.L5.Odoh
