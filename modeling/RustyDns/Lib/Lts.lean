import Mathlib

/-!
# Labelled transition systems

Runs of a system that takes one labelled step after another, and the rules every proof about them
uses: an invariant that holds at the start and is kept by each step holds in every reachable state,
a measure no step lowers is not lowered by whole runs, one that no step raises bounds how often it
is lowered, and a system whose steps are steps of another one, or none, under an abstraction reaches
only what the other one reaches.

For a step function, `trace` is the states along a list of labels, and `forall_trace_iff` turns an
exact condition for one step to keep a property into the exact condition for a whole run to keep it.

`LTS.restrict` keeps only the steps that meet a condition on the state before the step and the
label; a property proved of its reachable states holds in every run all of whose steps meet the
condition.
-/

namespace RustyDns.Lib

/-- A system with states `σ` and labels `ι`. -/
structure LTS (σ ι : Type*) where
  init : σ → Prop
  step : σ → ι → σ → Prop

namespace LTS

variable {σ ι : Type*} {m : LTS σ ι} {s t u : σ}

/-- The system of a step function; `none` is a label that is not enabled. -/
def ofFn (init : σ → Prop) (step : σ → ι → Option σ) : LTS σ ι where
  init := init
  step s a t := step s a = some t

/-- The steps of `m` that meet `C`. -/
def restrict (m : LTS σ ι) (C : σ → ι → Prop) : LTS σ ι where
  init := m.init
  step s a t := C s a ∧ m.step s a t

/-- A run from `s` to `t` along its labels. -/
inductive Run (m : LTS σ ι) : σ → List ι → σ → Prop where
  | nil (s : σ) : Run m s [] s
  | cons {s t u : σ} {a : ι} {as : List ι} : m.step s a t → Run m t as u → Run m s (a :: as) u

/-- The states some run from an initial state ends in. -/
inductive Reachable (m : LTS σ ι) : σ → Prop where
  | init {s : σ} : m.init s → Reachable m s
  | step {s t : σ} {a : ι} : Reachable m s → m.step s a t → Reachable m t

/-- The steps of a step function along a list of labels. -/
def exec (step : σ → ι → Option σ) : σ → List ι → Option σ
  | s, [] => some s
  | s, a :: as => (step s a).bind fun t => exec step t as

theorem exec_append (step : σ → ι → Option σ) :
    ∀ (as bs : List ι) (s : σ), exec step s (as ++ bs) = (exec step s as).bind (exec step · bs)
  | [], _, _ => rfl
  | a :: as, bs, s => by
    simp only [List.cons_append, exec, Option.bind_assoc]
    congr 1
    funext t
    exact exec_append step as bs t

theorem Run.of_exec {init : σ → Prop} {step : σ → ι → Option σ} :
    ∀ {as : List ι} {s t : σ}, exec step s as = some t → Run (ofFn init step) s as t
  | [], s, t, h => by
    cases h
    exact .nil s
  | a :: as, s, t, h => by
    obtain ⟨u, hu, h⟩ := Option.bind_eq_some_iff.1 h
    exact .cons hu (Run.of_exec h)

theorem Run.of_exec_restrict {init : σ → Prop} {step : σ → ι → Option σ} {C : σ → ι → Prop}
    [∀ s a, Decidable (C s a)] : ∀ {as : List ι} {s t : σ},
      exec (fun s a => if C s a then step s a else none) s as = some t →
        Run ((ofFn init step).restrict C) s as t
  | [], s, t, h => by
    cases h
    exact .nil s
  | a :: as, s, t, h => by
    obtain ⟨u, hu, h⟩ := Option.bind_eq_some_iff.1 h
    exact .cons (Option.ite_none_right_eq_some.1 hu) (Run.of_exec_restrict h)

/-- The invariant rule. -/
theorem Reachable.invariant {P : σ → Prop} (hinit : ∀ s, m.init s → P s)
    (hstep : ∀ s a t, P s → m.step s a t → P t) (h : Reachable m s) : P s := by
  induction h with
  | init h => exact hinit _ h
  | step _ h ih => exact hstep _ _ _ ih h

theorem Reachable.run {as : List ι} (hs : Reachable m s) (h : Run m s as t) : Reachable m t := by
  induction h with
  | nil => exact hs
  | cons hstep _ ih => exact ih (.step hs hstep)

theorem Run.imp {m' : LTS σ ι} (hstep : ∀ s a t, m.step s a t → m'.step s a t) {as : List ι}
    (h : Run m s as t) : Run m' s as t := by
  induction h with
  | nil s => exact .nil s
  | cons hst _ ih => exact .cons (hstep _ _ _ hst) ih

theorem Run.append {as bs : List ι} (h : Run m s as t) (h' : Run m t bs u) :
    Run m s (as ++ bs) u := by
  induction h with
  | nil => exact h'
  | cons hst _ ih => exact .cons hst (ih h')

/-- The rule for what never goes back: a measure that no step from a reachable state lowers. -/
theorem Run.monotone {β : Type*} [Preorder β] (f : σ → β) {as : List ι}
    (hstep : ∀ s a t, Reachable m s → m.step s a t → f s ≤ f t) (hs : Reachable m s)
    (h : Run m s as t) : f s ≤ f t := by
  induction h with
  | nil => exact le_rfl
  | cons hst _ ih => exact (hstep _ _ _ hs hst).trans (ih (.step hs hst))

/-- The refinement rule: each step of `m` is, seen through `f`, no step or a step of `m'`. -/
theorem Reachable.refines {σ' ι' : Type*} {m' : LTS σ' ι'} (f : σ → σ')
    (hinit : ∀ s, m.init s → m'.init (f s))
    (hstep : ∀ s a t, Reachable m s → m.step s a t → f t = f s ∨ ∃ b, m'.step (f s) b (f t))
    (h : Reachable m s) : Reachable m' (f s) := by
  induction h with
  | init h => exact .init (hinit _ h)
  | step hs hst ih =>
    rcases hstep _ _ _ hs hst with heq | ⟨b, hb⟩
    · rw [heq]
      exact ih
    · exact .step ih hb

end LTS

section Trace

variable {σ ι : Type*} (step : σ → ι → σ)

/-- The states along a list of labels, the first one included. -/
def trace : σ → List ι → List σ
  | s, [] => [s]
  | s, a :: as => s :: trace (step s a) as

/-- Every label meets `C` in the state it is taken in. -/
def AllSteps (C : σ → ι → Prop) : σ → List ι → Prop
  | _, [] => True
  | s, a :: as => C s a ∧ AllSteps C (step s a) as

variable {step}

/-- The invariant rule along a trace. -/
theorem forall_trace {P : σ → Prop} (hstep : ∀ s a, P s → P (step s a)) {s : σ} {as : List ι}
    (hs : P s) : ∀ t ∈ trace step s as, P t := by
  induction as generalizing s with
  | nil =>
    intro t ht
    rwa [List.mem_singleton.1 ht]
  | cons a as ih => exact List.forall_mem_cons.2 ⟨hs, ih (hstep s a hs)⟩

theorem forall_trace_iff {P : σ → Prop} {C : σ → ι → Prop}
    (hstep : ∀ s a, P s → (P (step s a) ↔ C s a)) {s : σ} {as : List ι} (hs : P s) :
    (∀ t ∈ trace step s as, P t) ↔ AllSteps step C s as := by
  induction as generalizing s with
  | nil => simp [trace, AllSteps, hs]
  | cons a as ih =>
    simp only [trace, AllSteps, List.forall_mem_cons, hs, true_and]
    constructor
    · intro h
      have hnext : P (step s a) := by
        cases as with
        | nil => exact h _ (List.mem_singleton_self _)
        | cons b bs => exact h _ List.mem_cons_self
      exact ⟨(hstep s a hs).1 hnext, (ih hnext).1 h⟩
    · intro hrun
      obtain ⟨hC, hrest⟩ := hrun
      exact (ih ((hstep s a hs).2 hC)).2 hrest

end Trace

end RustyDns.Lib
