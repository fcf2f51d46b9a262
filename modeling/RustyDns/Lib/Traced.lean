import Mathlib

/-!
# Programs that ask the outside

A program asks the outside one question after the other; what it answers may depend on all that was
asked before. The questions are kept, each with its answer. `Ensures x R` says that `R` relates the
result of `x` to the calls it makes, whatever the outside answers. The rules follow the program: a
call, a sequence, a step that may throw, a loop.

Results:
* `Ensures.mapM`: a loop that goes on after a failure.
* `Ensures.mapM_except`: a loop that the first failure ends.
-/

namespace RustyDns.Lib.Traced

variable {σ κ ε α β : Type}

structure World (σ κ : Type) where
  outside : σ
  calls : List κ

abbrev Prog (σ κ : Type) := StateM (World σ κ)

def call (ask : σ → α × σ) (record : α → κ) : Prog σ κ α := fun w =>
  let (a, outside) := ask w.outside
  (a, { outside, calls := w.calls ++ [record a] })

/-- A step that asks nothing and may throw. -/
def outcome (x : Except ε α) : ExceptT ε (Prog σ κ) α := ExceptT.mk (pure x)

def Ensures (x : Prog σ κ α) (R : α → List κ → Prop) : Prop :=
  ∀ w, ∃ made, (x w).2.calls = w.calls ++ made ∧ R (x w).1 made

namespace Ensures

theorem mono {x : Prog σ κ α} {R Q : α → List κ → Prop} (h : Ensures x R)
    (himp : ∀ a made, R a made → Q a made) : Ensures x Q := by
  intro w
  obtain ⟨made, hcalls, hR⟩ := h w
  exact ⟨made, hcalls, himp _ _ hR⟩

theorem pure {a : α} {R : α → List κ → Prop} (h : R a []) :
    Ensures (Pure.pure a : Prog σ κ α) R :=
  fun w => ⟨[], (List.append_nil w.calls).symm, h⟩

theorem call {ask : σ → α × σ} {record : α → κ} {R : α → List κ → Prop}
    (h : ∀ a, R a [record a]) : Ensures (Traced.call ask record) R :=
  fun _ => ⟨_, rfl, h _⟩

theorem bind {x : Prog σ κ α} {f : α → Prog σ κ β} {R : α → List κ → Prop}
    {Q : β → List κ → Prop} (hx : Ensures x R)
    (hf : ∀ a made, R a made → Ensures (f a) fun b more => Q b (made ++ more)) :
    Ensures (x >>= f) Q := by
  intro w
  obtain ⟨made, hmade, hR⟩ := hx w
  obtain ⟨more, hmore, hQ⟩ := hf _ made hR (x w).2
  refine ⟨made ++ more, ?_, hQ⟩
  rw [← List.append_assoc, ← hmade]
  exact hmore

/-! ## Steps that may throw -/

theorem outcome {x : Except ε α} {R : Except ε α → List κ → Prop} (h : R x []) :
    Ensures (Traced.outcome x : ExceptT ε (Prog σ κ) α).run R :=
  Ensures.pure h

theorem throw {e : ε} {R : Except ε α → List κ → Prop} (h : R (.error e) []) :
    Ensures (MonadExcept.throw e : ExceptT ε (Prog σ κ) α).run R :=
  Ensures.pure h

theorem value {a : α} {R : Except ε α → List κ → Prop} (h : R (.ok a) []) :
    Ensures (Pure.pure a : ExceptT ε (Prog σ κ) α).run R :=
  Ensures.pure h

/-- A step that cannot throw, in a program that can. -/
theorem lift {x : Prog σ κ α} {R : Except ε α → List κ → Prop}
    (h : Ensures x fun a made => R (.ok a) made) :
    Ensures (ExceptT.lift x : ExceptT ε (Prog σ κ) α).run R := by
  refine Ensures.bind h fun a made hR => Ensures.pure ?_
  rwa [List.append_nil]

/-- Behind a step that throws nothing runs. -/
theorem andThen {x : ExceptT ε (Prog σ κ) α} {f : α → ExceptT ε (Prog σ κ) β}
    {R : Except ε α → List κ → Prop} {Q : Except ε β → List κ → Prop} (hx : Ensures x.run R)
    (herror : ∀ e made, R (.error e) made → Q (.error e) made)
    (hok : ∀ a made, R (.ok a) made → Ensures (f a).run fun b more => Q b (made ++ more)) :
    Ensures (x >>= f).run Q := by
  change Ensures (Bind.bind x.run (ExceptT.bindCont f)) Q
  refine Ensures.bind hx fun a made hR => ?_
  cases a with
  | error e => exact Ensures.pure (by rw [List.append_nil]; exact herror e made hR)
  | ok a => exact hok a made hR

end Ensures

/-! ## Loops -/

/-- The calls of a loop are those of its rounds. -/
inductive Each (R : α → β → List κ → Prop) : List α → List β → List κ → Prop where
  | nil : Each R [] [] []
  | cons {a : α} {b : β} {l : List α} {bs : List β} {made more : List κ} :
      R a b made → Each R l bs more → Each R (a :: l) (b :: bs) (made ++ more)

theorem Ensures.mapM {f : α → Prog σ κ β} {R : α → β → List κ → Prop}
    (h : ∀ a, Ensures (f a) (R a)) (l : List α) : Ensures (l.mapM f) (Each R l) := by
  induction l with
  | nil => exact Ensures.pure .nil
  | cons a l ih =>
    rw [List.mapM_cons]
    refine Ensures.bind (h a) fun b made hR => Ensures.bind ih fun bs more hrest => ?_
    exact Ensures.pure (by rw [List.append_nil]; exact .cons hR hrest)

/-- The calls of a loop whose first failure ends it. -/
inductive Through (R : α → Except ε β → List κ → Prop) :
    List α → Except ε (List β) → List κ → Prop where
  | nil : Through R [] (.ok []) []
  | fails {a : α} {e : ε} {l : List α} {made : List κ} :
      R a (.error e) made → Through R (a :: l) (.error e) made
  | next {a : α} {b : β} {l : List α} {rest : Except ε (List β)} {made more : List κ} :
      R a (.ok b) made → Through R l rest more →
      Through R (a :: l) (rest.map (b :: ·)) (made ++ more)

theorem Ensures.mapM_except {f : α → ExceptT ε (Prog σ κ) β} {R : α → Except ε β → List κ → Prop}
    (h : ∀ a, Ensures (f a).run (R a)) (l : List α) :
    Ensures (l.mapM f : ExceptT ε (Prog σ κ) (List β)).run (Through R l) := by
  induction l with
  | nil => exact Ensures.value .nil
  | cons a l ih =>
    rw [List.mapM_cons]
    refine Ensures.andThen (h a) (fun e made hR => .fails hR) fun b made hR => ?_
    refine Ensures.andThen ih (fun e more hrest => .next hR hrest) fun bs more hrest => ?_
    exact Ensures.value (by rw [List.append_nil]; exact .next hR hrest)

end RustyDns.Lib.Traced
