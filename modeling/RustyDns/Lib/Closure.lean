import RustyDns.Lib.Fold

/-!
# Closure under links

A worklist-free way to compute what is reachable over a list of links: go over all links again and
again, adding the target of each link whose source is known, until a pass adds nothing.

Results:
* `mem_saturate_sound`: whatever was added is reachable, after any number of passes.
* `mem_saturate_iff`: with one pass more than there are links, exactly what is reachable.
* `loop_eq_some`: the loop that stops at a pass without additions has stopped by then.
* `linked_iff_forall_closed`: what is reachable is the least set closed under the links.
-/

namespace RustyDns.Lib.Closure

variable {α : Type*} [DecidableEq α]

/-- Add the target of a link whose source is known. -/
def follow (known : Finset α) (link : α × α) : Finset α :=
  if link.1 ∈ known then insert link.2 known else known

/-- One pass over all links; what it adds counts for the links after it. -/
def pass (links : List (α × α)) (known : Finset α) : Finset α := links.foldl follow known

/-- Passes until one adds nothing, at most `fuel` of them. -/
def saturate (links : List (α × α)) : Nat → Finset α → Finset α
  | 0, known => known
  | fuel + 1, known =>
    if pass links known = known then known else saturate links fuel (pass links known)

/-- One pass that also reports whether it added anything. -/
def scan (links : List (α × α)) (known : Finset α) (grew : Bool) : Finset α × Bool :=
  links.foldl (fun acc link =>
    if link.1 ∈ acc.1 ∧ link.2 ∉ acc.1 then (insert link.2 acc.1, true) else acc) (known, grew)

/-- The same as a loop without a bound: it stops at a pass that reports nothing, and `none` says
that it is still running after `fuel` passes. -/
def loop (links : List (α × α)) : Nat → Finset α → Option (Finset α)
  | 0, _ => none
  | fuel + 1, known =>
    match scan links known false with
    | (known', true) => loop links fuel known'
    | (known', false) => some known'

/-- Reachable from `start` over the links. -/
inductive Linked (links : List (α × α)) (start : Finset α) : α → Prop where
  | start {a : α} : a ∈ start → Linked links start a
  | link {a b : α} : Linked links start a → (a, b) ∈ links → Linked links start b

variable {links : List (α × α)} {start known : Finset α}

theorem subset_follow (known : Finset α) (link : α × α) : known ⊆ follow known link := by
  unfold follow
  split
  · exact Finset.subset_insert _ _
  · exact subset_rfl

theorem subset_pass : ∀ (links : List (α × α)) (known : Finset α), known ⊆ pass links known
  | [], _ => subset_rfl
  | l :: ls, known => (subset_follow known l).trans (subset_pass ls (follow known l))

/-- A pass only adds targets of links with a known or added source. -/
theorem pass_induct {P : α → Prop} :
    ∀ (links : List (α × α)) (known : Finset α),
      (∀ a ∈ known, P a) → (∀ l ∈ links, P l.1 → P l.2) → ∀ a ∈ pass links known, P a
  | [], _, hk, _, a, ha => hk a ha
  | l :: ls, known, hk, hl, a, ha => by
    refine pass_induct ls (follow known l) ?_ (fun l' h' => hl l' (List.mem_cons_of_mem _ h')) a ha
    intro b hb
    unfold follow at hb
    split at hb
    · rename_i hsrc
      rcases Finset.mem_insert.1 hb with rfl | hb
      · exact hl l List.mem_cons_self (hk _ hsrc)
      · exact hk b hb
    · exact hk b hb

theorem saturate_induct {P : α → Prop} (hl : ∀ l ∈ links, P l.1 → P l.2) :
    ∀ (fuel : Nat) (known : Finset α), (∀ a ∈ known, P a) → ∀ a ∈ saturate links fuel known, P a
  | 0, _, hk, a, ha => hk a ha
  | fuel + 1, known, hk, a, ha => by
    unfold saturate at ha
    split at ha
    · exact hk a ha
    · exact saturate_induct hl fuel _ (pass_induct links known hk hl) a ha

theorem mem_saturate_sound {fuel : Nat} {a : α} (h : a ∈ saturate links fuel start) :
    Linked links start a :=
  saturate_induct (P := Linked links start) (fun _ hl hsrc => .link hsrc hl) fuel start
    (fun _ ha => .start ha) a h

/-! ## Enough passes -/

theorem subset_saturate : ∀ (fuel : Nat) (known : Finset α), known ⊆ saturate links fuel known
  | 0, _ => subset_rfl
  | fuel + 1, known => by
    unfold saturate
    split
    · exact subset_rfl
    · exact (subset_pass links known).trans (subset_saturate fuel _)

/-- A pass that adds nothing has followed every link. -/
theorem closed_of_pass_eq :
    ∀ {links : List (α × α)}, pass links known = known → ∀ l ∈ links, l.1 ∈ known → l.2 ∈ known
  | [], _, _, hl, _ => absurd hl List.not_mem_nil
  | l :: ls, h, l', hl', hsrc => by
    have hfollow : follow known l = known := by
      refine Finset.Subset.antisymm ?_ (subset_follow known l)
      calc follow known l ⊆ pass ls (follow known l) := subset_pass ls _
        _ = known := h
    rcases List.mem_cons.1 hl' with rfl | hl'
    · unfold follow at hfollow
      rw [if_pos hsrc] at hfollow
      exact hfollow ▸ Finset.mem_insert_self _ _
    · have hrest : pass ls known = known := by
        calc pass ls known = pass ls (follow known l) := by rw [hfollow]
          _ = known := h
      exact closed_of_pass_eq hrest l' hl' hsrc

/-- The targets a set does not hold yet. -/
def missing (links : List (α × α)) (known : Finset α) : Finset α :=
  (links.map Prod.snd).toFinset \ known

/-- A pass that adds something adds a missing target. -/
theorem missing_pass_lt (h : pass links known ≠ known) :
    (missing links (pass links known)).card < (missing links known).card := by
  obtain ⟨a, ha, hnot⟩ : ∃ a ∈ pass links known, a ∉ known := by
    by_contra hall
    push Not at hall
    exact h (Finset.Subset.antisymm hall (subset_pass links known))
  have htarget : a ∈ (links.map Prod.snd).toFinset := by
    have hP := pass_induct (P := fun a => a ∈ known ∨ a ∈ (links.map Prod.snd).toFinset) links known
      (fun a ha => .inl ha)
      (fun l hl _ => .inr (List.mem_toFinset.2 (List.mem_map.2 ⟨l, hl, rfl⟩))) a ha
    exact hP.resolve_left hnot
  refine Finset.card_lt_card (Finset.ssubset_iff_subset_ne.2 ⟨?_, fun heq => ?_⟩)
  · exact Finset.sdiff_subset_sdiff subset_rfl (subset_pass links known)
  · have hmem : a ∈ missing links known := Finset.mem_sdiff.2 ⟨htarget, hnot⟩
    rw [← heq] at hmem
    exact (Finset.mem_sdiff.1 hmem).2 ha

theorem saturate_closed :
    ∀ (fuel : Nat) (known : Finset α), (missing links known).card < fuel →
      ∀ l ∈ links, l.1 ∈ saturate links fuel known → l.2 ∈ saturate links fuel known
  | 0, _, h => absurd h (Nat.not_lt_zero _)
  | fuel + 1, known, h => by
    unfold saturate
    split
    · rename_i hpass
      exact closed_of_pass_eq hpass
    · rename_i hpass
      refine saturate_closed fuel _ ?_
      have := missing_pass_lt hpass
      omega

theorem missing_card_le (links : List (α × α)) (known : Finset α) :
    (missing links known).card ≤ links.length := by
  calc (missing links known).card ≤ (links.map Prod.snd).toFinset.card :=
        Finset.card_le_card Finset.sdiff_subset
    _ ≤ (links.map Prod.snd).length := List.toFinset_card_le _
    _ = links.length := List.length_map _

theorem mem_saturate_iff {fuel : Nat} (hfuel : links.length < fuel) {a : α} :
    a ∈ saturate links fuel start ↔ Linked links start a := by
  refine ⟨mem_saturate_sound, fun h => ?_⟩
  have hcard : (missing links start).card < fuel :=
    (missing_card_le links start).trans_lt hfuel
  induction h with
  | start ha => exact subset_saturate fuel start ha
  | link _ hl ih => exact saturate_closed fuel start hcard _ hl ih

/-! ## The loop -/

theorem scan_eq :
    ∀ (links : List (α × α)) (known : Finset α) (grew : Bool),
      scan links known grew = (pass links known, grew || !decide (pass links known = known))
  | [], _, grew => by simp [scan, pass]
  | l :: ls, known, grew => by
    by_cases hadds : l.1 ∈ known ∧ l.2 ∉ known
    · -- the link adds its target, which no later link takes away again
      have hstep : scan (l :: ls) known grew = scan ls (insert l.2 known) true := by
        simp [scan, hadds]
      have hfollow : follow known l = insert l.2 known := if_pos hadds.1
      have hne : pass (l :: ls) known ≠ known := fun h =>
        hadds.2 (closed_of_pass_eq h l List.mem_cons_self hadds.1)
      have hpass : pass (l :: ls) known = pass ls (insert l.2 known) := by
        rw [← hfollow]
        rfl
      rw [hstep, scan_eq ls, hpass]
      simp [hpass ▸ hne]
    · have hstep : scan (l :: ls) known grew = scan ls known grew := by
        simp only [scan, List.foldl_cons, if_neg hadds]
      have hfollow : follow known l = known := by
        unfold follow
        split
        · rename_i hsrc
          exact Finset.insert_eq_of_mem (by_contra fun h => hadds ⟨hsrc, h⟩)
        · rfl
      have hpass : pass (l :: ls) known = pass ls known := by
        show pass ls (follow known l) = pass ls known
        rw [hfollow]
      rw [hstep, scan_eq ls, hpass]

theorem loop_eq_saturate :
    ∀ (fuel : Nat) (known : Finset α), (missing links known).card < fuel →
      loop links fuel known = some (saturate links fuel known)
  | 0, _, h => absurd h (Nat.not_lt_zero _)
  | fuel + 1, known, h => by
    unfold loop saturate
    rw [scan_eq]
    by_cases hpass : pass links known = known
    · simp [hpass]
    · have := missing_pass_lt hpass
      simpa [hpass] using loop_eq_saturate fuel (pass links known) (by omega)

theorem loop_eq_some {fuel : Nat} (hfuel : links.length < fuel) :
    loop links fuel start = some (saturate links (links.length + 1) start) := by
  rw [loop_eq_saturate fuel start ((missing_card_le links start).trans_lt hfuel)]
  refine congrArg some (Finset.ext fun a => ?_)
  rw [mem_saturate_iff hfuel, mem_saturate_iff (Nat.lt_succ_self _)]

omit [DecidableEq α] in
/-- What is reachable lies in every set that holds the start and is closed under the links. -/
theorem linked_iff_forall_closed {a : α} :
    Linked links start a ↔
      ∀ S : Set α, (∀ b ∈ start, b ∈ S) → (∀ l ∈ links, l.1 ∈ S → l.2 ∈ S) → a ∈ S := by
  refine ⟨fun h S hstart hclosed => ?_, fun h => ?_⟩
  · induction h with
    | start ha => exact hstart _ ha
    | link _ hl ih => exact hclosed _ hl ih
  · exact h {b | Linked links start b} (fun _ hb => .start hb) fun _ hl hsrc => .link hsrc hl

end RustyDns.Lib.Closure
