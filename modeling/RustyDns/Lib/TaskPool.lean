import RustyDns.Lib.Lts

/-!
# Tasks in a window

A list of jobs of which at most `width` run at a time, as `buffer_unordered` runs the futures of a
stream. A job waits, runs as a task that takes one event after another, and ends with a result; the
results stand in the order in which the tasks ended. That a job starts as soon as there is room is not
assumed.

What a task keeps (`Contract`) holds of every task that runs, and what it ends with of every result.

Results:
* `inv_reachable`: no more tasks run than the window is wide, and each job waits, runs or is done,
  once.
* `exists_results`: with all jobs done, the results are those of the jobs, in some order.
* `can_finish`: tasks that can end let the pool end.
-/

namespace RustyDns.Lib.TaskPool

/-- Jobs `ι`, tasks in states `τ`, results `ρ`. -/
structure Pool (ι τ ρ : Type) where
  waiting : List ι
  running : List (ι × τ)
  done : List (ι × ρ)

inductive Act (ε : Type) where
  | start
  | event (k : Nat) (e : ε)

section
variable {ι τ ρ ε : Type} (width : Nat) (init : ι → τ) (task : ι → τ → ε → Option (τ ⊕ ρ))

/-- A task's event gives its next state, or ends it. -/
def advance (s : Pool ι τ ρ) (k : Nat) (i : ι) : τ ⊕ ρ → Pool ι τ ρ
  | .inl t => { s with running := s.running.set k (i, t) }
  | .inr r => { s with running := s.running.eraseIdx k, done := s.done ++ [(i, r)] }

def step (s : Pool ι τ ρ) : Act ε → Option (Pool ι τ ρ)
  | .start =>
    match s.waiting with
    | [] => none
    | i :: rest =>
      if s.running.length < width then
        some { s with waiting := rest, running := s.running ++ [(i, init i)] }
      else none
  | .event k e => do
    let (i, t) ← s.running[k]?
    (task i t e).map (advance s k i)

/-- From a pool in which all jobs wait. -/
def system (jobs : List ι) : LTS (Pool ι τ ρ) (Act ε) :=
  .ofFn (· = ⟨jobs, [], []⟩) (step width init task)

/-- What a step does. -/
inductive Moves (s : Pool ι τ ρ) : Pool ι τ ρ → Prop where
  | starts {i : ι} {rest : List ι} : s.waiting = i :: rest → s.running.length < width →
      Moves s { s with waiting := rest, running := s.running ++ [(i, init i)] }
  | goes {before after : List (ι × τ)} {i : ι} {t t' : τ} {e : ε} :
      s.running = before ++ (i, t) :: after → task i t e = some (.inl t') →
      Moves s { s with running := before ++ (i, t') :: after }
  | ends {before after : List (ι × τ)} {i : ι} {t : τ} {e : ε} {r : ρ} :
      s.running = before ++ (i, t) :: after → task i t e = some (.inr r) →
      Moves s { s with running := before ++ after, done := s.done ++ [(i, r)] }

/-- What a task keeps (`I`) and what it ends with (`R`). -/
structure Contract (I : ι → τ → Prop) (R : ι → ρ → Prop) : Prop where
  starts : ∀ i, I i (init i)
  goes : ∀ i t e t', I i t → task i t e = some (.inl t') → I i t'
  ends : ∀ i t e r, I i t → task i t e = some (.inr r) → R i r

structure Inv (I : ι → τ → Prop) (R : ι → ρ → Prop) (jobs : List ι) (s : Pool ι τ ρ) : Prop where
  room : s.running.length ≤ width
  jobs : (s.waiting ++ (s.running.map Prod.fst ++ s.done.map Prod.fst)).Perm jobs
  running : ∀ p ∈ s.running, I p.1 p.2
  done : ∀ p ∈ s.done, R p.1 p.2

end

section
variable {ι τ ρ ε : Type} {width : Nat} {init : ι → τ} {task : ι → τ → ε → Option (τ ⊕ ρ)}
  {I : ι → τ → Prop} {R : ι → ρ → Prop} {jobs : List ι} {s t : Pool ι τ ρ} {a : Act ε}

theorem moves_of_step (h : step width init task s a = some t) : Moves width init task s t := by
  cases a with
  | start =>
    simp only [step] at h
    split at h
    · cases h
    · rename_i i rest hwaiting
      split at h
      · rename_i hroom
        cases h
        exact .starts hwaiting hroom
      · cases h
  | event k e =>
    obtain ⟨⟨i, x⟩, hk, h⟩ := Option.bind_eq_some_iff.1 h
    obtain ⟨y, hy, rfl⟩ := Option.map_eq_some_iff.1 h
    obtain ⟨hlt, hget⟩ := List.getElem?_eq_some_iff.1 hk
    -- the list around the task that has the event
    have hsplit : s.running = s.running.take k ++ (i, x) :: s.running.drop (k + 1) := by
      rw [← hget, List.getElem_cons_drop, List.take_append_drop]
    cases y with
    | inl x' =>
      have hset : s.running.set k (i, x') =
          s.running.take k ++ (i, x') :: s.running.drop (k + 1) := by
        rw [List.set_eq_take_append_cons_drop, if_pos hlt]
      rw [advance, hset]
      exact .goes hsplit hy
    | inr r =>
      rw [advance, List.eraseIdx_eq_take_drop_succ]
      exact .ends hsplit hy

theorem inv_step (hc : Contract init task I R) (hinv : Inv width I R jobs s)
    (h : step width init task s a = some t) : Inv width I R jobs t := by
  cases moves_of_step h with
  | @starts i rest hwaiting hroom =>
    refine ⟨by simpa using hroom, ?_, ?_, hinv.done⟩
    · refine List.Perm.trans ?_ hinv.jobs
      rw [hwaiting, List.map_append, List.map_cons, List.map_nil, List.append_assoc,
        List.singleton_append, List.cons_append]
      refine List.Perm.trans (List.Perm.append_left rest List.perm_middle) ?_
      exact List.perm_middle
    · intro p hp
      rcases List.mem_append.1 hp with hp | hp
      · exact hinv.running p hp
      · obtain rfl := List.mem_singleton.1 hp
        exact hc.starts i
  | @goes before after i x x' e hrunning htask =>
    have hI : I i x := hinv.running (i, x) (by simp [hrunning])
    refine ⟨?_, ?_, ?_, hinv.done⟩
    · have hroom := hinv.room
      simpa [hrunning] using hroom
    · have hjobs := hinv.jobs
      rw [hrunning] at hjobs
      simpa using hjobs
    · intro p hp
      rcases List.mem_append.1 hp with hp | hp
      · exact hinv.running p (by simp [hrunning, hp])
      · rcases List.mem_cons.1 hp with rfl | hp
        · exact hc.goes i x e x' hI htask
        · exact hinv.running p (by simp [hrunning, hp])
  | @ends before after i x e r hrunning htask =>
    have hI : I i x := hinv.running (i, x) (by simp [hrunning])
    refine ⟨?_, ?_, ?_, ?_⟩
    · have hroom := hinv.room
      simp only [hrunning, List.length_append, List.length_cons] at hroom ⊢
      omega
    · refine List.Perm.trans (List.Perm.append_left s.waiting ?_) hinv.jobs
      rw [hrunning]
      simp only [List.map_append, List.map_cons, List.map_nil, List.append_assoc, List.cons_append]
      refine List.Perm.append_left _ ?_
      rw [← List.append_assoc]
      exact List.perm_append_singleton i _
    · intro p hp
      exact hinv.running p (by
        rw [hrunning]
        rcases List.mem_append.1 hp with hp | hp <;> simp [hp])
    · intro p hp
      rcases List.mem_append.1 hp with hp | hp
      · exact hinv.done p hp
      · obtain rfl := List.mem_singleton.1 hp
        exact hc.ends i x e r hI htask

theorem inv_reachable (hc : Contract init task I R)
    (hs : (system width init task jobs).Reachable s) : Inv width I R jobs s := by
  refine hs.invariant ?_ fun _ _ _ hinv hstep => inv_step hc hinv hstep
  rintro s rfl
  exact ⟨Nat.zero_le _, by simp, by simp, by simp⟩

/-- Nothing waits and nothing runs. -/
def Finished (s : Pool ι τ ρ) : Prop := s.waiting = [] ∧ s.running = []

theorem exists_results [Nonempty ρ] (hinv : Inv width I R jobs s) (hend : Finished s)
    (hnodup : jobs.Nodup) :
    ∃ res : ι → ρ, s.done.Perm (jobs.map fun i => (i, res i)) ∧ ∀ i ∈ jobs, R i (res i) := by
  have hjobs : (s.done.map Prod.fst).Perm jobs := by
    have hperm := hinv.jobs
    rw [hend.1, hend.2] at hperm
    exact hperm
  have hres : ∀ i, ∃ r, i ∈ jobs → (i, r) ∈ s.done := by
    intro i
    by_cases hi : i ∈ jobs
    · obtain ⟨⟨i, r⟩, hmem, rfl⟩ := List.mem_map.1 (hjobs.mem_iff.2 hi)
      exact ⟨r, fun _ => hmem⟩
    · exact ⟨Classical.arbitrary ρ, fun h => absurd h hi⟩
  choose res hres using hres
  have hdone : s.done = (s.done.map Prod.fst).map fun i => (i, res i) := by
    rw [List.map_map]
    refine (List.map_id _).symm.trans (List.map_congr_left fun p hp => ?_)
    -- a job has one result
    have hp' : (p.1, res p.1) ∈ s.done :=
      hres p.1 (hjobs.mem_iff.1 (List.mem_map_of_mem hp))
    exact List.inj_on_of_nodup_map (hjobs.nodup_iff.2 hnodup) hp hp' rfl
  refine ⟨res, ?_, fun i hi => hinv.done _ (hres i hi)⟩
  rw [hdone]
  exact hjobs.map _

theorem can_finish (hwidth : 0 < width) (hends : ∀ i x, ∃ e r, task i x e = some (.inr r))
    (s : Pool ι τ ρ) : ∃ acts t, LTS.exec (step width init task) s acts = some t ∧ Finished t := by
  rcases s with ⟨waiting, running, done⟩
  cases running with
  | cons p running =>
    obtain ⟨e, r, htask⟩ := hends p.1 p.2
    obtain ⟨acts, t, hexec, ht⟩ := can_finish hwidth hends ⟨waiting, running, done ++ [(p.1, r)]⟩
    refine ⟨.event 0 e :: acts, t, ?_, ht⟩
    simp only [LTS.exec, step, List.getElem?_cons_zero, Option.bind_eq_bind, Option.bind_some,
      htask, Option.map_some, advance, List.eraseIdx_cons_zero]
    exact hexec
  | nil =>
    cases waiting with
    | nil => exact ⟨[], _, rfl, rfl, rfl⟩
    | cons i waiting =>
      obtain ⟨acts, t, hexec, ht⟩ := can_finish hwidth hends ⟨waiting, [(i, init i)], done⟩
      refine ⟨.start :: acts, t, ?_, ht⟩
      simp only [LTS.exec, step, List.length_nil, hwidth, if_true, Option.bind_some,
        List.nil_append]
      exact hexec
termination_by 2 * s.waiting.length + s.running.length

end

end RustyDns.Lib.TaskPool
