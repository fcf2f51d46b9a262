import Mathlib

/-!
# Validators in `Except`

A validator is a chain of steps that each may refuse. These rules say what it means that such a
chain came through: every step of a sequence, every element of a loop, every guard.
-/

namespace RustyDns.Lib.Checks

variable {ε ε' α β : Type}

/-- Refuse with `e` when `c` holds (`if c { return Err(e) }`). -/
def reject (c : Prop) [Decidable c] (e : ε) : Except ε Unit := if c then .error e else .ok ()

/-- `Option::ok_or`. -/
def okOr (o : Option α) (e : ε) : Except ε α :=
  match o with
  | some a => .ok a
  | none => .error e

/-- A `for` loop whose body may return an error. -/
def forEach : List α → (α → Except ε Unit) → Except ε Unit
  | [], _ => .ok ()
  | x :: xs, f => do
    f x
    forEach xs f

@[simp] theorem reject_ok_iff {c : Prop} [Decidable c] {e : ε} {u : Unit} :
    reject c e = .ok u ↔ ¬ c := by
  unfold reject
  split
  · simp_all
  · simp_all

@[simp] theorem okOr_ok_iff {o : Option α} {e : ε} {a : α} : okOr o e = .ok a ↔ o = some a := by
  cases o with
  | none => simp [okOr]
  | some b => simp [okOr]

@[simp] theorem bind_ok_iff {x : Except ε α} {f : α → Except ε β} {b : β} :
    (x >>= f) = .ok b ↔ ∃ a, x = .ok a ∧ f a = .ok b := by
  cases x with
  | error e => simp [bind, Except.bind]
  | ok a => simp [bind, Except.bind]

/-- A step that only checks returns no value to name. -/
@[simp 1100] theorem seq_ok_iff {x : Except ε Unit} {f : Unit → Except ε β} {b : β} :
    (x >>= f) = .ok b ↔ x = .ok () ∧ f () = .ok b := by
  rw [bind_ok_iff]
  constructor
  · rintro ⟨⟨⟩, hx, hf⟩
    exact ⟨hx, hf⟩
  · rintro ⟨hx, hf⟩
    exact ⟨(), hx, hf⟩

@[simp] theorem pure_ok_iff {a b : α} : (pure a : Except ε α) = .ok b ↔ a = b := by
  simp [pure, Except.pure]

theorem map_ok_iff {β : Type*} {x : Except ε α} {f : α → β} {b : β} :
    x.map f = .ok b ↔ ∃ a, x = .ok a ∧ f a = b := by
  cases x <;> simp [Except.map]

@[simp] theorem mapError_ok_iff {x : Except ε α} {f : ε → ε'} {a : α} :
    x.mapError f = .ok a ↔ x = .ok a := by
  cases x with
  | error e => simp [Except.mapError]
  | ok b => simp [Except.mapError]

@[simp] theorem forEach_ok_iff {f : α → Except ε Unit} {u : Unit} :
    ∀ {l : List α}, forEach l f = .ok u ↔ ∀ x ∈ l, f x = .ok ()
  | [] => by simp [forEach]
  | x :: xs => by simp [forEach, forEach_ok_iff (l := xs)]

theorem exists_mapM_ok_iff {f : α → Except ε β} {l : List α} :
    (∃ l', l.mapM f = .ok l') ↔ ∀ x ∈ l, ∃ y, f x = .ok y := by
  induction l with
  | nil => simp [pure, Except.pure]
  | cons x xs ih =>
    simp only [List.mapM_cons, bind_ok_iff, pure_ok_iff, List.forall_mem_cons, ← ih]
    constructor
    · intro h
      obtain ⟨_, y, hy, ys, hys, _⟩ := h
      exact ⟨⟨y, hy⟩, ys, hys⟩
    · intro h
      obtain ⟨⟨y, hy⟩, ys, hys⟩ := h
      exact ⟨_, y, hy, ys, hys, rfl⟩

theorem mapM_ok_of_forall {f : α → Except ε β} {g : α → β} :
    ∀ {l : List α}, (∀ x ∈ l, f x = .ok (g x)) → l.mapM f = .ok (l.map g)
  | [], _ => rfl
  | x :: xs, h => by
    obtain ⟨hx, hxs⟩ := List.forall_mem_cons.1 h
    rw [List.mapM_cons, hx, mapM_ok_of_forall hxs]
    rfl

/-- A loop that succeeds pairs every item with its result. -/
theorem forall₂_of_mapM {f : α → Except ε β} :
    ∀ {l : List α} {ys : List β}, l.mapM f = .ok ys → List.Forall₂ (fun x y => f x = .ok y) l ys
  | [], ys, h => by
    cases h
    exact .nil
  | x :: xs, ys, h => by
    simp only [List.mapM_cons, bind_ok_iff, pure_ok_iff] at h
    obtain ⟨y, hy, zs, hzs, rfl⟩ := h
    exact .cons hy (forall₂_of_mapM hzs)

theorem exists_of_mem_mapM {f : α → Except ε β} {l : List α} {ys : List β} (h : l.mapM f = .ok ys) :
    ∀ y ∈ ys, ∃ x ∈ l, f x = .ok y := by
  have hall := forall₂_of_mapM h
  clear h
  induction hall with
  | nil => simp
  | cons hx _ ih =>
    refine List.forall_mem_cons.2 ⟨⟨_, List.mem_cons_self, hx⟩, fun y hy => ?_⟩
    obtain ⟨x, hmem, hf⟩ := ih y hy
    exact ⟨x, List.mem_cons_of_mem _ hmem, hf⟩

/-- A loop that went through has gone through each of its steps. -/
theorem exists_of_mem_foldlM {f : β → α → Except ε β} :
    ∀ {l : List α} {acc acc' : β}, l.foldlM f acc = .ok acc' → ∀ x ∈ l, ∃ b b', f b x = .ok b'
  | [], _, _, _, _, hx => by cases hx
  | y :: ys, acc, acc', h, x, hx => by
    rw [List.foldlM_cons] at h
    obtain ⟨b, hy, hys⟩ := bind_ok_iff.1 h
    rcases List.mem_cons.1 hx with rfl | hx
    · exact ⟨acc, b, hy⟩
    · exact exists_of_mem_foldlM hys x hx

/-- A loop that remembers a key of each element and refuses those it has seen: the keys differ from
one another and from those seen before. -/
theorem nodup_of_seen {κ : Type*} {key : α → κ} {P : List κ → List α → Prop}
    (hcons : ∀ seen x l, P seen (x :: l) → key x ∉ seen ∧ P (key x :: seen) l) :
    ∀ {seen : List κ} {l : List α}, P seen l →
      (l.map key).Nodup ∧ ∀ k ∈ l.map key, k ∉ seen
  | _, [], _ => by simp
  | seen, x :: l, h => by
    obtain ⟨hnew, hrest⟩ := hcons seen x l h
    obtain ⟨hnodup, hseen⟩ := nodup_of_seen hcons hrest
    have hfresh : key x ∉ l.map key := fun hmem => hseen _ hmem List.mem_cons_self
    refine ⟨List.nodup_cons.2 ⟨hfresh, hnodup⟩, List.forall_mem_cons.2 ⟨hnew, fun k hk => ?_⟩⟩
    exact fun hmem => hseen k hk (List.mem_cons_of_mem _ hmem)

/-- If a step makes `P` true exactly when it was true or the element has `Q`, then a loop that went
through makes `P` true exactly when it was true or some element has `Q`. -/
theorem foldlM_ok_iff {f : β → α → Except ε β} {P : β → Prop} {Q : α → Prop}
    (hf : ∀ acc x acc', f acc x = .ok acc' → (P acc' ↔ P acc ∨ Q x)) :
    ∀ {l : List α} {acc acc' : β}, l.foldlM f acc = .ok acc' → (P acc' ↔ P acc ∨ ∃ x ∈ l, Q x)
  | [], acc, acc', h => by
    cases h
    simp
  | y :: ys, acc, acc', h => by
    rw [List.foldlM_cons] at h
    obtain ⟨b, hy, hys⟩ := bind_ok_iff.1 h
    rw [foldlM_ok_iff hf hys, hf acc y b hy]
    simp only [List.mem_cons, exists_eq_or_imp, or_assoc]

theorem toOption_eq_some_iff {x : Except ε α} {a : α} : x.toOption = some a ↔ x = .ok a := by
  cases x with
  | error e => simp [Except.toOption]
  | ok b => simp [Except.toOption]

/-! ## Loops over texts that all parse -/

theorem map_eq_map_some {α β : Type} {f : α → Option β} :
    ∀ {l : List α}, (∀ x ∈ l, (f x).isNone = false) → l.map f = (l.filterMap f).map some
  | [], _ => rfl
  | x :: xs, h => by
    obtain ⟨hx, hxs⟩ := List.forall_mem_cons.1 h
    obtain ⟨y, hy⟩ := Option.isSome_iff_exists.1 (Option.isNone_eq_false_iff.1 hx)
    rw [List.map_cons, map_eq_map_some hxs, List.filterMap_cons_some hy, List.map_cons, hy]

theorem mapM_okOr_of_map_some {α β ε : Type} {f : α → Option β} {e : α → ε} :
    ∀ {l : List α} {l' : List β}, l.map f = l'.map some →
      l.mapM (fun x => okOr (f x) (e x)) = (.ok l' : Except ε (List β))
  | [], [], _ => rfl
  | [], _ :: _, h => by simp at h
  | _ :: _, [], h => by simp at h
  | x :: xs, y :: ys, h => by
    rw [List.map_cons, List.map_cons, List.cons.injEq] at h
    rw [List.mapM_cons, mapM_okOr_of_map_some h.2, h.1]
    rfl

end RustyDns.Lib.Checks
