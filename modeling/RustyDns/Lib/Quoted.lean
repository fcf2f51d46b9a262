import RustyDns.Lib.Labels
import RustyDns.Lib.Unicode

/-!
# Quoted text can be read back

What `{:?}` writes for a string is delimited by quotes and escapes every quote inside, so the text
it stands for, and where it ends, can be read off it.

Results:
* `flatMap_escapeDebug_inj`: two strings with the same escaped form are equal.
* `backslash_before_quote`: inside an escaped form a quote always follows a backslash.
* `selfDelimiting_debugStr`: a quoted string shows where it ends, whatever follows it.
-/

namespace RustyDns.Lib

/-! ## Separators -/

section
variable {α : Type*} {a b x y : List α} {p : α}

theorem cut_right (h : a ++ b = x ++ p :: y) (ha : p ∉ a) : ∃ z, x = a ++ z ∧ b = z ++ p :: y := by
  rcases List.append_eq_append_iff.1 h with ⟨z, hx, hb⟩ | ⟨z, rfl, hz⟩
  · exact ⟨z, hx, hb⟩
  · cases z with
    | nil => exact ⟨[], by simp, by simpa using hz.symm⟩
    | cons c z =>
      obtain ⟨rfl, -⟩ := List.cons.inj hz
      simp at ha

theorem cut_left (h : a ++ b = x ++ p :: y) (hb : p ∉ b) : ∃ z, a = x ++ p :: z ∧ y = z ++ b := by
  rcases List.append_eq_append_iff.1 h with ⟨z, rfl, rfl⟩ | ⟨z, rfl, hz⟩
  · simp at hb
  · cases z with
    | nil =>
      rw [List.nil_append] at hz
      simp [← hz] at hb
    | cons c z =>
      obtain ⟨rfl, hy⟩ := List.cons.inj hz
      exact ⟨z, rfl, hy⟩

end

/-- Two lists cut at the last occurrence of a separator have the same parts. -/
theorem append_cons_inj_last {α : Type*} {a : α} {x y z w : List α} (hy : a ∉ y) (hw : a ∉ w)
    (h : x ++ a :: y = z ++ a :: w) : x = z ∧ y = w := by
  have hrev := congrArg List.reverse h
  simp only [List.reverse_append, List.reverse_cons, List.append_assoc, List.singleton_append] at hrev
  obtain ⟨hyw, hxz⟩ := Labels.first_piece (by simpa using hy) (by simpa using hw) hrev
  exact ⟨List.reverse_inj.1 hxz, List.reverse_inj.1 hyw⟩

theorem mem_of_mem_intercalate {α : Type*} {c : α} {sep : List α} :
    ∀ {xs : List (List α)}, c ∈ sep.intercalate xs → c ∈ sep ∨ ∃ x ∈ xs, c ∈ x
  | [], h => by cases h
  | [x], h => .inr ⟨x, by simp, by simpa using h⟩
  | x :: x' :: xs, h => by
    rw [List.intercalate_cons_cons, List.mem_append, List.mem_append] at h
    rcases h with (h | h) | h
    · exact .inr ⟨x, by simp, h⟩
    · exact .inl h
    · rcases mem_of_mem_intercalate h with h | ⟨y, hy, hc⟩
      · exact .inl h
      · exact .inr ⟨y, List.mem_cons_of_mem _ hy, hc⟩

/-- Items without the first character of the separator can be read off the joined text. -/
theorem intercalate_inj {c : Char} {sep : Str} :
    ∀ {xs ys : List Str}, (∀ x ∈ xs, x ≠ [] ∧ c ∉ x) → (∀ y ∈ ys, y ≠ [] ∧ c ∉ y) →
      (c :: sep).intercalate xs = (c :: sep).intercalate ys → xs = ys
  | [], [], _, _, _ => rfl
  | [], [y], _, hy, h => absurd h.symm (by simpa using (hy y (by simp)).1)
  | [x], [], hx, _, h => absurd h (by simpa using (hx x (by simp)).1)
  | [x], [y], _, _, h => by simpa using h
  | [], y :: y' :: ys, _, _, h => by simp [List.intercalate_cons_cons] at h
  | x :: x' :: xs, [], _, _, h => by simp [List.intercalate_cons_cons] at h
  | [x], y :: y' :: ys, hx, _, h => by
    rw [List.intercalate_singleton, List.intercalate_cons_cons] at h
    exact absurd (h ▸ by simp) (hx x (by simp)).2
  | x :: x' :: xs, [y], _, hy, h => by
    rw [List.intercalate_singleton, List.intercalate_cons_cons] at h
    exact absurd (h ▸ by simp) (hy y (by simp)).2
  | x :: x' :: xs, y :: y' :: ys, hx, hy, h => by
    rw [List.intercalate_cons_cons, List.intercalate_cons_cons, List.append_assoc,
      List.append_assoc] at h
    obtain ⟨hfirst, hxs⟩ := List.forall_mem_cons.1 hx
    obtain ⟨hfirst', hys⟩ := List.forall_mem_cons.1 hy
    obtain ⟨rfl, hrest⟩ := Labels.first_piece hfirst.2 hfirst'.2 h
    rw [intercalate_inj hxs hys (List.append_cancel_left hrest)]

/-! ## Digits -/

theorem mem_toDigits {b : Nat} (hb : 1 < b) {c : Char} (n : Nat) (h : c ∈ Nat.toDigits b n) :
    ∃ d < b, c = Nat.digitChar d := by
  induction n using Nat.strongRecOn with
  | ind n ih =>
    rw [Nat.toDigits_eq_if hb] at h
    split at h
    · rename_i hn
      exact ⟨n, hn, by simpa using h⟩
    · rcases List.mem_append.1 h with h | h
      · exact ih (n / b) (Nat.div_lt_self (by omega) hb) h
      · exact ⟨n % b, Nat.mod_lt _ (by omega), by simpa using h⟩

theorem digitChar_inj : ∀ a < 16, ∀ b < 16, Nat.digitChar a = Nat.digitChar b → a = b := by decide

theorem toDigits_inj {b : Nat} (hb : 1 < b) (hb16 : b ≤ 16) (n m : Nat)
    (h : Nat.toDigits b n = Nat.toDigits b m) : n = m := by
  induction n using Nat.strongRecOn generalizing m with
  | ind n ih =>
    rw [Nat.toDigits_eq_if hb, Nat.toDigits_eq_if (n := m) hb] at h
    split at h <;> split at h
    · exact digitChar_inj n (by omega) m (by omega) (List.singleton_inj.1 h)
    · have hlen := congrArg List.length h
      have hpos := List.length_pos_iff.2 (Nat.toDigits_ne_nil (n := m / b) (b := b))
      simp only [List.length_singleton, List.length_append] at hlen
      omega
    · have hlen := congrArg List.length h
      have hpos := List.length_pos_iff.2 (Nat.toDigits_ne_nil (n := n / b) (b := b))
      simp only [List.length_singleton, List.length_append] at hlen
      omega
    · obtain ⟨hdiv, hmod⟩ := List.append_inj' h rfl
      have h1 : n / b = m / b := ih (n / b) (Nat.div_lt_self (by omega) hb) _ hdiv
      have hlt : n % b < 16 := (Nat.mod_lt n (by omega)).trans_le hb16
      have hlt' : m % b < 16 := (Nat.mod_lt m (by omega)).trans_le hb16
      have h2 : n % b = m % b := digitChar_inj _ hlt _ hlt' (List.singleton_inj.1 hmod)
      rw [← Nat.div_add_mod n b, ← Nat.div_add_mod m b, h1, h2]

namespace Str

variable {T : UnicodeTables}

/-! ## One character -/

/-- The characters with a two-character escape, and what follows the backslash. -/
def shortEscapes : List (Char × Char) :=
  [('\x00', '0'), ('\t', 't'), ('\r', 'r'), ('\n', 'n'), ('"', '"'), ('\\', '\\')]

theorem shortEscape_inj : ∀ e ∈ shortEscapes, ∀ f ∈ shortEscapes, e.2 = f.2 → e.1 = f.1 := by
  decide

theorem shortEscape_ne_u : ∀ e ∈ shortEscapes, e.2 ≠ 'u' := by decide

/-- The three shapes of an escaped character. -/
theorem escapeDebug_cases (T : UnicodeTables) (c : Char) :
    (∃ e ∈ shortEscapes, e.1 = c ∧ escapeDebug T c = ['\\', e.2]) ∨
    (c ≠ '"' ∧ c ≠ '\\' ∧ escapeDebug T c = [c]) ∨
    (c ≠ '"' ∧ escapeDebug T c = ['\\', 'u', '\x7b'] ++ Nat.toDigits 16 c.toNat ++ ['\x7d']) := by
  unfold escapeDebug
  split_ifs with h1 h2 h3 h4 h5 h6 h7
  · exact .inl ⟨('\x00', '0'), by decide, h1.symm, rfl⟩
  · exact .inl ⟨('\t', 't'), by decide, h2.symm, rfl⟩
  · exact .inl ⟨('\r', 'r'), by decide, h3.symm, rfl⟩
  · exact .inl ⟨('\n', 'n'), by decide, h4.symm, rfl⟩
  · exact .inl ⟨('"', '"'), by decide, h5.symm, rfl⟩
  · exact .inl ⟨('\\', '\\'), by decide, h6.symm, rfl⟩
  · exact .inr (.inl ⟨h5, h6, rfl⟩)
  · exact .inr (.inr ⟨h5, rfl⟩)

theorem digitChar_clean : ∀ d < 16, Nat.digitChar d ≠ '"' ∧ Nat.digitChar d ≠ '|' ∧
    Nat.digitChar d ≠ '\x7d' ∧ Nat.digitChar d ≠ '\\' := by decide

theorem toDigits_clean {b n : Nat} (hb : 1 < b) (hb16 : b ≤ 16) {c : Char}
    (h : c ∈ Nat.toDigits b n) : c ≠ '"' ∧ c ≠ '|' ∧ c ≠ '\x7d' ∧ c ≠ '\\' := by
  obtain ⟨d, hd, rfl⟩ := mem_toDigits hb n h
  exact digitChar_clean d (by omega)

/-- A quote in an escaped character is the escape of the quote. -/
theorem escapeDebug_quote {c : Char} {x y : Str} (h : escapeDebug T c = x ++ '"' :: y) :
    x = ['\\'] := by
  rcases escapeDebug_cases T c with ⟨e, he, -, heq⟩ | ⟨hq, -, heq⟩ | ⟨hq, heq⟩
  · rw [heq] at h
    match x, h with
    | [], h => simp at h
    | [a], h => rw [(List.cons.inj h).1]
    | a :: b :: x', h => simp at h
  · rw [heq] at h
    match x, h with
    | [], h => simp_all
    | a :: x', h => simp at h
  · have hmem : '"' ∈ escapeDebug T c := h ▸ by simp
    rw [heq] at hmem
    simp only [List.mem_append, List.mem_cons, List.not_mem_nil, or_false] at hmem
    rcases hmem with (hmem | hmem) | hmem
    · exact absurd hmem (by decide)
    · exact absurd rfl (toDigits_clean (by decide) le_rfl hmem).1
    · exact absurd hmem (by decide)

/-- No escaped character is the beginning of another one's escape. -/
theorem escapeDebug_append_inj {c d : Char} {x y : Str}
    (h : escapeDebug T c ++ x = escapeDebug T d ++ y) : c = d ∧ x = y := by
  rcases escapeDebug_cases T c with ⟨e, he, rfl, hc⟩ | ⟨-, hc', hc⟩ | ⟨-, hc⟩ <;>
    rcases escapeDebug_cases T d with ⟨f, hf, rfl, hd⟩ | ⟨-, hd', hd⟩ | ⟨-, hd⟩ <;>
    rw [hc, hd] at h
  · simp only [List.cons_append, List.nil_append, List.cons.injEq, true_and] at h
    exact ⟨shortEscape_inj e he f hf h.1, h.2⟩
  · exact absurd (List.cons.inj h).1.symm hd'
  · simp only [List.cons_append, List.cons.injEq, true_and] at h
    exact absurd h.1 (shortEscape_ne_u e he)
  · exact absurd (List.cons.inj h).1 hc'
  · simpa using h
  · exact absurd (List.cons.inj h).1 hc'
  · simp only [List.cons_append, List.cons.injEq, true_and] at h
    exact absurd h.1.symm (shortEscape_ne_u f hf)
  · exact absurd (List.cons.inj h).1.symm hd'
  · simp only [List.cons_append, List.nil_append, List.append_assoc, List.cons.injEq,
      true_and] at h
    have hnot : ∀ n, '\x7d' ∉ Nat.toDigits 16 n := fun n hmem =>
      absurd rfl (toDigits_clean (by decide) le_rfl hmem).2.2.1
    obtain ⟨hdigits, hxy⟩ := Labels.first_piece (hnot _) (hnot _) h
    exact ⟨Char.toNat_inj.1 (toDigits_inj (by decide) le_rfl _ _ hdigits), hxy⟩

/-! ## Strings -/

theorem flatMap_escapeDebug_inj :
    ∀ {s t : Str}, s.flatMap (escapeDebug T) = t.flatMap (escapeDebug T) → s = t
  | [], [], _ => rfl
  | [], d :: t, h => by
    exfalso
    have := escapeDebug_cases T d
    simp only [List.flatMap_nil, List.flatMap_cons] at h
    rcases this with ⟨e, -, -, heq⟩ | ⟨-, -, heq⟩ | ⟨-, heq⟩ <;> simp [heq] at h
  | c :: s, [], h => by
    exfalso
    have := escapeDebug_cases T c
    simp only [List.flatMap_nil, List.flatMap_cons] at h
    rcases this with ⟨e, -, -, heq⟩ | ⟨-, -, heq⟩ | ⟨-, heq⟩ <;> simp [heq] at h
  | c :: s, d :: t, h => by
    simp only [List.flatMap_cons] at h
    obtain ⟨rfl, hst⟩ := escapeDebug_append_inj h
    rw [flatMap_escapeDebug_inj hst]

theorem backslash_before_quote :
    ∀ {s x y : Str}, s.flatMap (escapeDebug T) = x ++ '"' :: y → ∃ x', x = x' ++ ['\\']
  | [], x, y, h => by simp at h
  | c :: s, x, y, h => by
    rw [List.flatMap_cons] at h
    rcases List.append_eq_append_iff.1 h with ⟨z, hx, hrest⟩ | ⟨z, hesc, hrest⟩
    · obtain ⟨x', hz⟩ := backslash_before_quote hrest
      exact ⟨escapeDebug T c ++ x', by rw [hx, hz, List.append_assoc]⟩
    · match z, hesc, hrest with
      | [], hesc, hrest =>
        obtain ⟨x', hx'⟩ := backslash_before_quote (s := s) (x := []) (y := y) hrest.symm
        simp at hx'
      | q :: z', hesc, hrest =>
        obtain ⟨rfl, -⟩ := List.cons.inj hrest
        exact ⟨[], escapeDebug_quote hesc⟩

end Str

/-! ## Texts that show where they end -/

/-- What follows a text of `f` can be told from it. -/
def SelfDelimiting {α : Type*} (f : α → Str) : Prop :=
  ∀ ⦃a b : α⦄ ⦃x y : Str⦄, f a ++ x = f b ++ y → a = b ∧ x = y

theorem selfDelimiting_debugStr (T : UnicodeTables) : SelfDelimiting (Str.debugStr T) := by
  -- the escape of a character does not start with a quote
  have hstart : ∀ (c : Char) (r x : Str), Str.escapeDebug T c ++ r ≠ '"' :: x := by
    intro c r x h
    rcases Str.escapeDebug_cases T c with ⟨e, -, -, heq⟩ | ⟨hquote, -, heq⟩ | ⟨-, heq⟩
    · rw [heq] at h
      exact absurd (List.cons.inj h).1 (by decide)
    · rw [heq] at h
      exact hquote (List.cons.inj h).1
    · rw [heq] at h
      exact absurd (List.cons.inj h).1 (by decide)
  have hbody : ∀ {s t x y : Str}, s.flatMap (Str.escapeDebug T) ++ '"' :: x =
      t.flatMap (Str.escapeDebug T) ++ '"' :: y → s = t ∧ x = y := by
    intro s
    induction s with
    | nil =>
      intro t x y h
      cases t with
      | nil => exact ⟨rfl, (List.cons.inj h).2⟩
      | cons d t =>
        rw [List.flatMap_cons, List.append_assoc] at h
        exact absurd h.symm (hstart d _ _)
    | cons c s ih =>
      intro t x y h
      cases t with
      | nil =>
        rw [List.flatMap_cons, List.append_assoc] at h
        exact absurd h (hstart c _ _)
      | cons d t =>
        simp only [List.flatMap_cons, List.append_assoc] at h
        obtain ⟨rfl, hrest⟩ := Str.escapeDebug_append_inj h
        obtain ⟨rfl, hxy⟩ := ih hrest
        exact ⟨rfl, hxy⟩
  intro s t x y h
  simp only [Str.debugStr, List.cons_append, List.append_assoc, List.cons.injEq, true_and,
    List.nil_append] at h
  exact hbody h

/-- A text after a fixed one, such as a field after its name. -/
def field (label : String) (text : Str) : Str := label.toList ++ text

theorem SelfDelimiting.field {α : Type*} {f : α → Str} (hf : SelfDelimiting f) (label : String) :
    SelfDelimiting fun a => field label (f a) := by
  intro a b x y h
  simp only [Lib.field, List.append_assoc] at h
  exact hf (List.append_cancel_left h)

/-- `{:?}` of an `Option`, from the text of what it holds. -/
def debugOption {α : Type*} (f : α → Str) : Option α → Str
  | none => "None".toList
  | some a => field "Some(" (f a) ++ [')']

theorem SelfDelimiting.debugOption {α : Type*} {f : α → Str} (hf : SelfDelimiting f) :
    SelfDelimiting (debugOption f) := by
  intro a b x y h
  cases a with
  | none =>
    cases b with
    | none => exact ⟨rfl, List.append_cancel_left h⟩
    | some b => exact absurd (List.cons.inj h).1 (by decide)
  | some a =>
    cases b with
    | none => exact absurd (List.cons.inj h).1 (by decide)
    | some b =>
      rw [Lib.debugOption, Lib.debugOption, List.append_assoc, List.append_assoc] at h
      obtain ⟨rfl, hxy⟩ := hf.field _ h
      exact ⟨rfl, List.append_cancel_left hxy⟩

/-- The field of a number shows where it ends if a comma follows it. -/
theorem field_toDigits_inj {label : String} {n m : Nat} {x y : Str} (hx : x.head? = some ',')
    (hy : y.head? = some ',')
    (h : field label (Nat.toDigits 10 n) ++ x = field label (Nat.toDigits 10 m) ++ y) :
    n = m ∧ x = y := by
  have hcomma : ∀ n, ',' ∉ Nat.toDigits 10 n := by
    intro n hmem
    obtain ⟨d, hd, heq⟩ := mem_toDigits (by decide) n hmem
    have hne : ∀ d < 10, ',' ≠ Nat.digitChar d := by decide
    exact hne d hd heq
  obtain ⟨x', rfl⟩ := List.head?_eq_some_iff.1 hx
  obtain ⟨y', rfl⟩ := List.head?_eq_some_iff.1 hy
  simp only [field, List.append_assoc] at h
  obtain ⟨hdigits, rfl⟩ := Labels.first_piece (hcomma n) (hcomma m) (List.append_cancel_left h)
  exact ⟨toDigits_inj (by decide) (by decide) n m hdigits, rfl⟩

/-- `{:?}` of a list, after the opening bracket and the first item. -/
def debugListRest {α : Type*} (f : α → Str) : List α → Str
  | [] => [']']
  | a :: as => ", ".toList ++ (f a ++ debugListRest f as)

theorem SelfDelimiting.debugListRest_inj {α : Type*} {f : α → Str} (hf : SelfDelimiting f) :
    ∀ {as bs : List α}, debugListRest f as = debugListRest f bs → as = bs
  | [], [], _ => rfl
  | [], b :: bs, h => absurd (List.cons.inj h).1 (by decide)
  | a :: as, [], h => absurd (List.cons.inj h).1 (by decide)
  | a :: as, b :: bs, h => by
    obtain ⟨rfl, hrest⟩ := hf (List.append_cancel_left h)
    rw [hf.debugListRest_inj hrest]

end RustyDns.Lib
