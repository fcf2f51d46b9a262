import RustyDns.Lib.Unicode
import RustyDns.Lib.Fold

/-!
# The allowlist

`rustydns-blocklist/src/allowlist.rs`. Hash sets are finite sets; the suffix walk is the recursion
over the positions of the dots.

Results:
* `isAllowed_mono`: a larger allowlist allows every name a smaller one allows.
* `fromEntries_sub_append`: the allowlist of some entries is part of that of more entries.
-/

namespace RustyDns.L2.Blocklist

open RustyDns.Lib

/-- mirrors crates/rustydns-blocklist/src/allowlist.rs:22-32 -/
@[ext] structure Allowlist where
  exact : Finset Str
  suffixes : Finset Str

namespace Allowlist

/-- Part of, entry by entry. -/
structure Sub (a b : Allowlist) : Prop where
  exact : a.exact ⊆ b.exact
  suffixes : a.suffixes ⊆ b.suffixes

/-- One turn of the loop of `from_entries`. -/
def addEntry (T : UnicodeTables) (al : Allowlist) (entry : Str) : Allowlist :=
  let entry := (entry.trim.toLowercase T).trimEndMatches '.'
  if entry = [] then al
  else
    match entry.stripStart "*.".toList with
    | some rest => { al with suffixes := insert ('.' :: rest) al.suffixes }
    | none =>
      if entry.startsWith ['.'] then { al with suffixes := insert entry al.suffixes }
      else { al with exact := insert entry al.exact }

/-- mirrors crates/rustydns-blocklist/src/allowlist.rs:39-61 -/
def fromEntries (T : UnicodeTables) (entries : List Str) : Allowlist :=
  entries.foldl (addEntry T) ⟨∅, ∅⟩

/-- The normal form `extend_exact` stores. -/
def exactForm (T : UnicodeTables) (entry : Str) : Str :=
  (entry.trim.trimEndMatches '.').toLowercase T

/-- mirrors crates/rustydns-blocklist/src/allowlist.rs:67-74 -/
def extendExact (T : UnicodeTables) (al : Allowlist) (entries : List Str) : Allowlist :=
  entries.foldl (fun al entry =>
    if exactForm T entry = [] then al
    else { al with exact := insert (exactForm T entry) al.exact }) al

/-- The suffix walk: at each dot, the rest of the name from that dot on. -/
def suffixWalk (suffixes : Finset Str) : Str → Bool
  | [] => false
  | c :: rest => (c == '.' && decide (c :: rest ∈ suffixes)) || suffixWalk suffixes rest

/-- mirrors crates/rustydns-blocklist/src/allowlist.rs:88-124 -/
def isAllowed (al : Allowlist) (domain : Str) : Bool :=
  let domain := domain.trimEndMatches '.'
  if domain = [] then false
  else
    let domain := if domain.any Char.isUpper then domain.toAsciiLowercase else domain
    decide (domain ∈ al.exact) || suffixWalk al.suffixes domain

/-! ## Monotonicity -/

theorem Sub.refl (a : Allowlist) : a.Sub a := ⟨subset_rfl, subset_rfl⟩

theorem Sub.trans {a b c : Allowlist} (h₁ : a.Sub b) (h₂ : b.Sub c) : a.Sub c :=
  ⟨h₁.exact.trans h₂.exact, h₁.suffixes.trans h₂.suffixes⟩

theorem suffixWalk_mono {s t : Finset Str} (h : s ⊆ t) :
    ∀ name : Str, suffixWalk s name = true → suffixWalk t name = true
  | [], hw => hw
  | c :: rest, hw => by
    simp only [suffixWalk, Bool.or_eq_true, Bool.and_eq_true, decide_eq_true_eq] at hw ⊢
    rcases hw with ⟨hc, hmem⟩ | hw
    · exact .inl ⟨hc, h hmem⟩
    · exact .inr (suffixWalk_mono h rest hw)

theorem isAllowed_mono {a b : Allowlist} (h : a.Sub b) {name : Str}
    (ha : isAllowed a name = true) : isAllowed b name = true := by
  unfold isAllowed at ha ⊢
  simp only at ha ⊢
  split at ha
  · cases ha
  · rename_i hne
    rw [if_neg hne]
    simp only [Bool.or_eq_true, decide_eq_true_eq] at ha ⊢
    rcases ha with hmem | hw
    · exact .inl (h.exact hmem)
    · exact .inr (suffixWalk_mono h.suffixes _ hw)

theorem sub_addEntry (T : UnicodeTables) (al : Allowlist) (entry : Str) :
    al.Sub (addEntry T al entry) := by
  unfold addEntry
  simp only
  split
  · exact .refl al
  · split
    · exact ⟨subset_rfl, Finset.subset_insert _ _⟩
    · split
      · exact ⟨subset_rfl, Finset.subset_insert _ _⟩
      · exact ⟨Finset.subset_insert _ _, subset_rfl⟩

theorem sub_foldl_addEntry (T : UnicodeTables) :
    ∀ (entries : List Str) (al : Allowlist), al.Sub (entries.foldl (addEntry T) al)
  | [], al => .refl al
  | e :: es, al => (sub_addEntry T al e).trans (sub_foldl_addEntry T es (addEntry T al e))

theorem fromEntries_sub_append (T : UnicodeTables) (entries more : List Str) :
    (fromEntries T entries).Sub (fromEntries T (entries ++ more)) := by
  unfold fromEntries
  rw [List.foldl_append]
  exact sub_foldl_addEntry T more _

/-! ## What the entries allow -/

/-- What an entry of the config allows: one name, or every name below one. -/
inductive Pattern where
  | exact (d : Str)
  | below (d : Str)
  deriving DecidableEq, Repr

/-- How `from_entries` reads an entry; none for an entry it skips. -/
def pattern (T : UnicodeTables) (entry : Str) : Option Pattern :=
  let entry := (entry.trim.toLowercase T).trimEndMatches '.'
  if entry = [] then none
  else
    match entry.stripStart "*.".toList, entry.stripStart ['.'] with
    | some d, _ => some (.below d)
    | none, some d => some (.below d)
    | none, none => some (.exact entry)

theorem addEntry_eq (T : UnicodeTables) (al : Allowlist) (entry : Str) :
    addEntry T al entry =
      match pattern T entry with
      | some (.exact d) => { al with exact := insert d al.exact }
      | some (.below d) => { al with suffixes := insert ('.' :: d) al.suffixes }
      | none => al := by
  unfold addEntry pattern
  simp only
  generalize (entry.trim.toLowercase T).trimEndMatches '.' = e
  by_cases he : e = []
  · simp [he]
  · rw [if_neg he, if_neg he]
    cases hstar : e.stripStart "*.".toList with
    | some d => rfl
    | none =>
      cases hdot : e.stripStart ['.'] with
      | some d =>
        have hcons : e = '.' :: d := Str.stripStart_eq_some_iff.1 hdot
        simp [Str.startsWith, hcons, Str.stripStart, Str.dropStart]
      | none => simp [Str.startsWith, hdot]

theorem mem_exact_fromEntries {T : UnicodeTables} {entries : List Str} {d : Str} :
    d ∈ (fromEntries T entries).exact ↔ ∃ e ∈ entries, pattern T e = some (.exact d) := by
  refine (Fold.foldl_iff (P := fun al : Allowlist => d ∈ al.exact)
    (Q := fun e => pattern T e = some (.exact d)) (fun al e => ?_) entries _).trans (by simp)
  rw [addEntry_eq]
  split
  · rename_i d' hp
    simp [hp, or_comm, eq_comm]
  · rename_i d' hp
    simp [hp]
  · rename_i hp
    simp [hp]

theorem mem_suffixes_fromEntries {T : UnicodeTables} {entries : List Str} {d : Str} :
    '.' :: d ∈ (fromEntries T entries).suffixes ↔ ∃ e ∈ entries, pattern T e = some (.below d) := by
  refine (Fold.foldl_iff (P := fun al : Allowlist => '.' :: d ∈ al.suffixes)
    (Q := fun e => pattern T e = some (.below d)) (fun al e => ?_) entries _).trans (by simp)
  rw [addEntry_eq]
  split
  · rename_i d' hp
    simp [hp]
  · rename_i d' hp
    simp [hp, or_comm, eq_comm]
  · rename_i hp
    simp [hp]

/-- The walk finds exactly the suffixes that start at a dot. -/
theorem suffixWalk_iff {suffixes : Finset Str} {name : Str} :
    suffixWalk suffixes name = true ↔ ∃ front d, '.' :: d ∈ suffixes ∧ name = front ++ '.' :: d := by
  have hcons : ∀ c rest, suffixWalk suffixes (c :: rest) =
      (c == '.' && decide ('.' :: rest ∈ suffixes) || suffixWalk suffixes rest) := by
    intro c rest
    by_cases hc : c = '.'
    · rw [hc, suffixWalk]
    · simp [suffixWalk, beq_eq_false_iff_ne.2 hc]
  simpa using Str.walk_iff rfl hcons

/-! ## Trusted entries -/

@[simp] theorem extendExact_suffixes (T : UnicodeTables) (entries : List Str) (al : Allowlist) :
    (extendExact T al entries).suffixes = al.suffixes := by
  refine Fold.foldl_const (g := Allowlist.suffixes) (fun al e => ?_) entries al
  split
  · rfl
  · rfl

theorem mem_extendExact {T : UnicodeTables} {d : Str} {entries : List Str} {al : Allowlist} :
    d ∈ (extendExact T al entries).exact ↔
      d ∈ al.exact ∨ ∃ e ∈ entries, exactForm T e = d ∧ d ≠ [] := by
  refine Fold.foldl_iff (P := fun al => d ∈ al.exact) (fun al e => ?_) entries al
  by_cases he : exactForm T e = []
  · rw [if_pos he, he]
    constructor
    · exact .inl
    · rintro (h | ⟨rfl, hne⟩)
      · exact h
      · exact absurd rfl hne
  · rw [if_neg he, Finset.mem_insert]
    constructor
    · rintro (rfl | h)
      · exact .inr ⟨rfl, he⟩
      · exact .inl h
    · rintro (h | ⟨rfl, -⟩)
      · exact .inr h
      · exact .inl rfl

theorem sub_extendExact (T : UnicodeTables) (al : Allowlist) (entries : List Str) :
    al.Sub (extendExact T al entries) :=
  ⟨fun _ hd => mem_extendExact.2 (.inl hd), (extendExact_suffixes T entries al).symm.subset⟩

end Allowlist

end RustyDns.L2.Blocklist
