import RustyDns.L1Core.Config
import RustyDns.L1Core.Matchers
import RustyDns.L2Blocklist.Parser
import RustyDns.L2Blocklist.Allowlist

/-!
# The blocklist engine

`rustydns-blocklist/src/engine.rs`: a state of block entries, allow entries and regex rules, built
from the contents of all sources at once, one global state and one for each client group.
`loaded_at` and log output are left out; the swap of a state is the replacement of a field.

Results:
* `mem_domains_buildState`, `mem_wildcardParents_buildState`, `mem_exact_buildState`: what the loops
  of `build_state` collect, as sets.
* `isBlocked_mono`: the verdict under one allowlist grows with the block entries.
* `isBlocked_congr`: the verdict on an ASCII name ignores case and trailing dots.
* `untrusted_source_only_adds_blocking`: inserting an untrusted source, and reordering sources.
-/

namespace RustyDns.L2.Blocklist

open RustyDns.Lib RustyDns.L1

/-- mirrors crates/rustydns-blocklist/src/engine.rs:39-44 -/
inductive BlocklistSource where
  | trusted
  | untrusted
  deriving DecidableEq, Repr

/-- mirrors crates/rustydns-blocklist/src/engine.rs:50-61 -/
structure BlocklistState where
  domains : Finset Str
  wildcardParents : Finset Str
  allowlist : Allowlist
  regexRules : RegexRules
  entryCount : Nat
  heapBytes : Nat
  untrustedAllowsDiscarded : Nat

namespace BlocklistState

/-- mirrors crates/rustydns-blocklist/src/engine.rs:64-75 -/
def newEmpty (allowlist : Allowlist) : BlocklistState where
  domains := ∅
  wildcardParents := ∅
  allowlist := allowlist
  regexRules := {}
  entryCount := 0
  heapBytes := 0
  untrustedAllowsDiscarded := 0

/-- The walk up the labels: after each dot, the rest of the name. -/
def parentWalk (parents : Finset Str) : Str → Bool
  | [] => false
  | c :: rest => (c == '.' && decide (rest ∈ parents)) || parentWalk parents rest

/-- The form of a name that `is_blocked` looks up. -/
def lookupForm (T : UnicodeTables) (domain : Str) : Str :=
  let domain := domain.trimEndMatches '.'
  if domain.any Char.isUpper then domain.toLowercase T else domain

/-- The block half of `is_blocked`, on the lookup form. -/
def matchesBlock (st : BlocklistState) (domain : Str) : Bool :=
  decide (domain ∈ st.domains) || parentWalk st.wildcardParents domain ||
    st.regexRules.isMatch domain

/-- mirrors crates/rustydns-blocklist/src/engine.rs:83-123 -/
def isBlocked (T : UnicodeTables) (st : BlocklistState) (domain : Str) : Bool :=
  if domain.trimEndMatches '.' = [] then false
  else
    let domain := lookupForm T domain
    if st.allowlist.isAllowed domain then false else st.matchesBlock domain

end BlocklistState

/-! ## Building a state -/

/-- What the loops of `build_state` collect. -/
structure Collected where
  domains : Finset Str := ∅
  wildcardParents : Finset Str := ∅
  trustedAllows : List Str := []
  untrustedAllowsDiscarded : Nat := 0

/-- The inner loop body. -/
def collectEntry (trust : BlocklistSource) (acc : Collected) : ParsedEntry → Collected
  | .exact d => { acc with domains := insert d acc.domains }
  | .wildcardParent p => { acc with wildcardParents := insert p acc.wildcardParents }
  | .allow d =>
    match trust with
    | .trusted => { acc with trustedAllows := acc.trustedAllows ++ [d] }
    | .untrusted => { acc with untrustedAllowsDiscarded := acc.untrustedAllowsDiscarded + 1 }

/-- The outer loop body. -/
def collectSource (T : UnicodeTables) (acc : Collected) (source : Str × BlocklistSource) :
    Collected :=
  (parse T source.1).foldl (collectEntry source.2) acc

def collect (T : UnicodeTables) (sources : List (Str × BlocklistSource)) : Collected :=
  sources.foldl (collectSource T) {}

/-- mirrors crates/rustydns-blocklist/src/engine.rs:197-273 -/
def buildState (T : UnicodeTables) (regexRules : RegexRules)
    (sources : List (Str × BlocklistSource)) (allowlistEntries : List Str) : BlocklistState :=
  let c := collect T sources
  let base := Allowlist.fromEntries T allowlistEntries
  let entryCount := c.domains.card + c.wildcardParents.card
  { domains := c.domains
    wildcardParents := c.wildcardParents
    allowlist := if c.trustedAllows = [] then base else base.extendExact T c.trustedAllows
    regexRules := regexRules
    entryCount := entryCount
    heapBytes := entryCount * 80
    untrustedAllowsDiscarded := c.untrustedAllowsDiscarded }

/-! ## The engine -/

/-- mirrors crates/rustydns-blocklist/src/engine.rs:134-147 -/
structure BlocklistEngine where
  state : BlocklistState
  config : BlocklistConfig
  responseIpDenylist : IpDenylist
  regexRules : RegexRules
  groups : AList (fun _ : Str => BlocklistState)

namespace BlocklistEngine

/-- The state a group starts with. -/
def initialGroup (T : UnicodeTables) (regexRules : RegexRules) (g : BlocklistGroup) :
    BlocklistState :=
  { BlocklistState.newEmpty (Allowlist.fromEntries T g.allowlist) with regexRules }

/-- `RegexRules::compile`, falling back to no rules. -/
def compiledRules (build : RegexBuild) (config : BlocklistConfig) : RegexRules :=
  match RegexRules.compile build config.regexRules with
  | .ok r => r
  | .error _ => {}

/-- mirrors crates/rustydns-blocklist/src/engine.rs:151-192 -/
def new (T : UnicodeTables) (build : RegexBuild) (config : BlocklistConfig) : BlocklistEngine :=
  let regexRules := compiledRules build config
  { state := { BlocklistState.newEmpty (Allowlist.fromEntries T config.allowlist) with regexRules }
    config := config
    responseIpDenylist := match IpDenylist.parse config.responseIpDenylist with
      | .ok d => d
      | .error _ => {}
    regexRules := regexRules
    groups := config.groups.foldl (fun m g => m.insert g.name (initialGroup T regexRules g)) ∅ }

/-- mirrors crates/rustydns-blocklist/src/engine.rs:283-286 -/
def loadManyWithTrust (T : UnicodeTables) (e : BlocklistEngine)
    (sources : List (Str × BlocklistSource)) : BlocklistEngine :=
  { e with state := buildState T e.regexRules sources e.config.allowlist }

/-- mirrors crates/rustydns-blocklist/src/engine.rs:290-306 -/
def loadGroup (T : UnicodeTables) (e : BlocklistEngine) (group : Str)
    (sources : List (Str × BlocklistSource)) (allowlistEntries : List Str) : BlocklistEngine :=
  if group ∈ e.groups then
    let state := buildState T e.regexRules sources allowlistEntries
    { e with groups := e.groups.insert group state }
  else e

/-- The state a client of `group` is matched against. -/
def stateFor (e : BlocklistEngine) (group : Option Str) : BlocklistState :=
  (group.bind e.groups.lookup).getD e.state

/-- mirrors crates/rustydns-blocklist/src/engine.rs:330-335 -/
def isBlockedForGroup (T : UnicodeTables) (e : BlocklistEngine) (domain : Str)
    (group : Option Str) : Bool :=
  (e.stateFor group).isBlocked T domain

end BlocklistEngine

/-! ## What the loops collect -/

section
variable {T : UnicodeTables} {d : Str} {sources : List (Str × BlocklistSource)}

theorem mem_domains_collectSource (acc : Collected) (src : Str × BlocklistSource) :
    d ∈ (collectSource T acc src).domains ↔ d ∈ acc.domains ∨ .exact d ∈ parse T src.1 := by
  refine (Fold.foldl_iff (P := fun c : Collected => d ∈ c.domains) (Q := (· = .exact d))
    (fun c e => ?_) _ acc).trans (by simp)
  cases e with
  | exact d' => simp [collectEntry, or_comm, eq_comm]
  | wildcardParent p => simp [collectEntry]
  | allow a => cases src.2 <;> simp [collectEntry]

theorem mem_wildcardParents_collectSource (acc : Collected) (src : Str × BlocklistSource) :
    d ∈ (collectSource T acc src).wildcardParents ↔
      d ∈ acc.wildcardParents ∨ .wildcardParent d ∈ parse T src.1 := by
  refine (Fold.foldl_iff (P := fun c : Collected => d ∈ c.wildcardParents)
    (Q := (· = .wildcardParent d)) (fun c e => ?_) _ acc).trans (by simp)
  cases e with
  | exact d' => simp [collectEntry]
  | wildcardParent p => simp [collectEntry, or_comm, eq_comm]
  | allow a => cases src.2 <;> simp [collectEntry]

theorem mem_trustedAllows_collectSource (acc : Collected) (src : Str × BlocklistSource) :
    d ∈ (collectSource T acc src).trustedAllows ↔
      d ∈ acc.trustedAllows ∨ (src.2 = .trusted ∧ .allow d ∈ parse T src.1) := by
  refine (Fold.foldl_iff (P := fun c : Collected => d ∈ c.trustedAllows)
    (Q := fun e => src.2 = .trusted ∧ e = .allow d) (fun c e => ?_) _ acc).trans
      (by simp [and_comm])
  cases e with
  | exact d' => simp [collectEntry]
  | wildcardParent p => simp [collectEntry]
  | allow a => cases src.2 <;> simp [collectEntry, eq_comm]

theorem mem_domains_buildState {rules : RegexRules} {allow : List Str} :
    d ∈ (buildState T rules sources allow).domains ↔
      ∃ src ∈ sources, .exact d ∈ parse T src.1 := by
  exact (Fold.foldl_iff (P := fun c : Collected => d ∈ c.domains)
    mem_domains_collectSource _ _).trans (by simp)

theorem mem_wildcardParents_buildState {rules : RegexRules} {allow : List Str} :
    d ∈ (buildState T rules sources allow).wildcardParents ↔
      ∃ src ∈ sources, .wildcardParent d ∈ parse T src.1 := by
  exact (Fold.foldl_iff (P := fun c : Collected => d ∈ c.wildcardParents)
    mem_wildcardParents_collectSource _ _).trans (by simp)

theorem mem_trustedAllows_collect :
    d ∈ (collect T sources).trustedAllows ↔
      ∃ src ∈ sources, src.2 = .trusted ∧ .allow d ∈ parse T src.1 := by
  exact (Fold.foldl_iff (P := fun c : Collected => d ∈ c.trustedAllows)
    mem_trustedAllows_collectSource _ _).trans (by simp)

@[simp] theorem buildState_allowlist {rules : RegexRules} {allow : List Str} :
    (buildState T rules sources allow).allowlist =
      (Allowlist.fromEntries T allow).extendExact T (collect T sources).trustedAllows := by
  unfold buildState
  simp only
  split
  · rename_i h
    rw [h]
    rfl
  · rfl

theorem mem_exact_buildState {rules : RegexRules} {allow : List Str} :
    d ∈ (buildState T rules sources allow).allowlist.exact ↔
      d ∈ (Allowlist.fromEntries T allow).exact ∨
      ∃ src ∈ sources, src.2 = .trusted ∧
        ∃ e, .allow e ∈ parse T src.1 ∧ Allowlist.exactForm T e = d ∧ d ≠ [] := by
  rw [buildState_allowlist, Allowlist.mem_extendExact]
  simp only [mem_trustedAllows_collect]
  constructor
  · rintro (h | ⟨e, ⟨src, hs, ht, he⟩, hd⟩)
    · exact .inl h
    · exact .inr ⟨src, hs, ht, e, he, hd⟩
  · rintro (h | ⟨src, hs, ht, e, he, hd⟩)
    · exact .inl h
    · exact .inr ⟨e, ⟨src, hs, ht, he⟩, hd⟩

/-- The built allowlist holds at least the configured entries. -/
theorem fromEntries_sub_buildState {rules : RegexRules} {allow : List Str} :
    (Allowlist.fromEntries T allow).Sub (buildState T rules sources allow).allowlist := by
  rw [buildState_allowlist]
  exact Allowlist.sub_extendExact T _ _

/-! ## Verdicts -/

/-- At least the block entries of `s`, with the same allow entries and rules. -/
structure BlocklistState.Extends (t s : BlocklistState) : Prop where
  domains : s.domains ⊆ t.domains
  wildcardParents : s.wildcardParents ⊆ t.wildcardParents
  allowlist : t.allowlist = s.allowlist
  regexRules : t.regexRules = s.regexRules

/-- The walk finds exactly what stands after a dot. -/
theorem parentWalk_iff {parents : Finset Str} {name : Str} :
    BlocklistState.parentWalk parents name = true ↔
      ∃ front, ∃ p ∈ parents, name = front ++ '.' :: p := by
  have hcons : ∀ c rest, BlocklistState.parentWalk parents (c :: rest) =
      (c == '.' && decide (rest ∈ parents) || BlocklistState.parentWalk parents rest) :=
    fun _ _ => rfl
  simpa using Str.walk_iff rfl hcons

theorem parentWalk_mono {s t : Finset Str} (h : s ⊆ t) :
    ∀ name : Str, BlocklistState.parentWalk s name = true → BlocklistState.parentWalk t name = true
  | [], hw => hw
  | c :: rest, hw => by
    simp only [BlocklistState.parentWalk, Bool.or_eq_true, Bool.and_eq_true,
      decide_eq_true_eq] at hw ⊢
    rcases hw with ⟨hc, hmem⟩ | hw
    · exact .inl ⟨hc, h hmem⟩
    · exact .inr (parentWalk_mono h rest hw)

theorem isBlocked_mono {s t : BlocklistState} (h : t.Extends s) {name : Str}
    (hs : s.isBlocked T name = true) : t.isBlocked T name = true := by
  unfold BlocklistState.isBlocked at hs ⊢
  simp only [h.allowlist] at hs ⊢
  split at hs
  · cases hs
  · rename_i hne
    rw [if_neg hne]
    split at hs
    · cases hs
    · rename_i hallow
      rw [if_neg hallow]
      simp only [BlocklistState.matchesBlock, h.regexRules, Bool.or_eq_true,
        decide_eq_true_eq] at hs ⊢
      rcases hs with (hmem | hw) | hre
      · exact .inl (.inl (h.domains hmem))
      · exact .inl (.inr (parentWalk_mono h.wildcardParents _ hw))
      · exact .inr hre

theorem lookupForm_of_isAscii {name : Str} (h : name.isAscii = true) :
    BlocklistState.lookupForm T name = (name.trimEndMatches '.').toAsciiLowercase := by
  unfold BlocklistState.lookupForm
  simp only
  split
  · exact Str.toLowercase_of_isAscii T (by simpa using h)
  · rename_i hup
    exact (Str.toAsciiLowercase_of_not_upper (by simpa using hup)).symm

/-- The verdict on an ASCII name does not depend on its case and its trailing dots. -/
theorem isBlocked_congr {st : BlocklistState} {name name' : Str} (h : name.isAscii = true)
    (heq : (name'.trimEndMatches '.').toAsciiLowercase =
      (name.trimEndMatches '.').toAsciiLowercase) :
    st.isBlocked T name' = st.isBlocked T name := by
  have h' : name'.isAscii = true := by simpa [h] using congrArg Str.isAscii heq
  have hnil : name'.trimEndMatches '.' = [] ↔ name.trimEndMatches '.' = [] := by
    simpa using congrArg (· = []) heq
  unfold BlocklistState.isBlocked
  simp only [lookupForm_of_isAscii h, lookupForm_of_isAscii h', heq, hnil]

/-- The state built from more sources extends the one built from fewer, if no trusted source was
added. -/
theorem buildState_extends {rules : RegexRules} {allow : List Str}
    {few many : List (Str × BlocklistSource)} (hsub : few ⊆ many)
    (htrusted : ∀ src ∈ many, src.2 = .trusted → src ∈ few) :
    (buildState T rules many allow).Extends (buildState T rules few allow) where
  domains d hd := by
    obtain ⟨src, hsrc, hd⟩ := mem_domains_buildState.1 hd
    exact mem_domains_buildState.2 ⟨src, hsub hsrc, hd⟩
  wildcardParents d hd := by
    obtain ⟨src, hsrc, hd⟩ := mem_wildcardParents_buildState.1 hd
    exact mem_wildcardParents_buildState.2 ⟨src, hsub hsrc, hd⟩
  allowlist := by
    refine Allowlist.ext (Finset.ext fun d => ?_) (by simp)
    rw [mem_exact_buildState, mem_exact_buildState]
    refine or_congr_right ⟨?_, ?_⟩
    · rintro ⟨src, hsrc, ht, he⟩
      exact ⟨src, htrusted src hsrc ht, ht, he⟩
    · rintro ⟨src, hsrc, he⟩
      exact ⟨src, hsub hsrc, he⟩
  regexRules := rfl

theorem isBlocked_buildState_perm {rules : RegexRules} {allow : List Str}
    {l₁ l₂ : List (Str × BlocklistSource)} (h : l₁.Perm l₂) (name : Str) :
    (buildState T rules l₁ allow).isBlocked T name =
      (buildState T rules l₂ allow).isBlocked T name := by
  have h₁ : (buildState T rules l₁ allow).Extends (buildState T rules l₂ allow) :=
    buildState_extends h.symm.subset fun src hsrc _ => h.subset hsrc
  have h₂ : (buildState T rules l₂ allow).Extends (buildState T rules l₁ allow) :=
    buildState_extends h.subset fun src hsrc _ => h.symm.subset hsrc
  exact Bool.eq_iff_iff.2 ⟨isBlocked_mono h₂, isBlocked_mono h₁⟩

/-- **An untrusted source can only add blocking**: whatever text `u` it serves and wherever it
stands among the sources, the allowed names are unchanged and no blocked name is unblocked; and
the order of sources changes no verdict. -/
theorem untrusted_source_only_adds_blocking (T : UnicodeTables) (rules : RegexRules)
    (allow : List Str) (before after : List (Str × BlocklistSource)) (u : Str) :
    (∀ name, (buildState T rules (before ++ (u, .untrusted) :: after) allow).allowlist.isAllowed
        name = (buildState T rules (before ++ after) allow).allowlist.isAllowed name) ∧
    (∀ name, (buildState T rules (before ++ after) allow).isBlocked T name = true →
      (buildState T rules (before ++ (u, .untrusted) :: after) allow).isBlocked T name = true) ∧
    (∀ reordered, reordered.Perm (before ++ after) → ∀ name,
      (buildState T rules reordered allow).isBlocked T name =
        (buildState T rules (before ++ after) allow).isBlocked T name) := by
  have hext : (buildState T rules (before ++ (u, .untrusted) :: after) allow).Extends
      (buildState T rules (before ++ after) allow) := by
    refine buildState_extends ?_ ?_
    · intro src hsrc
      simp only [List.mem_append, List.mem_cons] at hsrc ⊢
      tauto
    · rintro src hsrc ht
      simp only [List.mem_append, List.mem_cons] at hsrc ⊢
      rcases hsrc with h | rfl | h
      · exact .inl h
      · cases ht
      · exact .inr h
  refine ⟨fun name => ?_, fun name => isBlocked_mono hext, fun l hl name => ?_⟩
  · rw [hext.allowlist]
  · exact isBlocked_buildState_perm hl name

end

end RustyDns.L2.Blocklist
