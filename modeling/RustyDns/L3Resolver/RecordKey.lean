import RustyDns.L1Core.Record
import RustyDns.Lib.AddressText

/-!
# The key of a record

`dedup_identical` (`rustydns-resolver/src/lib.rs`) compares records by a text built with
`format!("{}|{:?}|{:?}", r.name, r.data, r.ttl)`. The `{:?}` forms are those of `derive(Debug)`, of
the standard library's addresses, strings and lists, and of a `Duration` of whole seconds.

A name may hold the separator, so the parts are found from the right: the TTL has none, and the data
is either free of quotes and separators, or has all of them inside one quoted string.

Results:
* `dedupKey_parts`: equal keys have equal names, data texts and TTL texts.
* `dedupKey_eq_iff`: a key stands for one name, data and TTL.
-/

namespace RustyDns.L3

open RustyDns.Lib RustyDns.L1

/-! ## Debug output -/

/-- `{:?}` of a `Vec`, from the texts of its items. -/
def debugList (items : List Str) : Str := '[' :: [',', ' '].intercalate items ++ [']']

def debugBytes (b : List UInt8) : Str := debugList (b.map fun x => Nat.toDigits 10 x.toNat)

/-- `{:?}` of a `Duration` of whole seconds. -/
def debugSecs (secs : Nat) : Str :=
  if secs = 0 then "0ns".toList else Nat.toDigits 10 secs ++ ['s']

/-- `{:?}` of a `RecordData`. -/
def debugData (T : UnicodeTables) : RecordData → Str
  | .a ip => "A(".toList ++ ip.display ++ [')']
  | .aaaa ip => "Aaaa(".toList ++ ip.display ++ [')']
  | .cname target => "Cname(".toList ++ target.debugStr T ++ [')']
  | .ptr target => "Ptr(".toList ++ target.debugStr T ++ [')']
  | .txt parts => "Txt(".toList ++ debugList (parts.map debugBytes) ++ [')']
  | .mx preference exchange =>
    "Mx \x7b preference: ".toList ++ Nat.toDigits 10 preference ++ ", exchange: ".toList ++
      exchange.debugStr T ++ " \x7d".toList
  | .ns target => "Ns(".toList ++ target.debugStr T ++ [')']
  | .srv priority weight port target =>
    "Srv \x7b priority: ".toList ++ Nat.toDigits 10 priority ++ ", weight: ".toList ++
      Nat.toDigits 10 weight ++ ", port: ".toList ++ Nat.toDigits 10 port ++
      ", target: ".toList ++ target.debugStr T ++ " \x7d".toList

/-- mirrors crates/rustydns-resolver/src/lib.rs:1092 -/
def dedupKey (T : UnicodeTables) (r : DnsRecord) : Str :=
  r.name ++ '|' :: debugData T r.data ++ '|' :: debugSecs r.ttl

/-! ## Text without quotes and separators -/

def cleanChar (c : Char) : Bool := c != '"' && c != '|' && c != '\\'

/-- No quote, no separator, no backslash. -/
def Clean (s : Str) : Prop := s.all cleanChar = true

instance (s : Str) : Decidable (Clean s) := inferInstanceAs (Decidable (s.all cleanChar = true))

theorem clean_append {s t : Str} : Clean (s ++ t) ↔ Clean s ∧ Clean t := by
  simp [Clean]

theorem clean_cons {c : Char} {s : Str} : Clean (c :: s) ↔ cleanChar c = true ∧ Clean s := by
  simp [Clean]

theorem clean_toDigits {b n : Nat} (hb : 1 < b) (hb16 : b ≤ 16) : Clean (Nat.toDigits b n) := by
  refine List.all_eq_true.2 fun c hc => ?_
  obtain ⟨hq, hs, -, he⟩ := Str.toDigits_clean hb hb16 hc
  simp [cleanChar, hq, hs, he]

theorem clean_intercalate {sep : Str} (hsep : Clean sep) {items : List Str}
    (h : ∀ s ∈ items, Clean s) : Clean (sep.intercalate items) := by
  refine List.all_eq_true.2 fun c hc => ?_
  rcases mem_of_mem_intercalate hc with hc | ⟨s, hs, hc⟩
  · exact List.all_eq_true.1 hsep c hc
  · exact List.all_eq_true.1 (h s hs) c hc

theorem clean_ipv4 (a : Ipv4Addr) : Clean a.display := by
  have hdot : cleanChar '.' = true := by decide
  simp only [Ipv4Addr.display, clean_append, clean_cons, hdot, true_and]
  exact ⟨⟨⟨clean_toDigits (by decide) (by decide), clean_toDigits (by decide) (by decide)⟩,
    clean_toDigits (by decide) (by decide)⟩, clean_toDigits (by decide) (by decide)⟩

theorem clean_fmtSubslice (segments : List Nat) : Clean (Ipv6Addr.fmtSubslice segments) := by
  refine clean_intercalate (by decide) fun s hs => ?_
  obtain ⟨n, -, rfl⟩ := List.mem_map.1 hs
  exact clean_toDigits (by decide) le_rfl

theorem clean_ipv6 (a : Ipv6Addr) : Clean a.display := by
  unfold Ipv6Addr.display
  split
  · exact clean_append.2 ⟨by decide, clean_ipv4 _⟩
  · simp only
    split
    · exact clean_append.2 ⟨clean_append.2 ⟨clean_fmtSubslice _, by decide⟩, clean_fmtSubslice _⟩
    · exact clean_fmtSubslice _

theorem clean_debugList {items : List Str} (h : ∀ s ∈ items, Clean s) : Clean (debugList items) := by
  rw [debugList, clean_append, clean_cons]
  exact ⟨⟨by decide, clean_intercalate (by decide) h⟩, by decide⟩

theorem clean_debugBytes (b : List UInt8) : Clean (debugBytes b) := by
  refine clean_debugList fun s hs => ?_
  obtain ⟨x, -, rfl⟩ := List.mem_map.1 hs
  exact clean_toDigits (by decide) (by decide)

theorem clean_debugSecs (secs : Nat) : Clean (debugSecs secs) := by
  unfold debugSecs
  split
  · decide
  · exact clean_append.2 ⟨clean_toDigits (by decide) (by decide), by decide⟩

theorem not_mem_of_clean {s : Str} (h : Clean s) {c : Char} (hc : cleanChar c = false) : c ∉ s := by
  intro hmem
  rw [List.all_eq_true.1 h c hmem] at hc
  cases hc

/-! ## The parts of a key -/

/-- The shape of a data text: clean, or one quoted string between clean texts. -/
inductive DataText (T : UnicodeTables) : Str → Prop where
  | clean {d : Str} : Clean d → DataText T d
  | quoted {before s after : Str} : before ≠ [] → Clean before → Clean after →
      DataText T (before ++ s.debugStr T ++ after)

section
variable {T : UnicodeTables}

theorem dataText_debugData (data : RecordData) : DataText T (debugData T data) := by
  have hclose : Clean [')'] := by decide
  cases data with
  | a ip => exact .clean (clean_append.2 ⟨clean_append.2 ⟨by decide, clean_ipv4 ip⟩, hclose⟩)
  | aaaa ip => exact .clean (clean_append.2 ⟨clean_append.2 ⟨by decide, clean_ipv6 ip⟩, hclose⟩)
  | cname target => exact .quoted (by decide) (by decide) hclose
  | ptr target => exact .quoted (by decide) (by decide) hclose
  | txt parts =>
    refine .clean (clean_append.2 ⟨clean_append.2 ⟨by decide, clean_debugList fun s hs => ?_⟩, hclose⟩)
    obtain ⟨b, -, rfl⟩ := List.mem_map.1 hs
    exact clean_debugBytes b
  | mx preference exchange =>
    refine .quoted (by simp) ?_ (by decide)
    simp only [clean_append]
    exact ⟨⟨by decide, clean_toDigits (by decide) (by decide)⟩, by decide⟩
  | ns target => exact .quoted (by decide) (by decide) hclose
  | srv priority weight port target =>
    refine .quoted (by simp) ?_ (by decide)
    have hdigits (n : Nat) : Clean (Nat.toDigits 10 n) := clean_toDigits (by decide) (by decide)
    simp only [clean_append]
    exact ⟨⟨⟨⟨⟨⟨by decide, hdigits _⟩, by decide⟩, hdigits _⟩, by decide⟩, hdigits _⟩, by decide⟩

/-- A separator in a quoted data text is inside its string. -/
theorem separator_inside {before s after x d : Str} (hb : Clean before) (ha : Clean after)
    (h : before ++ s.debugStr T ++ after = x ++ '|' :: d) :
    ∃ y z, s.flatMap (Str.escapeDebug T) = y ++ '|' :: z ∧ d = z ++ '"' :: after := by
  have hopen : '|' ∉ before ++ ['"'] := by
    simp [not_mem_of_clean hb (c := '|') (by decide)]
  have hclose : '|' ∉ '"' :: after := by
    simp [not_mem_of_clean ha (c := '|') (by decide)]
  have hsplit : (before ++ ['"']) ++ (s.flatMap (Str.escapeDebug T) ++ '"' :: after) =
      x ++ '|' :: d := by
    rw [← h]
    simp [Str.debugStr]
  obtain ⟨y, -, hy⟩ := cut_right hsplit hopen
  obtain ⟨z, hz, hd⟩ := cut_left hy hclose
  exact ⟨y, z, hz, hd⟩

/-- What follows a separator in a data text is no data text: the separator was inside the quoted
string, so the next quote either ends that string or is escaped. -/
theorem dataText_not_after_separator {d d' x : Str} (hd : DataText T d) (hd' : DataText T d') :
    d' ≠ x ++ '|' :: d := by
  rintro rfl
  generalize hwhole : x ++ '|' :: d = whole at hd'
  cases hd' with
  | clean hclean => exact not_mem_of_clean hclean (c := '|') (by decide) (hwhole ▸ by simp)
  | @quoted before s after hne hb ha =>
    obtain ⟨y, z, hyz, rfl⟩ := separator_inside hb ha hwhole.symm
    generalize htail : z ++ '"' :: after = tail at hd
    cases hd with
    | clean hclean => exact not_mem_of_clean hclean (c := '"') (by decide) (htail ▸ by simp)
    | @quoted before' s' after' hne' hb' ha' =>
      have hq : '"' ∉ before' := not_mem_of_clean hb' (by decide)
      simp only [Str.debugStr, List.append_assoc, List.cons_append] at htail
      by_cases hz : '"' ∈ z
      · obtain ⟨z₁, z₂, rfl, hz₁⟩ := List.eq_append_cons_of_mem hz
        rw [List.append_assoc, List.cons_append] at htail
        obtain ⟨rfl, -⟩ := Labels.first_piece hz₁ hq htail
        obtain ⟨w, hw⟩ := Str.backslash_before_quote (s := s) (x := y ++ '|' :: z₁) (y := z₂)
          (by rw [hyz, List.append_assoc, List.cons_append])
        have hlast : z₁.getLast hne' = '\\' := by
          have := congrArg List.getLast? hw
          simpa [List.getLast?_cons, List.getLast?_eq_some_getLast hne'] using this
        exact not_mem_of_clean hb' (c := '\\') (by decide) (hlast ▸ List.getLast_mem hne')
      · obtain ⟨-, hafter⟩ := Labels.first_piece hz hq htail
        exact not_mem_of_clean ha (c := '"') (by decide) (hafter ▸ by simp)

theorem dedupKey_parts {r r' : DnsRecord} (h : dedupKey T r = dedupKey T r') :
    r.name = r'.name ∧ debugData T r.data = debugData T r'.data ∧
      debugSecs r.ttl = debugSecs r'.ttl := by
  have hsecs (n : Nat) : '|' ∉ debugSecs n := not_mem_of_clean (clean_debugSecs n) (by decide)
  obtain ⟨hfront, httl⟩ := append_cons_inj_last (hsecs _) (hsecs _) h
  have hdata := dataText_debugData (T := T) r.data
  have hdata' := dataText_debugData (T := T) r'.data
  rcases List.append_eq_append_iff.1 hfront with ⟨m, hm, heq⟩ | ⟨m, hm, heq⟩
  · cases m with
    | nil =>
      exact ⟨by simpa using hm.symm, (List.cons.inj heq).2, httl⟩
    | cons c m =>
      exact absurd (List.cons.inj heq).2 (dataText_not_after_separator hdata' hdata)
  · cases m with
    | nil =>
      exact ⟨by simpa using hm, (List.cons.inj heq).2.symm, httl⟩
    | cons c m =>
      exact absurd (List.cons.inj heq).2 (dataText_not_after_separator hdata hdata')

/-! ## Reading a key back -/

theorem digits_ne {c : Char} (hc : c.isDigit = false) (n : Nat) : c ∉ Nat.toDigits 10 n := by
  intro hmem
  rw [Str.isDigit_toDigits hmem] at hc
  cases hc

theorem selfDelimiting_debugBytes : SelfDelimiting debugBytes := by
  have hitems : ∀ b : List UInt8, ∀ s ∈ b.map (fun x => Nat.toDigits 10 x.toNat),
      s ≠ [] ∧ ',' ∉ s := by
    intro b s hs
    obtain ⟨x, -, rfl⟩ := List.mem_map.1 hs
    exact ⟨Nat.toDigits_ne_nil, digits_ne (by decide) _⟩
  have hbracket : ∀ b : List UInt8,
      ']' ∉ [',', ' '].intercalate (b.map fun x => Nat.toDigits 10 x.toNat) := by
    intro b hmem
    rcases mem_of_mem_intercalate hmem with hmem | ⟨s, hs, hmem⟩
    · exact absurd hmem (by decide)
    · obtain ⟨x, -, rfl⟩ := List.mem_map.1 hs
      exact digits_ne (by decide) _ hmem
  intro a b x y h
  simp only [debugBytes, debugList, List.cons_append, List.append_assoc, List.nil_append] at h
  obtain ⟨hjoined, hxy⟩ := Labels.first_piece (hbracket a) (hbracket b) (List.cons.inj h).2
  have hdigits := intercalate_inj (hitems a) (hitems b) hjoined
  refine ⟨List.map_injective_iff.2 (fun m n hmn => ?_) hdigits, hxy⟩
  exact UInt8.toNat_inj.1 (toDigits_inj (by decide) (by decide) _ _ hmn)

/-- Items that start with a bracket, up to the bracket that closes their list. -/
theorem debugItems_inj {α : Type*} {f : α → Str} (hf : SelfDelimiting f)
    (hstart : ∀ a, (f a).head? = some '[') :
    ∀ {as bs : List α} {x y : Str},
      [',', ' '].intercalate (as.map f) ++ ']' :: x = [',', ' '].intercalate (bs.map f) ++ ']' :: y →
      as = bs ∧ x = y
  | [], [], _, _, h => ⟨rfl, (List.cons.inj h).2⟩
  | [], b :: bs, _, _, h => by
    have hhead := congrArg List.head? h
    cases bs <;> simp [hstart, List.intercalate_cons_cons] at hhead
  | a :: as, [], _, _, h => by
    have hhead := congrArg List.head? h
    cases as <;> simp [hstart, List.intercalate_cons_cons] at hhead
  | [a], [b], _, _, h => by
    obtain ⟨rfl, hrest⟩ := hf (by simpa using h)
    exact ⟨rfl, (List.cons.inj hrest).2⟩
  | [a], b :: b' :: bs, _, _, h => by
    simp only [List.map_cons, List.map_nil, List.intercalate_singleton, List.intercalate_cons_cons,
      List.append_assoc] at h
    exact absurd (List.cons.inj (hf h).2).1 (by decide)
  | a :: a' :: as, [b], _, _, h => by
    simp only [List.map_cons, List.map_nil, List.intercalate_singleton, List.intercalate_cons_cons,
      List.append_assoc] at h
    exact absurd (List.cons.inj (hf h).2).1 (by decide)
  | a :: a' :: as, b :: b' :: bs, x, y, h => by
    simp only [List.map_cons, List.intercalate_cons_cons, List.append_assoc] at h
    obtain ⟨rfl, hrest⟩ := hf h
    have htail : [',', ' '].intercalate ((a' :: as).map f) ++ ']' :: x =
        [',', ' '].intercalate ((b' :: bs).map f) ++ ']' :: y := List.append_cancel_left hrest
    obtain ⟨heq, hxy⟩ := debugItems_inj hf hstart htail
    exact ⟨by rw [heq], hxy⟩

theorem debugSecs_inj {n m : Nat} (h : debugSecs n = debugSecs m) : n = m := by
  have hdigits : ∀ n : Nat, "0ns".toList ≠ Nat.toDigits 10 n ++ ['s'] := by
    intro n heq
    have hmem : 'n' ∈ Nat.toDigits 10 n ++ ['s'] := by
      rw [← heq]
      decide
    rcases List.mem_append.1 hmem with hmem | hmem
    · exact digits_ne (by decide) n hmem
    · exact absurd hmem (by decide)
  unfold debugSecs at h
  split at h
  · split at h
    · omega
    · exact absurd h (hdigits m)
  · split at h
    · exact absurd h.symm (hdigits n)
    · exact toDigits_inj (by decide) (by decide) n m (List.append_cancel_right h)

theorem debugStr_inj {s t : Str} (h : s.debugStr T = t.debugStr T) : s = t := by
  have happend : s.debugStr T ++ [] = t.debugStr T ++ [] := by rw [h]
  exact (selfDelimiting_debugStr T happend).1

theorem debugParts_inj {parts parts' : List (List UInt8)}
    (h : debugList (parts.map debugBytes) = debugList (parts'.map debugBytes)) : parts = parts' :=
  (debugItems_inj selfDelimiting_debugBytes (fun _ => rfl) (List.cons.inj h).2).1

/-- The data text determines the data: its first letters tell the type, what stands in it the
rest. -/
theorem debugData_inj {d d' : RecordData} (h : debugData T d = debugData T d') : d = d' := by
  cases d with
  | a ip =>
    cases d' with
    | a ip' => rw [Ipv4Addr.display_inj (List.append_cancel_left (List.append_cancel_right h))]
    | aaaa ip' => exact absurd (List.cons.inj (List.cons.inj h).2).1 (by decide)
    | _ => exact absurd (List.cons.inj h).1 (by decide)
  | aaaa ip =>
    cases d' with
    | aaaa ip' => rw [Ipv6Addr.display_inj (List.append_cancel_left (List.append_cancel_right h))]
    | a ip' => exact absurd (List.cons.inj (List.cons.inj h).2).1 (by decide)
    | _ => exact absurd (List.cons.inj h).1 (by decide)
  | cname target =>
    cases d' with
    | cname target' => rw [debugStr_inj (List.append_cancel_left (List.append_cancel_right h))]
    | _ => exact absurd (List.cons.inj h).1 (by decide)
  | ptr target =>
    cases d' with
    | ptr target' => rw [debugStr_inj (List.append_cancel_left (List.append_cancel_right h))]
    | _ => exact absurd (List.cons.inj h).1 (by decide)
  | txt parts =>
    cases d' with
    | txt parts' => rw [debugParts_inj (List.append_cancel_left (List.append_cancel_right h))]
    | _ => exact absurd (List.cons.inj h).1 (by decide)
  | mx preference exchange =>
    cases d' with
    | mx preference' exchange' =>
      have htext : field "Mx \x7b preference: " (Nat.toDigits 10 preference) ++
            field ", exchange: " (exchange.debugStr T) =
          field "Mx \x7b preference: " (Nat.toDigits 10 preference') ++
            field ", exchange: " (exchange'.debugStr T) := by
        simpa only [field, List.append_assoc] using List.append_cancel_right h
      obtain ⟨rfl, htarget⟩ := field_toDigits_inj rfl rfl htext
      rw [debugStr_inj (List.append_cancel_left htarget)]
    | _ => exact absurd (List.cons.inj h).1 (by decide)
  | ns target =>
    cases d' with
    | ns target' => rw [debugStr_inj (List.append_cancel_left (List.append_cancel_right h))]
    | _ => exact absurd (List.cons.inj h).1 (by decide)
  | srv priority weight port target =>
    cases d' with
    | srv priority' weight' port' target' =>
      have htext : field "Srv \x7b priority: " (Nat.toDigits 10 priority) ++
            (field ", weight: " (Nat.toDigits 10 weight) ++ (field ", port: " (Nat.toDigits 10 port) ++
              field ", target: " (target.debugStr T))) =
          field "Srv \x7b priority: " (Nat.toDigits 10 priority') ++
            (field ", weight: " (Nat.toDigits 10 weight') ++
              (field ", port: " (Nat.toDigits 10 port') ++
                field ", target: " (target'.debugStr T))) := by
        simpa only [field, List.append_assoc] using List.append_cancel_right h
      obtain ⟨rfl, hweight⟩ := field_toDigits_inj rfl rfl htext
      obtain ⟨rfl, hport⟩ := field_toDigits_inj rfl rfl hweight
      obtain ⟨rfl, htarget⟩ := field_toDigits_inj rfl rfl hport
      rw [debugStr_inj (List.append_cancel_left htarget)]
    | _ => exact absurd (List.cons.inj h).1 (by decide)

/-- **A key stands for one name, data and TTL.** -/
theorem dedupKey_eq_iff {r r' : DnsRecord} :
    dedupKey T r = dedupKey T r' ↔ r.name = r'.name ∧ r.data = r'.data ∧ r.ttl = r'.ttl := by
  constructor
  · intro h
    obtain ⟨hname, hdata, httl⟩ := dedupKey_parts h
    exact ⟨hname, debugData_inj hdata, debugSecs_inj httl⟩
  · rintro ⟨hname, hdata, httl⟩
    rw [dedupKey, dedupKey, hname, hdata, httl]

end

end RustyDns.L3
