import RustyDns.L4Daemon.Addresses
import RustyDns.Lib.UriPath

/-!
# Metrics paths that pose as a fixed endpoint

`normalize_metrics_path` compares the configured path with `/health` and `/queries` as it is
written, and refuses dot segments in every spelling, percent escapes included. Escapes of other
characters pass: `/%68ealth` is taken, and clients and proxies that normalise paths read it as
`/health`.

Results:
* `spells_dot`, `spells_dots`: the segments that a client reads as dot segments are those that the
  byte decoder refuses.
* `poses_as_reserved_iff`: the configured texts that are taken as equivalents of a fixed endpoint.
-/

namespace RustyDns.L4

open RustyDns.Lib RustyDns.Lib.Labels RustyDns.Lib.Uri

theorem spells_dot {seg : Str} (h : Spells seg ['.']) : seg ∈ dotSegments := by
  have hall : ∀ w ∈ writings ['.'], w ∈ dotSegments := by decide
  exact hall seg (spells_iff_mem_writings.1 h)

theorem spells_dots {seg : Str} (h : Spells seg ['.', '.']) : seg ∈ dotSegments := by
  have hall : ∀ w ∈ writings ['.', '.'], w ∈ dotSegments := by decide
  exact hall seg (spells_iff_mem_writings.1 h)

/-- A path that is taken is equivalent to a text if it spells it: no dot segment is left. -/
theorem pathNormalForm_taken {path t : Str} (h : LiteralPath path) (ht : '%' ∉ t) :
    pathNormalForm path = t ↔ Spells path t := by
  refine pathNormalForm_eq_iff ht fun seg hseg => ?_
  have hnot : seg ∉ dotSegments := by
    rw [← isDotSegment_iff, Bool.not_eq_true]
    exact h.noDotSegment seg (by rwa [Str.splitBy_eq_pieces])
  exact ⟨fun hdot => hnot (spells_dot hdot), fun hdots => hnot (spells_dots hdots)⟩

/-- The leading slash is there in the text, or is put there. -/
theorem spells_withLeadingSlash {path name : Str} (hname : name.head? ≠ some '/')
    (hdefault : '/' :: name ≠ "/metrics".toList) :
    Spells (withLeadingSlash path) ('/' :: name) ↔
      Spells path.trim ('/' :: name) ∨ path.trim ≠ [] ∧ Spells path.trim name := by
  unfold withLeadingSlash
  split
  · rename_i hnil
    rw [hnil]
    refine iff_of_false ?_ ?_
    · rw [spells_iff_of_literal (by decide)]
      exact hdefault.symm
    · rintro (h | ⟨h, -⟩)
      · cases h
      · exact h rfl
  · rename_i hne
    split
    · rename_i rest hrest
      rw [Str.stripStart_eq_some_iff.1 hrest, List.singleton_append]
      refine ⟨.inl, fun h => h.elim id fun h => ?_⟩
      -- a name does not start with a slash
      obtain ⟨-, h⟩ := h
      cases h with
      | literal => exact absurd rfl hname
    · rename_i hnone
      rw [spells_slash_cons_iff]
      refine ⟨fun h => .inr ⟨hne, h⟩, fun h => h.elim (fun h => ?_) And.right⟩
      -- a slash is written as a slash only
      obtain ⟨rest, hrest, -⟩ := spells_slash_iff.1 h
      have hsome : path.trim.stripStart ['/'] = some rest := Str.stripStart_eq_some_iff.2 hrest
      rw [hsome] at hnone
      cases hnone

/-- **Which metrics paths pose as a fixed endpoint.** The normal form of a path that is taken is
`/health` or `/queries` exactly if the configured text, without outer blanks, writes `health` or
`queries`, with or without the slash, each letter as itself or as an escape. No dot segment is left
that could lead there. -/
theorem poses_as_reserved_iff (path p : Str) (h : normalizeMetricsPath path = .ok p) :
    pathNormalForm p ∈ reservedMetricsPaths ↔
      ∃ name ∈ ["health".toList, "queries".toList],
        path.trim ∈ writings ('/' :: name) ∨ path.trim ∈ writings name := by
  obtain ⟨hliteral, rfl⟩ := normalizeMetricsPath_ok_iff.1 h
  have hnames : ∀ name ∈ ["health".toList, "queries".toList], '%' ∉ '/' :: name ∧
      name.head? ≠ some '/' ∧ '/' :: name ≠ "/metrics".toList ∧ [] ∉ writings name := by decide
  have hposes : ∀ name ∈ ["health".toList, "queries".toList],
      (pathNormalForm (withLeadingSlash path) = '/' :: name ↔
        path.trim ∈ writings ('/' :: name) ∨ path.trim ∈ writings name) := by
    intro name hname
    obtain ⟨hplain, hhead, hdefault, hempty⟩ := hnames name hname
    rw [pathNormalForm_taken hliteral hplain, spells_withLeadingSlash hhead hdefault,
      spells_iff_mem_writings, spells_iff_mem_writings]
    refine or_congr_right (and_iff_right_of_imp fun hmem hnil => ?_)
    exact hempty (hnil ▸ hmem)
  have hreserved : reservedMetricsPaths = ["health".toList, "queries".toList].map ('/' :: ·) := rfl
  rw [hreserved, List.mem_map]
  constructor
  · rintro ⟨name, hname, heq⟩
    exact ⟨name, hname, (hposes name hname).1 heq.symm⟩
  · rintro ⟨name, hname, hwrites⟩
    exact ⟨name, hname, ((hposes name hname).2 hwrites).symm⟩

/-- `%6detrics` is taken, and does not write a fixed endpoint. -/
theorem poses_as_reserved_iff_metrics :
    normalizeMetricsPath "%6detrics".toList = .ok "/%6detrics".toList ∧
    pathNormalForm "/%6detrics".toList ∉ reservedMetricsPaths := by
  have htaken : normalizeMetricsPath "%6detrics".toList = .ok "/%6detrics".toList := by
    decide +kernel
  refine ⟨htaken, ?_⟩
  rw [poses_as_reserved_iff _ _ htaken]
  decide +kernel

/-- `/%68ealth` is taken, and its normal form is `/health`. -/
theorem escaped_health_poses :
    normalizeMetricsPath "/%68ealth".toList = .ok "/%68ealth".toList ∧
    pathNormalForm "/%68ealth".toList = "/health".toList ∧
    "/health".toList ∈ reservedMetricsPaths := by
  refine ⟨by decide +kernel, ?_, by decide⟩
  have hdecoded : decodeUnreserved "/%68ealth".toList = "/health".toList := by decide
  rw [pathNormalForm, hdecoded]
  exact removeDotSegments_eq_self (by simp [NoDotSegments, pieces])

end RustyDns.L4
