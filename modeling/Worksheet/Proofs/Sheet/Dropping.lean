import Worksheet.Proofs.Sheet.Agreement
import Worksheet.Sheet.Pasting

/-!
# Room for What Is Pasted

What becomes of merges that have to make room.

A paste that touches a merge covers it exactly, and then drops it. So the merges
that are left do not meet the range that is pasted into, and what arrives in it is
apart from them. The first cell of a merge that is dropped is cleared of its mark,
unless it was written just now, or is locked.

## Theorems

* `mem_dropMerges_iff`, `cell?_dropMerges`: What dropping merges leaves.
* `apart_arrived_iff`: When the merges are apart after others arrived.
* `marks_arrived`: Every mark is registered then.
-/

namespace Worksheet

namespace Sheet

/-! ## Dropping merges -/

section

variable {written : List Range} {stale : List Range} {s : Sheet}

theorem mem_foldl_dropMerge_iff {x : Range} :
    x ∈ (stale.foldl (dropMerge written) s).merges.ranges ↔
      x ∈ s.merges.ranges ∧ ∀ m ∈ stale, x.within m = false := by
  induction stale generalizing s with
  | nil => simp
  | cons m stale ih =>
    rw [List.foldl_cons, ih]
    simp only [dropMerge, Merges.removeWithin, List.mem_filter, Bool.not_eq_true', List.mem_cons,
      forall_eq_or_imp]
    exact and_assoc

theorem apart_foldl_dropMerge (h : s.merges.Apart) :
    (stale.foldl (dropMerge written) s).merges.Apart := by
  induction stale generalizing s with
  | nil => exact h
  | cons m stale ih => exact ih (h.removeWithin m)

/-- The first cells of the merges that nothing was written over. -/
theorem rows_foldl_dropMerge :
    (stale.foldl (dropMerge written) s).rows =
      ((stale.filter fun m => !written.any fun w => w.first == m.first).map Range.first).foldl
        (fun rows c => rows.clearCell .merge c) s.rows := by
  induction stale generalizing s with
  | nil => rfl
  | cons m stale ih =>
    rw [List.foldl_cons, ih, List.filter_cons]
    by_cases hw : (written.any fun w => w.first == m.first) = true
    · simp [dropMerge, hw]
    · simp [dropMerge, hw]

variable {inside : Range} {keep : Option Range}

/-- The merges that are left are those that do not lie inside, or are kept. -/
theorem mem_dropMerges_iff (h : s.merges.Apart) {x : Range} :
    x ∈ (dropMerges inside keep written s).merges.ranges ↔
      x ∈ s.merges.ranges ∧ (x.within inside = true → ∃ k ∈ keep, x.within k = true) := by
  unfold dropMerges
  rw [mem_foldl_dropMerge_iff]
  refine and_congr_right fun hx => ⟨fun hstale hwithin => ?_, fun hkept m hm => ?_⟩
  · by_contra hnone
    have hmem : x ∈ s.merges.ranges.filter fun m =>
        m.within inside && !keep.any fun k => m.within k := by
      refine List.mem_filter.2 ⟨hx, ?_⟩
      rw [hwithin, Bool.true_and, Bool.not_eq_true', Bool.eq_false_iff, ne_eq, Option.any_eq_true]
      rintro ⟨k, hk, hxk⟩
      exact hnone ⟨k, hk, hxk⟩
    have := hstale x hmem
    rw [Range.within_refl] at this
    cases this
  · obtain ⟨hm, hout⟩ := List.mem_filter.1 hm
    rw [Bool.and_eq_true, Bool.not_eq_true'] at hout
    rw [Bool.eq_false_iff]
    intro hxm
    have heq := h.eq_of_intersects hm hx (Range.intersects_of_within hxm (Range.intersects_self x))
    subst heq
    obtain ⟨k, hk, hxk⟩ := hkept hout.1
    rw [hk, Option.any_some, hxk] at hout
    cases hout.2

/-- A cell is cleared of its mark if it begins a merge that is dropped, and was not
    written just now. -/
theorem cell?_dropMerges (c : CellRef) :
    (dropMerges inside keep written s).rows.cell? c = s.rows.cell? c ∧
        ((∃ m ∈ s.merges.ranges, m.within inside = true ∧ (∀ k ∈ keep, m.within k = false) ∧
          m.first = c) → ∃ w ∈ written, w.first = c) ∨
      (dropMerges inside keep written s).rows.cell? c =
          (s.rows.cell? c).bind (Rows.cleared .merge) ∧
        (∃ m ∈ s.merges.ranges, m.within inside = true ∧ (∀ k ∈ keep, m.within k = false) ∧
          m.first = c) ∧ ∀ w ∈ written, w.first ≠ c := by
  unfold dropMerges
  rw [rows_foldl_dropMerge, Rows.cell?_foldl_clearCell]
  split
  · rename_i hsome
    obtain ⟨m, hm, rfl⟩ := List.mem_map.1 hsome
    obtain ⟨hm, hwritten⟩ := List.mem_filter.1 hm
    obtain ⟨hm, hstale⟩ := List.mem_filter.1 hm
    rw [Bool.and_eq_true, Bool.not_eq_true', Bool.eq_false_iff, ne_eq, Option.any_eq_true] at hstale
    refine .inr ⟨rfl, ⟨m, hm, hstale.1, fun k hk => ?_, rfl⟩, fun w hw heq => ?_⟩
    · rw [Bool.eq_false_iff]
      exact fun hmk => hstale.2 ⟨k, hk, hmk⟩
    · rw [Bool.not_eq_true', Bool.eq_false_iff, ne_eq, List.any_eq_true] at hwritten
      exact hwritten ⟨w, hw, beq_iff_eq.2 heq⟩
  · rename_i hnone
    refine .inl ⟨rfl, fun ⟨m, hm, hwithin, hkeep, hfirst⟩ => ?_⟩
    by_contra hwritten
    refine hnone (List.mem_map.2 ⟨m, List.mem_filter.2 ⟨List.mem_filter.2 ⟨hm, ?_⟩, ?_⟩, hfirst⟩)
    · rw [hwithin, Bool.true_and, Bool.not_eq_true', Bool.eq_false_iff, ne_eq, Option.any_eq_true]
      rintro ⟨k, hk, hmk⟩
      rw [hkeep k hk] at hmk
      cases hmk
    · rw [Bool.not_eq_true', Bool.eq_false_iff, ne_eq, List.any_eq_true]
      rintro ⟨w, hw, heq⟩
      exact hwritten ⟨w, hw, (beq_iff_eq.1 heq).trans hfirst⟩

/-- The first cell of a merge that is left is not touched when merges are dropped. -/
theorem cell?_dropMerges_of_mem (h : s.merges.Apart) {x : Range}
    (hx : x ∈ (dropMerges inside keep written s).merges.ranges) :
    (dropMerges inside keep written s).rows.cell? x.first = s.rows.cell? x.first := by
  obtain ⟨hmem, hkept⟩ := (mem_dropMerges_iff h).1 hx
  rcases cell?_dropMerges (s := s) x.first with ⟨hcell, -⟩ | ⟨-, ⟨m, hm, hin, hkeep, hfirst⟩, -⟩
  · exact hcell
  · have heq := h.eq_of_mem hm hmem (Range.mem_first m) (by rw [hfirst]; exact Range.mem_first x)
    subst heq
    obtain ⟨k, hk, hxk⟩ := hkept hin
    rw [hkeep k hk] at hxk
    cases hxk

end

/-! ## Merges that arrive -/

section

variable {s : Sheet} {src dst f : Range} {whole : List Range}

theorem checkPaste_eq_none_iff : s.checkPaste src dst = none ↔
    ∀ m ∈ s.merges.ranges, m.intersects (footprint src dst) = true → m = footprint src dst := by
  simp only [checkPaste, ite_eq_right_iff, reduceCtorEq, imp_false, List.any_eq_true,
    Bool.and_eq_true, bne_iff_ne, not_exists, not_and, not_not]

/-- What is left does not meet the range that was pasted into. -/
theorem mem_cleared_iff (h : s.merges.Apart)
    (hcover : ∀ m ∈ s.merges.ranges, m.intersects f = true → m = f) (m : Range) :
    m ∈ (dropMerges f none whole s).merges.ranges ↔
      m ∈ s.merges.ranges ∧ m.intersects f = false := by
  rw [mem_dropMerges_iff h]
  refine and_congr_right fun hm => ⟨fun hkept => ?_, fun hapart hin => ?_⟩
  · rw [Bool.eq_false_iff]
    intro hmeets
    obtain ⟨k, hk, -⟩ := hkept (by rw [hcover m hm hmeets]; exact Range.within_refl _)
    cases hk
  · have hmeets := Range.intersects_of_within hin (Range.intersects_self m)
    rw [Range.intersects_comm, hapart] at hmeets
    cases hmeets

/-- So there is room for what arrives. -/
theorem room_of_cleared (h : s.merges.Apart)
    (hcover : ∀ m ∈ s.merges.ranges, m.intersects f = true → m = f)
    (hwithin : ∀ m ∈ whole, m.within f = true) :
    ∀ a ∈ (dropMerges f none whole s).merges.ranges, ∀ b ∈ whole, a.intersects b = false := by
  intro a ha b hb
  rw [Bool.eq_false_iff]
  intro hmeets
  rw [Range.intersects_comm] at hmeets
  have hmeets' := Range.intersects_of_within (hwithin b hb) hmeets
  rw [Range.intersects_comm, ((mem_cleared_iff h hcover a).1 ha).2] at hmeets'
  cases hmeets'

/-- Merges that arrive where there is room are apart from the others, so all are
    apart if and only if those that arrive are. -/
theorem apart_arrived_iff (h : s.merges.Apart)
    (hcover : ∀ m ∈ s.merges.ranges, m.intersects f = true → m = f)
    (hwithin : ∀ m ∈ whole, m.within f = true) :
    (whole.foldl Merges.add (dropMerges f none whole s).merges).Apart ↔
      (whole.foldl Merges.add .empty).Apart := by
  have hroom := room_of_cleared h hcover hwithin
  have hranges := Merges.ranges_foldl_add_append [] hroom
  rw [List.append_nil] at hranges
  have hmerges : whole.foldl Merges.add (dropMerges f none whole s).merges = ⟨_⟩ :=
    congrArg Merges.mk hranges
  rw [hmerges]
  constructor
  · exact Merges.Apart.of_append
  · intro hnew
    refine (apart_foldl_dropMerge h).append hnew fun a ha b hb => ?_
    rcases Merges.mem_of_mem_foldl_add hb with hnone | hwhole
    · cases hnone
    · exact hroom a ha b hwhole

/-- What is left and what arrives, one after the other. -/
theorem ranges_arrived (h : s.merges.Apart)
    (hcover : ∀ m ∈ s.merges.ranges, m.intersects f = true → m = f) (hwhole : Merges.Apart ⟨whole⟩)
    (hwithin : ∀ m ∈ whole, m.within f = true) :
    (whole.foldl Merges.add (dropMerges f none whole s).merges).ranges =
      (dropMerges f none whole s).merges.ranges ++ whole := by
  have happend := Merges.ranges_foldl_add_append [] (room_of_cleared h hcover hwithin)
  rw [List.append_nil] at happend
  exact happend.trans (congrArg _ (Merges.ranges_foldl_add hwhole.disjoint))

/-- When merges arrive, their marks are written and no other mark is, then every mark
    is registered afterwards, unless a locked cell kept that of the merge that made
    room. -/
theorem marks_arrived {old : Rows} (h : Agrees s.merges old)
    (hcover : ∀ m ∈ s.merges.ranges, m.intersects f = true → m = f) (hwhole : Merges.Apart ⟨whole⟩)
    (hwithin : ∀ m ∈ whole, m.within f = true)
    (hmarks : ∀ c span, s.rows.mark c = some span →
      Range.spanning c span.rows span.cols ∈ whole ∨
        old.mark c = some span ∧ (∀ m ∈ whole, m.first ≠ c) ∧ (s.rows.IsLocked c → old.IsLocked c))
    {c : CellRef} {span : Span} (hmark : (dropMerges f none whole s).rows.mark c = some span) :
    Range.spanning c span.rows span.cols ∈
        (whole.foldl Merges.add (dropMerges f none whole s).merges).ranges ∨
      f.mem c = true ∧ (dropMerges f none whole s).rows.IsLocked c ∧ old.IsLocked c := by
  rw [ranges_arrived h.apart hcover hwhole hwithin, List.mem_append]
  rcases cell?_dropMerges c with ⟨hcell, hfirst⟩ | ⟨hcell, ⟨m, hm, hin, -, rfl⟩, hnone⟩
  · left
    rw [Rows.mark_congr hcell] at hmark
    rcases hmarks c span hmark with harrived | ⟨hold, hnone, -⟩
    · exact .inr harrived
    · have hmem := h.marks c span hold
      refine .inl ((mem_cleared_iff h.apart hcover _).2 ⟨hmem, ?_⟩)
      rw [Bool.eq_false_iff]
      intro hmeets
      have hin : (Range.spanning c span.rows span.cols).within f = true := by
        rw [hcover _ hmem hmeets]
        exact Range.within_refl f
      obtain ⟨m, hm, hmfirst⟩ := hfirst ⟨_, hmem, hin, (by intro k hk; cases hk), rfl⟩
      exact hnone m hm hmfirst
  · -- The cell was to be cleared, so it is locked, and clearing it did nothing.
    have hlocked := locked_of_cleared rfl hcell hmark
    have hbefore := cell?_of_cleared rfl hcell hmark
    rw [← Rows.mark_congr hbefore] at hmark
    rcases hmarks _ span hmark with hwritten | hkept
    · exact .inl (.inr hwritten)
    · refine .inr ⟨Range.mem_of_within hin (Range.mem_first m), hlocked, hkept.2.2 ?_⟩
      rwa [Rows.IsLocked, hbefore]

end

end Sheet

end Worksheet
