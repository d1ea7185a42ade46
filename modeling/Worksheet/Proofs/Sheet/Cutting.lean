import Worksheet.Proofs.Sheet.Dropping
import Worksheet.Proofs.Rows.Tiling

/-!
# The Registry and the Marks After a Cut

That pasting what was cut keeps merges apart, and each of them anchored.

A cut moves registered merges and marks alike. It needs no marks to keep merges
apart, because it never makes a merge out of one. Both are moved equally far only
if the numbers of the grid are enough for it: a block is cut off before the column
after it, and merges are moved by a displacement, which is a signed number. The
cells themselves are moved by counting, and go wherever they are told to.

## Main definitions

* `Range.CanMove`: A block that is moved with its merges.

## Theorems

* `apart_moveInto`: Merges stay apart.
* `marks_moveInto`: Every mark is registered after a move.
* `anchored_moveInto`: Every registered merge is anchored then.
-/

namespace Worksheet

/-- Can a block be moved onto a cell with the numbers that indices have? There is a column
    after it, its first cell stays on its half of the grid, and there are a row and a column
    after the cells that it is moved onto. -/
structure Range.CanMove (src : Range) (c : CellRef) : Prop where
  right : src.right + 1 < Address.gridLimit
  near : src.first.SameHalf c
  target : (footprint src (.single c)).last.Fits

instance (src : Range) (c : CellRef) : Decidable (src.CanMove c) :=
  decidable_of_iff (src.right + 1 < Address.gridLimit ∧ src.first.SameHalf c ∧
      (footprint src (.single c)).last.Fits)
    ⟨fun h => ⟨h.1, h.2.1, h.2.2⟩, fun h => ⟨h.right, h.near, h.target⟩⟩

namespace Sheet

section

variable {s : Sheet} {src dst : Range}

theorem footprint_single (src : Range) (c : CellRef) :
    footprint src (.single c) = .spanning c (src.height - 1) (src.width - 1) := by
  have hheight : (Range.single c).height ≤ src.height := by
    simp [Range.single, Range.height]
  have hwidth : (Range.single c).width ≤ src.width := by
    simp [Range.single, Range.width]
  exact footprint_of_le hheight hwidth

theorem checkCut_eq_none_iff : s.checkCut src = none ↔
    ∀ x ∈ s.merges.ranges, x.intersects src = true → x.within src = true := by
  rw [checkCut, Option.map_eq_none_iff, Merges.straddling?_eq_none_iff]

/-- The merges that are left to be moved. -/
theorem apart_moveInto (h : s.merges.Apart) (hmove : src.CanMove dst.first)
    (hcheck : s.checkPaste src (.single dst.first) = none) : (moveInto src dst s).merges.Apart := by
  have hcover := checkPaste_eq_none_iff.1 hcheck
  have htop := src.top_le_bottom
  have hleft := src.left_le_right
  have hdropped : (dropMerges (footprint src (.single dst.first)) (some src) [] s).merges.Apart :=
    apart_foldl_dropMerge h
  have hnear := hmove.near.displacementTo
  refine hdropped.moveWithin (f := footprint src (.single dst.first)) ?_ ?_ fun x hx hmeets => ?_
  · rw [hnear]
    simp only [footprint_single, Range.spanning, Range.first, Range.height, CellRef.offsetTo]
    omega
  · rw [hnear]
    simp only [footprint_single, Range.spanning, Range.first, Range.width, CellRef.offsetTo]
    omega
  · obtain ⟨hmem, hkept⟩ := (mem_dropMerges_iff h).1 hx
    have heq := hcover x hmem hmeets
    obtain ⟨k, hk, hin⟩ := hkept (by rw [heq]; exact Range.within_refl _)
    cases hk
    exact ⟨heq, hin⟩

/-- A merge of the source is moved as its first cell is. -/
theorem move?_of_within (hmove : src.CanMove dst.first) {x : Range} (hin : x.within src = true) :
    x.move? (src.first.displacementTo dst.first) =
      some (.spanning (Rows.movedTo src dst x.first) x.span.rows x.span.cols) := by
  have htop := x.top_le_bottom
  have hleft := x.left_le_right
  have hfits := hmove.target
  rw [Range.within_iff] at hin
  rw [hmove.near.displacementTo, Range.move?_eq_some_iff]
  simp only [footprint_single, CellRef.Fits, Range.last, Range.spanning, Range.first, Range.height,
    Range.width, Range.span, Rows.movedTo, CellRef.offsetTo] at hfits ⊢
  generalize Address.gridLimit = limit at *
  omega

/-- Where the cells of the source are moved. -/
theorem mem_movedTo {c : CellRef} (hc : src.mem c = true) :
    (footprint src (.single dst.first)).mem (Rows.movedTo src dst c) = true := by
  rw [Range.mem_iff] at hc ⊢
  simp only [footprint_single, Range.spanning, Range.first, Rows.movedTo, Range.height, Range.width]
  omega

/-- A merge that is dropped when something is moved lies outside of the source. -/
theorem not_mem_of_dropped (hcut : s.checkCut src = none) {m : Range} (hm : m ∈ s.merges.ranges)
    (hkeep : ∀ k ∈ some src, m.within k = false) {c : CellRef} (hc : m.mem c = true) :
    src.mem c = false := by
  rw [Bool.eq_false_iff]
  intro hsrc
  have hin := checkCut_eq_none_iff.1 hcut m hm (Range.intersects_of_mem hc hsrc)
  rw [hkeep src rfl] at hin
  cases hin

/-- The merges of the source are moved, and those that do not lie in the range that
    is pasted into stay. -/
theorem mem_ranges_moveInto (h : s.merges.Apart) (hmove : src.CanMove dst.first) {x : Range}
    (hx : x ∈ s.merges.ranges)
    (hkept : x.within (footprint src (.single dst.first)) = true → x.within src = true) :
    (if x.within src then .spanning (Rows.movedTo src dst x.first) x.span.rows x.span.cols else x) ∈
      (moveInto src dst s).merges.ranges := by
  refine List.mem_map.2 ⟨x, (mem_dropMerges_iff h).2 ⟨hx, fun hin => ⟨src, rfl, hkept hin⟩⟩, ?_⟩
  by_cases hin : x.within src = true
  · rw [if_pos hin, if_pos hin, move?_of_within hmove hin, Option.getD_some]
  · rw [if_neg hin, if_neg hin]

/-- A cell that is moved takes its merge along. -/
theorem mark_of_moved (h : Agrees s.merges s.rows) (hmove : src.CanMove dst.first)
    (hcut : s.checkCut src = none) {c : CellRef} (hc : src.mem c = true) {span : Span}
    (hmark : (dropMerges (footprint src (.single dst.first)) (some src) [] s).rows.mark c =
      some span) :
    Range.spanning (Rows.movedTo src dst c) span.rows span.cols ∈
      (moveInto src dst s).merges.ranges := by
  rcases cell?_dropMerges (s := s) c with ⟨hkept, -⟩ | ⟨-, ⟨m, hm, -, hkeep, rfl⟩, -⟩
  · rw [Rows.mark_congr hkept] at hmark
    have hmem := h.marks c span hmark
    have hin := checkCut_eq_none_iff.1 hcut _ hmem
      (Range.intersects_of_mem (Range.mem_spanning c span.rows span.cols) hc)
    have hmem' := mem_ranges_moveInto h.apart hmove hmem fun _ => hin
    rwa [if_pos hin, Range.first_spanning, Range.span_spanning] at hmem'
  · rw [not_mem_of_dropped hcut hm hkeep (Range.mem_first m)] at hc
    cases hc

/-- A cell that stays keeps its merge, unless that makes room, and then it is cleared
    or locked. -/
theorem mark_of_stayed (h : Agrees s.merges s.rows) (hmove : src.CanMove dst.first) {c : CellRef}
    (hc : src.mem c = false) {span : Span} {after : Rows}
    (hafter : after.cell? c =
      (dropMerges (footprint src (.single dst.first)) (some src) [] s).rows.cell? c)
    (hmark : after.mark c = some span) :
    Range.spanning c span.rows span.cols ∈ (moveInto src dst s).merges.ranges ∨
      (footprint src (.single dst.first)).mem c = true ∧ after.IsLocked c ∧ s.rows.IsLocked c := by
  rcases cell?_dropMerges (s := s) c with ⟨hkept, hfirst⟩ | ⟨hcleared, ⟨m, -, hin, -, rfl⟩, -⟩
  · left
    rw [Rows.mark_congr (hafter.trans hkept)] at hmark
    have hmem := h.marks c span hmark
    have hout : (Range.spanning c span.rows span.cols).within src = false := by
      rw [Bool.eq_false_iff]
      intro hin
      rw [Range.mem_of_within hin (Range.mem_spanning c _ _)] at hc
      cases hc
    have hmem' := mem_ranges_moveInto h.apart hmove hmem fun hin => by
      obtain ⟨_, hw, -⟩ := hfirst ⟨_, hmem, hin, fun k hk => by cases hk; exact hout, rfl⟩
      cases hw
    rwa [hout, if_neg Bool.false_ne_true] at hmem'
  · -- A locked cell is not cleared, and was locked before.
    have hlocked := locked_of_cleared rfl (hafter.trans hcleared) hmark
    refine .inr ⟨Range.mem_of_within hin (Range.mem_first m), hlocked, ?_⟩
    rwa [Rows.IsLocked, cell?_of_cleared rfl (hafter.trans hcleared) hmark]

/-- After a move every mark is registered, unless a locked cell kept that of the merge that
    was pasted into. -/
theorem marks_moveInto (h : Agrees s.merges s.rows) (hmove : src.CanMove dst.first)
    (hcut : s.checkCut src = none) {c : CellRef} {span : Span}
    (hmark : (moveInto src dst s).rows.mark c = some span) :
    Range.spanning c span.rows span.cols ∈ (moveInto src dst s).merges.ranges ∨
      (footprint src (.single dst.first)).mem c = true ∧ (moveInto src dst s).rows.IsLocked c ∧
        s.rows.IsLocked c := by
  let cleared := dropMerges (footprint src (.single dst.first)) (some src) [] s
  have hright : src.right + 1 ≠ Address.gridLimit := Nat.ne_of_lt hmove.right
  obtain ⟨cell, hcell, hmerge⟩ := Rows.mark_eq_some_iff.1 hmark
  -- Something was moved to the cell, or else it has what was there when room had been made.
  by_cases hmoved : ∃ c₀ cell₀, cleared.rows.cell? c₀ = some cell₀ ∧ src.mem c₀ = true ∧
      Rows.movedTo src dst c₀ = c
  · obtain ⟨c₀, cell₀, hcell₀, hc₀, rfl⟩ := hmoved
    have hsame : cell₀ = cell :=
      Option.some.inj ((Rows.cell?_moveBlock_of_mem hright hcell₀ hc₀).symm.trans hcell)
    subst hsame
    have hmark₀ := Rows.mark_eq_some_iff.2 ⟨cell₀, hcell₀, hmerge⟩
    exact .inl (mark_of_moved h hmove hcut hc₀ hmark₀)
  · have hafter : (moveInto src dst s).rows.cell? c =
        if src.mem c then none else cleared.rows.cell? c :=
      Rows.cell?_moveBlock_of_not_mem hright fun c₀ cell₀ hcell₀ hc₀ heq =>
        hmoved ⟨c₀, cell₀, hcell₀, hc₀, heq⟩
    by_cases hc : src.mem c = true
    · rw [if_pos hc, hcell] at hafter
      cases hafter
    · rw [if_neg hc] at hafter
      rw [Bool.not_eq_true] at hc
      exact mark_of_stayed h hmove hc hafter hmark

/-- Pasting what was cut. -/
theorem settled_moveInto (h : Agrees s.merges s.rows) (hmove : src.CanMove dst.first)
    (hcut : s.checkCut src = none) (hcheck : s.checkPaste src (.single dst.first) = none) :
    Settled (moveInto src dst s).merges (moveInto src dst s).rows :=
  ⟨apart_moveInto h.apart hmove hcheck, fun _ _ hmark =>
    (marks_moveInto h hmove hcut hmark).imp_right fun hkept => hkept.2.1⟩

/-! ## First cells -/

/-- The mark of a merge that is moved is found where its first cell is moved. -/
theorem mark_moveInto_of_within (h : Mirrors s.merges s.rows) (hmove : src.CanMove dst.first)
    {x : Range} (hx : x ∈ s.merges.ranges) (hin : x.within src = true) :
    (moveInto src dst s).rows.mark (Rows.movedTo src dst x.first) = some x.span := by
  obtain ⟨cell, hcell, hmerge⟩ := Rows.mark_eq_some_iff.1 (h.anchored x hx)
  have hkept : x ∈ (dropMerges (footprint src (.single dst.first)) (some src) [] s).merges.ranges :=
    (mem_dropMerges_iff h.apart).2 ⟨hx, fun _ => ⟨src, rfl, hin⟩⟩
  have hleft := cell?_dropMerges_of_mem h.apart hkept
  refine Rows.mark_eq_some_iff.2 ⟨cell, ?_, hmerge⟩
  exact Rows.cell?_moveBlock_of_mem (Nat.ne_of_lt hmove.right) (hleft.trans hcell)
    (Range.mem_of_within hin (Range.mem_first x))

/-- The merges after a move are those of the source, which are moved, and those that have
    nothing to do with it. -/
theorem mem_moveInto (h : s.merges.Apart) (hmove : src.CanMove dst.first)
    (hcut : s.checkCut src = none) (hcheck : s.checkPaste src (.single dst.first) = none)
    {r : Range} (hr : r ∈ (moveInto src dst s).merges.ranges) :
    (∃ x ∈ s.merges.ranges, x.within src = true ∧
        r = .spanning (Rows.movedTo src dst x.first) x.span.rows x.span.cols) ∨
      r ∈ s.merges.ranges ∧ (moveInto src dst s).rows.cell? r.first = s.rows.cell? r.first := by
  obtain ⟨x, hx, rfl⟩ := List.mem_map.1 hr
  have hleft := cell?_dropMerges_of_mem h hx
  obtain ⟨hmem, hkept⟩ := (mem_dropMerges_iff h).1 hx
  by_cases hin : x.within src = true
  · rw [if_pos hin, move?_of_within hmove hin]
    exact .inl ⟨x, hmem, hin, rfl⟩
  · right
    rw [if_neg hin]
    have hout : src.mem x.first = false := by
      rw [Bool.eq_false_iff]
      intro hc
      exact hin (checkCut_eq_none_iff.1 hcut x hmem
        (Range.intersects_of_mem (Range.mem_first x) hc))
    have haway : (footprint src (.single dst.first)).mem x.first = false := by
      rw [Bool.eq_false_iff]
      intro hc
      have heq := checkPaste_eq_none_iff.1 hcheck x hmem
        (Range.intersects_of_mem (Range.mem_first x) hc)
      obtain ⟨k, hk, hxk⟩ := hkept (by rw [heq]; exact Range.within_refl _)
      cases hk
      exact hin hxk
    refine ⟨hmem, ?_⟩
    refine (Rows.cell?_moveBlock_of_not_mem (Nat.ne_of_lt hmove.right)
      fun c cell _ hc hto => ?_).trans ?_
    · rw [← hto, mem_movedTo hc] at haway
      cases haway
    · rw [hout, if_neg Bool.false_ne_true, hleft]

/-- After a move every registered merge is anchored. -/
theorem anchored_moveInto (h : Mirrors s.merges s.rows) (hmove : src.CanMove dst.first)
    (hcut : s.checkCut src = none) (hcheck : s.checkPaste src (.single dst.first) = none) :
    (moveInto src dst s).rows.Anchors (moveInto src dst s).merges := by
  intro r hr
  rcases mem_moveInto h.apart hmove hcut hcheck hr with ⟨x, hx, hin, rfl⟩ | ⟨hmem, hcell⟩
  · rw [Range.first_spanning, Range.span_spanning]
    exact mark_moveInto_of_within h hmove hx hin
  · rw [Rows.mark_congr hcell]
    exact h.anchored r hmem

end

end Sheet

end Worksheet
