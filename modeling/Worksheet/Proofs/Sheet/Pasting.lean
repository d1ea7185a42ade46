import Worksheet.Proofs.Rows.Tiling
import Worksheet.Proofs.Sheet.Dropping

/-!
# The Registry and the Marks After a Paste

That pasting a copy keeps merges apart.

A copy takes the marks of the source along and registers a merge for each that
lies inside its tile. These merges are apart for two reasons: within a tile they
are translated merges of the source, which were apart because every mark is
registered, and different tiles have no cell in common.

## Main definitions

* `tile`: The tile that a cell is copied into.
* `wholeRanges`, `brokenRanges`: The merges of a copy that lie in their tile, and those that
  stick out of it.

## Theorems

* `apart_whole`: Merges that arrive whole are apart.
* `marks_copyInto`: Every mark is registered after a copy.
* `settled_copyInto`: Pasting a copy.
-/

namespace Worksheet

namespace Sheet

/-! ## Tiles -/

section

variable {rows : Rows} {src dst : Range} {series : Bool} {w w' : CellRef × Cell}

/-- The tile that a cell is copied into. -/
def tile (x : Rows.Copied rows src dst series w) : Range :=
  .spanning ⟨dst.top + x.down * src.height, dst.left + x.across * src.width⟩
    (src.height - 1) (src.width - 1)

theorem tileOf_eq (x : Rows.Copied rows src dst series w) : tileOf src dst w.1 = tile x := by
  rw [tileOf, tile, x.tile_eq.1, x.tile_eq.2]

/-- The tiles are part of what the copy may write. -/
theorem tile_within (x : Rows.Copied rows src dst series w) :
    (tile x).within (footprint src dst) = true := by
  have hheight := src.height_pos
  have hwidth := src.width_pos
  have hdown : x.down * src.height + src.height ≤ roundUp dst.height src.height := by
    rw [← Nat.succ_mul]
    exact (Nat.mul_le_mul_right _ (Nat.succ_le_succ x.down_le)).trans_eq (roundUp_eq hheight).symm
  have hacross : x.across * src.width + src.width ≤ roundUp dst.width src.width := by
    rw [← Nat.succ_mul]
    exact (Nat.mul_le_mul_right _ (Nat.succ_le_succ x.across_le)).trans_eq (roundUp_eq hwidth).symm
  simp only [Range.within_iff, tile, footprint, Range.spanning, Range.first]
  omega

/-- Multiples of the size are at least the size apart. -/
theorem tile_disjoint (x : Rows.Copied rows src dst series w)
    (y : Rows.Copied rows src dst series w') (h : (tile x).intersects (tile y) = true) :
    x.down = y.down ∧ x.across = y.across := by
  have hheight := src.height_pos
  have hwidth := src.width_pos
  have hapart (size : Nat) {a b : Nat} (hlt : a < b) : a * size + size ≤ b * size := by
    rw [← Nat.succ_mul]
    exact Nat.mul_le_mul_right size hlt
  simp only [Range.intersects_iff, tile, Range.spanning] at h
  constructor
  · rcases Nat.lt_trichotomy x.down y.down with hlt | heq | hlt
    · have := hapart src.height hlt
      omega
    · exact heq
    · have := hapart src.height hlt
      omega
  · rcases Nat.lt_trichotomy x.across y.across with hlt | heq | hlt
    · have := hapart src.width hlt
      omega
    · exact heq
    · have := hapart src.width hlt
      omega

end

/-! ## Merges that arrive -/

section

variable {s : Sheet} {src dst : Range} {series : Bool}

theorem anchored_eq_some_iff {w : CellRef × Cell} {m : Range} :
    (match w.2.merge with
      | some span => if span = .zero then none else some (.spanning w.1 span.rows span.cols)
      | none => none) = some m ↔
      ∃ span, w.2.merge = some span ∧ span ≠ .zero ∧
        Range.spanning w.1 span.rows span.cols = m := by
  cases w.2.merge with
  | none => simp
  | some span => by_cases hzero : span = .zero <;> simp [hzero]

/-- The merges that arrive are those of the cells that are written. -/
theorem mem_anchoredRanges_iff {written : List (CellRef × Cell)} {m : Range} :
    m ∈ anchoredRanges written ↔ ∃ w ∈ written, ∃ span, w.2.merge = some span ∧ span ≠ .zero ∧
      Range.spanning w.1 span.rows span.cols = m := by
  rw [anchoredRanges, List.mem_filterMap]
  exact exists_congr fun w => and_congr_right fun _ => anchored_eq_some_iff

theorem isMultiple_spanning {c c' : CellRef} {span : Span}
    (h : (Range.spanning c span.rows span.cols).isMultiple = true) :
    (Range.spanning c' span.rows span.cols).isMultiple = true := by
  rw [Range.isMultiple_iff] at h ⊢
  simp only [Range.spanning] at h ⊢
  omega

/-- Merges that arrive whole are apart: in one tile because the merges they are
    copies of were apart, and in different tiles because they do not stick out. -/
theorem apart_whole (h : Agrees s.merges s.rows) :
    Merges.Apart ⟨(anchoredRanges (s.rows.copies src dst series)).filter fun m =>
      m.within (tileOf src dst m.first)⟩ where
  multiple := fun m hm => by
    obtain ⟨w, hw, span, hspan, -, rfl⟩ := mem_anchoredRanges_iff.1 (List.mem_filter.1 hm).1
    obtain ⟨x⟩ := Rows.mem_copies_iff.1 hw
    exact isMultiple_spanning (h.apart.multiple _ (h.marks x.c span (x.mark_eq hspan)))
  disjoint := by
    rw [List.pairwise_filter, anchoredRanges, List.pairwise_filterMap]
    refine (Rows.pairwise_copies s.rows src dst series).imp_of_mem ?_
    intro w w' hw hw' hne m hm m' hm' hwhole hwhole'
    obtain ⟨x⟩ := Rows.mem_copies_iff.1 hw
    obtain ⟨y⟩ := Rows.mem_copies_iff.1 hw'
    obtain ⟨span, hspan, -, rfl⟩ := anchored_eq_some_iff.1 hm
    obtain ⟨span', hspan', -, rfl⟩ := anchored_eq_some_iff.1 hm'
    rw [Range.first_spanning, tileOf_eq x] at hwhole
    rw [Range.first_spanning, tileOf_eq y] at hwhole'
    rw [Bool.eq_false_iff]
    intro hmeets
    have htile := tile_disjoint x y <| Range.intersects_of_within hwhole <| by
      rw [Range.intersects_comm] at hmeets ⊢
      exact Range.intersects_of_within hwhole' hmeets
    -- In one tile both are moved alike, so the merges of the source meet as well.
    have hx := h.marks x.c span (x.mark_eq hspan)
    have hy := h.marks y.c span' (y.mark_eq hspan')
    have hsource : (Range.spanning x.c span.rows span.cols).intersects
        (Range.spanning y.c span'.rows span'.cols) = true := by
      have hcx := Range.mem_iff.1 x.mem
      have hcy := Range.mem_iff.1 y.mem
      rw [Range.intersects_iff] at hmeets ⊢
      simp only [Range.spanning, x.target, y.target, htile] at hmeets ⊢
      omega
    have heq := congrArg Range.first (h.apart.eq_of_intersects hx hy hsource)
    refine hne ?_
    rw [Range.first_spanning, Range.first_spanning] at heq
    rw [x.target, y.target, heq, htile.1, htile.2]

/-- Take the marks of the cells that begin these ranges. -/
def unmark (broken : List Range) (rows : Rows) : Rows :=
  broken.foldl (fun rows m => rows.modifyCell m.first fun cell => { cell with merge := none }) rows

theorem cell?_unmark {broken : List Range} {rows : Rows} {c : CellRef}
    (hc : ∀ m ∈ broken, m.first ≠ c) : (unmark broken rows).cell? c = rows.cell? c := by
  induction broken generalizing rows with
  | nil => rfl
  | cons m broken ih =>
    rw [unmark, List.foldl_cons, ← unmark, ih fun m' hm' => hc m' (List.mem_cons_of_mem _ hm'),
      Rows.cell?_modifyCell, if_neg (Ne.symm (hc m List.mem_cons_self))]

theorem mark_unmark {broken : List Range} {rows : Rows} {c : CellRef} {span : Span}
    (h : (unmark broken rows).mark c = some span) :
    rows.mark c = some span ∧ ∀ m ∈ broken, m.first ≠ c := by
  induction broken generalizing rows with
  | nil => exact ⟨h, by simp⟩
  | cons m broken ih =>
    obtain ⟨hmark, hbroken⟩ := ih h
    obtain ⟨cell, hcell, hmerge⟩ := Rows.mark_eq_some_iff.1 hmark
    rw [Rows.cell?_modifyCell] at hcell
    split at hcell
    · obtain ⟨_, _, rfl⟩ := Option.map_eq_some_iff.1 hcell
      cases hmerge
    · rename_i hne
      refine ⟨Rows.mark_eq_some_iff.2 ⟨cell, hcell, hmerge⟩, fun m' hm' => ?_⟩
      rcases List.mem_cons.1 hm' with rfl | hm'
      · exact Ne.symm hne
      · exact hbroken m' hm'

theorem mark_copyBlock_text {rows : Rows} {c : CellRef} :
    (rows.copyBlock src dst .text series).1.mark c = rows.mark c := by
  by_cases hwritten : ∃ w ∈ rows.copies src dst series, w.1 = c
  · obtain ⟨w, hw, rfl⟩ := hwritten
    rw [Rows.mark, Rows.cell?_copyBlock_of_mem hw, Option.bind_some, Cell.receive, Rows.mark]
    cases rows.cell? w.1 <;> rfl
  · rw [Rows.mark, Rows.cell?_copyBlock_of_not_mem fun w hw heq => hwritten ⟨w, hw, heq⟩,
      Rows.mark]

/-- A mark after a copy was written, or was there and not overwritten. Then the cell
    is locked only if it was. -/
theorem mark_copyBlock {rows : Rows} {mode : CopyMode} (hmode : mode ≠ .text) {c : CellRef}
    {span : Span} (h : (rows.copyBlock src dst mode series).1.mark c = some span) :
    (∃ w ∈ rows.copies src dst series, w.1 = c ∧ w.2.merge = some span) ∨
      rows.mark c = some span ∧
        (∀ w ∈ rows.copies src dst series, w.1 = c → w.2.merge = none) ∧
        ((rows.copyBlock src dst mode series).1.IsLocked c → rows.IsLocked c) := by
  by_cases hwritten : ∃ w ∈ rows.copies src dst series, w.1 = c
  · obtain ⟨w, hw, rfl⟩ := hwritten
    obtain ⟨cell, hcell, hmerge⟩ := Rows.mark_eq_some_iff.1 h
    rw [Rows.cell?_copyBlock_of_mem hw, Option.some.injEq] at hcell
    subst hcell
    cases hw' : w.2.merge with
    | some span' =>
      refine .inl ⟨w, hw, rfl, ?_⟩
      cases mode <;> simp_all [Cell.receive]
    | none =>
      cases mode with
      | all =>
        rw [Cell.receive, hw'] at hmerge
        cases hmerge
      | text => exact absurd rfl hmode
      | format =>
        rw [Cell.receive, hw', Option.none_or] at hmerge
        cases hold : rows.cell? w.1 with
        | none =>
          rw [hold] at hmerge
          cases hmerge
        | some cell =>
          rw [hold, Option.getD_some] at hmerge
          refine .inr ⟨Rows.mark_eq_some_iff.2 ⟨cell, hold, hmerge⟩, fun w' hw'' heq => ?_, ?_⟩
          · obtain ⟨x⟩ := Rows.mem_copies_iff.1 hw
            obtain ⟨y⟩ := Rows.mem_copies_iff.1 hw''
            rw [← x.eq_of_target_eq y heq.symm, hw']
          · rintro ⟨cell', hcell', hlocked⟩
            rw [Rows.cell?_copyBlock_of_mem hw, hold, Option.some.injEq] at hcell'
            exact ⟨cell, hold, by rw [← hlocked, ← hcell']; rfl⟩
  · have hcell : (rows.copyBlock src dst mode series).1.cell? c = rows.cell? c :=
      Rows.cell?_copyBlock_of_not_mem fun w hw heq => hwritten ⟨w, hw, heq⟩
    rw [Rows.mark_congr hcell] at h
    refine .inr ⟨h, fun w hw heq => absurd ⟨w, hw, heq⟩ hwritten, fun hlocked => ?_⟩
    rwa [Rows.IsLocked, hcell] at hlocked

/-- The merges of a copy that lie inside their tile. -/
def wholeRanges (s : Sheet) (src dst : Range) (series : Bool) : List Range :=
  (anchoredRanges (s.rows.copies src dst series)).filter fun m =>
    m.within (tileOf src dst m.first)

/-- The merges of a copy that stick out of their tile. -/
def brokenRanges (s : Sheet) (src dst : Range) (series : Bool) : List Range :=
  (anchoredRanges (s.rows.copies src dst series)).filter fun m =>
    !m.within (tileOf src dst m.first)

theorem mem_wholeRanges_iff {m : Range} : m ∈ s.wholeRanges src dst series ↔
    m.within (tileOf src dst m.first) = true ∧ ∃ w ∈ s.rows.copies src dst series,
      ∃ span, w.2.merge = some span ∧ span ≠ .zero ∧
        Range.spanning w.1 span.rows span.cols = m := by
  rw [wholeRanges, List.mem_filter, mem_anchoredRanges_iff, and_comm]

theorem wholeRanges_within {m : Range} (hm : m ∈ s.wholeRanges src dst series) :
    m.within (footprint src dst) = true := by
  obtain ⟨hwhole, w, hw, span, -, -, rfl⟩ := mem_wholeRanges_iff.1 hm
  obtain ⟨x⟩ := Rows.mem_copies_iff.1 hw
  rw [Range.first_spanning, tileOf_eq x] at hwhole
  exact Range.within_trans hwhole (tile_within x)

/-- The sheet with the cells of a copy, before merges make room for those that
    arrive. -/
def copied (s : Sheet) (src dst : Range) (mode : CopyMode) (series : Bool) : Sheet :=
  { s with rows := unmark (s.brokenRanges src dst series) (s.rows.copyBlock src dst mode series).1 }

variable (s src dst series) in
/-- What a copy does to merges and cells, unless it is one of text. -/
theorem copyInto_eq {mode : CopyMode} (hmode : mode ≠ .text) :
    let cleared := dropMerges (footprint src dst) none (s.wholeRanges src dst series)
      (s.copied src dst mode series)
    (copyInto src dst mode series s).merges =
        (s.wholeRanges src dst series).foldl Merges.add cleared.merges ∧
      (copyInto src dst mode series s).rows = cleared.rows := by
  cases mode with
  | text => exact absurd rfl hmode
  | all => exact ⟨rfl, rfl⟩
  | format => exact ⟨rfl, rfl⟩

/-- After a copy every mark is registered, unless a locked cell kept that of the merge
    that was pasted into. -/
theorem marks_copyInto (h : Agrees s.merges s.rows) {mode : CopyMode} (hmode : mode ≠ .text)
    (hcheck : s.checkPaste src dst = none) {c : CellRef} {span : Span}
    (hmark : (copyInto src dst mode series s).rows.mark c = some span) :
    Range.spanning c span.rows span.cols ∈ (copyInto src dst mode series s).merges.ranges ∨
      (footprint src dst).mem c = true ∧ (copyInto src dst mode series s).rows.IsLocked c ∧
        s.rows.IsLocked c := by
  obtain ⟨hmerges, hrows⟩ := copyInto_eq s src dst series hmode
  rw [hrows] at hmark ⊢
  rw [hmerges]
  refine marks_arrived (s := s.copied src dst mode series) h (checkPaste_eq_none_iff.1 hcheck)
    (apart_whole h) (fun m hm => wholeRanges_within hm) (fun c span hmark => ?_) hmark
  obtain ⟨hmark, hkept⟩ := mark_unmark hmark
  have hcell : (s.copied src dst mode series).rows.cell? c =
      (s.rows.copyBlock src dst mode series).1.cell? c := cell?_unmark hkept
  rcases mark_copyBlock hmode hmark with ⟨w, hw, rfl, hspan⟩ | ⟨hold, hnone, hlocked⟩
  · -- The mark was written, and is not one of those that were taken.
    left
    obtain ⟨x⟩ := Rows.mem_copies_iff.1 hw
    have hmultiple := h.apart.multiple _ (h.marks x.c span (x.mark_eq hspan))
    have hmem : Range.spanning w.1 span.rows span.cols ∈
        anchoredRanges (s.rows.copies src dst series) := by
      refine mem_anchoredRanges_iff.2 ⟨w, hw, span, hspan, ?_, rfl⟩
      rintro rfl
      simp [Range.isMultiple_iff, Range.spanning, Span.zero] at hmultiple
    by_contra hout
    refine hkept _ (List.mem_filter.2 ⟨hmem, ?_⟩) rfl
    rw [Bool.not_eq_true', Bool.eq_false_iff]
    exact fun hin => hout (List.mem_filter.2 ⟨hmem, hin⟩)
  · -- The mark was there before, and nothing was written over it.
    refine .inr ⟨hold, fun m hm hfirst => ?_, fun hkeeps => hlocked ?_⟩
    · obtain ⟨-, w, hw, span', hspan', -, rfl⟩ := mem_wholeRanges_iff.1 hm
      rw [hnone w hw hfirst] at hspan'
      cases hspan'
    · rwa [Rows.IsLocked, hcell] at hkeeps

/-- Pasting a copy keeps merges apart. -/
theorem apart_copyInto (h : Agrees s.merges s.rows) (mode : CopyMode)
    (hcheck : s.checkPaste src dst = none) : (copyInto src dst mode series s).merges.Apart := by
  by_cases hmode : mode = .text
  · subst hmode
    exact h.apart
  have hcover := checkPaste_eq_none_iff.1 hcheck
  have hwhole : Merges.Apart ⟨s.wholeRanges src dst series⟩ := apart_whole h
  have hmerges : (s.wholeRanges src dst series).foldl Merges.add .empty =
      ⟨s.wholeRanges src dst series⟩ := congrArg Merges.mk (Merges.ranges_foldl_add hwhole.disjoint)
  rw [(copyInto_eq s src dst series hmode).1,
    apart_arrived_iff (s := s.copied src dst mode series) h.apart hcover
    fun m hm => wholeRanges_within hm, hmerges]
  exact hwhole

/-- Pasting a copy. -/
theorem settled_copyInto (h : Agrees s.merges s.rows) (mode : CopyMode)
    (hcheck : s.checkPaste src dst = none) :
    Settled (copyInto src dst mode series s).merges (copyInto src dst mode series s).rows := by
  by_cases hmode : mode = .text
  · subst hmode
    exact (h.of_sameMarks fun c => mark_copyBlock_text).settled
  refine ⟨apart_copyInto h mode hcheck, fun c span hmark => ?_⟩
  exact (marks_copyInto h hmode hcheck hmark).imp_right fun hkept => hkept.2.1

end

end Sheet

end Worksheet
