import Worksheet.Proofs.Sheet.Anchors
import Worksheet.Proofs.Sheet.Committing
import Worksheet.Proofs.Sheet.Cutting
import Worksheet.Sheet.Command

/-!
# Pasting Between Mirror Images

That a paste keeps the registry and the marks mirror images of each other.

Merges that are left do not meet the range that is pasted into, so their first cells
are not touched. Merges that arrive have marks that were written with them, and those
are not cleared when room is made. A merge that is moved takes its first cell along.

A mark that is not registered can only be left by a locked cell of the range that
is pasted into, where a merge had to make room.

All of this needs numbers that the grid has. What was cut and is pasted in the other
half of it leaves its merges behind.

## Main definitions

* `Sheet.CanCopy`: A block that is copied with its merges.
* `Sheet.PastesOnGrid`: Pastes that the numbers of the grid are enough for.
* `Sheet.target?`: The range that a command pastes into.
* `Sheet.Reflects`: What a paste keeps.

## Theorems

* `Sheet.paste_mirrors`: Every paste and every fill on the grid keeps it.
* `Sheet.paste_mirrors_far`: A paste into the other half of the grid does not.
-/

namespace Worksheet

namespace Sheet

/-! ## Pasting and filling -/

/-- The range that a command pastes into. -/
def target? (s : Sheet) : Command → Option Range
  | .paste _ => match s.clipboard, s.selection.range with
    | .copy src, some dst => some (footprint src dst)
    | .cut src, some dst => some (footprint src (.single dst.first))
    | _, _ => none
  | .fill dst _ => s.selection.range.map fun src => footprint src dst
  | _ => none

/-- Can a block be copied with the numbers that indices have? Its stored cells stay on their
    half of the grid and the merges that they anchor on the grid, and there are a row and a
    column after the cells that are written. -/
structure CanCopy (s : Sheet) (src dst : Range) : Prop where
  cells : s.rows.Copyable src dst
  merges : ∀ w ∈ s.rows.copies src dst false, ∀ span ∈ w.2.merge,
    w.1.row + span.rows < Address.gridLimit ∧ w.1.col + span.cols < Address.gridLimit
  target : (footprint src dst).last.Fits

instance (s : Sheet) (src dst : Range) : Decidable (s.CanCopy src dst) :=
  decidable_of_iff (s.rows.Copyable src dst ∧
      (∀ w ∈ s.rows.copies src dst false, ∀ span ∈ w.2.merge,
        w.1.row + span.rows < Address.gridLimit ∧ w.1.col + span.cols < Address.gridLimit) ∧
      (footprint src dst).last.Fits)
    ⟨fun h => ⟨h.1, h.2.1, h.2.2⟩, fun h => ⟨h.cells, h.merges, h.target⟩⟩

/-- Can a command paste with the numbers that indices have? -/
def PastesOnGrid (s : Sheet) : Command → Prop
  | .paste _ => match s.clipboard with
    | .clear => True
    | .copy src => ∀ dst ∈ s.selection.range, s.CanCopy src dst
    | .cut src => ∀ dst ∈ s.selection.range, src.CanMove dst.first
  | .fill dst _ => ∀ src ∈ s.selection.range, s.CanCopy src dst
  | _ => True

section

variable {s : Sheet} {f : Range}

/-- What a paste keeps. Without locked cells in its way it keeps everything. -/
structure Reflects (before : Rows) (f : Range) (m : Merges) (rows : Rows) : Prop where
  apart : m.Apart
  anchored : rows.Anchors m
  marks : (∀ c, f.mem c = true → ¬before.IsLocked c) → rows.MarksIn m

theorem reflects_copyInto {src dst : Range} {series : Bool} (h : Mirrors s.merges s.rows)
    (mode : CopyMode) (hcheck : s.checkPaste src dst = none) :
    Reflects s.rows (footprint src dst) (copyInto src dst mode series s).merges
      (copyInto src dst mode series s).rows := by
  refine ⟨apart_copyInto h.toAgrees mode hcheck, anchored_copyInto h mode hcheck,
    fun hopen c span hmark => ?_⟩
  by_cases hmode : mode = .text
  · subst hmode
    rw [show (copyInto src dst .text series s).rows.mark c = s.rows.mark c from
      mark_copyBlock_text] at hmark
    exact h.marks c span hmark
  · rcases marks_copyInto h.toAgrees hmode hcheck hmark with hregistered | ⟨hin, -, hlocked⟩
    · exact hregistered
    · exact absurd hlocked (hopen c hin)

theorem reflects_moveInto {src dst : Range} (h : Mirrors s.merges s.rows)
    (hmove : src.CanMove dst.first) (hcut : s.checkCut src = none)
    (hcheck : s.checkPaste src (.single dst.first) = none) :
    Reflects s.rows (footprint src (.single dst.first)) (moveInto src dst s).merges
      (moveInto src dst s).rows := by
  refine ⟨apart_moveInto h.apart hmove hcheck, anchored_moveInto h hmove hcut hcheck,
    fun hopen c span hmark => ?_⟩
  rcases marks_moveInto h.toAgrees hmove hcut hmark with hregistered | ⟨hin, -, hlocked⟩
  · exact hregistered
  · exact absurd hlocked (hopen c hin)

theorem reflects_commit {change : Sheet → Sheet} (happlied : (s.commit change).2 = .applied)
    (h : Reflects s.rows f (change s.recorded).merges (change s.recorded).rows) :
    Reflects s.rows f (s.commit change).1.merges (s.commit change).1.rows := by
  unfold commit at happlied ⊢
  by_cases hwritable : s.isWritable = true
  · rw [if_pos hwritable]
    exact ⟨h.apart, h.anchored, h.marks⟩
  · rw [if_neg hwritable] at happlied
    cases happlied

/-- A paste goes by what is on the clipboard. -/
theorem reflects_paste (h : Mirrors s.merges s.rows) {mode : CopyMode}
    (hf : s.target? (.paste mode) = some f) (hgrid : s.PastesOnGrid (.paste mode))
    (happlied : (s.paste mode).2 = .applied) :
    Reflects s.rows f (s.paste mode).1.merges (s.paste mode).1.rows := by
  unfold paste at happlied ⊢
  cases hclipboard : s.clipboard with
  | clear =>
    rw [hclipboard] at happlied
    cases happlied
  | copy src => cases hselected : s.selection.range with
    | none =>
      simp only [hclipboard, hselected] at happlied
      cases happlied
    | some dst =>
      simp only [target?, hclipboard, hselected, Option.some.injEq] at hf happlied ⊢
      subst hf
      cases hcheck : s.checkPaste src dst with
      | some e =>
        rw [hcheck] at happlied
        cases happlied
      | none =>
        rw [hcheck] at happlied
        exact reflects_commit happlied (reflects_copyInto (s := s.recorded) h mode hcheck)
  | cut src => cases hselected : s.selection.range with
    | none =>
      simp only [hclipboard, hselected] at happlied
      cases happlied
    | some dst =>
      simp only [target?, hclipboard, hselected, Option.some.injEq] at hf happlied ⊢
      subst hf
      cases hnone : (s.checkCut src).or (s.checkPaste src (.single dst.first)) with
      | some e =>
        rw [hnone] at happlied
        cases happlied
      | none =>
        obtain ⟨hcut, hcheck⟩ := Option.or_eq_none_iff.1 hnone
        rw [hnone] at happlied
        have hmove : src.CanMove dst.first := by
          simp only [PastesOnGrid, hclipboard] at hgrid
          exact hgrid dst hselected
        exact reflects_commit happlied
          (reflects_moveInto (s := s.recorded) h hmove hcut hcheck)

/-- A fill copies the selection. -/
theorem reflects_fill (h : Mirrors s.merges s.rows) {dst : Range} {mode : CopyMode}
    (hf : s.target? (.fill dst mode) = some f) (happlied : (s.fill dst mode).2 = .applied) :
    Reflects s.rows f (s.fill dst mode).1.merges (s.fill dst mode).1.rows := by
  unfold fill at happlied ⊢
  cases hselected : s.selection.range with
  | none =>
    rw [target?, hselected] at hf
    cases hf
  | some src =>
    simp only [target?, hselected, Option.map_some, Option.some.injEq] at hf happlied ⊢
    subst hf
    cases hcheck : s.checkPaste src dst with
    | some e =>
      rw [hcheck] at happlied
      cases happlied
    | none =>
      rw [hcheck] at happlied
      exact reflects_commit happlied (reflects_copyInto (s := s.recorded) h mode hcheck)

/-- When merges and marks mirror each other, a paste or a fill on the grid that is applied
    leaves merges that are apart and anchored, and if no locked cell lies in the range that
    is pasted into, merges and marks mirror each other again. -/
theorem paste_mirrors (s : Sheet) (c : Command) (f : Range) (hs : Mirrors s.merges s.rows)
    (hf : s.target? c = some f) (hgrid : s.PastesOnGrid c) (happlied : (s.run c).2 = .applied) :
    (s.run c).1.merges.Apart ∧ (s.run c).1.rows.Anchors (s.run c).1.merges ∧
      ((∀ x, f.mem x = true → ¬s.rows.IsLocked x) →
        (s.run c).1.rows.MarksIn (s.run c).1.merges) := by
  suffices h : Reflects s.rows f (s.run c).1.merges (s.run c).1.rows from
    ⟨h.apart, h.anchored, h.marks⟩
  cases c with
  | paste mode => exact reflects_paste hs hf hgrid happlied
  | fill dst mode => exact reflects_fill hs hf happlied
  | _ => cases hf

end

/-- The stored cells tell whether merges and marks mirror each other. -/
theorem mirrors_of_cells {m : Merges} {rows : Rows} (hapart : m.Apart)
    (hmarks : ∀ e ∈ rows.cells, ∀ span ∈ e.2.merge,
      Range.spanning e.1 span.rows span.cols ∈ m.ranges)
    (hanchored : ∀ r ∈ m.ranges, rows.mark r.first = some r.span) : Mirrors m rows where
  apart := hapart
  marks := fun c span hmark => by
    obtain ⟨cell, hcell, hmerge⟩ := Rows.mark_eq_some_iff.1 hmark
    exact hmarks (c, cell) (Rows.mem_cells_iff.2 hcell) span hmerge
  anchored := hanchored

theorem not_isLocked_of_cells {rows : Rows} (h : ∀ e ∈ rows.cells, e.2.editable = true)
    (c : CellRef) : ¬rows.IsLocked c := by
  rintro ⟨cell, hcell, hlocked⟩
  rw [h (c, cell) (Rows.mem_cells_iff.2 hcell)] at hlocked
  cases hlocked

/-- A merge of four cells is pasted three times, side by side, over one that it covers. -/
theorem paste_mirrors_tiled :
    let s := (Sheet.new "" {}).runAll [.select (.between ⟨0, 0⟩ ⟨1, 1⟩), .merge, .copy,
      .select (.between ⟨4, 0⟩ ⟨5, 5⟩), .merge]
    (s.run (.paste .all)).1.merges.Apart ∧
      (s.run (.paste .all)).1.rows.Anchors (s.run (.paste .all)).1.merges ∧
      (s.run (.paste .all)).1.rows.MarksIn (s.run (.paste .all)).1.merges := by
  intro s
  have hs : Mirrors s.merges s.rows :=
    mirrors_of_cells (by decide) (by decide) (by decide)
  have hgrid : s.PastesOnGrid (.paste .all) := by
    show ∀ dst ∈ s.selection.range, s.CanCopy (.between ⟨0, 0⟩ ⟨1, 1⟩) dst
    decide
  obtain ⟨hapart, hanchored, hmarks⟩ := paste_mirrors s (.paste .all) (.between ⟨4, 0⟩ ⟨5, 5⟩) hs
    (by decide) hgrid (by decide)
  exact ⟨hapart, hanchored, hmarks fun x _ => not_isLocked_of_cells (by decide) x⟩

/-- A merge is cut and pasted into the other half of the grid. Its first cell is moved there,
    and the merge stays where it was. -/
theorem paste_mirrors_far :
    let s := (Sheet.new "" {}).runAll [.select (.between ⟨0, 0⟩ ⟨1, 1⟩), .merge, .cut,
      .selectCell ⟨Address.reach, 0⟩]
    (Mirrors s.merges s.rows ∧ (s.run (.paste .all)).2 = .applied) ∧
      ¬(s.run (.paste .all)).1.rows.Anchors (s.run (.paste .all)).1.merges := by
  intro s
  have hs : Mirrors s.merges s.rows :=
    mirrors_of_cells (by decide) (by decide) (by decide)
  refine ⟨⟨hs, by decide⟩, fun hanchored => ?_⟩
  have hmark := hanchored (.between ⟨0, 0⟩ ⟨1, 1⟩) (by decide)
  revert hmark
  decide

end Sheet

end Worksheet
