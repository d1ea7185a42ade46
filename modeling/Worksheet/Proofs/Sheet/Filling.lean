import Worksheet.Proofs.Rows.Series
import Worksheet.Proofs.Sheet.Anchors
import Worksheet.Proofs.Sheet.Locking
import Worksheet.Proofs.Sheet.Sharing

/-!
# Filling from the Selection

Where a fill writes, and what it writes there when it continues a series of integers.

A fill lays whole copies of the selection into the range that is to be filled. If these fit
exactly nothing else is written, and otherwise the last of them reach out of the range: they
are copies as good as the others, and cells of the selection itself can be among those that
they are written over. A single cell always fits. When it is filled along its row or its
column, its displacement from a filled cell has one part only that is not zero, and this is
the part that the number in it is advanced by.

## Main definitions

* `Range.InLine`: The ranges in the row or the column of a cell.
* `CellRef.stepsTo`: The number of cells from one to another in such a range.

## Theorems

* `Rows.copied?_eq_some`: The text that is copied to a place.
* `Sheet.fill_applied_iff`: When a fill is applied.
* `Sheet.text?_fill_series`: A series of integers is continued.
* `Sheet.fill_outside`: A fill writes to the tiles that cover the range.
-/

namespace Worksheet

/-- Is a range part of the column or of the row of a cell? -/
def Range.InLine (r : Range) (c : CellRef) : Prop :=
  (r.left = c.col ∧ r.right = c.col) ∨ (r.top = c.row ∧ r.bottom = c.row)

/-- How many cells one cell is below another one in its column, or to the right of it in its
    row. -/
def CellRef.stepsTo (c p : CellRef) : Int := ((p.row : Int) - c.row) + ((p.col : Int) - c.col)

section

variable {src dst : Range} {c p : CellRef}

/-! ## Copies of one cell -/

/-- In a line, the displacement is the number of cells along it. -/
theorem displacementTo_inLine (hline : dst.InLine c) (hp : dst.mem p = true)
    (hsteps : (c.stepsTo p).natAbs < Address.reach) : c.displacementTo p = c.offsetTo p := by
  have hin := Range.mem_iff.1 hp
  unfold CellRef.stepsTo at hsteps
  -- One of the two distances is zero, and the other one is the number of cells.
  have hdistances : ((p.row : Int) - c.row).natAbs < Address.reach ∧
      ((p.col : Int) - c.col).natAbs < Address.reach := by
    rcases hline with ⟨hleft, hright⟩ | ⟨htop, hbottom⟩ <;> omega
  have hrow : Address.signed ((p.row : Int) - c.row) = p.row - c.row :=
    Address.signed_of_bounds (by omega) (by omega)
  have hcol : Address.signed ((p.col : Int) - c.col) = p.col - c.col :=
    Address.signed_of_bounds (by omega) (by omega)
  rw [CellRef.displacementTo, hrow, hcol, CellRef.offsetTo]

/-- A series that is continued along a line advances by the number of cells. -/
theorem seriesStep?_inLine (hline : dst.InLine c) (hout : dst.mem c = false)
    (hp : dst.mem p = true) (hsteps : (c.stepsTo p).natAbs < Address.reach) :
    seriesStep? (.single c) dst true (c.displacementTo p) = some (c.stepsTo p) := by
  have hin := Range.mem_iff.1 hp
  have hout := mt Range.mem_iff.2 (Bool.not_eq_true _ ▸ hout)
  have hcontinues : continuesSeries (.single c) dst = true := by
    simp [continuesSeries, Range.single, Range.height, Range.width]
  have hvertical :
      dst.isVerticalFrom (.single c) = true ↔ c.row < dst.top ∨ dst.bottom < c.row := by
    rw [Range.isVerticalFrom, Bool.or_eq_true, decide_eq_true_eq, decide_eq_true_eq]
    rfl
  rw [displacementTo_inLine hline hp hsteps, seriesStep?, hcontinues, Bool.and_self, if_pos rfl]
  simp only [hvertical, CellRef.offsetTo, CellRef.stepsTo]
  unfold Range.InLine at hline
  congr 1
  -- One of the two distances is zero, and the other one is taken.
  split <;> omega

theorem sourceOf_single (c : CellRef) (dst : Range) (p : CellRef) :
    Rows.sourceOf (.single c) dst p = c := by
  simp [Rows.sourceOf, Range.single, Range.height, Range.width, Nat.mod_one]

/-- Copies of a single cell fit into every range. -/
theorem footprint_of_single (c : CellRef) (dst : Range) : footprint (.single c) dst = dst := by
  refine footprint_eq_iff.2 ⟨?_, ?_⟩
  · simp [Range.single, Range.height]
  · simp [Range.single, Range.width]

namespace Rows

variable {s : Rows} {mode : CopyMode} {series : Bool}

/-- What is copied to a place of the footprint is the text of the copy of its source. -/
theorem copied?_eq_some (hmode : mode ≠ .format) (hp : (footprint src dst).mem p = true)
    {cell : Cell} (hcell : s.cell? (sourceOf src dst p) = some cell) :
    s.copied? src dst mode series p =
      some (copyOf src dst series (sourceOf src dst p) p cell).text := by
  have hmem : (p, copyOf src dst series (sourceOf src dst p) p cell) ∈ s.copies src dst series :=
    mem_copies_iff_sourceOf.2 ⟨hp, cell, hcell, rfl⟩
  have hfound : ((s.copies src dst series).find? fun w => w.1 = p).isSome = true :=
    List.find?_isSome.2 ⟨_, hmem, decide_eq_true rfl⟩
  obtain ⟨⟨p', copy⟩, hfind⟩ := Option.isSome_iff_exists.1 hfound
  obtain rfl : p' = p := by simpa using List.find?_some hfind
  -- There is one copy only that is written there.
  obtain ⟨-, cell', hcell', rfl⟩ := mem_copies_iff_sourceOf.1 (List.mem_of_find?_eq_some hfind)
  obtain rfl : cell = cell' := Option.some.inj (hcell.symm.trans hcell')
  rw [copied?, if_neg hmode, hfind, Option.map_some]

theorem copied?_single (hmode : mode ≠ .format) (hp : dst.mem p = true) {cell : Cell}
    (hcell : s.cell? c = some cell) : s.copied? (.single c) dst mode series p =
      some (copyOf (.single c) dst series c p cell).text := by
  have hplace : (footprint (.single c) dst).mem p = true := by rwa [footprint_of_single]
  have hsource : s.cell? (sourceOf (.single c) dst p) = some cell := by rwa [sourceOf_single]
  rw [copied?_eq_some hmode hplace hsource, sourceOf_single]

end Rows

/-- The text of an integer is no formula. -/
theorem copiedText_toString (z steps : Int) (d : Displacement) :
    copiedText (some steps) d (toString z) = seriesText steps (toString z) := by
  have hhead : ∃ a cs, (toString z).toList = a :: cs ∧ a ≠ '=' := by
    rw [Text.toList_toString]
    split
    · exact ⟨_, _, rfl, by decide⟩
    · have hdigits : Nat.toDigits 10 z.natAbs ≠ [] := Nat.toDigits_ne_nil
      obtain ⟨a, cs, hcs⟩ := List.exists_cons_of_ne_nil hdigits
      refine ⟨a, cs, hcs, ?_⟩
      rintro rfl
      have hdigit := Text.isDigit_of_mem_toDigits (hcs ▸ List.mem_cons_self)
      revert hdigit
      decide
  obtain ⟨a, cs, hcs, ha⟩ := hhead
  have hplain : isFormulaText (toString z) = false := by
    rw [isFormulaText, hcs, List.head?_cons]
    exact beq_eq_false_iff_ne.2 fun heq => ha (Option.some.inj heq)
  have hne : toString z ≠ "" := by
    intro heq
    rw [heq] at hcs
    cases hcs
  simp only [copiedText, hplain, Bool.false_eq_true, if_false, if_neg hne]

end

namespace Sheet

/-! ## Series -/

/-- A fill is applied when the sheet is open to changes and no merge is in the way. -/
theorem fill_applied_iff {s : Sheet} {src dst : Range} {mode : CopyMode}
    (h : s.selection.range = some src) : (s.fill dst mode).2 = .applied ↔
      s.isWritable = true ∧
        ∀ m ∈ s.merges.ranges, m.intersects (footprint src dst) = true → m = footprint src dst := by
  rw [← checkPaste_eq_none_iff]
  simp only [fill, h]
  cases s.checkPaste src dst with
  | some e => simp
  | none => exact commit_applied_iff.trans (and_iff_left rfl).symm

/-- A fill of texts along the row or the column of a single cell continues the series that
    the integer in it begins. It is applied if the sheet is open to changes and no merge but
    one that covers the same cells is in the way. -/
theorem text?_fill_series (s : Sheet) (dst : Range) (mode : CopyMode) {c : CellRef} {z : Int}
    (hselected : s.selection.range = some (.single c))
    (htext : s.rows.text? c = some (toString z)) (hline : dst.InLine c)
    (hout : dst.mem c = false) (hmode : mode ≠ .format) (hz : z.natAbs < Number.wholeLimit) :
    ((s.fill dst mode).2 = .applied ↔
      s.isWritable = true ∧ ∀ m ∈ s.merges.ranges, m.intersects dst = true → m = dst) ∧
    ((s.fill dst mode).2 = .applied → ∀ p, dst.mem p = true →
      (z + c.stepsTo p).natAbs < Number.wholeLimit →
      (s.fill dst mode).1.rows.text? p = some (seriesEntry z (c.stepsTo p))) := by
  refine ⟨?_, fun happlied p hp hentry => ?_⟩
  · rw [fill_applied_iff hselected, footprint_of_single]
  · have hlimit : Number.wholeLimit = 1000000000000000 := rfl
    have hsteps : (c.stepsTo p).natAbs < Address.reach := by
      simp only [Address.reach, UInt64.size]
      omega
    obtain ⟨cell, hcell, hcellText⟩ := Option.bind_eq_some_iff.1 htext
    have hcopy : (copyOf (.single c) dst true c p cell).text =
        cell.text.map (copiedText (seriesStep? (.single c) dst true (c.displacementTo p))
          (c.displacementTo p)) := rfl
    have hbrought : s.brought? (.fill dst mode) p =
        some (some (seriesText (c.stepsTo p) (toString z))) := by
      simp only [brought?, hselected, Rows.copied?_single hmode hp hcell]
      rw [hcopy, hcellText, seriesStep?_inLine hline hout hp hsteps, Option.map_some,
        copiedText_toString]
    rw [text?_fill, if_pos happlied, hbrought, Option.getD_some,
      seriesText_toString (by omega) (by omega) (by omega)]

/-- A text in the fourth cell of a column, which is selected. -/
def fourth (text : String) : Sheet :=
  (new "" {}).runAll [.typeText ⟨3, 0⟩ text .finished, .select (.single ⟨3, 0⟩)]

/-- A series that goes up from two is below zero in the third cell above it. -/
theorem text?_fill_series_upward :
    let dst : Range := .between ⟨0, 0⟩ ⟨2, 0⟩
    (fourth "2").rows.text? ⟨3, 0⟩ = some (toString (2 : Int)) ∧
      ((fourth "2").fill dst .all).2 = .applied ∧
      ((fourth "2").fill dst .all).1.rows.text? ⟨0, 0⟩ = some "-1" := by
  intro dst
  have htext : (fourth "2").rows.text? ⟨3, 0⟩ = some (toString (2 : Int)) := by decide
  have hselected : (fourth "2").selection.range = some (.single ⟨3, 0⟩) := by decide
  obtain ⟨happlied, hentries⟩ := text?_fill_series (fourth "2") dst .all hselected htext
    (.inl ⟨rfl, rfl⟩) (by decide) nofun (by decide)
  have hopen := happlied.2 ⟨by decide, by decide⟩
  exact ⟨htext, hopen, hentries hopen ⟨0, 0⟩ (by decide) (by decide)⟩

/-- Below a negative number the entries go away from zero, and a copy of the format brings no
    text. -/
theorem text?_fill_negative :
    let dst : Range := .single ⟨4, 0⟩
    ((fourth "-3").rows.text? ⟨3, 0⟩ = some (toString (-3 : Int)) ∧
      ((fourth "-3").fill dst .all).2 = .applied ∧
      ((fourth "-3").fill dst .all).1.rows.text? ⟨4, 0⟩ = some "-4" ∧
      toString (-3 + 1 : Int) = "-2") ∧
    (fourth "3").rows.text? ⟨3, 0⟩ = some (toString (3 : Int)) ∧
      ((fourth "3").fill dst .format).2 = .applied ∧
      ((fourth "3").fill dst .format).1.rows.text? ⟨4, 0⟩ = none := by
  decide

/-! ## The other cells -/

/-- A fill changes no cell outside the whole copies of the selection that are needed to cover
    its range. These are the range itself if its height and width are multiples of those of
    the selection. -/
theorem fill_outside (s : Sheet) {src : Range} (h : s.selection.range = some src) (dst : Range)
    (mode : CopyMode) :
    Tiles src dst (footprint src dst) ∧
      (footprint src dst = dst ↔ src.height ∣ dst.height ∧ src.width ∣ dst.width) ∧
      ∀ c, (footprint src dst).mem c = false →
        (s.fill dst mode).1.cell? c = s.cell? c ∧
          (s.fill dst mode).1.styleAt? c = s.styleAt? c := by
  refine ⟨tiles_footprint src dst, footprint_eq_iff, fun c hc => ?_⟩
  have hkept : (s.fill dst mode).1.snapshot.rows.cell? c = s.rows.cell? c ∧
      (s.fill dst mode).1.snapshot.styles = s.styles := by
    simp only [fill, h]
    split
    · exact ⟨rfl, rfl⟩
    · exact commit_keeps (P := fun d => d.rows.cell? c = s.rows.cell? c ∧ d.styles = s.styles)
        ⟨rfl, rfl⟩ ⟨cell?_copyInto_of_not_mem hc, (reuses_copyInto src dst mode true _).styles⟩
  have hcell : (s.fill dst mode).1.cell? c = s.cell? c := hkept.1
  have hstyles : (s.fill dst mode).1.styles = s.styles := hkept.2
  refine ⟨hcell, ?_⟩
  rw [styleAt?, hcell, hstyles, styleAt?]

/-- Two texts in a column, which are selected. -/
def pair (first : CellRef) : Sheet :=
  (new "" {}).runAll [.typeText first "x" .finished,
    .typeText ⟨first.row + 1, first.col⟩ "y" .finished,
    .select (.between first ⟨first.row + 1, first.col⟩)]

/-- Two cells are filled into four beside them, and the cell below these stays. -/
theorem fill_outside_beside :
    (pair .origin).selection.range = some (.between .origin ⟨1, 0⟩) ∧
      footprint (.between .origin ⟨1, 0⟩) (.between ⟨0, 1⟩ ⟨3, 1⟩) = .between ⟨0, 1⟩ ⟨3, 1⟩ ∧
      ((pair .origin).fill (.between ⟨0, 1⟩ ⟨3, 1⟩) .all).1.cell? ⟨4, 1⟩ = none := by
  have hselected : (pair .origin).selection.range = some (.between .origin ⟨1, 0⟩) := by
    decide
  obtain ⟨-, hfits, hkept⟩ :=
    fill_outside (pair .origin) hselected (.between ⟨0, 1⟩ ⟨3, 1⟩) .all
  refine ⟨hselected, hfits.2 (by decide), ?_⟩
  rw [(hkept ⟨4, 1⟩ (by decide)).1]
  decide

/-- A pair is filled into one cell, beside it or above it, and the cell below that one is
    written as well. Above the pair this is a cell of the pair. -/
theorem fill_overreaching :
    (((pair .origin).fill (.single ⟨0, 1⟩) .all).2 = .applied ∧
      (pair .origin).cell? ⟨1, 1⟩ = none ∧
      ((pair .origin).fill (.single ⟨0, 1⟩) .all).1.rows.text? ⟨1, 1⟩ = some "y") ∧
    ((pair ⟨1, 0⟩).fill (.single .origin) .all).2 = .applied ∧
      (pair ⟨1, 0⟩).rows.text? ⟨1, 0⟩ = some "x" ∧
      ((pair ⟨1, 0⟩).fill (.single .origin) .all).1.rows.text? ⟨1, 0⟩ = some "y" := by
  decide

end Sheet

end Worksheet
