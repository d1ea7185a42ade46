import Worksheet.Proofs.Lossless
import Worksheet.Proofs.Rows.Marks
import Worksheet.Snapshot

/-!
# Reading Snapshots Back

The styles, the merges and the cells of a snapshot that was written and read back.

A snapshot may not be read back at all, when something in it is off the grid or a
number in it has too many digits. What is read back has the styles and the merges
that were written, in the same order, and the cells that were written. Its heights
are another matter, since a double is written in digits; nothing here depends on
them.

That a style is read at all says that the size of its font has sixteen bits, and then
its document is exact.

## Main definitions

* `Snapshot.Reread`: What is the same in a snapshot that is read back.

## Theorems

* `Cell.eq_of_ofJson?`, `Rows.cell?_of_ofJson?`: Cells are read back as they were written.
* `Style.eq_of_ofJson?`, `StyleTable.eq_of_ofJson?`: And so are styles.
* `Merges.eq_of_ofJson?`: A registry that is read back is the one that was written.
* `Snapshot.reread_of_ofText?`: The same of snapshots.
-/

namespace Worksheet

open Json

/-- A cell that is read back is the cell that was written. -/
theorem Cell.eq_of_ofJson? {form : Form} {cell cell' : Cell}
    (h : Cell.ofJson? form (reread cell.toJson) = some cell') : cell' = cell := by
  simp only [Cell.ofJson?, Cell.toJson, reread, Option.bind_eq_bind, Option.bind_eq_some_iff,
    Option.pure_def, Option.some.injEq] at h
  obtain ⟨fields, hfields, text, htext, style, hstyle, merge, hmerge, editable, heditable, formula,
    hformula, rfl⟩ := h
  -- The fields of a cell are written in one order, each at most once.
  simp only [find?_of_record? hfields, List.mem_cons, true_or, or_true, find?_rereadFields,
    find?_append, find?_fieldIf, find?_unless] at htext hstyle hmerge heditable hformula
  simp only [String.reduceEq, if_true, if_false, Option.or_none, Option.none_or, Option.map_map,
    Option.map_if, false_and, true_and] at htext hstyle hmerge heditable hformula
  have hmerge : merge = cell.merge := by
    refine optional?_reread hmerge (fun span => ?_) fun span span' hspan => ?_
    · rw [reread]
      exact Json.noConfusion
    · obtain ⟨⟨rows, cols⟩, hpair, rfl⟩ := Option.map_eq_some_iff.1 hspan
      obtain ⟨rfl, rfl⟩ := indexPair?_reread hpair
      rfl
  have heditable : editable = cell.editable := by
    cases hcell : cell.editable <;> rw [hcell] at heditable <;> cases heditable <;> rfl
  rw [optional?_text_reread htext, optional?_index_reread hstyle, hmerge, heditable,
    optional?_text_reread hformula]

/-- A row that is read back has the cells of the row that was written. -/
theorem Row.cells_of_ofJson? {form : Form} {row row' : Row}
    (h : Row.ofJson? form (reread row.toJson) = some row') (col : Nat) :
    Option.Rel (fun cell cell' => Cell.ofJson? form (reread cell.toJson) = some cell')
      (row.cells.get? col) (row'.cells.get? col) := by
  simp only [Row.ofJson?, Row.toJson, reread, Option.bind_eq_bind, Option.bind_eq_some_iff,
    Option.pure_def, Option.some.injEq] at h
  obtain ⟨fields, hfields, cells, hcells, height, -, hidden, -, style, -, rfl⟩ := h
  have hwritten : find? "cells" ((if row.cells.isEmpty then []
      else [("cells", ofIndexMap Cell.toJson row.cells)]) ++
        fieldIf "height" (row.height.map .float) ++ fieldWhen "hidden" row.hidden ++
        fieldIf "style" (row.style.map ofIndex)) =
      if row.cells.isEmpty then none else some (ofIndexMap Cell.toJson row.cells) := by
    simp only [find?_append, find?_fieldIf, find?_fieldWhen]
    split <;> simp [find?]
  rw [find?_of_record? hfields (by decide), find?_rereadFields, hwritten] at hcells
  by_cases hempty : row.cells.isEmpty = true
  · -- Cells are not written when there are none.
    rw [if_pos hempty] at hcells
    cases hcells
    rw [SparseMap.get?, List.isEmpty_iff.1 hempty]
    exact .none
  · rw [if_neg hempty] at hcells
    exact get?_indexMap? hcells col

/-- Rows that are read back have the cells of the rows that were written. -/
theorem Rows.cell?_of_ofJson? {form : Form} {s s' : Rows}
    (h : Rows.ofJson? form (reread s.toJson) = some s') (c : CellRef) : s'.cell? c = s.cell? c := by
  simp only [Rows.ofJson?, Rows.toJson, reread, Option.bind_eq_bind, Option.bind_eq_some_iff,
    Option.pure_def, Option.some.injEq] at h
  obtain ⟨fields, hfields, len, -, rows, hrows, rfl⟩ := h
  rw [find?_of_record? hfields (by decide), find?_rereadFields] at hrows
  simp only [find?, withDefault?] at hrows
  have hrow := get?_indexMap? hrows c.row
  simp only [Rows.cell?, Rows.row?]
  generalize s.rows.get? c.row = row, rows.get? c.row = row' at hrow
  cases hrow with
  | none => rfl
  | @some row row' hread =>
    have hcell := Row.cells_of_ofJson? hread c.col
    simp only
    generalize row.cells.get? c.col = cell, row'.cells.get? c.col = cell' at hcell ⊢
    cases hcell with
    | none => rfl
    | some hread => exact congrArg some (Cell.eq_of_ofJson? hread)

/-- A registry that is read back is the registry that was written, if the cells of its
    merges can be counted. -/
theorem Merges.eq_of_ofJson? {m m' : Merges} (hcount : ∀ r ∈ m.ranges, r.count < Address.gridLimit)
    (h : Merges.ofJson? (reread m.toJson) = some m') : m' = m := by
  obtain ⟨ranges, hranges, rfl⟩ := Option.map_eq_some_iff.1 h
  have heq : ranges = m.ranges :=
    list?_reread hranges fun r hr r' hr' => Range.eq_of_ofText?_toText (hcount r hr) hr'
  rw [heq]

/-! ## Styles -/

/-- A font that is read back has a size of sixteen bits. -/
theorem Font.size_of_ofJson? {form : Form} {f f' : Font}
    (h : Font.ofJson? form (reread f.toJson) = some f') : ∀ n ∈ f.size, n < UInt16.size := by
  simp only [Font.ofJson?, Font.toJson, reread, Option.bind_eq_bind, Option.bind_eq_some_iff,
    Option.pure_def, Option.some.injEq] at h
  obtain ⟨fields, hfields, name, -, size, hsize, bold, -, italic, -, rfl⟩ := h
  rw [find?_of_record? hfields (by decide), find?_rereadFields] at hsize
  intro n hn
  simp only [find?_append, find?_fieldIf, String.reduceEq, if_true, if_false, Option.or_none,
    Option.none_or] at hsize
  rw [hn] at hsize
  obtain ⟨n', hn', -⟩ := read_of_optional? hsize (reread_ofIndex_ne_null n)
  exact (short?_reread hn').2

/-- A style that is read back is the style that was written. -/
theorem Style.eq_of_ofJson? {form : Form} {s s' : Style}
    (h : Style.ofJson? form (reread s.toJson) = some s') : s' = s := by
  have hsized : s.Sized := by
    intro f hf
    simp only [Style.ofJson?, Style.toJson, reread, Option.bind_eq_bind, Option.bind_eq_some_iff,
      Option.pure_def, Option.some.injEq] at h
    obtain ⟨fields, hfields, background, -, align, -, verticalAlign, -, wrap, -, strike, -,
      underline, -, color, -, font, hfont, format, -, border, -, -⟩ := h
    rw [find?_of_record? hfields (by decide), find?_rereadFields] at hfont
    simp only [find?_append, find?_fieldIf, String.reduceEq, if_true, if_false, Option.or_none,
      Option.none_or] at hfont
    rw [hf] at hfont
    have hwritten : f.toJson.reread ≠ .null := by rw [Font.toJson, reread]; exact Json.noConfusion
    obtain ⟨f', hf', -⟩ := read_of_optional? hfont hwritten
    exact Font.size_of_ofJson? hf'
  rw [reread_of_isExact _ (Style.isExact_toJson hsized), Style.ofJson?_toJson form hsized] at h
  exact (Option.some.inj h).symm

/-- A table that is read back is the table that was written. -/
theorem StyleTable.eq_of_ofJson? {form : Form} {t t' : StyleTable}
    (h : StyleTable.ofJson? form (reread t.toJson) = some t') : t' = t := by
  obtain ⟨styles, hstyles, rfl⟩ := Option.map_eq_some_iff.1 h
  have heq : styles = t.styles := list?_reread hstyles fun _ _ _ => Style.eq_of_ofJson?
  rw [heq]

namespace Snapshot

/-- A snapshot that is read back has the styles and the cells that were written, and the
    merges if their cells can be counted. -/
structure Reread (d d' : Snapshot) : Prop where
  styles : d'.styles = d.styles
  merges : (∀ r ∈ d.merges.ranges, r.count < Address.gridLimit) → d'.merges = d.merges
  cells : ∀ c, d'.rows.cell? c = d.rows.cell? c

theorem reread_of_ofText? {d d' : Snapshot} (h : ofText? d.toText = some d') : Reread d d' := by
  simp only [ofText?, toText, parse?_render, ofJson?, toJson, reread, Option.bind_eq_bind,
    Option.bind_eq_some_iff, Option.pure_def, Option.some.injEq] at h
  obtain ⟨fields, hfields, name, -, freeze, -, styles, hstyles, merges, hmerges, rows, hrows, cols,
    -, rules, -, filter, -, rfl⟩ := h
  rw [find?_of_record? hfields (by decide), find?_rereadFields] at hstyles hmerges hrows
  exact ⟨StyleTable.eq_of_ofJson? hstyles, fun hcount => Merges.eq_of_ofJson? hcount hmerges,
    Rows.cell?_of_ofJson? hrows⟩

/-- A snapshot that is read back has the marks that were written. -/
theorem sameMarks_of_ofText? {d d' : Snapshot} (h : ofText? d.toText = some d') :
    Rows.SameMarks d.rows d'.rows := fun c => by
  rw [Rows.mark, Rows.mark, (reread_of_ofText? h).cells c]

end Snapshot

end Worksheet
