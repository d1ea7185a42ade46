import Worksheet.Proofs.Sheet.Agreement
import Worksheet.Proofs.Sheet.Shifting
import Worksheet.Sheet.Lines

/-!
# The Registry and the Marks After an Edit of Lines

That inserting and deleting lines keeps marks with their merges.

A merge that the edit goes through begins before it. Its first cell is not moved
then, so the change of its mark can be made where the cell was. All other marks are
moved with their cells, as the merges are.

The edge of the grid makes a difference. A merge that would reach past it leaves the
registry, and its first cell may lie well before the edge and keeps its mark. So an
insertion must leave every merge on the grid, and a deletion does so by itself. The
number of lines has to be read as itself, or merges are moved by another one.

## Main definitions

* `LineEdit.HasRoom`: Edits that keep all merges on the grid.
* `Sheet.Edited`: What an edit does to the merges and the rows of a sheet.

## Theorems

* `Merges.Apart.mark_changes`: The mark of a merge after the edit.
* `Agrees.edited`: On the grid the registry and the marks stay together.
* `Sheet.edited_insertLines`, `Sheet.edited_deleteLines`: Insertions and deletions are edits.
-/

namespace Worksheet

open Address

/-! ## Marks -/

namespace LineEdit

/-- Cells that stay are not moved onto each other. -/
theorem relabel_inj (e : LineEdit) {c c' : CellRef} (hc : e.Keeps c) (hc' : e.Keeps c')
    (h : e.relabel c = e.relabel c') : c = c' := by
  obtain ⟨row, col⟩ := c
  obtain ⟨row', col'⟩ := c'
  unfold Keeps at hc hc'
  unfold relabel at h
  cases haxis : e.axis with
  | row =>
    rw [haxis] at hc hc' h
    simp only [CellRef.mapLine, CellRef.mk.injEq] at h
    obtain ⟨hline, rfl⟩ := h
    have heq : row = row' := e.newLine_inj hc hc' hline
    rw [heq]
  | column =>
    rw [haxis] at hc hc' h
    simp only [CellRef.mapLine, CellRef.mk.injEq] at h
    obtain ⟨rfl, hline⟩ := h
    have heq : col = col' := e.newLine_inj hc hc' hline
    rw [heq]

/-- Cells before the edit stay where they are. -/
theorem relabel_of_lt_start {e : LineEdit} {c : CellRef} (h : c.line e.axis < e.start) :
    e.Keeps c ∧ e.relabel c = c :=
  have hline := newLine_of_lt_start h
  ⟨hline.1, relabel_of_newLine hline.2.1⟩

/-- A cell that stays is moved with its mark. -/
theorem mark_apply (e : LineEdit) (s : Rows) {c : CellRef} (hc : e.Keeps c) :
    (e.apply s).mark (e.relabel c) = s.mark c := by
  rw [Rows.mark, e.cell?_apply s hc, Rows.mark]
  cases s.cell? c with
  | none => rfl
  | some cell => exact e.mark_rewriteCell cell

/-- A mark that is found is that of a cell that stays. -/
theorem exists_of_mark_apply {e : LineEdit} {s : Rows} {c' : CellRef} {span : Span}
    (h : (e.apply s).mark c' = some span) :
    ∃ c, e.Keeps c ∧ e.relabel c = c' ∧ s.mark c = some span := by
  obtain ⟨cell', hcell', hmerge⟩ := Rows.mark_eq_some_iff.1 h
  obtain ⟨c, cell, hkeeps, hrelabel, hcell, rfl⟩ := exists_of_cell?_apply hcell'
  exact ⟨c, hkeeps, hrelabel, Rows.mark_eq_some_iff.2 ⟨cell, hcell, hmerge⟩⟩

end LineEdit

namespace Sheet

theorem mark_changeSpan (s : Rows) (change : SpanChange) (c : CellRef) :
    (changeSpan s change).mark c =
      if c = change.anchor then (s.mark c).bind (·.changed change.change) else s.mark c := by
  unfold changeSpan Rows.mark
  rw [Rows.cell?_modifyCell]
  by_cases hc : c = change.anchor
  · subst hc
    rw [if_pos rfl, if_pos rfl]
    cases s.cell? change.anchor with
    | none => rfl
    | some cell =>
      simp only [Option.map_some, Option.bind_some]
      cases hmerge : cell.merge with
      | none => exact hmerge
      | some span => rfl
  · rw [if_neg hc, if_neg hc]

theorem mark_foldl_changeSpan_of_not_anchor {changes : List SpanChange} {c : CellRef} {s : Rows}
    (h : ∀ change ∈ changes, change.anchor ≠ c) :
    (changes.foldl changeSpan s).mark c = s.mark c := by
  induction changes generalizing s with
  | nil => rfl
  | cons change changes ih =>
    rw [List.foldl_cons, ih fun x hx => h x (List.mem_cons_of_mem _ hx), mark_changeSpan,
      if_neg fun hc => h change List.mem_cons_self hc.symm]

/-- Every mark is changed at most once, so the order of the changes is no matter. -/
theorem mark_foldl_changeSpan_of_mem {changes : List SpanChange} {change : SpanChange} {s : Rows}
    (hnodup : changes.Pairwise fun a b => a.anchor ≠ b.anchor) (h : change ∈ changes) :
    (changes.foldl changeSpan s).mark change.anchor =
      (s.mark change.anchor).bind (·.changed change.change) := by
  induction changes generalizing s with
  | nil => cases h
  | cons first changes ih =>
    obtain ⟨hfirst, hrest⟩ := List.pairwise_cons.1 hnodup
    rw [List.foldl_cons]
    rcases List.mem_cons.1 h with rfl | hlater
    · rw [mark_foldl_changeSpan_of_not_anchor fun x hx => (hfirst x hx).symm, mark_changeSpan,
        if_pos rfl]
    · rw [ih hrest hlater, mark_changeSpan, if_neg fun hc => hfirst change hlater hc.symm]

/-- Changing spans makes no marks. -/
theorem exists_of_mark_foldl_changeSpan {changes : List SpanChange} {s : Rows} {c : CellRef}
    {span : Span} (h : (changes.foldl changeSpan s).mark c = some span) :
    ∃ span', s.mark c = some span' := by
  induction changes generalizing s with
  | nil => exact ⟨span, h⟩
  | cons change changes ih =>
    obtain ⟨span', hspan'⟩ := ih h
    rw [mark_changeSpan] at hspan'
    split at hspan'
    · obtain ⟨before, hbefore, -⟩ := Option.bind_eq_some_iff.1 hspan'
      exact ⟨before, hbefore⟩
    · exact ⟨span', hspan'⟩

end Sheet

/-! ## The registry and the marks -/

namespace Merges

variable {e : LineEdit} {r : Range} {out : Option Range × Option SpanChange}

/-- Only the first cell of a merge that the edit goes through has its mark changed. -/
theorem Shifted.anchor {change : SpanChange} (h : Shifted e r out) (hc : out.2 = some change) :
    change.anchor = r.first ∧ r.firstLine e.axis < e.start := by
  cases h with
  | moved hkeeps hfirst hlast => cases hc
  | stays hbefore => cases hc
  | through d hstart hlast hle =>
    cases hc
    exact ⟨rfl, hstart⟩
  | gone hgone => cases hc

/-- A range that is stretched on the grid begins where it did, and has its span changed. -/
theorem stretch_eq_spanning {axis : Axis} {d : Int} {r : Range} (hgrid : r.Below gridLimit)
    (hle : (r.firstLine axis : Int) ≤ r.lastLine axis + d)
    (hroom : (r.lastLine axis : Int) + d < gridLimit) :
    r.stretch axis d = .spanning r.first (clamp (r.span.rows + (axis.displacement d).rows))
      (clamp (r.span.cols + (axis.displacement d).cols)) := by
  have htop := r.top_le_bottom
  have hleft := r.left_le_right
  have hbottom := hgrid.bottom
  have hright := hgrid.right
  rw [Range.eq_iff]
  cases axis with
  | row =>
    simp only [Range.stretch, Range.between, Range.spanning, Range.span, Range.first,
      Range.firstLine, Range.lastLine, Axis.displacement, clamp] at hle hroom ⊢
    generalize gridLimit = limit at *
    omega
  | column =>
    simp only [Range.stretch, Range.between, Range.spanning, Range.span, Range.first,
      Range.firstLine, Range.lastLine, Axis.displacement, clamp] at hle hroom ⊢
    generalize gridLimit = limit at *
    omega

/-- A merge whose mark stays goes where its first cell goes. -/
theorem Shifted.eq_spanning {c : CellRef} {span : Span}
    (h : Shifted e (.spanning c span.rows span.cols) out) (hc : e.Keeps c) (hout : out.2 = none)
    (hgrid : (Range.spanning c span.rows span.cols).Below gridLimit)
    (hnew : e.newLast ((Range.spanning c span.rows span.cols).lastLine e.axis) < gridLimit) :
    out.1 = some (.spanning (e.relabel c) span.rows span.cols) := by
  cases h with
  | moved hkeeps hfirst hlast =>
    obtain ⟨hbottom, hright, -⟩ := hgrid
    rw [Range.firstLine_spanning] at hfirst
    show Range.move? _ _ = _
    rw [Range.move?_eq_some_iff]
    unfold LineEdit.relabel at *
    generalize gridLimit = limit at *
    cases haxis : e.axis with
    | row =>
      rw [haxis] at hfirst hlast hnew
      simp only [CellRef.mapLine, CellRef.line, Axis.displacement, Range.spanning,
        Range.lastLine] at *
      omega
    | column =>
      rw [haxis] at hfirst hlast hnew
      simp only [CellRef.mapLine, CellRef.line, Axis.displacement, Range.spanning,
        Range.lastLine] at *
      omega
  | stays hbefore =>
    have hstart : c.line e.axis < e.start := by
      rw [← Range.firstLine_spanning e.axis c span.rows span.cols]
      exact Nat.lt_of_le_of_lt (Range.firstLine_le_lastLine e.axis _) hbefore
    rw [(LineEdit.relabel_of_lt_start hstart).2]
  | through d hstart hlast hle => cases hout
  | gone hgone =>
    rw [Range.firstLine_spanning] at hgone
    exact absurd hc hgone

/-- A merge whose mark is changed stays where it is and has the changed span. -/
theorem Shifted.eq_spanning_of_changed {c : CellRef} {span span' : Span} {change : SpanChange}
    (h : Shifted e (.spanning c span.rows span.cols) out) (hout : out.2 = some change)
    (hgrid : (Range.spanning c span.rows span.cols).Below gridLimit)
    (hnew : e.newLast ((Range.spanning c span.rows span.cols).lastLine e.axis) < gridLimit)
    (hspan : span.changed change.change = some span') :
    out.1 = some (.spanning c span'.rows span'.cols) := by
  cases h with
  | moved hkeeps hfirst hlast => cases hout
  | stays hbefore => cases hout
  | through d hstart hlast hle =>
    cases hout
    simp only [Span.changed, Option.ite_none_left_eq_some, Option.some.injEq] at hspan
    obtain ⟨hzero, rfl⟩ := hspan
    have hstretch := stretch_eq_spanning hgrid hle (by omega)
    rw [Range.first_spanning, Range.span_spanning] at hstretch
    -- The merge has more than one cell as long as something of the span is left.
    rw [hstretch]
    refine if_pos (Range.isMultiple_iff.2 ?_)
    simp only [Span.zero, Span.mk.injEq, Range.spanning] at hzero ⊢
    omega
  | gone hgone => cases hout

end Merges

section

variable {m : Merges} {s : Rows} {e : LineEdit}

/-- The first cells of merges that are apart differ. -/
theorem Merges.Apart.anchors (h : m.Apart) (hn : e.distance ≠ 0) (hreach : e.InReach)
    (hgrid : m.Below gridLimit) :
    (m.shift e.axis e.start e.distance).2.Pairwise fun a b => a.anchor ≠ b.anchor := by
  rw [Merges.changes_shift hn, List.pairwise_filterMap]
  refine h.disjoint.imp_of_mem fun {a b} ha hb hab change hchange change' hchange' heq => ?_
  have ha := ((Merges.shifted hn hreach (hgrid a ha)).anchor hchange).1
  have hb := ((Merges.shifted hn hreach (hgrid b hb)).anchor hchange').1
  have hmeet : a.intersects b = true :=
    Range.intersects_of_mem (c := a.first) a.mem_first (by rw [← ha, heq, hb]; exact b.mem_first)
  rw [hab] at hmeet
  cases hmeet

/-- The mark of a merge whose first cell stays is changed as the merge is, and not by
    any other merge. -/
theorem Merges.Apart.mark_changes (h : m.Apart) (hn : e.distance ≠ 0) (hreach : e.InReach)
    (hgrid : m.Below gridLimit) {r : Range} (hr : r ∈ m.ranges) (hkeeps : e.Keeps r.first)
    (rows : Rows) :
    ((m.shift e.axis e.start e.distance).2.foldl Sheet.changeSpan rows).mark (e.relabel r.first) =
      (Merges.shiftRange e.axis e.start e.distance r).2.elim (rows.mark (e.relabel r.first))
        fun change => (rows.mark (e.relabel r.first)).bind (·.changed change.change) := by
  cases hout : (Merges.shiftRange e.axis e.start e.distance r).2 with
  | none =>
    refine Sheet.mark_foldl_changeSpan_of_not_anchor fun change hchange heq => ?_
    rw [Merges.changes_shift hn, List.mem_filterMap] at hchange
    obtain ⟨x, hx, hchange⟩ := hchange
    obtain ⟨hanchor, hstart⟩ := (Merges.shifted hn hreach (hgrid x hx)).anchor hchange
    -- A merge whose mark is changed begins before the edit, so its first cell stays
    -- where it is, and then it is this merge.
    rw [← Range.line_first] at hstart
    obtain ⟨hkeeps', hrelabel⟩ := LineEdit.relabel_of_lt_start hstart
    have hfirst : x.first = r.first :=
      e.relabel_inj hkeeps' hkeeps (by rw [hrelabel, ← hanchor, heq])
    have hrange : x = r :=
      h.eq_of_mem hx hr x.mem_first (by rw [hfirst]; exact r.mem_first)
    rw [hrange, hout] at hchange
    cases hchange
  | some change =>
    obtain ⟨hanchor, hstart⟩ := (Merges.shifted hn hreach (hgrid r hr)).anchor hout
    have hchange : change ∈ (m.shift e.axis e.start e.distance).2 := by
      rw [Merges.changes_shift hn]
      exact List.mem_filterMap.2 ⟨r, hr, hout⟩
    rw [← Range.line_first] at hstart
    rw [(LineEdit.relabel_of_lt_start hstart).2, ← hanchor]
    exact Sheet.mark_foldl_changeSpan_of_mem (h.anchors hn hreach hgrid) hchange

/-- Is an edit of lines in reach, and do all merges stay on the grid? -/
structure LineEdit.HasRoom (e : LineEdit) (m : Merges) : Prop where
  reach : e.InReach
  grid : m.Below gridLimit
  room : ∀ r ∈ m.ranges, e.newLast (r.lastLine e.axis) < gridLimit

/-- A deletion pushes no merge off the grid. -/
theorem LineEdit.hasRoom_delete {axis : Axis} {first last : Nat} {hspan : first ≤ last}
    (hreach : (LineEdit.delete axis first last hspan).InReach) (hgrid : m.Below gridLimit) :
    (LineEdit.delete axis first last hspan).HasRoom m :=
  ⟨hreach, hgrid, fun r hr => LineEdit.newLast_delete_lt ((hgrid r hr).lastLine axis)⟩

/-- If all merges stay on the grid, they stay apart. -/
theorem Merges.Apart.edited (h : m.Apart) (hn : e.distance ≠ 0) (hroom : e.HasRoom m) :
    (m.shift e.axis e.start e.distance).1.Apart :=
  h.shift hn hroom.grid fun r hr => Merges.shifted hn hroom.reach (hroom.grid r hr)

/-- If all merges stay on the grid, every mark is registered after an edit of lines. -/
theorem Agrees.marks_edited (h : Agrees m s) (hn : e.distance ≠ 0) (hroom : e.HasRoom m) :
    ((m.shift e.axis e.start e.distance).2.foldl Sheet.changeSpan (e.apply s)).MarksIn
      (m.shift e.axis e.start e.distance).1 := by
  intro c' span' hmark'
  obtain ⟨span, happly⟩ := Sheet.exists_of_mark_foldl_changeSpan hmark'
  obtain ⟨c, hkeeps, rfl, hmark⟩ := LineEdit.exists_of_mark_apply happly
  have hmem := h.marks c span hmark
  have hgrid := hroom.grid _ hmem
  have hshifted := Merges.shifted hn hroom.reach hgrid
  have hchanged := h.apart.mark_changes hn hroom.reach hroom.grid hmem hkeeps (e.apply s)
  rw [Range.first_spanning, hmark', happly] at hchanged
  rw [Merges.ranges_shift hn]
  cases hout : (Merges.shiftRange e.axis e.start e.distance
      (.spanning c span.rows span.cols)).2 with
  | none =>
    rw [hout] at hchanged
    cases hchanged
    exact List.mem_filterMap.2
      ⟨_, hmem, hshifted.eq_spanning hkeeps hout hgrid (hroom.room _ hmem)⟩
  | some change =>
    rw [hout] at hchanged
    obtain ⟨-, hstart⟩ := hshifted.anchor hout
    rw [Range.firstLine_spanning] at hstart
    rw [(LineEdit.relabel_of_lt_start hstart).2]
    exact List.mem_filterMap.2 ⟨_, hmem,
      hshifted.eq_spanning_of_changed hout hgrid (hroom.room _ hmem) hchanged.symm⟩

/-- If all merges stay on the grid, an edit of lines keeps registry and marks together. -/
theorem Agrees.edited (h : Agrees m s) (hn : e.distance ≠ 0) (hroom : e.HasRoom m) :
    Agrees (m.shift e.axis e.start e.distance).1
      ((m.shift e.axis e.start e.distance).2.foldl Sheet.changeSpan (e.apply s)) :=
  ⟨h.apart.edited hn hroom, h.marks_edited hn hroom⟩

end

namespace Sheet

/-- A sheet after an insertion in reach: its merges are shifted by the number of lines. -/
theorem insertLines_eq {axis : Axis} {first n : Nat}
    (hreach : (LineEdit.insert axis first n).InReach) (s : Sheet) :
    s.insertLines axis first n =
      { s with
        merges := (s.merges.shift axis first n).1
        rows := (s.merges.shift axis first n).2.foldl changeSpan
          ((LineEdit.insert axis first n).apply s.rows)
        cols := match axis with
          | .row => s.cols
          | .column => s.cols.insert first n } := by
  have hsigned : signed n = n := hreach.signed_distance
  unfold insertLines
  rw [hsigned]
  cases axis <;> rfl

theorem deleteLines_eq {axis : Axis} {first last : Nat} {h : first ≤ last}
    (hreach : (LineEdit.delete axis first last h).InReach) (s : Sheet) :
    s.deleteLines axis first last =
      { s with
        merges := (s.merges.shift axis first (LineEdit.delete axis first last h).distance).1
        rows := (s.merges.shift axis first
          (LineEdit.delete axis first last h).distance).2.foldl changeSpan
            ((LineEdit.delete axis first last h).apply s.rows)
        cols := match axis with
          | .row => s.cols
          | .column => s.cols.delete first last } := by
  have hsigned : signed (-((last - first + 1 : Nat) : Int)) =
      (LineEdit.delete axis first last h).distance := hreach.signed_distance
  unfold deleteLines
  rw [hsigned]
  cases axis <;> rfl

/-- Is a sheet another one in which lines were edited, with merges and marks to match? -/
structure Edited (s : Sheet) (e : LineEdit) (s' : Sheet) : Prop where
  merges : s'.merges = (s.merges.shift e.axis e.start e.distance).1
  rows : s'.rows = (s.merges.shift e.axis e.start e.distance).2.foldl changeSpan (e.apply s.rows)
  history : s'.history = s.history
  pending : s'.pending = s.pending

theorem edited_insertLines {axis : Axis} {first n : Nat}
    (hreach : (LineEdit.insert axis first n).InReach) (s : Sheet) :
    Edited s (.insert axis first n) (s.insertLines axis first n) := by
  rw [insertLines_eq hreach]
  exact ⟨rfl, rfl, rfl, rfl⟩

theorem edited_deleteLines {axis : Axis} {first last : Nat} {h : first ≤ last}
    (hreach : (LineEdit.delete axis first last h).InReach) (s : Sheet) :
    Edited s (.delete axis first last h) (s.deleteLines axis first last) := by
  rw [deleteLines_eq hreach]
  exact ⟨rfl, rfl, rfl, rfl⟩

/-- Merges are shifted between the lines that there are. -/
theorem lineCount_shiftMerges (s : Sheet) (axis axis' : Axis) (index : Nat) (d : Int) :
    (s.shiftMerges axis index d).lineCount axis' = s.lineCount axis' := by
  have hlen (changes : List SpanChange) (rows : Rows) :
      (changes.foldl changeSpan rows).len = rows.len := by
    induction changes generalizing rows with
    | nil => rfl
    | cons change changes ih => exact ih _
  cases axis' with
  | row => exact hlen _ _
  | column => rfl

/-- An insertion makes for as many more lines, however many they are. -/
theorem lineCount_insertLines (s : Sheet) (axis : Axis) (first n : Nat) :
    (s.insertLines axis first n).lineCount axis = s.lineCount axis + n := by
  cases axis with
  | row =>
    rw [insertLines, lineCount_shiftMerges]
    simp only [lineCount, Rows.insertRows, Rows.mapFormulas, Rows.mapCells]
  | column =>
    rw [insertLines, lineCount_shiftMerges]
    simp only [lineCount, Columns.insert]

end Sheet

end Worksheet
