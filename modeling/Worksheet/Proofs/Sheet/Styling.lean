import Worksheet.Proofs.Rows.Styles
import Worksheet.Proofs.Sheet.Stepping
import Worksheet.Proofs.Sheet.Texts

/-!
# The Look of Cells After a Style Edit

Which style every cell of a sheet has after some of its cells were given another.

Cells share styles through the table, and an edit of many cells goes through them one
after the other while the table grows. That it changes the look of no other cell has
two reasons. A style in the table is never overwritten, so the index that a cell keeps
goes on meaning the same style. And an index that is in use is below the size of the
table, so a style that is appended is not found under it by accident. The second one
is why the statements here start from a sheet without dangling indices.

What an edit does to a sheet is written down as a function from the old look of each
cell to the new one. Edits that follow each other are then composed as functions, and
an edit of many cells is the edits of the single ones, composed.

## Main definitions

* `Rows.unstyled`: A cell apart from its style.
* `Restyled`: A sheet that differs from another one in the look of its cells only.

## Theorems

* `stylesBelow_editStyle`, `styleAt?_editStyle`: One cell.
* `Restyled.trans`, `restyled_foldl`: Edits one after the other, and of many cells.
* `styleAt?_editSelected`: The edit of a selection.
-/

namespace Worksheet

namespace Rows

variable {s s' : Rows} {c : CellRef}

/-- What a cell has apart from a style. A cell that is not stored is like an empty one. -/
def unstyled (s : Rows) (c : CellRef) : Cell := { (s.cell? c).getD {} with style := none }

theorem text?_eq_unstyled (s : Rows) (c : CellRef) : s.text? c = (s.unstyled c).text := by
  rw [text?, unstyled]
  cases s.cell? c <;> rfl

theorem mark_eq_unstyled (s : Rows) (c : CellRef) : s.mark c = (s.unstyled c).merge := by
  rw [mark, unstyled]
  cases s.cell? c <;> rfl

theorem isLocked_iff_unstyled (s : Rows) (c : CellRef) :
    s.IsLocked c ↔ (s.unstyled c).editable = false := by
  rw [IsLocked, unstyled]
  cases s.cell? c <;> simp

theorem unstyled_editCell (edit : Cell → Cell)
    (hedit : ∀ cell, { edit cell with style := none } = { cell with style := none })
    (c' : CellRef) : (s.editCell c edit).unstyled c' = s.unstyled c' := by
  rw [unstyled, unstyled, cell?_editCell]
  by_cases hc : c' = c
  · rw [if_pos hc, hc]
    exact hedit _
  · rw [if_neg hc]

end Rows

namespace Sheet

variable {s s' s'' : Sheet}

/-! ## One cell -/

theorem styleAt?_eq_bind (s : Sheet) (c : CellRef) :
    s.styleAt? c = ((s.rows.cell? c).bind Cell.style).bind s.styles.get? := by
  rw [styleAt?, cell?]
  cases s.rows.cell? c <;> rfl

/-- No index dangles after an edit: the edited cell has one that was just interned, and
    the table has only grown. -/
theorem stylesBelow_editStyle (h : s.rows.StylesBelow s.styles.size) (edit : Style → Style)
    (c : CellRef) :
    (s.editStyle edit c).rows.StylesBelow (s.editStyle edit c).styles.size := by
  let style := edit ((s.styleAt? c).getD .empty)
  have hgrown := h.mono (s.styles.size_le_size_intern style)
  refine hgrown.updateCell c fun i hi => ?_
  cases hi
  exact s.styles.intern_lt_size style

/-- The edited cell gets the edited style, and every other cell keeps the one it has. -/
theorem styleAt?_editStyle (h : s.rows.StylesBelow s.styles.size) (edit : Style → Style)
    (c c' : CellRef) : (s.editStyle edit c).styleAt? c' =
      if c' = c then some (edit ((s.styleAt? c).getD .empty)) else s.styleAt? c' := by
  let style := edit ((s.styleAt? c).getD .empty)
  have hcell : (s.editStyle edit c).rows.cell? c' =
      if c' = c then some { (s.rows.cell? c).getD {} with style := some (s.styles.intern style).2 }
      else s.rows.cell? c' := Rows.cell?_editCell s.rows c c' _
  have hstyles : (s.editStyle edit c).styles = (s.styles.intern style).1 := rfl
  rw [styleAt?_eq_bind, hcell, hstyles]
  by_cases hc : c' = c
  · rw [if_pos hc, if_pos hc]
    exact s.styles.get?_intern style
  · rw [if_neg hc, if_neg hc, styleAt?_eq_bind]
    -- The index is older than the new style, so it means what it meant.
    refine Option.bind_congr fun i hi => s.styles.get?_intern_of_lt style i ?_
    obtain ⟨cell, hcell, hi⟩ := Option.bind_eq_some_iff.1 hi
    exact h c' cell hcell i hi

/-! ## Many cells -/

/-- Does a sheet differ from another one only in how its cells look, as far as its cells
    and merges go, and in the way that `look` says? -/
structure Restyled (look : CellRef → Option Style → Option Style) (s s' : Sheet) : Prop where
  below : s'.rows.StylesBelow s'.styles.size
  styleAt? : ∀ c, s'.styleAt? c = look c (s.styleAt? c)
  unstyled : ∀ c, s'.rows.unstyled c = s.rows.unstyled c
  merges : s'.merges = s.merges
  selection : s'.selection = s.selection
  settings : s'.settings = s.settings

/-- The look of the cells of a list after the edit of each of them. -/
def edited (edit : CellRef → Style → Style) (cs : List CellRef) (c : CellRef)
    (style : Option Style) : Option Style :=
  if c ∈ cs then some (edit c (style.getD .empty)) else style

namespace Restyled

variable {look look' : CellRef → Option Style → Option Style}

theorem refl (h : s.rows.StylesBelow s.styles.size) : Restyled (fun _ style => style) s s :=
  ⟨h, fun _ => rfl, fun _ => rfl, rfl, rfl, rfl⟩

theorem trans (h : Restyled look s s') (h' : Restyled look' s' s'') :
    Restyled (fun c style => look' c (look c style)) s s'' where
  below := h'.below
  styleAt? c := by rw [h'.styleAt?, h.styleAt?]
  unstyled c := by rw [h'.unstyled, h.unstyled]
  merges := h'.merges.trans h.merges
  selection := h'.selection.trans h.selection
  settings := h'.settings.trans h.settings

theorem congr (h : Restyled look s s') (hlook : ∀ c style, look' c style = look c style) :
    Restyled look' s s' :=
  { h with styleAt? := fun c => by rw [h.styleAt?, hlook] }

theorem text? (h : Restyled look s s') (c : CellRef) : s'.rows.text? c = s.rows.text? c := by
  rw [Rows.text?_eq_unstyled, h.unstyled, Rows.text?_eq_unstyled]

theorem mark (h : Restyled look s s') (c : CellRef) : s'.rows.mark c = s.rows.mark c := by
  rw [Rows.mark_eq_unstyled, h.unstyled, Rows.mark_eq_unstyled]

theorem isLocked_iff (h : Restyled look s s') (c : CellRef) :
    s'.rows.IsLocked c ↔ s.rows.IsLocked c := by
  rw [Rows.isLocked_iff_unstyled, h.unstyled, Rows.isLocked_iff_unstyled]

/-- Recording the state before and reporting a change does nothing to the cells. -/
theorem commit {change : Sheet → Sheet} (h : Restyled look s.recorded (change s.recorded))
    (hwritable : s.isWritable = true) : Restyled look s (s.commit change).1 := by
  rw [Sheet.commit, if_pos hwritable]
  exact ⟨h.below, h.styleAt?, h.unstyled, h.merges, h.selection, h.settings⟩

end Restyled

theorem restyled_editStyle (h : s.rows.StylesBelow s.styles.size) (edit : CellRef → Style → Style)
    (c : CellRef) : Restyled (edited edit [c]) s (s.editStyle (edit c) c) where
  below := stylesBelow_editStyle h (edit c) c
  styleAt? c' := by
    rw [styleAt?_editStyle h, edited]
    by_cases hc : c' = c
    · rw [if_pos hc, if_pos (List.mem_singleton.2 hc), hc]
    · rw [if_neg hc, if_neg fun hmem => hc (List.mem_singleton.1 hmem)]
  unstyled := Rows.unstyled_editCell _ fun _ => rfl
  merges := rfl
  selection := rfl
  settings := rfl

/-- Editing cells one after the other edits each of them, if none comes twice. -/
theorem restyled_foldl {cs : List CellRef} (hcs : cs.Nodup) (edit : CellRef → Style → Style)
    (h : s.rows.StylesBelow s.styles.size) :
    Restyled (edited edit cs) s (cs.foldl (fun s c => s.editStyle (edit c) c) s) := by
  induction cs generalizing s with
  | nil => exact (Restyled.refl h).congr fun c style => if_neg List.not_mem_nil
  | cons c cs ih =>
    rw [List.nodup_cons] at hcs
    have hfirst := restyled_editStyle h edit c
    refine (hfirst.trans (ih hcs.2 hfirst.below)).congr fun c' style => ?_
    -- A cell is either the first one, which does not come again, or it is not.
    by_cases hc : c' = c
    · subst hc
      simp [edited, hcs.1]
    · simp [edited, hc]

/-! ## The selection -/

theorem restyled_editSelected {r : Range} (e : StyleEdit)
    (hbelow : s.rows.StylesBelow s.styles.size) (hr : s.selection.range = some r)
    (hwritable : s.isWritable = true) :
    Restyled (edited (fun _ => e.apply) r.cells) s (s.editSelected (.style e)).1 := by
  have hcommit : s.editSelected (.style e) =
      s.commit fun t => r.cells.foldl (editStyle e.apply) t := by
    simp only [editSelected, commitOnSelection, hr, Option.isNone_some, Bool.false_eq_true,
      if_false]
  rw [hcommit]
  exact .commit (restyled_foldl r.nodup_cells (fun _ => e.apply) hbelow) hwritable

theorem isWritable_of_applied {e : StyleEdit} (h : (s.editSelected (.style e)).2 = .applied) :
    s.isWritable = true := by
  simp only [editSelected, commitOnSelection] at h
  split at h
  · cases h
  · split at h
    · exact commit_applied_iff.1 h
    · cases h

/-- After a style edit a cell of the selection has the edit of the style it had, or of the
    empty one if it had none. Every other cell has the style it had, and all cells keep
    their texts, their marks and their locks. -/
theorem styleAt?_editSelected {r : Range} (e : StyleEdit)
    (hbelow : s.rows.StylesBelow s.styles.size) (hr : s.selection.range = some r)
    (happlied : (s.editSelected (.style e)).2 = .applied) :
    let s' := (s.editSelected (.style e)).1
    (∀ c, r.mem c = true → s'.styleAt? c = some (e.apply ((s.styleAt? c).getD .empty))) ∧
      (∀ c, r.mem c = false → s'.styleAt? c = s.styleAt? c) ∧
      ∀ c, s'.rows.text? c = s.rows.text? c ∧ s'.rows.mark c = s.rows.mark c ∧
        (s'.rows.IsLocked c ↔ s.rows.IsLocked c) := by
  intro s'
  have hs' : Restyled (edited (fun _ => e.apply) r.cells) s s' :=
    restyled_editSelected e hbelow hr (isWritable_of_applied happlied)
  refine ⟨fun c hc => ?_, fun c hc => ?_, fun c => ⟨hs'.text? c, hs'.mark c, hs'.isLocked_iff c⟩⟩
  · rw [hs'.styleAt?, edited, if_pos (Range.mem_cells_iff.2 hc)]
  · have hout : c ∉ r.cells := fun hmem =>
      Bool.false_ne_true (hc.symm.trans (Range.mem_cells_iff.1 hmem))
    rw [hs'.styleAt?, edited, if_neg hout]

/-- Two cells that share a bold style, of which the second one is selected together with the
    cell below it. -/
def halfSelected : Sheet :=
  (((new "" {}).select (.between .origin ⟨0, 1⟩)).editSelected (.style (.bold true))).1.select
    (.between ⟨0, 1⟩ ⟨1, 1⟩)

theorem stylesBelow_halfSelected : halfSelected.rows.StylesBelow halfSelected.styles.size :=
  (restyled_editSelected (s := (new "" {}).select (.between .origin ⟨0, 1⟩)) (.bold true)
    (fun _ _ hcell => nomatch hcell) rfl rfl).below

/-- The selected one of two cells that share a style gets a style of its own. -/
theorem styleAt?_editSelected_shared :
    let bold : Style := { font := some { bold := some true } }
    let s' := (halfSelected.editSelected (.style (.italic true))).1
    (halfSelected.rows.cell? .origin).bind Cell.style = some 0 ∧
      (halfSelected.rows.cell? ⟨0, 1⟩).bind Cell.style = some 0 ∧
      s'.styleAt? .origin = some bold ∧
      s'.styleAt? ⟨0, 1⟩ = some { font := some { bold := some true, italic := some true } } ∧
      s'.styleAt? ⟨1, 1⟩ = some { font := some { italic := some true } } := by
  intro bold s'
  obtain ⟨hinside, houtside, -⟩ := styleAt?_editSelected (r := .between ⟨0, 1⟩ ⟨1, 1⟩)
    (.italic true) stylesBelow_halfSelected rfl rfl
  refine ⟨by decide, by decide, ?_, ?_, ?_⟩
  · rw [houtside .origin (by decide)]
    decide
  · rw [hinside ⟨0, 1⟩ (by decide)]
    decide
  · rw [hinside ⟨1, 1⟩ (by decide)]
    decide

end Sheet

end Worksheet
