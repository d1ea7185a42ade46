import Worksheet.Proofs.Sheet.Stepping
import Worksheet.Proofs.Sheet.Texts

/-!
# Locked Cells

What happens to the text of a locked cell.

Typing, clearing, merging and pasting text ask for the lock of every cell they come
to. A paste of copied or cut cells and a fill do not: what is moved overwrites what
was there, and so does what is copied. So the text of a locked cell changes in one
way only, by another cell being brought to its place, and then it is the text of
that cell. Where the source has no cell nothing is brought, and a copy of the formats
brings no text.

## Main definitions

* `Command.writesTexts`: The commands that change texts where they are.
* `Sheet.brought?`: The text that a command brings to a cell.
* `Sheet.functionCells`: The cells that a function is written to.

## Theorems

* `Sheet.keepsLocked_typeText`, `Sheet.keepsLocked_merge`: The commands that ask for locks.
* `Sheet.text?_copyInto`, `Sheet.text?_moveInto`: The texts after a paste.
* `Sheet.text?_run_of_locked`: The text of a locked cell after a command.
-/

namespace Worksheet

/-- Does a command change texts where they are, rather than move lines or go to another
    state? -/
def Command.writesTexts : Command → Bool
  | .typeText _ _ _ | .typeActive _ _ | .clearSelected _ | .merge | .pasteText _ => true
  | .paste _ | .fill _ _ | .editSelected (.function _) => true
  | _ => false

namespace Sheet

/-- The text that a command brings to a cell, locked or not, if it brings a cell there. -/
def brought? (s : Sheet) (c : Command) (p : CellRef) : Option (Option String) :=
  match c with
  | .paste mode => match s.clipboard, s.selection.range with
    | .copy src, some dst => s.rows.copied? src dst mode false p
    | .cut src, some dst => s.rows.moved? src dst p
    | _, _ => none
  | .fill dst mode => match s.selection.range with
    | some src => s.rows.copied? src dst mode true p
    | none => none
  | _ => none

/-- The cells that a function of a range is written to. -/
def functionCells (s : Sheet) (r : Range) : List CellRef :=
  if 1 < r.height then (List.range' r.left r.width).map fun col => ⟨r.bottom + 1, col⟩
  else if 1 < r.width then [⟨s.selection.active.row, r.right + 1⟩]
  else [s.selection.active]

/-! ## Commands that ask for locks -/

/-- Merging clears what may be cleared, and puts the mark on the first cell as it was. -/
theorem keepsLocked_mergeRange (r : Range) (s : Sheet) :
    Rows.KeepsLocked s.rows (s.mergeRange r).rows := by
  intro p hp
  obtain ⟨hlocked, htext⟩ := Rows.keepsLocked_clearCells s.rows .all r p hp
  by_cases hfirst : p = r.first
  · subst hfirst
    obtain ⟨cell, hcell, hedit⟩ := hp
    have hanchor : (s.mergeRange r).rows.cell? r.first =
        some { cell with merge := some ⟨r.height - 1, r.width - 1⟩ } := by
      rw [mergeRange, Rows.cell?_setCell, if_pos rfl, hcell]
      rfl
    exact ⟨⟨_, hanchor, hedit⟩, by rw [Rows.text?, hanchor, Rows.text?, hcell]; rfl⟩
  · have hother : (s.mergeRange r).rows.cell? p = (s.rows.clearCells .all r).cell? p := by
      rw [mergeRange, Rows.cell?_setCell, if_neg hfirst]
    rw [Rows.IsLocked, Rows.text?, hother]
    exact ⟨hlocked, htext⟩

section

variable {s : Sheet}

theorem keepsLocked_typeText (c : CellRef) (text : String) (state : EditState) :
    Rows.KeepsLocked s.rows (s.typeText c text state).1.rows := by
  unfold typeText
  split
  · cases state <;> exact Rows.keepsLocked_setText s.rows c text
  · exact .refl s.rows

theorem keepsLocked_typeActive (text : String) (state : EditState) :
    Rows.KeepsLocked s.rows (s.typeActive text state).1.rows := by
  have htyped := keepsLocked_typeText (s := s) s.activeRef text state
  simp only [typeActive]
  split
  · rename_i typed heq
    rw [heq] at htyped
    cases state <;> exact htyped
  · exact htyped

theorem keepsLocked_clearSelected (mode : ClearMode) :
    Rows.KeepsLocked s.rows (s.clearSelected mode).1.rows := by
  refine commitOnSelection_keeps (P := fun d => Rows.KeepsLocked s.rows d.rows) (.refl s.rows)
    fun r => ?_
  cases mode <;> exact Rows.keepsLocked_clearCells s.rows _ r

theorem keepsLocked_merge : Rows.KeepsLocked s.rows s.merge.1.rows := by
  unfold merge
  split
  · exact .refl s.rows
  · split
    · exact .refl s.rows
    · split
      · exact .refl s.rows
      · exact commit_keeps (P := fun d => Rows.KeepsLocked s.rows d.rows) (.refl s.rows)
          (keepsLocked_mergeRange _ s.recorded)

theorem keepsLocked_pasteText (text : String) :
    Rows.KeepsLocked s.rows (s.pasteText text).1.rows :=
  commitOnSelection_keeps (P := fun d => Rows.KeepsLocked s.rows d.rows) (.refl s.rows) fun r =>
    Rows.keepsLocked_typeBlock s.rows r.first _

end

/-! ## Functions -/

theorem text?_putText {s : Sheet} {p c : CellRef} (h : p ≠ c) (text : String) :
    (s.putText c text).rows.text? p = s.rows.text? p := by
  rw [putText, Rows.text?, Rows.cell?_editCell, if_neg h, Rows.text?]

/-- Inserting a function leaves all texts alone but those of the cells it is written to. -/
theorem text?_insertFunction (f : Formula.Function) {r : Range} {s : Sheet} {p : CellRef}
    (h : p ∉ s.functionCells r) : (s.insertFunction f r).rows.text? p = s.rows.text? p := by
  simp only [functionCells] at h
  simp only [insertFunction]
  split
  · rename_i hheight
    rw [if_pos hheight] at h
    refine List.foldlRecOn (motive := fun t : Sheet => t.rows.text? p = s.rows.text? p) _ _ rfl ?_
    intro t ht col hcol
    have hp : p ≠ ⟨r.bottom + 1, col⟩ := fun hp => h (hp ▸ List.mem_map_of_mem hcol)
    exact (text?_putText hp _).trans ht
  · rename_i hheight
    rw [if_neg hheight] at h
    split
    · rename_i hwidth
      rw [if_pos hwidth] at h
      exact text?_putText (by simpa using h) _
    · rename_i hwidth
      rw [if_neg hwidth] at h
      exact text?_putText (by simpa using h) _

/-! ## Pasting -/

theorem sameTexts_dropMerges (inside : Range) (keep : Option Range) (written : List Range)
    (s : Sheet) : Rows.SameTexts s.rows (s.dropMerges inside keep written).rows := by
  unfold dropMerges
  rw [rows_foldl_dropMerge]
  exact .foldl Rows.sameTexts_clearCell_merge _ s.rows

theorem sameTexts_unmark (broken : List Range) (rows : Rows) :
    Rows.SameTexts rows (unmark broken rows) :=
  .foldl
    (f := fun rows (m : Range) => rows.modifyCell m.first fun cell => { cell with merge := none })
    (fun _ _ => Rows.sameTexts_modifyCell fun _ => rfl) broken rows

/-- The texts after a copy are those that were copied. What is done to merges afterwards does
    not touch them. -/
theorem text?_copyInto (src dst : Range) (mode : CopyMode) (series : Bool) (s : Sheet)
    (p : CellRef) : (s.copyInto src dst mode series).rows.text? p =
      (s.rows.copied? src dst mode series p).getD (s.rows.text? p) := by
  rw [← Rows.text?_copyBlock]
  simp only [copyInto]
  split
  · rfl
  all_goals
    exact Rows.SameTexts.text?_eq (.trans (sameTexts_unmark _ _) (sameTexts_dropMerges _ _ _ _)) p

theorem text?_moveInto (src dst : Range) (s : Sheet) (p : CellRef) :
    (s.moveInto src dst).rows.text? p =
      (s.rows.moved? src dst p).getD (s.rows.text? p) :=
  Rows.text?_moveBlock (sameTexts_dropMerges _ _ _ s) src dst p

/-- The text after a commit is what the change makes of it, if there is a change. -/
theorem text?_commit {s : Sheet} {change : Sheet → Sheet} {p : CellRef} {text : Option String}
    (h : (change s.recorded).rows.text? p = text) :
    (s.commit change).1.rows.text? p =
      if (s.commit change).2 = .applied then text else s.rows.text? p := by
  unfold commit
  split
  · exact h
  · rfl

section

variable (s : Sheet) (p : CellRef)

theorem text?_paste (mode : CopyMode) : (s.paste mode).1.rows.text? p =
    if (s.paste mode).2 = .applied then (s.brought? (.paste mode) p).getD (s.rows.text? p)
    else s.rows.text? p := by
  cases hclipboard : s.clipboard with
  | clear => simp [paste, hclipboard]
  | copy src =>
    cases hrange : s.selection.range with
    | none => simp [paste, hclipboard, hrange]
    | some dst =>
      simp only [paste, brought?, hclipboard, hrange]
      cases s.checkPaste src dst with
      | some e => rfl
      | none => exact text?_commit (text?_copyInto src dst mode false s.recorded p)
  | cut src =>
    cases hrange : s.selection.range with
    | none => simp [paste, hclipboard, hrange]
    | some dst =>
      simp only [paste, brought?, hclipboard, hrange]
      cases (s.checkCut src).or (s.checkPaste src (.single dst.first)) with
      | some e => rfl
      | none => exact text?_commit (text?_moveInto src dst s.recorded p)

theorem text?_fill (dst : Range) (mode : CopyMode) : (s.fill dst mode).1.rows.text? p =
    if (s.fill dst mode).2 = .applied then (s.brought? (.fill dst mode) p).getD (s.rows.text? p)
    else s.rows.text? p := by
  cases hrange : s.selection.range with
  | none => simp [fill, hrange]
  | some src =>
    simp only [fill, brought?, hrange]
    cases s.checkPaste src dst with
    | some e => rfl
    | none => exact text?_commit (text?_copyInto src dst mode true s.recorded p)

end

/-! ## Commands -/

/-- The text of a locked cell after a command that changes texts is the one it had, unless a
    paste or a fill brought another cell there. Nothing is said of the cells that a function
    is written to. -/
theorem text?_run_of_locked (s : Sheet) {c : Command} (hc : c.writesTexts = true) {p : CellRef}
    (hlocked : s.rows.IsLocked p)
    (hfunction : ∀ f r, c = .editSelected (.function f) → s.selection.range = some r →
      p ∉ s.functionCells r) :
    (s.run c).1.rows.text? p =
      if (s.run c).2 = .applied then (s.brought? c p).getD (s.rows.text? p)
      else s.rows.text? p := by
  -- What asks for locks brings nothing.
  have hkeeps (hnone : s.brought? c p = none)
      (h : (s.run c).1.rows.text? p = s.rows.text? p) : (s.run c).1.rows.text? p =
        if (s.run c).2 = .applied then (s.brought? c p).getD (s.rows.text? p)
        else s.rows.text? p := by
    rw [hnone, Option.getD_none, ite_self, h]
  cases c with
  | typeText c text state => exact hkeeps rfl (keepsLocked_typeText c text state p hlocked).2
  | typeActive text state => exact hkeeps rfl (keepsLocked_typeActive text state p hlocked).2
  | clearSelected mode => exact hkeeps rfl (keepsLocked_clearSelected mode p hlocked).2
  | merge => exact hkeeps rfl (keepsLocked_merge p hlocked).2
  | pasteText text => exact hkeeps rfl (keepsLocked_pasteText text p hlocked).2
  | paste mode => exact text?_paste s p mode
  | fill dst mode => exact text?_fill s p dst mode
  | editSelected e =>
    cases e with
    | function f =>
      refine hkeeps rfl ?_
      simp only [run, editSelected, commitOnSelection]
      cases hrange : s.selection.range with
      | none => rfl
      | some r =>
        exact commit_keeps (P := fun d => d.rows.text? p = s.rows.text? p) rfl
          (text?_insertFunction f (hfunction f r rfl hrange))
    | _ => cases hc
  | _ => cases hc

/-- A text in the first cell, which is selected, and a locked one beside it. -/
def besideLocked : Sheet := (new "" {}).runAll
  [.typeText ⟨0, 1⟩ "kept" .finished, .select (.single ⟨0, 1⟩), .editSelected (.editable false),
    .typeText .origin "new" .finished, .select (.single .origin)]

theorem isLocked_besideLocked : besideLocked.rows.IsLocked ⟨0, 1⟩ :=
  ⟨{ text := some "kept", editable := false }, by decide, rfl⟩

/-- A text that is pasted over both cells and a copy of the format leave it as it is. -/
theorem text?_run_of_locked_beside :
    besideLocked.rows.IsLocked ⟨0, 1⟩ ∧
      (besideLocked.run (.pasteText "a\tb")).1.rows.text? ⟨0, 1⟩ = some "kept" ∧
      (besideLocked.run (.fill (.single ⟨0, 1⟩) .format)).1.rows.text? ⟨0, 1⟩ = some "kept" := by
  refine ⟨isLocked_besideLocked, ?_, ?_⟩
  · rw [text?_run_of_locked _ (c := .pasteText "a\tb") rfl isLocked_besideLocked nofun]
    decide
  · rw [text?_run_of_locked _ (c := .fill (.single ⟨0, 1⟩) .format) rfl isLocked_besideLocked nofun]
    decide

/-- A locked cell takes the text that is copied, filled or moved to it, and a function is
    written over it. -/
theorem text?_overwritten :
    besideLocked.rows.IsLocked ⟨0, 1⟩ ∧ besideLocked.rows.text? ⟨0, 1⟩ = some "kept" ∧
      (besideLocked.runAll [.copy, .select (.single ⟨0, 1⟩), .paste .all]).rows.text? ⟨0, 1⟩ =
        some "new" ∧
      (besideLocked.runAll [.copy, .select (.single ⟨0, 1⟩), .paste .text]).rows.text? ⟨0, 1⟩ =
        some "new" ∧
      (besideLocked.runAll [.cut, .select (.single ⟨0, 1⟩), .paste .all]).rows.text? ⟨0, 1⟩ =
        some "new" ∧
      (besideLocked.run (.fill (.single ⟨0, 1⟩) .all)).1.rows.text? ⟨0, 1⟩ = some "new" ∧
      (besideLocked.runAll [.select (.single ⟨0, 1⟩), .editSelected (.function .sum)]).rows.text?
        ⟨0, 1⟩ = some "=SUM()" := by
  refine ⟨isLocked_besideLocked, ?_, ?_, ?_, ?_, ?_, ?_⟩
  all_goals decide

end Sheet

end Worksheet
