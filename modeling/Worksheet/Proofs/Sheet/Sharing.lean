import Worksheet.Proofs.Sheet.Styling
import Worksheet.Proofs.Sheet.Throughout
import Worksheet.Proofs.Style.Index

/-!
# Shared Styles

Cells and the table of styles, over a whole session.

Cells share styles by index, so two stores have to fit: an index that a cell holds
must be in the table, and the table must not hold a style twice, or equal styles
would have different indices. Only formatting does anything to the table, and it
interns. What all other changes do to the cells is to move indices about.

The table grows in a session, and undoing takes it back to what it was. The cells
are taken back along with it, and both are read from one document, so they fit
again. That is why what holds of the present state is asked of every state in the
history as well.

## Main definitions

* `Snapshot.Shares`: Every index is in the table, and no style is in it twice.
* `Sheet.Reuses`: A change that needs no style that was not there.

## Theorems

* `Snapshot.lasts_shares`: Cells and table fit when they are read back.
* `Sheet.Shares.editStyle`: They fit after a cell got another style.
* `Sheet.shares_run`: And after every command.
* `Sheet.shares_after`: They fit in every state of a session, and interning a style keeps
  the meaning of all indices.
-/

namespace Worksheet

/-! ## States -/

/-- Is every index that a cell holds in the table, and no style in it twice? -/
structure Snapshot.Shares (d : Snapshot) : Prop where
  distinct : d.styles.styles.Nodup
  below : d.rows.StylesBelow d.styles.size

/-- The styles and the cells of a snapshot survive being written, read and restored. -/
theorem Snapshot.lasts_shares : Lasts Shares where
  reread d d' h hd := by
    have hreread := reread_of_ofText? h
    refine ⟨?_, ?_⟩
    · rw [hreread.styles]
      exact hd.distinct
    · rw [hreread.styles]
      exact hd.below.of_cells hreread.cells
  restored s d hd := ⟨hd.distinct, hd.below.of_cells fun _ => rfl⟩

namespace Sheet

/-! ## Changes that need no new style -/

/-- Does a change leave the table alone, and give no cell an index past those that
    cells had? -/
structure Reuses (s s' : Sheet) : Prop where
  styles : s'.styles = s.styles
  below : ∀ n, s.rows.StylesBelow n → s'.rows.StylesBelow n

theorem Reuses.refl (s : Sheet) : Reuses s s := ⟨rfl, fun _ => id⟩

theorem Reuses.trans {s s' s'' : Sheet} (h : Reuses s s') (h' : Reuses s' s'') : Reuses s s'' :=
  ⟨h'.styles.trans h.styles, fun n => h'.below n ∘ h.below n⟩

theorem reuses_insertFunction (f : Formula.Function) (r : Range) (s : Sheet) :
    Reuses s (s.insertFunction f r) :=
  insertFunction_keeps
    (fun _ c _ h => h.trans ⟨rfl, fun _ hn => hn.editCell c fun _ => rfl⟩) f r (.refl s)

theorem reuses_setEditable (on : Bool) (r : Range) (s : Sheet) : Reuses s (s.setEditable on r) :=
  ⟨rfl, fun _ hn => hn.foldl fun _ c _ hs => hs.editCell c fun _ => rfl⟩

theorem reuses_clear (mode : ClearMode) (r : Range) (s : Sheet) :
    Reuses s { s with rows := s.rows.clearCells mode r } :=
  ⟨rfl, fun _ hn => hn.clearCells mode r⟩

theorem reuses_mergeRange (r : Range) (s : Sheet) : Reuses s (s.mergeRange r) :=
  -- The first cell comes back with the style it had.
  ⟨rfl, fun _ hn => (hn.clearCells .all r).setCell r.first .all (hn.style_getD r.first)⟩

theorem reuses_unmergeRange (r : Range) (s : Sheet) : Reuses s (s.unmergeRange r) :=
  ⟨rfl, fun _ hn => hn.clearCell .merge r.first⟩

theorem reuses_dropMerge (written : List Range) (s : Sheet) (m : Range) :
    Reuses s (dropMerge written s m) := by
  refine ⟨rfl, fun n hn => ?_⟩
  simp only [dropMerge]
  split
  · exact hn
  · exact hn.clearCell .merge m.first

theorem reuses_dropMerges (inside : Range) (keep : Option Range) (written : List Range)
    (s : Sheet) : Reuses s (s.dropMerges inside keep written) :=
  foldl_keeps (P := Reuses s) (fun s' m h => h.trans (reuses_dropMerge written s' m)) _ (.refl s)

theorem reuses_copyInto (src dst : Range) (mode : CopyMode) (series : Bool) (s : Sheet) :
    Reuses s (s.copyInto src dst mode series) := by
  have hcopied : Reuses s { s with rows := (s.rows.copyBlock src dst mode series).1 } :=
    ⟨rfl, fun _ hn => hn.copyBlock src dst mode series⟩
  simp only [copyInto]
  split
  · exact hcopied
  -- Marks that are broken are taken off, and merges that were there are dropped.
  all_goals
    refine (hcopied.trans (Reuses.trans ?_ (reuses_dropMerges _ _ _ _))).trans ⟨rfl, fun _ => id⟩
    exact ⟨rfl, fun _ hn => hn.foldl fun _ m _ hs => hs.modifyCell m.first fun _ => rfl⟩

theorem reuses_moveInto (src dst : Range) (s : Sheet) : Reuses s (s.moveInto src dst) :=
  (reuses_dropMerges _ _ _ s).trans ⟨rfl, fun _ hn => hn.moveBlock src dst⟩

theorem reuses_shiftMerges (axis : Axis) (index : Nat) (n : Int) (s : Sheet) :
    Reuses s (s.shiftMerges axis index n) := by
  refine ⟨rfl, fun _ hn => hn.foldl fun _ change _ hs => hs.modifyCell change.anchor ?_⟩
  intro cell
  split <;> rfl

theorem reuses_insertLines (axis : Axis) (index n : Nat) (s : Sheet) :
    Reuses s (s.insertLines axis index n) := by
  have hedited := fun k (hk : s.rows.StylesBelow k) =>
    (LineEdit.insert axis index n).stylesBelow_apply hk
  unfold insertLines
  refine Reuses.trans ?_ (reuses_shiftMerges axis index _ _)
  cases axis with
  | row => exact ⟨rfl, hedited⟩
  | column => exact ⟨rfl, hedited⟩

theorem reuses_deleteLines (axis : Axis) {first last : Nat} (hspan : first ≤ last) (s : Sheet) :
    Reuses s (s.deleteLines axis first last) := by
  have hedited := fun k (hk : s.rows.StylesBelow k) =>
    (LineEdit.delete axis first last hspan).stylesBelow_apply hk
  unfold deleteLines
  refine Reuses.trans ?_ (reuses_shiftMerges axis first _ _)
  cases axis with
  | row => exact ⟨rfl, hedited⟩
  | column => exact ⟨rfl, hedited⟩

theorem reuses_hideRows (r : Range) (s : Sheet) : Reuses s (s.hideRows r) :=
  ⟨rfl, fun _ hn => hn.foldl fun _ i _ hs => hs.setHidden i true⟩

theorem reuses_typeText (s : Sheet) (c : CellRef) (text : String) (state : EditState) :
    Reuses s (s.typeText c text state).1 := by
  unfold typeText
  split
  · cases state with
    | input | finished => exact ⟨rfl, fun _ hn => hn.setText c text⟩
  · exact .refl s

theorem reuses_typeActive (s : Sheet) (text : String) (state : EditState) :
    Reuses s (s.typeActive text state).1 := by
  have htyped := reuses_typeText s s.activeRef text state
  simp only [typeActive]
  split
  · rename_i typed heq
    rw [heq] at htyped
    refine htyped.trans ?_
    split
    · exact ⟨rfl, fun _ => id⟩
    · exact ⟨rfl, fun _ => id⟩
  · exact htyped

/-! ## Every command -/

/-- Do the cells of a sheet and its table of styles fit? -/
def Shares (s : Sheet) : Prop := s.snapshot.Shares

namespace Shares

variable {s s' : Sheet}

theorem new (name : String) (settings : Settings) : (Sheet.new name settings).Shares :=
  ⟨List.nodup_nil, fun _ _ hcell => nomatch hcell⟩

theorem reuses (h : s.Shares) (hs : Reuses s s') : s'.Shares := by
  refine ⟨?_, ?_⟩
  · show s'.styles.styles.Nodup
    rw [hs.styles]
    exact h.distinct
  · show s'.rows.StylesBelow s'.styles.size
    rw [hs.styles]
    exact hs.below _ h.below

/-- A cell gets the index of a style that was interned, and all others keep theirs. -/
theorem editStyle (h : s.Shares) (edit : Style → Style) (c : CellRef) :
    (s.editStyle edit c).Shares :=
  ⟨StyleTable.nodup_intern h.distinct _, stylesBelow_editStyle h.below edit c⟩

theorem commit {change : Sheet → Sheet} (h : s.Shares)
    (hchange : ∀ t, t.Shares → (change t).Shares) : (s.commit change).1.Shares :=
  commit_keeps h (hchange s.recorded h)

theorem commitOnSelection {change : Range → Sheet → Sheet} (h : s.Shares)
    (hchange : ∀ r t, t.Shares → (change r t).Shares) : (s.commitOnSelection change).1.Shares :=
  commitOnSelection_keeps h fun r => hchange r s.recorded h

theorem commit_reuses {change : Sheet → Sheet} (h : s.Shares) (hchange : ∀ t, Reuses t (change t)) :
    (s.commit change).1.Shares :=
  h.commit fun t ht => ht.reuses (hchange t)

theorem commitOnSelection_reuses {change : Range → Sheet → Sheet} (h : s.Shares)
    (hchange : ∀ r t, Reuses t (change r t)) : (s.commitOnSelection change).1.Shares :=
  h.commitOnSelection fun r t ht => ht.reuses (hchange r t)

theorem merge (h : s.Shares) : s.merge.1.Shares := by
  unfold Sheet.merge
  split
  · exact h
  · split
    · exact h
    · split
      · exact h
      · exact h.commit_reuses (reuses_mergeRange _)

theorem unmerge (h : s.Shares) : s.unmerge.1.Shares := by
  unfold Sheet.unmerge
  split
  · exact h.commitOnSelection_reuses reuses_unmergeRange
  · exact h

theorem clearSelected (h : s.Shares) (mode : ClearMode) : (s.clearSelected mode).1.Shares := by
  refine h.commitOnSelection_reuses fun r t => ?_
  have hcleared := reuses_clear mode r t
  cases mode with
  | all | format => exact hcleared.trans ⟨rfl, fun _ => id⟩
  | text | merge => exact hcleared

theorem editSelected (h : s.Shares) (e : CellEdit) : (s.editSelected e).1.Shares := by
  unfold Sheet.editSelected
  split
  · exact h
  · cases e with
    | style e =>
      exact h.commitOnSelection fun r t ht =>
        foldl_keeps (fun _ c hs => hs.editStyle e.apply c) r.cells ht
    | border mode line color =>
      exact h.commitOnSelection fun r t ht =>
        drawBorders_keeps (fun _ edit c hs => hs.editStyle edit c) mode ⟨line, color⟩ r ht
    | merge on => cases on with
      | true => exact h.merge
      | false => exact h.unmerge
    | editable on => exact h.commitOnSelection_reuses (reuses_setEditable on)
    | function f => exact h.commitOnSelection_reuses (reuses_insertFunction f)

theorem paste (h : s.Shares) (mode : CopyMode) : (s.paste mode).1.Shares := by
  unfold Sheet.paste
  split
  · exact h
  · split
    · exact h
    · split
      · exact h
      · exact h.commit_reuses (reuses_copyInto _ _ mode false)
  · split
    · exact h
    · split
      · exact h
      · exact h.commit_reuses (reuses_moveInto _ _)

theorem fill (h : s.Shares) (dst : Range) (mode : CopyMode) : (s.fill dst mode).1.Shares := by
  unfold Sheet.fill
  split
  · exact h
  · split
    · exact h
    · exact h.commit_reuses (reuses_copyInto _ dst mode true)

theorem insertAt (h : s.Shares) (axis : Axis) (index n : Nat) :
    (s.insertAt axis index n).1.Shares := by
  unfold Sheet.insertAt
  split
  · exact h
  · exact h.commit_reuses (reuses_insertLines axis index n)

theorem deleteAt (h : s.Shares) (axis : Axis) (a b : Nat) : (s.deleteAt axis a b).1.Shares := by
  simp only [Sheet.deleteAt]
  split
  · exact h
  · rename_i hsome
    have hspan : min a b ≤ min (max a b) (s.lineCount axis - 1) :=
      Nat.not_lt.1 fun hlt => hsome (.inl hlt)
    exact h.commit_reuses (reuses_deleteLines axis hspan)

theorem hideSelected (h : s.Shares) : s.hideSelected.1.Shares := by
  unfold Sheet.hideSelected
  split
  · split
    · exact h.commit_reuses fun t => ⟨rfl, fun _ => id⟩
    · split
      · exact h.commit_reuses (reuses_hideRows _)
      · exact h
  · exact h

end Shares

/-- Cells and table fit after every change if they did before. -/
theorem shares_run (s : Sheet) (c : Command) (hrole : c.role = .transaction ∨ c.role = .input)
    (h : s.Shares) : (s.run c).1.Shares := by
  cases c with
  | select | selectCell | selectRow | selectColumn | extendTo | undo | redo | copy | cut
  | clearClipboard | refreshView | scrollX | scrollY =>
    rcases hrole with hrole | hrole <;> cases hrole
  | typeText c text state => exact h.reuses (reuses_typeText s c text state)
  | typeActive text state => exact h.reuses (reuses_typeActive s text state)
  | clearSelected mode => exact h.clearSelected mode
  | editSelected e => exact h.editSelected e
  | merge => exact h.merge
  | unmerge => exact h.unmerge
  | paste mode => exact h.paste mode
  | fill dst mode => exact h.fill dst mode
  | pasteText text =>
    exact h.commitOnSelection_reuses fun r t => ⟨rfl, fun _ hn => hn.typeBlock _ _⟩
  | insertAt axis index n => exact h.insertAt axis index n
  | deleteAt axis a b => exact h.deleteAt axis a b
  | insertSelected axis n =>
    simp only [run, insertSelected]
    split
    · exact h.insertAt axis _ n
    · exact h
  | deleteSelected axis =>
    simp only [run, deleteSelected]
    split
    · exact h.deleteAt axis _ _
    · exact h
  | setRowHeight row height =>
    exact h.commit_reuses fun t => ⟨rfl, fun _ hn => hn.editRow row fun _ => rfl⟩
  | setColumnWidth | setFreeze | addRule => exact h.commit_reuses fun t => ⟨rfl, fun _ => id⟩
  | hideSelected => exact h.hideSelected
  | unhideBefore axis index =>
    refine h.commit_reuses fun t => ?_
    cases axis with
    | row => exact ⟨rfl, fun _ hn => hn.foldl fun _ i _ hs => hs.setHidden i false⟩
    | column => exact ⟨rfl, fun _ => id⟩
  | removeRules => exact h.commitOnSelection_reuses fun r t => ⟨rfl, fun _ => id⟩
  | toggleFilter =>
    simp only [run, toggleFilter]
    split
    · exact h.commit_reuses fun t => ⟨rfl, fun _ => id⟩
    · exact h.commitOnSelection_reuses fun r t => ⟨rfl, fun _ => id⟩
  | setFilter col order operator values =>
    simp only [run, setFilter]
    split
    · exact h.commit_reuses fun t => ⟨rfl, fun _ => id⟩
    · exact h

theorem shares_runAll (name : String) (settings : Settings) (commands : List Command) :
    ((Sheet.new name settings).runAll commands).Shares :=
  (throughout_runAll Snapshot.lasts_shares shares_run
    (throughout_new (Shares.new name settings)) commands).present

/-- In every state of a session, every style index of a cell is in the table and no
    style is in the table twice. Interning a style by the map of the table gives an index
    of exactly that style, and every index that was in use keeps its style. -/
theorem shares_after (name : String) (settings : Settings) (commands : List Command) :
    let s := (Sheet.new name settings).runAll commands
    let indexed := IndexedStyles.ofStyles s.styles.styles
    (∀ c cell i, s.cell? c = some cell → cell.style = some i → i < s.styles.size) ∧
      s.styles.styles.Nodup ∧
      ∀ style,
        ((indexed.intern style).1.table, (indexed.intern style).2) = s.styles.intern style ∧
        (s.styles.intern style).1.get? (s.styles.intern style).2 = some style ∧
        ∀ i < s.styles.size, (s.styles.intern style).1.get? i = s.styles.get? i := by
  intro s indexed
  have hs : s.Shares := shares_runAll name settings commands
  refine ⟨fun c cell i hcell hi => hs.below c cell hcell i hi, hs.distinct, fun style => ?_⟩
  refine ⟨(IndexedStyles.Built.ofStyles s.styles.styles).intern_eq style, ?_, fun i hi => ?_⟩
  · exact s.styles.get?_intern style
  · exact s.styles.get?_intern_of_lt style i hi

end Sheet

end Worksheet
