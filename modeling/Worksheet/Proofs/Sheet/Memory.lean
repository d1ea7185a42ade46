import Worksheet.Proofs.Sheet.Transaction

/-!
# What a Sheet Remembers

Commands do not look at what a sheet remembers.

A sheet knows more than what is saved: its history, the marks and the place of
every rule, how far it is scrolled, and what it has reported. Nearly every change
is blind to all of this. It neither looks at it nor changes it, so that making the
change and exchanging the memory can be done in either order. That is shown here
once for each change, and `Sheet.Runs` then says of a command that it does nothing
or makes one blind change, decided by what the sheet shows.

## Main definitions

* `Memory`, `Sheet.remember`: What can be exchanged.
* `Sheet.Blind`: A change that does not look at it.
* `Sheet.Runs`: What a command does, whatever is remembered.

## Theorems

* `Sheet.Blind.foldl`: Blind steps make a blind change.
* `Sheet.runs`: What every command but eight does.
-/

namespace Worksheet

/-- What a sheet knows apart from its content and its selection. -/
structure Memory where
  history : History := {}
  rules : Rules := {}
  scroll : Scroll := {}
  revision : Nat := 0
  events : List Event := []

namespace Sheet

/-- What a sheet remembers. -/
def memory (s : Sheet) : Memory := ⟨s.history, s.rules, s.scroll, s.revision, s.events⟩

/-- The sheet with another memory. -/
def remember (s : Sheet) (m : Memory) : Sheet :=
  { s with
    history := m.history
    rules := m.rules
    scroll := m.scroll
    revision := m.revision
    events := m.events }

theorem remember_memory (s : Sheet) : s.remember s.memory = s := rfl

section

variable (s : Sheet) (m : Memory)

@[simp] theorem selection_remember : (s.remember m).selection = s.selection := rfl

@[simp] theorem clipboard_remember : (s.remember m).clipboard = s.clipboard := rfl

@[simp] theorem rows_remember : (s.remember m).rows = s.rows := rfl

@[simp] theorem cols_remember : (s.remember m).cols = s.cols := rfl

@[simp] theorem merges_remember : (s.remember m).merges = s.merges := rfl

@[simp] theorem isSingle_remember : (s.remember m).isSingle = s.isSingle := rfl

@[simp] theorem checkPaste_remember (src dst : Range) :
    (s.remember m).checkPaste src dst = s.checkPaste src dst := rfl

@[simp] theorem checkCut_remember (src : Range) :
    (s.remember m).checkCut src = s.checkCut src := rfl

end

/-- A change that neither looks at what the sheet remembers nor changes it. -/
def Blind (f : Sheet → Sheet) : Prop := ∀ s m, f (s.remember m) = (f s).remember m

namespace Blind

/-- A choice that does not look at the memory. -/
theorem ite {p : Sheet → Prop} [DecidablePred p] {f g : Sheet → Sheet}
    (hp : ∀ s m, p (s.remember m) ↔ p s) (hf : Blind f) (hg : Blind g) :
    Blind fun s => if p s then f s else g s := by
  intro s m
  show (if p (s.remember m) then f (s.remember m) else g (s.remember m)) =
    (if p s then f s else g s).remember m
  rw [hf, hg]
  by_cases h : p s
  · rw [if_pos h, if_pos ((hp s m).2 h)]
  · rw [if_neg h, if_neg (h ∘ (hp s m).1)]

/-- Blind steps make a blind change. -/
theorem foldl {α : Type} {f : Sheet → α → Sheet} (h : ∀ a, Blind fun s => f s a) (as : List α) :
    Blind fun s => as.foldl f s := by
  intro s m
  induction as generalizing s with
  | nil => rfl
  | cons a as ih => exact (congrArg (as.foldl f) (h a s m)).trans (ih (f s a))

/-- A blind change leaves the memory as it is. -/
theorem memory_eq {f : Sheet → Sheet} (h : Blind f) (s : Sheet) : (f s).memory = s.memory := by
  have hs := congrArg memory (h s s.memory)
  rwa [remember_memory] at hs

end Blind

/-! ## Changes -/

theorem blind_editStyle (edit : Style → Style) (c : CellRef) : Blind (editStyle edit · c) :=
  fun _ _ => rfl

theorem blind_drawBorder (edges : Border) (c : CellRef) : Blind (drawBorder · edges c) :=
  blind_editStyle _ c

theorem blind_eraseBorder (c : CellRef) : Blind (eraseBorder · c) := by
  unfold eraseBorder
  exact .ite (fun _ _ => Iff.rfl) (blind_editStyle _ c) fun _ _ => rfl

theorem blind_drawCell (mode : BorderMode) (e : BorderEdge) (r : Range) (c : CellRef) :
    Blind (drawCell mode e r · c) := by
  intro s m
  have hdraw (covered : Bool) (edges : Border) :
      (if covered then s.remember m else if edges.isEmpty then s.remember m
        else (s.remember m).drawBorder edges c) =
      (if covered then s else if edges.isEmpty then s else s.drawBorder edges c).remember m := by
    split
    · rfl
    · split <;> rfl
  exact hdraw _ _

theorem blind_drawAlongRow (edges : Border) (row last fuel col : Nat) :
    Blind (drawAlongRow edges row last fuel col) := by
  intro s m
  induction fuel generalizing col s with
  | zero => rfl
  | succ fuel ih =>
    rw [drawAlongRow, drawAlongRow]
    split
    · rfl
    · exact ih _ (s.drawBorder edges ⟨row, col⟩)

theorem blind_drawAlongColumn (edges : Border) (col last fuel row : Nat) :
    Blind (drawAlongColumn edges col last fuel row) := by
  intro s m
  induction fuel generalizing row s with
  | zero => rfl
  | succ fuel ih =>
    rw [drawAlongColumn, drawAlongColumn]
    split
    · rfl
    · exact ih _ (s.drawBorder edges ⟨row, col⟩)

theorem blind_drawBorders (mode : BorderMode) (e : BorderEdge) (r : Range) :
    Blind (drawBorders mode e r) := by
  have hcells := Blind.foldl (blind_drawCell mode e r) r.cells
  cases mode with
  | none => exact Blind.foldl blind_eraseBorder r.cells
  | top | bottom => exact blind_drawAlongRow _ _ _ _ _
  | left | right => exact blind_drawAlongColumn _ _ _ _ _
  | all => exact hcells
  | outside => exact .ite (fun _ _ => Iff.rfl) (blind_drawBorder _ _) hcells
  | inside | horizontal | vertical =>
    exact .ite (fun _ _ => Iff.rfl) (fun _ _ => rfl) hcells

theorem blind_insertFunction (f : Formula.Function) (r : Range) : Blind (insertFunction f r) :=
  .ite (fun _ _ => Iff.rfl) (.foldl (fun _ _ _ => rfl) _)
    (.ite (fun _ _ => Iff.rfl) (fun _ _ => rfl) fun _ _ => rfl)

theorem blind_setEditable (on : Bool) (r : Range) : Blind (setEditable on r) := fun _ _ => rfl

theorem blind_mergeRange (r : Range) : Blind (mergeRange r) := fun _ _ => rfl

theorem blind_unmergeRange (r : Range) : Blind (unmergeRange r) := fun _ _ => rfl

theorem blind_dropMerges (inside : Range) (keep : Option Range) (written : List Range) :
    Blind (dropMerges inside keep written) :=
  fun s m => Blind.foldl (f := dropMerge written) (fun _ _ _ => rfl) _ s m

theorem blind_copyInto (src dst : Range) (mode : CopyMode) (series : Bool) :
    Blind (copyInto src dst mode series) := by
  intro s m
  cases mode with
  | text => rfl
  | all | format =>
    -- The merges that arrive are registered after those that were there are dropped.
    have hwritten (rows : Rows) (whole : List Range) :
        let cleared (t : Sheet) := dropMerges (footprint src dst) none whole { t with rows }
        { cleared (s.remember m) with
          merges := whole.foldl Merges.add (cleared (s.remember m)).merges } =
        { cleared s with merges := whole.foldl Merges.add (cleared s).merges }.remember m := by
      intro cleared
      have hcleared : cleared (s.remember m) = (cleared s).remember m :=
        blind_dropMerges (footprint src dst) none whole { s with rows } m
      rw [hcleared]
      rfl
    exact hwritten _ _

theorem blind_moveInto (src dst : Range) : Blind (moveInto src dst) := by
  intro s m
  unfold moveInto
  rw [blind_dropMerges]
  rfl

theorem blind_shiftMerges (axis : Axis) (index : Nat) (n : Int) :
    Blind fun s => s.shiftMerges axis index n := fun _ _ => rfl

theorem blind_insertLines (axis : Axis) (index n : Nat) : Blind (insertLines axis index n) := by
  intro s m
  unfold insertLines
  cases axis with
  | row => exact blind_shiftMerges .row index _ { s with rows := s.rows.insertRows index n } m
  | column =>
    exact blind_shiftMerges .column index _
      { s with rows := s.rows.insertColumns index n, cols := s.cols.insert index n } m

theorem blind_deleteLines (axis : Axis) (first last : Nat) :
    Blind (deleteLines axis first last) := by
  intro s m
  unfold deleteLines
  cases axis with
  | row => exact blind_shiftMerges .row first _ { s with rows := s.rows.deleteRows first last } m
  | column =>
    exact blind_shiftMerges .column first _
      { s with rows := s.rows.deleteColumns first last, cols := s.cols.delete first last } m

end Sheet

/-! ## Commands -/

/-- Does a command neither look at what the sheet remembers nor at a text that is
    typed? -/
def Command.isBlind : Command → Bool
  | .undo | .redo | .typeText _ _ _ | .typeActive _ _ => false
  | .addRule _ _ _ | .removeRules | .scrollX _ | .scrollY _ => false
  | _ => true

namespace Sheet

/-- Does the row view show what the filter makes of the texts? It need not while a
    text is typed. -/
def Fresh (s : Sheet) : Prop := s.pending = none → s.view = s.filter.rowView s.rows.content

/-- What an operation does to a sheet, whatever the sheet remembers: it makes one blind
    change, and the change is a commit or is about the session. -/
inductive Runs (s : Sheet) (g : Sheet → Sheet × Outcome) : Prop where
  | commits (f : Sheet → Sheet) (hf : Blind f) (h : ∀ m, g (s.remember m) = (s.remember m).commit f)
  | shows (f : Sheet → Sheet) (o : Outcome) (hf : Blind f) (hfresh : s.Fresh → (f s).Fresh)
    (h : ∀ m, g (s.remember m) = (f (s.remember m), o))

namespace Runs

variable {s : Sheet} {g : Sheet → Sheet × Outcome}

theorem congr {g' : Sheet → Sheet × Outcome} (hg : Runs s g')
    (h : ∀ m, g (s.remember m) = g' (s.remember m)) : Runs s g := by
  cases hg with
  | commits f hf hrun => exact .commits f hf fun m => (h m).trans (hrun m)
  | shows f o hf hfresh hrun => exact .shows f o hf hfresh fun m => (h m).trans (hrun m)

/-- An operation that leaves the sheet as it is. -/
theorem stays (o : Outcome) (h : ∀ m, g (s.remember m) = (s.remember m, o)) : Runs s g :=
  .shows id o (fun _ _ => rfl) id h

theorem commitsOnSelection {f : Range → Sheet → Sheet} (hf : ∀ r, Blind (f r))
    (h : ∀ m, g (s.remember m) = (s.remember m).commitOnSelection f) : Runs s g := by
  cases hrange : s.selection.range with
  | some r => exact .commits (f r) (hf r) fun m => by simp [h, commitOnSelection, hrange]
  | none => exact .stays .ignored fun m => by simp [h, commitOnSelection, hrange]

end Runs

section

variable (s : Sheet)

theorem runs_merge : Runs s merge := by
  cases hrange : s.selection.range with
  | none => exact .stays (.rejected .noSelection) fun m => by simp [merge, hrange]
  | some r =>
    by_cases hsingle : s.isSingle = true
    · exact .stays .ignored fun m => by simp [merge, hrange, hsingle]
    · cases hstraddling : s.merges.straddling? r with
      | some x =>
        exact .stays (.rejected (.mergeOverlap x)) fun m => by
          simp [merge, hrange, hsingle, hstraddling]
      | none =>
        exact .commits _ (blind_mergeRange r) fun m => by
          simp [merge, hrange, hsingle, hstraddling]

theorem runs_unmerge : Runs s unmerge := by
  by_cases hsingle : s.isSingle = true
  · exact .commitsOnSelection blind_unmergeRange fun m => if_pos hsingle
  · exact .stays .ignored fun m => if_neg hsingle

theorem runs_clearSelected (mode : ClearMode) : Runs s (clearSelected · mode) := by
  refine .commitsOnSelection (fun r => ?_) fun m => rfl
  intro t m
  cases mode <;> rfl

theorem runs_editSelected (e : CellEdit) : Runs s (editSelected · e) := by
  by_cases hrange : s.selection.range.isNone = true
  · exact .stays .ignored fun m => if_pos hrange
  · have h (m : Memory) : editSelected (s.remember m) e = _ := if_neg hrange
    cases e with
    | style edit =>
      exact .commitsOnSelection (fun r => .foldl (blind_editStyle edit.apply) r.cells) h
    | border mode line color => exact .commitsOnSelection (fun r => blind_drawBorders _ _ r) h
    | merge on => cases on with
      | true => exact (runs_merge s).congr h
      | false => exact (runs_unmerge s).congr h
    | editable on => exact .commitsOnSelection (blind_setEditable on) h
    | function f => exact .commitsOnSelection (blind_insertFunction f) h

theorem runs_copy : Runs s copy := by
  cases hrange : s.selection.range with
  | some r =>
    exact .shows (fun t => { t with clipboard := .copy r }) .applied (fun _ _ => rfl)
      (fun hs => hs) fun m => by simp [copy, hrange]
  | none => exact .stays .ignored fun m => by simp [copy, hrange]

theorem runs_cut : Runs s cut := by
  cases hrange : s.selection.range with
  | some r =>
    exact .shows (fun t => { t with clipboard := .cut r }) .applied (fun _ _ => rfl)
      (fun hs => hs) fun m => by simp [cut, hrange]
  | none => exact .stays .ignored fun m => by simp [cut, hrange]

theorem runs_paste (mode : CopyMode) : Runs s (paste · mode) := by
  cases hclipboard : s.clipboard with
  | clear => exact .stays .ignored fun m => by simp [paste, hclipboard]
  | copy src =>
    cases hrange : s.selection.range with
    | none =>
      exact .stays (.rejected .noSelection) fun m => by simp [paste, hclipboard, hrange]
    | some dst =>
      cases hcheck : s.checkPaste src dst with
      | some e =>
        exact .stays (.rejected e) fun m => by simp [paste, hclipboard, hrange, hcheck]
      | none =>
        exact .commits _ (blind_copyInto src dst mode false) fun m => by
          simp [paste, hclipboard, hrange, hcheck]
  | cut src =>
    cases hrange : s.selection.range with
    | none =>
      exact .stays (.rejected .noSelection) fun m => by simp [paste, hclipboard, hrange]
    | some dst =>
      cases hcheck : (s.checkCut src).or (s.checkPaste src (.single dst.first)) with
      | some e =>
        exact .stays (.rejected e) fun m => by simp [paste, hclipboard, hrange, hcheck]
      | none =>
        exact .commits _ (blind_moveInto src dst) fun m => by
          simp only [paste, clipboard_remember, hclipboard, selection_remember, hrange,
            checkCut_remember, checkPaste_remember, hcheck]

theorem runs_fill (dst : Range) (mode : CopyMode) : Runs s (fill · dst mode) := by
  cases hrange : s.selection.range with
  | none => exact .stays (.rejected .noSelection) fun m => by simp [fill, hrange]
  | some src =>
    cases hcheck : s.checkPaste src dst with
    | some e => exact .stays (.rejected e) fun m => by simp [fill, hrange, hcheck]
    | none =>
      exact .commits _ (blind_copyInto src dst mode true) fun m => by
        simp [fill, hrange, hcheck]

theorem runs_insertAt (axis : Axis) (index n : Nat) : Runs s (insertAt · axis index n) := by
  by_cases hn : n = 0
  · exact .stays .ignored fun m => if_pos hn
  · exact .commits _ (blind_insertLines axis index n) fun m => if_neg hn

theorem runs_deleteAt (axis : Axis) (a b : Nat) : Runs s (deleteAt · axis a b) := by
  have h (m : Memory) : (s.remember m).deleteAt axis a b =
      if min (max a b) (s.lineCount axis - 1) < min a b ∨
          s.lineCount axis ≤ min (max a b) (s.lineCount axis - 1) - min a b + 1 then
        (s.remember m, .ignored)
      else (s.remember m).commit
        (deleteLines axis (min a b) (min (max a b) (s.lineCount axis - 1))) := by
    cases axis <;> rfl
  split at h
  · exact .stays _ h
  · exact .commits _ (blind_deleteLines _ _ _) h

theorem runs_insertSelected (axis : Axis) (n : Nat) : Runs s (insertSelected · axis n) := by
  cases hrange : s.selection.range with
  | some r =>
    exact (runs_insertAt s axis (r.firstLine axis) n).congr fun m => by
      simp [insertSelected, hrange]
  | none => exact .stays .ignored fun m => by simp [insertSelected, hrange]

theorem runs_deleteSelected (axis : Axis) : Runs s (deleteSelected · axis) := by
  cases hrange : s.selection.range with
  | some r =>
    exact (runs_deleteAt s axis (r.firstLine axis) (r.lastLine axis)).congr fun m => by
      simp [deleteSelected, hrange]
  | none => exact .stays .ignored fun m => by simp [deleteSelected, hrange]

theorem runs_hideSelected : Runs s hideSelected := by
  cases hrange : s.selection.range with
  | some r =>
    by_cases hcolumns : r.height = s.rows.len
    · exact .commits (hideColumns r) (fun _ _ => rfl) fun m => by
        simp [hideSelected, hrange, hcolumns]
    · by_cases hrows : r.width = s.cols.len
      · exact .commits (hideRows r) (fun _ _ => rfl) fun m => by
          simp [hideSelected, hrange, hcolumns, hrows]
      · exact .stays .ignored fun m => by simp [hideSelected, hrange, hcolumns, hrows]
  | none => exact .stays .ignored fun m => by simp [hideSelected, hrange]

theorem runs_unhideBefore (axis : Axis) (index : Nat) : Runs s (unhideBefore · axis index) := by
  refine .commits _ (fun t m => ?_) fun m => rfl
  cases axis <;> rfl

theorem runs_toggleFilter : Runs s toggleFilter := by
  by_cases hactive : s.filter.active = true
  · exact .commits _ (fun _ _ => rfl) fun m => if_pos hactive
  · exact .commitsOnSelection (fun _ _ _ => rfl) fun m => if_neg hactive

theorem runs_setFilter (col : Nat) (order : Option SortOrder) (operator : FilterOperator)
    (values : List String) : Runs s (setFilter · col order operator values) := by
  by_cases hactive : s.filter.active = true
  · exact .commits _ (fun _ _ => rfl) fun m => if_pos hactive
  · exact .stays .ignored fun m => if_neg hactive

/-- What a blind command does is decided by what the sheet shows. -/
theorem runs {c : Command} (hc : c.isBlind = true) : Runs s (run · c) := by
  cases c with
  | undo | redo | typeText | typeActive | addRule | removeRules | scrollX | scrollY => cases hc
  | select r => exact .shows (select · r) .applied (fun _ _ => rfl) (fun hs => hs) fun m => rfl
  | selectCell c =>
    exact .shows (fun t => (t.selectCell c).1) .applied (fun _ _ => rfl) (fun hs => hs) fun m => rfl
  | selectRow row =>
    exact .shows (fun t => (t.selectRow row).1) .applied (fun _ _ => rfl) (fun hs => hs)
      fun m => rfl
  | selectColumn col =>
    exact .shows (fun t => (t.selectColumn col).1) .applied (fun _ _ => rfl) (fun hs => hs)
      fun m => rfl
  | extendTo c =>
    exact .shows (fun t => (t.extendTo c).1) .applied (fun _ _ => rfl) (fun hs => hs) fun m => rfl
  | clearClipboard =>
    exact .shows clearClipboard .applied (fun _ _ => rfl) (fun hs => hs) fun m => rfl
  | refreshView =>
    exact .shows Sheet.refreshView .applied (fun _ _ => rfl) (fun _ _ => rfl) fun m => rfl
  | clearSelected mode => exact runs_clearSelected s mode
  | editSelected e => exact runs_editSelected s e
  | merge => exact runs_merge s
  | unmerge => exact runs_unmerge s
  | copy => exact runs_copy s
  | cut => exact runs_cut s
  | paste mode => exact runs_paste s mode
  | fill dst mode => exact runs_fill s dst mode
  | pasteText text => exact .commitsOnSelection (fun _ _ _ => rfl) fun m => rfl
  | insertAt axis index n => exact runs_insertAt s axis index n
  | deleteAt axis a b => exact runs_deleteAt s axis a b
  | insertSelected axis n => exact runs_insertSelected s axis n
  | deleteSelected axis => exact runs_deleteSelected s axis
  | setRowHeight row h =>
    exact .commits (fun t => { t with rows := t.rows.setHeight row h }) (fun _ _ => rfl)
      fun m => rfl
  | setColumnWidth col w =>
    exact .commits (fun t => { t with cols := t.cols.setWidth t.settings.cols.minWidth col w })
      (fun _ _ => rfl) fun m => rfl
  | setFreeze c =>
    exact .commits (fun t => { t with freeze := c }) (fun _ _ => rfl) fun m => rfl
  | hideSelected => exact runs_hideSelected s
  | unhideBefore axis index => exact runs_unhideBefore s axis index
  | toggleFilter => exact runs_toggleFilter s
  | setFilter col order operator values => exact runs_setFilter s col order operator values

end

end Sheet

end Worksheet
