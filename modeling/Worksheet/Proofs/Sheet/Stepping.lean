import Worksheet.Proofs.History
import Worksheet.Proofs.Sheet.Change
import Worksheet.Sheet.Command

/-!
# What Commands Do to Merges

Every command, brought down to the few things that can happen to merges.

Most commands touch neither the registry nor a mark. Those that do make a change, and
what they check before is what the change asks for. Around a change, the history takes
note of the state before it, and typing puts that state aside until it is finished.
`Step` says all of that, and whoever wants to know what a session preserves argues about
steps, of which there are five kinds, and not about commands.

What a change asks of the grid is no matter as long as everything lies in the first half
of it, before a command and after it. Displacements are exact then, and so is the number
of lines to move by, since the lines are as many more afterwards.

## Main definitions

* `Sheet.Below`: A sheet before a line.
* `Sheet.Step`: What a command does to the merges, the marks and the history.
* `Sheet.arrivals`: The merges that a command makes out of marks.
* `Sheet.losses`: The merges that it leaves without a mark.

## Theorems

* `Sheet.step_run`: Every command takes a step.
-/

namespace Worksheet

/-! ## The first half of the grid -/

/-- Does all that is stored on a sheet lie before a line, and what is selected and to be
    pasted with it? -/
structure Sheet.Below (limit : Nat) (s : Sheet) : Prop where
  rows : s.rows.Below limit
  cols : s.cols.Below limit
  merges : s.merges.Below limit
  selection : ∀ r ∈ s.selection.range, r.Below limit
  clipboard : ∀ r ∈ s.clipboard.range?, r.Below limit

instance (limit : Nat) (s : Sheet) : Decidable (s.Below limit) :=
  decidable_of_iff (s.rows.Below limit ∧ s.cols.Below limit ∧ s.merges.Below limit ∧
      (∀ r ∈ s.selection.range, r.Below limit) ∧ ∀ r ∈ s.clipboard.range?, r.Below limit)
    ⟨fun h => ⟨h.1, h.2.1, h.2.2.1, h.2.2.2.1, h.2.2.2.2⟩,
      fun h => ⟨h.rows, h.cols, h.merges, h.selection, h.clipboard⟩⟩

theorem Sheet.Below.lineCount {limit : Nat} {s : Sheet} (h : s.Below limit) (axis : Axis) :
    s.lineCount axis < limit := by
  cases axis with
  | row => exact h.rows.len
  | column => exact h.cols.len

/-- What a commit leaves before a line its change does. -/
theorem Sheet.Below.of_commit {limit : Nat} {s : Sheet} {change : Sheet → Sheet}
    (hwritable : s.isWritable = true) (h : (s.commit change).1.Below limit) :
    (change s.recorded).Below limit := by
  rw [Sheet.commit_of_writable hwritable] at h
  exact ⟨h.rows, h.cols, h.merges, h.selection, h.clipboard⟩

/-- In the first half of the grid, blocks can be moved anywhere. -/
theorem Range.canMove_of_below {src dst : Range} (hsrc : src.Below Address.reach)
    (hdst : dst.Below Address.reach) :
    src.CanMove dst.first := by
  obtain ⟨hbottom, hright, -⟩ := hsrc
  obtain ⟨hbottom', hright', -⟩ := hdst
  have htop := src.top_le_bottom
  have hleft := src.left_le_right
  have htop' := dst.top_le_bottom
  have hleft' := dst.left_le_right
  have hlimit : Address.gridLimit = 2 * Address.reach := rfl
  refine ⟨by omega, ⟨.inl ?_, .inl ?_⟩, ?_⟩
  · simp only [Range.first]
    omega
  · simp only [Range.first]
    omega
  · simp only [Sheet.footprint_single, CellRef.Fits, Range.last, Range.spanning, Range.first,
      Range.height, Range.width]
    omega

/-- In the first half of the grid, there is room for as many lines again. -/
theorem LineEdit.hasRoom_insert {m : Merges} {axis : Axis} {first n : Nat} (hn : n < Address.reach)
    (hm : m.Below Address.reach) : (LineEdit.insert axis first n).HasRoom m := by
  have hlimit : Address.gridLimit = 2 * Address.reach := rfl
  refine ⟨hn, hm.mono (by omega), fun r hr => LineEdit.newLast_insert_lt ?_ fun _ => ?_⟩
  · have hlast := (hm r hr).lastLine axis
    exact Nat.lt_of_lt_of_le hlast (by omega)
  · have hlast := (hm r hr).lastLine axis
    show r.lastLine axis + n < Address.gridLimit
    omega

/-! ## Steps -/

namespace Sheet

/-- What a command can do. The lists hold the merges that it makes out of marks, and
    those that it leaves without. -/
inductive Step (s : Sheet) : List Range → List Range → Sheet → Prop where
  /-- Nothing, as far as merges go. -/
  | idle {s' : Sheet} (h : Alike s s') : Step s [] [] s'
  /-- A change that the history takes note of. -/
  | commit {new lost : List Range} {t s' : Sheet} (hchange : Change s.recorded new lost t)
      (h : Same t s') : Step s new lost s'
  /-- Typing, with the state before it put aside. -/
  | input {s' : Sheet} (h : Alike { s with pending := some (s.pending.getD s.snapshot) } s') :
      Step s [] [] s'
  /-- Typing that is finished. -/
  | finish {s' : Sheet} (h : Alike
      { s with
        history := s.history.record (s.pending.getD s.snapshot).toText
        pending := none } s') :
      Step s [] [] s'
  /-- Going to a state that the history holds. -/
  | restore {s' : Sheet} {text : String} {d : Snapshot}
      (htext : text ∈ s.history.past ++ s.history.future) (hread : Snapshot.ofText? text = some d)
      (merges : s'.merges = d.merges) (marks : Rows.SameMarks d.rows s'.rows)
      (history : ∀ x ∈ s'.history.past ++ s'.history.future,
        x = s.snapshot.toText ∨ x ∈ s.history.past ++ s.history.future)
      (pending : s'.pending = none) : Step s [] [] s'

/-- The merges that a command makes out of marks. -/
def arrivals (s : Sheet) (c : Command) : List Range :=
  if (s.run c).2 = .applied then
    match c with
    | .paste mode => match s.clipboard, s.selection.range with
      | .copy src, some dst => s.arrivingRanges src dst mode false
      | _, _ => []
    | .fill dst mode => match s.selection.range with
      | some src => s.arrivingRanges src dst mode true
      | none => []
    | _ => []
  else []

/-- The merges that a command leaves without a mark. -/
def losses (s : Sheet) (c : Command) : List Range :=
  if (s.run c).2 = .applied then
    match c with
    | .clearSelected mode => s.selection.range.elim [] fun r =>
      s.rows.unmarked mode r (s.keptMerges mode r)
    | .unmerge | .editSelected (.merge false) => s.selection.range.elim [] fun r =>
      s.rows.unmarked .merge (.single r.first) (s.merges.removeWithin r)
    | _ => []
  else []

section

variable {s s' : Sheet} {new lost : List Range}

theorem Step.refl (s : Sheet) : Step s [] [] s := .idle (.refl s)

theorem Step.same {t : Sheet} (h : Step s new lost t) (ht : Same t s') : Step s new lost s' := by
  cases h with
  | idle h => exact .idle (h.trans ht.alike)
  | commit hchange h =>
    exact .commit hchange ⟨ht.merges.trans h.merges, ht.rows.trans h.rows,
      ht.history.trans h.history, ht.pending.trans h.pending⟩
  | input h => exact .input (h.trans ht.alike)
  | finish h => exact .finish (h.trans ht.alike)
  | restore htext hread merges marks history pending =>
    exact .restore htext hread (ht.merges.trans merges) (marks.trans ht.alike.marks)
      -- What is in the history was in it before, so the sheet may change around it.
      (by rw [ht.history]; exact history) (ht.pending.trans pending)

theorem step_commit {change : Sheet → Sheet}
    (h : Change s.recorded new lost (change s.recorded)) :
    Step s (if (s.commit change).2 = .applied then new else [])
      (if (s.commit change).2 = .applied then lost else []) (s.commit change).1 := by
  unfold commit
  by_cases hwritable : s.isWritable = true
  · rw [if_pos hwritable]
    exact .commit h ⟨rfl, rfl, rfl, rfl⟩
  · rw [if_neg hwritable]
    exact .refl s

/-- Most changes make no merge out of a mark, whether or not they are made, and most
    leave none without. -/
theorem step_commit_of_nil_new {change : Sheet → Sheet}
    (h : Change s.recorded [] lost (change s.recorded)) :
    Step s [] (if (s.commit change).2 = .applied then lost else []) (s.commit change).1 := by
  have hstep := step_commit h
  rwa [ite_self] at hstep

theorem step_commit_of_nil_lost {change : Sheet → Sheet}
    (h : Change s.recorded new [] (change s.recorded)) :
    Step s (if (s.commit change).2 = .applied then new else []) [] (s.commit change).1 := by
  have hstep := step_commit h
  rwa [ite_self (a := ([] : List Range))] at hstep

theorem step_commit_nil {change : Sheet → Sheet}
    (h : Change s.recorded [] [] (change s.recorded)) : Step s [] [] (s.commit change).1 := by
  have hstep := step_commit_of_nil_new h
  rwa [ite_self] at hstep

theorem step_commitOnSelection {change : Range → Sheet → Sheet}
    (h : ∀ r, Change s.recorded [] [] (change r s.recorded)) :
    Step s [] [] (s.commitOnSelection change).1 := by
  unfold commitOnSelection
  split
  · exact step_commit_nil (h _)
  · exact .refl s

theorem step_typeText (c : CellRef) (text : String) (state : EditState) :
    Step s [] [] (s.typeText c text state).1 := by
  unfold typeText
  by_cases hwritable : s.isWritable = true
  · rw [if_pos hwritable]
    cases state with
    | input => exact .input ⟨rfl, Rows.sameMarks_setText s.rows c text, rfl, rfl⟩
    | finished => exact .finish ⟨rfl, Rows.sameMarks_setText s.rows c text, rfl, rfl⟩
  · rw [if_neg hwritable]
    exact .refl s

theorem step_typeActive (text : String) (state : EditState) :
    Step s [] [] (s.typeActive text state).1 := by
  have htyped : Step s [] [] (s.typeText s.activeRef text state).1 := step_typeText _ _ _
  simp only [typeActive]
  split
  · rename_i typed heq
    rw [heq] at htyped
    refine htyped.same ?_
    split
    · exact ⟨rfl, rfl, rfl, rfl⟩
    · exact ⟨rfl, rfl, rfl, rfl⟩
  · exact htyped

theorem step_goTo {restored : Restored Snapshot}
    (h : ∀ d history, restored = .state d history →
      (∃ text ∈ s.history.past ++ s.history.future, Snapshot.ofText? text = some d) ∧
        ∀ x ∈ history.past ++ history.future,
          x = s.snapshot.toText ∨ x ∈ s.history.past ++ s.history.future) :
    Step s [] [] (s.goTo restored).1 := by
  cases restored with
  | nothing => exact .refl s
  | unreadable => exact .refl s
  | state d history =>
    obtain ⟨⟨text, htext, hread⟩, hhistory⟩ := h d history rfl
    exact .restore htext hread rfl (.refl d.rows) hhistory rfl

theorem step_undo (s : Sheet) : Step s [] [] s.undo.1 := by
  unfold undo
  split
  · exact step_goTo fun d history => History.mem_of_undo
  · exact .refl s

theorem step_redo (s : Sheet) : Step s [] [] s.redo.1 := by
  unfold redo
  split
  · exact step_goTo fun d history => History.mem_of_redo
  · exact .refl s

theorem step_merge (s : Sheet) : Step s [] [] s.merge.1 := by
  unfold merge
  split
  · exact .refl s
  · rename_i r hr
    by_cases hsingle : s.isSingle = true
    · rw [if_pos hsingle]
      exact .refl s
    · rw [if_neg hsingle]
      split
      · exact .refl s
      · rename_i hroom
        -- A range that is not one cell has several.
        have hmultiple : r.isMultiple = true := by
          simp only [isSingle, hr, Bool.or_eq_true, Bool.not_eq_true', not_or,
            Bool.not_eq_false] at hsingle
          exact hsingle.2
        exact step_commit_nil (.merge hmultiple hroom)

theorem step_unmerge (s : Sheet) : Step s [] (s.losses .unmerge) s.unmerge.1 := by
  show Step s [] (if s.unmerge.2 = .applied then s.selection.range.elim [] fun r =>
    s.rows.unmarked .merge (.single r.first) (s.merges.removeWithin r) else []) s.unmerge.1
  unfold unmerge
  by_cases hsingle : s.isSingle = true
  · rw [if_pos hsingle]
    unfold commitOnSelection
    cases hr : s.selection.range with
    | some r =>
      -- A selection that can be unmerged is one merge or one cell.
      simp only [isSingle, hr, Bool.or_eq_true, Bool.not_eq_true'] at hsingle
      exact step_commit_of_nil_new (.unmerge hsingle)
    | none => exact .refl s
  · rw [if_neg hsingle]
    exact .refl s

theorem step_clearSelected (s : Sheet) (mode : ClearMode) :
    Step s [] (s.losses (.clearSelected mode)) (s.clearSelected mode).1 := by
  show Step s [] (if (s.clearSelected mode).2 = .applied then s.selection.range.elim [] fun r =>
    s.rows.unmarked mode r (s.keptMerges mode r) else []) (s.clearSelected mode).1
  unfold clearSelected commitOnSelection
  cases s.selection.range with
  | some r => cases mode with
    | all => exact step_commit_of_nil_new (.clear .all r)
    | format => exact step_commit_of_nil_new (.clear .format r)
    | text => exact step_commit_of_nil_new (.clear .text r)
    | merge => exact step_commit_of_nil_new (.clear .merge r)
  | none => exact .refl s

/-- Without a selection there is nothing to unmerge. -/
theorem editSelected_unmerge (s : Sheet) : s.editSelected (.merge false) = s.unmerge := by
  unfold editSelected unmerge commitOnSelection isSingle
  cases s.selection.range with
  | some r => rfl
  | none => rfl

theorem step_editSelected (s : Sheet) (e : CellEdit) :
    Step s [] (s.losses (.editSelected e)) (s.editSelected e).1 := by
  have hquiet : ∀ {e : CellEdit}, s.losses (.editSelected e) = [] →
      Step s [] [] (s.editSelected e).1 →
        Step s [] (s.losses (.editSelected e)) (s.editSelected e).1 :=
    fun hnone h => by rwa [hnone]
  -- Without a selection nothing happens, and with one it is asked for again.
  have hselected : ∀ {t : Sheet × Outcome}, Step s [] [] t.1 →
      Step s [] [] (if s.selection.range.isNone = true then (s, .ignored) else t).1 := by
    intro t ht
    split
    · exact .refl s
    · exact ht
  cases e with
  | style e =>
    refine hquiet (ite_self _) (hselected (step_commitOnSelection fun r => .alike ?_))
    exact foldl_keeps (fun s' c h => h.trans (alike_editStyle e.apply s' c)) r.cells (.refl _)
  | border mode line color =>
    exact hquiet (ite_self _) (hselected (step_commitOnSelection fun r =>
      .alike (alike_drawBorders mode _ r _)))
  | merge on => cases on with
    | true => exact hquiet (ite_self _) (hselected (step_merge s))
    | false =>
      show Step s [] (if (s.editSelected (.merge false)).2 = .applied then
        s.selection.range.elim [] fun r =>
          s.rows.unmarked .merge (.single r.first) (s.merges.removeWithin r) else [])
        (s.editSelected (.merge false)).1
      rw [editSelected_unmerge]
      exact step_unmerge s
  | editable on =>
    exact hquiet (ite_self _) (hselected (step_commitOnSelection fun r =>
      .alike (alike_setEditable on r _)))
  | function f =>
    exact hquiet (ite_self _) (hselected (step_commitOnSelection fun r =>
      .alike (alike_insertFunction f r _)))

theorem step_insertAt {axis : Axis} {index n : Nat} (hs : s.Below Address.reach)
    (hs' : (s.insertAt axis index n).1.Below Address.reach) :
    Step s [] [] (s.insertAt axis index n).1 := by
  unfold insertAt at hs' ⊢
  by_cases hn : n = 0
  · rw [if_pos hn]
    exact .refl s
  by_cases hwritable : s.isWritable = true
  · -- There are as many more lines afterwards.
    rw [if_neg hn] at hs' ⊢
    have hcount := (Below.of_commit hwritable hs').lineCount axis
    rw [lineCount_insertLines] at hcount
    have hreach : n < Address.reach := by omega
    exact step_commit_nil (.edit (e := .insert axis index n) (Int.natCast_ne_zero.2 hn)
      (LineEdit.hasRoom_insert hreach hs.merges) (edited_insertLines hreach _))
  · rw [if_neg hn, commit, if_neg hwritable]
    exact .refl s

theorem step_deleteAt (hs : s.Below Address.reach) (axis : Axis) (a b : Nat) :
    Step s [] [] (s.deleteAt axis a b).1 := by
  simp only [deleteAt]
  split
  · exact .refl s
  · rename_i hsome
    -- The lines are in order, or nothing is deleted.
    have hspan : min a b ≤ min (max a b) (s.lineCount axis - 1) :=
      Nat.not_lt.1 fun hlt => hsome (.inl hlt)
    have hlimit : Address.gridLimit = 2 * Address.reach := rfl
    have hcount := hs.lineCount axis
    have hreach : (LineEdit.delete axis _ _ hspan).InReach := ⟨by omega, by omega⟩
    exact step_commit_nil (.edit (LineEdit.distance_delete_ne_zero hspan)
      (LineEdit.hasRoom_delete hreach (hs.merges.mono (by omega))) (edited_deleteLines hreach _))

theorem step_paste (hs : s.Below Address.reach) (mode : CopyMode) :
    Step s (s.arrivals (.paste mode)) [] (s.paste mode).1 := by
  show Step s (if (s.paste mode).2 = .applied then
    match s.clipboard, s.selection.range with
    | .copy src, some dst => s.arrivingRanges src dst mode false
    | _, _ => [] else []) [] (s.paste mode).1
  unfold paste
  cases hclipboard : s.clipboard with
  | clear => exact .refl s
  | copy src =>
    cases s.selection.range with
    | none => exact .refl s
    | some dst =>
      cases hcheck : s.checkPaste src dst with
      | some e =>
        simp only [hcheck]
        exact .refl s
      | none =>
        simp only [hcheck]
        exact step_commit_of_nil_lost (.copy mode false hcheck)
  | cut src =>
    rw [ite_self]
    cases hselected : s.selection.range with
    | none => exact .refl s
    | some dst =>
      cases hnone : (s.checkCut src).or (s.checkPaste src (.single dst.first)) with
      | some e =>
        simp only [hnone]
        exact .refl s
      | none =>
        obtain ⟨hcut, hcheck⟩ := Option.or_eq_none_iff.1 hnone
        simp only [hnone]
        have hsrc : src.Below Address.reach := hs.clipboard src (hclipboard ▸ rfl)
        have hmove := Range.canMove_of_below hsrc (hs.selection dst hselected)
        exact step_commit_nil (.move hmove hcut hcheck)

theorem step_fill (s : Sheet) (dst : Range) (mode : CopyMode) :
    Step s (s.arrivals (.fill dst mode)) [] (s.fill dst mode).1 := by
  show Step s (if (s.fill dst mode).2 = .applied then
    match s.selection.range with
    | some src => s.arrivingRanges src dst mode true
    | none => [] else []) [] (s.fill dst mode).1
  unfold fill
  cases s.selection.range with
  | none => exact .refl s
  | some src =>
    cases hcheck : s.checkPaste src dst with
    | some e =>
      simp only [hcheck]
      exact .refl s
    | none =>
      simp only [hcheck]
      exact step_commit_of_nil_lost (.copy mode true hcheck)

theorem step_scroll (scroll : Scroll) (here : Bool) :
    Step s [] [] (if here then (s, Outcome.ignored) else ({ s with scroll }, .applied)).1 := by
  split <;> exact (Step.refl s).same ⟨rfl, rfl, rfl, rfl⟩

theorem step_commit_same {change : Sheet → Sheet}
    (hchange : ∀ s, Alike s (change s)) : Step s [] [] (s.commit change).1 :=
  step_commit_nil (.alike (hchange s.recorded))

theorem step_copy (s : Sheet) : Step s [] [] s.copy.1 := by
  unfold copy
  split <;> exact (Step.refl s).same ⟨rfl, rfl, rfl, rfl⟩

theorem step_cut (s : Sheet) : Step s [] [] s.cut.1 := by
  unfold cut
  split <;> exact (Step.refl s).same ⟨rfl, rfl, rfl, rfl⟩

theorem step_insertSelected {axis : Axis} {n : Nat} (hs : s.Below Address.reach)
    (hs' : (s.insertSelected axis n).1.Below Address.reach) :
    Step s [] [] (s.insertSelected axis n).1 := by
  unfold insertSelected at hs' ⊢
  split at hs'
  · exact step_insertAt hs hs'
  · exact .refl s

theorem step_deleteSelected (hs : s.Below Address.reach) (axis : Axis) :
    Step s [] [] (s.deleteSelected axis).1 := by
  unfold deleteSelected
  split
  · exact step_deleteAt hs axis _ _
  · exact .refl s

theorem step_hideSelected (s : Sheet) : Step s [] [] s.hideSelected.1 := by
  unfold hideSelected
  split
  · split
    · exact step_commit_same fun s => ⟨rfl, .refl _, rfl, rfl⟩
    · split
      · exact step_commit_same (alike_hideRows _)
      · exact .refl s
  · exact .refl s

theorem step_unhideBefore (s : Sheet) (axis : Axis) (index : Nat) :
    Step s [] [] (s.unhideBefore axis index).1 := by
  refine step_commit_same fun s => ?_
  cases axis with
  | row => exact ⟨rfl, Rows.sameMarks_unhide s.rows index, rfl, rfl⟩
  | column => exact ⟨rfl, .refl _, rfl, rfl⟩

theorem step_toggleFilter (s : Sheet) : Step s [] [] s.toggleFilter.1 := by
  unfold toggleFilter
  split
  · exact step_commit_same fun s => ⟨rfl, .refl _, rfl, rfl⟩
  · exact step_commitOnSelection fun r => .alike ⟨rfl, .refl _, rfl, rfl⟩

theorem step_setFilter (s : Sheet) (col : Nat) (order : Option SortOrder)
    (operator : FilterOperator) (values : List String) :
    Step s [] [] (s.setFilter col order operator values).1 := by
  unfold setFilter
  split
  · exact step_commit_same fun s => ⟨rfl, .refl _, rfl, rfl⟩
  · exact .refl s

/-- Every command between two states in the first half of the grid takes a step. The merges
    that it makes out of marks are its arrivals, and those that it leaves without a mark are
    its losses. -/
theorem step_run (hs : s.Below Address.reach) (c : Command)
    (hs' : (s.run c).1.Below Address.reach) :
    Step s (s.arrivals c) (s.losses c) (s.run c).1 := by
  -- Most commands have neither arrivals nor losses, whether or not they are applied.
  have hnone : ∀ {c : Command} {s' : Sheet}, s.arrivals c = [] → Step s [] (s.losses c) s' →
      Step s (s.arrivals c) (s.losses c) s' := fun harrivals h => by rwa [harrivals]
  have hquiet : ∀ {c : Command} {s' : Sheet}, s.arrivals c = [] ∧ s.losses c = [] →
      Step s [] [] s' → Step s (s.arrivals c) (s.losses c) s' := fun hboth h => by
    rwa [hboth.1, hboth.2]
  cases c with
  | paste mode =>
    have hlosses : s.losses (.paste mode) = [] := ite_self _
    rw [hlosses]
    exact step_paste hs mode
  | fill dst mode =>
    have hlosses : s.losses (.fill dst mode) = [] := ite_self _
    rw [hlosses]
    exact step_fill s dst mode
  | clearSelected mode => exact hnone (ite_self _) (step_clearSelected s mode)
  | editSelected e => exact hnone (ite_self _) (step_editSelected s e)
  | unmerge => exact hnone (ite_self _) (step_unmerge s)
  | select | selectCell | selectRow | selectColumn | extendTo | clearClipboard | refreshView =>
    exact hquiet ⟨ite_self _, ite_self _⟩ ((Step.refl s).same ⟨rfl, rfl, rfl, rfl⟩)
  | typeText c text state => exact hquiet ⟨ite_self _, ite_self _⟩ (step_typeText c text state)
  | typeActive text state => exact hquiet ⟨ite_self _, ite_self _⟩ (step_typeActive text state)
  | merge => exact hquiet ⟨ite_self _, ite_self _⟩ (step_merge s)
  | undo => exact hquiet ⟨ite_self _, ite_self _⟩ (step_undo s)
  | redo => exact hquiet ⟨ite_self _, ite_self _⟩ (step_redo s)
  | copy => exact hquiet ⟨ite_self _, ite_self _⟩ (step_copy s)
  | cut => exact hquiet ⟨ite_self _, ite_self _⟩ (step_cut s)
  | pasteText text =>
    exact hquiet ⟨ite_self _, ite_self _⟩ <| step_commitOnSelection fun r =>
      .alike ⟨rfl, Rows.sameMarks_typeBlock _ _ _, rfl, rfl⟩
  | insertAt axis index n => exact hquiet ⟨ite_self _, ite_self _⟩ (step_insertAt hs hs')
  | deleteAt axis a b => exact hquiet ⟨ite_self _, ite_self _⟩ (step_deleteAt hs axis a b)
  | insertSelected axis n =>
    exact hquiet ⟨ite_self _, ite_self _⟩ (step_insertSelected hs hs')
  | deleteSelected axis => exact hquiet ⟨ite_self _, ite_self _⟩ (step_deleteSelected hs axis)
  | setRowHeight row h =>
    exact hquiet ⟨ite_self _, ite_self _⟩ <| step_commit_same fun s =>
      ⟨rfl, Rows.sameMarks_editRow fun _ => rfl, rfl, rfl⟩
  | setColumnWidth | setFreeze | addRule =>
    exact hquiet ⟨ite_self _, ite_self _⟩ <| step_commit_same fun s => ⟨rfl, .refl _, rfl, rfl⟩
  | hideSelected => exact hquiet ⟨ite_self _, ite_self _⟩ (step_hideSelected s)
  | unhideBefore axis index =>
    exact hquiet ⟨ite_self _, ite_self _⟩ (step_unhideBefore s axis index)
  | removeRules =>
    exact hquiet ⟨ite_self _, ite_self _⟩ <| step_commitOnSelection fun r =>
      .alike ⟨rfl, .refl _, rfl, rfl⟩
  | toggleFilter => exact hquiet ⟨ite_self _, ite_self _⟩ (step_toggleFilter s)
  | setFilter col order operator values =>
    exact hquiet ⟨ite_self _, ite_self _⟩ (step_setFilter s col order operator values)
  | scrollX x => exact hquiet ⟨ite_self _, ite_self _⟩ (step_scroll _ _)
  | scrollY y => exact hquiet ⟨ite_self _, ite_self _⟩ (step_scroll _ _)

end

end Sheet

end Worksheet
