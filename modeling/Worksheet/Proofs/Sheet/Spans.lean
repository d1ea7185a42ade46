import Mathlib.Logic.Function.Iterate
import Worksheet.Proofs.Rows.Undoing
import Worksheet.Proofs.Sheet.Lines

/-!
# Changes of Spans That Are Undone

Deleting the lines that were just inserted restores the merges and their marks.

A merge is moved, or widened, or left where it is, and the deletion undoes whichever it
was, since the inserted lines are where the insertion put them. With a merge that is
widened the mark of its first cell changes, once for each time that the registry names
the merge, and it is changed back as often. A mark that says what its merge covers is
never zero on the way, so no mark is dropped.

## Main definitions

* `Merges.undone`: The change of a span that undoes a change.
* `Sheet.respan`: What changes of spans make of a mark.

## Theorems

* `Merges.shift_delete_insert`: The registry is as it was, and every change is undone.
* `Sheet.respan_undone`: A mark is as it was, however often it is changed.
-/

namespace Worksheet

/-! ## Merges -/

namespace Merges

/-- The change of a span that undoes the one that an insertion of `n` lines made. -/
def undone (axis : Axis) (n : Nat) (change : SpanChange) : SpanChange :=
  ⟨change.anchor, axis.displacement (-(n : Int))⟩

variable {axis : Axis} {first n : Nat}

/-- A range that has a notation after the insertion reaches no further than the grid. -/
theorem lastLine_lt_of_fits {r : Range}
    (hfits : ((LineEdit.insert axis first n).relabel r.last).Fits)
    (hinside : first ≤ r.lastLine axis) : r.lastLine axis + n + 1 < Address.gridLimit ∧
      r.lastLine axis.other + 1 < Address.gridLimit := by
  have hnew : (LineEdit.insert axis first n).newLine (r.lastLine axis) = r.lastLine axis + n :=
    if_pos hinside
  rw [← hnew]
  cases axis with
  | row => exact hfits
  | column => exact hfits.symm

/-- It can be moved back, since it comes from where there is a grid. -/
theorem move?_back {r r' : Range} (h : r.move? (axis.displacement n) = some r') :
    r'.move? (axis.displacement (-(n : Int))) = some r := by
  rw [Range.move?_eq_some_iff] at h ⊢
  generalize Address.gridLimit = limit at *
  cases axis with
  | row =>
    simp only [Axis.displacement] at h ⊢
    omega
  | column =>
    simp only [Axis.displacement] at h ⊢
    omega

/-- A range that was widened is narrowed again. -/
theorem stretch_stretch {r : Range} (hroom : r.lastLine axis + n < Address.gridLimit) :
    (r.stretch axis n).stretch axis (-(n : Int)) = r ∧ (r.stretch axis n).first = r.first := by
  have htop := r.top_le_bottom
  have hleft := r.left_le_right
  rw [Range.eq_iff]
  cases axis with
  | row =>
    simp only [Range.stretch, Range.between, Range.first, Range.lastLine, Address.clamp,
      CellRef.mk.injEq] at hroom ⊢
    generalize Address.gridLimit = limit at *
    omega
  | column =>
    simp only [Range.stretch, Range.between, Range.first, Range.lastLine, Address.clamp,
      CellRef.mk.injEq] at hroom ⊢
    generalize Address.gridLimit = limit at *
    omega

/-- A merge that stays on the grid when lines are inserted is as it was when they are
    deleted, and so is its span. -/
theorem shiftRange_delete_insert (hn : 0 < n) (hreach : n < Address.reach)
    (hgrid : first + n < Address.gridLimit) {r : Range} (hr : r.isMultiple = true)
    (hcount : r.count < Address.gridLimit)
    (hfits : ((LineEdit.insert axis first n).relabel r.last).Fits) :
    ∃ r', (shiftRange axis first n r).1 = some r' ∧
      shiftRange axis first (-(n : Int)) r' =
        (some r, (shiftRange axis first n r).2.map (undone axis n)) := by
  have hle := r.firstLine_le_lastLine axis
  have hup : (0 : Int) < n := by omega
  have hdown : ¬(0 : Int) < -(n : Int) := by omega
  have hlast : (first + (-(n : Int)).natAbs - 1) % Address.gridLimit = first + n - 1 := by
    rw [Nat.mod_eq_of_lt (by omega)]
    omega
  have hneg (r' : Range) : shiftRange axis first (-(n : Int)) r' = _ := if_neg hdown
  simp only [hlast] at hneg
  rw [shiftRange, if_pos hup]
  by_cases hbefore : first ≤ r.firstLine axis
  · -- The merge is moved there and back.
    rw [if_pos hbefore]
    obtain ⟨hroom, hother⟩ := lastLine_lt_of_fits hfits (Nat.le_trans hbefore hle)
    obtain ⟨r', hr'⟩ : ∃ r', r.move? (axis.displacement n) = some r' :=
      Range.exists_move? (by omega) (by omega) (by omega)
    obtain ⟨hfirst, -⟩ := Range.lines_move? hr'
    refine ⟨r', hr', (hneg r').trans ?_⟩
    rw [if_pos (by omega), move?_back hr']
    rfl
  · rw [if_neg hbefore]
    by_cases hinside : first ≤ r.lastLine axis
    · -- The merge is widened, and all that it gained is taken from it.
      rw [if_pos hinside]
      obtain ⟨hroom, -⟩ := lastLine_lt_of_fits hfits hinside
      obtain ⟨hfirst, hclamp, -⟩ : (r.stretch axis n).firstLine axis = r.firstLine axis ∧
          (r.stretch axis n).lastLine axis = Address.clamp (r.lastLine axis + n) ∧ _ :=
        Range.lines_stretch (by omega) (by omega)
      have hstretch : (r.stretch axis n).lastLine axis = r.lastLine axis + n :=
        hclamp.trans (Address.clamp_natCast (by omega))
      obtain ⟨hback, hanchor⟩ : (r.stretch axis n).stretch axis (-(n : Int)) = r ∧
        (r.stretch axis n).first = r.first := stretch_stretch (by omega)
      have hlost : Address.signed ((first : Int) -
          (min ((r.stretch axis n).lastLine axis) (first + n - 1) + 1 : Nat)) = -(n : Int) := by
        rw [signed_lost (by omega) (by omega)]
        omega
      refine ⟨_, rfl, (hneg _).trans ?_⟩
      rw [if_neg (by omega), if_neg (by omega), if_pos (by omega), hlost, hback,
        if_pos ((Range.one_lt_tally_iff hcount).2 hr), hanchor]
      rfl
    · rw [if_neg hinside]
      refine ⟨r, rfl, (hneg r).trans ?_⟩
      rw [if_neg (by omega), if_pos (by omega)]
      rfl

/-- Merges that stay on the grid when lines are inserted are as they were when these are
    deleted, and every change of a span is undone. -/
theorem shift_delete_insert (hn : 0 < n) (hreach : n < Address.reach)
    (hgrid : first + n < Address.gridLimit) {m : Merges}
    (hmultiple : ∀ r ∈ m.ranges, r.isMultiple = true)
    (hcount : ∀ r ∈ m.ranges, r.count < Address.gridLimit)
    (hfits : ∀ r ∈ m.ranges, ((LineEdit.insert axis first n).relabel r.last).Fits) :
    (m.shift axis first n).1.shift axis first (-(n : Int)) =
      (m, (m.shift axis first n).2.map (undone axis n)) := by
  have hup : (n : Int) ≠ 0 := by omega
  have hdown : -(n : Int) ≠ 0 := by omega
  have hranges (l : List Range) (hl : ∀ r ∈ l, r ∈ m.ranges) :
      (l.filterMap fun r => (shiftRange axis first n r).1).filterMap
          (fun r => (shiftRange axis first (-(n : Int)) r).1) = l ∧
        (l.filterMap fun r => (shiftRange axis first n r).1).filterMap
            (fun r => (shiftRange axis first (-(n : Int)) r).2) =
          (l.filterMap fun r => (shiftRange axis first n r).2).map (undone axis n) := by
    induction l with
    | nil => exact ⟨rfl, rfl⟩
    | cons r l ih =>
      have hr := hl r List.mem_cons_self
      obtain ⟨r', hinsert, hdelete⟩ :=
        shiftRange_delete_insert hn hreach hgrid (hmultiple r hr) (hcount r hr) (hfits r hr)
      obtain ⟨hmerges, hchanges⟩ := ih fun x hx => hl x (List.mem_cons_of_mem _ hx)
      simp only [List.filterMap_cons, hinsert, hdelete, hmerges, hchanges, true_and]
      cases (shiftRange axis first n r).2 <;> rfl
  obtain ⟨hmerges, hchanges⟩ := hranges m.ranges fun _ hr => hr
  rw [← ranges_shift hup, ← ranges_shift hdown] at hmerges
  rw [← ranges_shift hup, ← changes_shift hdown, ← changes_shift hup] at hchanges
  exact Prod.ext (congrArg Merges.mk hmerges) hchanges

/-- A span is changed by the inserted lines, and its merge begins before them. -/
theorem mem_changes_insert (hn : 0 < n) {m : Merges} {change : SpanChange}
    (h : change ∈ (m.shift axis first n).2) :
    (∃ r ∈ m.ranges, r.Straddles axis first ∧ change.anchor = r.first) ∧
      change.anchor.line axis < first ∧ change.change = axis.displacement n := by
  rw [changes_shift (by omega), List.mem_filterMap] at h
  obtain ⟨r, hr, hchange⟩ := h
  rw [change_insert hn, Option.ite_none_right_eq_some, Option.some.injEq] at hchange
  obtain ⟨hthrough, rfl⟩ := hchange
  exact ⟨⟨r, hr, hthrough, rfl⟩, (Range.line_first axis r).trans_lt hthrough.1, rfl⟩

/-- The mark of a merge is changed once for each time that the registry names the merge. -/
theorem countP_changes_insert_le (axis : Axis) (first : Nat) (hn : 0 < n) {m : Merges} {r : Range}
    (h : ∀ x ∈ m.ranges, x.first = r.first → x = r) :
    ((m.shift axis first n).2.countP fun change => r.first = change.anchor) ≤
      m.ranges.count r := by
  rw [changes_shift (by omega), List.countP_filterMap, List.count]
  refine List.countP_mono_left fun x hx hchange => ?_
  rw [change_insert hn] at hchange
  split at hchange
  · exact beq_iff_eq.2 (h x hx (of_decide_eq_true hchange).symm)
  · cases hchange

end Merges

/-! ## Marks -/

theorem Span.ne_zero_iff {span : Span} : span ≠ .zero ↔ 0 < span.rows ∨ 0 < span.cols := by
  obtain ⟨rows, cols⟩ := span
  simp only [Span.zero, ne_eq, mk.injEq]
  omega

theorem Span.changed_eq_some {span span' : Span} {d : Displacement}
    (hrows : (span'.rows : Int) = span.rows + d.rows)
    (hcols : (span'.cols : Int) = span.cols + d.cols) (h : span' ≠ .zero)
    (hgrid : span'.rows < Address.gridLimit ∧ span'.cols < Address.gridLimit) :
    span.changed d = some span' := by
  have heq : (⟨Address.clamp (span.rows + d.rows), Address.clamp (span.cols + d.cols)⟩ : Span) =
      span' := by
    rw [← hrows, ← hcols, Address.clamp_natCast hgrid.1, Address.clamp_natCast hgrid.2]
  unfold changed
  simp only [heq]
  rw [if_neg h]

/-- The lines of a span along an axis. -/
def Span.lines (axis : Axis) (span : Span) : Nat :=
  match axis with
  | .row => span.rows
  | .column => span.cols

/-- A span with lines added. -/
def Span.widen (axis : Axis) (span : Span) (lines : Nat) : Span :=
  match axis with
  | .row => ⟨span.rows + lines, span.cols⟩
  | .column => ⟨span.rows, span.cols + lines⟩

/-- A span that is not zero is widened by lines that are put in, and is as it was when
    they are taken out, as long as the grid is wide enough. -/
theorem Span.changed_widen {span : Span} (h : span ≠ .zero) (axis : Axis) {n k : Nat}
    (hroom : span.lines axis + (k + n) < Address.gridLimit)
    (hother : span.lines axis.other < Address.gridLimit) :
    (span.widen axis k).changed (axis.displacement n) = some (span.widen axis (k + n)) ∧
      (span.widen axis (k + n)).changed (axis.displacement (-(n : Int))) =
        some (span.widen axis k) := by
  have hpos := Span.ne_zero_iff.1 h
  have hwidened (k : Nat) : span.widen axis k ≠ .zero := by
    rw [Span.ne_zero_iff]
    cases axis with
    | row => exact hpos.imp_left (Nat.lt_of_lt_of_le · (Nat.le_add_right _ _))
    | column => exact hpos.imp_right (Nat.lt_of_lt_of_le · (Nat.le_add_right _ _))
  refine ⟨Span.changed_eq_some ?_ ?_ (hwidened _) ?_, Span.changed_eq_some ?_ ?_ (hwidened _) ?_⟩
  all_goals
    generalize Address.gridLimit = limit at *
    cases axis
  all_goals
    simp only [Span.lines, Span.widen, Axis.other, Axis.displacement] at hroom hother ⊢
    omega

/-- Changing a span as often as it was changed before restores it. The last change is
    undone first. -/
theorem Span.iterate_changed {d d' : Displacement} {k : Nat} (f : Nat → Span)
    (h : ∀ i < k, (f i).changed d = some (f (i + 1)) ∧ (f (i + 1)).changed d' = some (f i)) :
    (fun mark : Option Span => mark.bind (·.changed d'))^[k]
      ((fun mark : Option Span => mark.bind (·.changed d))^[k] (some (f 0))) = some (f 0) := by
  induction k with
  | zero => rfl
  | succ k ih =>
    have hup (j : Nat) (hj : j ≤ k) :
        (fun mark : Option Span => mark.bind (·.changed d))^[j] (some (f 0)) = some (f j) := by
      induction j with
      | zero => rfl
      | succ j ihj =>
        rw [Function.iterate_succ_apply', ihj (by omega), Option.bind_some, (h j (by omega)).1]
    have hback := ih fun i hi => h i (Nat.lt_succ_of_lt hi)
    rw [hup k le_rfl] at hback
    rw [Function.iterate_succ_apply' _ k (some (f 0)), hup k le_rfl, Option.bind_some,
      (h k (Nat.lt_succ_self k)).1, Function.iterate_succ_apply, Option.bind_some,
      (h k (Nat.lt_succ_self k)).2, hback]

/-- The cell with the span of its merge changed. -/
def Cell.respan (mark : Option Span → Option Span) (cell : Cell) : Cell :=
  { cell with merge := mark cell.merge }

/-- What holds of the text of every stored cell, and of no text, holds of the text of
    every cell. -/
theorem Rows.forall_content {P : String → Prop} {s : Rows} (hempty : P "")
    (h : ∀ e ∈ s.cells, P e.2.content) (c : CellRef) : P (s.content c) := by
  unfold content
  split
  · rename_i cell hcell
    exact h (c, cell) (mem_cells_iff.2 hcell)
  · exact hempty

namespace Sheet

/-- What changes of spans make of the mark of a cell. -/
def respan (changes : List SpanChange) (c : CellRef) (mark : Option Span) : Option Span :=
  changes.foldl (fun mark change =>
    if c = change.anchor then mark.bind (·.changed change.change) else mark) mark

theorem cell?_changeSpan (s : Rows) (change : SpanChange) (c : CellRef) :
    (changeSpan s change).cell? c = (s.cell? c).map (Cell.respan (respan [change] c)) := by
  rw [changeSpan, Rows.cell?_modifyCell]
  by_cases hc : c = change.anchor
  · subst hc
    rw [if_pos rfl]
    refine congrArg (Option.map · (s.cell? change.anchor)) (funext fun cell => ?_)
    simp only [Cell.respan, respan, List.foldl_cons, List.foldl_nil, if_true]
    obtain ⟨text, style, merge, editable, formula⟩ := cell
    cases merge <;> rfl
  · rw [if_neg hc]
    cases s.cell? c with
    | none => rfl
    | some cell =>
      simp only [Option.map_some, Cell.respan, respan, List.foldl_cons, List.foldl_nil, if_neg hc]

theorem cell?_foldl_changeSpan (changes : List SpanChange) (s : Rows) (c : CellRef) :
    (changes.foldl changeSpan s).cell? c =
      (s.cell? c).map (Cell.respan (respan changes c)) := by
  induction changes generalizing s with
  | nil => exact Option.map_id'.symm
  | cons change changes ih =>
    rw [List.foldl_cons, ih, cell?_changeSpan, Option.map_map]
    rfl

theorem bare_foldl_changeSpan (changes : List SpanChange) (s : Rows) :
    (changes.foldl changeSpan s).bare = s.bare := by
  induction changes generalizing s with
  | nil => rfl
  | cons change changes ih =>
    rw [List.foldl_cons, ih]
    exact Rows.bare_modifyCell _ _ _

/-- A mark that no change is about stays. -/
theorem respan_of_not_anchor {changes : List SpanChange} {c : CellRef}
    (h : ∀ change ∈ changes, change.anchor ≠ c) (mark : Option Span) :
    respan changes c mark = mark := by
  induction changes generalizing mark with
  | nil => rfl
  | cons change changes ih =>
    rw [respan, List.foldl_cons, if_neg fun hc => h change List.mem_cons_self hc.symm]
    exact ih (fun x hx => h x (List.mem_cons_of_mem _ hx)) mark

/-- Changes that are alike are made as often as they are about the cell. -/
theorem respan_eq_iterate {changes : List SpanChange} {c : CellRef} {d : Displacement}
    (h : ∀ change ∈ changes, change.change = d) (mark : Option Span) :
    respan changes c mark =
      (fun mark : Option Span => mark.bind (·.changed d))^[changes.countP fun change =>
        c = change.anchor] mark := by
  induction changes generalizing mark with
  | nil => rfl
  | cons change changes ih =>
    have hrest := ih fun x hx => h x (List.mem_cons_of_mem _ hx)
    rw [respan, List.foldl_cons, List.countP_cons]
    by_cases hc : c = change.anchor
    · rw [if_pos hc, if_pos (decide_eq_true hc), Function.iterate_succ_apply, ← hrest,
        h change List.mem_cons_self]
      rfl
    · rw [if_neg hc, if_neg (by simpa using hc)]
      exact hrest mark

/-- Changing a mark as often as it was changed before restores it, if there is room for
    all the changes at once. -/
theorem respan_undone {changes : List SpanChange} {axis : Axis} {n : Nat}
    (h : ∀ change ∈ changes, change.change = axis.displacement n) {c : CellRef} {span : Span}
    (hspan : span ≠ .zero)
    (hroom : span.lines axis + (changes.countP fun change => c = change.anchor) * n <
      Address.gridLimit)
    (hother : span.lines axis.other < Address.gridLimit) :
    respan (changes.map (Merges.undone axis n)) c (respan changes c (some span)) = some span := by
  have hundone : ∀ change ∈ changes.map (Merges.undone axis n),
      change.change = axis.displacement (-(n : Int)) := by
    intro change hchange
    obtain ⟨x, -, rfl⟩ := List.mem_map.1 hchange
    rfl
  have hnone : span.widen axis 0 = span := by cases axis <;> rfl
  rw [respan_eq_iterate h, respan_eq_iterate hundone, List.countP_map]
  refine (congrArg _ (congrArg _ (congrArg some ?_))).trans
    ((Span.iterate_changed (fun i => span.widen axis (i * n)) fun i hi => ?_).trans
      (congrArg some ?_))
  · rw [Nat.zero_mul, hnone]
  · have hle : (i + 1) * n ≤ (changes.countP fun change => c = change.anchor) * n :=
      Nat.mul_le_mul_right n hi
    rw [Nat.succ_mul] at hle ⊢
    exact Span.changed_widen hspan axis (by omega) hother
  · rw [Nat.zero_mul, hnone]

end Sheet

end Worksheet
