import Mathlib.Order.Interval.Finset.Nat
import Worksheet.Proofs.Sheet.Lines

/-!
# Merges as Sets of Cells

That the merges after an edit of lines are the images of the merges before it.

A merge covers its cells before the edit, and afterwards it covers these same cells where
they are then, without those that were deleted. If lines are inserted between two of its
lines, it covers the part of them between its edges as well, which is what makes it a
rectangle again. So an edit is described by what it does to cells, and nothing has to be
said about edges.

A merge that loses its first line is gone, and so is one of which a single cell is left.
All others stay registered in their order. Only an insertion can lose other merges, by
pushing them past the last line of the grid. A deletion has to end before that line, or
it is not known where it ends.

## Main definitions

* `LineEdit.Maps`: A range that begins and ends where the lines of another one went.
* `LineEdit.Inserts`: The lines that are inserted.
* `Merges.InsertionImage`, `Merges.DeletionImage`: What an edit makes of a merge.

## Theorems

* `LineEdit.between_iff`: The lines of a range after the edit.
* `LineEdit.Maps.mem_iff`: The cells of a range after the edit.
* `Merges.Shifted.exists_range`: Merges that stay registered.
* `Merges.shift_image`: Every insertion and deletion.
* `Merges.shift_image_off_grid`: Merges that are pushed off the grid, and lines that are
  counted past it.
-/

namespace Worksheet

open Address

/-! ## Cells along an axis -/

namespace CellRef

variable {axis : Axis} {c d : CellRef}

theorem ext_lines (axis : Axis) (h : c.line axis = d.line axis)
    (hother : c.line axis.other = d.line axis.other) : c = d := by
  obtain ⟨row, col⟩ := c
  obtain ⟨row', col'⟩ := d
  rw [CellRef.mk.injEq]
  cases axis with
  | row => exact ⟨h, hother⟩
  | column => exact ⟨hother, h⟩

theorem line_mapLine (axis : Axis) (f : Nat → Nat) (c : CellRef) :
    (c.mapLine axis f).line axis = f (c.line axis) ∧
      (c.mapLine axis f).line axis.other = c.line axis.other := by
  cases axis <;> exact ⟨rfl, rfl⟩

end CellRef

namespace Range

variable {r : Range} {c : CellRef}

theorem mem_iff_lines (axis : Axis) : r.mem c = true ↔
    (r.firstLine axis ≤ c.line axis ∧ c.line axis ≤ r.lastLine axis) ∧
      r.firstLine axis.other ≤ c.line axis.other ∧ c.line axis.other ≤ r.lastLine axis.other := by
  rw [mem_iff]
  cases axis with
  | row => exact and_assoc.symm
  | column =>
    simp only [firstLine, lastLine, CellRef.line, Axis.other]
    omega

/-- A range is multiple when it has two cells. -/
theorem isMultiple_iff_exists_ne :
    r.isMultiple = true ↔ ∃ c d, c ≠ d ∧ r.mem c = true ∧ r.mem d = true := by
  have htop := r.top_le_bottom
  have hleft := r.left_le_right
  rw [isMultiple_iff]
  constructor
  · intro h
    refine ⟨r.first, r.last, fun heq => ?_, mem_first r, ?_⟩
    · simp only [first, last, CellRef.mk.injEq] at heq
      omega
    · simp only [mem_iff, last]
      omega
  · rintro ⟨⟨row, col⟩, ⟨row', col'⟩, hne, hc, hd⟩
    simp only [mem_iff, ne_eq, CellRef.mk.injEq] at hne hc hd
    omega

end Range

/-! ## Ranges after an edit -/

namespace LineEdit

/-- Is a line one of those that are inserted? -/
def Inserts : LineEdit → Nat → Prop
  | .insert _ first n, i => first ≤ i ∧ i < first + n
  | .delete _ _ _ _, _ => False

/-- Does a range begin where the first line of another one is after the edit, and end
    where the last one is? -/
structure Maps (e : LineEdit) (r r' : Range) : Prop where
  first : r'.firstLine e.axis = e.newLine (r.firstLine e.axis)
  last : r'.lastLine e.axis = e.newLast (r.lastLine e.axis)
  other_first : r'.firstLine e.axis.other = r.firstLine e.axis.other
  other_last : r'.lastLine e.axis.other = r.lastLine e.axis.other

variable {e : LineEdit} {r r' : Range}

/-- What lies between the first line and the last one after the edit are the lines that
    were between them and stay, and the lines that were inserted there. -/
theorem between_iff {first last j : Nat} (hfirst : e.KeepsLine first) (hle : first ≤ last) :
    (e.newLine first ≤ j ∧ j ≤ e.newLast last) ↔
      (∃ i, (first ≤ i ∧ i ≤ last) ∧ e.KeepsLine i ∧ e.newLine i = j) ∨
        (first < e.start ∧ e.start ≤ last) ∧ e.Inserts j := by
  cases e with
  | insert axis start n =>
    simp only [newLine, newLast, KeepsLine, Inserts, LineEdit.start, true_and]
    constructor
    · intro h
      rcases Nat.lt_or_ge j start with hbefore | hstart
      · exact .inl ⟨j, by grind, by grind⟩
      · rcases Nat.lt_or_ge j (start + n) with hinserted | hafter
        · exact .inr (by grind)
        · exact .inl ⟨j - n, by grind, by grind⟩
    · rintro (⟨i, hi, rfl⟩ | h)
      · grind
      · grind
  | delete axis start stop hspan =>
    simp only [newLine, newLast, KeepsLine, Inserts, and_false, or_false] at hfirst ⊢
    constructor
    · intro h
      rcases Nat.lt_or_ge j start with hbefore | hstart
      · exact ⟨j, by grind, by grind, by grind⟩
      · exact ⟨j + (stop + 1 - start), by grind, by grind, by grind⟩
    · rintro ⟨i, hi, hkeeps, rfl⟩
      grind

theorem relabel_eq_iff {c c' : CellRef} : e.relabel c = c' ↔
    e.newLine (c.line e.axis) = c'.line e.axis ∧ c.line e.axis.other = c'.line e.axis.other := by
  obtain ⟨hline, hother⟩ := c.line_mapLine e.axis e.newLine
  constructor
  · rintro rfl
    exact ⟨hline.symm, hother.symm⟩
  · rintro ⟨hline', hother'⟩
    exact CellRef.ext_lines e.axis (hline.trans hline') (hother.trans hother')

namespace Maps

/-- The range covers the cells that stay where they are after the edit, and the inserted
    lines across it if there are lines of it on both sides of them. -/
theorem mem_iff (h : e.Maps r r') (hfirst : e.KeepsLine (r.firstLine e.axis)) {c' : CellRef} :
    r'.mem c' = true ↔ (∃ c, r.mem c = true ∧ e.Keeps c ∧ e.relabel c = c') ∨
      r.Straddles e.axis e.start ∧ e.Inserts (c'.line e.axis) ∧
        r.firstLine e.axis.other ≤ c'.line e.axis.other ∧
        c'.line e.axis.other ≤ r.lastLine e.axis.other := by
  rw [Range.mem_iff_lines e.axis, h.first, h.last, h.other_first, h.other_last,
    between_iff hfirst (r.firstLine_le_lastLine e.axis), or_and_right, and_assoc]
  refine or_congr_left ⟨?_, ?_⟩
  · rintro ⟨⟨i, hi, hkeeps, hnew⟩, hother⟩
    -- The cell on that line in line with the given one.
    obtain ⟨hline, hsame⟩ := c'.line_mapLine e.axis fun _ => i
    refine ⟨c'.mapLine e.axis fun _ => i, ?_, ?_, relabel_eq_iff.2 ⟨?_, hsame⟩⟩
    · rw [Range.mem_iff_lines e.axis, hline, hsame]
      exact ⟨hi, hother⟩
    · rw [Keeps, hline]
      exact hkeeps
    · rw [hline, hnew]
  · rintro ⟨c, hc, hkeeps, hrelabel⟩
    obtain ⟨hnew, hsame⟩ := relabel_eq_iff.1 hrelabel
    obtain ⟨hlines, hother⟩ := (Range.mem_iff_lines e.axis).1 hc
    exact ⟨⟨c.line e.axis, hlines, hkeeps, hnew⟩, hsame ▸ hother⟩

/-- Two cells that stay are two cells after the edit. -/
theorem isMultiple (h : e.Maps r r') (hfirst : e.KeepsLine (r.firstLine e.axis))
    (hkept : ∃ c d, c ≠ d ∧ (r.mem c = true ∧ e.Keeps c) ∧ r.mem d = true ∧ e.Keeps d) :
    r'.isMultiple = true := by
  obtain ⟨c, d, hne, ⟨hc, hkeepsc⟩, hd, hkeepsd⟩ := hkept
  refine Range.isMultiple_iff_exists_ne.2 ⟨e.relabel c, e.relabel d,
    fun heq => hne (e.relabel_inj hkeepsc hkeepsd heq), ?_, ?_⟩
  · exact (h.mem_iff hfirst).2 (.inl ⟨c, hc, hkeepsc, rfl⟩)
  · exact (h.mem_iff hfirst).2 (.inl ⟨d, hd, hkeepsd, rfl⟩)

/-- A deletion puts nothing in between. -/
theorem mem_iff_of_delete {axis : Axis} {first last : Nat} {hspan : first ≤ last}
    (h : (delete axis first last hspan).Maps r r')
    (hfirst : (delete axis first last hspan).KeepsLine (r.firstLine axis)) {c' : CellRef} :
    r'.mem c' = true ↔ ∃ c, r.mem c = true ∧ (delete axis first last hspan).Keeps c ∧
      (delete axis first last hspan).relabel c = c' :=
  (h.mem_iff hfirst).trans (or_iff_left fun hinserted => hinserted.2.1)

/-- Two cells that are there after a deletion were two cells that stay. -/
theorem exists_ne_of_delete {axis : Axis} {first last : Nat} {hspan : first ≤ last}
    (h : (delete axis first last hspan).Maps r r')
    (hfirst : (delete axis first last hspan).KeepsLine (r.firstLine axis))
    (hmultiple : r'.isMultiple = true) :
    ∃ c d, c ≠ d ∧ (r.mem c = true ∧ (delete axis first last hspan).Keeps c) ∧
      r.mem d = true ∧ (delete axis first last hspan).Keeps d := by
  obtain ⟨c', d', hne, hc', hd'⟩ := Range.isMultiple_iff_exists_ne.1 hmultiple
  obtain ⟨c, hc, hkeepsc, rfl⟩ := (h.mem_iff_of_delete hfirst).1 hc'
  obtain ⟨d, hd, hkeepsd, rfl⟩ := (h.mem_iff_of_delete hfirst).1 hd'
  exact ⟨c, d, fun heq => hne (heq ▸ rfl), ⟨hc, hkeepsc⟩, hd, hkeepsd⟩

end Maps

end LineEdit

/-! ## Merges after an edit -/

namespace Merges

variable {e : LineEdit} {r r' : Range} {out : Option Range × Option SpanChange}

theorem Shifted.maps (h : Shifted e r out) (hlast : r.lastLine e.axis < gridLimit)
    (hnew : e.newLast (r.lastLine e.axis) < gridLimit) (hr' : out.1 = some r') :
    e.KeepsLine (r.firstLine e.axis) ∧ e.Maps r r' := by
  obtain ⟨hkeeps, hfirst, hend, hother, hother'⟩ := h.lines hlast hr'
  rw [Nat.min_eq_left (Nat.le_sub_one_of_lt hnew)] at hend
  exact ⟨hkeeps, hfirst, hend, hother, hother'⟩

/-- A merge stays registered if its first line and two of its cells stay, and it is not
    pushed off the grid. -/
theorem Shifted.exists_range (h : Shifted e r out) (hfirst : e.KeepsLine (r.firstLine e.axis))
    (hkept : ∃ c d, c ≠ d ∧ (r.mem c = true ∧ e.Keeps c) ∧ r.mem d = true ∧ e.Keeps d)
    (hgrid : r.Below gridLimit) (hnew : e.newLast (r.lastLine e.axis) < gridLimit) :
    ∃ r', out.1 = some r' := by
  cases h with
  | moved hkeeps hnewFirst hnewLast =>
    exact Range.exists_move? (by omega) (by omega) (hgrid.lastLine _)
  | stays hbefore => exact ⟨r, rfl⟩
  | through d hstart hnewLast hle =>
    obtain ⟨hfirst', hlast', hother', hother''⟩ := Range.lines_stretch hle
      (Nat.lt_of_le_of_lt (r.firstLine_le_lastLine e.axis) (hgrid.lastLine e.axis))
    have hclamp := clamp_of_lt (i := r.lastLine e.axis + d) (by omega) (by omega)
    have hmaps : e.Maps r (r.stretch e.axis d) := by
      refine ⟨?_, by omega, hother', hother''⟩
      rw [hfirst', (LineEdit.newLine_of_lt_start hstart).2.1]
    exact ⟨_, if_pos (hmaps.isMultiple hfirst hkept)⟩
  | gone hgone => exact absurd hfirst hgone

/-- A merge that is pushed off the grid is gone. -/
theorem shiftRange_off_grid {axis : Axis} {index n : Nat} (hn : 0 < n)
    (hbefore : index ≤ r.firstLine axis) (hoff : gridLimit ≤ r.lastLine axis + n) :
    (shiftRange axis index n r).1 = none := by
  have hpos : (0 : Int) < n := by omega
  rw [shiftRange, if_pos hpos, if_pos hbefore]
  refine Option.eq_none_iff_forall_ne_some.2 fun r' hr' => ?_
  have hlast := (Range.lines_move? hr').2.1
  have honGrid : r'.lastLine axis < gridLimit := Range.lastLine_lt_of_move? hr'
  omega

theorem card_deleted {a b first last : Nat} (ha : a < first) (hb : first ≤ b) (hle : first ≤ last) :
    (Finset.Icc a b ∩ Finset.Icc first last).card = min b last - first + 1 := by
  have hinter : Finset.Icc a b ∩ Finset.Icc first last = Finset.Icc first (min b last) := by
    ext i
    simp only [Finset.mem_inter, Finset.mem_Icc]
    omega
  rw [hinter, Nat.card_Icc]
  omega

/-- The span of a merge changes in a deletion when the deletion begins in the merge, by
    the lines of the merge that are deleted. -/
theorem change_delete {axis : Axis} {first last : Nat} (hspan : first ≤ last)
    (hcount : last - first + 1 ≤ Address.reach) (hlast : last < gridLimit) (r : Range) :
    (shiftRange axis first (-((last - first + 1 : Nat) : Int)) r).2 =
      if r.Straddles axis first then
        some ⟨r.first, axis.displacement
          (-((Finset.Icc (r.firstLine axis) (r.lastLine axis) ∩ Finset.Icc first last).card : Int))⟩
      else none := by
  have hneg : ¬0 < -((last - first + 1 : Nat) : Int) := by omega
  rw [shiftRange, if_neg hneg]
  simp only [last_deleted hspan hlast]
  by_cases hbefore : last < r.firstLine axis
  · rw [if_pos hbefore, if_neg fun h => Nat.lt_asymm h.1 (Nat.lt_of_le_of_lt hspan hbefore)]
  · rw [if_neg hbefore]
    by_cases hafter : r.lastLine axis < first
    · rw [if_pos hafter, if_neg fun h => Nat.not_le.2 hafter h.2]
    · rw [if_neg hafter]
      by_cases hstays : r.firstLine axis < first
      · have hinside : first ≤ r.lastLine axis := Nat.not_lt.1 hafter
        have hthrough : r.Straddles axis first := ⟨hstays, hinside⟩
        rw [if_pos hstays, if_pos hthrough, card_deleted hstays hinside hspan,
          signed_lost hcount (Nat.le_min.2 ⟨hinside, hspan⟩)]
      · rw [if_neg hstays, if_neg fun h => hstays h.1]

/-- Is something what an insertion of `n` lines makes of a merge? The merge covers the cells
    that it covered, where they are then, and the inserted lines across it if they are put
    between two of its lines. Merges are lost when they are pushed off the grid. -/
structure InsertionImage (axis : Axis) (index n : Nat) (r : Range) (image : Option Range) :
    Prop where
  covers : (index ≤ r.lastLine axis → r.lastLine axis + n < gridLimit) →
    ∃ r', image = some r' ∧ ∀ c', r'.mem c' = true ↔
      (∃ c, r.mem c = true ∧ (LineEdit.insert axis index n).relabel c = c') ∨
        r.Straddles axis index ∧ (index ≤ c'.line axis ∧ c'.line axis < index + n) ∧
          r.firstLine axis.other ≤ c'.line axis.other ∧ c'.line axis.other ≤ r.lastLine axis.other
  lost : index ≤ r.firstLine axis → gridLimit ≤ r.lastLine axis + n → image = none

/-- Is something what a deletion makes of a merge? The merge survives when its first line
    and more than one of its cells stay, and covers the cells that stay, where they are
    then. -/
structure DeletionImage (e : LineEdit) (r : Range) (image : Option Range) : Prop where
  survives : image.isSome = true ↔ e.KeepsLine (r.firstLine e.axis) ∧
    ∃ c d, c ≠ d ∧ (r.mem c = true ∧ e.Keeps c) ∧ r.mem d = true ∧ e.Keeps d
  covers : ∀ r', image = some r' → ∀ c', r'.mem c' = true ↔
    ∃ c, r.mem c = true ∧ e.Keeps c ∧ e.relabel c = c'

theorem insertionImage {axis : Axis} {index n : Nat} (hn : 0 < n) (hr : r.isMultiple = true)
    (hgrid : r.Below gridLimit) :
    InsertionImage axis index n r (shiftRange axis index n r).1 where
  covers hroom := by
    have hlast : r.lastLine axis < gridLimit := hgrid.lastLine axis
    have hshifted : Shifted (.insert axis index n) r (shiftRange axis index n r) :=
      shifted_insert hn hlast
    have hnew : (LineEdit.insert axis index n).newLast (r.lastLine axis) < gridLimit :=
      LineEdit.newLast_insert_lt hlast hroom
    obtain ⟨c, d, hne, hc, hd⟩ := Range.isMultiple_iff_exists_ne.1 hr
    obtain ⟨r', hr'⟩ := hshifted.exists_range trivial ⟨c, d, hne, ⟨hc, trivial⟩, hd, trivial⟩
      hgrid hnew
    obtain ⟨hfirst, hmaps⟩ := hshifted.maps hlast hnew hr'
    refine ⟨r', hr', fun c' => (hmaps.mem_iff hfirst).trans (or_congr_left ?_)⟩
    exact exists_congr fun c => and_congr_right fun _ => ⟨And.right, fun hc => ⟨trivial, hc⟩⟩
  lost hbefore hoff := shiftRange_off_grid hn hbefore hoff

theorem deletionImage {axis : Axis} {first last : Nat} (hspan : first ≤ last)
    (hcount : last - first + 1 ≤ Address.reach) (hstop : last < gridLimit)
    (hr : r.isMultiple = true) (hgrid : r.Below gridLimit) :
    DeletionImage (.delete axis first last hspan) r
      (shiftRange axis first (-((last - first + 1 : Nat) : Int)) r).1 := by
  have hshifted : Shifted (.delete axis first last hspan) r _ :=
    shifted_delete hspan hcount hstop hgrid
  have hlast : r.lastLine axis < gridLimit := hgrid.lastLine axis
  have hnew : (LineEdit.delete axis first last hspan).newLast (r.lastLine axis) < gridLimit :=
    LineEdit.newLast_delete_lt hlast
  refine ⟨⟨fun hsome => ?_, fun ⟨hfirst, hkept⟩ => ?_⟩, fun r' hr' c' => ?_⟩
  · obtain ⟨r', hr'⟩ := Option.isSome_iff_exists.1 hsome
    obtain ⟨hfirst, hmaps⟩ := hshifted.maps hlast hnew hr'
    exact ⟨hfirst, hmaps.exists_ne_of_delete hfirst (hshifted.isMultiple hr' hr)⟩
  · exact Option.isSome_iff_exists.2 (hshifted.exists_range hfirst hkept hgrid hnew)
  · obtain ⟨hfirst, hmaps⟩ := hshifted.maps hlast hnew hr'
    exact hmaps.mem_iff_of_delete hfirst

/-- The merges after an edit of lines are the images of the merges before it, in their
    order. They are apart, and the changes of span that are reported are those of the
    merges that the edit goes through, by the lines that these gain or lose. Numbers of lines
    are signed, with sixty-four bits, and a deletion ends before the last line of the grid. -/
theorem shift_image (m : Merges) (axis : Axis) (h : m.Apart) (hgrid : m.Below gridLimit) :
    (∀ index n : Nat, 0 < n → n < Address.reach →
      let after := m.shift axis index n
      (∃ image : Range → Option Range, after.1.ranges = m.ranges.filterMap image ∧
        ∀ r ∈ m.ranges, InsertionImage axis index n r (image r)) ∧
      after.1.Apart ∧
      after.2 = m.ranges.filterMap fun r =>
        if r.Straddles axis index then some ⟨r.first, axis.displacement n⟩ else none) ∧
    ∀ first last (hspan : first ≤ last), last - first + 1 ≤ Address.reach →
      last + 1 < gridLimit →
      let after := m.shift axis first (-((last - first + 1 : Nat) : Int))
      (∃ image : Range → Option Range, after.1.ranges = m.ranges.filterMap image ∧
        ∀ r ∈ m.ranges, DeletionImage (.delete axis first last hspan) r (image r)) ∧
      after.1.Apart ∧
      after.2 = m.ranges.filterMap fun r =>
        if r.Straddles axis first then
          some ⟨r.first, axis.displacement
            (-((Finset.Icc (r.firstLine axis) (r.lastLine axis) ∩
              Finset.Icc first last).card : Int))⟩
        else none := by
  refine ⟨fun index n hn _ => ?_, fun first last hspan hcount hend => ?_⟩
  · have hne : (LineEdit.insert axis index n).distance ≠ 0 :=
      Int.natCast_ne_zero.2 (Nat.ne_of_gt hn)
    refine ⟨⟨_, ranges_shift hne, fun r hr => insertionImage hn (h.multiple r hr) (hgrid r hr)⟩,
      h.shift hne hgrid fun r hr => shifted_insert hn ((hgrid r hr).lastLine axis),
      (changes_shift hne).trans ?_⟩
    exact congrArg (List.filterMap · m.ranges) (funext fun r => change_insert hn r)
  · have hne : (LineEdit.delete axis first last hspan).distance ≠ 0 :=
      LineEdit.distance_delete_ne_zero hspan
    have hstop : last < gridLimit := Nat.lt_of_succ_lt hend
    refine ⟨⟨_, ranges_shift hne, fun r hr => deletionImage hspan hcount hstop (h.multiple r hr)
      (hgrid r hr)⟩, h.shift hne hgrid fun r hr => shifted_delete hspan hcount hstop (hgrid r hr),
      (changes_shift hne).trans ?_⟩
    exact congrArg (List.filterMap · m.ranges)
      (funext fun r => change_delete hspan hcount hstop r)

/-- Two rows are put into the first merge and before the second one, or the last row of both
    is deleted. -/
theorem shift_image_two :
    let a : Range := { top := 1, left := 1, bottom := 3, right := 1 }
    let b : Range := { top := 2, left := 3, bottom := 3, right := 4 }
    let m : Merges := ⟨[a, b]⟩
    m.Apart ∧ m.Below gridLimit ∧
      (∃ r ∈ (m.shift .row 2 2).1.ranges, ∀ c', r.mem c' = true ↔
        (∃ c, a.mem c = true ∧ (LineEdit.insert .row 2 2).relabel c = c') ∨
          a.Straddles .row 2 ∧ (2 ≤ c'.row ∧ c'.row < 2 + 2) ∧ 1 ≤ c'.col ∧ c'.col ≤ 1) ∧
      (m.shift .row 2 2).2 = [⟨⟨1, 1⟩, ⟨0, 2⟩⟩] ∧
      (m.shift .row 3 (-1)).1.Apart ∧
      (m.shift .row 3 (-1)).2 = [⟨⟨1, 1⟩, ⟨0, -1⟩⟩, ⟨⟨2, 3⟩, ⟨0, -1⟩⟩] := by
  intro a b m
  have hapart : m.Apart := by decide
  have hgrid : m.Below gridLimit := by decide
  obtain ⟨hinsert, hdelete⟩ := shift_image m .row hapart hgrid
  obtain ⟨⟨image, hranges, himage⟩, -, hinserted⟩ := hinsert 2 2 (by decide) (by decide)
  obtain ⟨-, hafter, hdeleted⟩ := hdelete 3 3 (by decide) (by decide) (by decide)
  obtain ⟨r, hr, hcells⟩ := (himage a (by decide)).covers (by decide)
  refine ⟨hapart, hgrid, ⟨r, ?_, hcells⟩, hinserted.trans (by decide), hafter,
    hdeleted.trans (by decide)⟩
  exact hranges.symm ▸ List.mem_filterMap.2 ⟨a, by decide, hr⟩

/-- A merge of two rows, the last of which is the last but one of the grid, is pushed on by
    two rows, and is not registered any more. When the rows that are deleted are counted past
    the end of the grid, a merge that comes before all of them is taken for deleted. And a
    merge that is left with 2 ^ 64 cells is taken for a single one. -/
theorem shift_image_off_grid :
    let late : Merges := ⟨[.between ⟨gridLimit - 3, 0⟩ ⟨gridLimit - 2, 0⟩]⟩
    let early : Merges := ⟨[.between ⟨10, 0⟩ ⟨11, 1⟩]⟩
    let large : Merges := ⟨[.between .origin ⟨2 ^ 32, 2 ^ 32 - 1⟩]⟩
    (late.Apart ∧ late.Below gridLimit ∧ (late.shift .row 0 2).1.ranges = []) ∧
    (early.Apart ∧ early.Below gridLimit ∧
      (∀ r ∈ early.ranges, r.bottom < Address.reach + 5) ∧
      (early.shift .row (Address.reach + 5) (-Address.reach)).1.ranges = []) ∧
    large.Apart ∧ (∀ r ∈ large.ranges, r.bottom < Address.reach ∧ r.right < Address.reach) ∧
      (large.shift .row 5 (-1)).1.ranges = [] := by
  decide

end Merges

end Worksheet
