import Worksheet.Proofs.Address.Moving
import Worksheet.Proofs.Grid
import Worksheet.Proofs.Merges
import Worksheet.Proofs.Rows.LineEdit

/-!
# Merges in an Edit of Lines

What becomes of a merge when lines are inserted or deleted.

An edit either moves a merge as a whole, or leaves it, or goes through it, or
deletes its first line and with that the merge. `Shifted` says which, along the
axis of the edit and for both kinds of edits alike, since the code asks about
lines and not about cells. What is left of a merge begins and ends where its
first and last lines are after the edit, so merges that had no cell in common
still have none.

The grid ends, and two things can happen there. A merge that would be moved past
the end is not registered any more. One that would be widened past it ends with
the grid.

## Main definitions

* `LineEdit.newLast`: Where a range ends after the edit.
* `Merges.Shifted`: What becomes of a merge.

## Theorems

* `Merges.shifted`: Every edit does one of these things to a merge.
* `Merges.Shifted.lines`: Where the merge begins and ends then.
* `Merges.Apart.shift`: Merges stay apart.
-/

namespace Worksheet

open Address

/-- The other axis. -/
def Axis.other : Axis → Axis
  | .row => .column
  | .column => .row

/-! ## Ranges along an axis -/

namespace Range

variable {axis : Axis} {r r' : Range}

theorem firstLine_le_lastLine (axis : Axis) (r : Range) : r.firstLine axis ≤ r.lastLine axis := by
  cases axis with
  | row => exact r.top_le_bottom
  | column => exact r.left_le_right

theorem line_first (axis : Axis) (r : Range) : r.first.line axis = r.firstLine axis := by
  cases axis <;> rfl

theorem firstLine_spanning (axis : Axis) (c : CellRef) (rows cols : Nat) :
    (spanning c rows cols).firstLine axis = c.line axis := by
  cases axis <;> rfl

theorem intersects_iff_lines (axis : Axis) : r.intersects r' = true ↔
    (r.firstLine axis ≤ r'.lastLine axis ∧ r'.firstLine axis ≤ r.lastLine axis) ∧
      r.firstLine axis.other ≤ r'.lastLine axis.other ∧
      r'.firstLine axis.other ≤ r.lastLine axis.other := by
  rw [intersects_iff]
  cases axis with
  | row =>
    simp only [firstLine, lastLine, Axis.other]
    omega
  | column =>
    simp only [firstLine, lastLine, Axis.other]
    omega

theorem within_iff_lines (axis : Axis) : r.within r' = true ↔
    (r'.firstLine axis ≤ r.firstLine axis ∧ r.lastLine axis ≤ r'.lastLine axis) ∧
      r'.firstLine axis.other ≤ r.firstLine axis.other ∧
      r.lastLine axis.other ≤ r'.lastLine axis.other := by
  rw [within_iff]
  cases axis with
  | row =>
    simp only [firstLine, lastLine, Axis.other]
    omega
  | column =>
    simp only [firstLine, lastLine, Axis.other]
    omega

theorem isMultiple_iff_lines (axis : Axis) : r.isMultiple = true ↔
    r.firstLine axis < r.lastLine axis ∨
      r.firstLine axis.other < r.lastLine axis.other := by
  rw [isMultiple_iff]
  cases axis with
  | row => rfl
  | column => exact or_comm

theorem lines_move? {d : Int} (h : r.move? (axis.displacement d) = some r') :
    (r'.firstLine axis : Int) = r.firstLine axis + d ∧
      (r'.lastLine axis : Int) = r.lastLine axis + d ∧
      r'.firstLine axis.other = r.firstLine axis.other ∧
      r'.lastLine axis.other = r.lastLine axis.other := by
  rw [move?_eq_some_iff] at h
  cases axis with
  | row =>
    simp only [Axis.displacement, firstLine, lastLine, Axis.other] at h ⊢
    omega
  | column =>
    simp only [Axis.displacement, firstLine, lastLine, Axis.other] at h ⊢
    omega

/-- A range that is stretched ends where it has to, or with the grid. -/
theorem lines_stretch {d : Int} (h : (r.firstLine axis : Int) ≤ r.lastLine axis + d)
    (hgrid : r.firstLine axis < gridLimit) :
    (r.stretch axis d).firstLine axis = r.firstLine axis ∧
      (r.stretch axis d).lastLine axis = clamp (r.lastLine axis + d) ∧
      (r.stretch axis d).firstLine axis.other = r.firstLine axis.other ∧
      (r.stretch axis d).lastLine axis.other = r.lastLine axis.other := by
  have htop := r.top_le_bottom
  have hleft := r.left_le_right
  have hclamp : r.firstLine axis ≤ clamp (r.lastLine axis + d) := by
    unfold clamp
    generalize gridLimit = limit at *
    omega
  cases axis with
  | row =>
    simp only [stretch, between, first, firstLine, lastLine, Axis.other] at hclamp ⊢
    omega
  | column =>
    simp only [stretch, between, first, firstLine, lastLine, Axis.other] at hclamp ⊢
    omega

/-- A range that loses lines loses cells. -/
theorem count_stretch_le {d : Int} (h : (r.firstLine axis : Int) ≤ r.lastLine axis + d)
    (hneg : d ≤ 0) (hgrid : r.Below gridLimit) : (r.stretch axis d).count ≤ r.count := by
  have hlast := hgrid.lastLine axis
  obtain ⟨hfirst, hclamp, hother, hother'⟩ :=
    lines_stretch h (Nat.lt_of_le_of_lt (r.firstLine_le_lastLine axis) hlast)
  have hclamp' : clamp (r.lastLine axis + d) ≤ r.lastLine axis := by
    unfold clamp
    generalize gridLimit = limit at *
    omega
  refine count_le_of_within ((within_iff_lines axis).2 ?_)
  omega

/-- A range that is moved ends on the grid. -/
theorem lastLine_lt_of_move? {d : Displacement} (h : r.move? d = some r') :
    r'.lastLine axis < gridLimit := by
  obtain ⟨⟨-, -, hbottom⟩, -, -, hright⟩ := move?_eq_some_iff.1 h
  cases axis with
  | row => exact hbottom
  | column => exact hright

/-- A range can be moved along an axis if both of its ends stay on the grid. -/
theorem exists_move? {d : Int} (hfirst : 0 ≤ (r.firstLine axis : Int) + d)
    (hlast : (r.lastLine axis : Int) + d < gridLimit) (hother : r.lastLine axis.other < gridLimit) :
    ∃ r', r.move? (axis.displacement d) = some r' := by
  have htop := r.top_le_bottom
  have hleft := r.left_le_right
  cases axis with
  | row =>
    simp only [firstLine, lastLine, Axis.other] at hfirst hlast hother
    refine ⟨⟨((r.top : Int) + d).toNat, r.left, ((r.bottom : Int) + d).toNat, r.right, by omega,
      hleft⟩, move?_eq_some_iff.2 ?_⟩
    generalize gridLimit = limit at *
    simp only [Axis.displacement]
    omega
  | column =>
    simp only [firstLine, lastLine, Axis.other] at hfirst hlast hother
    refine ⟨⟨r.top, ((r.left : Int) + d).toNat, r.bottom, ((r.right : Int) + d).toNat, htop,
      by omega⟩, move?_eq_some_iff.2 ?_⟩
    generalize gridLimit = limit at *
    simp only [Axis.displacement]
    omega

/-- Is a line one of the lines of a range, but not the first? -/
def Straddles (axis : Axis) (line : Nat) (r : Range) : Prop :=
  r.firstLine axis < line ∧ line ≤ r.lastLine axis

instance (axis : Axis) (line : Nat) (r : Range) : Decidable (r.Straddles axis line) :=
  inferInstanceAs (Decidable (_ ∧ _))

end Range

/-! ## Edits -/

namespace LineEdit

/-- The first of the lines that are inserted or deleted. -/
def start : LineEdit → Nat
  | .insert _ first _ => first
  | .delete _ first _ _ => first

/-- Where the last line of a range is after the edit: with the line, if that stays,
    and before the deleted lines, if it is one of them. -/
def newLast : LineEdit → Nat → Nat
  | .insert _ first n, i => if first ≤ i then i + n else i
  | .delete _ first last _, i =>
    if last < i then i - (last + 1 - first) else if first ≤ i then first - 1 else i

theorem distance_delete_ne_zero {axis : Axis} {first last : Nat} (h : first ≤ last) :
    (delete axis first last h).distance ≠ 0 := by
  show -((last - first + 1 : Nat) : Int) ≠ 0
  omega

/-- A line that comes after a range whose first line stays still does. -/
theorem newLast_lt {e : LineEdit} {first i j : Nat} (hfirst : e.KeepsLine first) (hi : first ≤ i)
    (hij : i < j) (hj : e.KeepsLine j) : e.newLast i < e.newLine j := by
  cases e with
  | insert axis first n =>
    simp only [newLast, newLine]
    grind
  | delete axis first last hle =>
    simp only [newLast, newLine, KeepsLine] at hfirst hj ⊢
    grind

/-- A range that an insertion does not push off the grid ends on it. -/
theorem newLast_insert_lt {axis : Axis} {first n limit i : Nat} (hi : i < limit)
    (hroom : first ≤ i → i + n < limit) : (insert axis first n).newLast i < limit := by
  simp only [newLast]
  split
  · exact hroom ‹_›
  · exact hi

/-- A deletion pushes nothing off the grid. -/
theorem newLast_delete_lt {axis : Axis} {first last limit i : Nat} {hspan : first ≤ last}
    (hi : i < limit) : (delete axis first last hspan).newLast i < limit := by
  simp only [newLast]
  split
  · omega
  · split <;> omega

/-- Lines before the edit stay where they are. -/
theorem newLine_of_lt_start {e : LineEdit} {i : Nat} (h : i < e.start) :
    e.KeepsLine i ∧ e.newLine i = i ∧ e.newLast i = i := by
  cases e with
  | insert axis first n =>
    have hne : ¬first ≤ i := Nat.not_le.2 h
    exact ⟨trivial, if_neg hne, if_neg hne⟩
  | delete axis first last hle =>
    have hfirst : i < first := h
    have hlast : ¬last < i := by omega
    exact ⟨.inl hfirst, if_neg hlast, by simp only [newLast]; grind⟩

end LineEdit

namespace Merges

/-- What becomes of a merge in an edit of lines, and the change of its span. -/
inductive Shifted (e : LineEdit) (r : Range) : Option Range × Option SpanChange → Prop where
  /-- The merge comes after the edited lines. -/
  | moved (hkeeps : e.KeepsLine (r.firstLine e.axis))
      (hfirst : (e.newLine (r.firstLine e.axis) : Int) = r.firstLine e.axis + e.distance)
      (hlast : (e.newLast (r.lastLine e.axis) : Int) = r.lastLine e.axis + e.distance) :
      Shifted e r (r.move? (e.axis.displacement e.distance), none)
  /-- The merge comes before them. -/
  | stays (hbefore : r.lastLine e.axis < e.start) : Shifted e r (some r, none)
  /-- The merge begins before them and they go through it. -/
  | through (d : Int) (hstart : r.firstLine e.axis < e.start)
      (hlast : (e.newLast (r.lastLine e.axis) : Int) = r.lastLine e.axis + d)
      (hle : (r.firstLine e.axis : Int) ≤ r.lastLine e.axis + d) :
      Shifted e r (if (r.stretch e.axis d).isMultiple then some (r.stretch e.axis d) else none,
        some ⟨r.first, e.axis.displacement d⟩)
  /-- The first line of the merge is deleted. -/
  | gone (hgone : ¬e.KeepsLine (r.firstLine e.axis)) : Shifted e r (none, none)

theorem shifted_insert {axis : Axis} {first n : Nat} (hn : 0 < n) {r : Range}
    (hgrid : r.lastLine axis < gridLimit) :
    Shifted (.insert axis first n) r (shiftRange axis first n r) := by
  have hpos : (0 : Int) < n := by omega
  have hle := r.firstLine_le_lastLine axis
  rw [shiftRange, if_pos hpos]
  by_cases hbefore : first ≤ r.firstLine axis
  · have hinside : first ≤ r.lastLine axis := Nat.le_trans hbefore hle
    rw [if_pos hbefore]
    refine .moved trivial ?_ ?_
    · change ((if first ≤ r.firstLine axis then r.firstLine axis + n else _ : Nat) : Int) = _
      rw [if_pos hbefore]
      rfl
    · change ((if first ≤ r.lastLine axis then r.lastLine axis + n else _ : Nat) : Int) = _
      rw [if_pos hinside]
      rfl
  · rw [if_neg hbefore]
    have hstart : r.firstLine axis < first := Nat.not_le.1 hbefore
    by_cases hinside : first ≤ r.lastLine axis
    · rw [if_pos hinside]
      obtain ⟨hfirst, hclamp, -⟩ : _ ∧ (r.stretch axis n).lastLine axis = _ ∧ _ :=
        Range.lines_stretch (by omega) (Nat.lt_of_le_of_lt hle hgrid)
      have hmultiple : (r.stretch axis n).isMultiple = true := by
        refine (Range.isMultiple_iff_lines axis).2 (.inl ?_)
        rw [hfirst, hclamp]
        unfold clamp
        generalize gridLimit = limit at *
        omega
      have hlast : ((if first ≤ r.lastLine axis then r.lastLine axis + n
          else r.lastLine axis : Nat) : Int) = r.lastLine axis + n := by
        rw [if_pos hinside]
        rfl
      have hthrough : Shifted (.insert axis first n) r
          (if (r.stretch axis n).isMultiple then some (r.stretch axis n) else none,
            some ⟨r.first, axis.displacement n⟩) := by
        refine .through n hstart hlast ?_
        change (r.firstLine axis : Int) ≤ r.lastLine axis + n
        omega
      rwa [if_pos hmultiple] at hthrough
    · rw [if_neg hinside]
      exact .stays (Nat.not_le.1 hinside)

/-- The deleted lines end where they should, since that is an index. -/
theorem last_deleted {first last : Nat} (hspan : first ≤ last) (hlast : last < gridLimit) :
    (first + (-((last - first + 1 : Nat) : Int)).natAbs - 1) % gridLimit = last := by
  have hstop : first + (-((last - first + 1 : Nat) : Int)).natAbs - 1 = last := by omega
  rw [hstop, Nat.mod_eq_of_lt hlast]

/-- The lines that a merge loses are counted right, since no more are deleted than a signed
    number can say. -/
theorem signed_lost {first last stop : Nat} (hcount : last - first + 1 ≤ Address.reach)
    (hfirst : first ≤ min stop last) :
    signed ((first : Int) - (min stop last + 1 : Nat)) =
      -((min stop last - first + 1 : Nat) : Int) := by
  rw [signed_of_bounds (by omega) (by omega)]
  omega

theorem shifted_delete {axis : Axis} {first last : Nat} (hspan : first ≤ last)
    (hcount : last - first + 1 ≤ Address.reach) (hlast : last < gridLimit) {r : Range}
    (hgrid : r.Below gridLimit) :
    Shifted (.delete axis first last hspan) r
      (shiftRange axis first (-((last - first + 1 : Nat) : Int)) r) := by
  have hneg : ¬0 < -((last - first + 1 : Nat) : Int) := by omega
  have hle := r.firstLine_le_lastLine axis
  rw [shiftRange, if_neg hneg]
  simp only [last_deleted hspan hlast]
  by_cases hbefore : last < r.firstLine axis
  · rw [if_pos hbefore]
    refine .moved (.inr hbefore) ?_ ?_
    · change ((if last < r.firstLine axis then r.firstLine axis - (last + 1 - first)
        else _ : Nat) : Int) = r.firstLine axis + -((last - first + 1 : Nat) : Int)
      rw [if_pos hbefore]
      omega
    · change ((if last < r.lastLine axis then r.lastLine axis - (last + 1 - first)
        else _ : Nat) : Int) = r.lastLine axis + -((last - first + 1 : Nat) : Int)
      rw [if_pos (Nat.lt_of_lt_of_le hbefore hle)]
      omega
  · rw [if_neg hbefore]
    by_cases hafter : r.lastLine axis < first
    · rw [if_pos hafter]
      exact .stays hafter
    · rw [if_neg hafter]
      by_cases hstays : r.firstLine axis < first
      · rw [if_pos hstays, signed_lost hcount (by omega)]
        have hle' : (r.firstLine axis : Int) ≤
            r.lastLine axis + -((min (r.lastLine axis) last - first + 1 : Nat) : Int) := by
          omega
        have hfewer := Range.count_stretch_le hle' (by omega) hgrid
        simp only [Range.one_lt_tally_iff (Nat.lt_of_le_of_lt hfewer hgrid.count)]
        refine .through _ hstays ?_ hle'
        · change ((if last < r.lastLine axis then r.lastLine axis - (last + 1 - first)
            else if first ≤ r.lastLine axis then first - 1 else _ : Nat) : Int) =
              r.lastLine axis + -((min (r.lastLine axis) last - first + 1 : Nat) : Int)
          by_cases hpast : last < r.lastLine axis
          · rw [if_pos hpast]
            omega
          · rw [if_neg hpast, if_pos (Nat.not_lt.1 hafter)]
            omega
      · rw [if_neg hstays]
        refine .gone fun hkeeps => ?_
        rcases hkeeps with hlt | hlt
        · exact hstays hlt
        · exact hbefore hlt

/-- Every edit of lines does one of these things to a merge. -/
theorem shifted {e : LineEdit} (hn : e.distance ≠ 0) (hreach : e.InReach) {r : Range}
    (hgrid : r.Below gridLimit) : Shifted e r (shiftRange e.axis e.start e.distance r) := by
  cases e with
  | insert axis first n =>
    exact shifted_insert (Nat.pos_of_ne_zero fun hzero => hn (congrArg Nat.cast hzero))
      (hgrid.lastLine axis)
  | delete axis first last hspan =>
    exact shifted_delete hspan (Nat.le_of_lt hreach.1) (Nat.lt_of_succ_lt hreach.2) hgrid

variable {e : LineEdit} {r r' : Range} {out : Option Range × Option SpanChange}

/-- What an edit makes of a merge begins and ends where its first and last lines are
    after the edit, if that is on the grid. -/
theorem Shifted.lines (h : Shifted e r out) (hgrid : r.lastLine e.axis < gridLimit)
    (hr' : out.1 = some r') :
    e.KeepsLine (r.firstLine e.axis) ∧
      r'.firstLine e.axis = e.newLine (r.firstLine e.axis) ∧
      r'.lastLine e.axis = min (e.newLast (r.lastLine e.axis)) (gridLimit - 1) ∧
      r'.firstLine e.axis.other = r.firstLine e.axis.other ∧
      r'.lastLine e.axis.other = r.lastLine e.axis.other := by
  cases h with
  | moved hkeeps hfirst hlast =>
    have hend : r'.lastLine e.axis < gridLimit := Range.lastLine_lt_of_move? hr'
    obtain ⟨hfirst', hlast', hother⟩ := Range.lines_move? hr'
    generalize gridLimit = limit at *
    exact ⟨hkeeps, by omega, by omega, hother⟩
  | stays hbefore =>
    cases hr'
    have hfirst := LineEdit.newLine_of_lt_start
      (Nat.lt_of_le_of_lt (r.firstLine_le_lastLine e.axis) hbefore)
    have hlast := LineEdit.newLine_of_lt_start hbefore
    refine ⟨hfirst.1, hfirst.2.1.symm, ?_, rfl, rfl⟩
    rw [hlast.2.2, Nat.min_eq_left (Nat.le_sub_one_of_lt hgrid)]
  | through d hstart hlast hle =>
    have hfirst := LineEdit.newLine_of_lt_start hstart
    obtain ⟨hfirst', hlast', hother⟩ := Range.lines_stretch hle
      (Nat.lt_of_le_of_lt (r.firstLine_le_lastLine e.axis) hgrid)
    simp only [Option.ite_none_right_eq_some, Option.some.injEq] at hr'
    obtain ⟨-, rfl⟩ := hr'
    rw [← hlast] at hlast'
    exact ⟨hfirst.1, by omega, hlast', hother⟩
  | gone hgone => cases hr'

theorem Shifted.isMultiple (h : Shifted e r out) (hr' : out.1 = some r')
    (hr : r.isMultiple = true) : r'.isMultiple = true := by
  cases h with
  | moved hkeeps hfirst hlast => rw [Range.isMultiple_move hr', hr]
  | stays hbefore =>
    cases hr'
    exact hr
  | through d hstart hlast hle =>
    simp only [Option.ite_none_right_eq_some, Option.some.injEq] at hr'
    rw [← hr'.2, hr'.1]
  | gone hgone => cases hr'

theorem ranges_shift {m : Merges} {axis : Axis} {index : Nat} {n : Int} (hn : n ≠ 0) :
    (m.shift axis index n).1.ranges =
      m.ranges.filterMap fun r => (shiftRange axis index n r).1 := by
  simp only [shift, if_neg hn, List.filterMap_map]
  rfl

theorem changes_shift {m : Merges} {axis : Axis} {index : Nat} {n : Int} (hn : n ≠ 0) :
    (m.shift axis index n).2 = m.ranges.filterMap fun r => (shiftRange axis index n r).2 := by
  simp only [shift, if_neg hn, List.filterMap_map]
  rfl

/-- The span of a merge changes in an insertion when it goes through the merge. -/
theorem change_insert {axis : Axis} {index n : Nat} (hn : 0 < n) (r : Range) :
    (shiftRange axis index n r).2 =
      if r.Straddles axis index then some ⟨r.first, axis.displacement n⟩ else none := by
  have hpos : (0 : Int) < n := by omega
  rw [shiftRange, if_pos hpos]
  by_cases hbefore : index ≤ r.firstLine axis
  · rw [if_pos hbefore, if_neg fun h => Nat.not_lt.2 hbefore h.1]
  · rw [if_neg hbefore]
    by_cases hinside : index ≤ r.lastLine axis
    · have hthrough : r.Straddles axis index := ⟨Nat.not_le.1 hbefore, hinside⟩
      rw [if_pos hinside, if_pos hthrough]
    · rw [if_neg hinside, if_neg fun h => hinside h.2]

/-- Merges that are apart stay apart in an edit of lines. -/
theorem Apart.shift {m : Merges} (h : m.Apart) (hn : e.distance ≠ 0) (hgrid : m.Below gridLimit)
    (hshifted : ∀ r ∈ m.ranges, Shifted e r (shiftRange e.axis e.start e.distance r)) :
    (m.shift e.axis e.start e.distance).1.Apart := by
  have hfilter := h.filterMap (f := fun r => (shiftRange e.axis e.start e.distance r).1)
    (fun r hr r' hr' => (hshifted r hr).isMultiple hr' (h.multiple r hr))
    fun a ha b hb hab a' ha' b' hb' => by
      obtain ⟨hkeepsa, hfirsta, hlasta, hothera, hothera'⟩ :=
        (hshifted a ha).lines ((hgrid a ha).lastLine e.axis) ha'
      obtain ⟨hkeepsb, hfirstb, hlastb, hotherb, hotherb'⟩ :=
        (hshifted b hb).lines ((hgrid b hb).lastLine e.axis) hb'
      have hlea := a.firstLine_le_lastLine e.axis
      have hleb := b.firstLine_le_lastLine e.axis
      rw [Bool.eq_false_iff, ne_eq, Range.intersects_iff_lines e.axis] at hab ⊢
      rintro ⟨⟨hab', hba'⟩, hother⟩
      rw [hfirsta, hlastb] at hab'
      rw [hfirstb, hlasta] at hba'
      rw [hothera, hotherb', hotherb, hothera'] at hother
      -- Neither of them comes after the other, so they met before the edit.
      refine hab ⟨⟨Nat.not_lt.1 fun hlt => ?_, Nat.not_lt.1 fun hlt => ?_⟩, hother⟩
      · have := LineEdit.newLast_lt hkeepsb hleb hlt hkeepsa
        omega
      · have := LineEdit.newLast_lt hkeepsa hlea hlt hkeepsb
        omega
  rw [← ranges_shift hn] at hfilter
  exact hfilter

end Merges

end Worksheet
