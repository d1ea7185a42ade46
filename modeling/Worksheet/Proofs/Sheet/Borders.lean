import Worksheet.Proofs.Sheet.Mirror
import Worksheet.Proofs.Sheet.Sharing
import Worksheet.Proofs.Sheet.Units

/-!
# The Outside Border and the Four Sides

What drawing around a selection does to the border of every cell, at once and side by
side.

Drawing puts edges over the border that a cell has, and leaves a cell alone where it has
no edge to put. So what it does to a sheet is said by the edges that each cell gets, and
drawing twice is drawing the edges of both. Both ways to draw around a selection come
down to a set of cells for each side: drawing a side puts the edge on the cells where a
walk along that side stops, and drawing the outside puts it on the first cell of every
unit that lies along it.

The two are not the same for every selection. A walk along a side stops at cells of a
merge that began elsewhere, while the outside is drawn on the first cell of a merge, be
it on that side or not. They agree where all merges of the selection are flush in it.

## Main definitions

* `Border.ofSides`, `Border.inked`: The same edge on some sides, and the look of a cell
  with edges drawn over its border.
* `Sheet.Drawn`: A sheet on which edges have been drawn.
* `Sheet.drawSides`: Sides of the selection drawn one after the other.

## Theorems

* `Border.inked_overlay`, `Drawn.trans`: Drawing twice.
* `drawn_side`, `drawn_outside`: The edges of a side and of the outside.
* `flushIn_of_border?_eq`: The two ways agree only where merges are flush.
* `border?_sides_outside`: The borders after the one and after the other.
-/

namespace Worksheet

/-- The edit that draws one side of the selection. -/
def BorderSide.mode : BorderSide → BorderMode
  | .top => .top
  | .bottom => .bottom
  | .left => .left
  | .right => .right

namespace Border

/-- The border with the same edge on some of its sides. -/
def ofSides (e : BorderEdge) (p : BorderSide → Bool) : Border :=
  { top := if p .top then some e else none
    bottom := if p .bottom then some e else none
    left := if p .left then some e else none
    right := if p .right then some e else none }

/-- The look of a cell after edges were drawn over its border. Where there is no edge
    to draw, it stays what it is. -/
def inked (edges : Border) (style : Option Style) : Option Style :=
  if edges.isEmpty then style else some ((style.getD .empty).drawBorder edges)

theorem eq_empty_of_isEmpty {b : Border} (h : b.isEmpty = true) : b = .empty := by
  obtain ⟨top, bottom, left, right⟩ := b
  simp only [isEmpty, Bool.and_eq_true, Option.isNone_iff_eq_none] at h
  simp only [h, empty]

@[simp] theorem overlay_empty (b : Border) : b.overlay empty = b := rfl

@[simp] theorem empty_overlay (b : Border) : empty.overlay b = b := by
  simp [overlay, empty]

theorem overlay_self (b : Border) : b.overlay b = b := by
  simp [overlay]

theorem overlay_assoc (a b c : Border) : (a.overlay b).overlay c = a.overlay (b.overlay c) := by
  simp [overlay, Option.or_assoc]

theorem isEmpty_overlay (a b : Border) : (a.overlay b).isEmpty = (a.isEmpty && b.isEmpty) := by
  simp only [isEmpty, overlay, Option.isNone_or]
  grind

@[simp] theorem inked_empty (style : Option Style) : empty.inked style = style := rfl

/-- Drawing twice is drawing the edges of both. -/
theorem inked_overlay (a b : Border) (style : Option Style) :
    (a.overlay b).inked style = b.inked (a.inked style) := by
  by_cases ha : a.isEmpty = true
  · rw [eq_empty_of_isEmpty ha, empty_overlay, inked_empty]
  · by_cases hb : b.isEmpty = true
    · rw [eq_empty_of_isEmpty hb, overlay_empty, inked_empty]
    · simp [inked, isEmpty_overlay, ha, hb, Style.drawBorder, overlay_assoc]

/-- Where there was no border, the drawn edges are the border. -/
theorem inked_border {style : Option Style} (h : style.bind Style.border = none)
    (edges : Border) :
    ((edges.inked style).bind Style.border).getD .empty = edges := by
  by_cases hedges : edges.isEmpty = true
  · rw [eq_empty_of_isEmpty hedges, inked_empty, h, Option.getD_none]
  · have hnone : (style.getD .empty).border = none := by
      cases style with
      | none => rfl
      | some style => exact h
    simp [inked, hedges, Style.drawBorder, hnone]

theorem ofSides_overlay (e : BorderEdge) (p q : BorderSide → Bool) :
    (ofSides e p).overlay (ofSides e q) = ofSides e fun d => p d || q d := by
  have hor (a b : Bool) : (if b then some e else none).or (if a then some e else none) =
      if a || b then some e else none := by
    cases a <;> cases b <;> rfl
  simp only [ofSides, overlay, hor]

theorem ofSides_inj {e : BorderEdge} {p q : BorderSide → Bool} :
    ofSides e p = ofSides e q ↔ ∀ d, p d = q d := by
  have hif (a b : Bool) : (if a then some e else none) = (if b then some e else none) ↔ a = b := by
    cases a <;> cases b <;> simp
  simp only [ofSides, Border.mk.injEq, hif]
  refine ⟨fun h d => ?_, fun h => ⟨h .top, h .bottom, h .left, h .right⟩⟩
  cases d with
  | top => exact h.1
  | bottom => exact h.2.1
  | left => exact h.2.2.1
  | right => exact h.2.2.2

end Border

namespace Sheet

variable {s s' s'' : Sheet}

/-! ## Drawing -/

/-- The border that a cell sets. -/
def border? (s : Sheet) (c : CellRef) : Option Border := (s.styleAt? c).bind Style.border

/-- A sheet after edges were drawn over the borders of its cells. -/
def Drawn (ink : CellRef → Border) (s s' : Sheet) : Prop :=
  Restyled (fun c => (ink c).inked) s s'

namespace Drawn

variable {ink ink' : CellRef → Border}

theorem refl (h : s.rows.StylesBelow s.styles.size) : Drawn (fun _ => .empty) s s :=
  (Restyled.refl h).congr fun _ _ => rfl

/-- Drawing twice is drawing the edges of both. -/
theorem trans (h : Drawn ink s s') (h' : Drawn ink' s' s'') :
    Drawn (fun c => (ink c).overlay (ink' c)) s s'' :=
  (Restyled.trans h h').congr fun _ style => Border.inked_overlay _ _ style

theorem congr (h : Drawn ink s s') (hink : ∀ c, ink' c = ink c) : Drawn ink' s s' :=
  Restyled.congr h fun c _ => by rw [hink]

theorem span_eq (h : Drawn ink s s') : s'.rows.span = s.rows.span := by
  ext c : 1
  rw [Rows.span_eq_mark, Rows.span_eq_mark, Restyled.mark h]

end Drawn

theorem drawn_drawBorder (h : s.rows.StylesBelow s.styles.size) {edges : Border}
    (hedges : edges.isEmpty = false) (c : CellRef) :
    Drawn (fun d => if d = c then edges else .empty) s (s.drawBorder edges c) := by
  refine (restyled_editStyle h (fun _ style => style.drawBorder edges) c).congr fun d style => ?_
  by_cases hd : d = c
  · simp [edited, hd, Border.inked, hedges]
  · simp [edited, hd]

/-! ## The outside -/

/-- The edges that a cell gets, if it is the first one of its unit. -/
def unitEdges (mode : BorderMode) (e : BorderEdge) (r : Range) (s : Sheet) (c : CellRef) :
    Border :=
  if (s.merges.unitAt c).first = c then edgesFor mode e r c (s.rows.span c) else .empty

theorem drawCell_eq (mode : BorderMode) (e : BorderEdge) (r : Range) (s : Sheet) (c : CellRef) :
    drawCell mode e r s c =
      if (unitEdges mode e r s c).isEmpty then s else s.drawBorder (unitEdges mode e r s c) c := by
  have hempty : Border.empty.isEmpty = true := rfl
  unfold drawCell unitEdges Merges.unitAt
  cases s.merges.firstAt? c with
  | none => simp [Range.single, Range.first]
  | some m =>
    by_cases hfirst : m.first = c
    · simp [hfirst]
    · simp [hfirst, hempty]

theorem drawn_drawCell (mode : BorderMode) (e : BorderEdge) (r : Range)
    (h : s.rows.StylesBelow s.styles.size) (c : CellRef) :
    Drawn (fun d => if d = c then unitEdges mode e r s c else .empty) s
      (drawCell mode e r s c) := by
  rw [drawCell_eq]
  by_cases hedges : (unitEdges mode e r s c).isEmpty = true
  · rw [if_pos hedges, Border.eq_empty_of_isEmpty hedges]
    exact (Drawn.refl h).congr fun d => ite_self _
  · rw [if_neg hedges]
    exact drawn_drawBorder h (Bool.eq_false_iff.2 hedges) c

/-- Drawing cell by cell draws the edges of each of them. -/
theorem drawn_foldl_drawCell (mode : BorderMode) (e : BorderEdge) (r : Range) (cs : List CellRef)
    (h : s.rows.StylesBelow s.styles.size) :
    Drawn (fun c => if c ∈ cs then unitEdges mode e r s c else .empty) s
      (cs.foldl (drawCell mode e r) s) := by
  induction cs generalizing s with
  | nil => exact (Drawn.refl h).congr fun c => if_neg List.not_mem_nil
  | cons c cs ih =>
    have hfirst := drawn_drawCell mode e r h c
    refine (hfirst.trans (ih hfirst.below)).congr fun d => ?_
    -- The edges of a cell do not depend on what was drawn before.
    have hsame : unitEdges mode e r (drawCell mode e r s c) d = unitEdges mode e r s d := by
      rw [unitEdges, hfirst.merges, hfirst.span_eq, unitEdges]
    rw [hsame]
    by_cases hd : d = c
    · subst hd
      by_cases hmem : d ∈ cs <;> simp [hmem, Border.overlay_self]
    · simp [hd]

/-! ## One side -/

/-- Draw edges at places of a line, where each cell is passed over by what it spans. This
    is what the walks along rows and columns have in common. -/
def drawAlong (edges : Border) (place : Nat → CellRef) (extent : Span → Nat) (last : Nat) :
    Nat → Nat → Sheet → Sheet
  | 0, _, s => s
  | fuel + 1, k, s =>
    if last < k then s
    else
      let s := s.drawBorder edges (place k)
      s.drawAlong edges place extent last fuel (k + extent (s.rows.span (place k)) + 1)

theorem drawAlongRow_eq (edges : Border) (row last fuel col : Nat) (s : Sheet) :
    s.drawAlongRow edges row last fuel col =
      s.drawAlong edges (⟨row, ·⟩) Span.cols last fuel col := by
  induction fuel generalizing col s with
  | zero => rfl
  | succ fuel ih => simp only [drawAlongRow, drawAlong, ih]

theorem drawAlongColumn_eq (edges : Border) (col last fuel row : Nat) (s : Sheet) :
    s.drawAlongColumn edges col last fuel row =
      s.drawAlong edges (⟨·, col⟩) Span.rows last fuel row := by
  induction fuel generalizing row s with
  | zero => rfl
  | succ fuel ih => simp only [drawAlongColumn, drawAlong, ih]

theorem drawn_drawAlong {edges : Border} (hedges : edges.isEmpty = false) (place : Nat → CellRef)
    (extent : Span → Nat) (last fuel k : Nat) (h : s.rows.StylesBelow s.styles.size) :
    Drawn (fun c =>
        if c ∈ (stops (fun k => extent (s.rows.span (place k))) last fuel k).map place then edges
        else .empty)
      s (s.drawAlong edges place extent last fuel k) := by
  induction fuel generalizing k s with
  | zero => exact (Drawn.refl h).congr fun c => if_neg List.not_mem_nil
  | succ fuel ih =>
    rw [drawAlong, stops]
    by_cases hend : last < k
    · simp only [if_pos hend]
      exact (Drawn.refl h).congr fun c => if_neg List.not_mem_nil
    · simp only [if_neg hend]
      have hfirst := drawn_drawBorder h hedges (place k)
      have hrest := ih (k + extent (s.rows.span (place k)) + 1) hfirst.below
      rw [hfirst.span_eq] at hrest ⊢
      refine (hfirst.trans hrest).congr fun c => ?_
      rw [List.map_cons]
      by_cases hc : c = place k
      · rw [if_pos (hc ▸ List.mem_cons_self), if_pos hc]
        split
        · exact (edges.overlay_self).symm
        · rfl
      · rw [if_neg hc, Border.empty_overlay]
        simp only [List.mem_cons, hc, false_or]

/-- Drawing a side puts its edge on the cells where the walk along it stops. -/
theorem drawn_side (e : BorderEdge) (r : Range) (d : BorderSide)
    (h : s.rows.StylesBelow s.styles.size) :
    Drawn (fun c => .ofSides e fun d' => decide (d' = d ∧ c ∈ sideStops s.rows r d')) s
      (drawBorders d.mode e r s) := by
  have hone : Drawn (fun c => if c ∈ sideStops s.rows r d then .ofSides e (· == d) else .empty) s
      (drawBorders d.mode e r s) := by
    cases d with
    | top | bottom =>
      simp only [BorderSide.mode, drawBorders, drawAlongRow_eq]
      exact drawn_drawAlong rfl _ _ _ _ _ h
    | left | right =>
      simp only [BorderSide.mode, drawBorders, drawAlongColumn_eq]
      exact drawn_drawAlong rfl _ _ _ _ _ h
  refine hone.congr fun c => ?_
  by_cases hc : c ∈ sideStops s.rows r d
  · rw [if_pos hc, Border.ofSides_inj]
    intro d'
    by_cases hd : d' = d
    · simp [hd, hc]
    · simp [hd]
  · have hnone : ∀ d', ¬(d' = d ∧ c ∈ sideStops s.rows r d') := by
      rintro d' ⟨rfl, hmem⟩
      exact hc hmem
    rw [if_neg hc]
    simp [hnone, Border.ofSides, Border.empty]

/-! ## Around the selection -/

theorem fourEdges_eq (e : BorderEdge) : fourEdges e = .ofSides e fun _ => true := rfl

theorem edgesFor_outside (e : BorderEdge) (r : Range) (c : CellRef) (span : Span) :
    edgesFor .outside e r c span = .ofSides e fun d => match d with
      | .top => c.row == r.top
      | .bottom => c.row + span.rows == r.bottom
      | .left => c.col == r.left
      | .right => c.col + span.cols == r.right := rfl

/-- A selection that is one cell to the user has all four edges on its first cell. -/
theorem drawn_outside_of_isSingle (hsingle : s.isSingle = true) (e : BorderEdge) (r : Range)
    (h : s.rows.StylesBelow s.styles.size) :
    Drawn (fun c => .ofSides e fun _ => decide (c = r.first)) s (drawBorders .outside e r s) := by
  simp only [drawBorders, if_pos hsingle]
  refine (drawn_drawBorder h rfl r.first).congr fun c => ?_
  by_cases hc : c = r.first
  · simp only [hc, decide_true, if_true, fourEdges_eq]
  · simp only [hc, decide_false, if_false]
    rfl

/-- The first cell of a unit gets the edges that the unit has in common with the range. -/
theorem unitEdges_outside (e : BorderEdge) {r : Range} (hm : MirrorsOn s.merges s.rows r)
    {c : CellRef} (hr : r.mem c = true) :
    unitEdges .outside e r s c = .ofSides e fun d => decide (Outlined s.merges r c d) := by
  have htop := (s.merges.unitAt c).top_le_bottom
  have hleft := (s.merges.unitAt c).left_le_right
  by_cases hfirst : (s.merges.unitAt c).first = c
  · have hrow : (s.merges.unitAt c).top = c.row := congrArg CellRef.row hfirst
    have hcol : (s.merges.unitAt c).left = c.col := congrArg CellRef.col hfirst
    rw [unitEdges, if_pos hfirst, edgesFor_outside, Border.ofSides_inj, hm.span_eq hr,
      if_pos hfirst]
    intro d
    rw [Bool.eq_iff_iff, decide_eq_true_iff]
    simp only [Outlined, hr, hfirst, true_and]
    cases d <;> simp only [beq_iff_eq, Range.edge, Range.span] <;> omega
  · simp [unitEdges, Outlined, hfirst, Border.ofSides, Border.empty]

/-- Drawing the outside of more than one cell puts the edges along the outline. -/
theorem drawn_outside {r : Range} (hselected : s.selection.range = some r)
    (hmultiple : r.isMultiple = true) (hm : MirrorsOn s.merges s.rows r) (e : BorderEdge)
    (h : s.rows.StylesBelow s.styles.size) :
    Drawn (fun c => .ofSides e fun d => decide (Outlined s.merges r c d)) s
      (drawBorders .outside e r s) := by
  by_cases hsingle : s.isSingle = true
  · -- The range is a merge, and the unit of all its cells.
    have hexact : s.isExactMerge r = true := by
      simpa [isSingle, hselected, hmultiple] using hsingle
    have hmerge : r ∈ s.merges.ranges := by
      obtain ⟨span, hmark, heq⟩ := eq_spanning_of_isExactMerge hexact
      rw [heq]
      exact hm.marks r.first span r.mem_first hmark
    refine (drawn_outside_of_isSingle hsingle e r h).congr fun c => ?_
    rw [Border.ofSides_inj]
    intro d
    rw [decide_eq_decide]
    refine ⟨fun hout => ?_, fun hc => ?_⟩
    · obtain ⟨hr, hfirst, -⟩ := hout
      rw [hm.unitAt_eq hmerge hr hr] at hfirst
      exact hfirst.symm
    · have hr : r.mem c = true := hc ▸ r.mem_first
      rw [Outlined, hm.unitAt_eq hmerge hr hr]
      exact ⟨hr, hc.symm, rfl⟩
  · simp only [drawBorders, if_neg hsingle]
    refine (drawn_foldl_drawCell .outside e r r.cells h).congr fun c => ?_
    by_cases hr : r.mem c = true
    · rw [if_pos (Range.mem_cells_iff.2 hr), unitEdges_outside e hm hr]
    · have hout : c ∉ r.cells := fun hmem => hr (Range.mem_cells_iff.1 hmem)
      rw [if_neg hout]
      simp [Outlined, hr, Border.ofSides, Border.empty]

/-! ## The two ways compared -/

variable {line : LineStyle} {color : String}

theorem drawn_editSelected {r : Range} {mode : BorderMode} {ink : CellRef → Border}
    (hselected : s.selection.range = some r) (hwritable : s.isWritable = true)
    (h : Drawn ink s.recorded (drawBorders mode ⟨line, color⟩ r s.recorded)) :
    Drawn ink s (s.editSelected (.border mode line color)).1 := by
  have hcommit : s.editSelected (.border mode line color) =
      s.commit (drawBorders mode ⟨line, color⟩ r) := by
    simp only [editSelected, commitOnSelection, hselected, Option.isNone_some, Bool.false_eq_true,
      if_false]
  rw [hcommit]
  exact Restyled.commit h hwritable

/-- Draw sides of the selection, one after the other. -/
def drawSides (line : LineStyle) (color : String) (ds : List BorderSide) (s : Sheet) : Sheet :=
  ds.foldl (fun s d => (s.editSelected (.border d.mode line color)).1) s

theorem drawn_drawSides {r : Range} (hselected : s.selection.range = some r)
    (hwritable : s.isWritable = true) (ds : List BorderSide)
    (h : s.rows.StylesBelow s.styles.size) :
    Drawn (fun c => .ofSides ⟨line, color⟩ fun d => decide (d ∈ ds ∧ c ∈ sideStops s.rows r d)) s
      (s.drawSides line color ds) := by
  induction ds generalizing s with
  | nil => exact (Drawn.refl h).congr fun c => by simp [Border.ofSides, Border.empty]
  | cons d ds ih =>
    have hfirst : Drawn (fun c =>
        .ofSides ⟨line, color⟩ fun d' => decide (d' = d ∧ c ∈ sideStops s.rows r d')) s
        (s.editSelected (.border d.mode line color)).1 :=
      drawn_editSelected hselected hwritable (drawn_side (s := s.recorded) _ r d h)
    have hrest := ih (by rw [hfirst.selection, hselected])
      (by rw [isWritable, hfirst.settings]; exact hwritable) hfirst.below
    refine (hfirst.trans hrest).congr fun c => ?_
    -- The walks go by the marks, and drawing has not changed them.
    have hstops : sideStops (s.editSelected (.border d.mode line color)).1.rows r =
        sideStops s.rows r := by
      ext d' : 1
      rw [sideStops, lineStops, hfirst.span_eq, sideStops, lineStops]
    rw [hstops, Border.ofSides_overlay, Border.ofSides_inj]
    intro d'
    rw [Bool.eq_iff_iff, Bool.or_eq_true, decide_eq_true_iff, decide_eq_true_iff,
      decide_eq_true_iff, List.mem_cons, or_and_right]

/-- Without a selection and on a sheet that may not be changed nothing is drawn. -/
theorem editSelected_border_ignored (mode : BorderMode)
    (h : s.selection.range = none ∨ s.isWritable = false) :
    (s.editSelected (.border mode line color)).1 = s := by
  simp only [editSelected, commitOnSelection]
  rcases h with hnone | hread
  · simp [hnone]
  · split
    · rfl
    · split
      · rw [commit, if_neg (Bool.eq_false_iff.1 hread)]
      · rfl

theorem Drawn.border?_eq {ink : CellRef → Border} (h : Drawn ink s s') (c : CellRef) :
    s'.border? c = ((ink c).inked (s.styleAt? c)).bind Style.border := by
  rw [border?, Restyled.styleAt? h]

section

variable {r : Range} (hselected : s.selection.range = some r) (hwritable : s.isWritable = true)
  (hbelow : s.rows.StylesBelow s.styles.size)
include hselected hwritable hbelow

theorem drawn_fourSides :
    Drawn (fun c => .ofSides ⟨line, color⟩ fun d => decide (c ∈ sideStops s.rows r d)) s
      (s.drawSides line color [.top, .bottom, .left, .right]) := by
  refine (drawn_drawSides hselected hwritable _ hbelow).congr fun c => ?_
  rw [Border.ofSides_inj]
  intro d
  cases d <;> simp

theorem drawn_editSelected_outside (hmultiple : r.isMultiple = true)
    (hm : MirrorsOn s.merges s.rows r) :
    Drawn (fun c => .ofSides ⟨line, color⟩ fun d => decide (Outlined s.merges r c d)) s
      (s.editSelected (.border .outside line color)).1 :=
  drawn_editSelected hselected hwritable
    (drawn_outside (s := s.recorded) hselected hmultiple hm _ hbelow)

theorem drawn_editSelected_outside_of_single (hsingle : r.isMultiple = false) :
    Drawn (fun c => .ofSides ⟨line, color⟩ fun _ => decide (c = r.first)) s
      (s.editSelected (.border .outside line color)).1 := by
  have hone : s.recorded.isSingle = true := by
    simp [isSingle, recorded, hselected, hsingle]
  exact drawn_editSelected hselected hwritable
    (drawn_outside_of_isSingle (s := s.recorded) hone _ r hbelow)

/-- Where a selection has no borders, the two ways agree only if its merges are flush. -/
theorem flushIn_of_border?_eq (hmultiple : r.isMultiple = true)
    (hm : MirrorsOn s.merges s.rows r) (hplain : ∀ c, r.mem c = true → s.border? c = none)
    (hsame : ∀ c, (s.drawSides line color [.top, .bottom, .left, .right]).border? c =
      (s.editSelected (.border .outside line color)).1.border? c) : s.merges.FlushIn r := by
  refine hm.flushIn_iff.2 fun c d => ?_
  by_cases hr : r.mem c = true
  · -- Where there was no border, the borders afterwards are the edges that were drawn.
    have hedges := congrArg (Option.getD · Border.empty) (hsame c)
    simp only [(drawn_fourSides hselected hwritable hbelow).border?_eq,
      (drawn_editSelected_outside hselected hwritable hbelow hmultiple hm).border?_eq,
      Border.inked_border (hplain c hr), Border.ofSides_inj, decide_eq_decide] at hedges
    exact hedges d
  · rw [hm.mem_sideStops_iff, Outlined]
    exact iff_of_false (fun h => hr h.1) fun h => hr h.1

end

/-- The four sides of a selection, drawn one after the other, give every cell the border that
    the outside gives it, if all merges of the selection are flush in it. If no cell of the
    selection has a border before, this is the only case. -/
theorem border?_sides_outside (line : LineStyle) (color : String)
    (hbelow : s.rows.StylesBelow s.styles.size)
    (hmirrors : ∀ r, s.selection.range = some r → r.isMultiple = true →
      MirrorsOn s.merges s.rows r) :
    let sides := s.drawSides line color [.top, .bottom, .left, .right]
    let outside := (s.editSelected (.border .outside line color)).1
    ((∀ r, s.selection.range = some r → r.isMultiple = true → s.merges.FlushIn r) →
      ∀ c, sides.border? c = outside.border? c) ∧
    ∀ r, s.selection.range = some r → r.isMultiple = true → s.isWritable = true →
      (∀ c, r.mem c = true → s.border? c = none) →
      (∀ c, sides.border? c = outside.border? c) → s.merges.FlushIn r := by
  intro sides outside
  refine ⟨fun hflush c => ?_, fun r hselected hmultiple hwritable =>
    flushIn_of_border?_eq hselected hwritable hbelow hmultiple (hmirrors r hselected hmultiple)⟩
  by_cases hidle : s.selection.range = none ∨ s.isWritable = false
  · have hsides : sides = s := by
      simp only [sides, drawSides, List.foldl_cons, List.foldl_nil,
        editSelected_border_ignored _ hidle]
    have houtside : outside = s := editSelected_border_ignored _ hidle
    rw [hsides, houtside]
  · rw [not_or, Bool.not_eq_false] at hidle
    obtain ⟨r, hselected⟩ := Option.ne_none_iff_exists'.1 hidle.1
    rw [(drawn_fourSides hselected hidle.2 hbelow).border?_eq]
    by_cases hmultiple : r.isMultiple = true
    · have hm := hmirrors r hselected hmultiple
      rw [(drawn_editSelected_outside hselected hidle.2 hbelow hmultiple hm).border?_eq]
      simp only [hm.flushIn_iff.1 (hflush r hselected hmultiple)]
    · have hone := Bool.eq_false_iff.2 hmultiple
      rw [(drawn_editSelected_outside_of_single hselected hidle.2 hbelow hone).border?_eq]
      simp only [mem_sideStops_of_single _ hone]

/-- A selection with one merge in its corner and another along its last row, where the two
    ways agree, and a selection that is a merge, where they do not. -/
theorem border?_sides_outside_merged :
    let corner : Command := .select (.between ⟨0, 0⟩ ⟨1, 1⟩)
    let s := (new "" {}).runAll [corner, .merge, .select (.between ⟨2, 0⟩ ⟨2, 1⟩), .merge,
      .select (.between ⟨0, 0⟩ ⟨2, 2⟩)]
    let t := (new "" {}).runAll [corner, .merge]
    (∀ c, (s.drawSides .thin "#000" [.top, .bottom, .left, .right]).border? c =
        (s.editSelected (.border .outside .thin "#000")).1.border? c) ∧
      ∃ c, (t.drawSides .thin "#000" [.top, .bottom, .left, .right]).border? c ≠
        (t.editSelected (.border .outside .thin "#000")).1.border? c := by
  intro corner s t
  have hs : Mirrors s.merges s.rows :=
    mirrors_of_cells (by decide) (by decide) (by decide)
  have ht : Mirrors t.merges t.rows :=
    mirrors_of_cells (by decide) (by decide) (by decide)
  have hs' := border?_sides_outside .thin "#000" (shares_runAll _ _ _).below fun r _ _ => hs.on r
  have ht' := border?_sides_outside .thin "#000" (shares_runAll _ _ _).below fun r _ _ => ht.on r
  have hflush : s.merges.FlushIn (.between ⟨0, 0⟩ ⟨2, 2⟩) := by decide
  have hfull : ¬t.merges.FlushIn (.between ⟨0, 0⟩ ⟨1, 1⟩) := by decide
  have hselected : s.selection.range = some (.between ⟨0, 0⟩ ⟨2, 2⟩) := by decide
  have hselected' : t.selection.range = some (.between ⟨0, 0⟩ ⟨1, 1⟩) := by decide
  refine ⟨hs'.1 fun r hr _ => ?_, ?_⟩
  · rw [hselected, Option.some.injEq] at hr
    rwa [← hr]
  · by_contra hsame
    refine hfull (ht'.2 _ hselected' (by decide) (by decide) (fun c _ => ?_)
      fun c => by_contra fun hne => hsame ⟨c, hne⟩)
    -- No style has been made yet.
    have hstyles : t.styles.styles = [] := by decide
    rw [border?, styleAt?_eq_bind]
    cases (t.rows.cell? c).bind Cell.style with
    | none => rfl
    | some i => rw [Option.bind_some, StyleTable.get?, hstyles, List.getElem?_nil, Option.bind_none]

end Sheet

end Worksheet
