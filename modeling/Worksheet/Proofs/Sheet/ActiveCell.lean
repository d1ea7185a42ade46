import Worksheet.Proofs.Filter.Presenting
import Worksheet.Proofs.Sheet.Viewing

/-!
# The Active Cell

What is said about the active cell, and about which cell it is said.

The active cell is a position on the screen. A sort may show another row there than the
one that is stored at this place, so whatever looks at the active cell has to find the row
first. Reading the cell does, and so does typing into it. The style and the validator of the
active cell are taken from the place itself. So they are about the cell that is read and
typed into only if the row at the place is shown where it is stored.

A view moves rows only if they are sorted from the bottom up, and then the shown rows under
the header change places like in a mirror. What stays in its place is the row in the middle,
if there is one. All other rows that are shown under the header have the wrong style and the
wrong validator.

## Main definitions

* `Sheet.shownDataRows`: The rows under the header that are shown.

## Theorems

* `AutoFilter.toStorage_of_getElem?`: What is shown in the place of a row.
* `AutoFilter.toStorage_eq_self_iff`: The rows that are shown where they are stored.
* `Sheet.activeRef_eq_active_iff`: When the active cell is stored at its place.
* `Sheet.active_agree_iff`: When all that is said about the active cell is about one cell.
-/

namespace Worksheet

namespace AutoFilter

variable {a : AutoFilter} {text : CellRef → String} {i row k : Nat} {above below : List Nat}

/-! ## Rows in their places -/

/-- The places are those of the rows that pass, from the top down, and each shows the row that
    is next in the order of the sort. -/
theorem toStorage_of_getElem? (hi : (a.visibleRows text)[k]? = some i)
    (hrow : (a.presented text)[k]? = some row) : (a.rowView text).toStorage i = row := by
  refine wellPlaced_rowView.toStorage_of_mem (List.mem_iff_getElem?.2 ⟨k, ?_⟩)
  rw [rowView_eq, List.getElem?_zip_eq_some]
  exact ⟨hi, hrow⟩

/-- Rows that are not sorted from the bottom up are in their places. -/
theorem toStorage_eq_self_of_sort (hsort : a.sort.map ColumnSort.order ≠ some .descending) :
    (a.rowView text).toStorage i = i := by
  by_cases hi : i ∈ a.visibleRows text
  · have hpresented : a.presented text = a.visibleRows text := by
      unfold presented
      split
      · rename_i hdescending
        exact absurd hdescending hsort
      · rfl
    obtain ⟨k, hk⟩ := List.mem_iff_getElem?.1 hi
    exact toStorage_of_getElem? hk (hpresented ▸ hk)
  · exact toStorage_of_not_mem_visibleRows hi

/-- Turning the rows around keeps a row in its place if it is in the middle. -/
theorem toStorage_eq_self_iff_of_split
    (hsort : a.sort.map ColumnSort.order = some .descending)
    (hrows : a.visibleRows text = above ++ i :: below) :
    (a.rowView text).toStorage i = i ↔ above.length = below.length := by
  have hturned : a.presented text = below.reverse ++ i :: above.reverse := by
    rw [presented, hsort, hrows]
    simp
  have hnodup : (a.presented text).Nodup :=
    presented_perm.nodup_iff.2 (pairwise_visibleRows.imp Nat.ne_of_lt)
  have hlt : above.length < (a.presented text).length := by
    rw [hturned, List.length_append, List.length_cons, List.length_reverse, List.length_reverse]
    omega
  -- The row is shown as far from the bottom as it is stored from the top.
  have hplace : (a.visibleRows text)[above.length]? = some i := by simp [hrows]
  have hshown : (a.presented text)[below.length]? = some i := by simp [hturned]
  have hrow := List.getElem?_eq_getElem hlt
  rw [toStorage_of_getElem? hplace hrow]
  constructor
  · intro hself
    rw [hself, ← hshown] at hrow
    exact (List.getElem?_inj hlt hnodup).1 hrow
  · intro hmiddle
    rw [← Option.some_inj, ← hrow, hmiddle, hshown]

/-- In increasing order, the rows above a row are those before it, and the rows below are
    those after it. -/
theorem filter_of_split (h : (above ++ i :: below).Pairwise (· < ·)) :
    (above ++ i :: below).filter (· < i) = above ∧
      (above ++ i :: below).filter (i < ·) = below := by
  rw [List.pairwise_append, List.pairwise_cons] at h
  obtain ⟨-, ⟨hbelow, -⟩, habove⟩ := h
  have hbefore (j : Nat) (hj : j ∈ above) : j < i := habove j hj i List.mem_cons_self
  constructor
  · have hall : above.filter (· < i) = above :=
      List.filter_eq_self.2 fun j hj => decide_eq_true (hbefore j hj)
    have hnone : below.filter (· < i) = [] := List.filter_eq_nil_iff.2 fun j hj => by
      rw [decide_eq_true_iff, Nat.not_lt]
      exact Nat.le_of_lt (hbelow j hj)
    rw [List.filter_append, List.filter_cons_of_neg (by simp), hall, hnone, List.append_nil]
  · have hall : below.filter (i < ·) = below :=
      List.filter_eq_self.2 fun j hj => decide_eq_true (hbelow j hj)
    have hnone : above.filter (i < ·) = [] := List.filter_eq_nil_iff.2 fun j hj => by
      rw [decide_eq_true_iff, Nat.not_lt]
      exact Nat.le_of_lt (hbefore j hj)
    rw [List.filter_append, List.filter_cons_of_neg (by simp), hall, hnone, List.nil_append]

/-- A row is shown where it is stored, unless rows are sorted from the bottom up and it is
    one of them, but not the one in the middle. -/
theorem toStorage_eq_self_iff :
    (a.rowView text).toStorage i = i ↔
      (a.sort.map ColumnSort.order = some .descending → i ∈ a.visibleRows text →
        ((a.visibleRows text).filter (· < i)).length =
          ((a.visibleRows text).filter (i < ·)).length) := by
  by_cases hsort : a.sort.map ColumnSort.order = some .descending
  · by_cases hi : i ∈ a.visibleRows text
    · obtain ⟨above, below, hrows⟩ := List.append_of_mem hi
      obtain ⟨hlt, hgt⟩ := filter_of_split (hrows ▸ pairwise_visibleRows)
      rw [toStorage_eq_self_iff_of_split hsort hrows, hrows, hlt, hgt]
      exact ⟨fun h _ _ => h, fun h => h hsort (hrows ▸ hi)⟩
    · exact iff_of_true (toStorage_of_not_mem_visibleRows hi) fun _ hin => absurd hin hi
  · exact iff_of_true (toStorage_eq_self_of_sort hsort) fun hin => absurd hin hsort

end AutoFilter

/-- A style that sets what another one has not. -/
def Style.contrary (base : Style) : Style := { strike := some !(base.strike.getD false) }

theorem Style.contrary_onto_ne (base : Style) : base.contrary.onto base ≠ base := by
  intro hsame
  have hstrike : some (!(base.strike.getD false)) = base.strike := congrArg Style.strike hsame
  cases hbase : base.strike with
  | none =>
    rw [hbase] at hstrike
    cases hstrike
  | some b =>
    rw [hbase] at hstrike
    exact Bool.not_ne_self b (Option.some.inj hstrike)

/-- Rows with one cell, which has the first style of a sheet. -/
def Rows.styledAt (c : CellRef) : Rows :=
  ({ len := c.row + 1 } : Rows).editCell c fun cell => { cell with style := some 0 }

theorem Rows.cell?_styledAt (c c' : CellRef) :
    (styledAt c).cell? c' = if c' = c then some { style := some 0 } else none :=
  cell?_editCell _ _ _ _

namespace Sheet

variable {s : Sheet}

/-- The rows under the header that are shown, in increasing order. -/
def shownDataRows (s : Sheet) : List Nat := s.filter.dataRows.filter fun i => !s.view.isHidden i

/-! ## Places and cells -/

/-- The shown rows are those that pass what the view was made with. -/
theorem shownDataRows_eq {a : AutoFilter} {text : CellRef → String}
    (hview : s.view = a.rowView text) (hrange : a.range = s.filter.range) :
    s.shownDataRows = a.visibleRows text := by
  have hdata : s.filter.dataRows = a.dataRows := by
    unfold AutoFilter.dataRows
    rw [hrange]
  rw [shownDataRows, hdata, AutoFilter.visibleRows]
  refine List.filter_congr fun i hi => ?_
  have hhidden : s.view.isHidden i = !a.accepts text i := by
    rw [hview, RowView.isHidden, List.contains_eq_mem]
    have hmem : i ∈ (a.rowView text).hidden ↔ (!a.accepts text i) = true := by
      rw [AutoFilter.rowView_eq, AutoFilter.hiddenRows, List.mem_filter]
      exact and_iff_right hi
    rw [Bool.eq_iff_iff, decide_eq_true_iff, hmem]
  rw [hhidden, Bool.not_not]

/-- The active cell is stored at its place, unless rows are sorted from the bottom up and it
    is in one of them, but not in the one in the middle. -/
theorem activeRef_eq_active_iff (h : s.ViewOfFilter) :
    s.activeRef = s.selection.active ↔
      (s.filter.sort.map ColumnSort.order = some .descending →
        s.selection.active.row ∈ s.shownDataRows →
        (s.shownDataRows.filter (· < s.selection.active.row)).length =
          (s.shownDataRows.filter (s.selection.active.row < ·)).length) := by
  obtain ⟨a, text, hview, hrange, hsort⟩ := h
  rw [← hsort, shownDataRows_eq hview hrange, ← AutoFilter.toStorage_eq_self_iff, ← hview]
  generalize hactive : s.selection.active = active
  obtain ⟨row, col⟩ := active
  rw [activeRef, hactive, CellRef.mk.injEq]
  exact and_iff_left rfl

/-! ## What is said about the active cell -/

/-- A text that is typed into the active cell goes to the stored cell, and is judged there. -/
theorem typeActive_activeRef (hwritable : s.isWritable = true) (text : String)
    (state : EditState) :
    (s.typeActive text state).1.rows = s.rows.setText s.activeRef text ∧
      (s.typeActive text state).1.markAt? s.activeRef = s.rules.check s.activeRef text := by
  have htyped : s.typedAt? s.activeRef (.run (.typeActive text state)) = some text :=
    if_pos ⟨hwritable, rfl⟩
  have hmark := markAt?_act s (.run (.typeActive text state)) s.activeRef
  rw [htyped, if_neg (Bool.eq_false_iff.1 (kept_of_typedAt? htyped).1)] at hmark
  exact ⟨rows_act htyped, hmark⟩

/-- Whatever the cells and their styles are, the style of the active cell is that of the
    stored cell, but only if the cell is stored at its place. -/
theorem activeStyle_agree_iff (s : Sheet) :
    (∀ rows styles, ({ s with rows, styles } : Sheet).activeStyle =
      ({ s with rows, styles } : Sheet).effectiveStyle s.activeRef) ↔
      s.activeRef = s.selection.active := by
  constructor
  · intro hagree
    by_contra hne
    -- One cell, at the place, whose style has what the default style has not.
    have hsame := hagree (.styledAt s.selection.active) ⟨[s.settings.style.contrary]⟩
    simp only [activeStyle, effectiveStyle, styleAt?, cell?, Rows.cell?_styledAt, if_true,
      if_neg hne] at hsame
    exact Style.contrary_onto_ne _ hsame
  · intro hplace rows styles
    rw [hplace]
    rfl

/-- Whatever the rules are, the validator of the active cell is that of the stored cell, but
    only if the cell is stored at its place. -/
theorem activeValidator?_agree_iff (s : Sheet) :
    (∀ rules : Rules, ({ s with rules } : Sheet).activeValidator? =
      (rules.ruleAt? s.activeRef).map Rule.validator) ↔ s.activeRef = s.selection.active := by
  constructor
  · intro hagree
    by_contra hne
    -- One rule, for the place alone.
    let rule : Rule := { refs := [.single s.selection.active], validator := { kind := .number } }
    have hcovers (c : CellRef) : rule.covers c = true ↔ c = s.selection.active := by
      simp only [rule, Rule.covers, List.any_cons, List.any_nil, Bool.or_false,
        Range.mem_single_iff]
    have hat : Rules.ruleAt? ⟨[rule], []⟩ s.selection.active = some rule :=
      List.find?_cons_of_pos ((hcovers _).2 rfl)
    have hstored : Rules.ruleAt? ⟨[rule], []⟩ s.activeRef = none :=
      List.find?_cons_of_neg (mt (hcovers _).1 hne)
    have hsame : (Rules.ruleAt? ⟨[rule], []⟩ s.selection.active).map Rule.validator =
        (Rules.ruleAt? ⟨[rule], []⟩ s.activeRef).map Rule.validator := hagree _
    rw [hat, hstored] at hsame
    cases hsame
  · intro hplace rules
    rw [hplace]
    rfl

/-- The cell that is read as the active one is the one that a text typed into it goes to, and
    is judged at. The style and the validator of the active cell are those of the place it is
    at. They are also those of the cell, whatever the cells, their styles and the rules are,
    if and only if the cell is stored at its place. And so it is unless the filter sorts from
    the bottom up and the place is in one of the rows it shows under the header, with another
    number of them above than below. -/
theorem active_agree_iff (name : String) (settings : Settings) (actions : List Action) :
    let s := (new name settings).actAll actions
    let stored := s.activeRef
    let place := s.selection.active
    (s.activeCell? = s.cell? stored ∧
      ∀ text state, s.isWritable = true →
        (s.typeActive text state).1.rows = s.rows.setText stored text ∧
        (s.typeActive text state).1.markAt? stored = s.rules.check stored text) ∧
    (s.activeStyle = s.effectiveStyle place ∧
      s.activeValidator? = (s.rules.ruleAt? place).map Rule.validator) ∧
    ((∀ rows styles, ({ s with rows, styles } : Sheet).activeStyle =
      ({ s with rows, styles } : Sheet).effectiveStyle stored) ↔ stored = place) ∧
    ((∀ rules : Rules, ({ s with rules } : Sheet).activeValidator? =
      (rules.ruleAt? stored).map Rule.validator) ↔ stored = place) ∧
    (stored = place ↔
      (s.filter.sort.map ColumnSort.order = some .descending → place.row ∈ s.shownDataRows →
        (s.shownDataRows.filter (· < place.row)).length =
          (s.shownDataRows.filter (place.row < ·)).length)) := by
  intro s stored place
  refine ⟨⟨rfl, fun text state hwritable => typeActive_activeRef hwritable text state⟩, ⟨rfl, rfl⟩,
    activeStyle_agree_iff s, activeValidator?_agree_iff s, ?_⟩
  exact activeRef_eq_active_iff (viewOfFilter_actAll name settings actions)

/-- Two rows under a header, sorted from the bottom up. The last cell is bold and must be a
    number, and is shown as the first one, which is active. -/
def mirrored : List Action :=
  [.run (.typeText ⟨0, 0⟩ "head" .finished), .run (.typeText ⟨1, 0⟩ "x" .finished),
    .run (.typeText ⟨2, 0⟩ "y" .finished), .run (.select (.single ⟨2, 0⟩)),
    .run (.editSelected (.style (.bold true))),
    .run (.addRule "cell" (.single ⟨2, 0⟩) { kind := .number }),
    .run (.select (.between ⟨0, 0⟩ ⟨2, 0⟩)), .run .toggleFilter,
    .run (.setFilter 0 (some .descending) .all []), .run (.selectCell ⟨1, 0⟩)]

/-- The last cell is read, with the style of the first one and without a validator. -/
theorem active_agree_iff_mirrored :
    let s := (new "" {}).actAll mirrored
    s.activeRef ≠ s.selection.active ∧ (s.activeCell?).map Cell.content = some "y" ∧
      s.activeStyle.font.bind Font.bold ≠ some true ∧
      (s.effectiveStyle s.activeRef).font.bind Font.bold = some true ∧
      s.activeValidator? = none ∧
      (s.rules.ruleAt? s.activeRef).map Rule.validator = some { kind := .number } := by
  intro s
  obtain ⟨⟨hcell, -⟩, ⟨hstyle, hvalidator⟩, -, -, hplace⟩ := active_agree_iff "" {} mirrored
  have hshown : s.shownDataRows = [1, 2] := by decide
  have hactive : s.selection.active = ⟨1, 0⟩ := by decide
  refine ⟨fun hsame => ?_, ?_, ?_, by decide, ?_, by decide⟩
  · have hmiddle := hplace.1 hsame (by decide)
    rw [hshown, hactive] at hmiddle
    exact absurd (hmiddle (by decide)) (by decide)
  · rw [hcell]
    decide
  · rw [hstyle, hactive]
    decide
  · rw [hvalidator, hactive]
    decide

end Sheet

end Worksheet
