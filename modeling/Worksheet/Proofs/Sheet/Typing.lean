import Worksheet.Proofs.Filter.Presenting
import Worksheet.Proofs.Sheet.Agreement
import Worksheet.Proofs.Sheet.Viewing

/-!
# Typing Under a Filter

What becomes of a row when a text is typed into a column with a filter on a list of values.

A filter on a list of values would hide a row as soon as one of its cells is edited, so
the list follows what is typed into the active cell: the first value equal to the old
text is replaced by the new one. With that the row goes on passing, as long as the cell
takes the new text. A locked cell does not. The list follows all the same, and then the
row has a text that may not be on the list any more.

The list follows the text that the cell has, so it is of no use where that text was not
on the list. This is so when a text was typed into the cell before that the filter did not
follow, or into another cell of the row. Such a text is not finished yet, and the row may
be shown though it does not pass.

## Theorems

* `mem_replaceFirst_iff`: The values of a list that has followed an edit.
* `AutoFilter.passes_follow_iff`: The rows that pass when the filter has followed.
* `Sheet.isHidden_typeActive_iff`: Whether the edited row is hidden, in any state.
* `Sheet.isHidden_typeActive`: The same in a session.
-/

namespace Worksheet

namespace AutoFilter

variable {old new x : String} {values : List String}

/-- A list that has followed an edit has the new value in place of the first old one. -/
theorem mem_replaceFirst_iff : x ∈ replaceFirst old new values ↔
    (x = new ∧ old ∈ values) ∨ (x ∈ values ∧ (x ≠ old ∨ 2 ≤ values.count old)) := by
  induction values with
  | nil => simp [replaceFirst]
  | cons v vs ih =>
    rw [replaceFirst]
    by_cases hv : v = old
    · subst hv
      -- The rest has an old value too if there are two of them.
      have hcount : v ∈ vs ↔ 2 ≤ vs.count v + 1 := by
        rw [← List.count_pos_iff]
        omega
      rw [if_pos rfl, List.count_cons_self, List.mem_cons]
      by_cases hx : x = v
      · subst hx
        simp [← hcount]
      · simp [hx]
    · rw [if_neg hv, List.mem_cons, ih, List.count_cons_of_ne hv]
      by_cases hx : x = v
      · subst hx
        simp [hv]
      · simp [hx, Ne.symm hv]

/-- The new value is on the list afterwards if it was there or the old one was. -/
theorem new_mem_replaceFirst_iff :
    new ∈ replaceFirst old new values ↔ old ∈ values ∨ new ∈ values := by
  rw [mem_replaceFirst_iff]
  by_cases hsame : new = old
  · subst hsame
    simp only [true_and, ne_eq, not_true_eq_false, false_or, or_self]
    exact or_iff_left_of_imp And.left
  · simp only [hsame, true_and, ne_eq, not_false_eq_true, true_or, and_true]

/-- The old value is on the list afterwards if it was there and is not gone. -/
theorem old_mem_replaceFirst_iff : old ∈ replaceFirst old new values ↔
    old ∈ values ∧ (new = old ∨ 2 ≤ values.count old) := by
  rw [mem_replaceFirst_iff, eq_comm (a := old) (b := new)]
  simp only [ne_eq, not_true_eq_false, false_or]
  tauto

/-- Editing the filter on a column leaves all others as they are. -/
theorem forall_mem_editFirst_iff {col : Nat} {edit : Filter → Filter} {fs : List Filter}
    {f : Filter} (hone : (fs.filter fun g => g.col == col) = [f]) (P : Filter → Prop) :
    (∀ g ∈ editFirst col edit fs, P g) ↔ (∀ g ∈ fs, g.col ≠ col → P g) ∧ P (edit f) := by
  induction fs with
  | nil => cases hone
  | cons g gs ih =>
    rw [editFirst]
    by_cases hcol : g.col = col
    · -- This is the filter, and none of the others is on the column.
      have hpos : (g.col == col) = true := beq_iff_eq.2 hcol
      rw [List.filter_cons, if_pos hpos, List.cons.injEq, List.filter_eq_nil_iff] at hone
      obtain ⟨rfl, hrest⟩ := hone
      rw [if_pos hcol, List.forall_mem_cons, List.forall_mem_cons, and_comm]
      refine and_congr ⟨fun h => ⟨fun hne => absurd hcol hne, fun x hx _ => h x hx⟩,
        fun h x hx => h.2 x hx ?_⟩ Iff.rfl
      exact fun heq => hrest x hx (beq_iff_eq.2 heq)
    · have hneg : ¬(g.col == col) = true := mt beq_iff_eq.1 hcol
      rw [List.filter_cons, if_neg hneg] at hone
      rw [if_neg hcol, List.forall_mem_cons, List.forall_mem_cons, ih hone, and_assoc]
      exact and_congr ⟨fun h _ => h, fun h => h hcol⟩ Iff.rfl

/-- When the filter on a list of values has followed an edit, a row passes if it passes all
    other filters and the list as it is then. -/
theorem passes_follow_iff {a : AutoFilter} {col row : Nat} {f : Filter}
    (hone : (a.filters.filter fun g => g.col == col) = [f]) (hlist : f.operator = .oneOf)
    (text : CellRef → String) :
    (a.follow col old new).Passes text row ↔
      (∀ g ∈ a.filters, g.col ≠ col → g.accepts (text ⟨row, g.col⟩) = true) ∧
        text ⟨row, col⟩ ∈ replaceFirst old new f.values := by
  have hcol : f.col = col := by
    have hmem : f ∈ a.filters.filter fun g => g.col == col := hone ▸ List.mem_singleton_self f
    exact beq_iff_eq.1 (List.mem_filter.1 hmem).2
  rw [Passes, follow, forall_mem_editFirst_iff hone fun g => g.accepts (text ⟨row, g.col⟩) = true]
  simp only [Filter.accepts, hlist, hcol, List.contains_eq_mem, decide_eq_true_eq]

end AutoFilter

/-! ## The text of the cell -/

namespace Rows

variable {s : Rows} {c : CellRef}

/-- What is typed into a cell does nothing to the others. -/
theorem cell?_setText_of_ne {c' : CellRef} (hc : c' ≠ c) (text : String) :
    (s.setText c text).cell? c' = s.cell? c' := by
  rw [setText, cell?_editCell, if_neg hc]

theorem content_setText_of_ne {c' : CellRef} (hc : c' ≠ c) (text : String) :
    (s.setText c text).content c' = s.content c' := by
  rw [content, cell?_setText_of_ne hc, content]

theorem content_setText_of_isLocked (h : s.IsLocked c) (text : String) :
    (s.setText c text).content c = s.content c := by
  obtain ⟨cell, hcell, hlocked⟩ := h
  simp [content, setText, cell?_editCell, hcell, hlocked]

theorem content_setText_of_not_isLocked (h : ¬s.IsLocked c) (text : String) :
    (s.setText c text).content c = text := by
  refine content_setText (fun cell hcell => ?_) text
  by_contra hlocked
  exact h ⟨cell, hcell, Bool.eq_false_iff.2 hlocked⟩

end Rows

namespace Sheet

variable {s : Sheet} {text : String}

/-- A text that is finished is shown under the filter that has followed it. -/
theorem view_typeActive (happlied : (s.typeActive text .finished).2 = .applied) :
    (s.typeActive text .finished).1.view =
      (s.filter.follow s.activeRef.col (s.rows.content s.activeRef) text).rowView
        (s.rows.setText s.activeRef text).content := by
  by_cases hwritable : s.isWritable = true
  · simp only [typeActive, typeText, if_pos hwritable]
    rfl
  · simp only [typeActive, typeText, if_neg hwritable] at happlied
    cases happlied

theorem isHidden_rowView_iff {a : AutoFilter} {text : CellRef → String} {row : Nat} :
    (a.rowView text).isHidden row = false ↔ ¬a.IsData row ∨ a.Passes text row := by
  rw [RowView.isHidden_eq_false_iff, AutoFilter.rowView_eq, AutoFilter.mem_hiddenRows_iff]
  tauto

section

variable {f : Filter} (hdata : s.filter.IsData s.activeRef.row)
  (hone : (s.filter.filters.filter fun g => g.col == s.activeRef.col) = [f])
  (hlist : f.operator = .oneOf) (happlied : (s.typeActive text .finished).2 = .applied)
include hdata hone hlist happlied

/-- After a text was typed, its row is shown if it passes all other filters and if the cell
    has a text that is on the list: the new one, or the old one if the cell is locked. -/
theorem isHidden_typeActive_iff :
    (s.typeActive text .finished).1.view.isHidden s.activeRef.row = false ↔
      (∀ g ∈ s.filter.filters, g.col ≠ s.activeRef.col →
        g.accepts (s.rows.content ⟨s.activeRef.row, g.col⟩) = true) ∧
      (s.rows.IsLocked s.activeRef → s.rows.content s.activeRef ∈ f.values ∧
        (text = s.rows.content s.activeRef ∨ 2 ≤ f.values.count (s.rows.content s.activeRef))) ∧
      (¬s.rows.IsLocked s.activeRef →
        s.rows.content s.activeRef ∈ f.values ∨ text ∈ f.values) := by
  have hothers : ∀ g : Filter, g.col ≠ s.activeRef.col →
      (s.rows.setText s.activeRef text).content ⟨s.activeRef.row, g.col⟩ =
        s.rows.content ⟨s.activeRef.row, g.col⟩ := fun g hg =>
    Rows.content_setText_of_ne (fun heq => hg (congrArg CellRef.col heq)) text
  have hdata' : (s.filter.follow s.activeRef.col (s.rows.content s.activeRef) text).IsData
      s.activeRef.row := hdata
  rw [view_typeActive happlied, isHidden_rowView_iff, AutoFilter.passes_follow_iff hone hlist]
  simp only [hdata', not_true_eq_false, false_or]
  refine and_congr (forall_congr' fun g => forall_congr' fun _ => forall_congr' fun hg => ?_) ?_
  · rw [hothers g hg]
  · by_cases hlocked : s.rows.IsLocked s.activeRef
    · simp only [hlocked, not_true_eq_false, false_implies, and_true, true_implies]
      rw [Rows.content_setText_of_isLocked hlocked, AutoFilter.old_mem_replaceFirst_iff]
    · simp only [hlocked, not_false_eq_true, false_implies, true_and, true_implies]
      rw [Rows.content_setText_of_not_isLocked hlocked, AutoFilter.new_mem_replaceFirst_iff]

/-- A row that passed goes on passing, unless the cell is locked and the list loses its text. -/
theorem isHidden_typeActive_of_passes
    (hpasses : s.filter.Passes s.rows.content s.activeRef.row) :
    (s.typeActive text .finished).1.view.isHidden s.activeRef.row = false ↔
      ¬s.rows.IsLocked s.activeRef ∨ text = s.rows.content s.activeRef ∨
        2 ≤ f.values.count (s.rows.content s.activeRef) := by
  have hmem : f ∈ s.filter.filters.filter fun g => g.col == s.activeRef.col :=
    hone ▸ List.mem_singleton_self f
  have hcol : f.col = s.activeRef.col := beq_iff_eq.1 (List.mem_filter.1 hmem).2
  have hold : s.rows.content s.activeRef ∈ f.values := by
    have haccepts := hpasses f (List.mem_filter.1 hmem).1
    simpa [Filter.accepts, hlist, hcol] using haccepts
  rw [isHidden_typeActive_iff hdata hone hlist happlied]
  have hothers : ∀ g ∈ s.filter.filters, g.col ≠ s.activeRef.col →
      g.accepts (s.rows.content ⟨s.activeRef.row, g.col⟩) = true := fun g hg _ => hpasses g hg
  by_cases hlocked : s.rows.IsLocked s.activeRef
  · simp only [hlocked, hold, not_true_eq_false, false_implies, true_implies, true_and, and_true,
      false_or]
    exact and_iff_right hothers
  · simp only [hlocked, hold, not_false_eq_true, false_implies, true_implies, true_or, and_true]
    exact iff_true_intro hothers

end

/-- When no text is unsettled, the rows under the header that are shown are those that pass. -/
theorem passes_of_settled {name : String} {settings : Settings} {actions : List Action}
    (hsettled : ¬(new name settings).Unsettled actions) {row : Nat}
    (hdata : ((new name settings).actAll actions).filter.IsData row)
    (hvisible : ((new name settings).actAll actions).view.isHidden row = false) :
    ((new name settings).actAll actions).filter.Passes
      ((new name settings).actAll actions).rows.content row := by
  have hpending : ((new name settings).actAll actions).pending = none :=
    by_contra fun hne => hsettled (unsettled_of_pending rfl hne)
  have hfresh := (steady_actAll ⟨fun _ => rfl, id, id⟩ actions).1 hpending
  rw [hfresh, isHidden_rowView_iff] at hvisible
  exact hvisible.resolve_left (not_not_intro hdata)

/-- A text is typed into the active cell, which is in a row under the header and in a column
    with a filter on a list of values. Its row is shown afterwards if it passes the other
    filters and the text that the cell has then is on the list that has followed. If the row
    was shown before and no text is unsettled, the row goes on being shown unless the cell
    is locked: then the list must still have the text of the cell, because it was typed
    again or is on the list twice. -/
theorem isHidden_typeActive (name : String) (settings : Settings) (actions : List Action)
    (text : String) {f : Filter} :
    let s := (new name settings).actAll actions
    let c := s.activeRef
    let old := s.rows.content c
    let s' := (s.typeActive text .finished).1
    s.filter.IsData c.row → (s.filter.filters.filter fun g => g.col == c.col) = [f] →
    f.operator = .oneOf → s.view.isHidden c.row = false →
    (s.typeActive text .finished).2 = .applied →
    (s'.view.isHidden c.row = false ↔
      (∀ g ∈ s.filter.filters, g.col ≠ c.col →
        g.accepts (s.rows.content ⟨c.row, g.col⟩) = true) ∧
      (s.rows.IsLocked c → old ∈ f.values ∧ (text = old ∨ 2 ≤ f.values.count old)) ∧
      (¬s.rows.IsLocked c → old ∈ f.values ∨ text ∈ f.values)) ∧
    (¬(new name settings).Unsettled actions →
      (s'.view.isHidden c.row = false ↔
        ¬s.rows.IsLocked c ∨ text = old ∨ 2 ≤ f.values.count old)) := by
  intro s c old s' hdata hone hlist hvisible happlied
  exact ⟨isHidden_typeActive_iff hdata hone hlist happlied, fun hsettled =>
    isHidden_typeActive_of_passes hdata hone hlist happlied
      (passes_of_settled hsettled hdata hvisible)⟩

/-- A session in which no text is typed without being finished leaves none unsettled. -/
theorem not_unsettled_of_types {s : Sheet} {actions : List Action}
    (h : ∀ a ∈ actions, a.types = false) : ¬s.Unsettled actions := by
  rintro ⟨before, a, after, rfl, htypes, -⟩
  have hmem : a ∈ before ++ a :: after := List.mem_append_right _ List.mem_cons_self
  exact Bool.false_ne_true ((h a hmem).symm.trans htypes)

/-- A table of one row under a filter for its text, which is selected and locked or unlocked. -/
def tabled (on : Bool) : List Action :=
  [.run (.typeText ⟨0, 0⟩ "head" .finished), .run (.typeText ⟨1, 0⟩ "x" .finished),
    .run (.select (.between ⟨0, 0⟩ ⟨1, 0⟩)), .run .toggleFilter,
    .run (.setFilter 0 none .oneOf ["x"]), .run (.select (.single ⟨1, 0⟩)),
    .run (.editSelected (.editable on))]

/-- The row goes on being shown if the cell takes the text, and is hidden if it is locked. -/
theorem isHidden_typeActive_tabled :
    let s (on : Bool) := (new "" {}).actAll (tabled on)
    ((s true).view.isHidden 1 = false ∧
      ((s true).typeActive "z" .finished).1.view.isHidden 1 = false) ∧
    (s false).view.isHidden 1 = false ∧
      ¬((s false).typeActive "z" .finished).1.view.isHidden 1 = false := by
  intro s
  have hactive (on : Bool) : (s on).activeRef = ⟨1, 0⟩ := by
    cases on <;> decide
  have hcell (on : Bool) : ((s on).rows.cell? ⟨1, 0⟩).map Cell.editable = some on := by
    cases on <;> decide
  have hlocked (on : Bool) : (s on).rows.IsLocked ⟨1, 0⟩ ↔ on = false := by
    obtain ⟨cell, hstored, hedit⟩ := Option.map_eq_some_iff.1 (hcell on)
    rw [Rows.IsLocked, hstored]
    simp [hedit]
  have hcontent (on : Bool) : (s on).rows.content ⟨1, 0⟩ = "x" := by
    cases on <;> decide
  have hview (on : Bool) :
      ((s on).typeActive "z" .finished).1.view.isHidden 1 = false ↔ on = true := by
    have hsettled : ¬(new "" {}).Unsettled (tabled on) :=
      not_unsettled_of_types (by cases on <;> decide)
    obtain ⟨-, hiff⟩ := isHidden_typeActive "" {} (tabled on) "z" (f := ⟨0, .oneOf, ["x"]⟩)
      ⟨.between ⟨0, 0⟩ ⟨1, 0⟩, by cases on <;> decide, by cases on <;> decide,
        by cases on <;> decide⟩
      (by cases on <;> decide) rfl (by cases on <;> decide)
      (by cases on <;> decide)
    have hrow := hiff hsettled
    rw [hactive, hlocked, hcontent] at hrow
    simpa using hrow
  refine ⟨⟨by decide, (hview true).2 rfl⟩, by decide, fun hshown => ?_⟩
  cases (hview false).1 hshown

end Sheet

end Worksheet
