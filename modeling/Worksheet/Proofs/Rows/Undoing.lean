import Worksheet.Proofs.Address.Composing
import Worksheet.Proofs.Rows.Editing

/-!
# Insertions That Are Taken Back

Deleting the lines that were just inserted restores the rows.

Lines that are put in move the cells behind them, and taking them out moves the
cells back. No cell is among the lines that are deleted, so none is lost on the
way. A formula is rewritten twice, and its text is the old one if every reference
of it is. What is to be shown is then about one reference: that it is spelled as a
reference is written, that it still has a notation after it was moved, and that
this is again one of at most three letters.

Rows are compared by what they answer. A store of rows is its cells, and what is
left of it without its cells.

## Main definitions

* `LineEdit.Recoverable`: A reference that survives an edit of lines.
* `Rows.bare`: The rows without their cells.

## Theorems

* `LineEdit.restores_shift`: A reference is got back after it was moved twice.
* `LineEdit.rewriteCell_delete_insert`: A cell is as it was, with its formula.
* `LineEdit.bare_delete_insert`: The rows without their cells are as they were.
* `Rows.eq_of_bare`: Rows are equal if they are without cells, and their cells are.
-/

namespace Worksheet

/-! ## References -/

namespace LineEdit

/-- A reference that survives an edit of lines: it is spelled as it is written, and
    where it is moved to has a notation, of at most three letters if columns were
    edited. -/
def Recoverable (e : LineEdit) (w : List Char) : Prop :=
  ∀ c ∈ CellRef.ofChars? w, w = c.toChars ∧ (e.relabel c).Fits ∧
    (e.axis = .column → (Address.columnLetters (e.relabel c).col).length ≤ 3)

instance (e : LineEdit) (w : List Char) : Decidable (e.Recoverable w) :=
  inferInstanceAs (Decidable (∀ _ ∈ _, _))

section

variable (axis : Axis) (first n : Nat) (h : first ≤ first + n - 1)

theorem newLine_delete_insert (hn : 0 < n) (i : Nat) :
    (delete axis first (first + n - 1) h).KeepsLine ((insert axis first n).newLine i) ∧
      (delete axis first (first + n - 1) h).newLine ((insert axis first n).newLine i) = i := by
  by_cases hi : first ≤ i
  · have hnew : (insert axis first n).newLine i = i + n := if_pos hi
    rw [hnew]
    exact ⟨.inr (by omega), (if_pos (by omega)).trans (by omega)⟩
  · have hnew : (insert axis first n).newLine i = i := if_neg hi
    rw [hnew]
    exact ⟨.inl (by omega), if_neg (by omega)⟩

/-- A cell is not among the lines that were inserted, and is moved back when they are
    deleted. -/
theorem relabel_delete_insert (hn : 0 < n) (c : CellRef) :
    (delete axis first (first + n - 1) h).Keeps ((insert axis first n).relabel c) ∧
      (delete axis first (first + n - 1) h).relabel ((insert axis first n).relabel c) = c := by
  obtain ⟨row, col⟩ := c
  cases axis with
  | row =>
    have hline := newLine_delete_insert .row first n h hn row
    exact ⟨hline.1, congrArg (CellRef.mk · col) hline.2⟩
  | column =>
    have hline := newLine_delete_insert .column first n h hn col
    exact ⟨hline.1, congrArg (CellRef.mk row ·) hline.2⟩

/-- The deletion moves just those cells that the insertion moved. -/
theorem moves_delete_insert (hn : 0 < n) (c : CellRef) :
    (delete axis first (first + n - 1) h).moves ((insert axis first n).relabel c) =
      (insert axis first n).moves c := by
  have hline (i : Nat) : first + n - 1 < (if first ≤ i then i + n else i) ↔ first ≤ i := by
    split <;> omega
  cases axis with
  | row => exact decide_eq_decide.2 (hline c.row)
  | column => exact decide_eq_decide.2 (hline c.col)

/-- The deletion is in reach when the insertion is. -/
theorem inReach_delete (hn : 0 < n) (hreach : (insert axis first n).InReach)
    (hgrid : first + n < Address.gridLimit) :
    (delete axis first (first + n - 1) h).InReach := by
  have hreach' : n < Address.reach := hreach
  refine ⟨?_, ?_⟩
  · rwa [show first + n - 1 - first + 1 = n by omega]
  · rwa [show first + n - 1 + 1 = first + n by omega]

/-- A reference that survives the insertion is got back by the deletion. -/
theorem restores_shift (hn : 0 < n) (hreach : (insert axis first n).InReach)
    (hgrid : first + n < Address.gridLimit) {w : List Char}
    (hw : (insert axis first n).Recoverable w) :
    Address.Restores
      (Address.shift (insert axis first n).displacement (insert axis first n).moves)
      (Address.shift (delete axis first (first + n - 1) h).displacement
        (delete axis first (first + n - 1) h).moves) w := by
  have hback := relabel_delete_insert axis first n h hn
  have hmoves := moves_delete_insert axis first n h hn
  cases hcell : CellRef.ofChars? w with
  | none =>
    -- What is no reference stays both times.
    exact .of_stays (Address.shift_of_none hcell _ _) (Address.shift_of_none hcell _ _)
  | some c =>
    obtain ⟨hcanonical, hfits, hletters⟩ := hw c hcell
    cases hc : (insert axis first n).moves c with
    | true =>
      have hmoved := shift_of_moves hreach hcell hc hfits
      refine ⟨fun hreference => ?_, fun _ d hd => ?_, ?_⟩
      · rw [hcanonical] at hreference
        rw [hmoved, Address.isReference_toChars]
        cases axis with
        | row => exact (Address.isReference_toChars c).1 hreference
        | column =>
          exact ⟨List.length_pos_iff.2 (Address.columnLetters_ne_nil hfits.2), hletters rfl⟩
      · rw [hmoved] at hd
        exact Address.isWord_of_mem_toChars hd
      · have hfits' : ((delete axis first (first + n - 1) h).relabel
            ((insert axis first n).relabel c)).Fits := by
          rw [(hback c).2]
          exact CellRef.fits_of_ofChars? hcell
        rw [hmoved, shift_of_moves (inReach_delete axis first n h hn hreach hgrid)
          (CellRef.ofChars?_toChars hfits.1 hfits.2) ((hmoves c).trans hc) hfits', (hback c).2,
          ← hcanonical]
    | false =>
      have hc' : (delete axis first (first + n - 1) h).moves c = false := by
        have hsame := hmoves c
        rwa [relabel_of_not_moves hc, hc] at hsame
      exact .of_stays (shift_of_not_moves hcell hc) (shift_of_not_moves hcell hc')

/-! ## Cells -/

/-- A text is as it was, if every reference of it survives the insertion. -/
theorem rewrite_delete_insert (hn : 0 < n) (hreach : (insert axis first n).InReach)
    (hgrid : first + n < Address.gridLimit) {text : String}
    (htext : isFormulaText text = true →
      ∀ w ∈ Address.references text.toList, (insert axis first n).Recoverable w) :
    (delete axis first (first + n - 1) h).rewrite ((insert axis first n).rewrite text) = text := by
  unfold rewrite
  by_cases hformula : isFormulaText text = true
  · rw [if_pos hformula]
    obtain ⟨body, hbody⟩ := List.head?_eq_some_iff.1 (beq_iff_eq.1 hformula)
    -- What was a formula is still one, so it is rewritten again.
    have hagain : isFormulaText (String.ofList (Address.shiftReferences
        (insert axis first n).displacement (insert axis first n).moves text.toList)) = true := by
      rw [isFormulaText, String.toList_ofList, hbody, Address.shiftReferences_cons]
      rfl
    rw [if_pos hagain, String.toList_ofList]
    refine String.ext (String.toList_ofList.trans ?_)
    exact Address.mapReferences_restores fun w hw =>
      restores_shift axis first n h hn hreach hgrid (htext hformula w hw)
  · rw [if_neg hformula, if_neg hformula]

/-- A cell is as it was, if every reference of its formula survives the insertion. -/
theorem rewriteCell_delete_insert (hn : 0 < n) (hreach : (insert axis first n).InReach)
    (hgrid : first + n < Address.gridLimit) {cell : Cell}
    (hcell : isFormulaText cell.content = true →
      ∀ w ∈ Address.references cell.content.toList, (insert axis first n).Recoverable w) :
    (delete axis first (first + n - 1) h).rewriteCell
      ((insert axis first n).rewriteCell cell) = cell := by
  obtain ⟨text, style, merge, editable, formula⟩ := cell
  cases text with
  | none => rfl
  | some text =>
    exact congrArg (fun t => (⟨some t, style, merge, editable, formula⟩ : Cell))
      (rewrite_delete_insert axis first n h hn hreach hgrid hcell)

end

end LineEdit

/-! ## Rows -/

namespace Rows

/-- The rows without their cells. -/
def bare (s : Rows) : Rows := s.mapRowCells fun _ => .empty

theorem bare_mapRowCells (s : Rows) (f : SparseMap Cell → SparseMap Cell) :
    (s.mapRowCells f).bare = s.bare := by
  refine congrArg (Rows.mk s.len) (SparseMap.ext_get? fun k => ?_)
  simp only [mapRowCells, SparseMap.get?_mapValues, Option.map_map]
  rfl

theorem bare_mapFormulas (f : List Char → List Char) (s : Rows) :
    (s.mapFormulas f).bare = s.bare := by
  refine congrArg (Rows.mk s.len) (SparseMap.ext_get? fun k => ?_)
  simp only [mapFormulas, mapCells, SparseMap.get?_mapValues, Option.map_map]
  rfl

theorem bare_modifyCell (s : Rows) (c : CellRef) (edit : Cell → Cell) :
    (s.modifyCell c edit).bare = s.bare := by
  refine congrArg (Rows.mk s.len) (SparseMap.ext_get? fun k => ?_)
  simp only [modifyCell, SparseMap.get?_mapValues, SparseMap.get?_modify]
  split
  · rename_i hk
    rw [hk, Option.map_map]
    rfl
  · rfl

/-- Rows are equal if they are without their cells, and if their cells are. -/
theorem eq_of_bare {s s' : Rows} (hbare : s.bare = s'.bare) (h : ∀ c, s.cell? c = s'.cell? c) :
    s = s' := by
  have hlen : s.bare.len = s'.bare.len := congrArg Rows.len hbare
  change s.len = s'.len at hlen
  obtain ⟨len, rows⟩ := s
  obtain ⟨len', rows'⟩ := s'
  cases hlen
  refine congrArg (Rows.mk len) (SparseMap.ext_get? fun k => ?_)
  have hrow := congrArg (fun s => s.rows.get? k) hbare
  simp only [bare, mapRowCells, SparseMap.get?_mapValues] at hrow
  simp only [cell?, row?] at h
  cases hr : rows.get? k with
  | none =>
    rw [hr, Option.map_none, eq_comm, Option.map_eq_none_iff] at hrow
    exact hrow.symm
  | some r =>
    rw [hr, Option.map_some, eq_comm, Option.map_eq_some_iff] at hrow
    obtain ⟨r', hr', heq⟩ := hrow
    rw [hr']
    -- The rows say the same but for their cells, and these are found in both.
    have hcells : r.cells = r'.cells := by
      refine SparseMap.ext_get? fun j => ?_
      have hcell := h ⟨k, j⟩
      simpa only [hr, hr'] using hcell
    obtain ⟨cells, height, hidden, style⟩ := r
    obtain ⟨cells', height', hidden', style'⟩ := r'
    cases hcells
    simp only [Row.mk.injEq, true_and] at heq
    obtain ⟨rfl, rfl, rfl⟩ := heq
    rfl

end Rows

/-- Deleting the lines that were inserted restores the rows without their cells,
    whatever was done to the cells in between. -/
theorem LineEdit.bare_delete_insert {axis : Axis} {first n : Nat} (h : first ≤ first + n - 1)
    (hn : 0 < n) {s t : Rows} (ht : t.bare = ((insert axis first n).apply s).bare) :
    ((delete axis first (first + n - 1) h).apply t).bare = s.bare := by
  cases axis with
  | row =>
    have hdeleted : (t.deleteRows first (first + n - 1)).bare =
        { len := t.len - (first + n - 1 - first + 1)
          rows := t.bare.rows.removeSpan first (first + n - 1) } := by
      refine (Rows.bare_mapFormulas _ _).trans ?_
      exact congrArg (Rows.mk _) (SparseMap.mapValues_removeSpan _ _ _ _)
    have hinserted : (s.insertRows first n).bare =
        { len := s.len + n, rows := s.bare.rows.shiftUp first n } := by
      refine (Rows.bare_mapFormulas _ _).trans ?_
      exact congrArg (Rows.mk _) (SparseMap.mapValues_shiftUp _ _ _ _)
    have hlen : t.len = s.len + n := congrArg Rows.len (ht.trans hinserted)
    refine hdeleted.trans ?_
    rw [ht.trans hinserted, SparseMap.removeSpan_shiftUp _ _ hn, hlen]
    have hcount : s.len + n - (first + n - 1 - first + 1) = s.len := by omega
    exact congrArg (Rows.mk · s.bare.rows) hcount
  | column =>
    have hdeleted : (t.deleteColumns first (first + n - 1)).bare = t.bare :=
      (Rows.bare_mapFormulas _ _).trans (Rows.bare_mapRowCells _ _)
    have hinserted : (s.insertColumns first n).bare = s.bare :=
      (Rows.bare_mapFormulas _ _).trans (Rows.bare_mapRowCells _ _)
    exact hdeleted.trans (ht.trans hinserted)

end Worksheet
