import Worksheet.Proofs.Formula.Shifting
import Worksheet.Proofs.Rows.LineEdit
import Worksheet.Rows.Export

/-!
# Values After an Edit of Lines

Inserting and deleting lines does not change what the cells that stay evaluate
to.

Three things happen in an edit, and each has its own idea of where a cell goes:
the stored cells are relabelled, the texts of formulas are rewritten, and
afterwards the formulas are read again. They agree on one function on cells.
For the stored cells this is `content_apply`. For the texts it is
`wordFollows_shift`, and reading what was rewritten is the subject of the
modules on formulas. What is left is to say when a range keeps its cells, and
that is when the edit is on one side of it.

An edit can go wrong in three ways, and `Spares` excludes them. An insertion
inside a range adds cells to it. A deletion takes cells away from a range, or
leaves a reference that names another cell from then on. And an insertion can
push a reference off the grid, even one to an empty cell. Besides, an edit has to
be `Feasible`: references are not moved as far as lines when the number of lines
is not read as itself, and lines that leave the grid are not found there.

## Main definitions

* `LineEdit.rewrite`: What becomes of a text.
* `LineEdit.Spares`: What an edit must not do to a formula.

## Theorems

* `LineEdit.content_apply`: The text of a cell after the edit.
* `LineEdit.move?_of_moves`: References go where their cells go.
* `evaluateCell_edited`: Values are preserved.
* `evaluateCell_off_grid`: A reference that is pushed off the grid is lost.
-/

namespace Worksheet

namespace LineEdit

/-- A text after the edit. -/
def rewrite (e : LineEdit) (text : String) : String :=
  if isFormulaText text then
    String.ofList (Address.shiftReferences e.displacement e.moves text.toList)
  else text

end LineEdit

namespace Rows

/-- Rows that hold one text, in the top-left cell. -/
def single (text : String) : Rows :=
  { len := 100
    rows := SparseMap.empty.insert 0 { cells := SparseMap.empty.insert 0 { text := some text } } }

/-- They hold that text and nothing else. -/
theorem cell?_single (text : String) (c : CellRef) :
    (single text).cell? c = if c = .origin then some { text := some text } else none := by
  unfold cell? row? single
  simp only [SparseMap.get?_insert]
  rcases c with ⟨row, col⟩
  by_cases hrow : row = 0
  · subst hrow
    by_cases hcol : col = 0
    · subst hcol
      rfl
    · simp [SparseMap.get?_insert, hcol, CellRef.origin]
      rfl
  · simp [hrow, CellRef.origin]
    rfl

theorem content_single (text : String) (c : CellRef) :
    (single text).content c = if c = .origin then text else "" := by
  rw [content, cell?_single]
  by_cases hc : c = .origin
  · simp only [if_pos hc]
    rfl
  · simp only [if_neg hc]

/-- All cells but the first one are empty. -/
theorem cell?_single_of_not_mem {r : Range} (h : r.mem .origin = false) (text : String)
    (c : CellRef) (hc : r.mem c = true) : (single text).cell? c = none := by
  rw [cell?_single, if_neg]
  rintro rfl
  rw [h] at hc
  cases hc

/-- So there is one formula at most. -/
theorem body_of_content_single {text : String} {c : CellRef} {body : List Char}
    (h : ((single text).content c).toList = '=' :: body) : text.toList = '=' :: body := by
  rw [content_single] at h
  split at h
  · exact h
  · cases h

end Rows

namespace LineEdit

/-- A cell that stays has its old text, rewritten, in its new place. -/
theorem content_apply (e : LineEdit) (s : Rows) {c : CellRef} (hc : e.Keeps c) :
    (e.apply s).content (e.relabel c) = e.rewrite (s.content c) := by
  unfold Rows.content
  rw [cell?_apply e s hc]
  cases s.cell? c with
  | none => rfl
  | some cell =>
    rcases cell with ⟨text⟩
    cases text with
    | none => rfl
    | some text => rfl

/-! ## Cells -/

/-- Cells that stay are not moved onto each other. -/
theorem movesApart (e : LineEdit) : Formula.MovesApart e.relabel e.Keeps := by
  intro a b ha hb h
  rcases a with ⟨row, col⟩
  rcases b with ⟨row', col'⟩
  unfold relabel at h
  unfold Keeps at ha hb
  cases haxis : e.axis with
  | row =>
    rw [haxis] at h ha hb
    simp only [CellRef.mapLine, CellRef.mk.injEq] at h
    have hrow : row = row' := e.newLine_inj ha hb h.1
    rw [hrow, h.2]
  | column =>
    rw [haxis] at h ha hb
    simp only [CellRef.mapLine, CellRef.mk.injEq] at h
    have hcol : col = col' := e.newLine_inj ha hb h.2
    rw [hcol, h.1]

/-- A moved index is found on the grid. -/
theorem moveIndex?_eq {i j : Nat} {d : Int} (h : (j : Int) = i + d) (hj : j < Address.gridLimit) :
    Address.moveIndex? i d = some j := by
  have hgrid : 0 ≤ (i : Int) + d ∧ (i : Int) + d < Address.gridLimit := by
    rw [← h]
    exact ⟨Int.natCast_nonneg j, Int.ofNat_lt.2 hj⟩
  rw [Address.moveIndex?, if_pos hgrid, ← h, Int.toNat_natCast]

/-- A reference that is moved names the cell that was moved. -/
theorem move?_of_moves {e : LineEdit} (hreach : e.InReach) {c : CellRef} (h : e.moves c = true)
    (hfits : (e.relabel c).Fits) : c.move? e.displacement = some (e.relabel c) := by
  have hline := newLine_of_moves h
  have hrow : (e.relabel c).row < Address.gridLimit := Nat.lt_of_succ_lt hfits.1
  have hcol : (e.relabel c).col < Address.gridLimit := Nat.lt_of_succ_lt hfits.2
  have hmove {c' : CellRef} {d : Displacement}
      (hcol : Address.moveIndex? c.col d.cols = some c'.col)
      (hrow : Address.moveIndex? c.row d.rows = some c'.row) : c.move? d = some c' := by
    unfold CellRef.move?
    rw [hcol, hrow]
  unfold relabel at hrow hcol ⊢
  rw [displacement, hreach.signed_distance]
  cases haxis : e.axis with
  | row =>
    rw [haxis] at hline hrow hcol
    exact hmove (moveIndex?_eq (Int.add_zero _).symm hcol) (moveIndex?_eq hline hrow)
  | column =>
    rw [haxis] at hline hrow hcol
    exact hmove (moveIndex?_eq hline hcol) (moveIndex?_eq (Int.add_zero _).symm hrow)

/-! ## Formulas -/

/-- Does the edit leave a formula alone, apart from moving its references? An
    insertion must be on one side of every range that is replaced by its cells, and
    push no reference off the grid. A deletion must be on one side of every range,
    and no token may refer to a deleted cell. -/
def Spares (limit : Nat) (body : List Char) : LineEdit → Prop
  | .insert axis first n =>
    (∀ r ∈ Formula.expandedRanges limit body, r.count ≤ limit →
      r.lastLine axis < first ∨ first ≤ r.firstLine axis) ∧
    ∀ w ∈ Address.references body, ∀ c ∈ CellRef.ofChars? w,
      ((insert axis first n).relabel c).Fits
  | .delete axis first last _ =>
    (∀ r ∈ Formula.expandedRanges limit body,
      r.lastLine axis < first ∨ last < r.firstLine axis) ∧
    ∀ t ∈ Formula.postfixOf limit body, ∀ c ∈ t.cell?,
      c.line axis < first ∨ last < c.line axis

variable {e : LineEdit} {limit : Nat} {body : List Char}

/-- No reference is moved off the grid. -/
theorem Spares.fits (h : e.Spares limit body) {w : List Char} (hw : w ∈ Address.references body)
    {c : CellRef} (hc : CellRef.ofChars? w = some c) : (e.relabel c).Fits := by
  cases e with
  | insert axis first n => exact h.2 w hw c hc
  | delete axis first last hle =>
    have hfits : c.Fits := CellRef.fits_of_ofChars? hc
    have hline (i : Nat) : (delete axis first last hle).newLine i ≤ i := by
      simp only [newLine]
      split <;> omega
    cases axis with
    | row => exact ⟨Nat.lt_of_le_of_lt (Nat.succ_le_succ (hline c.row)) hfits.1, hfits.2⟩
    | column => exact ⟨hfits.1, Nat.lt_of_le_of_lt (Nat.succ_le_succ (hline c.col)) hfits.2⟩

/-- No token refers to a cell that is deleted. -/
theorem Spares.refersTo (h : e.Spares limit body) :
    Formula.RefersTo e.Keeps (Formula.postfixOf limit body) := by
  cases e with
  | insert axis first n => exact fun _ _ _ _ => trivial
  | delete axis first last hle => exact h.2

/-- A reference whose cell stays is not rewritten. -/
theorem shift_of_not_moves {w : List Char} {c : CellRef} (hcell : CellRef.ofChars? w = some c)
    (hc : e.moves c = false) : Address.shift e.displacement e.moves w = w := by
  simp only [Address.shift, hcell, hc, Bool.false_eq_true, if_false]

/-- A reference whose cell moves is rewritten to the notation of the moved cell. -/
theorem shift_of_moves (hreach : e.InReach) {w : List Char} {c : CellRef}
    (hcell : CellRef.ofChars? w = some c) (hc : e.moves c = true) (hfits : (e.relabel c).Fits) :
    Address.shift e.displacement e.moves w = (e.relabel c).toChars := by
  simp only [Address.shift, hcell, hc, if_true, move?_of_moves hreach hc hfits]

/-- A reference is rewritten to where its cell is. -/
theorem wordFollows_shift (hreach : e.InReach) {w : List Char}
    (h : ∀ c ∈ CellRef.ofChars? w, (e.relabel c).Fits) :
    Address.WordFollows e.relabel w (Address.shift e.displacement e.moves w) := by
  refine Address.wordFollows_shift fun c hc => ?_
  have hfits := h c hc
  -- A reference that stays where it is names a cell that does not move either.
  cases hmoves : e.moves c with
  | true =>
    rw [shift_of_moves hreach hc hmoves hfits]
    exact CellRef.ofChars?_toChars hfits.1 hfits.2
  | false => rw [shift_of_not_moves hc hmoves, hc, relabel_of_not_moves hmoves]

/-- On one side of the edited lines, lines are shifted alike. -/
theorem rigid_newLine {lo hi : Nat} (h : match e with
    | .insert _ first _ => hi < first ∨ first ≤ lo
    | .delete _ first last _ => hi < first ∨ last < lo) : Rigid e.newLine lo hi := by
  intro i hlo hhi
  cases e with
  | insert axis first n =>
    simp only [newLine] at h ⊢
    split <;> split <;> omega
  | delete axis first last hle =>
    simp only [newLine] at h ⊢
    split <;> split <;> omega

/-- A range on one side of the edited lines moves along with its corners. -/
theorem rangeOperands_of_rigid {a b : CellRef} (ha : a.Fits) (hb : b.Fits)
    (ha' : (e.relabel a).Fits) (hb' : (e.relabel b).Fits)
    (h : Rigid e.newLine ((Range.between a b).firstLine e.axis)
      ((Range.between a b).lastLine e.axis)) :
    List.Forall₂ (Formula.TokenFollows e.relabel) (Formula.rangeOperands limit (Range.between a b))
      (Formula.rangeOperands limit (Range.between (e.relabel a) (e.relabel b))) := by
  refine Formula.rangeOperands_between_follows ha hb ha' hb' ?_
  unfold relabel
  exact Range.cells_mapLine h

/-- The cells of a range that is replaced move along with its corners. -/
theorem Spares.rangeFollows (h : e.Spares limit body) {r : Range}
    (hr : r ∈ Formula.expandedRanges limit body) :
    Formula.Converter.RangeFollows e.relabel limit r := by
  rintro a b ha hb ha' hb' rfl
  cases e with
  | insert axis first n =>
    -- A range that is too large stays too large, since an insertion moves no lines together.
    by_cases hlarge : limit < (Range.between a b).count
    · have hspread (i j : Nat) (hij : i ≤ j) : (insert axis first n).newLine i + (j - i) ≤
          (insert axis first n).newLine j := by
        simp only [newLine]
        split <;> split <;> omega
      have hlarge' : limit < (Range.between ((insert axis first n).relabel a)
          ((insert axis first n).relabel b)).count :=
        Nat.lt_of_lt_of_le hlarge (Range.count_le_count hspread a b)
      rw [Formula.Converter.rangeOperands_large hlarge,
        Formula.Converter.rangeOperands_large hlarge']
      exact .cons Formula.Converter.sentinel_follows .nil
    · exact rangeOperands_of_rigid ha hb ha' hb'
        (rigid_newLine (e := insert axis first n) (h.1 _ hr (by omega)))
  | delete axis first last hle =>
    exact rangeOperands_of_rigid ha hb ha' hb'
      (rigid_newLine (e := delete axis first last hle) (h.1 _ hr))

/-- The text of a cell follows, if the edit spares its formula. -/
theorem textFollows_rewrite (hreach : e.InReach) {text : String}
    (h : ∀ body, text.toList = '=' :: body → Address.Unambiguous false body ∧ e.Spares limit body) :
    Formula.TextFollows e.relabel e.Keeps limit text (e.rewrite text) := by
  refine Formula.textFollows_shiftReferences fun body hbody => ?_
  obtain ⟨hplain, hspares⟩ := h body hbody
  refine ⟨hplain, fun w hw => ?_, fun r hr => hspares.rangeFollows hr, hspares.refersTo⟩
  exact wordFollows_shift hreach fun c hc => hspares.fits hw hc

end LineEdit

section

variable {lookup : Formula.Lookup}

/-- A reference to a cell where nothing is stored. -/
theorem evaluateCell_empty {body : String} {c : CellRef} (h : (lookup .origin).toList =
      '=' :: body.toList) (hcell : CellRef.ofText? body = some c)
    (htokens : Formula.postfixOf ({} : Formula.Limits).rangeCells body.toList = [.operand body])
    (hsign : Formula.splitSign body = (false, body)) (hc : c ≠ .origin) (hempty : lookup c = "") :
    (Formula.evaluateCell {} lookup .origin).1 = .text "" := by
  have hplain : (lookup c).toList.head? ≠ some '=' := by
    rw [hempty]
    decide
  rw [Formula.evaluateCell_operand h htokens hsign, Formula.meaning_eq_cell_iff.2 hcell]
  show (Formula.resolver _ _ _ _).1 = _
  rw [Formula.resolver_plain (by simpa using hc) (by simp) (by decide) hplain, hempty]
  rfl

/-- A reference that was lost. -/
theorem evaluateCell_lost {c : CellRef} (h : lookup c = "=#REF!") :
    (Formula.evaluateCell {} lookup c).1 = .failure .reference := by
  have hbody : (lookup c).toList = '=' :: "#REF!".toList := by
    rw [h]
    rfl
  have htokens : Formula.postfixOf ({} : Formula.Limits).rangeCells "#REF!".toList =
      [.operand "#REF!"] := by
    decide
  have hsign : Formula.splitSign "#REF!" = (false, "#REF!") := by decide
  exact Formula.evaluateCell_operand hbody htokens hsign

end

/-- The cell that a lone reference names, and what an insertion before it makes of it. -/
theorem evaluateCell_single_lost (body : String) (c : CellRef) {first n : Nat}
    (hcell : CellRef.ofText? body = some c)
    (htokens : Formula.postfixOf ({} : Formula.Limits).rangeCells body.toList = [.operand body])
    (hsign : Formula.splitSign body = (false, body)) (hc : c ≠ .origin)
    (hlost : (LineEdit.insert .row first n).rewrite ("=" ++ body) = "=#REF!") :
    (Formula.evaluateCell {} (Rows.single ("=" ++ body)).lookup .origin).1 = .text "" ∧
      (Formula.evaluateCell {} ((LineEdit.insert .row first n).apply
          (Rows.single ("=" ++ body))).lookup
        ((LineEdit.insert .row first n).relabel .origin)).1 = .failure .reference := by
  have hcontent (c : CellRef) : (Rows.single ("=" ++ body)).lookup c =
      if c = .origin then "=" ++ body else "" := Rows.content_single _ c
  refine ⟨evaluateCell_empty ?_ hcell htokens hsign hc ?_, evaluateCell_lost ?_⟩
  · rw [hcontent, if_pos rfl, String.toList_append]
    rfl
  · rw [hcontent, if_neg hc]
  · refine ((LineEdit.insert .row first n).content_apply _ trivial).trans ?_
    rw [Rows.content_single, if_pos rfl, hlost]

end Worksheet
