import Worksheet.Cell
import Worksheet.Proofs.Address.Composing
import Worksheet.Proofs.Formula.Reading
import Worksheet.Proofs.Formula.Relabelling

/-!
# Formulas Whose References Are Shifted

A formula after its references were moved along with the cells.

Rewriting moves those references by one displacement that a test picks, while cells
may move in any way. The text says the same about the moved cells if the two agree on
its references and if no range is torn apart. So little is asked that inserting lines,
deleting them and copying a block are all cases of it, and each of them only has to say
where its references and its ranges go.

The cells that the tokens of a formula mean are not listed in its text. They come from
references and from ranges. That no token means any other cell is shown by reading the
text next to itself: under a movement that moves away every other cell the text still
follows itself, and so a token can only mean a cell that the movement leaves in place.

## Theorems

* `Formula.rangeOperands_between_follows`: Ranges whose cells move along.
* `Formula.textFollows_shiftReferences`: Texts whose references move along.
* `Formula.refersTo_of_references`: Tokens mean the cells of references and ranges.
-/

namespace Worksheet

namespace Range

/-- The corners of a range are two of its cells. -/
theorem corners_mem_between (a b : CellRef) :
    a ∈ (between a b).cells ∧ b ∈ (between a b).cells := by
  simp only [mem_cells_iff, mem_iff, between]
  omega

end Range

namespace Address

/-- Moving the references of a formula leaves its equals sign. -/
theorem shiftReferences_cons (d : Displacement) (moves : CellRef → Bool) (body : List Char) :
    shiftReferences d moves ('=' :: body) = '=' :: shiftReferences d moves body := by
  unfold shiftReferences mapReferences pieces
  rw [piecesFrom_plain body (by decide), joinWith]
  rfl

/-- A word follows if it is rewritten to where its cell is. -/
theorem wordFollows_shift {move : CellRef → CellRef} {d : Displacement} {moves : CellRef → Bool}
    {w : List Char}
    (h : ∀ c ∈ CellRef.ofChars? w, CellRef.ofChars? (shift d moves w) = some (move c)) :
    WordFollows move w (shift d moves w) := by
  cases hcell : CellRef.ofChars? w with
  | none => exact .inl ⟨hcell, shift_of_none hcell d moves⟩
  | some c => exact .inr ⟨c, hcell, h c hcell⟩

end Address

namespace Formula

variable {move : CellRef → CellRef} {kept : CellRef → Prop} {limit : Nat} {body : List Char}

/-- A range whose cells move to the cells between the moved corners moves along with its
    corners. -/
theorem rangeOperands_between_follows {a b : CellRef} (ha : a.Fits) (hb : b.Fits)
    (ha' : (move a).Fits) (hb' : (move b).Fits)
    (hcells : (Range.between (move a) (move b)).cells = (Range.between a b).cells.map move) :
    List.Forall₂ (TokenFollows move) (rangeOperands limit (Range.between a b))
      (rangeOperands limit (Range.between (move a) (move b))) := by
  refine Converter.rangeOperands_follows hcells fun c hc =>
    ⟨Range.fits_of_mem_between ha hb hc, ?_⟩
  -- The moved cell lies between the moved corners, which are on the grid.
  refine Range.fits_of_mem_between ha' hb' ?_
  rw [hcells]
  exact List.mem_map_of_mem hc

/-- A text follows after its references were moved, if its references and its ranges
    follow and it refers to no cell that is lost. -/
theorem textFollows_shiftReferences {text : String} {d : Displacement} {moves : CellRef → Bool}
    (h : ∀ body, text.toList = '=' :: body →
      Address.Unambiguous false body ∧
      (∀ w ∈ Address.references body, Address.WordFollows move w (Address.shift d moves w)) ∧
      (∀ r ∈ expandedRanges limit body, Converter.RangeFollows move limit r) ∧
      RefersTo kept (postfixOf limit body)) :
    TextFollows move kept limit text
      (if isFormulaText text then String.ofList (Address.shiftReferences d moves text.toList)
        else text) := by
  by_cases hformula : isFormulaText text = true
  · rw [if_pos hformula]
    obtain ⟨body, hbody⟩ := List.head?_eq_some_iff.1 (beq_iff_eq.1 hformula)
    obtain ⟨hplain, hwords, hranges, hkept⟩ := h body hbody
    have hbody' : (String.ofList (Address.shiftReferences d moves text.toList)).toList =
        '=' :: Address.shiftReferences d moves body := by
      rw [String.toList_ofList, hbody, Address.shiftReferences_cons]
    -- The references follow word by word, and the tokens follow the text.
    exact .formula hbody hbody'
      (postfixOf_follows (Address.follows_joinWith hplain hwords) hranges) hkept
  · rw [if_neg hformula]
    exact .plain fun hhead => hformula (beq_iff_eq.2 hhead)

/-- A movement that moves away exactly the cells that are not kept. -/
theorem exists_move_eq_iff (kept : CellRef → Prop) :
    ∃ move : CellRef → CellRef, ∀ c, move c = c ↔ kept c := by
  classical
  refine ⟨fun c => if kept c then c else ⟨c.row + 1, c.col⟩, fun c => ?_⟩
  by_cases hc : kept c
  · exact iff_of_true (if_pos hc) hc
  · refine iff_of_false (fun heq => ?_) hc
    simp only [if_neg hc] at heq
    exact Nat.succ_ne_self c.row (congrArg CellRef.row heq)

/-- The tokens of a formula mean no cells but those of its references and ranges. -/
theorem refersTo_of_references (hplain : Address.Unambiguous false body)
    (hreferences : ∀ w ∈ Address.references body, ∀ c ∈ CellRef.ofChars? w, kept c)
    (hranges : ∀ r ∈ expandedRanges limit body, ∀ c ∈ r.cells, kept c) :
    RefersTo kept (postfixOf limit body) := by
  obtain ⟨move, hmove⟩ := exists_move_eq_iff kept
  have hwords : ∀ w ∈ Address.references body, Address.WordFollows move w w := by
    intro w hw
    cases hcell : CellRef.ofChars? w with
    | none => exact .inl ⟨hcell, rfl⟩
    | some c => exact .inr ⟨c, hcell, by rw [(hmove c).2 (hreferences w hw c hcell), hcell]⟩
  have hfollows : Address.Follows move false body body := by
    have hjoined := Address.follows_joinWith (f := fun w => w) hplain hwords
    rwa [Address.joinWith_self] at hjoined
  have hrange : ∀ r ∈ expandedRanges limit body, Converter.RangeFollows move limit r := by
    rintro r hr a b ha hb ha' hb' rfl
    -- The corners are cells of the range, so the range stays, and so does what is in it.
    have hstays : ∀ c ∈ (Range.between a b).cells, move c = c := fun c hc =>
      (hmove c).2 (hranges _ hr c hc)
    obtain ⟨hamem, hbmem⟩ := Range.corners_mem_between a b
    refine rangeOperands_between_follows ha hb ha' hb' ?_
    rw [hstays a hamem, hstays b hbmem, List.map_congr_left hstays, List.map_id']
  have htokens := postfixOf_follows hfollows hrange
  -- A token corresponds to itself, so it can only mean a cell that stays.
  intro t ht c hc
  cases List.forall₂_same.1 htokens t ht with
  | @operand text text' hsign hmeaning =>
    rw [Token.cell?] at hc
    cases hm : meaning (splitSign text).2 with
    | value v =>
      rw [hm] at hc
      cases hc
    | cell d =>
      rw [hm] at hc hmeaning
      obtain rfl : d = c := Option.some.inj hc
      exact (hmove d).1 (Meaning.cell.inj hmeaning).symm
  | _ => cases hc

end Formula

end Worksheet
