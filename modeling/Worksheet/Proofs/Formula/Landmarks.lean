import Mathlib.Data.List.Basic
import Worksheet.Proofs.Formula.Converter
import Worksheet.Proofs.Formula.Leaf
import Worksheet.Proofs.Formula.Wording

/-!
# Landmarks of a Formula

What a reader of the tokens holds on to, however they are computed with.

A formula in postfix form is full of what belongs to the computation: operators,
counts of arguments, the cells that a range was replaced by. A reader looks for less:
the names of the calls, the numbers and, where there are no ranges, the cells. These
are the landmarks of the tokens, and they stand in order.

## Main definitions

* `Landmark`, `landmarks`: What is left of tokens.
* `Token.name?`, `Token.number?`, `Token.reference?`: What a token is to a reader.

## Theorems

* `landmarks_expandRange`: Replacing a range changes no landmarks, unless cells count.
* `filterMap_name?`, `filterMap_number?`, `filterMap_reference?`: What a reader sees is
  told by the landmarks.
-/

namespace Worksheet

namespace Formula

/-- What a token tells apart from how it is computed with. -/
inductive Landmark where
  | name (text : String)
  | number (text : String)
  | cell (negative : Bool) (c : CellRef)
  deriving DecidableEq

/-- The landmark with its cell moved. -/
def Landmark.map (move : CellRef → CellRef) : Landmark → Landmark
  | .cell negative c => .cell negative (move c)
  | l => l

/-- The landmark of a token. Cells are looked at or not. -/
def Token.landmark? (cells : Bool) : Token → Option Landmark
  | .operand text =>
    if (Number.ofText? text).isSome then some (.number text)
    else if cells then (CellRef.ofText? (splitSign text).2).map (.cell (splitSign text).1)
    else none
  | .func name _ => some (.name name)
  | .call name _ => some (.name name)
  | _ => none

/-- The landmarks of tokens, in order. -/
def landmarks (cells : Bool) (ts : List Token) : List Landmark :=
  ts.filterMap (Token.landmark? cells)

namespace Converter

variable {cells : Bool}

theorem landmarks_cons (t : Token) (ts : List Token) :
    landmarks cells (t :: ts) = (t.landmark? cells).toList ++ landmarks cells ts := by
  unfold landmarks
  cases h : t.landmark? cells with
  | none => simp [h]
  | some l => simp [h]

theorem landmarks_append (ts ts' : List Token) :
    landmarks cells (ts ++ ts') = landmarks cells ts ++ landmarks cells ts' :=
  List.filterMap_append

theorem landmarks_reverse (ts : List Token) :
    landmarks cells ts.reverse = (landmarks cells ts).reverse :=
  List.filterMap_reverse

/-- A call that is closed is known by its name. -/
theorem landmarks_callToken (name : String) (args : Nat) (counted : Bool) (mark : Nat)
    (out ts : List Token) :
    landmarks cells (callToken name args counted mark out :: ts) =
      .name name :: landmarks cells ts := by
  unfold callToken
  split
  · rfl
  · split <;> rfl

/-! ## Cells and ranges -/

/-- A text that spells a cell is no number. -/
theorem ofText?_of_cell {text : String} {c : CellRef} (h : CellRef.ofText? text = some c) :
    Number.ofText? text = none := by
  obtain ⟨d, hd, hletter⟩ := cell_head h
  obtain ⟨ds, hds⟩ := List.head?_eq_some_iff.1 hd
  have hnone := (Worded.of_letter ds hletter).ofText?_eq_none false
  rwa [signChars, if_neg (by decide), List.nil_append, ← hds, String.ofList_toList] at hnone

/-- The notation of a cell leaves no landmark. -/
theorem landmark?_toText {c : CellRef} (h : c.Fits) :
    (Token.operand c.toText).landmark? false = none := by
  have hread : CellRef.ofText? c.toText = some c := by
    rw [CellRef.ofText?, CellRef.toText, String.toList_ofList]
    exact CellRef.ofChars?_toChars h.1 h.2
  rw [Token.landmark?, ofText?_of_cell hread]
  rfl

/-- What a range is replaced by leaves none. -/
theorem landmarks_rangeOperands {a b : CellRef} (ha : a.Fits) (hb : b.Fits) (limit : Nat) :
    landmarks false (rangeOperands limit (Range.between a b)) = [] := by
  unfold rangeOperands
  cases hcells : rangeCells? limit (Range.between a b) with
  | some cs =>
    rw [landmarks, List.filterMap_eq_nil_iff]
    intro t ht
    obtain ⟨c, hc, rfl⟩ := List.mem_map.1 ht
    rw [eq_cells_of_rangeCells? hcells] at hc
    exact landmark?_toText (Range.fits_of_mem_between ha hb hc)
  | none =>
    have hworded : Worded Failure.reference.sentinel.toList :=
      ⟨['#'], 'R', _, rfl, by decide, fun d hd => by cases hd; exact ⟨by decide, by decide⟩⟩
    have hnone := hworded.ofText?_eq_none false
    rw [signChars, if_neg (by decide), List.nil_append, String.ofList_toList] at hnone
    rw [landmarks_cons, Token.landmark?, hnone]
    rfl

/-- Replacing a range changes no landmarks, as long as cells are not looked at. -/
theorem landmarks_expandRange (start : Nat) (s : Converter) :
    landmarks false (s.expandRange start).output = landmarks false s.output := by
  by_cases hcorners : ∃ x y out, Corners start s.output x y out
  · obtain ⟨x, y, out, hcorners⟩ := hcorners
    rw [expandRange_corners hcorners]
    generalize s.output = ts at hcorners
    cases hcorners with
    | mk hstart ha hb =>
      rw [landmarks_append, landmarks_reverse, landmarks_rangeOperands
        (CellRef.fits_of_ofChars? ha) (CellRef.fits_of_ofChars? hb), landmarks_cons,
        landmarks_cons, Token.landmark?, Token.landmark?, ofText?_of_cell ha, ofText?_of_cell hb]
      rfl
  · rw [expandRange_of_not_corners hcorners]

end Converter

/-! ## Names, numbers and cells -/

/-- The name of a call. -/
def Token.name? : Token → Option String
  | .func name _ => some name
  | .call name _ => some name
  | _ => none

/-- The text of an operand that is a number. -/
def Token.number? : Token → Option String
  | .operand text => if (Number.ofText? text).isSome then some text else none
  | _ => none

/-- The cell of an operand that is a reference, behind its sign. -/
def Token.reference? : Token → Option (Bool × CellRef)
  | .operand text => (CellRef.ofText? (splitSign text).2).map fun c => ((splitSign text).1, c)
  | _ => none

namespace Landmark

def name? : Landmark → Option String
  | .name text => some text
  | _ => none

def number? : Landmark → Option String
  | .number text => some text
  | _ => none

def reference? : Landmark → Option (Bool × CellRef)
  | .cell negative c => some (negative, c)
  | _ => none

end Landmark

/-- A number is no reference behind a sign. -/
theorem reference?_of_number {text : String} (h : (Number.ofText? text).isSome = true) :
    (Token.operand text).reference? = none := by
  cases hcell : CellRef.ofText? (splitSign text).2 with
  | none => rw [Token.reference?, hcell, Option.map_none]
  | some c =>
    obtain ⟨d, hd, hletter⟩ := cell_head hcell
    obtain ⟨ds, hds⟩ := List.head?_eq_some_iff.1 hd
    have hnone := (Worded.of_letter ds hletter).ofText?_eq_none (splitSign text).1
    -- The sign and what stands behind it are the text.
    have htext : String.ofList (signChars (splitSign text).1 ++ d :: ds) = text := by
      rw [← hds]
      unfold splitSign
      split
      · rename_i body hbody
        rw [String.toList_ofList]
        exact (congrArg String.ofList hbody).symm.trans String.ofList_toList
      · exact String.ofList_toList
    rw [htext] at hnone
    rw [hnone] at h
    cases h

section

variable (ts : List Token)

theorem filterMap_name? (cells : Bool) :
    ts.filterMap Token.name? = (landmarks cells ts).filterMap Landmark.name? := by
  rw [landmarks, List.filterMap_filterMap]
  refine List.filterMap_congr fun t _ => ?_
  cases t with
  | operand text =>
    rw [Token.landmark?]
    split
    · rfl
    · split
      · cases CellRef.ofText? (splitSign text).2 <;> rfl
      · rfl
  | quoted | op | func | call => rfl

theorem filterMap_number? (cells : Bool) :
    ts.filterMap Token.number? = (landmarks cells ts).filterMap Landmark.number? := by
  rw [landmarks, List.filterMap_filterMap]
  refine List.filterMap_congr fun t _ => ?_
  cases t with
  | operand text =>
    rw [Token.landmark?, Token.number?]
    split
    · rfl
    · split
      · cases CellRef.ofText? (splitSign text).2 <;> rfl
      · rfl
  | quoted | op | func | call => rfl

theorem filterMap_reference? :
    ts.filterMap Token.reference? = (landmarks true ts).filterMap Landmark.reference? := by
  rw [landmarks, List.filterMap_filterMap]
  refine List.filterMap_congr fun t _ => ?_
  cases t with
  | operand text =>
    rw [Token.landmark?]
    split
    · rename_i hnumber
      rw [reference?_of_number hnumber]
      rfl
    · rw [if_pos rfl, Token.reference?]
      cases CellRef.ofText? (splitSign text).2 <;> rfl
  | quoted | op | func | call => rfl

end

end Formula

end Worksheet
