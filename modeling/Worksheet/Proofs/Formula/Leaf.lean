import Mathlib.Data.List.TakeWhile
import Worksheet.Proofs.Address.Notation
import Worksheet.Proofs.Address.Rectangle
import Worksheet.Proofs.Formula.Expression

/-!
# The Texts of Leaves

What the converter and the evaluator need to know about the texts that a tree
is made of.

The converter only asks whether a character gathers in a run, so numbers,
cells and names are all one case to it. The evaluator asks what a run spells,
and there the leaves differ: a number is read by its digits, and a cell by its
letters and digits, which are neither a truth value nor the sentinel of a
failure. The cells of a range are spelled by their own notation, and they can
be read back because a range between two cells that can be spelled stays on
the grid.

## Theorems

* `isGathered_iff`: The characters that end a run.
* `Numeral.read?_chars`: The literal that a number spells.
* `Reference.ofText?_capitals`: A cell in capitals is the same cell.
* `ofText?_cell_between`: The cells of a range read back.
* `Expr.starts_text`: No formula begins like the second half of a comparison.
-/

namespace Worksheet

namespace Formula

/-- A character gathers unless it is one of fourteen. -/
theorem isGathered_iff {c : Char} : isGathered c = true ↔
    c ≠ ' ' ∧ c ≠ '"' ∧ c ≠ '+' ∧ c ≠ '-' ∧ c ≠ '*' ∧ c ≠ '/' ∧ c ≠ '&' ∧ c ≠ '=' ∧ c ≠ '<' ∧
      c ≠ '>' ∧ c ≠ '(' ∧ c ≠ ')' ∧ c ≠ ',' ∧ c ≠ ':' := by
  simp [isGathered]

/-- Letters gather. -/
theorem isGathered_of_isLetter {c : Char} (h : Text.isLetter c = true) : isGathered c = true := by
  rw [isGathered_iff]
  refine ⟨?_, ?_, ?_, ?_, ?_, ?_, ?_, ?_, ?_, ?_, ?_, ?_, ?_, ?_⟩ <;> rintro rfl <;>
    revert h <;> decide

/-- Digits gather. -/
theorem isGathered_of_isDigit {c : Char} (h : Text.isDigit c = true) : isGathered c = true := by
  rw [isGathered_iff]
  refine ⟨?_, ?_, ?_, ?_, ?_, ?_, ?_, ?_, ?_, ?_, ?_, ?_, ?_, ?_⟩ <;> rintro rfl <;>
    revert h <;> decide

/-- The capital of a gathered character is not a minus sign. -/
theorem upper_ne_minus {c : Char} (h : isGathered c = true) : Text.upper c ≠ '-' := by
  by_cases hl : Text.isLetter c = true
  · intro hc
    rw [← Text.isLetter_upper, hc] at hl
    exact absurd hl (by decide)
  · rw [Text.upper_of_not_isLetter (by simpa using hl)]
    exact (isGathered_iff.1 h).2.2.2.1

/-- Word characters gather. -/
theorem isGathered_of_isWord {c : Char} (h : Text.isWord c = true) : isGathered c = true := by
  rw [isGathered_iff]
  refine ⟨?_, ?_, ?_, ?_, ?_, ?_, ?_, ?_, ?_, ?_, ?_, ?_, ?_, ?_⟩ <;> rintro rfl <;>
    revert h <;> decide

/-- Capitals gather like their letters. -/
theorem isGathered_upper {c : Char} (h : isGathered c = true) :
    isGathered (Text.upper c) = true := by
  by_cases hl : Text.isLetter c = true
  · exact isGathered_of_isLetter (by rwa [Text.isLetter_upper])
  · rwa [Text.upper_of_not_isLetter (by simpa using hl)]

/-- The capitals of a gathered text gather. -/
theorem forall_upper {w : List Char} (hw : ∀ c ∈ w, isGathered c = true) :
    ∀ c ∈ w.map Text.upper, isGathered c = true := by
  intro c hc
  rcases List.mem_map.1 hc with ⟨d, hd, rfl⟩
  exact isGathered_upper (hw d hd)

namespace Numeral

/-- A number is not empty. -/
theorem chars_ne_nil (n : Numeral) : n.chars ≠ [] := by
  unfold chars
  split <;> simp [n.whole_ne_nil]

/-- A number is made of digits and a point. -/
theorem mem_chars {n : Numeral} {c : Char} (h : c ∈ n.chars) : Text.isDigit c = true ∨ c = '.' := by
  unfold Numeral.chars at h
  split at h
  next => exact .inl (n.whole_digits c h)
  next ds hds =>
    rw [List.mem_append, List.mem_cons] at h
    rcases h with h | rfl | h
    · exact .inl (n.whole_digits c h)
    · exact .inr rfl
    · exact .inl (n.fraction_digits ds hds c h)

/-- A number gathers in one run. -/
theorem isGathered_of_mem (n : Numeral) : ∀ c ∈ n.chars, isGathered c = true := by
  intro c hc
  rcases mem_chars hc with h | rfl
  · exact isGathered_of_isDigit h
  · decide

/-- A number is the same in capitals. -/
theorem map_upper_chars (n : Numeral) : n.chars.map Text.upper = n.chars := by
  rw [List.map_congr_left (g := id), List.map_id]
  intro c hc
  rcases mem_chars hc with h | rfl
  · exact Text.upper_of_not_isLetter (Text.isLetter_of_isDigit h)
  · rfl

/-- A number has no blanks. -/
theorem isBlank_of_mem (n : Numeral) : ∀ c ∈ n.chars, Text.isBlank c = false := by
  intro c hc
  rcases mem_chars hc with h | rfl
  · exact Text.not_isBlank_of_isDigit h
  · decide

/-- A number begins with a digit. -/
theorem head?_chars (n : Numeral) : ∃ c, n.chars.head? = some c ∧ Text.isDigit c = true := by
  rcases List.exists_cons_of_ne_nil n.whole_ne_nil with ⟨c, cs, hcs⟩
  refine ⟨c, ?_, n.whole_digits c (by simp [hcs])⟩
  unfold chars
  rw [hcs]
  split <;> rfl

/-- Text that begins with a digit has no sign. -/
theorem takeSign_of_isDigit {cs : List Char} {c : Char} (hc : cs.head? = some c)
    (hdigit : Text.isDigit c = true) : Number.takeSign cs = (false, cs) := by
  unfold Number.takeSign
  split
  · rw [List.head?_cons, Option.some.injEq] at hc
    rw [← hc] at hdigit
    exact absurd hdigit (by decide)
  · rw [List.head?_cons, Option.some.injEq] at hc
    rw [← hc] at hdigit
    exact absurd hdigit (by decide)
  · rfl

/-- The literal that a number spells: all its digits, with as many of them after
    the point as there are places. -/
theorem read?_chars (n : Numeral) : Number.Literal.read? n.chars =
    some ⟨false, Nat.ofDigitChars 10 (n.whole ++ n.places) 0, -(n.places.length : Int)⟩ := by
  rcases n.head?_chars with ⟨c, hc, hdigit⟩
  have hsign : Number.takeSign n.chars = (false, n.chars) :=
    takeSign_of_isDigit hc hdigit
  have hne := n.whole_ne_nil
  unfold Number.Literal.read?
  rw [hsign]
  -- Without a point all digits are taken at once, with one they are taken in two pieces.
  cases hf : n.fraction with
  | none =>
    have hwhole : n.chars = n.whole := by simp [chars, hf]
    simp only [hwhole, List.takeWhile_eq_self_iff.2 n.whole_digits,
      List.dropWhile_eq_nil_iff.2 n.whole_digits]
    simp [hne, Number.readExponent?, places, hf]
  | some ds =>
    have hds := n.fraction_digits ds hf
    have hwhole : n.chars = n.whole ++ '.' :: ds := by simp [chars, hf]
    simp only [hwhole, List.takeWhile_append_of_pos n.whole_digits,
      List.dropWhile_append_of_pos n.whole_digits,
      List.takeWhile_cons_of_neg (show ¬ Text.isDigit '.' = true by decide),
      List.dropWhile_cons_of_neg (show ¬ Text.isDigit '.' = true by decide),
      List.takeWhile_eq_self_iff.2 hds, List.dropWhile_eq_nil_iff.2 hds]
    simp [hne, Number.readExponent?, places, hf]

end Numeral

namespace Reference

/-- A cell gathers in one run. -/
theorem isGathered_of_mem (r : Reference) : ∀ c ∈ r.chars, isGathered c = true := by
  rcases CellRef.ofChars?_eq_some_iff.1 r.spelled with ⟨letters, digits, heq, h⟩
  intro c hc
  rw [heq, List.mem_append] at hc
  rcases hc with hc | hc
  · exact isGathered_of_isLetter (h.isLetter c hc)
  · exact isGathered_of_isDigit (h.isDigit c hc)

/-- A cell is not empty. -/
theorem chars_ne_nil (r : Reference) : r.chars ≠ [] := by
  rcases CellRef.ofChars?_eq_some_iff.1 r.spelled with ⟨letters, digits, heq, h⟩
  simp [heq, h.letters_ne_nil]

/-- A cell in capitals is the same cell. -/
theorem ofText?_capitals (r : Reference) :
    CellRef.ofText? (String.ofList (r.chars.map Text.upper)) = some r.cell := by
  rw [CellRef.ofText?, String.toList_ofList]
  exact CellRef.ofChars?_map_upper r.spelled

end Reference

/-! ## Ranges -/

/-- What a range stands for are its cells, if it stands for any. -/
theorem eq_cells_of_rangeCells? {limit : Nat} {r : Range} {cells : List CellRef}
    (h : rangeCells? limit r = some cells) : cells = r.cells := by
  unfold rangeCells? at h
  split at h
  · cases h
  · exact (Option.some.inj h).symm

/-- The converter and the tree replace a range by the same operands. -/
theorem rangeTokens_eq (limit : Nat) (r : Range) :
    Converter.rangeTokens limit r =
      ((rangeOperands limit r).reverse, (rangeOperands limit r).length) := by
  unfold Converter.rangeTokens rangeOperands rangeCells?
  split <;> simp [Range.length_cells]

/-- A range is replaced by at least one operand. -/
theorem rangeOperands_ne_nil (limit : Nat) (r : Range) : rangeOperands limit r ≠ [] := by
  unfold rangeOperands rangeCells?
  by_cases h : limit < r.count
  · simp [h]
  · rw [if_neg h]
    simp only [ne_eq, List.map_eq_nil_iff]
    intro hnil
    have := Range.count_pos r
    rw [← Range.length_cells, hnil] at this
    exact absurd this (by simp)

/-- Operands are counted as they are. -/
theorem counted_rangeOperands (limit : Nat) (r : Range) :
    (rangeOperands limit r).map Token.counted = rangeOperands limit r := by
  unfold rangeOperands
  split
  · rfl
  · rw [List.map_map]
    rfl

/-- The cells of a range between two spelled cells are on the grid, so their
    notation reads back. -/
theorem ofText?_cell_between {a b : Reference} {c : CellRef}
    (h : c ∈ (Range.between a.cell b.cell).cells) : CellRef.ofText? c.toText = some c := by
  have hfits : c.Fits := Range.fits_of_mem_between (CellRef.fits_of_ofChars? a.spelled)
    (CellRef.fits_of_ofChars? b.spelled) h
  rw [CellRef.ofText?, CellRef.toText, String.toList_ofList]
  exact CellRef.ofChars?_toChars hfits.1 hfits.2

/-! ## Post-order -/

/-- Every formula has a token. -/
theorem Expr.tokens_ne_nil (limit : Nat) (e : Expr) : e.tokens limit ≠ [] := by
  cases e <;> simp [Expr.tokens]

/-- Every argument has a token. -/
theorem Arg.tokens_ne_nil (limit : Nat) (a : Arg) : a.tokens limit ≠ [] := by
  cases a with
  | value e =>
    rw [Arg.tokens]
    exact e.tokens_ne_nil limit
  | range a b =>
    rw [Arg.tokens]
    exact rangeOperands_ne_nil limit _

/-! ## First characters -/

/-- The text is not empty and does not begin like the second half of a
    comparison. -/
def Starts (cs : List Char) : Prop :=
  ∃ c rest, cs = c :: rest ∧ c ≠ '=' ∧ c ≠ '>'

/-- What follows does not matter. -/
theorem Starts.append {cs : List Char} (h : Starts cs) (ds : List Char) : Starts (cs ++ ds) := by
  rcases h with ⟨c, rest, rfl, hc⟩
  exact ⟨c, rest ++ ds, rfl, hc⟩

/-- Such a text completes no comparison. -/
theorem Starts.head_ne {cs : List Char} (h : Starts cs) (ds : List Char) :
    (cs ++ ds).head? ≠ some '=' ∧ (cs ++ ds).head? ≠ some '>' := by
  rcases h with ⟨c, rest, rfl, hc⟩
  simpa using hc

/-- A run begins no such half. -/
theorem starts_gathered {cs : List Char} (hne : cs ≠ []) (h : ∀ c ∈ cs, isGathered c = true) :
    Starts cs := by
  cases cs with
  | nil => exact absurd rfl hne
  | cons c rest =>
    have hc := isGathered_iff.1 (h c (by simp))
    exact ⟨c, rest, rfl, by simp [hc], by simp [hc]⟩

/-- Neither does a run with a sign. -/
theorem starts_signed {cs : List Char} (negative : Bool) (hne : cs ≠ [])
    (h : ∀ c ∈ cs, isGathered c = true) : Starts (signChars negative ++ cs) := by
  cases negative with
  | false => exact starts_gathered hne h
  | true => exact ⟨'-', cs, rfl, by decide, by decide⟩

/-- Neither does a leaf. -/
theorem Atom.starts_text (a : Atom) : Starts a.text := by
  cases a with
  | number negative n => exact starts_signed negative n.chars_ne_nil n.isGathered_of_mem
  | cell negative r => exact starts_signed negative r.chars_ne_nil r.isGathered_of_mem
  | truth b => cases b <;> exact ⟨_, _, rfl, by decide, by decide⟩
  | quoted body h => exact ⟨'"', body ++ ['"'], rfl, by decide, by decide⟩

/-- No formula begins like the second half of a comparison. -/
theorem Expr.starts_text (level : Nat) : (e : Expr) → Starts (e.text level)
  | .atom a => by
    rw [Expr.text]
    exact a.starts_text
  | .binary op a b => by
    rw [Expr.text]
    split
    · exact ⟨'(', _, rfl, by decide, by decide⟩
    · exact (Expr.starts_text op.precedence a).append _
  | .callEmpty name _ => by
    rw [Expr.text]
    exact (starts_gathered name.ne_nil name.gathered).append _
  | .call name args => by
    rw [Expr.text]
    exact (starts_gathered name.ne_nil name.gathered).append _

end Formula

end Worksheet
