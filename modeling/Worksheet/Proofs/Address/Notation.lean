import Mathlib.Data.List.Induction
import Worksheet.Proofs.Address.Rectangle
import Worksheet.Proofs.Text.Letter

/-!
# The Notation of Cells and Ranges

What a reference looks like, and that writing one and reading it agree.

Reading takes everything up to the first digit for the column and the rest for
the row. `ofChars?_eq_some_iff` turns that into a statement without a scan: a
text spells a cell exactly when it is letters followed by digits whose two
values fit the grid. Everything else follows from it. Case does not matter
because the value of a letter does not depend on case, and the canonical
spelling reads back because base twenty-six without a zero has one numeral
for every positive number.

## Main definitions

* `CellRef.Fits`, `Range.Fits`: A cell and a range that have a notation.

## Theorems

* `numeralValue_numeral`, `numeral_numeralValue`: The letters of a number have its value, and
  are the only ones.
* `ofChars?_eq_some_iff`: The texts that spell a cell.
* `ofChars?_map_upper`, `ofChars?_map_upper_eq`: Reading does not depend on case.
* `ofChars?_toChars`: The canonical spelling reads back.
* `fits_of_ofChars?`: A cell that is spelled lies on the grid.
* `Range.ofText?_toText`: So does that of a range.
* `eq_of_ofChars?_toChars`, `eq_of_ofText?_toText`: What is read from the notation of a cell or
  a range is that cell or range.
-/

namespace Worksheet

/-- The cell has a notation: its row and its column, counted from one, are on the
    grid. -/
def CellRef.Fits (c : CellRef) : Prop :=
  c.row + 1 < Address.gridLimit ∧ c.col + 1 < Address.gridLimit

instance (c : CellRef) : Decidable c.Fits := inferInstanceAs (Decidable (_ ∧ _))

namespace Address

theorem toNat_letter {d : Nat} (h : d < 26) : (letter d).toNat = 65 + d := by
  unfold letter
  rw [show 'A'.toNat = 65 from rfl, Text.toNat_ofNat (by omega)]

theorem letterValue_letter {d : Nat} (h : d < 26) : letterValue (letter d) = d + 1 := by
  unfold letterValue
  rw [Text.toNat_upper, toNat_letter h, if_neg (by omega), show 'A'.toNat = 65 from rfl]
  omega

theorem isLetter_letter {d : Nat} (h : d < 26) : Text.isLetter (letter d) = true := by
  rw [Text.isLetter_iff, toNat_letter h]
  omega

theorem upper_letter {d : Nat} (h : d < 26) : Text.upper (letter d) = letter d := by
  rw [← Char.toNat_inj, Text.toNat_upper, toNat_letter h, if_neg (by omega)]

theorem numeralValue_append_singleton (cs : List Char) (c : Char) :
    numeralValue (cs ++ [c]) = numeralValue cs * 26 + letterValue c := by
  simp [numeralValue]

/-- The letters of a number have its value: a step of writing takes off one and
    divides, and a step of reading multiplies and adds it again. -/
theorem numeralValue_numeral (n : Nat) : numeralValue (numeral n) = n := by
  induction n using Nat.strongRecOn with
  | ind n ih =>
    cases n with
    | zero => simp [numeral, numeralValue]
    | succ n =>
      have hmod : n % 26 < 26 := Nat.mod_lt _ (by decide)
      rw [numeral, numeralValue_append_singleton, ih (n / 26) (by omega),
        letterValue_letter hmod]
      omega

/-- A numeral is written in capital letters. -/
theorem mem_numeral {n : Nat} {c : Char} (h : c ∈ numeral n) :
    Text.isLetter c = true ∧ Text.upper c = c := by
  induction n using Nat.strongRecOn with
  | ind n ih =>
    cases n with
    | zero => simp [numeral] at h
    | succ n =>
      have hmod : n % 26 < 26 := Nat.mod_lt _ (by decide)
      rw [numeral, List.mem_append, List.mem_singleton] at h
      rcases h with h | rfl
      · exact ih (n / 26) (by omega) h
      · exact ⟨isLetter_letter hmod, upper_letter hmod⟩

theorem columnLetters_of_lt {col : Nat} (h : col + 1 < gridLimit) :
    columnLetters col = numeral (col + 1) :=
  congrArg numeral (next_of_lt h)

/-- A column but the last one has letters. -/
theorem columnLetters_ne_nil {col : Nat} (h : col + 1 < gridLimit) : columnLetters col ≠ [] := by
  simp [columnLetters_of_lt h, numeral]

/-- Case does not change the value of a numeral. -/
theorem numeralValue_map_upper (cs : List Char) :
    numeralValue (cs.map Text.upper) = numeralValue cs := by
  simp [numeralValue, List.foldl_map, letterValue]

/-- The capital of a letter is the letter of a digit. -/
theorem exists_letter {c : Char} (h : Text.isLetter c = true) :
    ∃ d < 26, letterValue c = d + 1 ∧ letter d = Text.upper c := by
  have hletter := (Text.isLetter_iff c).1 h
  have hrange : 65 ≤ (Text.upper c).toNat ∧ (Text.upper c).toNat ≤ 90 := by
    rw [Text.toNat_upper]
    split <;> omega
  refine ⟨(Text.upper c).toNat - 65, by omega, rfl, ?_⟩
  rw [← Char.toNat_inj, toNat_letter (by omega)]
  omega

/-- Letters are the numeral of their value, written in capitals. -/
theorem numeral_numeralValue {cs : List Char} (h : ∀ c ∈ cs, Text.isLetter c = true) :
    numeral (numeralValue cs) = cs.map Text.upper := by
  induction cs using List.reverseRecOn with
  | nil => rw [numeralValue, List.foldl_nil, numeral, List.map_nil]
  | append_singleton cs c ih =>
    obtain ⟨d, hd, hvalue, hletter⟩ := exists_letter (h c (by simp))
    have hdiv : (numeralValue cs * 26 + d) / 26 = numeralValue cs := by omega
    have hmod : (numeralValue cs * 26 + d) % 26 = d := by omega
    rw [numeralValue_append_singleton, hvalue, ← Nat.add_assoc, numeral, hdiv, hmod, hletter,
      ih fun e he => h e (List.mem_append_left _ he), List.map_append, List.map_singleton]

end Address

namespace CellRef

open Address

/-- What the two parts of a spelled cell have to be: letters with a value that
    fits the grid, and digits with a value that does and is not zero. -/
structure Spells (letters digits : List Char) (r : CellRef) : Prop where
  letters_ne_nil : letters ≠ []
  isLetter : ∀ c ∈ letters, Text.isLetter c = true
  digits_ne_nil : digits ≠ []
  isDigit : ∀ c ∈ digits, Text.isDigit c = true
  col : numeralValue letters = r.col + 1
  row : Nat.ofDigitChars 10 digits 0 = r.row + 1
  col_lt : r.col + 1 < gridLimit
  row_lt : r.row + 1 < gridLimit

/-- The column is written back in the capitals of its letters. -/
theorem Spells.columnLetters_eq {letters digits : List Char} {r : CellRef}
    (h : Spells letters digits r) : columnLetters r.col = letters.map Text.upper := by
  rw [columnLetters_of_lt h.col_lt, ← h.col, numeral_numeralValue h.isLetter]

/-- A numeral that is not empty has a positive value. -/
theorem numeralValue_pos {cs : List Char} (h : cs ≠ []) : 0 < numeralValue cs := by
  rw [← List.dropLast_concat_getLast h, numeralValue_append_singleton]
  unfold letterValue
  omega

theorem takeWhile_letters {letters digits : List Char}
    (hl : ∀ c ∈ letters, Text.isLetter c = true) (hd : ∀ c ∈ digits, Text.isDigit c = true) :
    (letters ++ digits).takeWhile (fun c => !Text.isDigit c) = letters ∧
      (letters ++ digits).dropWhile (fun c => !Text.isDigit c) = digits := by
  have hl' : ∀ c ∈ letters, (!Text.isDigit c) = true := fun c hc => by
    simp [Text.isDigit_of_isLetter (hl c hc)]
  rw [List.takeWhile_append_of_pos hl', List.dropWhile_append_of_pos hl']
  cases digits with
  | nil => simp
  | cons d ds => simp [hd d (by simp)]

/-- A text spells a cell exactly when it is letters followed by digits, with
    values that fit the grid. -/
theorem ofChars?_eq_some_iff {cs : List Char} {r : CellRef} :
    ofChars? cs = some r ↔ ∃ letters digits, cs = letters ++ digits ∧ Spells letters digits r := by
  constructor
  · intro h
    refine ⟨_, _, (List.takeWhile_append_dropWhile (p := fun c => !Text.isDigit c)).symm, ?_⟩
    unfold ofChars? at h
    simp only [columnOf?] at h
    split at h
    · exact absurd h (by simp)
    · rename_i col hcol
      split at hcol
      · rename_i hletters
        split at h
        · rename_i hdigits
          have hpos := numeralValue_pos hletters.1
          simp only [Option.some.injEq] at h hcol
          subst h hcol
          exact
            { letters_ne_nil := hletters.1
              isLetter := by simpa [List.all_eq_true] using hletters.2.1
              digits_ne_nil := hdigits.1
              isDigit := by simpa [List.all_eq_true] using hdigits.2.1
              col := by simp only; omega
              row := by have := hdigits.2.2.2; simp only; omega
              col_lt := by have := hletters.2.2; simp only; omega
              row_lt := by have := hdigits.2.2; simp only; omega }
        · exact absurd h (by simp)
      · exact absurd hcol (by simp)
  · rintro ⟨letters, digits, rfl, h⟩
    have hsplit := takeWhile_letters h.isLetter h.isDigit
    unfold ofChars?
    simp only [hsplit.1, hsplit.2, columnOf?]
    rw [if_pos ⟨h.letters_ne_nil, by simpa [List.all_eq_true] using h.isLetter,
      by rw [h.col]; exact h.col_lt⟩]
    simp only
    rw [if_pos ⟨h.digits_ne_nil, by simpa [List.all_eq_true] using h.isDigit,
      by rw [h.row]; exact h.row_lt, by rw [h.row]; omega⟩, h.row, h.col]
    rfl

/-- The digits of a text without letters are the same in capitals. -/
theorem map_upper_digits {digits : List Char} (h : ∀ c ∈ digits, Text.isDigit c = true) :
    digits.map Text.upper = digits := by
  rw [List.map_congr_left fun c hc =>
    Text.upper_of_not_isLetter (Text.isLetter_of_isDigit (h c hc))]
  simp

/-- Capitals spell the same cell. -/
theorem Spells.map_upper {letters digits : List Char} {r : CellRef} (h : Spells letters digits r) :
    Spells (letters.map Text.upper) digits r :=
  { h with
    letters_ne_nil := by simpa using h.letters_ne_nil
    isLetter := by simpa using h.isLetter
    col := by rw [numeralValue_map_upper]; exact h.col }

/-- Reading a cell does not depend on case. -/
theorem ofChars?_map_upper {cs : List Char} {r : CellRef} (h : ofChars? cs = some r) :
    ofChars? (cs.map Text.upper) = some r := by
  rcases ofChars?_eq_some_iff.1 h with ⟨letters, digits, rfl, hs⟩
  refine ofChars?_eq_some_iff.2 ⟨_, _, ?_, hs.map_upper⟩
  rw [List.map_append, map_upper_digits hs.isDigit]

/-- Case does not matter for reading a cell. -/
theorem ofChars?_map_upper_eq (cs : List Char) : ofChars? (cs.map Text.upper) = ofChars? cs := by
  cases h : ofChars? cs with
  | some r => exact ofChars?_map_upper h
  | none =>
    cases h' : ofChars? (cs.map Text.upper) with
    | none => rfl
    | some r =>
      rcases ofChars?_eq_some_iff.1 h' with ⟨letters, digits, heq, hs⟩
      -- The capitals are cut in two, and so are the characters that they come from.
      rcases List.map_eq_append_iff.1 heq with ⟨ls, ds, rfl, rfl, rfl⟩
      have hletters : ∀ c ∈ ls, Text.isLetter c = true := by simpa using hs.isLetter
      have hdigits : ∀ c ∈ ds, Text.isDigit c = true := by simpa using hs.isDigit
      have hspells : Spells ls ds r :=
        { letters_ne_nil := by simpa using hs.letters_ne_nil
          isLetter := hletters
          digits_ne_nil := by simpa using hs.digits_ne_nil
          isDigit := hdigits
          col := by rw [← numeralValue_map_upper]; exact hs.col
          row := by rw [← map_upper_digits hdigits]; exact hs.row
          col_lt := hs.col_lt
          row_lt := hs.row_lt }
      rw [ofChars?_eq_some_iff.2 ⟨ls, ds, rfl, hspells⟩] at h
      exact absurd h (by simp)

/-- A cell that is spelled lies on the grid, with room for counting its row and
    column from one. -/
theorem fits_of_ofChars? {cs : List Char} {r : CellRef} (h : ofChars? cs = some r) :
    r.row + 1 < gridLimit ∧ r.col + 1 < gridLimit := by
  rcases ofChars?_eq_some_iff.1 h with ⟨letters, digits, -, hs⟩
  exact ⟨hs.row_lt, hs.col_lt⟩

/-- The canonical spelling is a spelling. -/
theorem spells_toChars {r : CellRef} (hr : r.row + 1 < gridLimit) (hc : r.col + 1 < gridLimit) :
    Spells (columnLetters r.col) (Nat.toDigits 10 (next r.row)) r where
  letters_ne_nil := columnLetters_ne_nil hc
  isLetter := fun _ h => (mem_numeral h).1
  digits_ne_nil := Nat.toDigits_ne_nil
  isDigit := fun _ h => Text.isDigit_of_mem_toDigits h
  col := by rw [columnLetters_of_lt hc, numeralValue_numeral]
  row := by rw [Nat.ofDigitChars_ten_toDigits, next_of_lt hr]
  col_lt := hc
  row_lt := hr

/-- The canonical spelling of a cell reads back. -/
theorem ofChars?_toChars {r : CellRef} (hr : r.row + 1 < gridLimit) (hc : r.col + 1 < gridLimit) :
    ofChars? r.toChars = some r :=
  ofChars?_eq_some_iff.2 ⟨_, _, rfl, spells_toChars hr hc⟩

/-- The scan for the first digit cuts the notation where the writer joined it. -/
theorem eq_of_ofChars?_toChars {c d : CellRef} (h : ofChars? c.toChars = some d) : d = c := by
  rcases ofChars?_eq_some_iff.1 h with ⟨letters, digits, hcs, hs⟩
  have hl : ∀ x ∈ columnLetters c.col, Text.isLetter x = true := fun x hx => (mem_numeral hx).1
  have hd : ∀ x ∈ Nat.toDigits 10 (next c.row), Text.isDigit x = true := fun x hx =>
    Text.isDigit_of_mem_toDigits hx
  have hwritten := takeWhile_letters hl hd
  have hread := takeWhile_letters hs.isLetter hs.isDigit
  rw [← hcs, toChars, hwritten.1, hwritten.2] at hread
  have hcol := hs.col
  have hrow := hs.row
  -- What is read is never zero, which is what comes after the last index.
  rw [← hread.1, columnLetters, numeralValue_numeral, ← next_of_lt hs.col_lt] at hcol
  rw [← hread.2, Nat.ofDigitChars_ten_toDigits, ← next_of_lt hs.row_lt] at hrow
  obtain ⟨row, col⟩ := c
  obtain ⟨row', col'⟩ := d
  rw [mk.injEq]
  exact ⟨(next_injective hrow).symm, (next_injective hcol).symm⟩

theorem colon_not_mem_toChars (c : CellRef) : ':' ∉ c.toChars := by
  rw [toChars, List.mem_append]
  rintro (h | h)
  · exact absurd (mem_numeral h).1 (by decide)
  · have := Nat.isDigit_of_mem_toDigits (by decide) (by decide) h
    revert this
    decide

end CellRef

theorem Text.cutAt_append {sep : Char} {cs ds : List Char} (h : sep ∉ cs) :
    cutAt sep (cs ++ sep :: ds) = some (cs, ds) := by
  induction cs with
  | nil => simp [cutAt]
  | cons c cs ih =>
    rw [List.mem_cons, not_or] at h
    simp [cutAt, Ne.symm h.1, ih h.2]

theorem Text.cutAt_eq_none {sep : Char} {cs : List Char} (h : sep ∉ cs) : cutAt sep cs = none := by
  induction cs with
  | nil => rfl
  | cons c cs ih =>
    rw [List.mem_cons, not_or] at h
    simp [cutAt, Ne.symm h.1, ih h.2]

/-- A text has no separator, or it is cut at the first one. -/
theorem Text.cutAt_cases (sep : Char) (cs : List Char) :
    (sep ∉ cs ∧ cutAt sep cs = none) ∨
      ∃ ds es, sep ∉ ds ∧ cs = ds ++ sep :: es ∧ cutAt sep cs = some (ds, es) := by
  by_cases hmem : sep ∈ cs
  · obtain ⟨ds, es, rfl, hds⟩ := List.eq_append_cons_of_mem hmem
    exact .inr ⟨ds, es, hds, rfl, cutAt_append hds⟩
  · exact .inl ⟨hmem, cutAt_eq_none hmem⟩

namespace Range

theorem between_first_last (r : Range) : between r.first r.last = r := by
  obtain ⟨top, left, bottom, right, ht, hl⟩ := r
  simp [between, first, last, ht, hl]

theorem single_first {r : Range} (h : r.isMultiple = false) : single r.first = r := by
  obtain ⟨top, left, bottom, right, ht, hl⟩ := r
  have hcount : (bottom - top + 1) * (right - left + 1) ≤ 1 :=
    Nat.le_of_not_lt (of_decide_eq_false h)
  have hheight : bottom - top + 1 ≤ 1 :=
    (Nat.le_mul_of_pos_right _ (Nat.succ_pos _)).trans hcount
  have hwidth : right - left + 1 ≤ 1 :=
    (Nat.le_mul_of_pos_left _ (Nat.succ_pos _)).trans hcount
  simp only [single, first, mk.injEq, true_and]
  omega

/-- A cell between two cells that have a notation has one. -/
theorem fits_of_mem_between {a b c : CellRef} (ha : a.Fits) (hb : b.Fits)
    (hc : c ∈ (between a b).cells) : c.Fits := by
  rcases mem_cells hc with ⟨-, hrow, -, hcol⟩
  have hbottom : (between a b).bottom + 1 < Address.gridLimit := by
    rw [between, ← Nat.add_max_add_right]
    exact Nat.max_lt.2 ⟨ha.1, hb.1⟩
  have hright : (between a b).right + 1 < Address.gridLimit := by
    rw [between, ← Nat.add_max_add_right]
    exact Nat.max_lt.2 ⟨ha.2, hb.2⟩
  exact ⟨Nat.lt_of_le_of_lt (Nat.succ_le_succ hrow) hbottom,
    Nat.lt_of_le_of_lt (Nat.succ_le_succ hcol) hright⟩

/-- Has a range a notation? Its last cell has to have one, and sixty-four bits to hold
    the number of its cells. -/
structure Fits (r : Range) : Prop where
  last : r.last.Fits
  count : r.count < Address.gridLimit

instance (r : Range) : Decidable r.Fits :=
  decidable_of_iff (r.last.Fits ∧ r.count < Address.gridLimit)
    ⟨fun h => ⟨h.1, h.2⟩, fun h => ⟨h.last, h.count⟩⟩

/-- Both corners are written if there are several cells, when these are counted right. -/
theorem toChars_of_lt {r : Range} (h : r.count < Address.gridLimit) :
    r.toChars = if r.isMultiple then r.first.toChars ++ ':' :: r.last.toChars
      else r.first.toChars := by
  rw [toChars]
  simp only [one_lt_tally_iff h]

/-- The notation of a range reads back. -/
theorem ofText?_toText {r : Range} (h : r.Fits) : ofText? r.toText = some r := by
  have hlast : CellRef.ofChars? r.last.toChars = some r.last :=
    CellRef.ofChars?_toChars h.last.1 h.last.2
  have hfirst : CellRef.ofChars? r.first.toChars = some r.first :=
    CellRef.ofChars?_toChars (Nat.lt_of_le_of_lt (Nat.succ_le_succ r.top_le_bottom) h.last.1)
      (Nat.lt_of_le_of_lt (Nat.succ_le_succ r.left_le_right) h.last.2)
  have hcolon := CellRef.colon_not_mem_toChars r.first
  simp only [ofText?, toText, String.toList_ofList, ofChars?, toChars_of_lt h.count]
  by_cases hmultiple : r.isMultiple = true
  · rw [if_pos hmultiple, Text.cutAt_append hcolon]
    simp only [hfirst, hlast, between_first_last]
  · rw [if_neg hmultiple, Text.cutAt_eq_none hcolon]
    simp only [hfirst, Option.map_some, single_first (Bool.eq_false_iff.2 hmultiple)]

/-- A range that is read from its notation is the range that was written, if its cells
    could be counted. -/
theorem eq_of_ofText?_toText {r r' : Range} (hcount : r.count < Address.gridLimit)
    (h : ofText? r.toText = some r') : r' = r := by
  simp only [ofText?, toText, String.toList_ofList, ofChars?, toChars_of_lt hcount] at h
  split at h
  · rename_i a b hcut
    split at hcut
    · rw [Text.cutAt_append (CellRef.colon_not_mem_toChars _)] at hcut
      cases hcut
      split at h
      · rename_i c d hc hd
        cases h
        rw [CellRef.eq_of_ofChars?_toChars hc, CellRef.eq_of_ofChars?_toChars hd,
          between_first_last]
      · cases h
    · rw [Text.cutAt_eq_none (CellRef.colon_not_mem_toChars _)] at hcut
      cases hcut
  · rename_i hcut
    split at hcut
    · rw [Text.cutAt_append (CellRef.colon_not_mem_toChars _)] at hcut
      cases hcut
    · rename_i hmultiple
      rw [if_neg hmultiple] at h
      obtain ⟨c, hc, rfl⟩ := Option.map_eq_some_iff.1 h
      rw [CellRef.eq_of_ofChars?_toChars hc, single_first (by simpa using hmultiple)]

end Range

end Worksheet
