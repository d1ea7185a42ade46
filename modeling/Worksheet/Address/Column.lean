import Worksheet.Address.Index
import Worksheet.Text.Word

/-!
# Column Letters

Naming columns by letters.

Columns are numbered from zero and written in letters: `A` to `Z`, then `AA`,
`AB` and so on. There is no letter for zero, so this is the numeral system of
base twenty-six whose digits run from one to twenty-six, and each step of
writing takes one off before it divides. In that system every positive number
has exactly one numeral, which is why letters and column numbers determine
each other.

## Main definitions

* `numeral`: The letters that stand for a positive number.
* `numeralValue`: The number a run of letters stands for.
* `columnLetters`, `columnOf?`: Letters of a column, column of some letters.
-/

namespace Worksheet

namespace Address

/-- The letter of a digit, counted from zero. -/
def letter (d : Nat) : Char :=
  Char.ofNat ('A'.toNat + d)

/-- The letters that stand for a number; zero has none. -/
def numeral : Nat → List Char
  | 0 => []
  | n + 1 => numeral (n / 26) ++ [letter (n % 26)]
decreasing_by omega

/-- What one letter of either case counts, from one to twenty-six. -/
def letterValue (c : Char) : Nat :=
  (Text.upper c).toNat - 'A'.toNat + 1

/-- The number a run of letters stands for. -/
def numeralValue (cs : List Char) : Nat :=
  cs.foldl (fun acc c => acc * 26 + letterValue c) 0

/-- The letters of a column. The last column of the grid has none. -/
def columnLetters (col : Nat) : List Char :=
  numeral (next col)

/-- The column that letters of either case name. Letters whose number does
    not fit the grid name none. -/
def columnOf? (cs : List Char) : Option Nat :=
  if cs ≠ [] ∧ cs.all Text.isLetter ∧ numeralValue cs < gridLimit then
    some (numeralValue cs - 1)
  else none

end Address

end Worksheet
