import Worksheet.Formula.Evaluation
import Worksheet.Rows.Basic

/-!
# Exporting Values

The rows with every formula replaced by its value.

The texts of the exported cells are values, and the formulas stay beside
them. Every formula is evaluated on its own against the rows as they are, so
exporting one cell does not affect the value of another.

## Main definitions

* `Rows.lookup`: The texts that formulas refer to.
* `Rows.exported`: The rows with values in place of formulas.
-/

namespace Worksheet

namespace Rows

/-- The text of every cell, as formulas see it. -/
def lookup (s : Rows) : Formula.Lookup := s.content

/-- The rows with every formula's text replaced by its value, and the formula
    kept beside it. -/
def exported (limits : Formula.Limits) (s : Rows) : Rows :=
  s.mapCells fun c cell =>
    if cell.isFormula then
      { cell with
        formula := cell.text
        text := some (Formula.evaluateCell limits s.lookup c).1.toText }
    else cell

end Rows

end Worksheet
