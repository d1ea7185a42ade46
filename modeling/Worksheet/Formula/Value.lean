import Worksheet.Number.Notation
import Worksheet.Text.Word

/-!
# Values of Formulas

What a formula evaluates to, and how values turn into one another.

Failure is a value like the others. It flows through operators and functions,
so a formula always has a value and evaluation never stops half way. Each of
the five failures has a sentinel text that shows it in a cell and that can be
typed into a formula.

A value is read as a number in two ways. What it *is*: a number, or text that
spells one. What it *counts as* for functions over numbers: truth values are
one and zero, and blank text is zero.

## Main definitions

* `Failure`: The five failures and their sentinels.
* `Value`: Numbers, texts, truth values and failures.
* `asNumber?`, `toNumber`, `toBool`, `toText`, `isTruthy`: Conversions.
-/

namespace Worksheet

namespace Formula

/-- Why a formula has no ordinary value. -/
inductive Failure where
  /-- An argument of the wrong type, or a malformed expression. -/
  | value
  /-- Division by zero, or the mean of nothing. -/
  | division
  /-- An unknown function or identifier. -/
  | name
  /-- A circular reference, or a chain of references that is too long. -/
  | circular
  /-- A reference off the grid. -/
  | reference
  deriving DecidableEq, Repr, Inhabited

namespace Failure

/-- The text that shows the failure. -/
def sentinel : Failure → String
  | .value => "#VALUE!"
  | .division => "#DIV/0!"
  | .name => "#NAME?"
  | .circular => "#CIRC!"
  | .reference => "#REF!"

/-- Every failure. -/
def all : List Failure := [.value, .division, .name, .circular, .reference]

/-- The failure that a text shows. -/
def ofSentinel? (s : String) : Option Failure := all.find? fun e => e.sentinel == s

end Failure

/-- What a formula evaluates to. -/
inductive Value where
  | number (x : Float)
  | text (s : String)
  | boolean (b : Bool)
  | failure (e : Failure)
  deriving DecidableEq, Inhabited

namespace Value

/-- Text that spells a number is that number, and any other text is text. -/
def ofText (s : String) : Value :=
  match Number.ofText? s with
  | some x => .number x
  | none => .text s

/-- The number a value is. -/
def asNumber? : Value → Option Float
  | .number x => some x
  | .text s => Number.ofText? s
  | _ => none

/-- The number a value counts as. -/
def toNumber : Value → Except Failure Float
  | .number x => .ok x
  | .boolean b => .ok (if b then 1.0 else 0.0)
  | .text s =>
    if Text.isAllBlank s then .ok 0.0
    else match Number.ofText? s with
      | some x => .ok x
      | none => .error .value
  | .failure e => .error e

/-- The text of a value. -/
def toText : Value → String
  | .number x => Number.toText x
  | .text s => s
  | .boolean b => if b then "TRUE" else "FALSE"
  | .failure e => e.sentinel

/-- Capitals for comparing with a word. The long s is the one letter outside
    ASCII whose capital is an ASCII letter of `TRUE` or `FALSE`. -/
def capital (c : Char) : Char :=
  if c = 'ſ' then 'S' else Text.upper c

/-- The truth value a value is: only truth values and the two words are. -/
def toBool : Value → Except Failure Bool
  | .boolean b => .ok b
  | .text s =>
    let word := String.ofList ((Text.trimChars s.toList).map capital)
    if word = "TRUE" then .ok true
    else if word = "FALSE" then .ok false
    else .error .value
  | .number _ => .error .value
  | .failure e => .error e

/-- What a value counts as in a list of conditions. -/
def isTruthy : Value → Bool
  | .boolean b => b
  | .number x => x != 0.0 && !x.isNaN
  | .text s => s != ""
  | .failure _ => false

/-- Is the value a failure? -/
def isFailure : Value → Bool
  | .failure _ => true
  | _ => false

/-- Is the value the empty text? -/
def isBlank : Value → Bool
  | .text s => s == ""
  | _ => false

end Value

end Formula

end Worksheet
