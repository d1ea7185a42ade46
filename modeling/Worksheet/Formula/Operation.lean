import Worksheet.Formula.Token
import Worksheet.Formula.Value

/-!
# Operators on Values

What the binary operators compute.

A failure on either side is the result, the left one first. Sums and products
want numbers on both sides; a blank beside a number counts as zero. Anything
else degrades to a text that spells the operation out, so `"a" + 1` is the
text `a+1`. Comparisons compare numbers when both sides are numbers or truth
values, and the texts of the values otherwise.

## Main definitions

* `arithmetic`: Sums and products.
* `comparison`: The six comparisons.
* `binary`: Any operator.
* `negate`: The minus sign in front of a value.
-/

namespace Worksheet

namespace Formula

/-- The two numbers that an operation is about: both sides are numbers, or one
    is and the other is blank. -/
def operands? (a b : Value) : Option (Float × Float) :=
  match a.asNumber?, b.asNumber? with
  | some x, some y => some (x, y)
  | none, some y => if a.isBlank then some (0.0, y) else none
  | some x, none => if b.isBlank then some (x, 0.0) else none
  | none, none => none

/-- An operation on two numbers. -/
def compute (op : Operator) (x y : Float) : Value :=
  match op with
  | .add => .number (x + y)
  | .sub => .number (x - y)
  | .mul => .number (x * y)
  | .div => if y == 0.0 then .failure .division else .number (x / y)
  | _ => .failure .value

/-- A sum, difference, product or quotient of values. -/
def arithmetic (op : Operator) (a b : Value) : Value :=
  match a, b with
  | .failure e, _ => .failure e
  | _, .failure e => .failure e
  | a, b => match operands? a b with
    | some (x, y) => compute op x y
    | none => .text (a.toText ++ op.symbol ++ b.toText)

/-- The number a value is in a comparison. -/
def comparable? : Value → Option Float
  | .boolean b => some (if b then 1.0 else 0.0)
  | v => v.asNumber?

/-- How two doubles compare; there is no answer when one is not a number. -/
def compareFloat? (x y : Float) : Option Ordering :=
  if x < y then some .lt
  else if x == y then some .eq
  else if y < x then some .gt
  else none

/-- Does the outcome of a comparison satisfy the operator? -/
def satisfies (op : Operator) (o : Ordering) : Value :=
  match op with
  | .eq => .boolean o.isEq
  | .ne => .boolean o.isNe
  | .lt => .boolean o.isLT
  | .le => .boolean o.isLE
  | .gt => .boolean o.isGT
  | .ge => .boolean o.isGE
  | _ => .failure .value

/-- A comparison of values. -/
def comparison (op : Operator) (a b : Value) : Value :=
  match a, b with
  | .failure e, _ => .failure e
  | _, .failure e => .failure e
  | a, b =>
    let order := match comparable? a, comparable? b with
      | some x, some y => compareFloat? x y
      | _, _ => some (compare a.toText b.toText)
    match order with
    | some o => satisfies op o
    | none => .boolean false

/-- The texts of two values, joined. -/
def join (a b : Value) : Value :=
  match a, b with
  | .failure e, _ => .failure e
  | _, .failure e => .failure e
  | a, b => .text (a.toText ++ b.toText)

/-- Any binary operator. -/
def binary (op : Operator) (a b : Value) : Value :=
  match op with
  | .add | .sub | .mul | .div => arithmetic op a b
  | .concat => join a b
  | _ => comparison op a b

/-- A minus sign in front of a value. What is no number is left alone. -/
def negate (v : Value) : Value :=
  match v.asNumber? with
  | some x => .number (-x)
  | none => v

end Formula

end Worksheet
