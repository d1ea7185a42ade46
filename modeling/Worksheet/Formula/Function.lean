import Worksheet.Digest.Md5
import Worksheet.Formula.Operation
import Worksheet.Number.Extreme

/-!
# Functions

The functions that a formula can call.

A function takes the list of its arguments, which are values already, and a
function that needs more or fewer than it got fails. Functions over numbers
fail with the first argument that is no number; functions over conditions and
texts fail with the first argument that is a failure.

## Main definitions

* `Function`: The nine functions and their names.
* `Function.apply`: What a function computes.
* `callByName`: The same by name, failing when there is no such function.
-/

namespace Worksheet

namespace Formula

/-- A function of formulas. -/
inductive Function where
  | sum
  | average
  | max
  | min
  | cond
  | and
  | or
  | concat
  | md5
  deriving DecidableEq, Repr

namespace Function

/-- The name a function is called by. -/
def name : Function → String
  | .sum => "SUM"
  | .average => "AVERAGE"
  | .max => "MAX"
  | .min => "MIN"
  | .cond => "IF"
  | .and => "AND"
  | .or => "OR"
  | .concat => "CONCAT"
  | .md5 => "MD5"

/-- Every function. -/
def all : List Function := [.sum, .average, .max, .min, .cond, .and, .or, .concat, .md5]

/-- The function of a name in capitals. -/
def ofName? (s : String) : Option Function := all.find? fun f => f.name == s

/-- Does the function always take exactly one value? -/
def isUnary (f : Function) : Bool := f == .md5

end Function

/-- The first argument that is a failure. -/
def firstFailure? (args : List Value) : Option Value := args.find? Value.isFailure

/-- The numbers that the arguments count as. -/
def numbers : List Value → Except Failure (List Float)
  | [] => .ok []
  | v :: vs => match v.toNumber with
    | .error e => .error e
    | .ok x => match numbers vs with
      | .error e => .error e
      | .ok xs => .ok (x :: xs)

/-- The sum, by the rules of the operator: text degrades to spelled-out
    text. -/
def sumOf (args : List Value) : Value :=
  args.foldl (arithmetic .add) (.number 0.0)

/-- The mean. -/
def averageOf (args : List Value) : Value :=
  match args with
  | [] => .failure .division
  | _ => match numbers args with
    | .ok xs => .number (xs.foldl (· + ·) 0.0 / (UInt64.ofNat xs.length).toFloat)
    | .error e => .failure e

/-- The argument that wins every comparison. -/
def extremeOf (pick : Float → Float → Float) (args : List Value) : Value :=
  match numbers args with
  | .ok [] => .failure .value
  | .ok (x :: xs) => .number (xs.foldl pick x)
  | .error e => .failure e

/-- A choice between one or two values; without a second one, the truth value
    false stands for it. -/
def condOf : List Value → Value
  | [c, a] => choose c a (.boolean false)
  | [c, a, b] => choose c a b
  | _ => .failure .value
where
  /-- The value that a condition picks. -/
  choose (c a b : Value) : Value :=
    match c.toBool with
    | .ok true => a
    | .ok false => b
    | .error e => .failure e

/-- Do all arguments hold? -/
def allOf (args : List Value) : Value :=
  match args with
  | [] => .failure .value
  | _ => (firstFailure? args).getD (.boolean (args.all Value.isTruthy))

/-- Does any argument hold? -/
def anyOf (args : List Value) : Value :=
  match args with
  | [] => .failure .value
  | _ => (firstFailure? args).getD (.boolean (args.any Value.isTruthy))

/-- The texts of the arguments, joined. -/
def concatOf (args : List Value) : Value :=
  (firstFailure? args).getD (.text (args.foldl (fun s v => s ++ v.toText) ""))

/-- The digest of the text of one argument. -/
def md5Of : List Value → Value
  | [.failure e] => .failure e
  | [v] => .text (Digest.md5Hex v.toText)
  | _ => .failure .value

/-- What a function computes from its arguments. -/
def Function.apply : Function → List Value → Value
  | .sum => sumOf
  | .average => averageOf
  | .max => extremeOf Number.greater
  | .min => extremeOf Number.smaller
  | .cond => condOf
  | .and => allOf
  | .or => anyOf
  | .concat => concatOf
  | .md5 => md5Of

/-- Call a function by name. -/
def callByName (name : String) (args : List Value) : Value :=
  match Function.ofName? name with
  | some f => f.apply args
  | none => .failure .name

end Formula

end Worksheet
