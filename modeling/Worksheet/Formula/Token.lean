/-!
# Tokens of a Formula

What a formula is converted to before it is evaluated.

A formula in postfix order is a list of tokens: operands push a value,
operators take two values and calls take as many as they say. An operand is
still text, because whether it is a number, a truth value or a reference is
decided when it is evaluated.

A call comes in two kinds. One closed without an argument list takes whatever
its parentheses produced, and one with a list says how many arguments the
list has. They evaluate alike and are only shown differently.

## Main definitions

* `Operator`: The eleven binary operators, with `symbol` and `precedence`.
* `Token`: One token in postfix order.
* `Token.shown`: The token as text.
-/

namespace Worksheet

namespace Formula

/-- A binary operator. -/
inductive Operator where
  | add
  | sub
  | mul
  | div
  | concat
  | eq
  | ne
  | lt
  | le
  | gt
  | ge
  deriving DecidableEq, Repr

namespace Operator

/-- How the operator is written. -/
def symbol : Operator → String
  | .add => "+"
  | .sub => "-"
  | .mul => "*"
  | .div => "/"
  | .concat => "&"
  | .eq => "="
  | .ne => "<>"
  | .lt => "<"
  | .le => "<="
  | .gt => ">"
  | .ge => ">="

/-- How tightly the operator binds. Products bind most, then sums, then
    joining texts, and comparisons least. -/
def precedence : Operator → Nat
  | .mul | .div => 4
  | .add | .sub => 3
  | .concat => 2
  | _ => 1

/-- Is it one of the six comparisons? -/
def isComparison (op : Operator) : Bool := op.precedence == 1

/-- Every operator. -/
def all : List Operator := [.add, .sub, .mul, .div, .concat, .eq, .ne, .lt, .le, .gt, .ge]

/-- The operator that a symbol writes. -/
def ofSymbol? (s : String) : Option Operator := all.find? fun op => op.symbol == s

end Operator

/-- One token in postfix order. -/
inductive Token where
  /-- A number, a truth value or a reference, perhaps with a minus sign. -/
  | operand (text : String)
  /-- The text between two quotes. -/
  | quoted (text : String)
  | op (op : Operator)
  /-- A call closed without an argument list, on no value or one. -/
  | func (name : String) (arity : Nat)
  /-- A call with a counted argument list. -/
  | call (name : String) (arity : Nat)
  deriving DecidableEq, Repr

/-- The token as text; a quoted text keeps its opening quote. -/
def Token.shown : Token → String
  | .operand text => text
  | .quoted text => "\"" ++ text
  | .op o => o.symbol
  | .func name _ => name
  | .call name arity => "[" ++ name ++ "," ++ toString arity ++ "]"

end Formula

end Worksheet
